/-
# The nearest candidate of a kind

A search along a lap finds the nearest candidate that is wanted (`PairSet.Nearest`):
so many steps away on the circle, with none that is wanted on the way there.  That is
what it answers when there is one (`seek?_of_nearest`), there is one whenever some
candidate is wanted (`exists_nearest`), and otherwise it answers nothing
(`seek?_eq_none`).  Steps are counted from 1 to the number of candidates, so the start
itself is the last place that is considered.

What a search costs is how many pairs it asks about.  `seekAsking?` is the same search
with questions that are put down (`Asking`): it answers as the search does, and the
pairs it asks about are some of those on the lap, none of them twice
(`run_seekAsking?`).
-/

import PairAnnotation.Proofs.PairSet.Round

namespace PairAnnotation
namespace PairSet

/-! ### Steps on the circle -/

/-- The position so many steps away from another one, on a circle of `total` positions. -/
def ahead (total start : Nat) : Direction → Nat → Nat
  | .next, steps => (start + steps) % total
  | .previous, steps => (start + (total - steps)) % total

variable {s : PairSet} {start : Nat} {d : Direction}

/-- A whole round leads back to the start, whichever way it goes. -/
theorem ahead_total {total : Nat} (h : start < total) : ahead total start d total = start := by
  cases d with
  | next => rw [ahead, Nat.add_mod_right, Nat.mod_eq_of_lt h]
  | previous => rw [ahead, Nat.sub_self, Nat.add_zero, Nat.mod_eq_of_lt h]

/-- A lap is, step by step, as far ahead of its start as steps were made, the start itself included
at last. -/
theorem getElem_positions_lap (h : start < s.length) {k : Nat}
    (hk : k < ((s.lap start d).map Place.position).length) :
    ((s.lap start d).map Place.position)[k] = ahead s.length start d (k + 1) := by
  simp only [positions_lap d h]
  have hlength : k < s.length := by simpa [positions_lap d h, length_tour] using hk
  cases d with
  | next => simp [tour, ahead, Nat.add_left_comm]
  | previous =>
    simp only [tour, List.getElem_reverse, List.getElem_rotate, List.getElem_range,
      List.length_rotate, List.length_range, ahead]
    congr 1
    omega

/-- **The place so many steps along a lap** is that of the candidate so many steps ahead. -/
theorem getElem_lap (h : start < s.length) {k : Nat} (hk : k < (s.lap start d).length) :
    ∃ p, s.get? (ahead s.length start d (k + 1)) = some p ∧
      (s.lap start d)[k] = ⟨ahead s.length start d (k + 1), p⟩ := by
  have hposition := getElem_positions_lap h (d := d) (k := k) (by simpa using hk)
  rw [List.getElem_map] at hposition
  have hplace := (rounds_of_lt h).candidate d _ (List.getElem_mem hk)
  rw [hposition] at hplace
  exact ⟨_, hplace, by rw [← hposition]⟩

/-! ### The nearest candidate -/

/-- **The nearest candidate that is wanted**, some steps away in a direction: none of those before
it on the way is wanted. -/
structure Nearest (s : PairSet) (start : Nat) (d : Direction) (wanted : Pair → Prop) (steps : Nat)
    (p : Pair) : Prop where
  pos : 0 < steps
  le : steps ≤ s.length
  candidate : s.get? (ahead s.length start d steps) = some p
  hit : wanted p
  first (k : Nat) (hpos : 0 < k) (hlt : k < steps) (q : Pair)
    (hq : s.get? (ahead s.length start d k) = some q) : ¬ wanted q

/-- **A search finds the nearest candidate** that is wanted, at its position, since the lap meets it
first. -/
theorem seek?_of_nearest (h : start < s.length) {wanted : Pair → Bool} {steps : Nat} {p : Pair}
    (hnearest : s.Nearest start d (wanted · = true) steps p) :
    s.seek? start d wanted = some ⟨ahead s.length start d steps, p⟩ := by
  have hlength := (rounds_of_lt h).length d
  obtain ⟨k, rfl⟩ := Nat.exists_eq_add_of_lt hnearest.pos
  rw [Nat.zero_add] at hnearest ⊢
  have hle := hnearest.le
  rw [seek?_eq_find?, List.find?_eq_some_iff_getElem]
  refine ⟨hnearest.hit, k, by omega, ?_, fun j hj => ?_⟩
  · obtain ⟨q, hq, hplace⟩ := getElem_lap h (d := d) (k := k) (by omega)
    rw [hplace, Option.some.inj (hq.symm.trans hnearest.candidate)]
  · obtain ⟨q, hq, hplace⟩ := getElem_lap h (d := d) (k := j) (by omega)
    rw [hplace, Bool.not_eq_true']
    exact Bool.eq_false_iff.2 (hnearest.first (j + 1) (by omega) (by omega) q hq)

/-- A candidate is met on every lap, wherever the lap starts. -/
theorem exists_getElem_lap (h : start < s.length) {p : Pair} (hp : p ∈ s.toList) :
    ∃ k, ∃ hk : k < (s.lap start d).length, (s.lap start d)[k].pair = p := by
  obtain ⟨i, hi⟩ := Candidates.mem_toList_iff.1 hp
  have hround := rounds_of_lt h
  have hmem : i ∈ (s.lap start d).map Place.position := by
    rw [(hround.once d).mem_iff, List.mem_range]
    exact Candidates.lt_length_of_get? hi
  obtain ⟨x, hx, rfl⟩ := List.mem_map.1 hmem
  obtain ⟨k, hk, rfl⟩ := List.getElem_of_mem hx
  exact ⟨k, hk, Option.some.inj ((hround.candidate d _ hx).symm.trans hi)⟩

/-- **Some candidate is the nearest** as soon as one is wanted. -/
theorem exists_nearest (h : start < s.length) {wanted : Pair → Prop} (d : Direction)
    (hwanted : ∃ p ∈ s.toList, wanted p) : ∃ steps p, s.Nearest start d wanted steps p := by
  classical
  have hlength := (rounds_of_lt h).length d
  obtain ⟨p, hp, hpw⟩ := hwanted
  obtain ⟨k, hk, rfl⟩ := exists_getElem_lap h (d := d) hp
  -- The least number of steps that lead to a candidate that is wanted.
  have hexists : ∃ k q, s.get? (ahead s.length start d (k + 1)) = some q ∧ wanted q := by
    obtain ⟨q, hq, hplace⟩ := getElem_lap h hk
    rw [hplace] at hpw
    exact ⟨k, q, hq, hpw⟩
  have hle : Nat.find hexists ≤ k := by
    obtain ⟨q, hq, hplace⟩ := getElem_lap h hk
    rw [hplace] at hpw
    exact Nat.find_min' hexists ⟨q, hq, hpw⟩
  obtain ⟨q, hq, hqw⟩ := Nat.find_spec hexists
  refine ⟨Nat.find hexists + 1, q, Nat.succ_pos _, by omega, hq, hqw, fun j hpos hlt r hr hrw => ?_⟩
  obtain ⟨j, rfl⟩ := Nat.exists_eq_add_of_lt hpos
  rw [Nat.zero_add] at hr hlt
  exact Nat.find_min hexists (Nat.lt_of_succ_lt_succ hlt) ⟨r, hr, hrw⟩

/-- **A search finds nothing** where no candidate is wanted, and it looks at all of them. -/
theorem seek?_eq_none {wanted : Pair → Bool} (h : ∀ p ∈ s.toList, wanted p = false) :
    s.seek? start d wanted = none := by
  rw [seek?_eq_find?, List.find?_eq_none]
  intro x hx
  rw [h x.pair (Candidates.mem_toList_iff.2 ⟨_, isPlace_of_mem_lap hx⟩)]
  exact Bool.false_ne_true

end PairSet

/-! ### Questions that are put down -/

/-- A computation that asks about pairs and keeps a list of them, in the order of its questions. -/
abbrev Asking (α : Type) : Type := StateM (List Pair) α

namespace Asking

/-- Ask about a pair, and put down that it was asked about. -/
def ask {α : Type} (answer : Pair → α) (p : Pair) : Asking α := do
  modify (· ++ [p])
  pure (answer p)

/-- A question of one pair at most gives the answer of a function. -/
def Answers (question : Pair → Asking Bool) (answer : Pair → Bool) : Prop :=
  ∀ p asked, ∃ more, (question p).run asked = (answer p, asked ++ more) ∧ more.Sublist [p]

end Asking

namespace PairSet

/-- The search along a number of steps, with questions that are put down. -/
def seekFromAsking? (s : PairSet) (d : Direction) (question : Pair → Asking Bool) :
    Nat → Place → Asking (Option Place)
  | 0, _ => pure none
  | count + 1, here =>
    match s.neighbour? d here with
    | none => pure none
    | some there => do
      if ← question there.pair then pure (some there)
      else s.seekFromAsking? d question count there

/-- The search along a lap, with questions that are put down. -/
def seekAsking? (s : PairSet) (start : Nat) (d : Direction) (question : Pair → Asking Bool) :
    Asking (Option Place) :=
  match s.placeAt? start with
  | none => pure none
  | some here => s.seekFromAsking? d question s.length here

variable {s : PairSet} {question : Pair → Asking Bool} {answer : Pair → Bool}

/-- **A search that puts its questions down finds what the search without them finds**, and it asks
about places of the walk only, in their order. -/
theorem run_seekFromAsking? (h : Asking.Answers question answer) (d : Direction) (count : Nat)
    (here : Place) (asked : List Pair) :
    ∃ more, (s.seekFromAsking? d question count here).run asked =
        (s.seekFrom? d answer count here, asked ++ more) ∧
      more.Sublist ((s.placesFrom d count here).map Place.pair) := by
  induction count generalizing here asked with
  | zero => exact ⟨[], by rw [List.append_nil]; rfl, List.Sublist.refl _⟩
  | succ count ih =>
    rw [seekFromAsking?, seekFrom?, placesFrom]
    cases s.neighbour? d here with
    | none => exact ⟨[], by rw [List.append_nil]; rfl, List.Sublist.refl _⟩
    | some there =>
      obtain ⟨more, hrun, hmore⟩ := h there.pair asked
      dsimp only
      rw [StateT.run_bind, hrun]
      cases answer there.pair with
      | true => exact ⟨more, rfl, hmore.trans (List.singleton_sublist.2 List.mem_cons_self)⟩
      | false =>
        obtain ⟨rest, hrest, hsublist⟩ := ih there (asked ++ more)
        refine ⟨more ++ rest, ?_, hmore.append hsublist⟩
        rw [← List.append_assoc]
        exact hrest

/-- **A search asks about pairs of its lap**, and answers as if nothing was put down. -/
theorem run_seekAsking? (h : Asking.Answers question answer) (start : Nat) (d : Direction) :
    ∃ asked, (s.seekAsking? start d question).run [] = (s.seek? start d answer, asked) ∧
      asked.Sublist ((s.lap start d).map Place.pair) := by
  unfold seekAsking? seek? lap lapTake
  cases s.placeAt? start with
  | none => exact ⟨[], rfl, List.Sublist.refl _⟩
  | some here =>
    rw [Nat.min_self]
    exact run_seekFromAsking? h d s.length here []

end PairSet
end PairAnnotation
