/-
# Pairs entered one by one

`PairSet.ofPairs` is one list of pairs.  A register keeps the same candidates in three
tables that are filled together as the pairs come in: the list, the place of each
pair in it, and for each index the indices it is paired with, in ascending order.  A
pair that has a place already is skipped.

The tables agree with the list after every entry (`Register.Consistent.enter`), and
the list receives each pair at its first occurrence (`Register.list_foldl_enter`).
So a register looks up, locates and names what may stand opposite an index as the pair
set does (`Register.answers_ofPairs`), and what a pair set of listed pairs answers
can be read off the pairs that came in (`PairSet.keepsFirst_ofPairs`).
-/

import Mathlib.Logic.Function.Basic
import PairAnnotation.Proofs.PairSet.Listing

namespace PairAnnotation

/-! ### First occurrences -/

/-- **First occurrences keep their order**: what stands earlier came in earlier. -/
theorem pairwise_firstOccurrences {α : Type} [DecidableEq α] (l : List α) :
    (firstOccurrences l).Pairwise fun a b => l.idxOf a < l.idxOf b := by
  induction l with
  | nil => exact List.Pairwise.nil
  | cons c rest ih =>
    refine List.pairwise_cons.2 ⟨fun b hb => ?_, ?_⟩
    · have hne : b ≠ c := of_decide_eq_true (List.mem_filter.1 hb).2
      rw [List.idxOf_cons_self, List.idxOf_cons_ne _ hne.symm]
      exact Nat.succ_pos _
    · refine (ih.filter _).imp_of_mem fun {a b} ha hb h => ?_
      have hac : a ≠ c := of_decide_eq_true (List.mem_filter.1 ha).2
      have hbc : b ≠ c := of_decide_eq_true (List.mem_filter.1 hb).2
      rw [List.idxOf_cons_ne _ hac.symm, List.idxOf_cons_ne _ hbc.symm]
      exact Nat.succ_lt_succ h

/-! ### The register -/

/-- **Pairs in the order they came in, with their places and the partners of each index.** -/
structure Register where
  list : List Pair
  place : Pair → Option Nat
  partners : Nat → List Nat

namespace Register

/-- Nothing has come in, so nothing is listed and nobody has a partner. -/
def empty : Register := ⟨[], fun _ => none, fun _ => []⟩

/-- The partners of all indices with `partner` among those of `i`. -/
def join (partners : Nat → List Nat) (i partner : Nat) : Nat → List Nat :=
  Function.update partners i (insertDistinct Nat.ble partner (partners i))

/-- **One pair comes in**: a known pair is skipped, another one is entered in each table. -/
def enter (r : Register) (p : Pair) : Register :=
  if (r.place p).isSome then r
  else
    ⟨r.list ++ [p], Function.update r.place p (some r.list.length),
      join (join r.partners p.low p.high) p.high p.low⟩

/-- The register after all pairs of a list have come in, one after the other. -/
def ofPairs (pairs : List Pair) : Register := pairs.foldl enter empty

/-- What may stand opposite an index: its partners and the index itself. -/
def eligible (r : Register) (fixed : Nat) : List Nat :=
  insertDistinct Nat.ble fixed (r.partners fixed)

/-! ### The tables agree with the list -/

/-- The places and the partners are those of the list. -/
structure Consistent (r : Register) : Prop where
  place {p : Pair} {i : Nat} : r.place p = some i ↔ r.list[i]? = some p
  ascending (i : Nat) : (r.partners i).Pairwise (· < ·)
  partners {i j : Nat} : j ∈ r.partners i ↔ ∃ p ∈ r.list, p.partner? i = some j

/-- A pair has a place in a consistent register exactly if it is listed. -/
theorem Consistent.isSome_place {r : Register} (h : r.Consistent) {p : Pair} :
    (r.place p).isSome ↔ p ∈ r.list := by
  simp only [Option.isSome_iff_exists, h.place, List.mem_iff_getElem?]

/-- Nothing is listed in an empty register, and nothing has a place or a partner. -/
theorem consistent_empty : empty.Consistent where
  place := by simp [empty]
  ascending _ := List.Pairwise.nil
  partners := by simp [empty]

/-- A new partner is entered under its own index, and the partners of all others stay as they
are. -/
theorem mem_join {partners : Nat → List Nat} {i partner k j : Nat} :
    j ∈ join partners i partner k ↔ k = i ∧ j = partner ∨ j ∈ partners k :=
  mem_addNeighbour

/-- Partners stay in ascending order when another one is entered. -/
theorem pairwise_join {partners : Nat → List Nat} {k : Nat} (i partner : Nat)
    (h : ∀ k, (partners k).Pairwise (· < ·)) : (join partners i partner k).Pairwise (· < ·) :=
  tellsOrder_ble.pairwise_addNeighbour i partner h k

/-- Each member of a new pair gets the other one as a partner. -/
theorem mem_join_join {partners : Nat → List Nat} {p : Pair} {i j : Nat} :
    j ∈ join (join partners p.low p.high) p.high p.low i ↔
      j ∈ partners i ∨ p.partner? i = some j := by
  rw [mem_join, mem_join, Pair.partner?_eq_some_iff, Pair.of?_eq_some_iff]
  constructor
  · rintro (hhigh | hlow | hknown)
    · exact .inr (.inr hhigh)
    · exact .inr (.inl hlow)
    · exact .inl hknown
  · rintro (hknown | hlow | hhigh)
    · exact .inr (.inr hknown)
    · exact .inr (.inl hlow)
    · exact .inl hhigh

/-- A new pair is placed behind the list, and no other pair moves. -/
theorem Consistent.place_append {r : Register} (h : r.Consistent) {p q : Pair} {i : Nat}
    (hp : p ∉ r.list) :
    Function.update r.place p (some r.list.length) q = some i ↔ (r.list ++ [p])[i]? = some q := by
  rw [List.getElem?_append]
  by_cases hq : q = p
  · subst hq
    have hnot : r.list[i]? ≠ some q := fun hi => hp (List.mem_of_getElem? hi)
    rw [Function.update_self, Option.some.injEq, List.getElem?_singleton]
    split
    · exact iff_of_false (by omega) hnot
    · rw [ite_eq_left_iff]
      simp
      omega
  · rw [Function.update_of_ne hq, h.place]
    split
    · rfl
    · rename_i hi
      rw [List.getElem?_eq_none (Nat.le_of_not_lt hi), List.getElem?_singleton]
      split
      · simp [Ne.symm hq]
      · rfl

/-- **One entry keeps the tables in agreement with the list.** -/
theorem Consistent.enter {r : Register} (h : r.Consistent) (p : Pair) : (r.enter p).Consistent := by
  unfold Register.enter
  split
  · exact h
  · rename_i hnew
    have hp : p ∉ r.list := mt h.isSome_place.2 hnew
    exact {
      place := h.place_append hp
      ascending := fun _ => pairwise_join _ _ fun _ => pairwise_join _ _ h.ascending
      partners := by
        intro i j
        rw [mem_join_join, h.partners]
        simp only [List.mem_append, List.mem_singleton, or_and_right, exists_or, exists_eq_left] }

/-- A register stays consistent while pairs are entered one after the other. -/
theorem Consistent.foldl_enter {r : Register} (h : r.Consistent) (pairs : List Pair) :
    (pairs.foldl Register.enter r).Consistent := by
  induction pairs generalizing r with
  | nil => exact h
  | cons p rest ih => exact ih (h.enter p)

/-- **A register that is made of pairs is consistent**: places and partners are those of the
list. -/
theorem consistent_ofPairs (pairs : List Pair) : (ofPairs pairs).Consistent :=
  consistent_empty.foldl_enter pairs

/-! ### The list keeps first occurrences -/

/-- A pair that is entered is listed last, unless it is listed already. -/
theorem Consistent.list_enter {r : Register} (h : r.Consistent) (p : Pair) :
    (r.enter p).list = if p ∈ r.list then r.list else r.list ++ [p] := by
  unfold Register.enter
  simp only [h.isSome_place]
  split <;> rfl

/-- **What comes in behind a list is added to it once**, in the order of first occurrences. -/
theorem Consistent.list_foldl_enter {r : Register} (h : r.Consistent) (pairs : List Pair) :
    (pairs.foldl Register.enter r).list =
      r.list ++ (firstOccurrences pairs).filter (· ∉ r.list) := by
  induction pairs generalizing r with
  | nil => exact (List.append_nil _).symm
  | cons p rest ih =>
    rw [List.foldl_cons, ih (h.enter p), h.list_enter, firstOccurrences, List.filter_cons,
      List.filter_filter]
    split
    · rename_i hp
      rw [if_neg (by simpa using hp)]
      congr 1
      refine List.filter_congr fun q _ => ?_
      by_cases hq : q = p
      · simp [hq, hp]
      · simp [hq]
    · rename_i hp
      rw [if_pos (by simpa using hp), List.append_assoc, List.singleton_append]
      congr 2
      refine List.filter_congr fun q _ => ?_
      simp [not_or, Bool.and_comm]

/-- The list of a register has every pair once, where it occurred first. -/
theorem list_ofPairs (pairs : List Pair) : (ofPairs pairs).list = firstOccurrences pairs := by
  rw [ofPairs, consistent_empty.list_foldl_enter]
  simp [empty]

/-! ### One answer -/

/-- A register and a pair set give the same answers about their candidates. -/
structure Answers (r : Register) (s : PairSet) : Prop where
  list : r.list = s.toList
  get? (i : Nat) : r.list[i]? = s.get? i
  place (p : Pair) : r.place p = s.position? p
  eligible (fixed : Nat) : r.eligible fixed = s.eligible fixed

/-- **A register that pairs came into answers as the pair set of these pairs does.** -/
theorem answers_ofPairs (pairs : List Pair) : (ofPairs pairs).Answers (PairSet.ofPairs pairs) where
  list := list_ofPairs pairs
  get? i := by
    rw [list_ofPairs]
    rfl
  place p := by
    ext i
    rw [(consistent_ofPairs pairs).place, list_ofPairs, PairSet.position?,
      Candidates.position?_eq_some_iff]
    rfl
  eligible fixed := by
    have h := consistent_ofPairs pairs
    refine (pairwise_insertDistinct (h.ascending fixed)).eq_of_mem_iff (pairwise_ascending _)
      fun i => ?_
    rw [mem_insertDistinct, h.partners, list_ofPairs]
    simp only [mem_firstOccurrences]
    exact PairSet.mem_eligible_ofPairs.symm

end Register

/-! ### Read off the pairs -/

namespace PairSet

/-- What a pair set answers whose candidates are the distinct pairs of a list, in the order of
their first occurrences. -/
structure KeepsFirst (pairs : List Pair) (s : PairSet) : Prop where
  nodup : s.toList.Nodup
  mem (p : Pair) : p ∈ s.toList ↔ p ∈ pairs
  order : s.toList.Pairwise fun p q => pairs.idxOf p < pairs.idxOf q
  get? (i : Nat) : s.get? i = s.toList[i]?
  position? (p : Pair) (i : Nat) : s.position? p = some i ↔ s.get? i = some p
  ascending (fixed : Nat) : (s.eligible fixed).Pairwise (· < ·)
  eligible (fixed i : Nat) :
    i ∈ s.eligible fixed ↔ i = fixed ∨ ∃ p ∈ s.toList, Pair.of? i fixed = some p

/-- **A set that is made of pairs keeps the first occurrence of each**, and answers everything from
those. -/
theorem keepsFirst_ofPairs (pairs : List Pair) : KeepsFirst pairs (ofPairs pairs) where
  nodup := nodup_firstOccurrences pairs
  mem _ := mem_firstOccurrences
  order := pairwise_firstOccurrences pairs
  get? i := (Candidates.getElem?_toList _ i).symm
  position? _ _ := Candidates.position?_eq_some_iff
  ascending _ := pairwise_ascending _
  eligible fixed i := by
    rw [mem_eligible_ofPairs]
    simp only [Pair.partner?_eq_some_iff, Pair.of?_comm fixed, ← mem_firstOccurrences (l := pairs)]
    rfl

end PairSet
end PairAnnotation
