/-
# Combinations and the list of them

A pair set says how many candidates it has, which one stands at a position, where a
pair stands, and how a lap goes.  All of this follows from the list of its
candidates, whatever way they are kept: two sets with one list answer alike
(`Candidates.get?_congr`, `Candidates.position?_congr`, `PairSet.lap_congr`).  For
a lap the reason is that every place on it is sound, and that a sound place is
fixed by its position.

The combinations of `n` indices and the pairs of indices below `n`, written out from
the first to the last and handed over one by one, have one list, since only one list
with these pairs is in order (`toList_ofPairs_below`).  What may stand opposite an
index is not a matter of the list alone: every index below `n` has a partner among
the others there (`eligible_ofPairs_below`).
-/

import Mathlib.Data.List.Sort
import PairAnnotation.Proofs.Distinct
import PairAnnotation.Proofs.PairSet.Lap

namespace PairAnnotation

/-! ### Pairs in order -/

namespace Pair

/-- Pairs in lexicographic order, by the smaller member first; no pair is before itself. -/
def Before (p q : Pair) : Prop := p.low < q.low ∨ p.low = q.low ∧ p.high < q.high

instance : Std.Irrefl Before where
  irrefl p h := by
    unfold Before at h
    omega

instance : Std.Antisymm Before where
  antisymm p q h h' := by
    unfold Before at h h'
    omega

/-- All pairs of two indices below `n`, from the first to the last. -/
def below (n : Nat) : List Pair :=
  (List.range n).flatMap fun i =>
    (List.range n).filterMap fun j => if h : i < j then some ⟨i, j, h⟩ else none

/-- The pairs below a number are those whose greater member is. -/
theorem mem_below {n : Nat} {p : Pair} : p ∈ below n ↔ p.high < n := by
  have hp := p.low_lt_high
  simp only [below, List.mem_flatMap, List.mem_filterMap, List.mem_range]
  constructor
  · rintro ⟨i, hi, j, hj, h⟩
    split at h
    · obtain rfl := Option.some.inj h
      exact hj
    · cases h
  · intro h
    exact ⟨p.low, by omega, p.high, h, dif_pos hp⟩

/-- **Rows in order**: rows of pairs with one lower index each, one row behind the other. -/
theorem pairwise_rows {row : Nat → List Pair} (n : Nat) (hlow : ∀ i, ∀ p ∈ row i, p.low = i)
    (hrow : ∀ i, (row i).Pairwise fun p q => p.high < q.high) :
    ((List.range n).flatMap row).Pairwise Before := by
  rw [List.pairwise_flatMap]
  constructor
  · intro i _
    refine (hrow i).imp_of_mem fun hp hq h => .inr ⟨?_, h⟩
    rw [hlow i _ hp, hlow i _ hq]
  · refine List.pairwise_lt_range.imp fun {i j} h p hp q hq => .inl ?_
    rwa [hlow i p hp, hlow j q hq]

/-- **The pairs below a number stand in order**, by the smaller member first, so none of them stands
there twice. -/
theorem pairwise_below (n : Nat) : (below n).Pairwise Before := by
  refine pairwise_rows n (fun i p hp => ?_) fun i => ?_
  · obtain ⟨j, -, h⟩ := List.mem_filterMap.1 hp
    split at h
    · obtain rfl := Option.some.inj h
      rfl
    · cases h
  · rw [List.pairwise_filterMap]
    refine List.pairwise_lt_range.imp fun {j k} h p hp q hq => ?_
    split at hp
    · split at hq
      · obtain rfl := Option.some.inj hp
        obtain rfl := Option.some.inj hq
        exact h
      · cases hq
    · cases hp

end Pair

/-! ### Indices in order -/

/-- A number that is inserted in its place keeps numbers in ascending order. -/
theorem pairwise_insertDistinct {a : Nat} {l : List Nat} (h : l.Pairwise (· < ·)) :
    (insertDistinct Nat.ble a l).Pairwise (· < ·) :=
  tellsOrder_ble.pairwise_insertDistinct h

/-- Numbers that are sorted and freed of repetitions ascend. -/
theorem pairwise_ascending (l : List Nat) : (ascending Nat.ble l).Pairwise (· < ·) :=
  tellsOrder_ble.pairwise_ascending l

/-- The eligible partners of an index ascend, however the candidates are kept. -/
theorem Candidates.pairwise_eligible (c : Candidates) (fixed : Nat) :
    (c.eligible fixed).Pairwise (· < ·) := by
  cases c with
  | listed pairs nodup => exact pairwise_ascending _
  | combinations n => exact List.pairwise_lt_range

/-! ### One list, one answer -/

namespace Candidates

variable {c c' : Candidates}

/-- Candidates with the same list have the same pair at every position. -/
theorem get?_congr (h : c.toList = c'.toList) (i : Nat) : c.get? i = c'.get? i := by
  rw [← getElem?_toList, ← getElem?_toList, h]

theorem length_congr (h : c.toList = c'.toList) : c.length = c'.length := by
  rw [← length_toList, ← length_toList, h]

/-- Candidates with the same list have every pair at the same position. -/
theorem position?_congr (h : c.toList = c'.toList) (p : Pair) :
    c.position? p = c'.position? p := by
  ext i
  rw [position?_eq_some_iff, position?_eq_some_iff, get?_congr h]

/-- Combinations are listed in lexicographic order, row by row. -/
theorem pairwise_toList_combinations (n : Nat) :
    (combinations n).toList.Pairwise Pair.Before := by
  refine Pair.pairwise_rows n (fun low p hp => ?_) fun low => ?_
  · obtain ⟨k, -, rfl⟩ := List.mem_map.1 hp
    rfl
  · exact List.pairwise_map.2 (List.pairwise_lt_range.imp fun h => Nat.add_lt_add_left h _)

/-- **The combinations of `n` indices are the pairs below `n` in order.** -/
theorem toList_combinations (n : Nat) : (combinations n).toList = Pair.below n :=
  (pairwise_toList_combinations n).eq_of_mem_iff (Pair.pairwise_below n) fun _ => by
    rw [mem_toList_combinations, Pair.mem_below]

end Candidates

namespace PairSet

variable {s t : PairSet}

/-- Sets with the same candidates have the same places. -/
theorem isPlace_congr (h : s.toList = t.toList) {x : Place} : s.IsPlace x ↔ t.IsPlace x := by
  unfold IsPlace get?
  rw [Candidates.get?_congr h]

/-- A sound place is fixed by its position, since its pair is the candidate that stands there. -/
theorem IsPlace.eq_of_position_eq {x y : Place} (hx : s.IsPlace x) (hy : s.IsPlace y)
    (h : x.position = y.position) : x = y := by
  obtain ⟨i, p⟩ := x
  obtain ⟨j, q⟩ := y
  obtain rfl : i = j := h
  obtain rfl : p = q := Option.some.inj (hx.symm.trans hy)
  rfl

/-- From a sound place, one step leads to one place in both sets. -/
theorem neighbour?_congr (h : s.toList = t.toList) (d : Direction) {here : Place}
    (hplace : s.IsPlace here) : s.neighbour? d here = t.neighbour? d here := by
  obtain ⟨x, hx, hxplace, hxposition⟩ := neighbour?_isPlace d hplace
  obtain ⟨y, hy, hyplace, hyposition⟩ := neighbour?_isPlace d ((isPlace_congr h).1 hplace)
  rw [hx, hy, Option.some.injEq]
  refine hxplace.eq_of_position_eq ((isPlace_congr h).2 hyplace) ?_
  rw [hxposition, hyposition, length, length, Candidates.length_congr h]

/-- Walks in sets with the same candidates meet the same places. -/
theorem placesFrom_congr (h : s.toList = t.toList) (d : Direction) (count : Nat) {here : Place}
    (hplace : s.IsPlace here) : s.placesFrom d count here = t.placesFrom d count here := by
  induction count generalizing here with
  | zero => rfl
  | succ count ih =>
    obtain ⟨there, hthere, hnext, -⟩ := neighbour?_isPlace d hplace
    rw [placesFrom, placesFrom, ← neighbour?_congr h d hplace, hthere]
    exact congrArg (there :: ·) (ih hnext)

/-- **A lap is a matter of the list alone**: sets that keep the same candidates in different ways go
round alike. -/
theorem lap_congr (h : s.toList = t.toList) (start : Nat) (d : Direction) :
    s.lap start d = t.lap start d := by
  have hlength : s.length = t.length := Candidates.length_congr h
  have hget : s.get? = t.get? := funext (Candidates.get?_congr h)
  have hstart : s.placeAt? start = t.placeAt? start := by
    unfold placeAt?
    rw [hlength, hget]
  unfold lap lapTake
  rw [← hstart, ← hlength]
  cases hhere : s.placeAt? start with
  | none => rfl
  | some here => exact placesFrom_congr h d _ (isPlace_of_placeAt? hhere)

/-! ### Combinations handed over one by one -/

/-- **Both ways of keeping the combinations have one list**: kept as a list, and counted through by
their number. -/
theorem toList_ofPairs_below (n : Nat) :
    (ofPairs (Pair.below n)).toList = (combinations n).toList := by
  have hlist := Candidates.toList_combinations n
  have hnodup : (Pair.below n).Nodup := hlist ▸ (Candidates.combinations n).nodup_toList
  exact (firstOccurrences_of_nodup hnodup).trans hlist.symm

/-- The index opposite `fixed` in a pair below `n` is any other index below `n`. -/
theorem exists_partner_below {n fixed i : Nat} (hfixed : fixed < n) :
    (∃ p ∈ Pair.below n, p.partner? fixed = some i) ↔ i < n ∧ i ≠ fixed := by
  constructor
  · rintro ⟨p, hp, h⟩
    have hlow := p.low_lt_high
    have hhigh := Pair.mem_below.1 hp
    rcases Pair.of?_eq_some_iff.1 (Pair.partner?_eq_some_iff.1 h) with h | h <;> omega
  · rintro ⟨hi, hne⟩
    obtain ⟨p, hp⟩ := Option.ne_none_iff_exists'.1 (mt Pair.of?_eq_none_iff.1 hne.symm)
    refine ⟨p, Pair.mem_below.2 ?_, Pair.partner?_eq_some_iff.2 hp⟩
    rcases Pair.of?_eq_some_iff.1 hp with h | h <;> omega

/-- Opposite an index may stand itself and what a pair brings together with it. -/
theorem mem_eligible_ofPairs {pairs : List Pair} {fixed i : Nat} :
    i ∈ (ofPairs pairs).eligible fixed ↔ i = fixed ∨ ∃ p ∈ pairs, p.partner? fixed = some i := by
  change i ∈ ascending Nat.ble (fixed :: (firstOccurrences pairs).filterMap _) ↔ _
  rw [mem_ascending, List.mem_cons, List.mem_filterMap]
  simp only [mem_firstOccurrences]

/-- **Opposite an index below `n` may stand any of them.** -/
theorem eligible_ofPairs_below {n fixed : Nat} (hfixed : fixed < n) :
    (ofPairs (Pair.below n)).eligible fixed = List.range n := by
  refine (pairwise_ascending _).eq_of_mem_iff List.pairwise_lt_range fun i => ?_
  refine mem_eligible_ofPairs.trans ?_
  rw [exists_partner_below hfixed, List.mem_range]
  omega

/-- Two pair sets give the same answers about their candidates, the question what may stand
opposite an index being asked of indices below `n`. -/
structure AnswersAlike (n : Nat) (s t : PairSet) : Prop where
  length : s.length = t.length
  get? (i : Nat) : s.get? i = t.get? i
  position? (p : Pair) : s.position? p = t.position? p
  toList : s.toList = t.toList
  eligible {fixed : Nat} (hfixed : fixed < n) : s.eligible fixed = t.eligible fixed
  lap (start : Nat) (d : Direction) : s.lap start d = t.lap start d

/-- **Combinations computed on demand answer like the list of all of them.** -/
theorem answersAlike_below (n : Nat) :
    AnswersAlike n (combinations n) (ofPairs (Pair.below n)) where
  length := Candidates.length_congr (toList_ofPairs_below n).symm
  get? := Candidates.get?_congr (toList_ofPairs_below n).symm
  position? := Candidates.position?_congr (toList_ofPairs_below n).symm
  toList := (toList_ofPairs_below n).symm
  eligible hfixed := (eligible_ofPairs_below hfixed).symm
  lap := lap_congr (toList_ofPairs_below n).symm

end PairSet
end PairAnnotation
