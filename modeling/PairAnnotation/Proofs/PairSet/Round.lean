/-
# One lap meets every candidate once

The positions of a pair set form a circle, and every step of a walk is one turn of it
(`PairSet.positions_placesFrom`).  So the positions of a lap are a tour of all positions
(`PairSet.positions_lap`), which meets each of them once.  The tours forward and backward
share all positions but the start, which closes both laps (`PairSet.exists_others`).

The pairs on the way need no argument of their own: a place of a lap is sound, and a
sound place is fixed by its position.  So the pairs of a lap are a tour of the list of
candidates (`PairSet.pairs_lap`), and what a search finds is what it finds on that tour
(`PairSet.pair_seek?`).
-/

import PairAnnotation.Proofs.PairSet.Circle
import PairAnnotation.Proofs.PairSet.Register
import PairAnnotation.Proofs.PairSet.Words

namespace PairAnnotation
namespace PairSet

/-! ### Positions along a circle -/

variable {s : PairSet} {start : Nat}

/-- **A walk turns one place at a time**, so its positions are told by how many turns were made. -/
theorem positions_placesFrom (d : Direction) (count : Nat) {here : Place} (h : s.IsPlace here) :
    (s.placesFrom d count here).map Place.position =
      (List.range count).map fun k => (turn s.length d)^[k + 1] here.position := by
  induction count generalizing here with
  | zero => rfl
  | succ count ih =>
    obtain ⟨there, hthere, hplace, hposition⟩ := neighbour?_isPlace d h
    rw [placesFrom, hthere, List.map_cons, ih hplace, List.range_succ_eq_map, List.map_cons,
      List.map_map, hposition]
    rfl

/-- A lap from a candidate is a walk over all candidates. -/
theorem lap_eq_placesFrom (d : Direction) (h : start < s.length) :
    ∃ p, s.IsPlace ⟨start, p⟩ ∧ s.lap start d = s.placesFrom d s.length ⟨start, p⟩ := by
  obtain ⟨p, hp⟩ := Option.isSome_iff_exists.1 (Candidates.get?_isSome_iff.2 h)
  refine ⟨p, hp, ?_⟩
  have hmin : min start (s.length - 1) = start := by omega
  have hhere : s.placeAt? start = some ⟨start, p⟩ := by
    rw [placeAt?, hmin]
    exact congrArg _ hp
  rw [lap, lapTake, hhere, Nat.min_self]

/-- **A lap is a tour of all positions**, from the one behind the start up to the start. -/
theorem positions_lap (d : Direction) (h : start < s.length) :
    (s.lap start d).map Place.position = tour (List.range s.length) start d := by
  obtain ⟨p, hp, hlap⟩ := lap_eq_placesFrom d h
  rw [hlap, positions_placesFrom d s.length hp]
  refine List.ext_getElem (by simp [length_tour]) fun k hk _ => ?_
  rw [List.length_map, List.length_range] at hk
  have htour : (tour (List.range s.length) start d)[k]? =
      some ((turn s.length d)^[k + 1] start) := by
    rw [getElem?_tour d (by simpa using h) (by simpa using hk), List.length_range,
      List.getElem?_range (iterate_turn_lt d h _)]
  rw [List.getElem_map, List.getElem_range, (List.getElem?_eq_some_iff.1 htour).2]

/-- **The two laps share their way**: all positions but the start, in one order and in the other,
and then the start. -/
theorem exists_others (h : start < s.length) :
    ∃ others : List Nat, (start :: others).Perm (List.range s.length) ∧
      (s.lap start .next).map Place.position = others ++ [start] ∧
      (s.lap start .previous).map Place.position = others.reverse ++ [start] := by
  have hhead : ((List.range s.length).rotate start).head? = some start := by
    rw [List.head?_rotate (by simpa using h), List.getElem?_range h]
  obtain ⟨others, hround⟩ := List.head?_eq_some_iff.1 hhead
  refine ⟨others, ?_, ?_, ?_⟩
  · rw [← hround]
    exact List.rotate_perm _ _
  · rw [positions_lap .next h, tour, ← List.rotate_rotate, hround, List.rotate_cons_succ,
      List.rotate_zero]
  · rw [positions_lap .previous h, tour, hround, List.reverse_cons]

/-! ### Places along a lap -/

/-- Sound places are fixed by their positions, one by one. -/
theorem eq_of_positions_eq {xs ys : List Place} (hxs : ∀ x ∈ xs, s.IsPlace x)
    (hys : ∀ y ∈ ys, s.IsPlace y) (h : xs.map Place.position = ys.map Place.position) :
    xs = ys := by
  induction xs generalizing ys with
  | nil => exact (List.map_eq_nil_iff.1 h.symm).symm
  | cons x xs ih =>
    obtain ⟨y, ys, rfl, hposition, hrest⟩ := List.map_eq_cons_iff.1 h.symm
    obtain ⟨hx, hxs⟩ := List.forall_mem_cons.1 hxs
    obtain ⟨hy, hys⟩ := List.forall_mem_cons.1 hys
    rw [hx.eq_of_position_eq hy hposition.symm, ih hxs hys hrest.symm]

/-- Fewer steps are the first of more steps, since a walk does not know how long it will be. -/
theorem take_placesFrom (d : Direction) (count more : Nat) (here : Place) :
    (s.placesFrom d more here).take count = s.placesFrom d (min count more) here := by
  induction count generalizing more here with
  | zero => rw [Nat.zero_min, List.take_zero, placesFrom]
  | succ count ih =>
    cases more with
    | zero => rfl
    | succ more =>
      rw [Nat.succ_min_succ, placesFrom, placesFrom]
      split
      · rfl
      · rw [List.take_succ_cons, ih]

/-- The first places of a lap are those that the iterator over a lap hands out. -/
theorem take_lap (d : Direction) (count : Nat) :
    (s.lap start d).take count = s.lapTake start d count := by
  unfold lap lapTake
  split
  · exact List.take_nil
  · rw [take_placesFrom, Nat.min_self]

/-- **What a lap from a candidate meets**: every candidate once, the starting one at last, in the
order of the circle. -/
structure Rounds (s : PairSet) (start : Nat) : Prop where
  /-- As many places as there are candidates. -/
  length (d : Direction) : (s.lap start d).length = s.length
  /-- At each of them the candidate there. -/
  candidate (d : Direction) (x : Place) (h : x ∈ s.lap start d) : s.get? x.position = some x.pair
  /-- Each position once. -/
  once (d : Direction) : ((s.lap start d).map Place.position).Perm (List.range s.length)
  /-- The start at the end. -/
  last (d : Direction) : ((s.lap start d).map Place.position).getLast? = some start
  /-- Before it, backward what lies forward, in reverse order. -/
  reverse : (s.lap start .previous).dropLast = (s.lap start .next).dropLast.reverse
  /-- Calls to the iterator, which keeps position, pair and the number of places left in words, give
  the first places, and nothing behind the last one. -/
  calls (h : Word.Fits s.candidates) (d : Direction) (count : Nat) :
    Word.lapTake s.candidates start d count = some (((s.lap start d).take count).map Place.members)

/-- **A lap meets what it should** from every position of the set. -/
theorem rounds_of_lt (h : start < s.length) : Rounds s start := by
  obtain ⟨others, hothers, hnext, hprevious⟩ := exists_others h
  have hway (d : Direction) : ∃ way : List Nat, way.Perm others ∧
      (s.lap start d).map Place.position = way ++ [start] := by
    cases d with
    | next => exact ⟨others, .refl _, hnext⟩
    | previous => exact ⟨others.reverse, List.reverse_perm _, hprevious⟩
  have honce (d : Direction) : ((s.lap start d).map Place.position).Perm (List.range s.length) := by
    obtain ⟨way, hperm, hlap⟩ := hway d
    rw [hlap]
    exact (List.perm_append_singleton start way).trans ((hperm.cons start).trans hothers)
  exact {
    length := fun d => by
      have := (honce d).length_eq
      rwa [List.length_map, List.length_range] at this
    candidate := fun d x hx => isPlace_of_mem_lap hx
    once := honce
    last := fun d => by
      obtain ⟨way, -, hlap⟩ := hway d
      rw [hlap, List.getLast?_concat]
    reverse := by
      refine eq_of_positions_eq (fun x hx => isPlace_of_mem_lap (List.mem_of_mem_dropLast hx))
        (fun x hx => isPlace_of_mem_lap (List.mem_of_mem_dropLast (List.mem_reverse.1 hx))) ?_
      rw [List.map_reverse, List.map_dropLast, List.map_dropLast, hnext, hprevious,
        List.dropLast_concat, List.dropLast_concat]
    calls := fun hfits d count => by rw [hfits.lapTake, take_lap] }

/-- **The pairs of a lap are a tour of the list of candidates.** -/
theorem pairs_lap (d : Direction) (h : start < s.length) :
    (s.lap start d).map Place.pair = tour s.toList start d := by
  have hplaces : (s.lap start d).map (some ∘ Place.pair) =
      (s.lap start d).map (s.get? ∘ Place.position) := by
    refine List.map_congr_left fun x hx => ?_
    exact ((rounds_of_lt h).candidate d x hx).symm
  have hlist : (List.range s.length).map s.get? = s.toList.map some := by
    refine List.ext_getElem? fun i => ?_
    have htoList : s.toList[i]? = s.get? i := Candidates.getElem?_toList s.candidates i
    rw [List.getElem?_map, List.getElem?_map, htoList]
    by_cases hi : i < s.length
    · obtain ⟨p, hp⟩ := Option.isSome_iff_exists.1 (Candidates.get?_isSome_iff.2 hi)
      rw [List.getElem?_range hi, Option.map_some]
      simp [get?, hp]
    · have hnone : s.get? i = none :=
        Option.not_isSome_iff_eq_none.1 (mt Candidates.get?_isSome_iff.1 hi)
      rw [List.getElem?_eq_none (by simpa using hi), hnone]
      rfl
  have hsome : ((s.lap start d).map Place.pair).map some = (tour s.toList start d).map some := by
    rw [List.map_map, hplaces, ← List.map_map, positions_lap d h, map_tour, hlist, map_tour]
  exact List.map_injective_iff.2 (Option.some_injective _) hsome

/-- **A search finds what is found first on the tour.** -/
theorem pair_seek? (d : Direction) (wanted : Pair → Bool) (h : start < s.length) :
    (s.seek? start d wanted).map Place.pair = (tour s.toList start d).find? wanted := by
  rw [seek?_eq_find?, ← pairs_lap d h, List.find?_map]
  rfl

/-- **Every pair is kept once and met once.**  Of the pairs that come in, a pair set keeps each one
once, in the order of first occurrences; looking up and locating are inverse, and opposite an index
stand, in ascending order and once each, the index itself and what a kept pair brings together with
it.  The three tables filled pair by pair give the same answers.  On any pair set, listed or of
combinations, a lap from any candidate in either direction meets every candidate once, the one it
started from last, and the lap backward goes the way of the lap forward in reverse. -/
theorem kept_once_and_met_once :
    (∀ pairs : List Pair, KeepsFirst pairs (ofPairs pairs) ∧
      (Register.ofPairs pairs).Answers (ofPairs pairs)) ∧
    ∀ (s : PairSet) (start : Nat), start < s.length → Rounds s start :=
  ⟨fun pairs => ⟨keepsFirst_ofPairs pairs, Register.answers_ofPairs pairs⟩,
    fun _ _ h => rounds_of_lt h⟩

/-- Three pairs, the first of which comes in twice, and the two laps from the second one. -/
theorem kept_once_and_met_once_three :
    let s := ofPairs [⟨1, 2, by decide⟩, ⟨0, 2, by decide⟩, ⟨1, 2, by decide⟩, ⟨0, 1, by decide⟩]
    1 < s.length ∧ Rounds s 1 ∧ s.toList.map Pair.members = [(1, 2), (0, 2), (0, 1)] ∧
      (s.lap 1 .next).map Place.members = [(2, 0, 1), (0, 1, 2), (1, 0, 2)] ∧
      (s.lap 1 .previous).map Place.members = [(0, 1, 2), (2, 0, 1), (1, 0, 2)] := by
  have hstart : 1 < (ofPairs [⟨1, 2, by decide⟩, ⟨0, 2, by decide⟩, ⟨1, 2, by decide⟩,
    ⟨0, 1, by decide⟩]).length := by decide
  exact ⟨hstart, kept_once_and_met_once.2 _ 1 hstart, by decide, by decide, by decide⟩

end PairSet
end PairAnnotation
