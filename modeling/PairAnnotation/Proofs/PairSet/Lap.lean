/-
# Places along a lap

A place is sound when its pair is the candidate at its position (`PairSet.IsPlace`).
Stepping keeps places sound and moves the position one step round the circle
(`neighbour?_isPlace`); among combinations this is the fact that the pair computed
from the last pair stands one place further on (`position?_stepCombination`).  So
whatever a search along a lap finds is a candidate at its own position
(`isPlace_of_seek?`).
-/

import Mathlib.Tactic.ByContra
import Mathlib.Tactic.SplitIfs
import PairAnnotation.PairSet.Lap
import PairAnnotation.Proofs.PairSet.Candidates

namespace PairAnnotation
namespace PairSet

/-- The pair of a place is the candidate at its position. -/
def IsPlace (s : PairSet) (x : Place) : Prop := s.get? x.position = some x.pair

/-! ### One step -/

/-- A turn ends on the circle wherever it starts. -/
theorem turn_lt {total : Nat} (h : 0 < total) (d : Direction) (i : Nat) :
    turn total d i < total := by
  cases d <;> exact Nat.mod_lt _ h

/-- The next position is the following one, or the first one behind the last. -/
theorem turn_next_eq {total i j : Nat} (hj : j < total)
    (h : j = i + 1 ∨ j = 0 ∧ i + 1 = total) : turn total .next i = j := by
  rw [turn]
  rcases h with rfl | ⟨rfl, rfl⟩
  · exact Nat.mod_eq_of_lt hj
  · exact Nat.mod_self _

/-- The previous position is the preceding one, or the last one before the first. -/
theorem turn_previous_eq {total i j : Nat} (hi : i < total)
    (h : i = j + 1 ∨ i = 0 ∧ j + 1 = total) : turn total .previous i = j := by
  rw [turn]
  rcases h with rfl | ⟨rfl, rfl⟩
  · rw [show j + 1 + total - 1 = j + total by omega, Nat.add_mod_right]
    exact Nat.mod_eq_of_lt (by omega)
  · rw [show 0 + (j + 1) - 1 = j by omega]
    exact Nat.mod_eq_of_lt (by omega)

open Candidates (rowStart rowStart_zero rowStart_succ rowStart_last lt_length_of_get?
  position?_eq_some_iff)

/-- The place of a combination in the list of all of them. -/
def combinationPlace (n : Nat) (p : Pair) : Nat := rowStart n p.low + (p.high - p.low - 1)

/-- The position of a combination of the set is computed from its two members. -/
theorem position?_of_high_lt {n : Nat} {p : Pair} (h : p.high < n) :
    (Candidates.combinations n).position? p = some (combinationPlace n p) := if_pos h

/-- A combination with a position has both members below the number of indices. -/
theorem high_lt_of_position? {n i : Nat} {p : Pair}
    (h : (Candidates.combinations n).position? p = some i) : p.high < n := by
  by_contra hn
  rw [Candidates.position?, if_neg hn] at h
  cases h

/-- The neighbour of a combination is one: its greater member stays below the number of indices. -/
theorem high_stepCombination_lt {n : Nat} {p : Pair} (d : Direction) (h : p.high < n) :
    (stepCombination n d p).high < n := by
  have hlow := p.low_lt_high
  cases d with
  | next =>
    unfold stepCombination
    dsimp only
    split_ifs <;> dsimp only <;> omega
  | previous =>
    unfold stepCombination
    dsimp only
    split_ifs
    · dsimp only
      omega
    · dsimp only
      omega
    · dsimp only
      omega
    · exact h

/-- The next combination stands one place further, or at the beginning after the last one. -/
theorem combinationPlace_next {n : Nat} {p : Pair} (h : p.high < n) :
    combinationPlace n (stepCombination n .next p) = combinationPlace n p + 1 ∨
      combinationPlace n (stepCombination n .next p) = 0 ∧
        combinationPlace n p + 1 = (Candidates.combinations n).length := by
  have hlow := p.low_lt_high
  have hlast := @rowStart_last n (by omega)
  have hrow := @rowStart_succ n p.low (by omega)
  unfold combinationPlace stepCombination
  dsimp only
  split_ifs with hhigh hlow'
  · left
    dsimp only
    omega
  · left
    dsimp only
    omega
  · right
    have hp : p.low = n - 2 := by omega
    have hzero := rowStart_zero n
    rw [hp]
    dsimp only
    omega

/-- The previous combination stands one place before, or at the end before the first one. -/
theorem combinationPlace_previous {n : Nat} {p : Pair} (h : p.high < n) :
    combinationPlace n p = combinationPlace n (stepCombination n .previous p) + 1 ∨
      combinationPlace n p = 0 ∧
        combinationPlace n (stepCombination n .previous p) + 1 =
          (Candidates.combinations n).length := by
  have hlow := p.low_lt_high
  have hlast := @rowStart_last n (by omega)
  unfold combinationPlace stepCombination
  dsimp only
  split_ifs with hhigh hlow' hn₂
  · left
    dsimp only
    omega
  · left
    have hrow := @rowStart_succ n (p.low - 1) (by omega)
    rw [show p.low - 1 + 1 = p.low by omega] at hrow
    dsimp only
    omega
  · right
    have hp : p.low = 0 := by omega
    have hzero := rowStart_zero n
    rw [hp]
    dsimp only
    omega
  · omega

/-- **The neighbour of a combination stands beside it**, and the two ends of the list are
neighbours. -/
theorem position?_stepCombination {n i : Nat} {p : Pair} (d : Direction)
    (h : (Candidates.combinations n).position? p = some i) :
    (Candidates.combinations n).position? (stepCombination n d p) =
      some (turn (Candidates.combinations n).length d i) := by
  have hn := high_lt_of_position? h
  have hi := lt_length_of_get? (position?_eq_some_iff.1 h)
  have hj := position?_of_high_lt (high_stepCombination_lt d hn)
  have hjlt := lt_length_of_get? (position?_eq_some_iff.1 hj)
  rw [position?_of_high_lt hn] at h
  obtain rfl := Option.some.inj h
  rw [hj, Option.some.injEq]
  cases d with
  | next => exact (turn_next_eq hjlt (combinationPlace_next hn)).symm
  | previous => exact (turn_previous_eq hi (combinationPlace_previous hn)).symm

/-- **A step from a place leads to the place beside it.** -/
theorem neighbour?_isPlace {s : PairSet} {here : Place} (d : Direction) (h : s.IsPlace here) :
    ∃ there, s.neighbour? d here = some there ∧ s.IsPlace there ∧
      there.position = turn s.length d here.position := by
  have hlt := Candidates.lt_length_of_get? h
  obtain ⟨c, completed, nodup⟩ := s
  cases c with
  | listed pairs hnodup =>
    have hturn : turn pairs.length d here.position < pairs.length :=
      turn_lt (Nat.zero_lt_of_lt hlt) d _
    refine ⟨⟨turn pairs.length d here.position, pairs[turn pairs.length d here.position]⟩,
      ?_, ?_, rfl⟩
    · change pairs[turn pairs.length d here.position]?.map _ = _
      rw [List.getElem?_eq_getElem hturn, Option.map_some]
      rfl
    · exact List.getElem?_eq_getElem hturn
  | combinations n =>
    refine ⟨_, rfl, ?_, rfl⟩
    exact Candidates.position?_eq_some_iff.1
      (position?_stepCombination d (Candidates.position?_eq_some_iff.2 h))

/-! ### Many steps -/

/-- **A walk leads from place to place**: each has the candidate that stands at its position. -/
theorem isPlace_of_mem_placesFrom {s : PairSet} {d : Direction} {count : Nat} {here x : Place}
    (h : s.IsPlace here) (hx : x ∈ s.placesFrom d count here) : s.IsPlace x := by
  induction count generalizing here with
  | zero => simp [placesFrom] at hx
  | succ count ih =>
    obtain ⟨there, hthere, hplace, -⟩ := neighbour?_isPlace d h
    rw [placesFrom, hthere] at hx
    rcases List.mem_cons.1 hx with rfl | hx
    · exact hplace
    · exact ih hplace hx

/-- A place that was found by its position is a place of the set. -/
theorem isPlace_of_placeAt? {s : PairSet} {start : Nat} {here : Place}
    (h : s.placeAt? start = some here) : s.IsPlace here := by
  obtain ⟨p, hp, rfl⟩ := Option.map_eq_some_iff.1 h
  exact hp

/-- A lap leads over places of the set only. -/
theorem isPlace_of_mem_lap {s : PairSet} {start : Nat} {d : Direction} {x : Place}
    (hx : x ∈ s.lap start d) : s.IsPlace x := by
  unfold lap lapTake at hx
  split at hx
  · cases hx
  · rename_i here hhere
    exact isPlace_of_mem_placesFrom (isPlace_of_placeAt? hhere) hx

/-- **What a search finds is a candidate at its position, and one that was wanted.** -/
theorem isPlace_of_seek? {s : PairSet} {start : Nat} {d : Direction} {wanted : Pair → Bool}
    {x : Place} (h : s.seek? start d wanted = some x) : s.IsPlace x ∧ wanted x.pair = true := by
  rw [seek?_eq_find?] at h
  have hwanted := List.find?_some h
  exact ⟨isPlace_of_mem_lap (List.mem_of_find?_eq_some h), hwanted⟩

end PairSet
end PairAnnotation
