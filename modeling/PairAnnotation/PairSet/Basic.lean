/-
# Candidate pairs and their completion

A pair set is what a session works through: an ordered list of candidate pairs that
never changes, and the set of pairs that are completed.  The candidates are either
listed one by one or all combinations of the first `n` indices in ascending order.
Combinations are counted, looked up and located by formulas and never written out.
-/

import PairAnnotation.Distinct
import PairAnnotation.Pair

namespace PairAnnotation

/-- The pairs a session offers, in order: a list, or all combinations of so many segments, which are
never listed. -/
inductive Candidates where
  /-- These pairs, each of them once. -/
  | listed (pairs : List Pair) (nodup : pairs.Nodup)
  /-- All pairs of two indices below a number of segments, in ascending order. -/
  | combinations (segments : Nat)

/-- Where candidates come from: from relations, or from all combinations of segments. -/
inductive PairSource where
  /-- Pairs that carry a relation. -/
  | relations
  /-- Every combination of two segments. -/
  | allCombinations
  deriving DecidableEq, Repr, Inhabited

namespace Candidates

/-- The pairs of one row of combinations: those whose lower index is `low`. -/
def row (segments low : Nat) : List Pair :=
  (List.range (segments - low - 1)).map fun k => ⟨low, low + 1 + k, by omega⟩

/-- All candidates in order.  The combinations stand row by row, each row with one smaller index. -/
def toList : Candidates → List Pair
  | listed pairs _ => pairs
  | combinations n => (List.range n).flatMap (row n)

/-- The number of candidates, which for combinations is computed without listing them. -/
def length : Candidates → Nat
  | listed pairs _ => pairs.length
  | combinations n => n * (n - 1) / 2

/-- The combination `rest` places behind the start of the row of `low`, which has `width` places
and is followed by ever shorter rows. -/
def combinationFrom? : (low width rest : Nat) → Option Pair
  | _, 0, _ => none
  | low, width + 1, rest =>
    if rest < width + 1 then some ⟨low, low + 1 + rest, by omega⟩
    else combinationFrom? (low + 1) width (rest - (width + 1))

/-- The candidate at a position, which for combinations is counted through row by row. -/
def get? : Candidates → Nat → Option Pair
  | listed pairs _, position => pairs[position]?
  | combinations n, position => combinationFrom? 0 (n - 1) position

/-- **The position of a pair.**  Before the row of `low` stand `low` rows with
`(n - 1) + (n - 2) + ⋯ + (n - low)` pairs. -/
def position? : Candidates → Pair → Option Nat
  | listed pairs _, p => pairs.idxOf? p
  | combinations n, p =>
    if p.high < n then some (p.low * (2 * n - p.low - 1) / 2 + (p.high - p.low - 1)) else none

/-- The indices that may stand on one side while `fixed` stands on the other, `fixed` among them. -/
def eligible : Candidates → Nat → List Nat
  | listed pairs _, fixed => ascending Nat.ble (fixed :: pairs.filterMap (·.partner? fixed))
  | combinations n, _ => List.range n

/-- Where the candidates come from. -/
def source : Candidates → PairSource
  | listed .. => .relations
  | combinations _ => .allCombinations

/-- The first candidates, without forming the others; fewer if there are not so many. -/
def take (c : Candidates) (count : Nat) : List Pair :=
  (List.range (min count c.length)).filterMap c.get?

end Candidates

/-- **Candidates in order, and the pairs that are completed.**  Nothing here says that only
candidates are completed; sessions keep to that. -/
structure PairSet where
  candidates : Candidates
  completed : List Pair
  nodup_completed : completed.Nodup

namespace PairSet

/-- All combinations of a number of segments, none completed. -/
def combinations (segments : Nat) : PairSet := ⟨.combinations segments, [], List.nodup_nil⟩

/-- The pairs of a list, each at its first place, none completed. -/
def ofPairs (pairs : List Pair) : PairSet :=
  ⟨.listed (firstOccurrences pairs) (nodup_firstOccurrences pairs), [], List.nodup_nil⟩

instance : Inhabited PairSet := ⟨combinations 0⟩

/-- The pair set with other completed pairs, each of them once. -/
def withCompleted (s : PairSet) (completed : List Pair) : PairSet :=
  ⟨s.candidates, firstOccurrences completed, nodup_firstOccurrences completed⟩

/-- The candidates in their order; those that are combinations are listed only here. -/
def toList (s : PairSet) : List Pair := s.candidates.toList

/-- The number of candidates. -/
def length (s : PairSet) : Nat := s.candidates.length

/-- Whether there is no candidate. -/
def isEmpty (s : PairSet) : Bool := s.length == 0

/-- The candidate at a position, if the position is one of the set. -/
def get? (s : PairSet) (position : Nat) : Option Pair := s.candidates.get? position

/-- The position of a pair, if it is a candidate. -/
def position? (s : PairSet) (p : Pair) : Option Nat := s.candidates.position? p

/-- The segments that can be chosen for one side while the other side is fixed. -/
def eligible (s : PairSet) (fixed : Nat) : List Nat := s.candidates.eligible fixed

/-- Where the candidates come from: from relations, or from all combinations. -/
def source (s : PairSet) : PairSource := s.candidates.source

/-- The first candidates, at most so many. -/
def take (s : PairSet) (count : Nat) : List Pair := s.candidates.take count

/-! ### Completion -/

/-- Whether a pair is completed. -/
def isCompleted (s : PairSet) (p : Pair) : Bool := s.completed.contains p

/-- The number of completed pairs. -/
def completedCount (s : PairSet) : Nat := s.completed.length

/-- Whether as many pairs are completed as there are candidates. -/
def isFullyCompleted (s : PairSet) : Bool := s.length ≤ s.completedCount

/-- The set with a pair completed; completing it twice is completing it once. -/
def markCompleted (s : PairSet) (p : Pair) : PairSet :=
  if h : p ∈ s.completed then s
  else ⟨s.candidates, p :: s.completed, List.nodup_cons.2 ⟨h, s.nodup_completed⟩⟩

/-- The set with a pair not completed, whether it was completed or not. -/
def markIncomplete (s : PairSet) (p : Pair) : PairSet :=
  ⟨s.candidates, s.completed.erase p, s.nodup_completed.erase p⟩

/-- A pair is completed exactly if it is one of the completed pairs. -/
theorem isCompleted_iff {s : PairSet} {p : Pair} : s.isCompleted p = true ↔ p ∈ s.completed := by
  simp [isCompleted]

@[simp]
theorem candidates_markCompleted (s : PairSet) (p : Pair) :
    (s.markCompleted p).candidates = s.candidates := by
  unfold markCompleted
  split <;> rfl

@[simp]
theorem candidates_markIncomplete (s : PairSet) (p : Pair) :
    (s.markIncomplete p).candidates = s.candidates := rfl

/-- A pair that is completed is one of the completed pairs, and those that were completed before
still are. -/
theorem mem_completed_markCompleted {s : PairSet} {p q : Pair} :
    q ∈ (s.markCompleted p).completed ↔ q = p ∨ q ∈ s.completed := by
  unfold markCompleted
  split
  · rename_i h
    exact ⟨.inr, fun hq => hq.elim (fun e => e ▸ h) id⟩
  · exact List.mem_cons

/-- A pair that is opened again is not completed, and all others are what they were. -/
theorem mem_completed_markIncomplete {s : PairSet} {p q : Pair} :
    q ∈ (s.markIncomplete p).completed ↔ q ≠ p ∧ q ∈ s.completed :=
  s.nodup_completed.mem_erase_iff

end PairSet

end PairAnnotation
