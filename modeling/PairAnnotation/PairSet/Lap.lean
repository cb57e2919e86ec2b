/-
# Laps

Candidate pairs form a circle.  A lap starts at a place, goes round in one direction
and ends where it started; it makes one step at a time, so a search along it stops
at the first hit.  Among all combinations the neighbour of a pair is computed from
the pair itself.
-/

import PairAnnotation.PairSet.Basic

namespace PairAnnotation

/-- The two ways round the circle of candidates, or of the partners of a segment. -/
inductive Direction where
  | next
  | previous
  deriving DecidableEq, Repr, Inhabited

/-- A position among the candidates and the pair there, so that a walk need not look a pair up
again. -/
structure Place where
  position : Nat
  pair : Pair
  deriving DecidableEq, Repr

namespace PairSet

/-- The neighbour of a position on a circle of `total` positions. -/
def turn (total : Nat) : Direction → Nat → Nat
  | .next, position => (position + 1) % total
  | .previous, position => (position + total - 1) % total

/-- The neighbour of a pair among the combinations of `n` indices, the last one being followed by
the first one.  A pair with an index that is not below `n` has no other neighbour than itself. -/
def stepCombination (n : Nat) (d : Direction) (p : Pair) : Pair :=
  have := p.low_lt_high
  match d with
  | .next =>
    if p.high + 1 < n then ⟨p.low, p.high + 1, by omega⟩
    else if p.low + 2 < n then ⟨p.low + 1, p.low + 2, by omega⟩
    else ⟨0, 1, by omega⟩
  | .previous =>
    if h : p.low + 1 < p.high then ⟨p.low, p.high - 1, by omega⟩
    else if h : 0 < p.low ∧ p.low < n then ⟨p.low - 1, n - 1, by omega⟩
    else if h : 2 ≤ n then ⟨n - 2, n - 1, by omega⟩
    else p

/-- The place beside another one, the first following the last; there is none beside what is no
place. -/
def neighbour? (s : PairSet) (d : Direction) (here : Place) : Option Place :=
  let position := turn s.length d here.position
  match s.candidates with
  | .listed pairs _ => pairs[position]?.map (⟨position, ·⟩)
  | .combinations n => some ⟨position, stepCombination n d here.pair⟩

/-- The place at a position; a position behind the last one stands for the last one. -/
def placeAt? (s : PairSet) (position : Nat) : Option Place :=
  let position := min position (s.length - 1)
  (s.get? position).map (⟨position, ·⟩)

/-- The first places of a way round that starts beside `here`. -/
def placesFrom (s : PairSet) (d : Direction) : Nat → Place → List Place
  | 0, _ => []
  | count + 1, here =>
    match s.neighbour? d here with
    | none => []
    | some there => there :: s.placesFrom d count there

/-- The first place of such a way whose pair satisfies a condition, within a number of steps. -/
def seekFrom? (s : PairSet) (d : Direction) (wanted : Pair → Bool) : Nat → Place → Option Place
  | 0, _ => none
  | count + 1, here =>
    match s.neighbour? d here with
    | none => none
    | some there => if wanted there.pair then some there else s.seekFrom? d wanted count there

/-- The first `count` places of a lap, as an iterator over the lap hands them out one by one. -/
def lapTake (s : PairSet) (start : Nat) (d : Direction) (count : Nat) : List Place :=
  match s.placeAt? start with
  | none => []
  | some here => s.placesFrom d (min count s.length) here

/-- **A lap**: every candidate once, the one at `start` last. -/
def lap (s : PairSet) (start : Nat) (d : Direction) : List Place := s.lapTake start d s.length

/-- The first candidate of a lap that satisfies a condition. -/
def seek? (s : PairSet) (start : Nat) (d : Direction) (wanted : Pair → Bool) : Option Place :=
  match s.placeAt? start with
  | none => none
  | some here => s.seekFrom? d wanted s.length here

/-- A search along a walk finds the first place of the walk with a pair that is wanted. -/
theorem seekFrom?_eq_find? (s : PairSet) (d : Direction) (wanted : Pair → Bool) (count : Nat)
    (here : Place) :
    s.seekFrom? d wanted count here = (s.placesFrom d count here).find? (wanted ·.pair) := by
  induction count generalizing here with
  | zero => rfl
  | succ count ih =>
    rw [seekFrom?, placesFrom]
    split
    · rfl
    · rename_i there _
      rw [List.find?_cons, ih]
      cases wanted there.pair <;> rfl

/-- **Seeking is a search along the lap**: the first pair on the way round that is wanted, the
starting one at last. -/
theorem seek?_eq_find? (s : PairSet) (start : Nat) (d : Direction) (wanted : Pair → Bool) :
    s.seek? start d wanted = (s.lap start d).find? (wanted ·.pair) := by
  unfold seek? lap lapTake
  split
  · rfl
  · rw [Nat.min_self, seekFrom?_eq_find?]

end PairSet

end PairAnnotation
