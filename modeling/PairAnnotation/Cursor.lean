/-
# The cursor

The cursor is where the annotator is: a candidate pair, which of its two members
stands on the left, and the tag that the navigation is restricted to.  It moves from
pair to pair around the circle of candidates, or moves one side among the segments
that are paired with the other side.
-/

import PairAnnotation.PairSet.Lap
import PairAnnotation.RelationIndex
import PairAnnotation.Segment

namespace PairAnnotation

/-- The two sides of the editor, each of which shows one segment of the current pair. -/
inductive Side where
  | left
  | right
  deriving DecidableEq, Repr, Inhabited

/-- The segment on either side, the position of their pair, and the tag that pairs must carry. -/
structure Cursor where
  left : Nat
  right : Nat
  pairIndex : Nat
  filter : Option Tag := none
  deriving DecidableEq, Repr, Inhabited

namespace Cursor

/-- A cursor on the first candidate, if there is one, with the smaller index on the left and no
filter. -/
def start? (pairs : PairSet) : Option Cursor :=
  (pairs.get? 0).map fun p => { left := p.low, right := p.high, pairIndex := 0 }

/-- The pair of the two sides, whichever of them has the smaller index. -/
def pair? (c : Cursor) : Option Pair := Pair.of? c.left c.right

/-- The segment on a side, by its index. -/
def segmentOn (c : Cursor) : Side → Nat
  | .left => c.left
  | .right => c.right

/-- The segment on the other side, which stays where it is while a side is moved. -/
def opposite (c : Cursor) : Side → Nat
  | .left => c.right
  | .right => c.left

/-- The cursor with another segment on a side, at another position. -/
def put (c : Cursor) (side : Side) (segment position : Nat) : Cursor :=
  match side with
  | .left => { c with left := segment, pairIndex := position }
  | .right => { c with right := segment, pairIndex := position }

/-- The cursor on a candidate, its lower index on the left. -/
def land (c : Cursor) (place : Place) : Cursor :=
  { c with left := place.pair.low, right := place.pair.high, pairIndex := place.position }

/-- Whether what stands on a pair carries the tag that is asked for, if any is. -/
def passes (filter : Option Tag) (resolve : Pair → ResolvedRelation) (p : Pair) : Bool :=
  match filter with
  | none => true
  | some tag => (resolve p).contains tag

/-- **Move to the nearest candidate in a direction that passes the filter**, and answer the pair
the cursor is on then.  The present pair is the last one considered. -/
def movePair (c : Cursor) (d : Direction) (pairs : PairSet) (resolve : Pair → ResolvedRelation) :
    Option Pair × Cursor :=
  match pairs.seek? c.pairIndex d (passes c.filter resolve) with
  | some place => (some place.pair, c.land place)
  | none => (c.pair?, c)

/-- **Move on to the nearest candidate that is not completed** and passes the filter. -/
def jumpToNextIncomplete (c : Cursor) (pairs : PairSet) (resolve : Pair → ResolvedRelation) :
    Option Pair × Cursor :=
  if pairs.isEmpty || pairs.isFullyCompleted then (c.pair?, c)
  else
    match pairs.seek? c.pairIndex .next
        fun p => !pairs.isCompleted p && passes c.filter resolve p with
    | some place => (some place.pair, c.land place)
    | none => (c.pair?, c)

/-- The neighbour of a number in an ascending list, the last number being followed by the first.
The number itself need not be in the list. -/
def neighbourIn? (others : List Nat) (moving : Nat) : Direction → Option Nat
  | .next => (others.find? (moving < ·)).or others.head?
  | .previous => (others.reverse.find? (· < moving)).or others.getLast?

/-- **Move one side among the segments paired with the other side**, and answer the segment it is
on then.  The other side is never landed on. -/
def moveSegment (c : Cursor) (side : Side) (d : Direction) (pairs : PairSet) : Nat × Cursor :=
  let moving := c.segmentOn side
  let fixed := c.opposite side
  match neighbourIn? ((pairs.eligible fixed).filter (· ≠ fixed)) moving d with
  | none => (moving, c)
  | some target =>
    match (Pair.of? target fixed).bind pairs.position? with
    | none => (moving, c)
    | some position => (target, c.put side target position)

/-- **Where a side stands**, in words.  Derived segments are counted in the document.  Segments of
a pre-annotated document are counted among those that are eligible for the side; the rank counts
the fixed side and the total does not. -/
def positionLabel (c : Cursor) (side : Side) (pairs : PairSet) (source : SegmentSource)
    (segmentCount : Nat) : String :=
  match source with
  | .preAnnotated =>
    let eligible := pairs.eligible (c.opposite side)
    let rank := match eligible.idxOf? (c.segmentOn side) with
      | some rank => toString (rank + 1)
      | none => "-"
    "(" ++ rank ++ "/" ++ toString (eligible.length - 1) ++ ")"
  | .derived => "(" ++ toString (c.segmentOn side + 1) ++ "/" ++ toString segmentCount ++ ")"

end Cursor

end PairAnnotation
