/-
# Progress

How much of a pair set is completed, as a fraction and in words.  The fraction is a
binary64 number, rounded once when the two counts are turned into such numbers and
once when they are divided; percent are whole, a half rounding up.

The width of a bar is a number of 32 bits, and so is the product that it is divided
from.  A product that does not fit has no result, and neither has what depends on it.
-/

import PairAnnotation.Binary64
import PairAnnotation.PairSet.Basic

namespace PairAnnotation

/-- A number of completed pairs among a total, as they are counted at some time. -/
structure Progress where
  completed : Nat
  total : Nat
  deriving DecidableEq, Repr, Inhabited

namespace Progress

/-- The progress of a pair set: its completed pairs among its candidates. -/
def ofPairs (pairs : PairSet) : Progress := ⟨pairs.completedCount, pairs.length⟩

/-- The completed part as a binary64 number, rounded like the two counts; nothing of nothing is
0. -/
def fraction (p : Progress) : Binary64 :=
  if p.total = 0 then .zero
  else (do (← Binary64.ofNat? p.completed).div? (← Binary64.ofNat? p.total)).getD .zero

/-- The least number of percent that is not shown as it is. -/
def percentLimit : Nat := Nat.pow 2 32

/-- Whole percent, at most `2 ^ 32 - 1`. -/
def percent (p : Progress) : UInt32 :=
  let hundredfold := do p.fraction.mul? (← Binary64.ofNat? 100)
  UInt32.ofNat (min ((hundredfold.map (·.roundToNat)).getD 0) (percentLimit - 1))

/-- Percent in words, with the sign behind the whole number. -/
def percentLabel (p : Progress) : String := toString p.percent.toNat ++ "%"

/-- The two counts in words, with a slash between them. -/
def countLabel (p : Progress) : String := toString p.completed ++ "/" ++ toString p.total

/-- **The width of the filled part of a bar**, in pixels.  Percent and full width are multiplied
before the division; the width is missing if their product has more than 32 bits. -/
def barWidth? (p : Progress) (fullWidth : UInt32) : Option UInt32 :=
  if p.percent.toNat * fullWidth.toNat < Nat.pow 2 32 then some (p.percent * fullWidth / 100)
  else none

/-- The style of a bar of a given full width, if the filled part has a width. -/
def barStyle? (p : Progress) (fullWidth : UInt32) : Option String :=
  (p.barWidth? fullWidth).map fun width => "width:" ++ toString width.toNat ++ "px"

end Progress

/-- The class of an arrow: one that carries a tag is active. -/
def arrowClass (tag : Option Tag) : String := if tag.isSome then " active" else ""

end PairAnnotation
