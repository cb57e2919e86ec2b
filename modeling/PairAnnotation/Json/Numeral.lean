/-
# JSON numerals

A numeral as it stands in a text, and the number it is kept as.  A numeral without
point and exponent that fits 64 bits is an integer; `-0` and every other numeral is
a binary64 number.  That number is formed the fast way, not by correct rounding:
the digits that fit 64 bits make an integer, which is rounded once and then
multiplied or divided by a power of ten, rounded itself.  Digits that no longer fit
only count as places.
-/

import PairAnnotation.Json.Value

namespace PairAnnotation
namespace Json

/-- A numeral: sign, digits before the point, digits after it, and the exponent with its sign. -/
structure Numeral where
  isNegative : Bool
  whole : List Char
  fraction : List Char
  exponent : Option (Bool × List Char)
  deriving DecidableEq, Repr

namespace Numeral

/-- The number a decimal digit stands for; of other characters it says nothing. -/
def digit (c : Char) : Nat := c.toNat - 48

/-- The greatest integer of 64 bits, which is the greatest one that is read. -/
def word : Nat := Nat.pow 2 64 - 1

/-- Append digits to a number while it fits 64 bits; the digits that no longer fit are left. -/
def absorb (n : Nat) : List Char → Nat × List Char
  | [] => (n, [])
  | c :: rest => if n * 10 + digit c ≤ word then absorb (n * 10 + digit c) rest else (n, c :: rest)

/-- The greatest exponent for which a power of ten is kept at hand. -/
def greatestPower : Nat := 308

/-- `x · 10^e`, each step rounded: by steps of 308 places while the exponent is far below zero. -/
def scaleByTen (x : Binary64) (e : Int) : Option Binary64 :=
  if e.natAbs ≤ greatestPower then do
    let power ← Binary64.ofNat? (Nat.pow 10 e.natAbs)
    if 0 ≤ e then x.mul? power else x.div? power
  else if x.mantissa = 0 then some x
  else if 0 ≤ e then none
  else do
    let power ← Binary64.ofNat? (Nat.pow 10 greatestPower)
    let smaller ← x.div? power
    scaleByTen smaller (e + greatestPower)
termination_by e.natAbs
decreasing_by simp only [greatestPower] at *; omega

/-- The integer read from digits, from the left, each multiplying what was read before by ten. -/
def ofDigits (n : Nat) (cs : List Char) : Nat := cs.foldl (fun n c => n * 10 + digit c) n

/-- Exponents are counted in 32 bits and stay at the ends of that range. -/
def clamp (e : Int) : Int := max (-2147483648) (min 2147483647 e)

/-- The binary64 number of a significand and a decimal exponent, or `none` beyond all of them. -/
def real? (isNegative : Bool) (significand : Nat) (e : Int) : Option Number := do
  let x ← Binary64.ofNat? significand
  let y ← scaleByTen x e
  some (.real isNegative y)

/-- **The number that a numeral is kept as**; `none` when it is too large. -/
def number? (n : Numeral) : Option Number :=
  let (whole, dropped) := absorb 0 n.whole
  if n.fraction = [] ∧ n.exponent = none ∧ dropped = [] then
    if n.isNegative then
      if whole = 0 then some (.real true Binary64.zero)
      else if whole ≤ Nat.pow 2 63 then some (.negative whole)
      else real? true whole 0
    else some (.natural whole)
  else
    let (significand, ignored) := absorb whole n.fraction
    let places : Int :=
      (dropped.length : Int) - ((n.fraction.length : Int) - (ignored.length : Int))
    match n.exponent with
    | none => real? n.isNegative significand places
    | some (isNegative, digits) =>
      let e := ofDigits 0 digits
      if e ≤ 2147483647 then
        real? n.isNegative significand
          (clamp (if isNegative then places - (e : Int) else places + (e : Int)))
      else if significand ≠ 0 ∧ isNegative = false then none
      else some (.real n.isNegative Binary64.zero)

end Numeral

end Json
end PairAnnotation
