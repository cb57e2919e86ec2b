/-
# Binary64 numbers without sign

A binary64 number that is finite and not negative is `mantissa · 2^(shift - 1074)`
with a mantissa below `2^53`.  Everything here is exact arithmetic on natural
numbers: an operation forms the exact quotient and rounds it once, to the nearest
number with a 53-bit mantissa, a tie to the even mantissa (`Binary64.nearest`).
Counting in units of `2^-1074`, the least positive number, keeps the exponent a
natural number.
-/

namespace PairAnnotation

/-- The number `mantissa · 2^shift` in units of `2^-1074`, the smallest positive one.  Only numbers
that are not negative occur here, and only finite ones. -/
structure Binary64 where
  mantissa : Nat
  shift : Nat
  deriving DecidableEq, Repr, Inhabited

/-- The quotient of two natural numbers, rounded to the nearest integer, a tie to the even one. -/
def roundHalfEven (num den : Nat) : Nat :=
  let q := num / den
  let r := num % den
  if 2 * r < den then q
  else if den < 2 * r then q + 1
  else if q % 2 = 0 then q else q + 1

namespace Binary64

/-- One, counted in units, which is how every other number is told as well. -/
def unitsPerOne : Nat := Nat.pow 2 1074

/-- The value, counted in units, so numbers are compared by their units. -/
def units (x : Binary64) : Nat := x.mantissa * Nat.pow 2 x.shift

/-- The number zero: no units, at the least exponent. -/
def zero : Binary64 := ⟨0, 0⟩

/-- The first exponent whose mantissa has at most 53 bits for a value of `floor` whole units. -/
def shiftFor (floor : Nat) : Nat := if floor = 0 then 0 else Nat.log2 floor + 1 - 53

/-- **The nearest number to `num / den`**, a tie going to the even mantissa; `none` when the
quotient is too large for a finite number. -/
def nearest (num den : Nat) : Option Binary64 :=
  let scaled := num * unitsPerOne
  let shift := shiftFor (scaled / den)
  let mantissa := roundHalfEven scaled (den * Nat.pow 2 shift)
  let x : Binary64 :=
    if mantissa = Nat.pow 2 53 then ⟨Nat.pow 2 52, shift + 1⟩ else ⟨mantissa, shift⟩
  if x.shift ≤ 2045 then some x else none

/-- The nearest number to a natural number, which is the number itself below `2 ^ 53`. -/
def ofNat? (n : Nat) : Option Binary64 := nearest n 1

/-- The product, rounded once, or nothing if it is too large for a finite number. -/
def mul? (x y : Binary64) : Option Binary64 :=
  nearest (x.units * y.units) (unitsPerOne * unitsPerOne)

/-- The quotient by a number that is not zero, rounded once. -/
def div? (x y : Binary64) : Option Binary64 := nearest x.units y.units

/-- The nearest whole number, a half going up, as whole percent are rounded. -/
def roundToNat (x : Binary64) : Nat := (2 * x.units + unitsPerOne) / (2 * unitsPerOne)

/-- The 64 bits of the interchange format, as a number. -/
def toBits (x : Binary64) : Nat :=
  if x.mantissa < Nat.pow 2 52 then x.mantissa
  else (x.shift + 1) * Nat.pow 2 52 + (x.mantissa - Nat.pow 2 52)

end Binary64

end PairAnnotation
