/-
# The shortest decimal of a binary64 number

Of all decimals that round to a given binary64 number, the shortest one is
written, and of several equally short ones the nearest to the number, a tie going
to the even last digit.  The reals that round to the number form an interval, its
ends included when the mantissa is even.  For 1, 2, … 17 digits the number's two
neighbours on the grid of decimals with so many digits are tested against the
interval in exact arithmetic; the first grid with a hit decides.

Values are scaled by `2^1076` (so that the ends of the interval are integers) and
by `10^400` (so that no power of ten is negative).
-/

import PairAnnotation.Binary64

namespace PairAnnotation

/-- Digits `0.d₁d₂… · 10^(exponent + 1)`: `exponent` is the decimal place of the first digit. -/
structure Decimal where
  digits : List Char
  exponent : Int
  deriving DecidableEq, Repr

namespace ShortestDecimal

/-- The power of ten that makes every power of ten below an integer. -/
def scale : Nat := Nat.pow 10 400

/-- The interval of reals that round to a number, and the number itself, in quarters of a unit. -/
structure Interval where
  low : Nat
  value : Nat
  high : Nat
  closed : Bool

/-- Half way to the neighbour on either side; below a power of two the neighbour is nearer. -/
def interval (x : Binary64) : Interval :=
  let ulp := Nat.pow 2 x.shift
  { low := if x.mantissa = Nat.pow 2 52 ∧ 0 < x.shift then 4 * x.mantissa * ulp - ulp
           else 4 * x.mantissa * ulp - 2 * ulp
    value := 4 * x.mantissa * ulp
    high := 4 * x.mantissa * ulp + 2 * ulp
    closed := x.mantissa % 2 = 0 }

/-- Whether the scaled real `r` rounds to the number. -/
def Interval.accepts (i : Interval) (r : Nat) : Bool :=
  if i.closed then i.low * scale ≤ r && r ≤ i.high * scale
  else i.low * scale < r && r < i.high * scale

/-- The hit among the two neighbours of the number on the grid of step `step`. -/
def hit? (i : Interval) (step : Nat) : Option Nat :=
  let value := i.value * scale
  let below := value / step
  let above := below + 1
  let fitsBelow := i.accepts (below * step)
  let fitsAbove := i.accepts (above * step)
  if fitsBelow && fitsAbove then
    let left := value - below * step
    let right := above * step - value
    if left < right || (left == right && below % 2 == 0) then some below else some above
  else if fitsBelow then some below
  else if fitsAbove then some above
  else none

/-- The hit on the first of the grids of `digits`, `digits + 1`, … digits, `grids` of them. -/
def search (i : Interval) (place : Nat) : (digits grids : Nat) → Nat × Nat
  | digits, 0 => (i.value * scale / (Nat.pow 2 1076 * Nat.pow 10 (place + 1 - digits)), digits)
  | digits, grids + 1 =>
    match hit? i (Nat.pow 2 1076 * Nat.pow 10 (place + 1 - digits)) with
    | some n => (n, digits)
    | none => search i place (digits + 1) grids

end ShortestDecimal

/-- **The shortest decimal that rounds to a positive number**, and of several the one nearest to
it. -/
def Binary64.shortest (x : Binary64) : Decimal :=
  let i := ShortestDecimal.interval x
  let place := (Nat.toDigits 10 (i.value * ShortestDecimal.scale / Nat.pow 2 1076)).length - 1
  let (n, digits) := ShortestDecimal.search i place 1 17
  let written := Nat.toDigits 10 n
  { digits := (written.reverse.dropWhile (· == '0')).reverse
    exponent := (place : Int) - 400 + ((written.length : Int) - (digits : Int)) }

/-- How a decimal is laid out: positionally while the place of the first digit lies between two
bounds, and otherwise with an exponent that carries its sign. -/
structure DecimalLayout where
  leastPlace : Int
  greatestPlace : Int

/-- A decimal in the given layout, always with a point or an exponent. -/
def Decimal.text (layout : DecimalLayout) (d : Decimal) : List Char :=
  if layout.leastPlace ≤ d.exponent ∧ d.exponent ≤ layout.greatestPlace then
    if d.exponent < 0 then
      '0' :: '.' :: List.replicate (-d.exponent - 1).toNat '0' ++ d.digits
    else
      let whole := d.exponent.toNat + 1
      if d.digits.length ≤ whole then
        d.digits ++ List.replicate (whole - d.digits.length) '0' ++ ['.', '0']
      else d.digits.take whole ++ '.' :: d.digits.drop whole
  else
    let power := (if d.exponent < 0 then '-' else '+') :: Nat.toDigits 10 d.exponent.natAbs
    match d.digits with
    | [c] => c :: 'e' :: power
    | c :: rest => c :: '.' :: rest ++ 'e' :: power
    | [] => []

end PairAnnotation
