/-
# JSON values

The values a document keeps and a program writes.  A number is an integer that
fits 64 bits, with or without sign, or a binary64 number; an object lists its
members in the order in which they are written.
-/

import PairAnnotation.Binary64

namespace PairAnnotation
namespace Json

/-- A JSON number as it is kept: integers of 64 bits exactly, and everything else as the nearest
binary64 number. -/
inductive Number where
  /-- The integer `n`, from 0 to `2^64 - 1`. -/
  | natural (n : Nat)
  /-- The integer `-n`, for `n` from 1 to `2^63`. -/
  | negative (n : Nat)
  /-- A binary64 number. -/
  | real (isNegative : Bool) (magnitude : Binary64)
  deriving DecidableEq, Repr, Inhabited

/-- A JSON value, with the members of an object in the order in which they are written. -/
inductive Value where
  | null
  | bool (b : Bool)
  | number (n : Number)
  | string (s : String)
  | array (items : List Value)
  | object (members : List (String × Value))
  deriving Repr, Inhabited

namespace Value

/-- An integer that is not negative, as ids and offsets are written. -/
def nat (n : Nat) : Value := .number (.natural n)

/-- A value that may be missing, written as null then. -/
def ofOption {α : Type} (f : α → Value) : Option α → Value
  | none => .null
  | some a => f a

/-- The integer from 0 to `2^64 - 1` that a value is. -/
def toNat? : Value → Option Nat
  | .number (.natural n) => some n
  | _ => none

end Value

end Json
end PairAnnotation
