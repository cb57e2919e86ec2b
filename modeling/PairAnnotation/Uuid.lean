/-
# Universally unique identifiers

Sixteen bytes, shown as thirty-two hexadecimal digits in lower case with hyphens
between groups of 8, 4, 4, 4 and 12.  They are read with letters of either case, with
all hyphens or without any, and the hyphenated form also in braces or as a `urn`.
-/

import PairAnnotation.Json.Printer
import PairAnnotation.Json.Tree

namespace PairAnnotation

/-- An identifier by its hexadecimal digits, from the left; there are thirty-two of them in what is
read or made. -/
structure Uuid where
  digits : List Nat
  deriving DecidableEq, Repr, Inhabited

namespace Uuid

/-- Where a hyphen stands, by the number of digits before it. -/
def hyphensAfter : List Nat := [8, 12, 16, 20]

/-- Digits with a hyphen before those whose number of digits before them asks for one. -/
def hyphenate (before : Nat) : List Char → List Char
  | [] => []
  | c :: rest =>
    let tail := c :: hyphenate (before + 1) rest
    if hyphensAfter.contains before then '-' :: tail else tail

/-- **The text of an identifier**: its digits in lower case, in five groups with hyphens in
between. -/
def text (u : Uuid) : String := String.ofList (hyphenate 0 (u.digits.map Json.hexDigit))

/-- Thirty-two digits without anything between them. -/
def ofDigits? (cs : List Char) : Option Uuid :=
  if cs.length = 32 then (cs.mapM Json.hexValue?).map Uuid.mk else none

/-- Digits with every hyphen in its place. -/
def ofHyphenated? (cs : List Char) : Option Uuid :=
  let digits := cs.filter (· ≠ '-')
  if cs = hyphenate 0 digits then ofDigits? digits else none

/-- What stands between braces, if a text is enclosed in them. -/
def unbraced? : List Char → Option (List Char)
  | '\x7b' :: rest => if rest.getLast? = some '\x7d' then some rest.dropLast else none
  | _ => none

/-- What follows the name space of identifiers. -/
def unprefixed? (cs : List Char) : Option (List Char) :=
  if (cs.take 9).map Char.toLower = "urn:uuid:".toList then some (cs.drop 9) else none

/-- **An identifier from its text**, which may be without hyphens, in braces, or behind the name
space of identifiers. -/
def ofText? (text : String) : Option Uuid :=
  let cs := text.toList
  if cs.length = 32 then ofDigits? cs
  else
    match unbraced? cs with
    | some cs => ofHyphenated? cs
    | none => ofHyphenated? ((unprefixed? cs).getD cs)

end Uuid

end PairAnnotation
