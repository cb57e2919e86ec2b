/-
# JSON text

Two layouts of one value: `compact`, without any blank, and `pretty`, one item or
member a line, indented by two spaces a level, with empty containers closed at
once.  In strings only the quote, the backslash and the control characters below
U+0020 are escaped.  A binary64 number is written positionally while its first
digit stands between the fifth place after the point and the sixteenth before it.
-/

import PairAnnotation.Json.Value
import PairAnnotation.ShortestDecimal

namespace PairAnnotation
namespace Json

/-- JSON numbers go over to an exponent when their first digit stands below the place of `10^-5` or
above that of `10^15`. -/
def realLayout : DecimalLayout := ⟨-5, 15⟩

/-- A number in digits: an integer as it is, and a real as its shortest decimal. -/
def Number.text : Number → List Char
  | .natural n => Nat.toDigits 10 n
  | .negative n => '-' :: Nat.toDigits 10 n
  | .real isNegative x =>
    let digits := if x.mantissa = 0 then ['0', '.', '0'] else x.shortest.text realLayout
    if isNegative then '-' :: digits else digits

/-- A hexadecimal digit, letters in lower case. -/
def hexDigit (n : Nat) : Char := if n < 10 then Char.ofNat (48 + n) else Char.ofNat (87 + n)

/-- One character of a string: itself, or its escape if it is a control character, a quote or a
backslash. -/
def escapeChar (c : Char) : List Char :=
  if c = '"' then ['\\', '"']
  else if c = '\\' then ['\\', '\\']
  else if c.val < 0x20 then
    if c = '\n' then ['\\', 'n']
    else if c = '\r' then ['\\', 'r']
    else if c = '\t' then ['\\', 't']
    else if c = '\x08' then ['\\', 'b']
    else if c = '\x0c' then ['\\', 'f']
    else ['\\', 'u', '0', '0', hexDigit (c.toNat / 16), hexDigit (c.toNat % 16)]
  else [c]

/-- The characters of a string, escaped and without quotes. -/
def escape (s : List Char) : List Char := s.flatMap escapeChar

/-- A string between quotes. -/
def quoted (s : String) : List Char := '"' :: escape s.toList ++ ['"']

/-- A line break and the indentation of a level. -/
def lineBreak (level : Nat) : List Char := '\n' :: List.replicate (2 * level) ' '

mutual

/-- A value without blanks, as it stands in a single line. -/
def Value.compact : Value → List Char
  | .null => ['n', 'u', 'l', 'l']
  | .bool true => ['t', 'r', 'u', 'e']
  | .bool false => ['f', 'a', 'l', 's', 'e']
  | .number n => n.text
  | .string s => quoted s
  | .array items => '[' :: compactItems items ++ [']']
  | .object members => '{' :: compactMembers members ++ ['}']

/-- The values of a list one after the other, with commas in between. -/
def compactItems : List Value → List Char
  | [] => []
  | [v] => v.compact
  | v :: rest => v.compact ++ ',' :: compactItems rest

/-- Members one after the other, with commas in between and a colon behind each name. -/
def compactMembers : List (String × Value) → List Char
  | [] => []
  | [(k, v)] => quoted k ++ ':' :: v.compact
  | (k, v) :: rest => quoted k ++ ':' :: v.compact ++ ',' :: compactMembers rest

end

mutual

/-- A value over several lines, standing at an indentation level. -/
def Value.pretty (level : Nat) : Value → List Char
  | .null => ['n', 'u', 'l', 'l']
  | .bool true => ['t', 'r', 'u', 'e']
  | .bool false => ['f', 'a', 'l', 's', 'e']
  | .number n => n.text
  | .string s => quoted s
  | .array [] => ['[', ']']
  | .array items => '[' :: prettyItems (level + 1) items ++ lineBreak level ++ [']']
  | .object [] => ['{', '}']
  | .object members => '{' :: prettyMembers (level + 1) members ++ lineBreak level ++ ['}']

/-- The values of a list on a line each, indented to their level. -/
def prettyItems (level : Nat) : List Value → List Char
  | [] => []
  | [v] => lineBreak level ++ v.pretty level
  | v :: rest => lineBreak level ++ v.pretty level ++ ',' :: prettyItems level rest

/-- Members on a line each, indented to their level, with a colon and a blank behind each name. -/
def prettyMembers (level : Nat) : List (String × Value) → List Char
  | [] => []
  | [(k, v)] => lineBreak level ++ quoted k ++ ':' :: ' ' :: v.pretty level
  | (k, v) :: rest =>
    lineBreak level ++ quoted k ++ ':' :: ' ' :: v.pretty level ++ ',' :: prettyMembers level rest

end

/-- The text of a value without blanks. -/
def Value.compactText (v : Value) : String := String.ofList v.compact

/-- The text of a value over several lines. -/
def Value.prettyText (v : Value) : String := String.ofList (v.pretty 0)

end Json
end PairAnnotation
