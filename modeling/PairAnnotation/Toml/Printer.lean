/-
# Writing TOML

A string is written in the plainest form that can hold it: between double quotes,
between single quotes, or in one of the two forms over several lines, and only
otherwise with escapes.  Arrays of two items and more have one item a line.
-/

import PairAnnotation.Json.Printer

namespace PairAnnotation
namespace Toml

/-- Whether a character can only be written as an escape: a control character other than a tab
or a line feed. -/
def needsEscape (c : Char) : Bool :=
  (c.toNat < 0x20 && c != '\t' && c != '\n') || c.toNat == 0x7F

/-- The length of the longest run of a character, from the length of the run that stands before
the text. -/
def longestRun (quote : Char) : Nat → List Char → Nat
  | run, [] => run
  | run, c :: rest =>
    if c = quote then longestRun quote (run + 1) rest else max run (longestRun quote 0 rest)

/-- The forms of a string: in double or in single quotes, on one line or over several. -/
inductive StringForm where
  | basic
  | literal
  | basicLines
  | literalLines
  deriving DecidableEq, Repr

/-- **The plainest form for a string**: double quotes if nothing has to be escaped, then the forms
without escapes, then the others. -/
def StringForm.choose (s : List Char) : StringForm :=
  let needsEscapes := s.any needsEscape
  let doubleQuotes := longestRun '"' 0 s
  let singleQuotes := longestRun '\'' 0 s
  if !needsEscapes && !s.contains '\\' && doubleQuotes == 0 && !s.contains '\n' then .basic
  else if !needsEscapes && singleQuotes == 0 && !s.contains '\n' then .literal
  else if !needsEscapes && !s.contains '\\' && doubleQuotes ≤ 2 then .basicLines
  else if !needsEscapes && singleQuotes ≤ 2 then .literalLines
  else if s.contains '\n' then .basicLines
  else .basic

/-- The escape of a character, if it has one; the quote and the line feed are not escaped
everywhere. -/
def escape? (c : Char) : Option (List Char) :=
  if c = '\x08' then some ['\\', 'b']
  else if c = '\t' then some ['\\', 't']
  else if c = '\x0c' then some ['\\', 'f']
  else if c = '\r' then some ['\\', 'r']
  else if c = '\\' then some ['\\', '\\']
  else if needsEscape c then
    let digit (n : Nat) : Char := (Json.hexDigit n).toUpper
    some ['\\', 'u', '0', '0', digit (c.toNat / 16), digit (c.toNat % 16)]
  else none

/-- Characters between double quotes, of which up to `quotes` may stand side by side as they are.
`run` double quotes stand right before.  Line feeds are escaped unless `lines` says that the
string goes over several lines. -/
def escaped (lines : Bool) (quotes : Nat) : (run : Nat) → List Char → List Char
  | _, [] => []
  | run, c :: rest =>
    if c = '"' then
      if run < quotes then c :: escaped lines quotes (run + 1) rest
      else '\\' :: '"' :: escaped lines quotes 0 rest
    else if c = '\n' then
      if lines then c :: escaped lines quotes 0 rest
      else '\\' :: 'n' :: escaped lines quotes 0 rest
    else (escape? c).getD [c] ++ escaped lines quotes 0 rest

/-- The line break after the opening quotes of a string that has a line break itself. -/
def openingBreak (s : List Char) : List Char := if s.contains '\n' then ['\n'] else []

/-- **A string in TOML**, in the plainest form that can hold it. -/
def quoted (s : String) : List Char :=
  let s := s.toList
  match StringForm.choose s with
  | .basic => ['"'] ++ escaped false 0 0 s ++ ['"']
  | .literal => ['\''] ++ s ++ ['\'']
  | .basicLines =>
    ['"', '"', '"'] ++ openingBreak s ++ escaped true 2 0 s ++ ['"', '"', '"']
  | .literalLines =>
    ['\'', '\'', '\''] ++ openingBreak s ++ s ++ ['\'', '\'', '\'']

/-- An array of strings: on one line with one item at most, and otherwise an item on a line. -/
def stringArray : List String → List Char
  | [] => ['[', ']']
  | [s] => ['['] ++ quoted s ++ [']']
  | items =>
    ['[', '\n'] ++ items.flatMap (fun s => [' ', ' ', ' ', ' '] ++ quoted s ++ [',', '\n']) ++ [']']

/-- The assignment of a value to a key, on a line of its own. -/
def assignment (key : String) (value : List Char) : List Char :=
  key.toList ++ [' ', '=', ' '] ++ value ++ ['\n']

/-- A header on a line of its own, with the name of the table in brackets. -/
def header (name : String) : List Char := ['['] ++ name.toList ++ [']', '\n']

end Toml
end PairAnnotation
