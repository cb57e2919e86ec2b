/-
# Reading TOML

A text is a sequence of lines: headers, assignments and comments.  Values may nest,
but not as deep as `depthLimit`, and keys may have fewer parts than that.
-/

import PairAnnotation.Toml.Node
import PairAnnotation.Toml.Scalar

namespace PairAnnotation
namespace Toml

/-- How many values nest, and how many parts a key has, at the least when they are refused. -/
def depthLimit : Nat := 80

/-- What follows a comment, up to the end of its line. -/
def skipComment : List Char → List Char
  | '#' :: rest => rest.dropWhile isPlain
  | cs => cs

/-- What follows the end of a line: blanks, perhaps a comment, and a line break or the end of the
text. -/
def lineEnd? (cs : List Char) : Option (List Char) :=
  match skipComment (skipBlanks cs) with
  | [] => some []
  | cs => newline? cs

/-! ### Keys -/

/-- Whether a character may stand in a key without quotes. -/
def isBareKeyChar (c : Char) : Bool :=
  c.isAlphanum || c == '_' || c == '-'

/-- One part of a key, bare or in quotes, and what follows it. -/
def readKeyPart (cs : List Char) : Option (String × List Char) :=
  match cs with
  | '"' :: rest => readQuoted '"' true rest
  | '\'' :: rest => readQuoted '\'' false rest
  | cs =>
    let bare := cs.takeWhile isBareKeyChar
    if bare = [] then none else some (String.ofList bare, cs.dropWhile isBareKeyChar)

/-- The parts of a key, blanks around each.  The first argument bounds the recursion; the length
of the text is always enough. -/
def readKeyParts : Nat → List Char → Option (List String × List Char)
  | 0, _ => none
  | fuel + 1, cs => do
    let (part, rest) ← readKeyPart (skipBlanks cs)
    match skipBlanks rest with
    | '.' :: rest =>
      let (parts, rest) ← readKeyParts fuel rest
      some (part :: parts, rest)
    | rest => some ([part], rest)

/-- A key: its parents, its last part, and what follows. -/
def readKey (cs : List Char) : Option (List String × String × List Char) := do
  let (parts, rest) ← readKeyParts (cs.length + 1) cs
  let last ← parts.getLast?
  if parts.length < depthLimit then some (parts.dropLast, last, rest) else none

/-! ### Values -/

/-- A value that neither is a string nor contains others. -/
def readPlain (cs : List Char) : Option (Node × List Char) :=
  match word? ['t', 'r', 'u', 'e'] cs, word? ['f', 'a', 'l', 's', 'e'] cs with
  | some rest, _ => some (.boolean true, rest)
  | none, some rest => some (.boolean false, rest)
  | none, none =>
    match readDateTime cs with
    | some (text, rest) => some (.dateTime text, rest)
    | none =>
      match readFloat cs with
      | some (text, rest) => some (.float text, rest)
      | none => (readInteger cs).map fun (n, rest) => (.integer n, rest)

/-- Blanks, comments and line breaks between the items of an array.  The first argument bounds the
recursion; the length of the text is always enough. -/
def skipFiller : Nat → List Char → List Char
  | 0, cs => cs
  | fuel + 1, cs =>
    let cs := skipBlanks cs
    match newline? (skipComment cs) with
    | some rest => skipFiller fuel rest
    | none => cs

/-- What is left between the items of an array when blanks, line breaks and comments are skipped. -/
def filler (cs : List Char) : List Char := skipFiller (cs.length + 1) cs

mutual

/-- A value inside `depth` others, and what follows it.  The first argument bounds the recursion;
twice the length of the text is always enough. -/
def readValue : (fuel depth : Nat) → List Char → Option (Node × List Char)
  | 0, _, _ => none
  | fuel + 1, depth, cs =>
    match cs with
    | '"' :: _ | '\'' :: _ => (readString cs).map fun (s, rest) => (.string s, rest)
    | '[' :: rest =>
      if depthLimit ≤ depth + 1 then none
      else (readItems fuel (depth + 1) (filler rest)).map fun (items, rest) => (.array items, rest)
    | '{' :: rest =>
      if depthLimit ≤ depth + 1 then none
      else
        match skipBlanks rest with
        | '}' :: rest => some (.table .inline [], rest)
        | rest => readPairs fuel (depth + 1) [] rest
    | cs => readPlain cs

/-- The items of an array up to its end, with commas in between and perhaps one behind the last. -/
def readItems : (fuel depth : Nat) → List Char → Option (List Node × List Char)
  | 0, _, _ => none
  | fuel + 1, depth, cs =>
    match cs with
    | ']' :: rest => some ([], rest)
    | cs => do
      let (item, rest) ← readValue fuel depth cs
      match filler rest with
      | ',' :: rest =>
        let (items, rest) ← readItems fuel depth (filler rest)
        some (item :: items, rest)
      | ']' :: rest => some ([item], rest)
      | _ => none

/-- The assignments of an inline table up to its end, beside those that are made already. -/
def readPairs : (fuel depth : Nat) → Entries → List Char → Option (Node × List Char)
  | 0, _, _, _ => none
  | fuel + 1, depth, entries, cs => do
    let (parents, key, rest) ← readKey cs
    let rest ← char? '=' rest
    let (value, rest) ← readValue fuel depth (skipBlanks rest)
    let entries ← Entries.assign parents key value .inline entries
    match skipBlanks rest with
    | ',' :: rest => readPairs fuel depth entries rest
    | '}' :: rest => some (.table .inline entries, rest)
    | _ => none

end

/-! ### Lines -/

/-- A text as far as it was read: its tables, and the path of the last header. -/
structure Outline where
  entries : Entries := []
  header : List String := []

namespace Outline

/-- Enter an assignment under the last header, where its key must not be defined yet. -/
def assign (o : Outline) (parents : List String) (key : String) (value : Node) :
    Option Outline := do
  let entries ← Entries.update false (Entries.assign parents key value) o.header .explicit o.entries
  some { o with entries }

/-- Enter a header, under which the lines behind it are read. -/
def openTable (o : Outline) (parents : List String) (key : String) : Option Outline := do
  some ⟨← o.entries.openTable parents key, parents ++ [key]⟩

/-- Enter a header in double brackets, which opens one more table of an array. -/
def openTables (o : Outline) (parents : List String) (key : String) : Option Outline := do
  some ⟨← o.entries.openTables parents key, parents ++ [key]⟩

end Outline

/-- One line that is not blank, and the lines after it. -/
def readLineInto (o : Outline) (cs : List Char) : Option (Outline × List Char) :=
  match cs with
  | '#' :: _ => do
    let rest ← lineEnd? cs
    some (o, rest)
  | '[' :: '[' :: rest => do
    let (parents, key, rest) ← readKey rest
    let rest ← lineEnd? (← char? ']' (← char? ']' rest))
    let o ← o.openTables parents key
    some (o, rest)
  | '[' :: rest => do
    let (parents, key, rest) ← readKey rest
    let rest ← lineEnd? (← char? ']' rest)
    let o ← o.openTable parents key
    some (o, rest)
  | cs => do
    let (parents, key, rest) ← readKey cs
    let rest ← char? '=' rest
    let (value, rest) ← readValue (2 * cs.length + 2) 0 (skipBlanks rest)
    let rest ← lineEnd? rest
    let o ← o.assign parents key value
    some (o, rest)

/-- All lines.  The first argument bounds the recursion; the length of the text is always
enough. -/
def readAll : Nat → Outline → List Char → Option Outline
  | 0, _, _ => none
  | fuel + 1, o, cs =>
    match skipBlanks cs with
    | [] => some o
    | cs =>
      match newline? cs with
      | some rest => readAll fuel o rest
      | none => do
        let (o, rest) ← readLineInto o cs
        readAll fuel o rest

/-- **The tables of a TOML text**; a byte order mark may stand before it. -/
def parse (text : String) : Option Entries :=
  let cs := match text.toList with
    | '\uFEFF' :: cs => cs
    | cs => cs
  (readAll (cs.length + 1) {} cs).map (·.entries)

end Toml
end PairAnnotation
