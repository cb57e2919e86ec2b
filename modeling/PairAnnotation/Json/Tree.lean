/-
# Reading JSON text

A text is read in two steps.  The first one, here, accepts exactly the texts that
follow the grammar and gives their tree, with numerals as written and without any
limit on depth.  What is later ignored is held to no more than that.  The second
step (`Tree.value?`) turns the parts that are kept into values: a numeral has to be
in range, a string must not hold half a surrogate pair, and of two members with one
name the last one counts.

What `Printer` writes is read back by `Tree.parse` (`Tree.parse_prettyText` in
`PairAnnotation.Proofs.Json.Text`), and what is read of documents rests on that.
-/

import PairAnnotation.FeatureMap
import PairAnnotation.Json.Numeral

namespace PairAnnotation
namespace Json

/-- The tree of a JSON text.  A string or member name is `none` when an escape in it names
half a surrogate pair without the other half. -/
inductive Tree where
  | null
  | bool (b : Bool)
  | number (n : Numeral)
  | string (s : Option String)
  | array (items : List Tree)
  | object (members : List (Option String × Tree))
  deriving Repr, Inhabited

/-- The four blanks of JSON, which may stand between all parts of a text. -/
def isBlank (c : Char) : Bool := c == ' ' || c == '\n' || c == '\t' || c == '\r'

/-- A text without the blanks that it begins with. -/
def skipBlanks (cs : List Char) : List Char := cs.dropWhile isBlank

/-! ### Strings -/

/-- The value of a hexadecimal digit of either case. -/
def hexValue? (c : Char) : Option Nat :=
  if '0' ≤ c ∧ c ≤ '9' then some (c.toNat - 48)
  else if 'a' ≤ c ∧ c ≤ 'f' then some (c.toNat - 87)
  else if 'A' ≤ c ∧ c ≤ 'F' then some (c.toNat - 55)
  else none

/-- The code unit of four hexadecimal digits. -/
def codeUnit? (a b c d : Char) : Option Nat := do
  let a ← hexValue? a
  let b ← hexValue? b
  let c ← hexValue? c
  let d ← hexValue? d
  some (((a * 16 + b) * 16 + c) * 16 + d)

/-- A part of a string: a character, or half a surrogate pair. -/
inductive StringPart where
  | char (c : Char)
  | half (unit : Nat)
  deriving DecidableEq, Repr

/-- The part that an escaped code unit stands for. -/
def StringPart.ofUnit (unit : Nat) : StringPart :=
  if 0xD800 ≤ unit ∧ unit ≤ 0xDFFF then .half unit else .char (Char.ofNat unit)

/-- The character of an escape by a single letter, if the letter is one of the eight. -/
def escapedChar? : Char → Option Char
  | '"' => some '"'
  | '\\' => some '\\'
  | '/' => some '/'
  | 'b' => some '\x08'
  | 'f' => some '\x0c'
  | 'n' => some '\n'
  | 'r' => some '\r'
  | 't' => some '\t'
  | _ => none

/-- The parts of a string up to its closing quote, and what follows that. -/
def readParts : List Char → Option (List StringPart × List Char)
  | [] => none
  | '"' :: rest => some ([], rest)
  | '\\' :: 'u' :: a :: b :: c :: d :: rest => do
    let unit ← codeUnit? a b c d
    let (parts, rest) ← readParts rest
    some (.ofUnit unit :: parts, rest)
  | '\\' :: e :: rest => do
    let c ← escapedChar? e
    let (parts, rest) ← readParts rest
    some (.char c :: parts, rest)
  | c :: rest =>
    if c.val < 0x20 then none
    else do
      let (parts, rest) ← readParts rest
      some (.char c :: parts, rest)

/-- Join the halves of surrogate pairs; `none` when one is left over. -/
def joinParts : List StringPart → Option (List Char)
  | [] => some []
  | .char c :: rest => (joinParts rest).map (c :: ·)
  | .half high :: .half low :: rest =>
    if high ≤ 0xDBFF ∧ 0xDC00 ≤ low then
      (joinParts rest).map (Char.ofNat (0x10000 + (high - 0xD800) * 0x400 + (low - 0xDC00)) :: ·)
    else none
  | .half _ :: _ => none

/-- A string after its opening quote, and what follows it. -/
def readString (cs : List Char) : Option (Option String × List Char) :=
  (readParts cs).map fun (parts, rest) => ((joinParts parts).map String.ofList, rest)

/-! ### Numerals -/

/-- The digits before the point: no zero leads another digit. -/
def readWhole (cs : List Char) : Option (List Char × List Char) :=
  match cs with
  | '0' :: rest =>
    match rest with
    | c :: _ => if c.isDigit then none else some (['0'], rest)
    | [] => some (['0'], [])
  | _ =>
    let digits := cs.takeWhile Char.isDigit
    if digits = [] then none else some (digits, cs.dropWhile Char.isDigit)

/-- The digits after the point, at least one; no point, no digits. -/
def readFraction : List Char → Option (List Char × List Char)
  | '.' :: rest =>
    let digits := rest.takeWhile Char.isDigit
    if digits = [] then none else some (digits, rest.dropWhile Char.isDigit)
  | cs => some ([], cs)

/-- The exponent, with its sign if it has one; a mark without digits behind it is an error. -/
def readExponent (cs : List Char) : Option (Option (Bool × List Char) × List Char) :=
  match cs with
  | [] => some (none, [])
  | c :: rest =>
    if c = 'e' ∨ c = 'E' then
      let (isNegative, rest) :=
        match rest with
        | '+' :: rest => (false, rest)
        | '-' :: rest => (true, rest)
        | rest => (false, rest)
      let digits := rest.takeWhile Char.isDigit
      if digits = [] then none
      else some (some (isNegative, digits), rest.dropWhile Char.isDigit)
    else some (none, c :: rest)

/-- A numeral and what follows it: the longest one that the text begins with. -/
def readNumeral (cs : List Char) : Option (Numeral × List Char) := do
  let (isNegative, cs) :=
    match cs with
    | '-' :: rest => (true, rest)
    | _ => (false, cs)
  let (whole, cs) ← readWhole cs
  let (fraction, cs) ← readFraction cs
  let (exponent, cs) ← readExponent cs
  some (⟨isNegative, whole, fraction, exponent⟩, cs)

/-! ### Values -/

mutual

/-- A value and what follows it.  The first argument bounds the recursion; twice the length of
the text is always enough. -/
def readTree : Nat → List Char → Option (Tree × List Char)
  | 0, _ => none
  | fuel + 1, cs =>
    match skipBlanks cs with
    | '"' :: rest => (readString rest).map fun (s, rest) => (.string s, rest)
    | '[' :: rest =>
      match skipBlanks rest with
      | ']' :: rest => some (.array [], rest)
      | rest => (readItems fuel rest).map fun (items, rest) => (.array items, rest)
    | '{' :: rest =>
      match skipBlanks rest with
      | '}' :: rest => some (.object [], rest)
      | rest => (readMembers fuel rest).map fun (members, rest) => (.object members, rest)
    | 'n' :: 'u' :: 'l' :: 'l' :: rest => some (.null, rest)
    | 't' :: 'r' :: 'u' :: 'e' :: rest => some (.bool true, rest)
    | 'f' :: 'a' :: 'l' :: 's' :: 'e' :: rest => some (.bool false, rest)
    | cs => (readNumeral cs).map fun (n, rest) => (.number n, rest)

/-- The items of an array that is not empty, and what follows its end. -/
def readItems : Nat → List Char → Option (List Tree × List Char)
  | 0, _ => none
  | fuel + 1, cs => do
    let (item, rest) ← readTree fuel cs
    match skipBlanks rest with
    | ',' :: rest =>
      let (items, rest) ← readItems fuel rest
      some (item :: items, rest)
    | ']' :: rest => some ([item], rest)
    | _ => none

/-- The members of an object that is not empty, and what follows its end. -/
def readMembers : Nat → List Char → Option (List (Option String × Tree) × List Char)
  | 0, _ => none
  | fuel + 1, cs =>
    match skipBlanks cs with
    | '"' :: rest => do
      let (name, rest) ← readString rest
      match skipBlanks rest with
      | ':' :: rest =>
        let (value, rest) ← readTree fuel rest
        match skipBlanks rest with
        | ',' :: rest =>
          let (members, rest) ← readMembers fuel rest
          some ((name, value) :: members, rest)
        | '}' :: rest => some ([(name, value)], rest)
        | _ => none
      | _ => none
    | _ => none

end

/-- **The tree of a text** that is one JSON value, blanks around it allowed. -/
def Tree.parse (text : String) : Option Tree :=
  let cs := text.toList
  match readTree (2 * cs.length + 2) cs with
  | some (tree, rest) => if skipBlanks rest = [] then some tree else none
  | none => none

/-! ### What is kept -/

mutual

/-- How many containers are nested in a tree, so 0 for a tree that is none. -/
def Tree.depth : Tree → Nat
  | .array items => depthItems items + 1
  | .object members => depthMembers members + 1
  | _ => 0

/-- How deep the deepest of some trees is. -/
def depthItems : List Tree → Nat
  | [] => 0
  | t :: rest => max t.depth (depthItems rest)

/-- How deep the deepest tree among some members is. -/
def depthMembers : List (Option String × Tree) → Nat
  | [] => 0
  | (_, t) :: rest => max t.depth (depthMembers rest)

end

mutual

/-- The value that a tree is kept as, members in ascending order of their names. -/
def Tree.value? : Tree → Option Value
  | .null => some .null
  | .bool b => some (.bool b)
  | .number n => n.number?.map .number
  | .string s => s.map .string
  | .array items => (itemValues? items).map .array
  | .object members => (memberValues? members []).map .object

/-- The values of some trees, if all of them have one. -/
def itemValues? : List Tree → Option (List Value)
  | [] => some []
  | t :: rest => do
    let v ← t.value?
    let vs ← itemValues? rest
    some (v :: vs)

/-- Add members to those that are there already; of two with one name the last one counts. -/
def memberValues? :
    List (Option String × Tree) → List (String × Value) → Option (List (String × Value))
  | [], kept => some kept
  | (name, t) :: rest, kept => do
    let name ← name
    let v ← t.value?
    memberValues? rest (insertAscending name v kept)

end

namespace Tree

/-- How many containers may stand inside one another where they are kept. -/
def depthLimit : Nat := 127

/-- The string that a tree is, unless half a surrogate pair is missing in it. -/
def string? : Tree → Option String
  | .string s => s
  | _ => none

/-- The integer from 0 to `2^64 - 1` that a tree is. -/
def nat? : Tree → Option Nat
  | .number n =>
    match n.number? with
    | some (.natural n) => some n
    | _ => none
  | _ => none

/-- The items of an array, each read alike; one that cannot be read is an error. -/
def list? {α : Type} (read : Tree → Option α) : Tree → Option (List α)
  | .array items => items.mapM read
  | _ => none

/-- A value or null, where null says that there is no value. -/
def orNull? {α : Type} (read : Tree → Option α) : Tree → Option (Option α)
  | .null => some none
  | t => (read t).map some

/-- The features of an object, whatever their order; of two with one name the last one counts. -/
def features? {α : Type} (read : Tree → Option α) : Tree → Option (FeatureMap α)
  | .object members => do
    let entries ← members.mapM fun (name, t) => do
      let name ← name
      let v ← read t
      some (name, v)
    some (FeatureMap.ofList entries)
  | _ => none

/-- **The fields of a record**, each present or not.  A record is written as an object, where
each field may stand once and names that are no field's are ignored, or as an array of its
fields in order, from which the last ones may be missing. -/
def fields? (names : List String) : Tree → Option (List (Option Tree))
  | .array items =>
    if items.length ≤ names.length then
      some (items.map some ++ List.replicate (names.length - items.length) none)
    else none
  | .object members => do
    let named ← members.mapM fun (name, t) => name.map (·, t)
    names.mapM fun field =>
      match named.filter (·.1 == field) with
      | [] => some none
      | [(_, t)] => some (some t)
      | _ => none
  | _ => none

/-- A field that has to be there and has to be read; if it is missing, there is no record. -/
def required? {α : Type} (read : Tree → Option α) (field : Option Tree) : Option α :=
  field.bind read

/-- A field that may be missing and stands for `default` then. -/
def optional? {α : Type} (default : α) (read : Tree → Option α) : Option Tree → Option α
  | none => some default
  | some t => read t

end Tree

end Json
end PairAnnotation
