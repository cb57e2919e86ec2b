/-
# TOML strings, numbers and points in time

The readers here take the characters at the start of a value and give the value with
what follows it.  A control character stands nowhere but a tab, and the delete
character counts as one.  Strings over several lines end at a run of three quotes or
more, of which up to two belong to the string; every line break in them is a line
feed.
-/

import PairAnnotation.Json.Tree

namespace PairAnnotation
namespace Toml

/-- A blank inside a line, which a line break is not. -/
def isBlank (c : Char) : Bool := c == ' ' || c == '\t'

/-- A text without the blanks that it begins with; a line break is no blank here. -/
def skipBlanks (cs : List Char) : List Char := cs.dropWhile isBlank

/-- What follows a line break, which is a line feed with or without a carriage return. -/
def newline? : List Char → Option (List Char)
  | '\n' :: rest => some rest
  | '\r' :: '\n' :: rest => some rest
  | _ => none

/-- Whether a character may stand in a text as it is, line breaks apart. -/
def isPlain (c : Char) : Bool := c == '\t' || (0x20 ≤ c.toNat && c.toNat != 0x7F)

/-! ### Strings -/

/-- The character of a number of hexadecimal digits, if the number is one of a character. -/
def scalar? (digits : List Char) : Option Char := do
  let values ← digits.mapM Json.hexValue?
  let n := values.foldl (fun n d => n * 16 + d) 0
  if h : n.isValidChar then some (Char.ofNatAux n h) else none

/-- The character of an escape after its backslash, and what follows. -/
def readEscape : List Char → Option (Char × List Char)
  | 'b' :: rest => some ('\x08', rest)
  | 't' :: rest => some ('\t', rest)
  | 'n' :: rest => some ('\n', rest)
  | 'f' :: rest => some ('\x0c', rest)
  | 'r' :: rest => some ('\r', rest)
  | '"' :: rest => some ('"', rest)
  | '\\' :: rest => some ('\\', rest)
  | 'u' :: a :: b :: c :: d :: rest => (scalar? [a, b, c, d]).map (·, rest)
  | 'U' :: a :: b :: c :: d :: e :: f :: g :: h :: rest =>
    (scalar? [a, b, c, d, e, f, g, h]).map (·, rest)
  | _ => none

/-- Characters up to a closing quote on the same line.  The first argument bounds the recursion;
the length of the text is always enough. -/
def readLine (quote : Char) (escapes : Bool) : Nat → List Char → Option (List Char × List Char)
  | 0, _ => none
  | fuel + 1, cs =>
    match cs with
    | [] => none
    | c :: rest =>
      if c = quote then some ([], rest)
      else if escapes && c == '\\' then do
        let (c, rest) ← readEscape rest
        let (cs, rest) ← readLine quote escapes fuel rest
        some (c :: cs, rest)
      else if isPlain c then do
        let (cs, rest) ← readLine quote escapes fuel rest
        some (c :: cs, rest)
      else none

/-- Blanks and line breaks, skipped up to the first other character. -/
def skipLines : List Char → List Char
  | [] => []
  | c :: rest =>
    if c = ' ' ∨ c = '\t' ∨ c = '\n' then skipLines rest
    else if c = '\r' ∧ rest.head? = some '\n' then skipLines rest
    else c :: rest

/-- What follows a backslash that stands at the end of a line: blanks and line breaks are left
out, up to the next other character. -/
def continuation? (cs : List Char) : Option (List Char) :=
  (newline? (skipBlanks cs)).map skipLines

/-- Characters up to a run of at least three quotes.  The first argument bounds the recursion; the
length of the text is always enough. -/
def readLines (quote : Char) (escapes : Bool) : Nat → List Char → Option (List Char × List Char)
  | 0, _ => none
  | fuel + 1, cs =>
    match cs with
    | [] => none
    | c :: rest =>
      if c = quote then
        let run := cs.takeWhile (· == quote)
        let after := cs.dropWhile (· == quote)
        if 3 ≤ run.length then
          let kept := min (run.length - 3) 2
          some (List.replicate kept quote, List.replicate (run.length - 3 - kept) quote ++ after)
        else do
          let (cs, rest) ← readLines quote escapes fuel after
          some (run ++ cs, rest)
      else if escapes && c == '\\' then
        match continuation? rest with
        | some rest => readLines quote escapes fuel rest
        | none => do
          let (c, rest) ← readEscape rest
          let (cs, rest) ← readLines quote escapes fuel rest
          some (c :: cs, rest)
      else
        match newline? cs with
        | some rest => do
          let (cs, rest) ← readLines quote escapes fuel rest
          some ('\n' :: cs, rest)
        | none =>
          if isPlain c then do
            let (cs, rest) ← readLines quote escapes fuel rest
            some (c :: cs, rest)
          else none

/-- A string after its first quote. -/
def readQuoted (quote : Char) (escapes : Bool) (cs : List Char) :
    Option (String × List Char) :=
  (readLine quote escapes (cs.length + 1) cs).map fun (s, rest) => (String.ofList s, rest)

/-- A string over several lines after its three quotes; a line break right there is left out. -/
def readQuotedLines (quote : Char) (escapes : Bool) (cs : List Char) :
    Option (String × List Char) :=
  let cs := (newline? cs).getD cs
  (readLines quote escapes (cs.length + 1) cs).map fun (s, rest) => (String.ofList s, rest)

/-- **A string** of any of the four forms, and what follows it. -/
def readString : List Char → Option (String × List Char)
  | '"' :: '"' :: '"' :: rest => readQuotedLines '"' true rest
  | '"' :: rest => readQuoted '"' true rest
  | '\'' :: '\'' :: '\'' :: rest => readQuotedLines '\'' false rest
  | '\'' :: rest => readQuoted '\'' false rest
  | _ => none

/-! ### Numbers -/

/-- Digits after a first one, single underscores between them left out. -/
def readDigits (isDigit : Char → Bool) : List Char → Option (List Char × List Char)
  | '_' :: c :: rest =>
    if isDigit c then (readDigits isDigit rest).map fun (ds, rest) => (c :: ds, rest) else none
  | c :: rest =>
    if isDigit c then (readDigits isDigit rest).map fun (ds, rest) => (c :: ds, rest)
    else some ([], c :: rest)
  | [] => some ([], [])

/-- At least one digit, single underscores between them left out. -/
def readNumeral (isDigit : Char → Bool) : List Char → Option (List Char × List Char)
  | c :: rest =>
    if isDigit c then (readDigits isDigit rest).map fun (ds, rest) => (c :: ds, rest) else none
  | [] => none

/-- The number that digits form to a base. -/
def digitsValue (base : Nat) (digits : List Char) : Nat :=
  digits.foldl (fun n c => n * base + (Json.hexValue? c).getD 0) 0

/-- A sign, true for minus, and what follows it; without one the number is not negative. -/
def readSign : List Char → Bool × List Char
  | '+' :: rest => (false, rest)
  | '-' :: rest => (true, rest)
  | cs => (false, cs)

/-- Decimal digits of which a leading zero stands alone, and what follows them. -/
def readWhole : List Char → Option (List Char × List Char)
  | '0' :: rest => some (['0'], rest)
  | cs => readNumeral Char.isDigit cs

/-- The integers of 64 bits, the negative ones included. -/
def isWord (n : Int) : Bool := -Int.pow 2 63 ≤ n && n < Int.pow 2 63

/-- An integer whose digits have a base other than ten. -/
def readBased (base : Nat) (isDigit : Char → Bool) (cs : List Char) :
    Option (Int × List Char) := do
  let (digits, rest) ← readNumeral isDigit cs
  let n : Int := digitsValue base digits
  if isWord n then some (n, rest) else none

/-- **An integer** of 64 bits, decimal or with the prefix of another base, and what follows it. -/
def readInteger (cs : List Char) : Option (Int × List Char) :=
  match cs with
  | '0' :: 'x' :: rest => readBased 16 (fun c => (Json.hexValue? c).isSome) rest
  | '0' :: 'o' :: rest => readBased 8 (fun c => '0' ≤ c && c ≤ '7') rest
  | '0' :: 'b' :: rest => readBased 2 (fun c => c == '0' || c == '1') rest
  | cs => do
    let (isNegative, cs) := readSign cs
    let (digits, rest) ← readWhole cs
    let n : Int := digitsValue 10 digits
    let n := if isNegative then -n else n
    if isWord n then some (n, rest) else none

/-- The digits after a point, if there is a point. -/
def readFraction : List Char → Option (Option (List Char) × List Char)
  | '.' :: rest => (readNumeral Char.isDigit rest).map fun (ds, rest) => (some ds, rest)
  | cs => some (none, cs)

/-- The exponent, if there is one, and what follows it. -/
def readExponent : List Char → Option (Option Int × List Char)
  | [] => some (none, [])
  | c :: rest =>
    if c = 'e' ∨ c = 'E' then do
      let (isNegative, rest) := readSign rest
      let (digits, rest) ← readNumeral Char.isDigit rest
      let n : Int := digitsValue 10 digits
      some (some (if isNegative then -n else n), rest)
    else some (none, c :: rest)

/-- Whether `digits · 10^exponent` is at least half a unit beyond the greatest binary64 number. -/
def isBeyondFinite (digits : List Char) (exponent : Int) : Bool :=
  let significant := digits.dropWhile (· == '0')
  let places := (significant.length : Int) + exponent
  if significant = [] ∨ places ≤ 308 then false
  else if 310 ≤ places then true
  else
    let n := digitsValue 10 significant
    let limit := Nat.pow 2 1024 - Nat.pow 2 970
    if 0 ≤ exponent then limit ≤ n * Nat.pow 10 exponent.toNat
    else limit * Nat.pow 10 exponent.natAbs ≤ n

/-- What follows a word. -/
def word? (word cs : List Char) : Option (List Char) :=
  if cs.take word.length = word then some (cs.drop word.length) else none

/-- The characters of a text before its rest. -/
def before (cs rest : List Char) : List Char := cs.take (cs.length - rest.length)

/-- **A number with fraction or exponent**, or one of the names of infinity and of no number.
A positive number that is too large is refused. -/
def readFloat (cs : List Char) : Option (List Char × List Char) :=
  let (isNegative, unsigned) := readSign cs
  match (word? ['i', 'n', 'f'] unsigned).or (word? ['n', 'a', 'n'] unsigned) with
  | some rest => some (before cs rest, rest)
  | none => do
    let (whole, rest) ← readWhole unsigned
    let (fraction, rest) ← readFraction rest
    let (exponent, rest) ← readExponent rest
    if fraction.isNone && exponent.isNone then none
    else
      let fraction := fraction.getD []
      let exponent := exponent.getD 0 - fraction.length
      if !isNegative && isBeyondFinite (whole ++ fraction) exponent then none
      else some (before cs rest, rest)

/-! ### Points in time -/

/-- A number of exactly `width` digits from `least` to `greatest`. -/
def readField (width least greatest : Nat) (cs : List Char) : Option (Nat × List Char) :=
  let digits := cs.take width
  let n := digitsValue 10 digits
  if digits.length = width ∧ digits.all Char.isDigit ∧ least ≤ n ∧ n ≤ greatest then
    some (n, cs.drop width)
  else none

/-- What follows a character. -/
def char? (c : Char) : List Char → Option (List Char)
  | d :: rest => if d = c then some rest else none
  | [] => none

/-- Whether a year has 366 days: every fourth has, but of the hundredth years only every fourth. -/
def isLeapYear (year : Nat) : Bool := year % 4 == 0 && (year % 100 != 0 || year % 400 == 0)

/-- How many days a month has, which for the second one depends on the year. -/
def daysInMonth (year month : Nat) : Nat :=
  if month = 2 then if isLeapYear year then 29 else 28
  else if [4, 6, 9, 11].contains month then 30
  else 31

/-- What follows a day, if the text begins with one that the calendar has. -/
def date? (cs : List Char) : Option (List Char) := do
  let (year, cs) ← readField 4 0 9999 cs
  let (month, cs) ← readField 2 1 12 (← char? '-' cs)
  let (day, cs) ← readField 2 1 31 (← char? '-' cs)
  if day ≤ daysInMonth year month then some cs else none

/-- What follows a time of day, if the text begins with one. -/
def time? (cs : List Char) : Option (List Char) := do
  let (_, cs) ← readField 2 0 23 cs
  let (_, cs) ← readField 2 0 59 (← char? ':' cs)
  let (_, cs) ← readField 2 0 60 (← char? ':' cs)
  match cs with
  | '.' :: c :: rest => if c.isDigit then some (rest.dropWhile Char.isDigit) else some cs
  | cs => some cs

/-- What follows an offset, if there is one. -/
def offset? (cs : List Char) : Option (List Char) :=
  match cs with
  | 'Z' :: rest | 'z' :: rest => some rest
  | '+' :: rest | '-' :: rest => do
    let (_, cs) ← readField 2 0 23 rest
    let (_, cs) ← readField 2 0 59 (← char? ':' cs)
    some cs
  | cs => some cs

/-- What follows a time of day after a day, if there is one. -/
def timeAfterDate? : List Char → Option (List Char)
  | [] => some []
  | c :: rest =>
    if c = 'T' ∨ c = 't' ∨ c = ' ' then
      match time? rest with
      | some rest => offset? rest
      | none => some (c :: rest)
    else some (c :: rest)

/-- **A point in time**: a day, a day and a time, or a time. -/
def readDateTime (cs : List Char) : Option (List Char × List Char) := do
  let rest ← ((date? cs).bind timeAfterDate?).or (time? cs)
  some (before cs rest, rest)

end Toml
end PairAnnotation
