/-
# Points in time

A point in time is kept in UTC to the nanosecond, and a leap second is a sixtieth
second of any minute.  It is read from RFC 3339 text, taken loosely: blanks may
stand before a number and before a separator, a year may have fewer than four digits
or, with a sign, any number of them, and an offset turns the local time into UTC.
It is written with `Z` and with as many fraction digits as are needed out of 0, 3, 6
and 9.
-/

import PairAnnotation.Text.Blank

namespace PairAnnotation

/-- A day of the Gregorian calendar, which is extended to all years. -/
structure Date where
  year : Int
  month : Nat
  day : Nat
  deriving DecidableEq, Repr, Inhabited

namespace Date

/-- Whether a year has 366 days: every fourth has, but of the hundredth years only every fourth. -/
def isLeapYear (year : Int) : Bool := year % 4 == 0 && (year % 100 != 0 || year % 400 == 0)

/-- How many days a month has, which for the second one depends on the year. -/
def daysInMonth (year : Int) (month : Nat) : Nat :=
  if month = 2 then if isLeapYear year then 29 else 28
  else if [4, 6, 9, 11].contains month then 30
  else 31

/-- The years that a date may lie in, which are as many as the calendar of the program reaches. -/
def isYear (year : Int) : Bool := -262143 ≤ year && year ≤ 262142

/-- The date of three numbers, if there is such a day in such a month of such a year. -/
def ofNumbers? (year : Int) (month day : Nat) : Option Date :=
  if isYear year && (1 ≤ month && month ≤ 12) && (1 ≤ day && day ≤ daysInMonth year month) then
    some ⟨year, month, day⟩
  else none

/-- The day after, if it is still in range. -/
def next? (d : Date) : Option Date :=
  if d.day < daysInMonth d.year d.month then some { d with day := d.day + 1 }
  else if d.month < 12 then some ⟨d.year, d.month + 1, 1⟩
  else ofNumbers? (d.year + 1) 1 1

/-- The day before, if it is still in range. -/
def previous? (d : Date) : Option Date :=
  if 1 < d.day then some { d with day := d.day - 1 }
  else if 1 < d.month then some ⟨d.year, d.month - 1, daysInMonth d.year (d.month - 1)⟩
  else ofNumbers? (d.year - 1) 12 31

end Date

/-- A point in time, in UTC, told by date, minute, second and nanosecond. -/
structure Timestamp where
  date : Date
  minuteOfDay : Nat
  second : Nat
  nanosecond : Nat
  deriving DecidableEq, Repr, Inhabited

namespace Timestamp

/-- How many minutes a day has. -/
def minutesPerDay : Nat := 1440

/-- A local time that is `offset` minutes ahead of UTC. -/
def ofLocal? (t : Timestamp) (offset : Int) : Option Timestamp :=
  let minute := (t.minuteOfDay : Int) - offset
  if minute < 0 then
    t.date.previous?.map fun date =>
      { t with date, minuteOfDay := (minute + minutesPerDay).toNat }
  else if minutesPerDay ≤ minute then
    t.date.next?.map fun date => { t with date, minuteOfDay := (minute - minutesPerDay).toNat }
  else some { t with minuteOfDay := minute.toNat }

/-! ### Reading -/

/-- The number that decimal digits form, from the left. -/
def digitsValue (digits : List Char) : Nat :=
  digits.foldl (fun n c => n * 10 + (c.toNat - 48)) 0

/-- A number of one to `width` digits, and what follows. -/
def readNumber (width : Nat) (cs : List Char) : Option (Nat × List Char) :=
  let digits := (cs.take width).takeWhile Char.isDigit
  if digits.isEmpty then none else some (digitsValue digits, cs.drop digits.length)

/-- A year: with a sign it may have any number of digits. -/
def readYear (cs : List Char) : Option (Int × List Char) :=
  match Text.trimStart cs with
  | '-' :: rest => (readNumber rest.length rest).map fun (n, rest) => (-n, rest)
  | '+' :: rest => (readNumber rest.length rest).map fun (n, rest) => (n, rest)
  | cs => (readNumber 4 cs).map fun (n, rest) => (n, rest)

/-- A number of one or two digits after blanks. -/
def readField (cs : List Char) : Option (Nat × List Char) := readNumber 2 (Text.trimStart cs)

/-- What follows a separator, which blanks may stand before. -/
def readSeparator (separator : Char) (cs : List Char) : Option (List Char) :=
  match Text.trimStart cs with
  | c :: rest => if c = separator then some rest else none
  | [] => none

/-- The fraction of a second in nanoseconds; digits after the ninth do not count. -/
def readFraction : List Char → Option (Nat × List Char)
  | '.' :: cs => do
    let digits := cs.takeWhile Char.isDigit
    if digits.isEmpty then none
    else
      let kept := digits.take 9
      some (digitsValue kept * Nat.pow 10 (9 - kept.length), cs.drop digits.length)
  | cs => some (0, cs)

/-- Two digits, the first of them at most `first`, and what follows them. -/
def readTwoDigits (first : Char) : List Char → Option (Nat × List Char)
  | a :: b :: rest =>
    if a.isDigit && a ≤ first && b.isDigit then some (digitsValue [a, b], rest) else none
  | _ => none

/-- An offset in minutes: hours and minutes, with colons or blanks between them. -/
def readOffset : List Char → Option (Int × List Char)
  | [] => none
  | sign :: cs =>
    if sign = 'Z' ∨ sign = 'z' then some (0, cs)
    else if ['+', '-', '\u2212'].contains sign then do
      let (hours, cs) ← readTwoDigits '9' cs
      let (minutes, cs) ← readTwoDigits '5' (cs.dropWhile fun c => c == ':' || Text.isBlank c)
      let offset : Nat := hours * 60 + minutes
      if minutesPerDay ≤ offset then none
      else some (if sign = '+' then (offset : Int) else -offset, cs)
    else none

/-- The zone: an offset in hours and minutes, or the letters of UTC in any case. -/
def readZone (cs : List Char) : Option (Int × List Char) :=
  let letters := (cs.take 3).map Char.toUpper
  if letters = ['U', 'T', 'C'] then some (0, cs.drop 3) else readOffset cs

/-- **A point in time from its text**: date, time and zone, with blanks where the parser allows
them, and nothing behind. -/
def ofText? (text : String) : Option Timestamp := do
  let (year, cs) ← readYear text.toList
  let (month, cs) ← readField (← readSeparator '-' cs)
  let (day, cs) ← readField (← readSeparator '-' cs)
  let cs ← match cs with
    | c :: rest => if ['t', 'T', ' '].contains c then some rest else none
    | [] => none
  let (hour, cs) ← readField cs
  let (minute, cs) ← readField (← readSeparator ':' cs)
  let (second, cs) ← readField (← readSeparator ':' cs)
  let (nanosecond, cs) ← readFraction cs
  let (offset, cs) ← readZone (Text.trimStart cs)
  if Text.trimStart cs ≠ [] ∨ 23 < hour ∨ 59 < minute ∨ 60 < second then none
  else
    let date ← Date.ofNumbers? year month day
    ofLocal? ⟨date, hour * 60 + minute, second, nanosecond⟩ offset

/-! ### Writing -/

/-- A number with leading zeros up to a width. -/
def padded (width n : Nat) : String :=
  let digits := toString n
  String.ofList (List.replicate (width - digits.length) '0') ++ digits

/-- A year: four digits, or a sign and at least four digits. -/
def yearText (year : Int) : String :=
  if 0 ≤ year ∧ year ≤ 9999 then padded 4 year.toNat
  else (if year < 0 then "-" else "+") ++ padded 4 year.natAbs

/-- The fraction of a second, in the fewest of 0, 3, 6 and 9 digits. -/
def fractionText (nanosecond : Nat) : String :=
  if nanosecond = 0 then ""
  else if nanosecond % 1000000 = 0 then "." ++ padded 3 (nanosecond / 1000000)
  else if nanosecond % 1000 = 0 then "." ++ padded 6 (nanosecond / 1000)
  else "." ++ padded 9 nanosecond

/-- **The text of a point in time**, always in UTC and with no more digits for the fraction than it
needs. -/
def text (t : Timestamp) : String :=
  yearText t.date.year ++ "-" ++ padded 2 t.date.month ++ "-" ++ padded 2 t.date.day
    ++ "T" ++ padded 2 (t.minuteOfDay / 60) ++ ":" ++ padded 2 (t.minuteOfDay % 60)
    ++ ":" ++ padded 2 t.second ++ fractionText t.nanosecond ++ "Z"

end Timestamp

end PairAnnotation
