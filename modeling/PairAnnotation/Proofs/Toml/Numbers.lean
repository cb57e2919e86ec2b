/-
# Numbers that are written are read back

A natural number is written as its digits.  Many things may start with digits: a day or a time goes
on with a minus sign or a colon after some of them, a number with a fraction or an exponent goes on
after all of them, and a number to another base after a zero.  Where a line break follows the
digits, it is none of these (`readDateTime_digits`, `readFloat_digits`), and the number is read
back from its digits (`isTextOf_toDigits`).
-/

import Mathlib.Algebra.Group.Nat.Defs
import PairAnnotation.Proofs.Toml.Values

namespace PairAnnotation
namespace Toml

open Json (IsDigits IsWhole)

variable {c : Char} {digits rest : List Char}

/-! ### Digits before a line break -/

/-- Digits are a first one and further ones, since a number is never empty. -/
theorem exists_cons_of_isDigits (h : IsDigits digits) :
    ∃ d tail, digits = d :: tail ∧ d.isDigit = true ∧ ∀ e ∈ tail, e.isDigit = true := by
  obtain ⟨d, tail, rfl⟩ := List.exists_cons_of_ne_nil h.1
  exact ⟨d, tail, rfl, List.forall_mem_cons.1 h.2⟩

/-- What follows some of the digits is no sign of anything but a number. -/
theorem char?_digits (h : ∀ d ∈ digits, d.isDigit = true) (hdigit : c.isDigit = false)
    (hfeed : c ≠ '\n') : char? c (digits ++ '\n' :: rest) = none := by
  cases digits with
  | nil => exact if_neg hfeed.symm
  | cons d digits => exact if_neg (ne_of_class (h d List.mem_cons_self) hdigit)

/-- A field takes away some of the digits and leaves the others, so that a date of digits alone
breaks off where it needs a sign. -/
theorem exists_of_readField {width least greatest n : Nat} {after : List Char}
    (h : ∀ d ∈ digits, d.isDigit = true)
    (hfield : readField width least greatest (digits ++ '\n' :: rest) = some (n, after)) :
    ∃ back, (∀ d ∈ back, d.isDigit = true) ∧ after = back ++ '\n' :: rest := by
  unfold readField at hfield
  dsimp only at hfield
  split_ifs at hfield with hall
  obtain ⟨-, hdigits, -⟩ := hall
  have hwidth : width ≤ digits.length := by
    by_contra hlong
    have hmem : '\n' ∈ (digits ++ '\n' :: rest).take width := by
      rw [List.take_append, List.take_of_length_le (by omega)]
      obtain ⟨k, hk⟩ := Nat.exists_eq_add_of_lt (Nat.lt_of_not_le hlong)
      rw [show width - digits.length = k + 1 by omega]
      simp
    exact absurd (List.all_eq_true.1 hdigits _ hmem) (by decide)
  refine ⟨digits.drop width, fun d hd => h d (List.mem_of_mem_drop hd), ?_⟩
  have hafter := (Prod.mk.inj (Option.some.inj hfield)).2
  rw [← hafter, List.drop_append_of_le_length hwidth]

/-- Nothing starts with digits that goes on with a sign after some of them. -/
theorem bind_readField_digits {α : Type} {f : Nat × List Char → Option α}
    (h : ∀ d ∈ digits, d.isDigit = true) (hdigit : c.isDigit = false) (hfeed : c ≠ '\n')
    (hf : ∀ n after, char? c after = none → f (n, after) = none) (width least greatest : Nat) :
    (readField width least greatest (digits ++ '\n' :: rest)).bind f = none := by
  cases hfield : readField width least greatest (digits ++ '\n' :: rest) with
  | none => rfl
  | some field =>
    obtain ⟨back, hback, hafter⟩ := exists_of_readField h hfield
    exact hf field.1 field.2 (hafter ▸ char?_digits hback hdigit hfeed)

/-- Digits up to the end of a line are no date, since a date has dashes. -/
theorem date?_digits (h : ∀ d ∈ digits, d.isDigit = true) :
    date? (digits ++ '\n' :: rest) = none := by
  refine bind_readField_digits (c := '-') h rfl (by decide) (fun n after hnone => ?_) 4 0 9999
  dsimp only
  rw [hnone]
  rfl

/-- Digits up to the end of a line are no time, since a time has colons. -/
theorem time?_digits (h : ∀ d ∈ digits, d.isDigit = true) :
    time? (digits ++ '\n' :: rest) = none := by
  refine bind_readField_digits (c := ':') h rfl (by decide) (fun n after hnone => ?_) 2 0 23
  dsimp only
  rw [hnone]
  rfl

/-- Digits up to the end of a line are neither a date nor a time, so they are left to be read as a
number. -/
theorem readDateTime_digits (h : ∀ d ∈ digits, d.isDigit = true) :
    readDateTime (digits ++ '\n' :: rest) = none := by
  rw [readDateTime, date?_digits h, time?_digits h]
  rfl

/-! ### Numbers -/

/-- All digits up to the end of a line are read, as no underscore stands between them. -/
theorem readDigits_digits (h : ∀ d ∈ digits, d.isDigit = true) :
    readDigits Char.isDigit (digits ++ '\n' :: rest) = some (digits, '\n' :: rest) := by
  induction digits with
  | nil => rfl
  | cons d digits ih =>
    obtain ⟨hd, hdigits⟩ := List.forall_mem_cons.1 h
    rw [List.cons_append, readDigits, if_pos hd, ih hdigits]
    · rfl
    · rintro _ _ rfl
      exact absurd hd (by decide)

/-- A whole part up to the end of a line is read as it stands. -/
theorem readWhole_digits (h : IsWhole digits) :
    readWhole (digits ++ '\n' :: rest) = some (digits, '\n' :: rest) := by
  obtain ⟨d, tail, rfl, hd, htail⟩ := exists_cons_of_isDigits h.digits
  by_cases hzero : d = '0'
  · obtain rfl : tail = [] := by simpa [hzero] using h.eq_zero (congrArg some hzero)
    rw [hzero]
    rfl
  · rw [List.cons_append, readWhole, readNumeral, if_pos hd,
      readDigits_digits htail, Option.map_some]
    rintro _ heq
    exact hzero (List.cons.inj heq).1

/-- Digits have no sign in front of them, so none is read. -/
theorem readSign_digits (h : IsDigits digits) (rest : List Char) :
    readSign (digits ++ rest) = (false, digits ++ rest) := by
  obtain ⟨d, tail, rfl, hd, -⟩ := exists_cons_of_isDigits h
  rw [List.cons_append, readSign]
  · rintro _ heq
    exact ne_of_class hd (d := '+') rfl (List.cons.inj heq).1
  · rintro _ heq
    exact ne_of_class hd (d := '-') rfl (List.cons.inj heq).1

/-- Digits do not start a word that begins with another character, such as `inf` or `nan`. -/
theorem word?_digits (h : IsDigits digits) {letters : List Char} (hc : c.isDigit = false) :
    word? (c :: letters) (digits ++ rest) = none := by
  obtain ⟨d, tail, rfl, hd, -⟩ := exists_cons_of_isDigits h
  refine if_neg fun heq => ?_
  rw [List.cons_append, List.length_cons, List.take_succ_cons] at heq
  exact ne_of_class hd hc (List.cons.inj heq).1

/-- Digits alone have neither fraction nor exponent, so they are not read as a float. -/
theorem readFloat_digits (h : IsWhole digits) : readFloat (digits ++ '\n' :: rest) = none := by
  rw [readFloat, readSign_digits h.digits]
  dsimp only
  rw [word?_digits h.digits rfl, word?_digits h.digits rfl, Option.or_none]
  dsimp only
  rw [readWhole_digits h]
  rfl

/-- Another digit at the end makes the value so many times greater as the base says, and adds its
own. -/
theorem digitsValue_append (base : Nat) (front : List Char) (d : Char) :
    digitsValue base (front ++ [d]) =
      digitsValue base front * base + (Json.hexValue? d).getD 0 := by
  rw [digitsValue, List.foldl_append]
  rfl

/-- The digits that numbers are printed with are read with their values. -/
theorem hexValue?_digitChar : ∀ n < 10, Json.hexValue? (Nat.digitChar n) = some n := by decide

/-- The digits of a number form the number, by induction on the number without its last digit. -/
theorem digitsValue_toDigits (n : Nat) : digitsValue 10 (Nat.toDigits 10 n) = n := by
  induction n using Nat.strongRecOn with
  | ind n ih =>
    by_cases hlt : n < 10
    · rw [Nat.toDigits_of_lt_base hlt, digitsValue, List.foldl_cons, List.foldl_nil,
        hexValue?_digitChar n hlt]
      simp
    · rw [Nat.toDigits_of_base_le (by omega) (by omega), digitsValue_append, ih _ (by omega),
        hexValue?_digitChar (n % 10) (by omega), Option.getD_some]
      omega

/-- **A whole number is read as an integer**, as long as its value is in range. -/
theorem readInteger_digits (h : IsWhole digits) {n : Nat} (hn : digitsValue 10 digits = n)
    (hword : isWord n = true) :
    readInteger (digits ++ '\n' :: rest) = some ((n : Int), '\n' :: rest) := by
  -- A zero before another digit or letter is not there.
  have hbase : ∀ c tail, c ≠ '\n' → digits ++ '\n' :: rest ≠ '0' :: c :: tail := by
    intro c tail hc heq
    obtain ⟨d, front, rfl⟩ := List.exists_cons_of_ne_nil h.digits.1
    have hd : d = '0' := (List.cons.inj heq).1
    obtain rfl : front = [] := by simpa [hd] using h.eq_zero (congrArg some hd)
    exact hc (List.cons.inj (List.cons.inj heq).2).1.symm
  rw [readInteger]
  · rw [readSign_digits h.digits]
    dsimp only
    rw [readWhole_digits h]
    rw [Option.bind_eq_bind, Option.bind_some]
    dsimp only
    rw [hn, if_neg Bool.false_ne_true, if_pos hword]
  · exact fun tail => hbase 'x' tail (by decide)
  · exact fun tail => hbase 'o' tail (by decide)
  · exact fun tail => hbase 'b' tail (by decide)

/-- A value that begins with digits and goes on to the end of the line is the integer that they
spell. -/
theorem readPlain_digits (h : IsWhole digits) {n : Nat} (hn : digitsValue 10 digits = n)
    (hword : isWord n = true) :
    readPlain (digits ++ '\n' :: rest) = some (.integer n, '\n' :: rest) := by
  rw [readPlain, word?_digits h.digits rfl, word?_digits h.digits rfl]
  dsimp only
  rw [readDateTime_digits h.digits.2]
  dsimp only
  rw [readFloat_digits h]
  dsimp only
  rw [readInteger_digits h hn hword, Option.map_some]

/-- What starts with a digit is no string, array or table. -/
theorem readValue_of_isDigit (hc : c.isDigit = true) (fuel depth : Nat) (cs : List Char) :
    readValue (fuel + 1) depth (c :: cs) = readPlain (c :: cs) := by
  rw [readValue]
  all_goals
    rintro _ heq
    exact ne_of_class hc rfl (List.cons.inj heq).1

/-- **A natural number of 63 bits is read back from its digits.** -/
theorem isTextOf_toDigits {n : Nat} (h : n < 2 ^ 63) :
    IsTextOf (Nat.toDigits 10 n) (.integer n) where
  starts rest := by
    obtain ⟨d, tail, hdigits, hd, -⟩ := exists_cons_of_isDigits (Json.isDigits_toDigits n)
    rw [hdigits]
    rintro _ ⟨⟩
    simp [isBlank, ne_of_class hd]
  reads rest fuel hfuel := by
    obtain ⟨fuel, rfl⟩ := Nat.exists_eq_succ_of_ne_zero (Nat.ne_zero_of_lt hfuel)
    have hword : isWord n = true := by
      simp only [isWord, Bool.and_eq_true, decide_eq_true_eq]
      have : Int.pow 2 63 = 2 ^ 63 := rfl
      omega
    have hread : readPlain (Nat.toDigits 10 n ++ '\n' :: rest) = some (.integer n, '\n' :: rest) :=
      readPlain_digits (Json.isWhole_toDigits n) (digitsValue_toDigits n) hword
    obtain ⟨d, tail, hdigits, hd, -⟩ := exists_cons_of_isDigits (Json.isDigits_toDigits n)
    rw [hdigits, List.cons_append] at hread ⊢
    rw [readValue_of_isDigit hd, hread]

end Toml
end PairAnnotation
