/-
# Numerals that are read back

A numeral is read back from its own text, as long as what follows does not go on with it
(`Numeral.readNumeral_text`).  The text of every number is that of a numeral
(`Number.text_written`), also where it is a binary64 number: its shortest decimal starts
with a digit that is not zero (`Binary64.leading_shortest`), since on each grid that is
tried the number stands at the first place at least, and in every layout these digits
stand around a point or in front of an exponent (`Decimal.proper_numeral`).
-/

import Mathlib.Data.List.DropRight
import PairAnnotation.Json.Printer
import PairAnnotation.Json.Tree
import PairAnnotation.Text.Blank

namespace PairAnnotation
namespace Json

variable {rest : List Char}

/-- What may follow a numeral: nothing that goes on with it. -/
def EndsNumeral (rest : List Char) : Prop :=
  ∀ c ∈ rest.head?, c.isDigit = false ∧ c ≠ '.' ∧ c ≠ 'e' ∧ c ≠ 'E'

/-- A character that goes on with no part of a numeral ends it: neither a digit, nor the point, nor
the mark of an exponent. -/
theorem endsNumeral_cons {c : Char} {cs : List Char}
    (h : c.isDigit = false ∧ c ≠ '.' ∧ c ≠ 'e' ∧ c ≠ 'E') : EndsNumeral (c :: cs) := by
  rintro _ ⟨⟩
  exact h

/-! ### Digits -/

/-- One digit or more, as the grammar asks of a fraction and of an exponent. -/
def IsDigits (cs : List Char) : Prop := cs ≠ [] ∧ ∀ c ∈ cs, c.isDigit = true

/-- What follows digits: no digit, so that the digits before it are all of them. -/
def EndsDigits (rest : List Char) : Prop := ∀ c ∈ rest.head?, c.isDigit = false

/-- Where a numeral ends, its digits end as well. -/
theorem EndsNumeral.endsDigits (h : EndsNumeral rest) : EndsDigits rest := fun c hc => (h c hc).1

/-- Digits end in front of a character that is none. -/
theorem endsDigits_cons {c : Char} {cs : List Char} (h : c.isDigit = false) :
    EndsDigits (c :: cs) := by
  rintro _ ⟨⟩
  exact h

/-- **Digits are taken off a text** up to what is no digit. -/
theorem span_isDigit {digits : List Char} (h : ∀ c ∈ digits, c.isDigit = true)
    (hrest : EndsDigits rest) :
    (digits ++ rest).takeWhile Char.isDigit = digits ∧
      (digits ++ rest).dropWhile Char.isDigit = rest :=
  Text.takeWhile_append_of_head? h hrest

/-- Digits as they stand before the point: no zero leads another digit. -/
structure IsWhole (cs : List Char) : Prop where
  digits : IsDigits cs
  eq_zero : cs.head? = some '0' → cs = ['0']

/-- A single zero is a whole part; it is the only one that begins with a zero. -/
theorem isWhole_zero : IsWhole ['0'] := ⟨⟨by decide, by simp⟩, fun _ => rfl⟩

/-- **A whole part is read as it stands**, if no digit follows: a zero alone, or all digits up to
the next character. -/
theorem readWhole_append {whole : List Char} (h : IsWhole whole) (hrest : EndsDigits rest) :
    readWhole (whole ++ rest) = some (whole, rest) := by
  by_cases hzero : whole.head? = some '0'
  · rw [h.eq_zero hzero]
    cases rest with
    | nil => rfl
    | cons c cs =>
      rw [List.singleton_append, readWhole]
      simp [hrest c rfl]
  · obtain ⟨htake, hdrop⟩ := span_isDigit h.digits.2 hrest
    rw [readWhole]
    · rw [htake, hdrop, if_neg h.digits.1]
    · intro cs hcs
      obtain ⟨c, front, rfl⟩ := List.exists_cons_of_ne_nil h.digits.1
      rw [List.cons_append] at hcs
      exact hzero (congrArg some (List.cons.inj hcs).1)

/-- Without a point there is no fraction, and nothing is taken from the text. -/
theorem readFraction_of_ends (h : ∀ c ∈ rest.head?, c ≠ '.') :
    readFraction rest = some ([], rest) := by
  cases rest with
  | nil => rfl
  | cons c cs =>
    rw [readFraction]
    rintro _ hcs
    exact h c rfl (List.cons.inj hcs).1

/-- Behind a point all digits are read as the fraction, up to the first character that is none. -/
theorem readFraction_point {fraction : List Char} (h : IsDigits fraction)
    (hrest : EndsDigits rest) :
    readFraction ('.' :: (fraction ++ rest)) = some (fraction, rest) := by
  obtain ⟨htake, hdrop⟩ := span_isDigit h.2 hrest
  rw [readFraction, htake, hdrop]
  exact if_neg h.1

/-- Where a numeral ends there is no exponent, since neither of its two marks follows. -/
theorem readExponent_of_ends (h : EndsNumeral rest) : readExponent rest = some (none, rest) := by
  cases rest with
  | nil => rfl
  | cons c cs =>
    unfold readExponent
    dsimp only
    rw [if_neg]
    rintro (he | he)
    · exact (h c rfl).2.2.1 he
    · exact (h c rfl).2.2.2 he

/-- An exponent is read with the sign in front of its digits, be it minus or plus. -/
theorem readExponent_sign {digits : List Char} (h : IsDigits digits) (hrest : EndsDigits rest)
    (isNegative : Bool) :
    readExponent ('e' :: (if isNegative then '-' else '+') :: (digits ++ rest)) =
      some (some (isNegative, digits), rest) := by
  obtain ⟨htake, hdrop⟩ := span_isDigit h.2 hrest
  cases isNegative <;> simp [readExponent, htake, hdrop, h.1]

/-! ### Numerals -/

namespace Numeral

/-- A numeral as the grammar has it: a whole part, and digits in its fraction and in its exponent,
if there are such. -/
structure Proper (n : Numeral) : Prop where
  whole : IsWhole n.whole
  fraction : ∀ c ∈ n.fraction, c.isDigit = true
  exponent : ∀ e ∈ n.exponent, IsDigits e.2

/-- The point and the digits after it, if there are any. -/
def fractionText (n : Numeral) : List Char := if n.fraction = [] then [] else '.' :: n.fraction

/-- The exponent with its sign, if there is one, as it is written behind the fraction. -/
def exponentText (n : Numeral) : List Char :=
  match n.exponent with
  | none => []
  | some (isNegative, digits) => 'e' :: (if isNegative then '-' else '+') :: digits

/-- The text of a numeral, in the order of its parts: sign, whole part, fraction, exponent. -/
def text (n : Numeral) : List Char :=
  (if n.isNegative then ['-'] else []) ++ (n.whole ++ (n.fractionText ++ n.exponentText))

variable {n : Numeral}

/-- What is written behind a fraction ends its digits and begins with no point: an exponent begins
with its mark, and without one the numeral ends. -/
theorem endsDigits_exponentText (hrest : EndsNumeral rest) :
    EndsDigits (n.exponentText ++ rest) ∧ ∀ c ∈ (n.exponentText ++ rest).head?, c ≠ '.' := by
  unfold exponentText
  split
  · exact ⟨hrest.endsDigits, fun c hc => (hrest c hc).2.1⟩
  · exact ⟨endsDigits_cons rfl, by rintro _ ⟨⟩; decide⟩

/-- The exponent of a proper numeral is read as it is written, and so is that there is none. -/
theorem readExponent_exponentText (h : n.Proper) (hrest : EndsNumeral rest) :
    readExponent (n.exponentText ++ rest) = some (n.exponent, rest) := by
  unfold exponentText
  split
  · rename_i hnone
    rw [hnone]
    exact readExponent_of_ends hrest
  · rename_i isNegative digits hsome
    rw [hsome]
    exact readExponent_sign (h.exponent _ hsome) hrest.endsDigits isNegative

/-- The fraction of a proper numeral is read as it is written, with the exponent left for what comes
next. -/
theorem readFraction_fractionText (h : n.Proper) (hrest : EndsNumeral rest) :
    readFraction (n.fractionText ++ (n.exponentText ++ rest)) =
      some (n.fraction, n.exponentText ++ rest) := by
  obtain ⟨hdigits, hpoint⟩ := endsDigits_exponentText (n := n) hrest
  unfold fractionText
  split
  · rename_i hnone
    rw [hnone]
    exact readFraction_of_ends hpoint
  · rename_i hsome
    exact readFraction_point ⟨hsome, h.fraction⟩ hdigits

/-- What is written behind the whole part ends its digits, be it a fraction, an exponent or the end
of the numeral. -/
theorem endsDigits_fractionText (hrest : EndsNumeral rest) :
    EndsDigits (n.fractionText ++ (n.exponentText ++ rest)) := by
  unfold fractionText
  split
  · exact (endsDigits_exponentText hrest).1
  · exact endsDigits_cons rfl

/-- **A numeral is read back from its text**, part by part, if it is proper and what follows it is
no part of a numeral. -/
theorem readNumeral_text (h : n.Proper) (hrest : EndsNumeral rest) :
    readNumeral (n.text ++ rest) = some (n, rest) := by
  have hwhole := readWhole_append h.whole (endsDigits_fractionText (n := n) hrest)
  have hunsigned : n.text ++ rest = (if n.isNegative then ['-'] else []) ++
      (n.whole ++ (n.fractionText ++ (n.exponentText ++ rest))) := by
    simp only [text, List.append_assoc]
  have hminus : ∀ cs tail, n.whole ++ cs ≠ '-' :: tail := by
    intro cs tail heq
    obtain ⟨c, front, hcons⟩ := List.exists_cons_of_ne_nil h.whole.digits.1
    rw [hcons] at heq
    have hdigit := h.whole.digits.2 c (hcons ▸ List.mem_cons_self)
    rw [(List.cons.inj heq).1] at hdigit
    exact absurd hdigit (by decide)
  rw [hunsigned]
  obtain ⟨isNegative, whole, fraction, exponent⟩ := n
  cases isNegative with
  | true =>
    simp only [readNumeral, if_pos, List.singleton_append, hwhole, Option.bind_eq_bind,
      Option.bind_some, readFraction_fractionText h hrest, readExponent_exponentText h hrest]
  | false =>
    unfold readNumeral
    split
    rename_i heq
    split at heq
    · rename_i htail
      exact absurd htail (hminus _ _)
    · cases heq
      simp only [Bool.false_eq_true, if_false, List.nil_append, hwhole, Option.bind_eq_bind,
        Option.bind_some, readFraction_fractionText h hrest, readExponent_exponentText h hrest]

end Numeral

/-! ### Integers -/

/-- The digits of a number are never none, so what is written behind them does not change the first
one. -/
theorem head?_toDigits_append (n : Nat) (rest : List Char) :
    (Nat.toDigits 10 n ++ rest).head? = (Nat.toDigits 10 n).head? := by
  cases h : Nat.toDigits 10 n with
  | nil => exact absurd h Nat.toDigits_ne_nil
  | cons c cs => rfl

/-- No zero leads the digits of a number that is not zero. -/
theorem head?_toDigits_ne_zero {n : Nat} (h : 0 < n) : (Nat.toDigits 10 n).head? ≠ some '0' := by
  induction n using Nat.strongRecOn with
  | ind n ih =>
    by_cases hlt : n < 10
    · have hall : ∀ k < 10, 0 < k → ([Nat.digitChar k]).head? ≠ some '0' := by decide
      rw [Nat.toDigits_of_lt_base hlt]
      exact hall n hlt h
    · rw [Nat.toDigits_of_base_le (by omega) (by omega), head?_toDigits_append]
      exact ih (n / 10) (by omega) (by omega)

/-- All characters of a number in decimal are digits. -/
theorem isDigit_of_mem_digits (n : Nat) : ∀ c ∈ Nat.toDigits 10 n, c.isDigit = true :=
  fun _ h => Nat.isDigit_of_mem_toDigits (by omega) (by omega) h

/-- A number in decimal is one digit or more, as the grammar asks of every run of digits. -/
theorem isDigits_toDigits (n : Nat) : IsDigits (Nat.toDigits 10 n) :=
  ⟨Nat.toDigits_ne_nil, isDigit_of_mem_digits n⟩

/-- **A number in decimal is a whole part**: it begins with a zero only if it is zero. -/
theorem isWhole_toDigits (n : Nat) : IsWhole (Nat.toDigits 10 n) := by
  refine ⟨isDigits_toDigits n, fun hzero => ?_⟩
  rcases Nat.eq_zero_or_pos n with rfl | hn
  · exact Nat.toDigits_zero 10
  · exact absurd hzero (head?_toDigits_ne_zero hn)

/-- The numeral that an integer is written as: its digits, and a sign if it is negative. -/
def Numeral.integer (isNegative : Bool) (n : Nat) : Numeral :=
  ⟨isNegative, Nat.toDigits 10 n, [], none⟩

/-- The numeral of an integer is proper: its digits are a whole part, and it has neither a fraction
nor an exponent. -/
theorem Numeral.proper_integer (isNegative : Bool) (n : Nat) : (integer isNegative n).Proper where
  whole := isWhole_toDigits n
  fraction := by simp [integer]
  exponent := by simp [integer]

/-! ### Decimals -/

/-- **Digits of which the first one is not zero**, as the significant digits of a decimal are. -/
structure Leading (cs : List Char) : Prop where
  digits : IsDigits cs
  head : cs.head? ≠ some '0'

namespace Leading

variable {cs back : List Char}

/-- Digits that begin with no zero are a whole part. -/
theorem isWhole (h : Leading cs) : IsWhole cs := ⟨h.digits, fun hzero => absurd hzero h.head⟩

/-- More digits behind digits that begin with no zero change nothing about their beginning. -/
theorem append (h : Leading cs) (hback : ∀ c ∈ back, c.isDigit = true) : Leading (cs ++ back) := by
  obtain ⟨c, front, rfl⟩ := List.exists_cons_of_ne_nil h.digits.1
  refine ⟨⟨List.cons_ne_nil _ _, fun c hc => ?_⟩, h.head⟩
  exact (List.mem_append.1 hc).elim (h.digits.2 c) (hback c)

/-- The digits at the front of digits that begin with no zero begin with none either. -/
theorem of_prefix (h : Leading cs) {front : List Char} (hfront : front <+: cs) (hne : front ≠ []) :
    Leading front := by
  obtain ⟨c, front, rfl⟩ := List.exists_cons_of_ne_nil hne
  obtain ⟨back, rfl⟩ := hfront
  exact ⟨⟨hne, fun c hc => h.digits.2 c (List.mem_append_left _ hc)⟩, h.head⟩

/-- Cutting digits off the back leaves digits that begin with no zero, if one digit or more is
kept. -/
theorem take (h : Leading cs) (n : Nat) : Leading (cs.take (n + 1)) := by
  refine h.of_prefix (List.take_prefix _ _) ?_
  obtain ⟨c, front, rfl⟩ := List.exists_cons_of_ne_nil h.digits.1
  exact List.cons_ne_nil _ _

/-- Zeros at the end can be left out; the first digit is not one of them, so something is left. -/
theorem strip (h : Leading cs) : Leading (cs.reverse.dropWhile (· == '0')).reverse := by
  refine h.of_prefix (List.rdropWhile_prefix _ _) fun hnil => h.head ?_
  have hzeros := List.rdropWhile_eq_nil_iff.1 hnil
  obtain ⟨c, front, rfl⟩ := List.exists_cons_of_ne_nil h.digits.1
  exact congrArg some (eq_of_beq (hzeros c List.mem_cons_self))

end Leading

/-- Zeros that fill up a numeral are digits like any other. -/
theorem isDigit_of_mem_zeros {n : Nat} : ∀ c ∈ List.replicate n '0', c.isDigit = true := by
  intro c hc
  rw [(List.mem_replicate.1 hc).2]
  rfl

end Json

open Json

namespace Decimal

variable {layout : DecimalLayout} {d : Decimal}

/-- The numeral that a decimal is written as, with zeros where the layout needs them. -/
def numeral (layout : DecimalLayout) (isNegative : Bool) (d : Decimal) : Numeral :=
  if layout.leastPlace ≤ d.exponent ∧ d.exponent ≤ layout.greatestPlace then
    if d.exponent < 0 then
      ⟨isNegative, ['0'], List.replicate (-d.exponent - 1).toNat '0' ++ d.digits, none⟩
    else
      let whole := d.exponent.toNat + 1
      if d.digits.length ≤ whole then
        ⟨isNegative, d.digits ++ List.replicate (whole - d.digits.length) '0', ['0'], none⟩
      else ⟨isNegative, d.digits.take whole, d.digits.drop whole, none⟩
  else
    ⟨isNegative, d.digits.take 1, d.digits.drop 1,
      some (d.exponent < 0, Nat.toDigits 10 d.exponent.natAbs)⟩

/-- **A decimal is written as a proper numeral** in every layout, once its digits begin with no
zero: wherever the point falls, there are digits on both sides of it. -/
theorem proper_numeral (h : Leading d.digits) (isNegative : Bool) :
    (d.numeral layout isNegative).Proper := by
  unfold numeral
  split
  · split
    · refine ⟨isWhole_zero, fun c hc => ?_, by simp⟩
      exact (List.mem_append.1 hc).elim (isDigit_of_mem_zeros c) (h.digits.2 c)
    · dsimp only
      split
      · exact ⟨(h.append isDigit_of_mem_zeros).isWhole, isWhole_zero.digits.2, by simp⟩
      · exact ⟨(h.take _).isWhole, fun c hc => h.digits.2 c (List.mem_of_mem_drop hc), by simp⟩
  · refine ⟨(h.take 0).isWhole, fun c hc => h.digits.2 c (List.mem_of_mem_drop hc), ?_⟩
    rintro _ ⟨⟩
    exact isDigits_toDigits _

/-- The text of the numeral of a decimal is the decimal in its layout, behind the minus sign of a
negative one. -/
theorem text_numeral (h : d.digits ≠ []) (isNegative : Bool) :
    (d.numeral layout isNegative).text =
      (if isNegative then ['-'] else []) ++ d.text layout := by
  unfold numeral Decimal.text
  split
  · split
    · simp [Numeral.text, Numeral.fractionText, Numeral.exponentText, h]
    · dsimp only
      split
      · simp [Numeral.text, Numeral.fractionText, Numeral.exponentText]
      · rename_i hlong
        simp [Numeral.text, Numeral.fractionText, Numeral.exponentText]
        omega
  · obtain ⟨digits, exponent⟩ := d
    match digits with
    | [] => exact absurd rfl h
    | [c] => simp [Numeral.text, Numeral.fractionText, Numeral.exponentText]
    | c :: c' :: cs => simp [Numeral.text, Numeral.fractionText, Numeral.exponentText]

end Decimal

/-! ### The shortest decimal -/

namespace ShortestDecimal

variable {i : Interval} {place : Nat}

/-- The unit that the ends of an interval are counted in is not zero, so quotients by it mean
something. -/
theorem unit_pos : 0 < Nat.pow 2 1076 := by decide +kernel

/-- A hit is one of the two multiples of a step around a value, the one below it or the one above
it. -/
theorem hit?_eq_some {step n : Nat} (h : hit? i step = some n) :
    n = i.value * scale / step ∨ n = i.value * scale / step + 1 := by
  generalize hvalue : i.value * scale = value at h ⊢
  simp only [hit?, hvalue] at h
  split at h
  · split at h
    · exact .inl (Option.some.inj h).symm
    · exact .inr (Option.some.inj h).symm
  · split at h
    · exact .inl (Option.some.inj h).symm
    · split at h
      · exact .inr (Option.some.inj h).symm
      · cases h

/-- **On every grid that is tried the number stands at the first place at least.** -/
theorem search_pos (h : Nat.pow 10 place ≤ i.value * scale / Nat.pow 2 1076) {digits : Nat}
    (hdigits : 0 < digits) (grids : Nat) : 0 < (search i place digits grids).1 := by
  have hbelow : ∀ digits, 0 < digits →
      0 < i.value * scale / (Nat.pow 2 1076 * Nat.pow 10 (place + 1 - digits)) := by
    intro digits hdigits
    have hplace : place + 1 - digits ≤ place := Nat.sub_le_of_le_add (Nat.add_le_add_left hdigits _)
    have hpower : Nat.pow 10 (place + 1 - digits) ≤ Nat.pow 10 place :=
      Nat.pow_le_pow_right (Nat.succ_pos _) hplace
    have hdiv := Nat.div_div_eq_div_mul (i.value * scale) (Nat.pow 2 1076)
      (Nat.pow 10 (place + 1 - digits))
    rw [← hdiv]
    exact Nat.div_pos (Nat.le_trans hpower h) (Nat.pow_pos (Nat.succ_pos _))
  induction grids generalizing digits with
  | zero => exact hbelow digits hdigits
  | succ grids ih =>
    rw [search]
    split
    · rename_i n hhit
      rcases hit?_eq_some hhit with rfl | rfl
      · exact hbelow digits hdigits
      · exact Nat.succ_pos _
    · exact ih (Nat.succ_pos _)

/-- The first digit of a number stands at the place that its digits count to. -/
theorem pow_place_le {n : Nat} (h : 0 < n) :
    Nat.pow 10 ((Nat.toDigits 10 n).length - 1) ≤ n := by
  obtain ⟨place, hplace⟩ := Nat.exists_eq_succ_of_ne_zero
    (Nat.ne_of_gt (Nat.length_toDigits_pos (b := 10) (n := n)))
  rw [hplace, Nat.succ_sub_one]
  cases place with
  | zero => exact h
  | succ place =>
    have hlength := Nat.length_toDigits_le_iff (b := 10) (n := n) (k := place + 1) (by decide)
      (Nat.succ_pos _)
    rw [hplace] at hlength
    exact Nat.le_of_not_lt fun hlt => absurd (hlength.2 hlt) (Nat.not_succ_le_self _)

/-- A number with a mantissa has a value above zero. -/
theorem interval_value_pos {x : Binary64} (h : x.mantissa ≠ 0) : 0 < (interval x).value :=
  Nat.mul_pos (Nat.mul_pos (by decide) (Nat.pos_of_ne_zero h)) (Nat.pow_pos (by decide))

end ShortestDecimal

open ShortestDecimal in
/-- **The shortest decimal of a number starts with a digit that is not zero.** -/
theorem Binary64.leading_shortest {x : Binary64} (h : x.mantissa ≠ 0) :
    Leading x.shortest.digits := by
  have hscale : Nat.pow 2 1076 ≤ scale := by decide +kernel
  have hvalue : 0 < (interval x).value * scale / Nat.pow 2 1076 :=
    Nat.div_pos (Nat.le_trans hscale (Nat.le_mul_of_pos_left scale (interval_value_pos h))) unit_pos
  have hpos := search_pos (pow_place_le hvalue) Nat.one_pos 17
  exact Leading.strip ⟨isDigits_toDigits _, head?_toDigits_ne_zero hpos⟩

namespace Json

/-! ### Numbers -/

/-- **The numeral that a number is written as**, with a fraction or an exponent exactly if the
number is real. -/
def Number.written : Number → Numeral
  | .natural n => .integer false n
  | .negative n => .integer true n
  | .real isNegative x =>
    if x.mantissa = 0 then ⟨isNegative, ['0'], ['0'], none⟩
    else x.shortest.numeral realLayout isNegative

/-- **Every number is written as a proper numeral**, integers and reals alike, so it can be read
again. -/
theorem Number.proper_written (n : Number) : n.written.Proper := by
  cases n with
  | natural n => exact Numeral.proper_integer false n
  | negative n => exact Numeral.proper_integer true n
  | real isNegative x =>
    rw [written]
    split
    · exact ⟨isWhole_zero, isWhole_zero.digits.2, by simp⟩
    · rename_i hne
      exact Decimal.proper_numeral (Binary64.leading_shortest hne) isNegative

/-- A minus sign in front of a text is a text of its own, which may be empty. -/
theorem sign_append (isNegative : Bool) (cs : List Char) :
    (if isNegative then '-' :: cs else cs) = (if isNegative then ['-'] else []) ++ cs := by
  cases isNegative <;> rfl

/-- A real is written as its shortest decimal; the number zero, which has none, as a zero on both
sides of the point. -/
theorem Number.text_real (isNegative : Bool) (x : Binary64) :
    (Number.real isNegative x).text = (if isNegative then ['-'] else []) ++
      if x.mantissa = 0 then ['0', '.', '0'] else x.shortest.text realLayout :=
  sign_append isNegative _

/-- The text of a number is that of the numeral which is read for it. -/
theorem Number.text_written (n : Number) : n.text = n.written.text := by
  cases n with
  | natural n => simp [text, written, Numeral.integer, Numeral.text, Numeral.fractionText,
      Numeral.exponentText]
  | negative n => simp [text, written, Numeral.integer, Numeral.text, Numeral.fractionText,
      Numeral.exponentText]
  | real isNegative x =>
    by_cases hzero : x.mantissa = 0
    · rw [text_real, written, if_pos hzero, if_pos hzero]
      rfl
    · rw [text_real, written, if_neg hzero, if_neg hzero,
        Decimal.text_numeral (Binary64.leading_shortest hzero).digits.1]

/-- **The text of a number is read back as its numeral.** -/
theorem readNumeral_number (n : Number) (hrest : EndsNumeral rest) :
    readNumeral (n.text ++ rest) = some (n.written, rest) := by
  rw [n.text_written]
  exact Numeral.readNumeral_text n.proper_written hrest

end Json
end PairAnnotation
