/-
# Strings that are written are read back

Each of the four forms of a string spells characters in its own way: as they are, with a code
behind a backslash, or, for its own quote, side by side with at most one other.  `Spells` says what
stands between the quotes of a form and what it spells, apart from the one who writes it and the
one who reads it.  The form that is chosen for a string can hold it (`StringForm.choose_holds`), so
what is written spells the string (`StringForm.Holds.spells_body`).  And what spells a string is
read as this string up to the closing quotes: on one line character by character
(`Spells.readLine`), over several lines run by run, where up to two quotes may stand right before
the closing ones and belong to the string (`Spells.readLines`).  Together every string is read back
from its quoted text (`readString_quoted`).
-/

import PairAnnotation.Proofs.Json.Text
import PairAnnotation.Toml.Printer
import PairAnnotation.Toml.Scalar

namespace PairAnnotation
namespace Toml

variable {c : Char} {s rest : List Char}

/-! ### Characters -/

/-- A character that needs no escape may stand in a text as it is, line breaks apart. -/
theorem isPlain_of_needsEscape (h : needsEscape c = false) (hbreak : c ≠ '\n') :
    isPlain c = true := by
  simp only [needsEscape, Bool.or_eq_false_iff, Bool.and_eq_false_iff, decide_eq_false_iff_not,
    bne_eq_false_iff_eq, beq_eq_false_iff_ne] at h
  simp only [isPlain, Bool.or_eq_true, Bool.and_eq_true, decide_eq_true_eq, beq_iff_eq, bne_iff_ne]
  obtain ⟨(hlow | htab) | hfeed, hdelete⟩ := h
  · exact .inr ⟨by omega, hdelete⟩
  · exact .inl htab
  · exact absurd hfeed hbreak

/-- A character of a class is none of those outside it. -/
theorem ne_of_class {p : Char → Bool} {d : Char} (h : p c = true) (hd : p d = false) : c ≠ d := by
  rintro rfl
  exact Bool.false_ne_true (hd.symm.trans h)

/-- What begins with neither a line feed nor a carriage return begins with no line break. -/
theorem newline?_of_ne (hfeed : c ≠ '\n') (hreturn : c ≠ '\r') : newline? (c :: rest) = none := by
  unfold newline?
  split <;> simp_all

/-- A plain character is no line break, neither one of one character nor the beginning of one of
two. -/
theorem newline?_of_isPlain (h : isPlain c = true) : newline? (c :: rest) = none :=
  newline?_of_ne (ne_of_class h rfl) (ne_of_class h rfl)

/-- A character that is not blank stops the skipping, so nothing is skipped in front of it. -/
theorem skipBlanks_of_not_blank (h : isBlank c = false) : skipBlanks (c :: rest) = c :: rest := by
  rw [skipBlanks, List.dropWhile_cons, h]
  rfl

/-! ### Codes -/

/-- **The code of a character** behind a backslash: it is read as the character, and not taken for
a line that goes on. -/
def IsCode (code : List Char) (c : Char) : Prop :=
  ∀ rest, readEscape (code ++ rest) = some (c, rest) ∧ continuation? (code ++ rest) = none

/-- No line goes on behind a code that starts with a letter, a quote or a backslash. -/
theorem isCode_cons {e : Char} {code : List Char}
    (h : ∀ rest, readEscape (e :: (code ++ rest)) = some (c, rest)) (hblank : isBlank e = false)
    (hfeed : e ≠ '\n') (hreturn : e ≠ '\r') : IsCode (e :: code) c := by
  refine fun rest => ⟨h rest, ?_⟩
  rw [List.cons_append, continuation?, skipBlanks_of_not_blank hblank, newline?_of_ne hfeed hreturn]
  rfl

/-- The digits of a code, which has four of them. -/
theorem scalar?_digits : ∀ n < 128,
    scalar? ['0', '0', (Json.hexDigit (n / 16)).toUpper, (Json.hexDigit (n % 16)).toUpper] =
      some (Char.ofNat n) := by decide

theorem needsEscape_lt (h : needsEscape c = true) : c.toNat < 128 := by
  simp only [needsEscape, Bool.or_eq_true, Bool.and_eq_true, decide_eq_true_eq, beq_iff_eq] at h
  omega

/-- What a character is escaped as is a backslash with a code of the character. -/
theorem exists_code_of_escape? {e : List Char} (h : escape? c = some e) :
    ∃ code, e = '\\' :: code ∧ IsCode code c := by
  unfold escape? at h
  -- Five characters have a letter or a backslash for their code.
  iterate 5
    split at h
    · rename_i hc
      subst hc
      obtain rfl := Option.some.inj h
      exact ⟨_, rfl, isCode_cons (fun _ => rfl) rfl (by decide) (by decide)⟩
  split at h
  · rename_i hneeds
    obtain rfl := Option.some.inj h
    refine ⟨_, rfl, isCode_cons (fun rest => ?_) rfl (by decide) (by decide)⟩
    change (scalar? _).map _ = _
    rw [scalar?_digits c.toNat (needsEscape_lt hneeds), Char.ofNat_toNat]
    rfl
  · cases h

/-- A character without escape is no backslash, and needs none. -/
theorem of_escape?_eq_none (h : escape? c = none) : c ≠ '\\' ∧ needsEscape c = false := by
  unfold escape? at h
  split_ifs at h with hb ht hf hr hbackslash hneeds
  exact ⟨hbackslash, by simpa using hneeds⟩

/-! ### Forms -/

namespace StringForm

/-- The quote at the ends of a form, once on one line and three times over several lines. -/
def quote : StringForm → Char
  | .basic | .basicLines => '"'
  | .literal | .literalLines => '\''

/-- Whether there are codes in a form, so that a backslash does not stand for itself. -/
def escapes : StringForm → Bool
  | .basic | .basicLines => true
  | .literal | .literalLines => false

/-- Whether a form goes over several lines, so that a line break may stand in it as it is. -/
def lines : StringForm → Bool
  | .basicLines | .literalLines => true
  | .basic | .literal => false

/-- How many quotes may stand side by side in a form as they are. -/
def maxRun (f : StringForm) : Nat := if f.lines then 2 else 0

/-- What stands between the quotes of a form: the string itself, or its spelling with codes. -/
def body (f : StringForm) (s : List Char) : List Char :=
  if f.escapes then escaped f.lines f.maxRun 0 s else s

/-- **A form can hold a string**: it has codes for what cannot stand there, or there is no such
thing in the string. -/
def Holds (f : StringForm) (s : List Char) : Prop :=
  f.escapes = true ∨
    s.any needsEscape = false ∧ longestRun f.quote 0 s ≤ f.maxRun ∧ (f.lines = true ∨ '\n' ∉ s)

/-- **The plainest form for a string can hold it**, whichever of the four forms is chosen. -/
theorem choose_holds (s : List Char) : (choose s).Holds s := by
  unfold choose
  dsimp only
  split_ifs with hbasic hliteral hbasicLines hliteralLines hbreak
  · exact .inl rfl
  · simp only [Bool.and_eq_true, Bool.not_eq_true', beq_iff_eq, List.contains_eq_mem,
      decide_eq_false_iff_not] at hliteral
    exact .inr ⟨hliteral.1.1, hliteral.1.2.le, .inr hliteral.2⟩
  · exact .inl rfl
  · simp only [Bool.and_eq_true, Bool.not_eq_true', decide_eq_true_eq] at hliteralLines
    exact .inr ⟨hliteralLines.1, hliteralLines.2, .inl rfl⟩
  · exact .inl rfl
  · exact .inl rfl

/-- No form of a text has the backslash for its quotation mark, so an escape never ends a text. -/
theorem quote_ne_backslash (f : StringForm) : '\\' ≠ f.quote := by
  cases f <;> decide

/-- Codes stand between double quotes, since a form with single quotes takes everything as it is. -/
theorem quote_of_escapes {f : StringForm} (h : f.escapes = true) : f.quote = '"' := by
  cases f <;> simp_all [escapes, quote]

end StringForm

/-! ### Spelling -/

/-- **How a form spells a string**, after so many quotes side by side: with a quote, with a
character that stands for itself, or with a code. -/
inductive Spells (f : StringForm) : Nat → List Char → List Char → Prop
  | nil {run : Nat} : Spells f run [] []
  | quote {run : Nat} {written s : List Char} (hrun : run < f.maxRun)
      (hrest : Spells f (run + 1) written s) : Spells f run (f.quote :: written) (f.quote :: s)
  | char {run : Nat} {c : Char} {written s : List Char} (hquote : c ≠ f.quote)
      (hescape : f.escapes = true → c ≠ '\\')
      (hchar : isPlain c = true ∨ f.lines = true ∧ c = '\n') (hrest : Spells f 0 written s) :
      Spells f run (c :: written) (c :: s)
  | code {run : Nat} {code : List Char} {c : Char} {written s : List Char}
      (hescapes : f.escapes = true) (hcode : IsCode code c) (hrest : Spells f 0 written s) :
      Spells f run ('\\' :: (code ++ written)) (c :: s)

namespace StringForm

variable {f : StringForm}

/-- A form with codes spells every string, however many quotes side by side stand in front of it. -/
theorem spells_escaped (hf : f.escapes = true) (s : List Char) (run : Nat) :
    Spells f run (escaped f.lines f.maxRun run s) s := by
  have hquote := quote_of_escapes hf
  induction s generalizing run with
  | nil => exact .nil
  | cons c s ih =>
    rw [escaped]
    split_ifs with hc hrun hfeed hlines
    · rw [hc, ← hquote]
      exact .quote hrun (ih _)
    · rw [hc]
      have hcode : IsCode ['"'] '"' := isCode_cons (fun _ => rfl) rfl (by decide) (by decide)
      exact .code hf hcode (ih 0)
    · rw [hfeed]
      exact .char (by rw [hquote]; decide) (fun _ => by decide) (.inr ⟨hlines, rfl⟩) (ih 0)
    · rw [hfeed]
      have hcode : IsCode ['n'] '\n' := isCode_cons (fun _ => rfl) rfl (by decide) (by decide)
      exact .code hf hcode (ih 0)
    · cases he : escape? c with
      | none =>
        obtain ⟨hbackslash, hneeds⟩ := of_escape?_eq_none he
        exact .char (by rwa [hquote]) (fun _ => hbackslash)
          (.inl (isPlain_of_needsEscape hneeds hfeed)) (ih 0)
      | some e =>
        obtain ⟨code, rfl, hcode⟩ := exists_code_of_escape? he
        exact .code hf hcode (ih 0)

/-- The longest run of a mark is no shorter than the run that was met already. -/
theorem le_longestRun (quote : Char) (run : Nat) (s : List Char) :
    run ≤ longestRun quote run s := by
  induction s generalizing run with
  | nil => exact Nat.le_refl run
  | cons c s ih =>
    rw [longestRun]
    split
    · exact (Nat.le_succ run).trans (ih _)
    · exact Nat.le_max_left _ _

/-- A form without codes spells a string as it is, if it can stand there. -/
theorem spells_self (hf : f.escapes = false) {s : List Char} (hplain : s.any needsEscape = false)
    (hlines : f.lines = true ∨ '\n' ∉ s) {run : Nat} (hrun : longestRun f.quote run s ≤ f.maxRun) :
    Spells f run s s := by
  induction s generalizing run with
  | nil => exact .nil
  | cons c s ih =>
    rw [List.any_cons, Bool.or_eq_false_iff] at hplain
    have hlines' : f.lines = true ∨ '\n' ∉ s := hlines.imp_right fun h => (h <| .tail _ ·)
    rw [longestRun] at hrun
    split_ifs at hrun with hc
    · subst hc
      exact .quote ((le_longestRun _ _ _).trans hrun) (ih hplain.2 hlines' hrun)
    · refine .char hc (by simp [hf]) ?_ (ih hplain.2 hlines' ((Nat.le_max_right _ _).trans hrun))
      by_cases hfeed : c = '\n'
      · refine .inr ⟨hlines.resolve_right fun h => h ?_, hfeed⟩
        exact hfeed ▸ List.mem_cons_self
      · exact .inl (isPlain_of_needsEscape hplain.1 hfeed)

/-- **What a form has between its quotes spells the string**, if the form can hold it. -/
theorem Holds.spells_body (h : f.Holds s) : Spells f 0 (f.body s) s := by
  unfold body
  split_ifs with hf
  · exact spells_escaped hf s 0
  · obtain hescapes | ⟨hplain, hrun, hlines⟩ := h
    · exact absurd hescapes hf
    · exact spells_self (by simpa using hf) hplain hlines hrun

end StringForm

/-! ### Reading what is spelled -/

namespace Spells

variable {f : StringForm} {run : Nat} {written : List Char}

/-- **What is spelled on one line is read up to the closing quote.** -/
theorem readLine (hf : f.lines = false) (h : Spells f run written s) {fuel : Nat}
    (hfuel : (written ++ f.quote :: rest).length < fuel) :
    Toml.readLine f.quote f.escapes fuel (written ++ f.quote :: rest) = some (s, rest) := by
  obtain ⟨fuel, rfl⟩ := Nat.exists_eq_succ_of_ne_zero (Nat.ne_zero_of_lt hfuel)
  induction h generalizing fuel with
  | nil => simp [Toml.readLine]
  | quote hrun _ _ => simp [StringForm.maxRun, hf] at hrun
  | @char _ c _ _ hquote hescape hchar _ ih =>
    have hplain : isPlain c = true := hchar.resolve_right (by simp [hf])
    have hcode : ¬ (f.escapes && c == '\\') = true := by simpa using hescape
    obtain ⟨fuel, rfl⟩ := Nat.exists_eq_succ_of_ne_zero (n := fuel) (by simp at hfuel; omega)
    rw [List.cons_append, Toml.readLine, if_neg hquote, if_neg hcode, if_pos hplain,
      ih fuel (by simpa using hfuel)]
    rfl
  | @code _ code _ written _ hescapes hcode _ ih =>
    have hlength : (written ++ f.quote :: rest).length < fuel := by
      simp only [List.length_cons, List.length_append] at hfuel ⊢
      omega
    obtain ⟨fuel, rfl⟩ := Nat.exists_eq_succ_of_ne_zero (Nat.ne_zero_of_lt hlength)
    rw [List.cons_append, List.append_assoc, Toml.readLine, if_neg f.quote_ne_backslash,
      if_pos (by simp [hescapes]), (hcode _).1]
    simp only [Option.bind_eq_bind, Option.bind_some, ih fuel hlength]

end Spells

/-- The quotes before the first other character, and what they leave. -/
theorem span_quotes {quote : Char} (n : Nat) (h : ∀ c ∈ rest.head?, c ≠ quote) :
    (List.replicate n quote ++ rest).takeWhile (· == quote) = List.replicate n quote ∧
      (List.replicate n quote ++ rest).dropWhile (· == quote) = rest :=
  Text.takeWhile_append_of_head? (by simp) (by simpa using h)

/-- Quotes that are too few to close a string are read, and what follows them. -/
theorem readLines_run {quote : Char} {escapes : Bool} {cs : List Char} {run : Nat} (hrun : run ≤ 2)
    (hcs : ∀ c ∈ cs.head?, c ≠ quote)
    (h : ∀ fuel, cs.length < fuel → readLines quote escapes fuel cs = some (s, rest)) {fuel : Nat}
    (hfuel : (List.replicate run quote ++ cs).length < fuel) :
    readLines quote escapes fuel (List.replicate run quote ++ cs) =
      some (List.replicate run quote ++ s, rest) := by
  cases run with
  | zero => exact h fuel hfuel
  | succ run =>
    obtain ⟨fuel, rfl⟩ := Nat.exists_eq_succ_of_ne_zero (Nat.ne_zero_of_lt hfuel)
    obtain ⟨htake, hdrop⟩ := span_quotes (run + 1) hcs
    rw [List.replicate_succ, List.cons_append, readLines, if_pos rfl, ← List.cons_append,
      ← List.replicate_succ]
    dsimp only
    rw [htake, hdrop, List.length_replicate, if_neg (by omega), h fuel (by simp at hfuel; omega)]
    rfl

namespace Spells

variable {f : StringForm} {run : Nat} {written : List Char}

/-- **What is spelled over several lines is read up to the closing quotes**, with the quotes that
stand right before it. -/
theorem readLines (hf : f.lines = true) (h : Spells f run written s) (hrun : run ≤ 2)
    (hrest : ∀ c ∈ rest.head?, c ≠ f.quote) {fuel : Nat}
    (hfuel : (List.replicate run f.quote ++
      (written ++ f.quote :: f.quote :: f.quote :: rest)).length < fuel) :
    Toml.readLines f.quote f.escapes fuel
        (List.replicate run f.quote ++ (written ++ f.quote :: f.quote :: f.quote :: rest)) =
      some (List.replicate run f.quote ++ s, rest) := by
  induction h generalizing fuel with
  | @nil run =>
    -- The quotes before the closing ones are one run with them.
    obtain ⟨fuel, rfl⟩ := Nat.exists_eq_succ_of_ne_zero (Nat.ne_zero_of_lt hfuel)
    have hquotes : List.replicate run f.quote ++ ([] ++ f.quote :: f.quote :: f.quote :: rest) =
        f.quote :: (List.replicate (run + 2) f.quote ++ rest) := by
      simp [List.replicate_succ', List.append_assoc, ← List.cons_append, ← List.replicate_succ]
    obtain ⟨htake, hdrop⟩ := span_quotes (run + 3) hrest
    rw [hquotes, Toml.readLines, if_pos rfl, ← List.cons_append, ← List.replicate_succ]
    dsimp only
    rw [htake, hdrop, List.length_replicate, if_pos (by omega), Nat.add_sub_cancel,
      Nat.min_eq_left hrun, Nat.sub_self, List.replicate_zero, List.nil_append, List.append_nil]
  | @quote run written s hmax _ ih =>
    have hnext : run + 1 ≤ 2 := by
      have : run < 2 := by simpa [StringForm.maxRun, hf] using hmax
      omega
    have happend : ∀ cs, List.replicate run f.quote ++ f.quote :: cs =
        List.replicate (run + 1) f.quote ++ cs := by
      simp [List.replicate_succ', List.append_assoc]
    rw [List.cons_append, happend] at hfuel ⊢
    rw [happend]
    exact ih hnext hfuel
  | @char run c written s hquote hescape hchar _ ih =>
    refine readLines_run hrun (by simpa using hquote) (fun fuel hlength => ?_) hfuel
    obtain ⟨fuel, rfl⟩ := Nat.exists_eq_succ_of_ne_zero (Nat.ne_zero_of_lt hlength)
    have hcode : ¬ (f.escapes && c == '\\') = true := by simpa using hescape
    have hread : Toml.readLines f.quote f.escapes fuel
        (written ++ f.quote :: f.quote :: f.quote :: rest) = some (s, rest) :=
      ih (Nat.zero_le 2) (by simpa using hlength)
    rw [List.cons_append, Toml.readLines, if_neg hquote, if_neg hcode]
    obtain hplain | ⟨-, rfl⟩ := hchar
    · rw [newline?_of_isPlain hplain]
      dsimp only
      rw [if_pos hplain, hread]
      rfl
    · rw [newline?]
      dsimp only
      rw [hread]
      rfl
  | @code run code c written s hescapes hcode _ ih =>
    refine readLines_run hrun (by simpa using f.quote_ne_backslash) (fun fuel hlength => ?_) hfuel
    obtain ⟨fuel, rfl⟩ := Nat.exists_eq_succ_of_ne_zero (Nat.ne_zero_of_lt hlength)
    have hread : Toml.readLines f.quote f.escapes fuel
        (written ++ f.quote :: f.quote :: f.quote :: rest) = some (s, rest) := by
      refine ih (Nat.zero_le 2) ?_
      simp only [List.length_cons, List.length_append, List.length_replicate] at hlength ⊢
      omega
    rw [List.cons_append, List.append_assoc, Toml.readLines, if_neg f.quote_ne_backslash,
      if_pos (by simp [hescapes]), (hcode _).1, (hcode _).2]
    simp only [Option.bind_eq_bind, Option.bind_some, hread]

/-- What spells a string without line breaks does not start with one. -/
theorem newline?_eq_none (h : Spells f run written s) (hs : '\n' ∉ s) :
    newline? (written ++ f.quote :: rest) = none := by
  have hquote : ∀ cs, newline? (f.quote :: cs) = none := fun cs => by
    cases f <;> rfl
  cases h with
  | nil => exact hquote _
  | quote => exact hquote _
  | char _ _ hchar _ =>
    obtain hplain | ⟨-, rfl⟩ := hchar
    · exact newline?_of_isPlain hplain
    · exact absurd List.mem_cons_self hs
  | code => rfl

/-- What is spelled on one line does not start with a quote. -/
theorem head?_ne (hf : f.lines = false) (h : Spells f run written s) :
    ∀ c ∈ written.head?, c ≠ f.quote := by
  cases h with
  | nil => simp
  | quote hrun _ => simp [StringForm.maxRun, hf] at hrun
  | char hquote _ _ _ => simpa using hquote
  | code => simpa using f.quote_ne_backslash

end Spells

/-! ### Quoted strings -/

/-- What may follow a string: no quote, since that would be taken for part of the closing ones. -/
def EndsString (rest : List Char) : Prop := ∀ c ∈ rest.head?, c ≠ '"' ∧ c ≠ '\''

/-- Where a text ends, its quotation mark does not go on, be it the double or the single one. -/
theorem EndsString.ne_quote (h : EndsString rest) (f : StringForm) :
    ∀ c ∈ rest.head?, c ≠ f.quote := by
  intro c hc
  cases f with
  | basic | basicLines => exact (h c hc).1
  | literal | literalLines => exact (h c hc).2

/-- A string on one line, which two quotes do not follow. -/
theorem readString_line {f : StringForm} (hf : f.lines = false) {cs : List Char}
    (hcs : ∀ tail, cs ≠ f.quote :: f.quote :: tail) :
    readString (f.quote :: cs) = readQuoted f.quote f.escapes cs := by
  cases f with
  | basic =>
    change readString ('"' :: cs) = readQuoted '"' true cs
    rw [readString]
    rintro tail rfl
    exact hcs tail rfl
  | literal =>
    change readString ('\'' :: cs) = readQuoted '\'' false cs
    rw [readString]
    rintro tail rfl
    exact hcs tail rfl
  | basicLines | literalLines => cases hf

/-- Three quotation marks open a text of several lines, which is read up to the next three. -/
theorem readString_lines {f : StringForm} (hf : f.lines = true) (cs : List Char) :
    readString (f.quote :: f.quote :: f.quote :: cs) = readQuotedLines f.quote f.escapes cs := by
  cases f with
  | basic | literal => cases hf
  | basicLines | literalLines => rfl

namespace StringForm

/-- A string in a form: its body between the quotes, behind the line break that some strings
need. -/
def text (f : StringForm) (s : List Char) : List Char :=
  if f.lines then
    f.quote :: f.quote :: f.quote ::
      (openingBreak s ++ (f.body s ++ [f.quote, f.quote, f.quote]))
  else f.quote :: (f.body s ++ [f.quote])

variable {f : StringForm}

/-- **A string is read back from its text in a form that can hold it.** -/
theorem Holds.readString_text (h : f.Holds s) (hrest : EndsString rest) :
    readString (f.text s ++ rest) = some (String.ofList s, rest) := by
  have hspells := h.spells_body
  unfold text
  split_ifs with hf
  · obtain ⟨cs, hcs⟩ : ∃ cs, f.body s ++ f.quote :: f.quote :: f.quote :: rest = cs := ⟨_, rfl⟩
    have hread : readLines f.quote f.escapes (cs.length + 1) cs = some (s, rest) := by
      subst hcs
      exact hspells.readLines hf (Nat.zero_le 2) (hrest.ne_quote f) (Nat.lt_succ_self _)
    have hopening : (newline? (openingBreak s ++ cs)).getD (openingBreak s ++ cs) = cs := by
      unfold openingBreak
      split_ifs with hbreak
      · rfl
      · rw [List.nil_append, ← hcs, hspells.newline?_eq_none (by simpa using hbreak),
          Option.getD_none]
    simp only [List.cons_append, List.append_assoc, List.nil_append]
    rw [readString_lines hf, readQuotedLines, hcs, hopening, hread, Option.map_some]
  · have hf : f.lines = false := by simpa using hf
    simp only [List.cons_append, List.append_assoc, List.nil_append]
    rw [readString_line hf, readQuoted, hspells.readLine hf (Nat.lt_succ_self _), Option.map_some]
    intro tail htail
    have hhead := hspells.head?_ne hf
    cases hbody : f.body s with
    | nil =>
      rw [hbody, List.nil_append] at htail
      exact hrest.ne_quote f _ (by rw [(List.cons.inj htail).2]; rfl) rfl
    | cons c cs =>
      rw [hbody] at htail hhead
      exact hhead c rfl (List.cons.inj htail).1

end StringForm

/-- A text is quoted in the form that is chosen by its characters. -/
theorem quoted_eq (s : String) : quoted s = (StringForm.choose s.toList).text s.toList := by
  unfold quoted
  dsimp only
  cases StringForm.choose s.toList with
  | basic | literal => rfl
  | basicLines | literalLines =>
    simp [StringForm.text, StringForm.lines, StringForm.quote, StringForm.body, StringForm.escapes,
      StringForm.maxRun]

/-- **Every string is read back from its quoted text**, in the form that the printer chooses for
it. -/
theorem readString_quoted (s : String) (hrest : EndsString rest) :
    readString (quoted s ++ rest) = some (s, rest) := by
  rw [quoted_eq, (StringForm.choose_holds s.toList).readString_text hrest, String.ofList_toList]

end Toml
end PairAnnotation
