/-
# Values that are written are read back

What is written for a string and for an array of strings is read as that value on a line of its own
(`IsTextOf`).  Between the items of an array nothing but line breaks and blanks is written, which
the reader skips (`filler_lineBreak`), so the items come back one by one (`readItems_itemLines`).
-/

import PairAnnotation.Proofs.Toml.Strings
import PairAnnotation.Toml.Reader

namespace PairAnnotation
namespace Toml

variable {cs rest : List Char} {fuel depth : Nat}

/-- **A text of a value**: no blank comes first, and up to the end of its line the text is read as
the value. -/
structure IsTextOf (text : List Char) (value : Node) : Prop where
  starts : ∀ rest, ∀ c ∈ (text ++ '\n' :: rest).head?, isBlank c = false
  reads : ∀ rest fuel, (text ++ '\n' :: rest).length < fuel →
    readValue fuel 0 (text ++ '\n' :: rest) = some (value, '\n' :: rest)

/-! ### Strings -/

/-- A text is over in front of a character that is no quotation mark. -/
theorem endsString_cons {c : Char} (hdouble : c ≠ '"') (hsingle : c ≠ '\'') :
    EndsString (c :: rest) := by
  rintro _ ⟨⟩
  exact ⟨hdouble, hsingle⟩

/-- A quoted text starts with the quote of its form. -/
theorem exists_quoted_cons (s : String) : ∃ (f : StringForm) (cs : List Char),
    quoted s = f.quote :: cs := by
  refine ⟨StringForm.choose s.toList, ?_⟩
  rw [quoted_eq, StringForm.text]
  split_ifs
  · exact ⟨_, rfl⟩
  · exact ⟨_, rfl⟩

/-- A value that begins with a quotation mark is a text, read by the reader of texts. -/
theorem readValue_quote (f : StringForm) (cs : List Char) :
    readValue (fuel + 1) depth (f.quote :: cs) =
      (readString (f.quote :: cs)).map fun (s, rest) => (.string s, rest) := by
  cases f <;> rfl

/-- **A quoted text is read as the text that was quoted**, if the text is over behind it. -/
theorem readValue_quoted (s : String) (hrest : EndsString rest) :
    readValue (fuel + 1) depth (quoted s ++ rest) = some (.string s, rest) := by
  have hread := readString_quoted s hrest
  obtain ⟨f, cs, hcs⟩ := exists_quoted_cons s
  rw [hcs, List.cons_append] at hread ⊢
  rw [readValue_quote, hread, Option.map_some]

/-- What is quoted is a text of the format that stands for the string it was made of. -/
theorem isTextOf_quoted (s : String) : IsTextOf (quoted s) (.string s) where
  starts rest := by
    obtain ⟨f, cs, hcs⟩ := exists_quoted_cons s
    rw [hcs]
    rintro _ ⟨⟩
    cases f <;> rfl
  reads rest fuel hfuel := by
    obtain ⟨fuel, rfl⟩ := Nat.exists_eq_succ_of_ne_zero (Nat.ne_zero_of_lt hfuel)
    exact readValue_quoted s (endsString_cons (by decide) (by decide))

/-! ### Arrays -/

/-- What starts with an item or with the end of an array, and not with something to skip. -/
def StartsItem (cs : List Char) : Prop :=
  ∀ c ∈ cs.head?, isBlank c = false ∧ c ≠ '#' ∧ c ≠ '\n' ∧ c ≠ '\r'

/-- Blanks in front of something that is not blank are skipped, all of them. -/
theorem skipBlanks_append (blanks : List Char) (hblanks : blanks.all isBlank = true)
    (h : ∀ c ∈ cs.head?, isBlank c = false) : skipBlanks (blanks ++ cs) = cs :=
  (Text.takeWhile_append_of_head? (List.all_eq_true.1 hblanks) h).2

theorem StartsItem.skipBlanks_eq (h : StartsItem cs) : skipBlanks cs = cs :=
  skipBlanks_append [] rfl fun c hc => (h c hc).1

/-- An item begins with neither a comment nor a line break. -/
theorem StartsItem.newline?_skipComment (h : StartsItem cs) : newline? (skipComment cs) = none := by
  cases cs with
  | nil => rfl
  | cons c cs =>
    obtain ⟨-, hcomment, hfeed, hreturn⟩ := h c rfl
    rw [skipComment, newline?_of_ne hfeed hreturn]
    rintro _ heq
    exact hcomment (List.cons.inj heq).1

/-- Nothing is filled in front of an item, neither blanks nor comments nor empty lines. -/
theorem StartsItem.filler_eq (h : StartsItem cs) : filler cs = cs := by
  rw [filler, skipFiller, h.skipBlanks_eq, h.newline?_skipComment]

/-- **A line break and blanks are skipped**, up to the first character of an item. -/
theorem filler_lineBreak (blanks : List Char) (hblanks : blanks.all isBlank = true)
    (h : StartsItem cs) : filler ('\n' :: (blanks ++ cs)) = cs := by
  have hskip := skipBlanks_append blanks hblanks fun c hc => (h c hc).1
  rw [filler, List.length_cons, skipFiller, skipBlanks_of_not_blank (c := '\n') rfl]
  change skipFiller _ (blanks ++ cs) = cs
  rw [skipFiller, hskip, h.newline?_skipComment]

/-- A quoted text can be an item, since it begins with its quotation mark. -/
theorem startsItem_quoted (s : String) (rest : List Char) : StartsItem (quoted s ++ rest) := by
  obtain ⟨f, cs, hcs⟩ := exists_quoted_cons s
  rw [hcs]
  rintro _ ⟨⟩
  cases f <;> decide

/-- A character that is neither blank nor the mark of a comment nor a line break can begin an
item. -/
theorem startsItem_cons {c : Char} (h : isBlank c = false ∧ c ≠ '#' ∧ c ≠ '\n' ∧ c ≠ '\r') :
    StartsItem (c :: rest) := by
  rintro _ ⟨⟩
  exact h

/-- **An item is read**, and behind it a comma with further items or the end of the array. -/
theorem readItems_quoted (s : String) (hrest : EndsString rest) {items : List Node}
    (h : (∃ next, filler rest = ',' :: next ∧
        readItems (fuel + 1) depth (filler next) = some (items, cs)) ∨
      filler rest = ']' :: cs ∧ items = []) :
    readItems (fuel + 2) depth (quoted s ++ rest) = some (.string s :: items, cs) := by
  have hread : readValue (fuel + 1) depth (quoted s ++ rest) = some (.string s, rest) :=
    readValue_quoted s hrest
  obtain ⟨f, front, hfront⟩ := exists_quoted_cons s
  rw [hfront, List.cons_append] at hread ⊢
  rw [readItems]
  · rw [hread]
    obtain ⟨next, hcomma, hitems⟩ | ⟨hend, rfl⟩ := h
    · simp only [Option.bind_eq_bind, Option.bind_some, hcomma, hitems]
    · simp only [Option.bind_eq_bind, Option.bind_some, hend]
  · rintro _ heq
    have hquote := (List.cons.inj heq).1
    cases f <;> cases hquote

/-- The lines of items, each with four blanks before it and a comma behind it. -/
def itemLines (items : List String) : List Char :=
  items.flatMap fun s => [' ', ' ', ' ', ' '] ++ quoted s ++ [',', '\n']

/-- **Items are read back from their lines**, up to the end of the array. -/
theorem readItems_itemLines (items : List String) (hfuel : items.length + 1 < fuel) :
    readItems fuel depth (filler ('\n' :: (itemLines items ++ ']' :: rest))) =
      some (items.map .string, rest) := by
  induction items generalizing fuel with
  | nil =>
    obtain ⟨fuel, rfl⟩ := Nat.exists_eq_succ_of_ne_zero (Nat.ne_zero_of_lt hfuel)
    have hend : StartsItem (']' :: rest) := startsItem_cons (by decide)
    have hskip : filler ('\n' :: ']' :: rest) = ']' :: rest := filler_lineBreak [] rfl hend
    rw [itemLines, List.flatMap_nil, List.nil_append, hskip]
    rfl
  | cons s items ih =>
    obtain ⟨fuel, rfl⟩ := Nat.exists_eq_add_of_lt (Nat.lt_of_le_of_lt (Nat.le_add_left 1 _) hfuel)
    have hlines : itemLines (s :: items) ++ ']' :: rest =
        [' ', ' ', ' ', ' '] ++ (quoted s ++ ',' :: '\n' :: (itemLines items ++ ']' :: rest)) := by
      simp [itemLines, List.append_assoc]
    have hcomma : StartsItem (',' :: '\n' :: (itemLines items ++ ']' :: rest)) :=
      startsItem_cons (by decide)
    rw [hlines, filler_lineBreak _ rfl (startsItem_quoted s _), Nat.add_comm 1 fuel]
    refine readItems_quoted s (endsString_cons (by decide) (by decide))
      (.inl ⟨_, hcomma.filler_eq, ih ?_⟩)
    rw [List.length_cons] at hfuel
    omega

/-- There are at least as many characters as items, so fuel for the characters is enough for the
items. -/
theorem length_le_itemLines (items : List String) : items.length ≤ (itemLines items).length := by
  induction items with
  | nil => exact Nat.zero_le _
  | cons s items ih =>
    rw [itemLines, List.flatMap_cons, ← itemLines]
    simp only [List.length_cons, List.length_append]
    omega

/-- A value that begins with a bracket is a list, read item by item with the filling in front of
each. -/
theorem readValue_bracket (cs : List Char) :
    readValue (fuel + 1) 0 ('[' :: cs) =
      (readItems fuel 1 (filler cs)).map fun (items, rest) => (.array items, rest) := rfl

/-- **An array of strings is read back from its text.** -/
theorem isTextOf_stringArray (items : List String) :
    IsTextOf (stringArray items) (.array (items.map .string)) where
  starts rest := by
    unfold stringArray
    split
    all_goals
      rintro _ ⟨⟩
      rfl
  reads rest fuel hfuel := by
    obtain ⟨fuel, rfl⟩ := Nat.exists_eq_succ_of_ne_zero (Nat.ne_zero_of_lt hfuel)
    match items with
    | [] =>
      obtain ⟨fuel, rfl⟩ := Nat.exists_eq_succ_of_ne_zero (n := fuel) (by
        simp [stringArray] at hfuel
        omega)
      change readValue _ 0 ('[' :: ']' :: '\n' :: rest) = _
      rw [readValue_bracket, (startsItem_cons (by decide)).filler_eq]
      rfl
    | [s] =>
      obtain ⟨fuel, rfl⟩ := Nat.exists_eq_add_of_le (show 2 ≤ fuel by
        simp [stringArray] at hfuel
        omega)
      have htext : stringArray [s] ++ '\n' :: rest = '[' :: (quoted s ++ ']' :: '\n' :: rest) := by
        simp [stringArray]
      have hend : StartsItem (']' :: '\n' :: rest) := startsItem_cons (by decide)
      rw [htext, readValue_bracket, (startsItem_quoted s _).filler_eq, Nat.add_comm 2,
        readItems_quoted s (endsString_cons (by decide) (by decide)) (.inr ⟨hend.filler_eq, rfl⟩)]
      rfl
    | s :: t :: items =>
      have htext : stringArray (s :: t :: items) ++ '\n' :: rest =
          '[' :: '\n' :: (itemLines (s :: t :: items) ++ ']' :: '\n' :: rest) := by
        simp [stringArray, itemLines]
      have hlength := length_le_itemLines (s :: t :: items)
      rw [htext] at hfuel ⊢
      rw [readValue_bracket, readItems_itemLines, Option.map_some]
      simp only [List.length_cons, List.length_append] at hfuel hlength ⊢
      omega

end Toml
end PairAnnotation
