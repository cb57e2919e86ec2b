/-
# Words and the blanks between them

A text is read from the front: white space is passed over, and a word ends at the next
white space or with the text (`words_induction`).  Words put together again, with one
blank between any two of them, are *evenly spaced*: there is no white space at the ends,
none that is not the plain blank, and no two blanks stand together.  A text is the same
after its words have been put together exactly if it was evenly spaced before
(`spaced_eq_self_iff`).
-/

import Mathlib.Data.List.Chain
import Mathlib.Data.List.Pairwise
import Mathlib.Data.List.TakeWhile
import PairAnnotation.Text.Blank

namespace PairAnnotation
namespace Text

variable {w cs rest : List Char} {c : Char}

/-! ### Reading words -/

/-- A word: some characters, none of which is white space. -/
structure IsWord (w : List Char) : Prop where
  ne_nil : w ≠ []
  visible : ∀ c ∈ w, isBlank c = false

instance (w : List Char) : Decidable (IsWord w) :=
  decidable_of_iff (w ≠ [] ∧ w.all (!isBlank ·) = true)
    ⟨fun ⟨ne_nil, visible⟩ => ⟨ne_nil, by simpa using visible⟩,
      fun h => ⟨h.ne_nil, by simpa using h.visible⟩⟩

/-- Characters that are not white space go on the current word. -/
theorem wordsFrom_append (hw : ∀ c ∈ w, isBlank c = false) (word rest : List Char) :
    wordsFrom word (w ++ rest) = wordsFrom (w.reverse ++ word) rest := by
  induction w generalizing word with
  | nil => rfl
  | cons c w ih =>
    have hc : ¬ isBlank c = true := by simp [hw c]
    rw [List.cons_append, wordsFrom, if_neg hc, ih fun d hd => hw d (by simp [hd])]
    simp

theorem wordsFrom_blank (hc : isBlank c = true) : wordsFrom [] (c :: rest) = wordsFrom [] rest := by
  simp [wordsFrom, hc]

/-- A word that ends a text is its last one. -/
theorem wordsFrom_word (hw : IsWord w) : wordsFrom [] w = [w] := by
  have h := wordsFrom_append hw.visible [] []
  rw [List.append_nil, List.append_nil] at h
  simp [h, wordsFrom, hw.ne_nil]

/-- **A word ends at the white space behind it**, and the next one is looked for beyond that. -/
theorem wordsFrom_word_blank (hw : IsWord w) (hc : isBlank c = true) (rest : List Char) :
    wordsFrom [] (w ++ c :: rest) = w :: wordsFrom [] rest := by
  rw [wordsFrom_append hw.visible, List.append_nil]
  simp [wordsFrom, hc, hw.ne_nil]

/-- The word at the front of a text that does not begin with white space. -/
theorem isWord_takeWhile (hc : isBlank c = false) (rest : List Char) :
    IsWord ((c :: rest).takeWhile (!isBlank ·)) where
  ne_nil := by simp [hc]
  visible := fun d hd => by simpa using List.mem_takeWhile_imp hd

/-- **A text read from the front**: white space, a word with white space behind it, or a last
word. -/
theorem words_induction {P : List Char → Prop} (nil : P [])
    (blank : ∀ c rest, isBlank c = true → P rest → P (c :: rest))
    (last : ∀ w, IsWord w → P w)
    (more : ∀ w c rest, IsWord w → isBlank c = true → P rest → P (w ++ c :: rest))
    (cs : List Char) : P cs := by
  induction hn : cs.length using Nat.strong_induction_on generalizing cs with
  | _ n ih =>
    cases cs with
    | nil => exact nil
    | cons c rest =>
      cases hc : isBlank c with
      | true => exact blank c rest hc (ih rest.length (by simp [← hn]) rest rfl)
      | false =>
        -- The front word is a run of characters that are not white space.
        have hw := isWord_takeWhile hc rest
        have hsplit := List.takeWhile_append_dropWhile (p := (!isBlank ·)) (l := c :: rest)
        have hbehind := head?_dropWhile (p := (!isBlank ·)) (c :: rest)
        generalize (c :: rest).takeWhile (!isBlank ·) = w at hw hsplit
        generalize (c :: rest).dropWhile (!isBlank ·) = back at hsplit hbehind
        rw [← hsplit]
        cases back with
        | nil => simpa using last w hw
        | cons d back =>
          have hlength : back.length < n := by
            have := congrArg List.length hsplit
            simp at this hn
            omega
          exact more w d back hw (by simpa using hbehind d) (ih _ hlength back rfl)

/-- What a line is split into are words: none of them is empty, and none has white space in it. -/
theorem isWord_of_mem_wordsFrom (cs : List Char) : ∀ w ∈ wordsFrom [] cs, IsWord w := by
  induction cs using words_induction with
  | nil => simp [wordsFrom]
  | blank c rest hc ih =>
    rw [wordsFrom_blank hc]
    exact ih
  | last w hw =>
    rw [wordsFrom_word hw]
    simpa using hw
  | more w c rest hw hc ih =>
    rw [wordsFrom_word_blank hw hc]
    simpa using ⟨hw, ih⟩

/-- A line has no words exactly if it is white space throughout. -/
theorem wordsFrom_eq_nil_iff : wordsFrom [] cs = [] ↔ ∀ c ∈ cs, isBlank c = true := by
  induction cs using words_induction with
  | nil => simp [wordsFrom]
  | blank c rest hc ih => simp [wordsFrom_blank hc, hc, ih]
  | last w hw =>
    obtain ⟨c, hc⟩ := List.exists_mem_of_ne_nil w hw.ne_nil
    simp only [wordsFrom_word hw, List.cons_ne_nil, false_iff, not_forall]
    exact ⟨c, hc, by simp [hw.visible c hc]⟩
  | more w c rest hw hc _ =>
    obtain ⟨d, hd⟩ := List.exists_mem_of_ne_nil w hw.ne_nil
    simp only [wordsFrom_word_blank hw hc, List.cons_ne_nil, false_iff, not_forall]
    exact ⟨d, by simp [hd], by simp [hw.visible d hd]⟩

/-- White space at the end of a text makes no word. -/
theorem wordsFrom_append_blank (hc : isBlank c = true) (cs : List Char) :
    wordsFrom [] (cs ++ [c]) = wordsFrom [] cs := by
  induction cs using words_induction with
  | nil => exact wordsFrom_blank hc
  | blank d rest hd ih => rw [List.cons_append, wordsFrom_blank hd, ih, wordsFrom_blank hd]
  | last w hw => rw [wordsFrom_word_blank hw hc, wordsFrom_word hw]; rfl
  | more w d rest hw hd ih =>
    rw [List.append_assoc, List.cons_append, wordsFrom_word_blank hw hd, ih,
      wordsFrom_word_blank hw hd]

/-! ### Even spacing -/

/-- **A text is evenly spaced**: there is no white space at its ends, none but the plain blank, and
of two characters side by side one is no white space. -/
structure EvenlySpaced (cs : List Char) : Prop where
  front : ∀ c ∈ cs.head?, isBlank c = false
  back : ∀ c ∈ cs.getLast?, isBlank c = false
  plain : ∀ c ∈ cs, isBlank c = true → c = ' '
  apart : cs.IsChain fun c d => isBlank c = false ∨ isBlank d = false

instance (cs : List Char) : Decidable (EvenlySpaced cs) :=
  decidable_of_iff
    (cs.head?.toList.all (!isBlank ·) = true ∧ cs.getLast?.toList.all (!isBlank ·) = true ∧
      cs.all (fun c => !isBlank c || c = ' ') = true ∧
      cs.IsChain fun c d => isBlank c = false ∨ isBlank d = false)
    ⟨fun ⟨front, back, plain, apart⟩ =>
        ⟨by simpa using front, by simpa using back,
          fun c hc hblank => by simpa [hblank] using List.all_eq_true.1 plain c hc, apart⟩,
      fun ⟨front, back, plain, apart⟩ =>
        ⟨by simpa using front, by simpa using back,
          List.all_eq_true.2 fun c hc => by simpa [or_iff_not_imp_left] using plain c hc, apart⟩⟩

/-- A single word is evenly spaced, since there is nothing to space. -/
theorem IsWord.evenlySpaced (hw : IsWord w) : EvenlySpaced w where
  front c hc := hw.visible c (List.mem_of_mem_head? hc)
  back c hc := hw.visible c (List.mem_of_mem_getLast? hc)
  plain c hc hblank := by simp [hw.visible c hc] at hblank
  apart := (List.pairwise_of_forall_mem_list fun c hc _ _ => .inl (hw.visible c hc)).isChain

/-- **A word, one blank, and what is evenly spaced behind it**, are evenly spaced; nothing else with
a word at its front and white space behind it is. -/
theorem evenlySpaced_word_blank_iff (hw : IsWord w) (hc : isBlank c = true) :
    EvenlySpaced (w ++ c :: rest) ↔ c = ' ' ∧ rest ≠ [] ∧ EvenlySpaced rest := by
  have hword := hw.evenlySpaced
  constructor
  · intro h
    obtain ⟨-, hchain, -⟩ := List.isChain_append.1 h.apart
    have hne : rest ≠ [] := by
      rintro rfl
      have := h.back c (by simp)
      simp [hc] at this
    refine ⟨h.plain c (by simp) hc, hne, ?_, ?_, ?_, hchain.tail⟩
    · intro d hd
      obtain ⟨back, rfl⟩ := List.head?_eq_some_iff.1 hd
      simpa [hc] using (List.isChain_cons_cons.1 hchain).1
    · intro d hd
      refine h.back d ?_
      obtain ⟨e, back, rfl⟩ := List.exists_cons_of_ne_nil hne
      simpa [List.getLast?_append_cons] using hd
    · exact fun d hd => h.plain d (by simp [hd])
  · rintro ⟨rfl, hne, h⟩
    obtain ⟨e, back, rfl⟩ := List.exists_cons_of_ne_nil hne
    refine ⟨?_, ?_, ?_, ?_⟩
    · intro d hd
      obtain ⟨a, front, rfl⟩ := List.exists_cons_of_ne_nil hw.ne_nil
      exact hword.front d (by simpa using hd)
    · intro d hd
      exact h.back d (by simpa [List.getLast?_append_cons] using hd)
    · intro d hd hblank
      rcases List.mem_append.1 hd with hd | hd
      · exact hword.plain d hd hblank
      · rcases List.mem_cons.1 hd with rfl | hd
        · rfl
        · exact h.plain d hd hblank
    · refine List.isChain_append.2 ⟨hword.apart, List.isChain_cons_cons.2 ⟨?_, h.apart⟩, ?_⟩
      · exact .inr (h.front e rfl)
      · exact fun d hd _ _ => .inl (hword.back d hd)

/-- Words with blanks in between are something, if there is a word. -/
theorem intercalate_ne_nil {ws : List (List Char)} (hw : IsWord w) :
    [' '].intercalate (w :: ws) ≠ [] := by
  cases ws with
  | nil => simpa using hw.ne_nil
  | cons v ws => simp

/-- Words put together with one blank between any two of them are evenly spaced. -/
theorem evenlySpaced_intercalate {ws : List (List Char)} (hws : ∀ w ∈ ws, IsWord w) :
    EvenlySpaced ([' '].intercalate ws) := by
  induction ws with
  | nil => exact ⟨by simp, by simp, by simp, .nil⟩
  | cons w ws ih =>
    have hw := hws w (by simp)
    have hspaced := ih fun v hv => hws v (by simp [hv])
    cases ws with
    | nil => simpa using hw.evenlySpaced
    | cons v ws =>
      rw [List.intercalate_cons_cons, List.append_assoc]
      exact (evenlySpaced_word_blank_iff hw (by decide)).2
        ⟨rfl, intercalate_ne_nil (hws v (by simp)), hspaced⟩

/-- **An evenly spaced line is its words with single blanks between them**, so nothing is lost when
it is split and put together. -/
theorem EvenlySpaced.intercalate_wordsFrom (h : EvenlySpaced cs) :
    [' '].intercalate (wordsFrom [] cs) = cs := by
  induction cs using words_induction with
  | nil => rfl
  | blank c rest hc _ =>
    have := h.front c rfl
    rw [hc] at this
    cases this
  | last w hw => rw [wordsFrom_word hw, List.intercalate_singleton]
  | more w c rest hw hc ih =>
    obtain ⟨rfl, hne, hrest⟩ := (evenlySpaced_word_blank_iff hw hc).1 h
    have hrest := ih hrest
    have hwords : wordsFrom [] rest ≠ [] := by
      intro hnone
      rw [hnone] at hrest
      exact hne hrest.symm
    rw [wordsFrom_word_blank hw hc, List.intercalate_cons_of_ne_nil hwords, hrest]
    simp

/-! ### Lines -/

/-- The words of a text with one blank between any two of them. -/
def spaced (text : String) : String := " ".intercalate (words text)

/-- A text that is spaced evenly is made of its words, with a single blank between two of them. -/
theorem toList_spaced (text : String) :
    (spaced text).toList = [' '].intercalate (wordsFrom [] text.toList) := by
  rw [spaced, words, String.toList_intercalate, List.map_map]
  simp [Function.comp_def]

/-- **Putting the words of a text together gives the text exactly if it is evenly spaced.** -/
theorem spaced_eq_self_iff {text : String} : spaced text = text ↔ EvenlySpaced text.toList := by
  rw [← String.toList_inj, toList_spaced]
  constructor
  · intro h
    rw [← h]
    exact evenlySpaced_intercalate (isWord_of_mem_wordsFrom text.toList)
  · exact EvenlySpaced.intercalate_wordsFrom

/-- A text has no words exactly if there is nothing but white space in it. -/
theorem words_eq_nil_iff {text : String} : words text = [] ↔ isAllBlank text = true := by
  rw [words, List.map_eq_nil_iff, wordsFrom_eq_nil_iff, isAllBlank, List.all_eq_true]

/-- The words of a text behind a word and a blank. -/
theorem words_append {word : String} (hw : IsWord word.toList) (text : String) :
    words (word ++ " " ++ text) = word :: words text := by
  have h := wordsFrom_word_blank hw (c := ' ') (by decide) text.toList
  rw [words, words, String.toList_append, String.toList_append, List.append_assoc]
  simp [h]

end Text
end PairAnnotation
