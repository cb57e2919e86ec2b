/-
# Where sentences end

Marks that end a sentence are terminal punctuation and then closing quotes and brackets
(`IsMarks`), and they end one where white space follows (`EndsAtHead`).  Stops, closers
and white space are different characters, so marks and all the white space behind them
(`IsEnding`) can be read off a text in one way only, and `ending?` finds them where they
are (`ending?_eq_some_iff`, `ending?_ne_none_iff`).

A text is cut in pieces (`Cut`): each one but the last is a stretch in which no sentence
ends, the marks behind it, and white space that belongs to no piece.  This is what the
loop does (`cut_pieces`).  It passes over a run of stops at once when no sentence ends
there, which is right since none ends behind the first of them either.
-/

import Mathlib.Data.List.TakeWhile
import PairAnnotation.Text.Sentence

namespace PairAnnotation
namespace Text

variable {cs body after front back marks blanks rest : List Char} {c : Char}

/-! ### Three kinds of characters -/

theorem isStop_iff : isStop c = true ↔ c = '.' ∨ c = '!' ∨ c = '?' := by
  simp [isStop, or_assoc]

/-- The four marks that may close a quotation or a bracket behind a stop. -/
theorem isCloser_iff : isCloser c = true ↔ c = '"' ∨ c = '\'' ∨ c = ')' ∨ c = ']' := by
  simp [isCloser, or_assoc]

/-- A stop is no white space, so marks and the white space behind them do not run together. -/
theorem isBlank_of_isStop (h : isStop c = true) : isBlank c = false := by
  rcases isStop_iff.1 h with rfl | rfl | rfl <;> decide

theorem isBlank_of_isCloser (h : isCloser c = true) : isBlank c = false := by
  rcases isCloser_iff.1 h with rfl | rfl | rfl | rfl <;> decide

/-- No mark is both a stop and a closing one, so marks fall into two parts in one way only. -/
theorem isStop_of_isCloser (h : isCloser c = true) : isStop c = false := by
  rcases isCloser_iff.1 h with rfl | rfl | rfl | rfl <;> decide

/-- White space is no stop: where white space begins, the stops are over. -/
theorem isStop_of_isBlank (h : isBlank c = true) : isStop c = false := by
  by_contra hstop
  rw [isBlank_of_isStop (by simpa using hstop)] at h
  cases h

/-- White space is no closing mark: where it begins, the marks are over. -/
theorem isCloser_of_isBlank (h : isBlank c = true) : isCloser c = false := by
  by_contra hcloser
  rw [isBlank_of_isCloser (by simpa using hcloser)] at h
  cases h

/-! ### Marks -/

/-- **The marks of an ending**: terminal punctuation, then closing quotes and brackets. -/
def IsMarks (marks : List Char) : Prop :=
  ∃ stops closers, marks = stops ++ closers ∧ stops ≠ [] ∧ (∀ c ∈ stops, isStop c = true) ∧
    ∀ c ∈ closers, isCloser c = true

/-- **A sentence ends at the head of a text**: there are marks, and white space after them. -/
def EndsAtHead (cs : List Char) : Prop :=
  ∃ marks blank back, cs = marks ++ blank :: back ∧ IsMarks marks ∧ isBlank blank = true

/-- **An ending is found**: there are marks, and behind them white space, all of it. -/
structure IsEnding (marks blanks rest : List Char) : Prop where
  isMarks : IsMarks marks
  ne_nil : blanks ≠ []
  blank : ∀ c ∈ blanks, isBlank c = true
  behind : ∀ c ∈ rest.head?, isBlank c = false

/-- A sentence ends somewhere in a text, with anything before and behind its ending. -/
def HasEnding (cs : List Char) : Prop := ∃ front back, cs = front ++ back ∧ EndsAtHead back

namespace IsMarks

theorem ne_nil (h : IsMarks marks) : marks ≠ [] := by
  obtain ⟨stops, closers, rfl, hne, -⟩ := h
  simp [hne]

/-- None of the marks is white space, so they end where the white space behind them begins. -/
theorem isBlank_eq_false (h : IsMarks marks) : ∀ c ∈ marks, isBlank c = false := by
  obtain ⟨stops, closers, rfl, -, hstops, hclosers⟩ := h
  intro c hc
  rcases List.mem_append.1 hc with hc | hc
  · exact isBlank_of_isStop (hstops c hc)
  · exact isBlank_of_isCloser (hclosers c hc)

/-- Marks begin with a stop, since closing marks stand behind stops only. -/
theorem isStop_head (h : IsMarks (c :: marks)) : isStop c = true := by
  obtain ⟨stops, closers, hsplit, hne, hstops, -⟩ := h
  obtain ⟨c', stops, rfl⟩ := List.exists_cons_of_ne_nil hne
  obtain rfl : c = c' := (List.cons.inj hsplit).1
  exact hstops c (by simp)

/-- Stops before marks are part of them, so marks may be found from any of their stops on. -/
theorem append_stops (hfront : ∀ c ∈ front, isStop c = true) (h : IsMarks marks) :
    IsMarks (front ++ marks) := by
  obtain ⟨stops, closers, rfl, hne, hstops, hclosers⟩ := h
  refine ⟨front ++ stops, closers, by simp, by simp [hne], ?_, hclosers⟩
  intro c hc
  rcases List.mem_append.1 hc with hc | hc
  · exact hfront c hc
  · exact hstops c hc

end IsMarks

namespace EndsAtHead

/-- Where a sentence ends at the head of a text, the text begins with a stop. -/
theorem isStop_head (h : EndsAtHead (c :: cs)) : isStop c = true := by
  obtain ⟨marks, blank, back, hsplit, hmarks, -⟩ := h
  obtain ⟨c', marks, rfl⟩ := List.exists_cons_of_ne_nil hmarks.ne_nil
  obtain rfl : c = c' := (List.cons.inj hsplit).1
  exact hmarks.isStop_head

/-- Stops before the marks of an ending are marks of it as well, so it ends there already. -/
theorem append_stops (hfront : ∀ c ∈ front, isStop c = true) (h : EndsAtHead cs) :
    EndsAtHead (front ++ cs) := by
  obtain ⟨marks, blank, back, rfl, hmarks, hblank⟩ := h
  exact ⟨front ++ marks, blank, back, by simp, hmarks.append_stops hfront, hblank⟩

/-- What comes behind an ending does not undo it, be it white space, a further mark or a letter. -/
theorem append (h : EndsAtHead cs) (after : List Char) : EndsAtHead (cs ++ after) := by
  obtain ⟨marks, blank, back, rfl, hmarks, hblank⟩ := h
  exact ⟨marks, blank, back ++ after, by simp, hmarks, hblank⟩

/-- An ending takes white space, so a text without any has none. -/
theorem exists_isBlank (h : EndsAtHead cs) : ∃ c ∈ cs, isBlank c = true := by
  obtain ⟨marks, blank, back, rfl, -, hblank⟩ := h
  exact ⟨blank, by simp, hblank⟩

end EndsAtHead

/-- Where the search finds marks with white space behind them, a sentence ends at their head. -/
theorem IsEnding.endsAtHead (h : IsEnding marks blanks rest) :
    EndsAtHead (marks ++ (blanks ++ rest)) := by
  obtain ⟨blank, more, rfl⟩ := List.exists_cons_of_ne_nil h.ne_nil
  exact ⟨marks, blank, more ++ rest, rfl, h.isMarks, h.blank blank (by simp)⟩

/-- An ending in a part of a text is an ending in the whole text. -/
theorem HasEnding.append (h : HasEnding cs) (before after : List Char) :
    HasEnding (before ++ (cs ++ after)) := by
  obtain ⟨front, back, rfl, hback⟩ := h
  exact ⟨before ++ front, back ++ after, by simp, hback.append after⟩

/-! ### Reading them off -/

/-- **The search finds what is an ending**, with as many marks and as much white space as there
are. -/
theorem ending?_of_isEnding (h : IsEnding marks blanks rest) :
    ending? (marks ++ (blanks ++ rest)) = some ⟨marks.length, blanks.length⟩ := by
  obtain ⟨⟨stops, closers, rfl, hstops, hstop, hcloser⟩, hne, hblanks, hrest⟩ := h
  obtain ⟨blank, more, hblank⟩ := List.exists_cons_of_ne_nil hne
  have hhead : isBlank blank = true := hblanks blank (by simp [hblank])
  have hafterClosers : ∀ c ∈ (blanks ++ rest).head?, isCloser c = false := by
    rw [hblank]
    rintro c ⟨⟩
    exact isCloser_of_isBlank hhead
  have hafterStops : ∀ c ∈ (closers ++ (blanks ++ rest)).head?, isStop c = false := by
    intro c hc
    cases closers with
    | nil =>
      rw [hblank] at hc
      obtain rfl := Option.some.inj hc
      exact isStop_of_isBlank hhead
    | cons c' closers =>
      obtain rfl := Option.some.inj hc
      exact isStop_of_isCloser (hcloser c' (by simp))
  obtain ⟨hstops₁, hstops₂⟩ := takeWhile_append_of_head? hstop hafterStops
  obtain ⟨hclosers₁, hclosers₂⟩ := takeWhile_append_of_head? hcloser hafterClosers
  obtain ⟨hblanks₁, -⟩ := takeWhile_append_of_head? hblanks hrest
  rw [List.append_assoc]
  simp [ending?, hstops₁, hstops₂, hclosers₁, hclosers₂, hblanks₁, hstops, hne]

/-- **What is found at the head of a text** are marks and all the white space behind them. -/
theorem ending?_eq_some_iff {e : Ending} :
    ending? cs = some e ↔ ∃ marks blanks rest, cs = marks ++ (blanks ++ rest) ∧
      IsEnding marks blanks rest ∧ e = ⟨marks.length, blanks.length⟩ := by
  constructor
  · intro h
    simp only [ending?] at h
    split at h
    · cases h
    · rename_i hne
      obtain ⟨hstops, hblanks⟩ := not_or.1 hne
      obtain rfl := Option.some.inj h
      have hmarks : IsMarks (cs.takeWhile isStop ++ (cs.dropWhile isStop).takeWhile isCloser) :=
        ⟨_, _, rfl, hstops, fun c => List.mem_takeWhile_imp, fun c => List.mem_takeWhile_imp⟩
      refine ⟨_, _, ((cs.dropWhile isStop).dropWhile isCloser).dropWhile isBlank, ?_,
        ⟨hmarks, hblanks, fun c => List.mem_takeWhile_imp, head?_dropWhile _⟩, by simp⟩
      rw [List.append_assoc, List.takeWhile_append_dropWhile, List.takeWhile_append_dropWhile,
        List.takeWhile_append_dropWhile]
  · rintro ⟨marks, blanks, rest, rfl, hending, rfl⟩
    exact ending?_of_isEnding hending

/-- **An ending is found where a sentence ends**, and nowhere else: the search misses none and makes
none up. -/
theorem ending?_ne_none_iff : ending? cs ≠ none ↔ EndsAtHead cs := by
  constructor
  · intro h
    obtain ⟨e, he⟩ := Option.ne_none_iff_exists'.1 h
    obtain ⟨marks, blanks, rest, rfl, hending, -⟩ := ending?_eq_some_iff.1 he
    exact hending.endsAtHead
  · rintro ⟨marks, blank, back, rfl, hmarks, hblank⟩
    have hsplit : blank :: back = (blank :: back).takeWhile isBlank ++
        (blank :: back).dropWhile isBlank := List.takeWhile_append_dropWhile.symm
    have hending : IsEnding marks ((blank :: back).takeWhile isBlank)
        ((blank :: back).dropWhile isBlank) :=
      ⟨hmarks, by simp [hblank], fun c => List.mem_takeWhile_imp, head?_dropWhile _⟩
    rw [hsplit, ending?_of_isEnding hending]
    exact Option.some_ne_none _

/-- **An ending is read in one way**: its marks end with the first white space, and its white space
ends with the first other character. -/
theorem IsEnding.unique {marks' blanks' rest' : List Char} (h : IsEnding marks blanks rest)
    (h' : IsEnding marks' blanks' rest')
    (heq : marks ++ (blanks ++ rest) = marks' ++ (blanks' ++ rest')) :
    marks = marks' ∧ blanks = blanks' ∧ rest = rest' := by
  have hlengths := (ending?_of_isEnding h).symm.trans (heq ▸ ending?_of_isEnding h')
  obtain ⟨hmarks, hblanks⟩ := Ending.mk.inj (Option.some.inj hlengths)
  obtain ⟨rfl, hbehind⟩ := List.append_inj heq hmarks
  exact ⟨rfl, List.append_inj hbehind hblanks⟩

/-! ### Pieces -/

/-- **No sentence ends from `body` on**: none has its marks begin there, with `after` behind. -/
def EndsNowhere (body after : List Char) : Prop :=
  ∀ front back, body = front ++ back → back ≠ [] → ¬EndsAtHead (back ++ after)

namespace EndsNowhere

/-- In nothing no sentence ends, whatever stands behind it, since its marks would have to begin
there. -/
theorem nil (after : List Char) : EndsNowhere [] after := by
  intro front back hsplit hne
  exact absurd (List.append_eq_nil_iff.1 hsplit.symm).2 hne

/-- Where no sentence ends in either of two parts that follow each other, none ends in both
together. -/
theorem append (h : EndsNowhere body (front ++ after)) (h' : EndsNowhere front after) :
    EndsNowhere (body ++ front) after := by
  intro before back hsplit hne
  rcases List.append_eq_append_iff.1 hsplit with ⟨middle, rfl, hfront⟩ | ⟨middle, rfl, rfl⟩
  · exact h' middle back hfront hne
  · cases middle with
    | nil => exact h' [] front rfl hne
    | cons c middle =>
      rw [List.append_assoc]
      exact h before (c :: middle) rfl (by simp)

/-- A single character in which no sentence ends is a part of a text in which none ends. -/
theorem singleton (h : ¬EndsAtHead ([c] ++ after)) : EndsNowhere [c] after := by
  intro front back hsplit hne
  rcases List.singleton_eq_append_iff.1 hsplit with ⟨-, rfl⟩ | ⟨-, rfl⟩
  · exact h
  · exact absurd rfl hne

/-- None ends in a run of stops if none ends at the first of them. -/
theorem of_stops (hbody : ∀ c ∈ body, isStop c = true) (h : ¬EndsAtHead (body ++ after)) :
    EndsNowhere body after := by
  rintro front back rfl - hends
  refine h ?_
  rw [List.append_assoc]
  exact hends.append_stops fun c hc => hbody c (by simp [hc])

/-- **Where the next sentence ends** is found in one way. -/
theorem unique {body' after' : List Char} (h : EndsNowhere body after) (hends : EndsAtHead after)
    (h' : EndsNowhere body' after') (hends' : EndsAtHead after')
    (heq : body ++ after = body' ++ after') : body = body' ∧ after = after' := by
  rcases List.append_eq_append_iff.1 heq with ⟨middle, rfl, rfl⟩ | ⟨middle, rfl, rfl⟩
  · cases middle with
    | nil => simp
    | cons c middle => exact absurd hends (h' body (c :: middle) rfl (by simp))
  · cases middle with
    | nil => simp
    | cons c middle => exact absurd hends' (h body' (c :: middle) rfl (by simp))

/-- A text in which no sentence ends from any place on has no ending. -/
theorem not_hasEnding (h : EndsNowhere cs []) : ¬HasEnding cs := by
  rintro ⟨front, back, rfl, hends⟩
  cases back with
  | nil =>
    obtain ⟨c, hc, -⟩ := hends.exists_isBlank
    cases hc
  | cons c back => exact h front (c :: back) rfl (by simp) (by simpa using hends)

/-- A stretch in which no sentence ends, with the marks behind it. -/
theorem not_hasEnding_marks (h : EndsNowhere body (marks ++ after)) (hmarks : IsMarks marks) :
    ¬HasEnding (body ++ marks) := by
  rintro ⟨front, back, hsplit, hends⟩
  -- White space would have to be among the marks.
  have hinside : ∀ middle, marks = middle ++ back → False := by
    rintro middle rfl
    obtain ⟨c, hc, hblank⟩ := hends.exists_isBlank
    rw [hmarks.isBlank_eq_false c (by simp [hc])] at hblank
    cases hblank
  rcases List.append_eq_append_iff.1 hsplit with ⟨middle, rfl, hback⟩ | ⟨middle, rfl, rfl⟩
  · exact hinside middle hback
  · cases middle with
    | nil => exact hinside [] rfl
    | cons c middle =>
      refine h front (c :: middle) rfl (by simp) ?_
      rw [← List.append_assoc]
      exact hends.append after

end EndsNowhere

/-- **A text in pieces**, behind the characters `before`: stretches in which no sentence ends, each
with marks and white space behind it, and one with nothing behind it. -/
inductive Cut : List Char → List Char → List Span → Prop where
  | nil (before : List Char) : Cut before [] []
  | last {before cs : List Char} (hne : cs ≠ []) (hcs : EndsNowhere cs []) :
    Cut before cs [⟨before.length, (before ++ cs).length⟩]
  | cons {before body marks blanks rest : List Char} {spans : List Span}
    (hbody : EndsNowhere body (marks ++ (blanks ++ rest))) (hending : IsEnding marks blanks rest)
    (hspans : Cut (before ++ (body ++ (marks ++ blanks))) rest spans) :
    Cut before (body ++ (marks ++ (blanks ++ rest)))
      (⟨before.length, (before ++ (body ++ marks)).length⟩ :: spans)

/-- **The loop cuts a text in pieces**: `body` is what the current piece has so far. -/
theorem cut_pieces_append {start position : Nat} (before body : List Char)
    (hstart : before.length = start) (hposition : (before ++ body).length = position)
    (hbody : EndsNowhere body cs) : Cut before (body ++ cs) (pieces start position cs) := by
  fun_induction pieces start position cs generalizing before body with
  | case1 start position hsome =>
    -- The text is over, and there is a piece.
    subst hstart hposition
    have hne : body ≠ [] := by
      rintro rfl
      simp at hsome
    rw [List.append_nil]
    exact .last hne hbody
  | case2 start position hnone =>
    subst hstart hposition
    obtain rfl : body = [] := by
      rw [List.length_append, Nat.lt_add_right_iff_pos, Nat.not_lt, Nat.le_zero] at hnone
      exact List.length_eq_zero_iff.1 hnone
    exact .nil before
  | case3 start position c tail e hfound ih =>
    -- A sentence ends here.
    subst hstart hposition
    obtain ⟨marks, blanks, rest, hsplit, hending, rfl⟩ := ending?_eq_some_iff.1 hfound
    have hdrop : (c :: tail).drop (marks.length + blanks.length) = rest := by
      rw [hsplit, ← List.append_assoc, ← List.length_append, List.drop_left]
    have hstop : (before ++ body).length + marks.length = (before ++ (body ++ marks)).length := by
      simp [Nat.add_assoc]
    have hlength : (before ++ (body ++ (marks ++ blanks))).length =
        (before ++ (body ++ marks)).length + blanks.length := by
      simp [Nat.add_assoc]
    simp only [hdrop, hstop] at ih ⊢
    rw [hsplit] at hbody ⊢
    exact .cons hbody hending (ih _ [] hlength (by rw [List.append_nil, hlength])
      (.nil rest))
  | case4 start position c tail hnone hstop stops ih =>
    -- A run of stops, and no sentence ends at its head.
    subst hstart hposition
    have htail : tail.takeWhile isStop ++ tail.drop stops = tail :=
      List.prefix_iff_eq_append.1 (List.takeWhile_prefix isStop)
    have hrun : ∀ c' ∈ c :: tail.takeWhile isStop, isStop c' = true := by
      rintro c' (_ | ⟨_, hc'⟩)
      · exact hstop
      · exact List.mem_takeWhile_imp hc'
    have hsplit : c :: tail = c :: tail.takeWhile isStop ++ tail.drop stops := by
      rw [List.cons_append, htail]
    have hnot : ¬EndsAtHead (c :: tail) := fun h => ending?_ne_none_iff.2 h hnone
    rw [hsplit] at hbody hnot
    have h := ih before (body ++ c :: tail.takeWhile isStop) rfl (by simp [stops]; omega)
      (hbody.append (.of_stops hrun hnot))
    rwa [List.append_assoc, ← hsplit] at h
  | case5 start position c tail hnone hstop ih =>
    subst hstart hposition
    have hnot : ¬EndsAtHead ([c] ++ tail) := fun h => hstop h.isStop_head
    have h := ih before (body ++ [c]) rfl (by simp [Nat.add_assoc])
      (hbody.append (.singleton hnot))
    rwa [List.append_assoc] at h

/-- **The whole text is cut in pieces**: the loop begins with nothing before it and nothing in the
current piece. -/
theorem cut_pieces (cs : List Char) : Cut [] cs (pieces 0 0 cs) :=
  cut_pieces_append [] [] rfl rfl (.nil cs)

end Text
end PairAnnotation
