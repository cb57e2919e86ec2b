/-
# The sentences of a text

A sentence begins and ends with a character that can be seen, and no sentence ends in it
(`IsSentence`).  A text is laid out in sentences (`Laid`) when there is white space before
and between them and behind the last one, and each but the last ends with marks.  Pieces
that are trimmed give such a layout (`Cut.laid`).

What a layout says is told by offsets: where the spans lie (`Laid.exists_sentence`), that
they come one after the other (`Laid.pairwise`) and leave out white space only
(`Laid.exists_covering`), and how each but the last ends (`Laid.ended`).
-/

import Mathlib.Data.List.DropRight
import PairAnnotation.Proofs.Text.Endings

namespace PairAnnotation
namespace Text

variable {before cs lead trail front back marks s : List Char} {spans : List Span} {span : Span}

/-! ### White space at both ends -/

/-- **A text that can be seen at both ends**: it is not empty, and neither its first nor its last
character is white space. -/
structure IsVisible (s : List Char) : Prop where
  ne_nil : s ≠ []
  first : ∀ c ∈ s.head?, isBlank c = false
  last : ∀ c ∈ s.getLast?, isBlank c = false

/-- White space behind a text is cut off, all of it, if the text does not end with white space
itself. -/
theorem trimEnd_append (htrail : ∀ c ∈ trail, isBlank c = true)
    (hlast : ∀ c ∈ s.getLast?, isBlank c = false) : trimEnd (s ++ trail) = s := by
  have htrail' : ∀ c ∈ trail.reverse, isBlank c = true := by simpa using htrail
  have hlast' : ∀ c ∈ s.reverse.head?, isBlank c = false := by simpa using hlast
  rw [trimEnd, List.reverse_append, (takeWhile_append_of_head? htrail' hlast').2,
    List.reverse_reverse]

/-- What begins with a character that is seen begins with it whatever is put behind. -/
theorem IsVisible.head?_append (h : IsVisible s) (back : List Char) :
    ∀ c ∈ (s ++ back).head?, isBlank c = false := by
  obtain ⟨c, s, rfl⟩ := List.exists_cons_of_ne_nil h.ne_nil
  exact h.first

/-- **What is left when a text is trimmed**: the part that can be seen at both ends, without the
white space around it. -/
theorem trim_of_isVisible (hlead : ∀ c ∈ lead, isBlank c = true)
    (htrail : ∀ c ∈ trail, isBlank c = true) (h : IsVisible s) :
    trim (lead ++ (s ++ trail)) = s := by
  rw [trim, trimStart, (takeWhile_append_of_head? hlead (h.head?_append trail)).2,
    trimEnd_append htrail h.last]

/-- Nothing is left of a text that is white space throughout. -/
theorem trim_of_blank (h : ∀ c ∈ cs, isBlank c = true) : trim cs = [] := by
  rw [trim, trimStart, List.dropWhile_eq_nil_iff.2 h]
  rfl

/-- A text is white space alone, or there is something to be seen in it. -/
theorem blank_or_exists_isVisible (cs : List Char) :
    (∀ c ∈ cs, isBlank c = true) ∨
      ∃ lead s trail, cs = lead ++ (s ++ trail) ∧ (∀ c ∈ lead, isBlank c = true) ∧
        (∀ c ∈ trail, isBlank c = true) ∧ IsVisible s := by
  by_cases hblank : ∀ c ∈ cs, isBlank c = true
  · exact .inl hblank
  · obtain ⟨c, rest, hrest⟩ := List.exists_cons_of_ne_nil fun h =>
      hblank (List.dropWhile_eq_nil_iff.1 h)
    have hc : isBlank c = false := head?_dropWhile cs c (by rw [hrest]; rfl)
    have hsplit : (c :: rest).rdropWhile isBlank ++ (c :: rest).rtakeWhile isBlank = c :: rest :=
      List.rdropWhile_append_rtakeWhile
    have hne : (c :: rest).rdropWhile isBlank ≠ [] := by
      intro h
      rw [List.rdropWhile_eq_nil_iff.1 h c (by simp)] at hc
      cases hc
    refine .inr ⟨cs.takeWhile isBlank, (c :: rest).rdropWhile isBlank,
      (c :: rest).rtakeWhile isBlank, ?_, fun c => List.mem_takeWhile_imp,
      fun c => List.mem_rtakeWhile_imp, hne, ?_, ?_⟩
    · rw [hsplit, ← hrest, List.takeWhile_append_dropWhile]
    · intro c' hc'
      rw [← List.head?_append_of_ne_nil _ hne, hsplit] at hc'
      obtain rfl := Option.some.inj hc'
      exact hc
    · intro c' hc'
      obtain ⟨h, rfl⟩ := List.mem_getLast?_eq_getLast hc'
      simpa using List.rdropWhile_last_not isBlank _ h

/-! ### Pieces and sentences -/

/-- The characters between two offsets, when the text is known to be laid out around them. -/
theorem take_drop_append (front cs back : List Char) :
    ((front ++ cs ++ back).drop front.length).take ((front ++ cs).length - front.length) = cs := by
  rw [List.append_assoc, List.drop_left, List.length_append, Nat.add_sub_cancel_left,
    List.take_left]

/-- **What is left of a piece**: it begins behind `front` with white space, then comes what can be
seen of it. -/
theorem trimPiece_of_isVisible (front back : List Char) (hlead : ∀ c ∈ lead, isBlank c = true)
    (htrail : ∀ c ∈ trail, isBlank c = true) (h : IsVisible s) :
    trimPiece (front ++ (lead ++ (s ++ trail)) ++ back)
        ⟨front.length, (front ++ (lead ++ (s ++ trail))).length⟩ =
      some ⟨(front ++ lead).length, (front ++ (lead ++ s)).length⟩ := by
  have hleading := (takeWhile_append_of_head? hlead (h.head?_append trail)).1
  have hlength : s.length ≠ 0 := fun h0 => h.ne_nil (List.length_eq_zero_iff.1 h0)
  rw [trimPiece]
  simp only [take_drop_append, hleading, trim_of_isVisible hlead htrail h, hlength, if_false]
  simp [Nat.add_assoc]

/-- A piece that is white space throughout is no sentence, and it gets no span. -/
theorem trimPiece_of_blank (front back : List Char) (h : ∀ c ∈ cs, isBlank c = true) :
    trimPiece (front ++ cs ++ back) ⟨front.length, (front ++ cs).length⟩ = none := by
  rw [trimPiece]
  simp only [take_drop_append, trim_of_blank h, List.length_nil, if_pos]

/-- **A sentence**: both its ends can be seen, and no sentence ends before its last character. -/
structure IsSentence (s : List Char) : Prop extends IsVisible s where
  unbroken : ¬HasEnding s

/-- A text ends with marks, whatever stands in front of them. -/
def EndsMarked (s : List Char) : Prop := ∃ front marks, s = front ++ marks ∧ IsMarks marks

/-- **A text laid out in sentences**, behind the characters `before`: there is white space before
and between them and behind the last one, and each but the last ends with marks and is followed by
white space. -/
inductive Laid : List Char → List Char → List Span → Prop where
  | blank {before cs : List Char} (h : ∀ c ∈ cs, isBlank c = true) : Laid before cs []
  | sentence {before lead s rest : List Char} {spans : List Span}
    (hlead : ∀ c ∈ lead, isBlank c = true) (hsentence : IsSentence s)
    (hended : spans ≠ [] → EndsMarked s ∧ ∃ c back, rest = c :: back ∧ isBlank c = true)
    (hrest : Laid (before ++ (lead ++ s)) rest spans) :
    Laid before (lead ++ (s ++ rest))
      (⟨(before ++ lead).length, (before ++ (lead ++ s)).length⟩ :: spans)

/-- White space before a layout belongs to it, since no sentence begins with white space. -/
theorem Laid.blanks_append {rest blanks : List Char} (hblanks : ∀ c ∈ blanks, isBlank c = true)
    (h : Laid (before ++ blanks) rest spans) : Laid before (blanks ++ rest) spans := by
  cases h with
  | blank h =>
    refine .blank fun c hc => ?_
    rcases List.mem_append.1 hc with hc | hc
    · exact hblanks c hc
    · exact h c hc
  | @sentence _ lead s rest spans hlead hsentence hended hrest =>
    have hlead' : ∀ c ∈ blanks ++ lead, isBlank c = true := by
      intro c hc
      rcases List.mem_append.1 hc with hc | hc
      · exact hblanks c hc
      · exact hlead c hc
    have hlaid : Laid before (blanks ++ lead ++ (s ++ rest)) _ :=
      .sentence hlead' hsentence hended (by simpa using hrest)
    simpa using hlaid

/-- A stretch with marks behind it can be seen at its end, and a sentence is left of it. -/
theorem isSentence_of_marks {body after : List Char} (hbody : EndsNowhere body (marks ++ after))
    (hmarks : IsMarks marks) : IsSentence (body.dropWhile isBlank ++ marks) where
  ne_nil := by simp [hmarks.ne_nil]
  first := by
    intro c hc
    cases hrest : body.dropWhile isBlank with
    | nil =>
      rw [hrest] at hc
      exact hmarks.isBlank_eq_false c (List.mem_of_head? hc)
    | cons c' rest =>
      rw [hrest] at hc
      exact head?_dropWhile body c (by rw [hrest]; exact hc)
  last := by
    intro c hc
    rw [List.getLast?_append_of_ne_nil _ hmarks.ne_nil] at hc
    exact hmarks.isBlank_eq_false c (List.mem_of_getLast? hc)
  unbroken := by
    intro h
    refine hbody.not_hasEnding_marks hmarks ?_
    have hsplit : body ++ marks = body.takeWhile isBlank ++ (body.dropWhile isBlank ++ marks) := by
      rw [← List.append_assoc, List.takeWhile_append_dropWhile]
    rw [hsplit]
    simpa using h.append (body.takeWhile isBlank) []

/-- **Pieces that are trimmed lay the text out in sentences.** -/
theorem Cut.laid (h : Cut before cs spans) :
    Laid before cs (spans.filterMap (trimPiece (before ++ cs))) := by
  induction h with
  | nil before => exact .blank (by simp)
  | @last before cs hne hcs =>
    rcases blank_or_exists_isVisible cs with hblank | ⟨lead, s, trail, rfl, hlead, htrail, hs⟩
    · have hnone := trimPiece_of_blank before [] hblank
      rw [List.append_nil] at hnone
      rw [List.filterMap_cons_none hnone]
      exact .blank hblank
    · have hsome := trimPiece_of_isVisible before [] hlead htrail hs
      rw [List.append_nil] at hsome
      rw [List.filterMap_cons_some hsome]
      refine .sentence hlead ⟨hs, fun h => ?_⟩ (fun h => absurd rfl h) (.blank htrail)
      exact hcs.not_hasEnding (h.append lead trail)
  | @cons before body marks blanks rest spans hbody hending hspans ih =>
    obtain ⟨lead, visible, rfl, hlead, hsentence⟩ : ∃ lead visible, body = lead ++ visible ∧
        (∀ c ∈ lead, isBlank c = true) ∧ IsSentence (visible ++ marks) :=
      ⟨_, _, List.takeWhile_append_dropWhile.symm, fun c => List.mem_takeWhile_imp,
        isSentence_of_marks hbody hending.isMarks⟩
    have hsome := trimPiece_of_isVisible before (blanks ++ rest) hlead (List.forall_mem_nil _)
      hsentence.toIsVisible
    have hended : EndsMarked (visible ++ marks) ∧
        ∃ c back, blanks ++ rest = c :: back ∧ isBlank c = true := by
      obtain ⟨c, more, rfl⟩ := List.exists_cons_of_ne_nil hending.ne_nil
      exact ⟨⟨visible, marks, rfl, hending.isMarks⟩, c, more ++ rest, rfl,
        hending.blank c (by simp)⟩
    have hbefore : before ++ (lead ++ visible ++ (marks ++ blanks)) =
        before ++ (lead ++ (visible ++ marks)) ++ blanks := by simp
    have htext : before ++ (lead ++ visible ++ (marks ++ (blanks ++ rest))) =
        before ++ (lead ++ (visible ++ marks ++ [])) ++ (blanks ++ rest) := by simp
    have hlength : (before ++ (lead ++ visible ++ marks)).length =
        (before ++ (lead ++ (visible ++ marks ++ []))).length := by simp
    rw [hbefore] at ih
    rw [htext, hlength, List.filterMap_cons_some hsome]
    have hlaid : Laid before (lead ++ (visible ++ marks ++ (blanks ++ rest))) _ :=
      .sentence hlead hsentence (fun _ => hended) (ih.blanks_append hending.blank)
    simpa using hlaid

/-! ### Where the sentences are -/

namespace Laid

/-- **Each span of a layout covers a sentence** of the text. -/
theorem exists_sentence (h : Laid before cs spans) :
    ∀ span ∈ spans, ∃ front s back, before ++ cs = front ++ s ++ back ∧
      span = ⟨front.length, (front ++ s).length⟩ ∧ IsSentence s ∧
      before.length ≤ front.length := by
  induction h with
  | blank h => simp
  | @sentence before lead s rest spans hlead hsentence hended hrest ih =>
    intro span hspan
    rcases List.mem_cons.1 hspan with rfl | hspan
    · exact ⟨before ++ lead, s, rest, by simp, by simp, hsentence, by simp⟩
    · obtain ⟨front, s', back, htext, hs', hsentence', hfront⟩ := ih span hspan
      refine ⟨front, s', back, by simpa using htext, hs', hsentence', ?_⟩
      rw [List.length_append] at hfront
      omega

/-- **The spans of a layout come one after the other**, with something between them. -/
theorem pairwise (h : Laid before cs spans) : spans.Pairwise fun s t => s.stop < t.start := by
  induction h with
  | blank h => exact .nil
  | @sentence before lead s rest spans hlead hsentence hended hrest ih =>
    refine List.pairwise_cons.2 ⟨fun span hspan => ?_, ih⟩
    obtain ⟨front, s', back, htext, rfl, hsentence', hfront⟩ := hrest.exists_sentence span hspan
    refine lt_of_le_of_ne hfront fun heq => ?_
    -- White space comes first behind a sentence, and a sentence begins with something else.
    obtain ⟨-, c, more, rfl, hc⟩ := hended (List.ne_nil_of_mem hspan)
    rw [List.append_assoc front] at htext
    obtain ⟨-, hmore⟩ := List.append_inj htext heq
    have hvisible : isBlank c = false := hsentence'.head?_append back c (by rw [← hmore]; rfl)
    rw [hc] at hvisible
    cases hvisible

/-- **What no span of a layout covers is white space.** -/
theorem exists_covering (h : Laid before cs spans) {i : Nat} {c : Char} (hi : before.length ≤ i)
    (hc : (before ++ cs)[i]? = some c) (hvisible : isBlank c = false) :
    ∃ span ∈ spans, span.start ≤ i ∧ i < span.stop := by
  induction h with
  | @blank before cs h =>
    rw [List.getElem?_append_right hi] at hc
    rw [h c (List.mem_of_getElem? hc)] at hvisible
    cases hvisible
  | @sentence before lead s rest spans hlead hsentence hended hrest ih =>
    by_cases hbehind : (before ++ (lead ++ s)).length ≤ i
    · obtain ⟨span, hspan, hinside⟩ := ih hbehind (by simpa using hc)
      exact ⟨span, List.mem_cons_of_mem _ hspan, hinside⟩
    · refine ⟨_, List.mem_cons_self, ?_, Nat.lt_of_not_le hbehind⟩
      by_contra hin
      rw [List.getElem?_append_right hi, List.getElem?_append_left (by simp at hin; omega)] at hc
      rw [hlead c (List.mem_of_getElem? hc)] at hvisible
      cases hvisible

/-- **How each sentence but the last ends**: with marks, and white space behind them. -/
theorem ended (h : Laid before cs spans) :
    ∀ span ∈ spans.dropLast, ∃ front s c back, before ++ cs = front ++ s ++ c :: back ∧
      span = ⟨front.length, (front ++ s).length⟩ ∧ EndsMarked s ∧ isBlank c = true := by
  induction h with
  | blank h => simp
  | @sentence before lead s rest spans hlead hsentence hended hrest ih =>
    intro span hspan
    rcases List.eq_nil_or_concat spans with rfl | ⟨_, _, rfl⟩
    · cases hspan
    · rw [List.dropLast_cons_of_ne_nil (by simp)] at hspan
      rcases List.mem_cons.1 hspan with rfl | hspan
      · obtain ⟨hmarked, c, back, rfl, hc⟩ := hended (by simp)
        exact ⟨before ++ lead, s, c, back, by simp, by simp, hmarked, hc⟩
      · obtain ⟨front, s', c, back, htext, hs', hmarked, hc⟩ := ih span hspan
        exact ⟨front, s', c, back, by simpa using htext, hs', hmarked, hc⟩

end Laid

/-! ### The loop and what it returns -/

/-- **The sentences of a text lay it out**, from its first character to its last one. -/
theorem laid_sentences (text : String) : Laid [] text.toList (sentences text) :=
  (cut_pieces text.toList).laid

/-- A text in which no sentence ends is one piece. -/
theorem Cut.eq_of_unbroken (h : Cut before cs spans) (hne : cs ≠ []) (hcs : ¬HasEnding cs) :
    spans = [⟨before.length, (before ++ cs).length⟩] := by
  cases h with
  | nil => exact absurd rfl hne
  | last => rfl
  | @cons _ body marks blanks rest spans hbody hending hspans =>
    exact absurd ⟨body, _, rfl, hending.endsAtHead⟩ hcs

/-- **A sentence is a text of one sentence**: split again, it comes out whole. -/
theorem sentences_of_isSentence (h : IsSentence s) :
    sentences (String.ofList s) = [⟨0, s.length⟩] := by
  have hpieces : pieces 0 0 s = [⟨0, s.length⟩] :=
    (cut_pieces s).eq_of_unbroken h.ne_nil h.unbroken
  have htrim := trimPiece_of_isVisible [] [] (List.forall_mem_nil _) (List.forall_mem_nil _)
    h.toIsVisible
  simp only [List.nil_append, List.append_nil, List.length_nil] at htrim
  rw [sentences, String.toList_ofList, hpieces, List.filterMap_cons_some htrim]
  rfl

/-- The text that a span covers, when it is known what stands before and behind it. -/
theorem coveredText_of_append {text : String} (htext : text.toList = front ++ s ++ back) :
    Span.coveredText ⟨front.length, (front ++ s).length⟩ text = String.ofList s := by
  rw [Span.coveredText, htext, take_drop_append]

/-- Spans that come one after the other have no character in common. -/
theorem eq_of_overlap {s t : Span} {i : Nat} (h : spans.Pairwise fun s t => s.stop < t.start)
    (hs : s ∈ spans) (ht : t ∈ spans) (his : s.start ≤ i ∧ i < s.stop)
    (hit : t.start ≤ i ∧ i < t.stop) : s = t := by
  induction h with
  | nil => cases hs
  | cons hfirst _ ih =>
    rcases List.mem_cons.1 hs with rfl | hs' <;> rcases List.mem_cons.1 ht with rfl | ht'
    · rfl
    · have hbefore := hfirst t ht'
      omega
    · have hbefore := hfirst s hs'
      omega
    · exact ih hs' ht'

/-- **Spans split a text into its sentences**, as one who reads the text would say it, without a
word about the search. -/
structure Splits (text : String) (spans : List Span) : Prop where
  /-- Each span covers something, inside the text. -/
  inside : ∀ span ∈ spans, span.start < span.stop ∧ span.stop ≤ text.length
  /-- They come one after the other. -/
  ordered : spans.Pairwise fun s t => s.stop < t.start
  /-- Each character that is no white space lies in exactly one of them. -/
  covered : ∀ (i : Nat) (c : Char), text.toList[i]? = some c → isBlank c = false →
    ∃! span, span ∈ spans ∧ span.start ≤ i ∧ i < span.stop
  /-- Each begins and ends with such a character, and no sentence ends inside it. -/
  sentence : ∀ span ∈ spans, IsSentence (span.coveredText text).toList
  /-- Each but the last ends with marks, and white space follows. -/
  ended : ∀ span ∈ spans.dropLast, EndsMarked (span.coveredText text).toList ∧
    ∃ c, text.toList[span.stop]? = some c ∧ isBlank c = true

/-- **The sentences of a text split it** as a search through the text says: in order, without
overlap, and with nothing but white space in between. -/
theorem splits_sentences (text : String) : Splits text (sentences text) where
  inside := by
    intro span hspan
    obtain ⟨front, s, back, htext, rfl, hsentence, -⟩ :=
      (laid_sentences text).exists_sentence span hspan
    have hs := List.length_pos_iff.2 hsentence.ne_nil
    have hlength := congrArg List.length htext
    simp only [List.nil_append, List.length_append, String.length_toList] at hlength ⊢
    omega
  ordered := (laid_sentences text).pairwise
  covered := by
    intro i c hc hvisible
    obtain ⟨span, hspan, hinside⟩ :=
      (laid_sentences text).exists_covering (Nat.zero_le i) (by simpa using hc) hvisible
    exact ⟨span, ⟨hspan, hinside⟩, fun other ⟨hother, hinside'⟩ =>
      eq_of_overlap (laid_sentences text).pairwise hother hspan hinside' hinside⟩
  sentence := by
    intro span hspan
    obtain ⟨front, s, back, htext, rfl, hsentence, -⟩ :=
      (laid_sentences text).exists_sentence span hspan
    rw [coveredText_of_append htext, String.toList_ofList]
    exact hsentence
  ended := by
    intro span hspan
    obtain ⟨front, s, c, back, htext, rfl, hmarked, hc⟩ := (laid_sentences text).ended span hspan
    rw [List.nil_append] at htext
    rw [coveredText_of_append htext, String.toList_ofList]
    refine ⟨hmarked, c, ?_, hc⟩
    rw [htext]
    simp

end Text
end PairAnnotation
