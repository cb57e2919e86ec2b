/-
# Sentences by byte offsets

The splitter works on bytes.  A pattern is matched against the text (`Finds`), and what it
finds tells where to cut: a piece goes from the end of one find to the end of the marks of
the next one (`cuts`).  The slice between two byte offsets is trimmed, and the offsets of
what is left are turned into offsets of characters (`spanOfCut?`).  A byte offset inside a
character, or behind the end, cuts nothing off (`splitAt?`), and this would be the end of
the program.

It does not come to that: every offset stands between two characters, and the spans are
those that the loop over characters returns (`sentences_exact`).
-/

import Mathlib.Data.String.Basic
import Mathlib.Data.List.ReduceOption
import PairAnnotation.Proofs.Json.Fields
import PairAnnotation.Proofs.Text.Sentences

namespace PairAnnotation
namespace Text

open String (utf8Len utf8Len_append utf8Len_cons utf8Len_nil)

variable {before cs front back chars : List Char} {spans : List Span} {n : Nat}

/-! ### Slices -/

/-- **Cut a text at a byte offset**, if it is not inside a character and not behind the end. -/
def splitAt? : Nat → List Char → Option (List Char × List Char)
  | 0, cs => some ([], cs)
  | _ + 1, [] => none
  | n + 1, c :: cs =>
    if c.utf8Size ≤ n + 1 then
      (splitAt? (n + 1 - c.utf8Size) cs).map fun (front, back) => (c :: front, back)
    else none

/-- The characters between two byte offsets, if both of them are character boundaries of the text
and in order. -/
def slice? (cs : List Char) (cut : Nat × Nat) : Option (List Char) := do
  let (front, _) ← splitAt? cut.2 cs
  let (_, slice) ← splitAt? cut.1 front
  return slice

/-- A text is split where its front ends in bytes, so that the front and the rest come out whole. -/
theorem splitAt?_append (front back : List Char) :
    splitAt? (utf8Len front) (front ++ back) = some (front, back) := by
  induction front with
  | nil => simp [splitAt?]
  | cons c front ih =>
    have hpos := c.utf8Size_pos
    obtain ⟨n, hn⟩ : ∃ n, utf8Len (c :: front) = n + 1 :=
      Nat.exists_eq_succ_of_ne_zero (by rw [utf8Len_cons]; omega)
    have hrest : n + 1 - c.utf8Size = utf8Len front := by
      rw [← hn, utf8Len_cons, Nat.add_sub_cancel]
    have hle : c.utf8Size ≤ n + 1 := by
      rw [← hn, utf8Len_cons]
      exact Nat.le_add_left _ _
    rw [hn, List.cons_append, splitAt?, if_pos hle, hrest, ih]
    rfl

/-- **A text is cut between two characters**, and nowhere else. -/
theorem splitAt?_eq_some_iff :
    splitAt? n cs = some (front, back) ↔ cs = front ++ back ∧ n = utf8Len front := by
  constructor
  · intro h
    fun_induction splitAt? n cs generalizing front with
    | case1 cs =>
      cases h
      exact ⟨rfl, rfl⟩
    | case2 n => cases h
    | case3 n c cs hle ih =>
      obtain ⟨⟨front', back'⟩, hrest, hcut⟩ := Option.map_eq_some_iff.1 h
      obtain ⟨rfl, rfl⟩ := Prod.mk.inj hcut
      obtain ⟨rfl, hn⟩ := ih hrest
      refine ⟨rfl, ?_⟩
      rw [utf8Len_cons]
      omega
    | case4 n c cs hle => cases h
  · rintro ⟨rfl, rfl⟩
    exact splitAt?_append front back

/-- **The bytes between the ends of a part are that part**: both ends are ends of characters. -/
theorem slice?_append (front chars back : List Char) :
    slice? (front ++ chars ++ back) (utf8Len front, utf8Len (front ++ chars)) = some chars := by
  simp only [slice?, splitAt?_append, Option.bind_eq_bind, Option.bind_some]
  rfl

/-! ### The splitter -/

/-- What a pattern finds: where it starts, in bytes, and its text. -/
structure Find where
  start : Nat
  text : List Char

/-- **What the pattern of sentence endings finds** in a text behind the characters `before`: the
first marks with white space behind them and all of that, and then it goes on from there. -/
inductive Finds : List Char → List Char → List Find → Prop where
  | none {before cs : List Char} (h : ¬HasEnding cs) : Finds before cs []
  | next {before skipped marks blanks rest : List Char} {finds : List Find}
    (hskipped : EndsNowhere skipped (marks ++ (blanks ++ rest)))
    (hending : IsEnding marks blanks rest)
    (hfinds : Finds (before ++ (skipped ++ (marks ++ blanks))) rest finds) :
    Finds before (skipped ++ (marks ++ (blanks ++ rest)))
      (⟨utf8Len (before ++ skipped), marks ++ blanks⟩ :: finds)

/-- **Where to cut** a text of `size` bytes, with the current piece starting at `start`. -/
def cuts (size start : Nat) : List Find → List (Nat × Nat)
  | [] => if start < size then [(start, size)] else []
  | find :: finds =>
    (start, find.start + utf8Len (trimEnd find.text)) ::
      cuts size (find.start + utf8Len find.text) finds

/-- The span of what is left of a slice when it is trimmed, if anything is. -/
def spanOfCut? (cs : List Char) (cut : Nat × Nat) : Option (Option Span) := do
  let slice ← slice? cs cut
  let leading := utf8Len slice - utf8Len (trimStart slice)
  let trimmed := trim slice
  if trimmed = [] then
    return none
  else
    let (upToStart, _) ← splitAt? (cut.1 + leading) cs
    let (upToStop, _) ← splitAt? (cut.1 + leading + utf8Len trimmed) cs
    return some ⟨upToStart.length, upToStop.length⟩

/-- **The sentences of a text** by byte offsets, from what the pattern finds. -/
def sentencesOfFinds? (text : String) (finds : List Find) : Option (List Span) :=
  ((cuts text.utf8ByteSize 0 finds).mapM (spanOfCut? text.toList)).map List.reduceOption

/-- The byte offsets of a span, each of them the length in UTF-8 of what stands before it. -/
def byteOffsets (cs : List Char) (span : Span) : Nat × Nat :=
  (utf8Len (cs.take span.start), utf8Len (cs.take span.stop))

/-! ### Byte offsets and offsets of characters -/

/-- The byte offsets of a part are the bytes before it and the bytes up to its end. -/
theorem byteOffsets_append (front chars back : List Char) :
    byteOffsets (front ++ chars ++ back) ⟨front.length, (front ++ chars).length⟩ =
      (utf8Len front, utf8Len (front ++ chars)) := by
  rw [byteOffsets]
  dsimp only
  rw [List.take_left, List.append_assoc, List.take_left]

/-- **A piece that is cut by bytes** is trimmed to the same span. -/
theorem spanOfCut?_byteOffsets (front chars back : List Char) :
    spanOfCut? (front ++ chars ++ back) (utf8Len front, utf8Len (front ++ chars)) =
      some (trimPiece (front ++ chars ++ back) ⟨front.length, (front ++ chars).length⟩) := by
  simp only [spanOfCut?, slice?_append, Option.bind_eq_bind, Option.bind_some]
  rcases blank_or_exists_isVisible chars with hblank | ⟨lead, s, trail, rfl, hlead, htrail, hs⟩
  · rw [trimPiece_of_blank front back hblank, trim_of_blank hblank]
    rfl
  · have hstart : trimStart (lead ++ (s ++ trail)) = s ++ trail :=
      (takeWhile_append_of_head? hlead (hs.head?_append trail)).2
    have hleading : utf8Len front + (utf8Len (lead ++ (s ++ trail)) - utf8Len (s ++ trail)) =
        utf8Len (front ++ lead) := by
      simp
    have htext : front ++ (lead ++ (s ++ trail)) ++ back =
        front ++ lead ++ (s ++ trail ++ back) := by simp
    have htext' : front ++ (lead ++ (s ++ trail)) ++ back =
        front ++ (lead ++ s) ++ (trail ++ back) := by simp
    have hstop : utf8Len (front ++ lead) + utf8Len s = utf8Len (front ++ (lead ++ s)) := by
      simp [Nat.add_assoc]
    rw [trimPiece_of_isVisible front back hlead htrail hs, trim_of_isVisible hlead htrail hs,
      hstart, hleading, hstop, if_neg hs.ne_nil, htext, splitAt?_append, ← htext, htext',
      splitAt?_append]
    rfl

/-! ### What is found and where the loop cuts -/

namespace Finds

variable {finds : List Find}

theorem eq_nil (h : Finds before cs finds) (hcs : ¬HasEnding cs) : finds = [] := by
  cases h with
  | none => rfl
  | @next before skipped marks blanks rest finds hskipped hending hfinds =>
    exact absurd ⟨skipped, _, rfl, hending.endsAtHead⟩ hcs

/-- **The first find** is the first place where a sentence ends. -/
theorem exists_eq_cons {body marks blanks rest : List Char} (h : Finds before cs finds)
    (hcs : cs = body ++ (marks ++ (blanks ++ rest)))
    (hbody : EndsNowhere body (marks ++ (blanks ++ rest))) (hending : IsEnding marks blanks rest) :
    ∃ finds', finds = ⟨utf8Len (before ++ body), marks ++ blanks⟩ :: finds' ∧
      Finds (before ++ (body ++ (marks ++ blanks))) rest finds' := by
  cases h with
  | none hnone => exact absurd ⟨body, _, hcs, hending.endsAtHead⟩ hnone
  | @next before skipped marks' blanks' rest' finds' hskipped hending' hfinds =>
    obtain ⟨rfl, hbehind⟩ :=
      hskipped.unique hending'.endsAtHead hbody hending.endsAtHead hcs
    obtain ⟨rfl, rfl, rfl⟩ := hending'.unique hending hbehind
    exact ⟨finds', rfl, hfinds⟩

end Finds

namespace Cut

/-- There is something to be found wherever a text is cut. -/
theorem exists_finds (h : Cut before cs spans) : ∃ finds, Finds before cs finds := by
  induction h with
  | nil before => exact ⟨[], .none (EndsNowhere.nil []).not_hasEnding⟩
  | last hne hcs => exact ⟨[], .none hcs.not_hasEnding⟩
  | cons hbody hending hspans ih =>
    obtain ⟨finds, hfinds⟩ := ih
    exact ⟨_, .next hbody hending hfinds⟩

/-- **Where the splitter cuts, the loop cuts too**: the cuts at the matches are the pieces of the
splitter, counted in bytes. -/
theorem cuts_eq {finds : List Find} (h : Cut before cs spans) (hfinds : Finds before cs finds) :
    cuts (utf8Len (before ++ cs)) (utf8Len before) finds =
      spans.map (byteOffsets (before ++ cs)) := by
  induction h generalizing finds with
  | nil before =>
    rw [hfinds.eq_nil (EndsNowhere.nil []).not_hasEnding]
    simp [cuts]
  | @last before cs hne hcs =>
    have hbytes := byteOffsets_append before cs []
    rw [List.append_nil] at hbytes
    have hsome : utf8Len before < utf8Len (before ++ cs) := by
      have hpos := Nat.pos_of_ne_zero (mt String.utf8Len_eq_zero.1 hne)
      rw [utf8Len_append]
      omega
    rw [hfinds.eq_nil hcs.not_hasEnding, cuts, if_pos hsome, List.map_singleton, hbytes]
  | @cons before body marks blanks rest spans hbody hending hspans ih =>
    obtain ⟨finds, rfl, hrest⟩ := hfinds.exists_eq_cons rfl hbody hending
    have hmarks : trimEnd (marks ++ blanks) = marks :=
      trimEnd_append hending.blank fun c hc =>
        hending.isMarks.isBlank_eq_false c (List.mem_of_getLast? hc)
    have hbytes := byteOffsets_append before (body ++ marks) (blanks ++ rest)
    have hnext := ih hrest
    have htext : before ++ (body ++ (marks ++ blanks)) ++ rest =
        before ++ (body ++ marks) ++ (blanks ++ rest) := by simp
    have htext' : before ++ (body ++ (marks ++ (blanks ++ rest))) =
        before ++ (body ++ marks) ++ (blanks ++ rest) := by simp
    have hstop : utf8Len (before ++ body) + utf8Len marks =
        utf8Len (before ++ (body ++ marks)) := by
      simp [Nat.add_assoc]
    have hstart : utf8Len (before ++ body) + utf8Len (marks ++ blanks) =
        utf8Len (before ++ (body ++ (marks ++ blanks))) := by
      simp [Nat.add_assoc]
    rw [htext] at hnext
    rw [htext', cuts, List.map_cons, hbytes, hmarks, hstop, hstart, hnext]

/-- Each piece is a stretch of the text, and its bounds count the characters up to its two ends. -/
theorem exists_chars (h : Cut before cs spans) :
    ∀ piece ∈ spans, ∃ front chars back, before ++ cs = front ++ chars ++ back ∧
      piece = ⟨front.length, (front ++ chars).length⟩ := by
  induction h with
  | nil before => simp
  | @last before cs hne hcs =>
    intro piece hpiece
    obtain rfl := List.mem_singleton.1 hpiece
    exact ⟨before, cs, [], by simp, rfl⟩
  | @cons before body marks blanks rest spans hbody hending hspans ih =>
    intro piece hpiece
    rcases List.mem_cons.1 hpiece with rfl | hpiece
    · exact ⟨before, body ++ marks, blanks ++ rest, by simp, rfl⟩
    · obtain ⟨front, chars, back, htext, rfl⟩ := ih piece hpiece
      exact ⟨front, chars, back, by simpa using htext, rfl⟩

end Cut

/-- The characters of a piece, as they stand in the text. -/
def pieceText (cs : List Char) (span : Span) : List Char :=
  (cs.drop span.start).take (span.stop - span.start)

/-- What the trimmed span of a piece covers is the piece, trimmed. -/
theorem coveredText_trimPiece {text : String} (htext : text.toList = front ++ chars ++ back) :
    (trimPiece text.toList ⟨front.length, (front ++ chars).length⟩).map
        (fun span => (span.coveredText text).toList) =
      if trim chars = [] then none else some (trim chars) := by
  rcases blank_or_exists_isVisible chars with hblank | ⟨lead, s, trail, rfl, hlead, htrail, hs⟩
  · rw [htext, trimPiece_of_blank front back hblank, trim_of_blank hblank]
    rfl
  · have htext' : text.toList = front ++ lead ++ s ++ (trail ++ back) := by simp [htext]
    have hcovered := coveredText_of_append htext'
    rw [List.append_assoc front] at hcovered
    rw [htext, trimPiece_of_isVisible front back hlead htrail hs, trim_of_isVisible hlead htrail hs,
      if_neg hs.ne_nil, Option.map_some, hcovered, String.toList_ofList]

/-- **The slices that are cut** are the pieces, and none of them is cut inside a character. -/
theorem mapM_slice?_byteOffsets (cs : List Char) :
    ((pieces 0 0 cs).map (byteOffsets cs)).mapM (slice? cs) =
      some ((pieces 0 0 cs).map (pieceText cs)) := by
  rw [List.mapM_map]
  refine mapM_eq_some_map fun span hspan => ?_
  obtain ⟨front, chars, back, htext, rfl⟩ := (cut_pieces cs).exists_chars span hspan
  rw [List.nil_append] at htext
  rw [htext, Function.comp_apply, byteOffsets_append, slice?_append, pieceText, take_drop_append]

/-- **All pieces are cut by their byte offsets as they are by characters**, and none of these cuts
goes through a character. -/
theorem mapM_spanOfCut?_byteOffsets (cs : List Char) :
    ((pieces 0 0 cs).map (byteOffsets cs)).mapM (spanOfCut? cs) =
      some ((pieces 0 0 cs).map (trimPiece cs)) := by
  rw [List.mapM_map]
  refine mapM_eq_some_map fun span hspan => ?_
  obtain ⟨front, chars, back, htext, rfl⟩ := (cut_pieces cs).exists_chars span hspan
  rw [List.nil_append] at htext
  rw [htext, Function.comp_apply, byteOffsets_append, spanOfCut?_byteOffsets]

/-- **What the sentences cover** are the pieces, trimmed, without those of white space alone. -/
theorem filter_trim_pieces (text : String) :
    (((pieces 0 0 text.toList).map (pieceText text.toList)).map trim).filter (· ≠ []) =
      (sentences text).map fun span => (span.coveredText text).toList := by
  rw [sentences, List.map_filterMap, List.map_map, ← List.filterMap_eq_filter, List.filterMap_map]
  refine List.filterMap_congr fun span hspan => ?_
  obtain ⟨front, chars, back, htext, rfl⟩ := (cut_pieces text.toList).exists_chars span hspan
  rw [List.nil_append] at htext
  rw [coveredText_trimPiece htext, Function.comp_apply, Function.comp_apply, pieceText, htext,
    take_drop_append]
  by_cases hblank : trim chars = [] <;> simp [Option.guard, hblank]

/-- **Sentence splitting is lossless and exact.**  The spans that the loop over characters returns
split the text into its sentences: each covers something, they come one after the other, each
character that is no white space lies in exactly one of them, each begins and ends with such a
character, no sentence ends inside it, and each but the last ends with marks and is followed by
white space.  What a span covers is one sentence when it is split again.

The pattern finds something to cut at, or nothing, in every text, and from whatever it finds the
splitter returns these spans.  No byte offset is inside a character, and the texts that the spans
cover are the slices that were cut, trimmed, without those of white space alone. -/
theorem sentences_exact (text : String) :
    Splits text (sentences text) ∧
    (∀ span ∈ sentences text, sentences (span.coveredText text) =
      [⟨0, (span.coveredText text).length⟩]) ∧
    (∃ finds, Finds [] text.toList finds) ∧
    ∀ finds, Finds [] text.toList finds →
      sentencesOfFinds? text finds = some (sentences text) ∧
      ∃ slices, (cuts text.utf8ByteSize 0 finds).mapM (slice? text.toList) = some slices ∧
        (slices.map trim).filter (· ≠ []) =
          (sentences text).map fun span => (span.coveredText text).toList := by
  have hcut := cut_pieces text.toList
  refine ⟨splits_sentences text, fun span hspan => ?_, hcut.exists_finds, fun finds hfinds => ?_⟩
  · have hsentence := (splits_sentences text).sentence span hspan
    have hagain := sentences_of_isSentence hsentence
    rwa [String.ofList_toList, String.length_toList] at hagain
  · have hsize : text.utf8ByteSize = utf8Len text.toList := by
      rw [← String.utf8ByteSize_ofList, String.ofList_toList]
    have hcuts : cuts text.utf8ByteSize 0 finds =
        (pieces 0 0 text.toList).map (byteOffsets text.toList) := by
      rw [hsize]
      exact hcut.cuts_eq hfinds
    refine ⟨?_, (pieces 0 0 text.toList).map (pieceText text.toList), ?_, filter_trim_pieces text⟩
    · rw [sentencesOfFinds?, hcuts, mapM_spanOfCut?_byteOffsets, Option.map_some, List.reduceOption,
        List.filterMap_map]
      rfl
    · rw [hcuts, mapM_slice?_byteOffsets]

/-- Two sentences behind blanks and between them, with letters of two bytes. -/
theorem sentences_exact_greetings :
    ∃ finds, Finds [] "  Grüße!  Und dann".toList finds ∧
      sentencesOfFinds? "  Grüße!  Und dann" finds = some [⟨2, 8⟩, ⟨10, 18⟩] := by
  obtain ⟨-, -, ⟨finds, hfinds⟩, hall⟩ := sentences_exact "  Grüße!  Und dann"
  obtain ⟨hsentences, -⟩ := hall finds hfinds
  have hspans : sentences "  Grüße!  Und dann" = [⟨2, 8⟩, ⟨10, 18⟩] := by cbv
  exact ⟨finds, hfinds, hspans ▸ hsentences⟩

end Text
end PairAnnotation
