/-
# Sentences

A text without sentence annotations is cut after terminal punctuation.  A sentence
ends with one or more of `.`, `!`, `?`, then closing quotes and brackets, then white
space; the white space belongs to no sentence, and what is left at the end of the
text is the last sentence.  A piece is trimmed on both ends, and one of white space
alone is dropped.
-/

import PairAnnotation.Span
import PairAnnotation.Text.Blank

namespace PairAnnotation
namespace Text

/-- Terminal punctuation, at which a sentence may end. -/
def isStop (c : Char) : Bool := c == '.' || c == '!' || c == '?'

/-- What may stand between terminal punctuation and white space: quotation marks and closing
brackets. -/
def isCloser (c : Char) : Bool := c == '"' || c == '\'' || c == ')' || c == ']'

/-- How a sentence ends at the head of a text: its marks, and the white space after them. -/
structure Ending where
  marks : Nat
  blanks : Nat
  deriving DecidableEq, Repr

/-- The sentence ending that a text starts with, if it does. -/
def ending? (cs : List Char) : Option Ending :=
  let stops := cs.takeWhile isStop
  let afterStops := cs.dropWhile isStop
  let closers := afterStops.takeWhile isCloser
  let blanks := (afterStops.dropWhile isCloser).takeWhile isBlank
  if stops = [] ∨ blanks = [] then none
  else some ⟨stops.length + closers.length, blanks.length⟩

/-- An ending that is found has at least one mark, so the search goes forward. -/
theorem Ending.marks_pos {cs : List Char} {e : Ending} (h : ending? cs = some e) :
    0 < e.marks := by
  simp only [ending?] at h
  split at h
  · simp at h
  · rename_i hne
    have hstop : cs.takeWhile isStop ≠ [] := fun h => hne (.inl h)
    injection h with h
    subst h
    have := List.length_pos_iff.2 hstop
    show 0 < (cs.takeWhile isStop).length + _
    omega

/-- The offsets of the pieces of a text, marks included and white space after them not.  `start`
is where the current piece starts and `position` where `cs` does. -/
def pieces (start position : Nat) (cs : List Char) : List Span :=
  match cs with
  | [] => if start < position then [⟨start, position⟩] else []
  | c :: rest =>
    match h : ending? (c :: rest) with
    | some e =>
      ⟨start, position + e.marks⟩ ::
        pieces (position + e.marks + e.blanks) (position + e.marks + e.blanks)
          ((c :: rest).drop (e.marks + e.blanks))
    | none =>
      if isStop c then
        let stops := (rest.takeWhile isStop).length
        pieces start (position + 1 + stops) (rest.drop stops)
      else pieces start (position + 1) rest
termination_by cs.length
decreasing_by
  · have := Ending.marks_pos h
    simp only [List.length_drop, List.length_cons]
    omega
  · simp only [List.length_drop, List.length_cons]
    omega
  · simp

/-- A piece without the white space at its ends, or nothing when there is nothing else in it. -/
def trimPiece (cs : List Char) (piece : Span) : Option Span :=
  let chars := (cs.drop piece.start).take (piece.stop - piece.start)
  let leading := (chars.takeWhile isBlank).length
  let visible := (trim chars).length
  if visible = 0 then none
  else some ⟨piece.start + leading, piece.start + leading + visible⟩

/-- **The sentences of a text**, in order, each without the white space around it. -/
def sentences (text : String) : List Span :=
  let cs := text.toList
  (pieces 0 0 cs).filterMap (trimPiece cs)

end Text
end PairAnnotation
