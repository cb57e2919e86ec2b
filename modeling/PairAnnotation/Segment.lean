/-
# Segments

The segments of a document are the units whose pairs are annotated.  A document of
a pre-annotated format brings them as span annotations of the sentence layer; any
other document, and one whose sentence layer is empty, gets them from its sentences,
or from its text when it has none.  The list is made once and never changes.
-/

import PairAnnotation.Config
import PairAnnotation.Document.Basic
import PairAnnotation.Text.Sentence

namespace PairAnnotation

/-- What is known about where a segment comes from, if its features tell. -/
structure SegmentMetadata where
  url : Option String := none
  docId : Option String := none
  deriving DecidableEq, Repr, Inhabited

/-- One unit of text that relations can link, known by its span. -/
structure Segment where
  span : Span
  text : String
  metadata : SegmentMetadata := {}
  deriving Repr, Inhabited

/-- Two segments are the same one when their spans agree, whatever else is known of them. -/
instance : BEq Segment := ⟨fun a b => a.span == b.span⟩

/-- Where the segments of a document come from. -/
inductive SegmentSource where
  /-- The sentence layer of a pre-annotated document. -/
  | preAnnotated
  /-- Sentence boundaries. -/
  | derived
  deriving DecidableEq, Repr, Inhabited

/-- The segments of a document, in order, and where they come from. -/
structure SegmentList where
  segments : List Segment
  source : SegmentSource
  deriving Repr, Inhabited

namespace SegmentList

/-- The number of segments, which are counted from 0. -/
def length (s : SegmentList) : Nat := s.segments.length

/-- The segment of an index, if the index is one of the list. -/
def get? (s : SegmentList) (index : Nat) : Option Segment := s.segments[index]?

/-- The span of the segment of an index, by which relations know it. -/
def spanAt? (s : SegmentList) (index : Nat) : Option Span := (s.get? index).map (·.span)

/-- The index of the first segment with exactly this span. -/
def indexOf? (s : SegmentList) (span : Span) : Option Nat :=
  s.segments.findIdx? (·.span == span)

/-- A segment of a span annotation, with what its features tell about its origin. -/
def annotated (d : Document) (s : SpanAnnotation) : Segment where
  span := s.span
  text := s.span.coveredText d.text
  metadata := { url := s.features.get? "url", docId := s.features.get? "doc_id" }

/-- A segment of a bare span, of which nothing is known but its text. -/
def bare (d : Document) (span : Span) : Segment where
  span := span
  text := span.coveredText d.text

/-- The segments by sentence boundaries: those of the document if there are any. -/
def derived (d : Document) : SegmentList :=
  let spans := d.orderedSentences
  let spans := if spans = [] ∧ Text.isAllBlank d.text = false then Text.sentences d.text else spans
  ⟨spans.map (bare d), .derived⟩

/-- **The segments of a document**: the annotations of its sentence layer if its format may bring
them and there are any, and sentences otherwise. -/
def load (d : Document) (layers : LayerConfig) : SegmentList :=
  if layers.isPreAnnotatedFormat d.format then
    let segments := (d.layerSpans layers.sentenceLayer).map (annotated d)
    if segments.isEmpty then derived d else ⟨segments, .preAnnotated⟩
  else derived d

end SegmentList

end PairAnnotation
