/-
# What a session shows

The view of the pair under the cursor, and the statistics of a session: how far it
is, and how many pairs carry each tag.

A view has two parts.  The pair under the cursor can always be shown; the progress
comes with the style of its bar, and where the bar is so wide that this style is
missing, there is no view at all.
-/

import PairAnnotation.Document.Json
import PairAnnotation.Session.Basic

namespace PairAnnotation

/-- Everything that is shown of the pair under the cursor. -/
structure PairView where
  leftText : String
  rightText : String
  leftPosition : String
  rightPosition : String
  /-- The tag on the edge that points at the left segment. -/
  leftRelation : Option Tag
  /-- The tag on the edge that points at the right segment. -/
  rightRelation : Option Tag
  leftArrowClass : String
  rightArrowClass : String
  leftMetadata : SegmentMetadata
  rightMetadata : SegmentMetadata
  filter : Option Tag
  pairIndex : Nat
  pairCount : Nat
  deriving DecidableEq, Repr

/-- **A view**: the pair under the cursor, and how far the session is. -/
structure EditorView extends PairView where
  progress : Progress
  progressLabel : String
  progressBarStyle : String
  deriving DecidableEq, Repr

/-- How many pairs carry a tag in at least one direction. -/
structure TagStatistics where
  tag : Tag
  pairs : Nat
  deriving DecidableEq, Repr

/-- How far a session is, and how many pairs carry each tag of its tag set. -/
structure StatisticsView where
  progress : Progress
  perTag : List TagStatistics
  deriving DecidableEq, Repr

namespace Session

variable {σ : Type} [AnnotationStore σ]

/-- **What is shown of the pair under the cursor**: the segments on both sides, where they stand,
and the tags on the two arrows between them.  A relation that cannot be resolved has no tags. -/
def pairView (s : Session σ) : PairView :=
  let c := s.cursor
  let resolved := ((s.resolve c.left c.right).toOption).getD {}
  let left := s.segments.get? c.left
  let right := s.segments.get? c.right
  let position side := c.positionLabel side s.pairs s.segments.source s.segments.length
  { leftText := (left.map (·.text)).getD ""
    rightText := (right.map (·.text)).getD ""
    leftPosition := position .left
    rightPosition := position .right
    leftRelation := resolved.rightToLeft
    rightRelation := resolved.leftToRight
    leftArrowClass := arrowClass resolved.rightToLeft
    rightArrowClass := arrowClass resolved.leftToRight
    leftMetadata := (left.map (·.metadata)).getD {}
    rightMetadata := (right.map (·.metadata)).getD {}
    filter := c.filter
    pairIndex := c.pairIndex
    pairCount := s.pairs.length }

/-- **The view of a session**, if the progress bar has a style. -/
def view? (s : Session σ) : Option EditorView :=
  (s.progress.barStyle? s.config.barWidth).map fun style =>
    { s.pairView with
      progress := s.progress
      progressLabel := s.progress.percentLabel
      progressBarStyle := style }

/-- **The statistics of a session**, tag by tag in the order of the tag set. -/
def statistics (s : Session σ) : StatisticsView :=
  let resolved := s.pairs.toList.map s.resolvePair
  { progress := s.progress
    perTag := s.tags.tags.map fun tag => ⟨tag, resolved.countP (·.contains tag)⟩ }

end Session

/-! ### As JSON -/

open Json

/-- The two counts of a progress, by their names. -/
def Progress.toJson (p : Progress) : Value :=
  .object [("completed", .nat p.completed), ("total", .nat p.total)]

/-- Where a segment comes from; what is not known of it is null. -/
def SegmentMetadata.toJson (m : SegmentMetadata) : Value :=
  .object [("url", .ofOption .string m.url), ("doc_id", .ofOption .string m.docId)]

/-- A tag, and how many pairs carry it in either direction. -/
def TagStatistics.toJson (t : TagStatistics) : Value :=
  .object [("tag", t.tag.toJson), ("pairs", .nat t.pairs)]

/-- The statistics, the tags in the order of the tag set. -/
def StatisticsView.toJson (v : StatisticsView) : Value :=
  .object [("progress", v.progress.toJson), ("per_tag", .array (v.perTag.map TagStatistics.toJson))]

/-- The view field by field; a tag or a filter that is missing is null. -/
def EditorView.toJson (v : EditorView) : Value :=
  .object [("left_text", .string v.leftText), ("right_text", .string v.rightText),
    ("left_position", .string v.leftPosition), ("right_position", .string v.rightPosition),
    ("left_relation", .ofOption Tag.toJson v.leftRelation),
    ("right_relation", .ofOption Tag.toJson v.rightRelation),
    ("left_arrow_class", .string v.leftArrowClass),
    ("right_arrow_class", .string v.rightArrowClass),
    ("left_metadata", v.leftMetadata.toJson), ("right_metadata", v.rightMetadata.toJson),
    ("filter", .ofOption Tag.toJson v.filter), ("pair_index", .nat v.pairIndex),
    ("pair_count", .nat v.pairCount), ("progress", v.progress.toJson),
    ("progress_label", .string v.progressLabel),
    ("progress_bar_style", .string v.progressBarStyle)]

end PairAnnotation
