/-
# Relations by their ends

Which tag stands between two segments is read off the relations of a document: of
several edges with the same two ends the last one counts, and a label that names no
tag of the tag set is no tag.
-/

import PairAnnotation.Annotation
import PairAnnotation.Distinct

namespace PairAnnotation

/-- The tags between a left and a right segment, one for each direction, if there is one. -/
structure ResolvedRelation where
  /-- On the edge that points at the left segment. -/
  rightToLeft : Option Tag := none
  /-- On the edge that points at the right segment. -/
  leftToRight : Option Tag := none
  deriving DecidableEq, Repr, Inhabited

namespace ResolvedRelation

/-- Whether a tag stands in either direction, name and description alike. -/
def contains (r : ResolvedRelation) (tag : Tag) : Bool :=
  r.rightToLeft == some tag || r.leftToRight == some tag

/-- Whether neither of the two directions carries a tag. -/
def isEmpty (r : ResolvedRelation) : Bool := r.rightToLeft.isNone && r.leftToRight.isNone

/-- A tag stands on a pair exactly if it stands on one of its two directions. -/
theorem contains_iff {r : ResolvedRelation} {tag : Tag} :
    r.contains tag = true ↔ r.rightToLeft = some tag ∨ r.leftToRight = some tag := by
  simp [contains]

end ResolvedRelation

/-- The edges of a document and the tags that may stand on them. -/
structure RelationIndex where
  edges : List RelationAnnotation
  tags : TagSet
  deriving Repr, Inhabited

namespace RelationIndex

/-- The last edge from `governor` to `dependent`, which is the one that counts. -/
def edge? (x : RelationIndex) (dependent governor : Span) : Option RelationAnnotation :=
  x.edges.reverse.find? (·.links dependent governor)

/-- The label of that edge, whatever it names, or nothing if there is no edge or no label. -/
def label? (x : RelationIndex) (dependent governor : Span) : Option String :=
  (x.edge? dependent governor).bind (·.label)

/-- The tag that the label names, if the tag set has it. -/
def tag? (x : RelationIndex) (dependent governor : Span) : Option Tag :=
  (x.label? dependent governor).bind x.tags.find?

/-- **What stands between two segments**: the tag of each direction, told by the last edge that
points that way. -/
def resolve (x : RelationIndex) (left right : Span) : ResolvedRelation where
  rightToLeft := x.tag? left right
  leftToRight := x.tag? right left

/-- The spans that an edge connects with a span, in either direction. -/
def linked (x : RelationIndex) (span : Span) : List Span :=
  ascending Span.le <| x.edges.flatMap fun r =>
    (if r.dependent = span then [r.governor] else [])
      ++ if r.governor = span then [r.dependent] else []

/-- The number of different ordered pairs of ends, so an edge that is repeated counts once. -/
def edgeCount (x : RelationIndex) : Nat :=
  (firstOccurrences (x.edges.map fun r => (r.dependent, r.governor))).length

/-- A span is linked with another one exactly if some relation has the two for its ends, in either
direction. -/
theorem mem_linked {x : RelationIndex} {s t : Span} :
    t ∈ x.linked s ↔ ∃ r ∈ x.edges,
      (r.dependent = s ∧ r.governor = t) ∨ (r.governor = s ∧ r.dependent = t) := by
  simp only [linked, mem_ascending, List.mem_flatMap, List.mem_append]
  refine exists_congr fun r => and_congr_right fun _ => or_congr ?_ ?_
  all_goals
    split
    · rename_i h
      simp [h, eq_comm]
    · rename_i h
      simp [h]

end RelationIndex

end PairAnnotation
