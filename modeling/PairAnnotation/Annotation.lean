/-
# Annotations

Two kinds of annotation stand on named layers of a document.  A span annotation
covers a stretch of the text.  A relation record links two annotations by id and
keeps everything it knows, the two ends included, as features.  Read with its ends
resolved to spans, a record becomes a `RelationAnnotation`: a directed edge from the
governor to the dependent with a label that may be missing.
-/

import PairAnnotation.FeatureMap
import PairAnnotation.Json.Printer
import PairAnnotation.Span
import PairAnnotation.Tag

namespace PairAnnotation

/-- The number by which a store knows an annotation, be it a span or a relation. -/
structure AnnotationId where
  val : Nat
  deriving DecidableEq, Repr, Inhabited

/-- An id as it is shown: a hash sign and the number. -/
def AnnotationId.text (id : AnnotationId) : String := "#" ++ toString id.val

/-- A span annotation: a stretch of the text on some layer, with its features.  Whether the stretch
lies inside the text is not part of it. -/
structure SpanAnnotation where
  id : AnnotationId
  layer : String
  span : Span
  features : FeatureMap String := FeatureMap.empty
  deriving DecidableEq, Repr, Inhabited

/-- A relation as a document keeps it: ends and label are features. -/
structure RelationRecord where
  id : AnnotationId
  layer : String
  features : FeatureMap Json.Value
  deriving Repr, Inhabited

/-- A directed edge between two spans, the arrow pointing at the dependent. -/
structure RelationAnnotation where
  id : AnnotationId
  dependent : Span
  governor : Span
  label : Option String
  deriving DecidableEq, Repr, Inhabited

namespace RelationAnnotation

/-- Whether the label of the edge says something. -/
def isInformative (r : RelationAnnotation) : Bool := PairAnnotation.isInformative r.label

/-- Whether the edge points at `dependent` from `governor`.  Spans are compared, not ids, so two
annotations with one span are the same end. -/
def links (r : RelationAnnotation) (dependent governor : Span) : Bool :=
  r.dependent == dependent && r.governor == governor

/-- A relation links two spans exactly if they are its ends, the one that depends and the one that
governs. -/
theorem links_iff {r : RelationAnnotation} {d g : Span} :
    r.links d g = true ↔ r.dependent = d ∧ r.governor = g := by
  simp [links]

end RelationAnnotation

namespace RelationRecord

/-- The feature of a relation record that holds the id of the dependent end, the one that the edge
points at. -/
def dependentFeature : String := "Dependent"

/-- The feature of a relation record that holds the id of the governing end, where the edge
starts. -/
def governorFeature : String := "Governor"

/-- The id that a feature holds: an integer that is not negative. -/
def idFeature? (r : RelationRecord) (feature : String) : Option AnnotationId :=
  ((r.features.get? feature).bind Json.Value.toNat?).map AnnotationId.mk

/-- A feature as a label: a string stands for itself, null for no label, and any other value for
its JSON text. -/
def label? (r : RelationRecord) (feature : String) : Option String :=
  match r.features.get? feature with
  | none => none
  | some .null => none
  | some (.string s) => some s
  | some v => some v.compactText

/-- A record with nothing but its two ends, kept as ids under the names of the two end features. -/
def linking (id : AnnotationId) (layer : String) (dependent governor : AnnotationId) :
    RelationRecord where
  id := id
  layer := layer
  features := (FeatureMap.empty.insert dependentFeature (.nat dependent.val)).insert
    governorFeature (.nat governor.val)

/-- The record with a label in some feature; a label that was there is replaced, and so is anything
else under that name. -/
def setLabel (r : RelationRecord) (feature value : String) : RelationRecord :=
  { r with features := r.features.insert feature (.string value) }

end RelationRecord

/-- The span of an annotation by its id; of several spans with one id the last one counts. -/
def spanOf? (spans : List SpanAnnotation) (id : AnnotationId) : Option Span :=
  (spans.reverse.find? (·.id == id)).map (·.span)

/-- A record with its ends resolved, or nothing when an end resolves to no span. -/
def RelationRecord.resolve? (spans : List SpanAnnotation) (labelFeature : String)
    (r : RelationRecord) : Option RelationAnnotation := do
  let dependent ← (r.idFeature? dependentFeature).bind (spanOf? spans)
  let governor ← (r.idFeature? governorFeature).bind (spanOf? spans)
  some ⟨r.id, dependent, governor, r.label? labelFeature⟩

/-- **The relations of a layer**, in the order of their records; a record that points at nothing
is left out. -/
def resolveRelations (records : List RelationRecord) (spans : List SpanAnnotation)
    (layer labelFeature : String) : List RelationAnnotation :=
  (records.filter (·.layer == layer)).filterMap (·.resolve? spans labelFeature)

end PairAnnotation
