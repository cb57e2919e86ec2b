/-
# Documents

A document is a text with sentences, span annotations, relation records and tag
sets, and the least id that is still free.  Everything here is a pure function of
the document: what it answers, and how each edit changes it.  An edit either gives
the changed document or a `StoreError`, and never a document changed in part.

Ids are counted without a bound here.  As words of 64 bits they have one: an edit for
whose id there is no word behind it has no result then, and any other edit is the one
given here (`Word.insertSpan_eq`, `Word.insertRelation_eq`, `Word.onDocument_eq`).
-/

import PairAnnotation.Annotation

namespace PairAnnotation

/-- Why a store refused a change, as it is reported to the session, with what was refused. -/
inductive StoreError where
  /-- No annotation has this id. -/
  | unknownId (id : AnnotationId)
  /-- The file could not be written. -/
  | io (path : String)
  /-- The document has no text form. -/
  | serialization
  /-- The store does not want the change. -/
  | rejected (message : String)
  deriving DecidableEq, Repr, Inhabited

/-- What a refused change is reported as, in the wording of the store. -/
def StoreError.message : StoreError → String
  | .unknownId id => "annotation " ++ id.text ++ " does not exist"
  | .io path => "I/O error writing " ++ path
  | .serialization => "serialization failed"
  | .rejected message => "store rejected the change: " ++ message

/-- The tag set of a feature of a layer, as a document keeps it. -/
structure TagSetRecord where
  layer : String
  feature : String
  tagSet : TagSet
  deriving DecidableEq, Repr, Inhabited

/-- A text and its annotations, with the id that is to be given out next.  Nothing here says that
ids are distinct or that spans lie inside the text. -/
structure Document where
  name : String
  format : String
  text : String
  sentences : List Span := []
  spans : List SpanAnnotation := []
  relations : List RelationRecord := []
  tagSets : List TagSetRecord := []
  nextId : Nat := 0
  deriving Repr, Inhabited

namespace Document

/-! ### Questions -/

/-- The span annotations of a layer, by start, the longer one first. -/
def layerSpans (d : Document) (layer : String) : List SpanAnnotation :=
  (d.spans.filter (·.layer == layer)).mergeSort fun a b => a.span.outerFirst b.span

/-- The sentence spans in ascending order, by start and then by stop; equal ones are kept. -/
def orderedSentences (d : Document) : List Span := d.sentences.mergeSort Span.le

/-- The relations of a layer, ends resolved and labels read from a feature. -/
def relationsOn (d : Document) (layer labelFeature : String) : List RelationAnnotation :=
  resolveRelations d.relations d.spans layer labelFeature

/-- The tag set of a feature of a layer, the first one if there are several. -/
def tagSet? (d : Document) (layer feature : String) : Option TagSet :=
  (d.tagSets.find? fun t => t.layer == layer && t.feature == feature).map (·.tagSet)

/-- The annotations of a layer inside a span, those with exactly this span among them. -/
def spansCoveredBy (d : Document) (layer : String) (span : Span) : List SpanAnnotation :=
  (d.layerSpans layer).filter fun s => span.covers s.span

/-- The greatest id in use, 0 if there is none. -/
def greatestId (d : Document) : Nat :=
  (d.spans.map (·.id.val) ++ d.relations.map (·.id.val)).foldl max 0

/-! ### Edits -/

/-- The id that the next annotation gets, which is never zero. -/
def freshId (d : Document) : AnnotationId := ⟨max d.nextId 1⟩

/-- Add a span annotation, wherever it lies.  It takes the fresh id, and the next id is the one
behind it; in 64 bits there is no result where that one is no word (`Word.insertSpan_eq`). -/
def insertSpan (d : Document) (layer : String) (span : Span) (features : FeatureMap String) :
    AnnotationId × Document :=
  (d.freshId,
    { d with
      spans := d.spans ++ [⟨d.freshId, layer, span, features⟩]
      nextId := d.freshId.val + 1 })

/-- Add a relation record, whatever its ends are.  Like a span annotation it takes the fresh id, and
it has no result where there is no word behind that (`Word.insertRelation_eq`). -/
def insertRelation (d : Document) (layer : String) (dependent governor : AnnotationId)
    (labelFeature : String) (label : Option String) : AnnotationId × Document :=
  let record := RelationRecord.linking d.freshId layer dependent governor
  let labelled := match label with
    | some value => record.setLabel labelFeature value
    | none => record
  (d.freshId, { d with relations := d.relations ++ [labelled], nextId := d.freshId.val + 1 })

/-- Add a sentence span behind those that are there. -/
def withSentence (d : Document) (span : Span) : Document :=
  { d with sentences := d.sentences ++ [span] }

/-- Set the tag set of a feature of a layer. -/
def withTagSet (d : Document) (layer feature : String) (tagSet : TagSet) : Document :=
  { d with
    tagSets := d.tagSets.filter (fun t => !(t.layer == layer && t.feature == feature))
      ++ [⟨layer, feature, tagSet⟩] }

/-- Add a span annotation without features, if its span lies inside the text and does not stop
before it starts. -/
def addSpan (d : Document) (layer : String) (span : Span) :
    Except StoreError (AnnotationId × Document) :=
  if span.fits d.text.length then .ok (d.insertSpan layer span FeatureMap.empty)
  else .error (.rejected
    ("span " ++ toString span.start ++ ".." ++ toString span.stop ++ " lies outside the document"))

/-- Whether some span annotation has this id. -/
def hasSpan (d : Document) (id : AnnotationId) : Bool := d.spans.any (·.id == id)

/-- Add a relation without label between two span annotations; the one whose id is unknown is
reported, the dependent one first. -/
def addRelation (d : Document) (layer : String) (dependent governor : AnnotationId) :
    Except StoreError (AnnotationId × Document) :=
  if !d.hasSpan dependent then .error (.unknownId dependent)
  else if !d.hasSpan governor then .error (.unknownId governor)
  else .ok (d.insertRelation layer dependent governor "" none)

/-- Change the first element that satisfies a condition; without one the list stays as it is. -/
def changeFirst {α : Type} (p : α → Bool) (f : α → α) : List α → List α
  | [] => []
  | a :: rest => if p a then f a :: rest else a :: changeFirst p f rest

/-- Set a string feature of the relation with this id, or else of the span with it. -/
def setFeature (d : Document) (id : AnnotationId) (feature value : String) :
    Except StoreError Document :=
  if d.relations.any (·.id == id) then
    .ok { d with relations := changeFirst (·.id == id) (·.setLabel feature value) d.relations }
  else if d.hasSpan id then
    .ok { d with
      spans := changeFirst (·.id == id)
        (fun s => { s with features := s.features.insert feature value }) d.spans }
  else .error (.unknownId id)

/-- Remove every annotation with this id, spans and relations alike; it is an error if there is
none. -/
def delete (d : Document) (id : AnnotationId) : Except StoreError Document :=
  if d.relations.any (·.id == id) || d.hasSpan id then
    .ok { d with
      relations := d.relations.filter (·.id != id)
      spans := d.spans.filter (·.id != id) }
  else .error (.unknownId id)

end Document

end PairAnnotation
