/-
# Documents as JSON

The text form of a document: a record of its fields in order, written over several
lines.  Reading accepts a record as an object or as an array, leaves out names it
does not know, and keeps the feature values of relations whole, as long as they are
not nested too deeply.  A document that is loaded never hands out an id that an
annotation in it has already.
-/

import PairAnnotation.Document.Basic
import PairAnnotation.Json.Tree

namespace PairAnnotation

open Json

/-! ### Writing -/

/-- The record of a span, with its start and where it stops. -/
def Span.toJson (s : Span) : Value := .object [("begin", .nat s.start), ("end", .nat s.stop)]

/-- The record of a tag, which has no field for a description that is missing. -/
def Tag.toJson (t : Tag) : Value :=
  match t.description with
  | none => .object [("name", .string t.name)]
  | some text => .object [("name", .string t.name), ("description", .string text)]

/-- The record of a tag set, its tags in their order. -/
def TagSet.toJson (s : TagSet) : Value :=
  .object [("name", .string s.name), ("tags", .array (s.tags.map Tag.toJson))]

/-- Features as an object, one member for each, in the order of their names. -/
def FeatureMap.toJson {α : Type} (write : α → Value) (m : FeatureMap α) : Value :=
  .object (m.entries.map fun (name, v) => (name, write v))

/-- The record of a span annotation, whose span lies open beside the other fields. -/
def SpanAnnotation.toJson (s : SpanAnnotation) : Value :=
  .object [("id", .nat s.id.val), ("layer", .string s.layer), ("begin", .nat s.span.start),
    ("end", .nat s.span.stop), ("features", s.features.toJson .string)]

/-- The record of a relation: besides id and layer it is all features, its ends among them. -/
def RelationRecord.toJson (r : RelationRecord) : Value :=
  .object [("id", .nat r.id.val), ("layer", .string r.layer),
    ("features", r.features.toJson fun v => v)]

/-- The record of a tag set together with the layer and the feature that it is for. -/
def TagSetRecord.toJson (t : TagSetRecord) : Value :=
  .object [("layer", .string t.layer), ("feature", .string t.feature),
    ("tagset", t.tagSet.toJson)]

namespace Document

/-- The record of a document, with all of its fields in a fixed order. -/
def toJson (d : Document) : Value :=
  .object [("name", .string d.name), ("format", .string d.format), ("text", .string d.text),
    ("sentences", .array (d.sentences.map Span.toJson)),
    ("spans", .array (d.spans.map SpanAnnotation.toJson)),
    ("relations", .array (d.relations.map RelationRecord.toJson)),
    ("tagsets", .array (d.tagSets.map TagSetRecord.toJson)),
    ("next_id", .nat d.nextId)]

/-- The text of a document, written over several lines, as files hold it. -/
def toText (d : Document) : String := d.toJson.prettyText

end Document

/-! ### Reading -/

/-- The span that a tree is the record of; both numbers have to be there and to fit 64 bits. -/
def Span.ofJson? (t : Tree) : Option Span := do
  match ← t.fields? ["begin", "end"] with
  | [start, stop] =>
    let start ← Tree.required? Tree.nat? start
    let stop ← Tree.required? Tree.nat? stop
    some ⟨start, stop⟩
  | _ => none

/-- The tag that a tree is the record of, where a description may be missing or null. -/
def Tag.ofJson? (t : Tree) : Option Tag := do
  match ← t.fields? ["name", "description"] with
  | [name, description] =>
    let name ← Tree.required? Tree.string? name
    let description ← Tree.optional? none (Tree.orNull? Tree.string?) description
    some ⟨name, description⟩
  | _ => none

/-- The tag set that a tree is the record of; the list of tags has to be there. -/
def TagSet.ofJson? (t : Tree) : Option TagSet := do
  match ← t.fields? ["name", "tags"] with
  | [name, tags] =>
    let name ← Tree.required? Tree.string? name
    let tags ← Tree.required? (Tree.list? Tag.ofJson?) tags
    some ⟨name, tags⟩
  | _ => none

/-- The span annotation that a tree is the record of, with no features if none are there. -/
def SpanAnnotation.ofJson? (t : Tree) : Option SpanAnnotation := do
  match ← t.fields? ["id", "layer", "begin", "end", "features"] with
  | [id, layer, start, stop, features] =>
    let id ← Tree.required? Tree.nat? id
    let layer ← Tree.required? Tree.string? layer
    let start ← Tree.required? Tree.nat? start
    let stop ← Tree.required? Tree.nat? stop
    let features ← Tree.optional? FeatureMap.empty (Tree.features? Tree.string?) features
    some ⟨⟨id⟩, layer, ⟨start, stop⟩, features⟩
  | _ => none

/-- The value of a relation's feature, which stands inside four containers already: the document,
its list of relations, the relation, and its features. -/
def featureValue? (t : Tree) : Option Value :=
  if t.depth + 4 ≤ Tree.depthLimit then t.value? else none

/-- The relation that a tree is the record of, with no features, and so no ends, if none are
there. -/
def RelationRecord.ofJson? (t : Tree) : Option RelationRecord := do
  match ← t.fields? ["id", "layer", "features"] with
  | [id, layer, features] =>
    let id ← Tree.required? Tree.nat? id
    let layer ← Tree.required? Tree.string? layer
    let features ← Tree.optional? FeatureMap.empty (Tree.features? featureValue?) features
    some ⟨⟨id⟩, layer, features⟩
  | _ => none

/-- The tag set that a tree is the record of, together with the layer and the feature that it is
for. -/
def TagSetRecord.ofJson? (t : Tree) : Option TagSetRecord := do
  match ← t.fields? ["layer", "feature", "tagset"] with
  | [layer, feature, tagSet] =>
    let layer ← Tree.required? Tree.string? layer
    let feature ← Tree.required? Tree.string? feature
    let tagSet ← Tree.required? TagSet.ofJson? tagSet
    some ⟨layer, feature, tagSet⟩
  | _ => none

namespace Document

/-- The document that a tree is the record of; name, format and text have to be there. -/
def ofJson? (t : Tree) : Option Document := do
  match ← t.fields?
      ["name", "format", "text", "sentences", "spans", "relations", "tagsets", "next_id"] with
  | [name, format, text, sentences, spans, relations, tagSets, nextId] =>
    let name ← Tree.required? Tree.string? name
    let format ← Tree.required? Tree.string? format
    let text ← Tree.required? Tree.string? text
    let sentences ← Tree.optional? [] (Tree.list? Span.ofJson?) sentences
    let spans ← Tree.optional? [] (Tree.list? SpanAnnotation.ofJson?) spans
    let relations ← Tree.optional? [] (Tree.list? RelationRecord.ofJson?) relations
    let tagSets ← Tree.optional? [] (Tree.list? TagSetRecord.ofJson?) tagSets
    let nextId ← Tree.optional? 0 Tree.nat? nextId
    some { name, format, text, sentences, spans, relations, tagSets, nextId }
  | _ => none

/-- The document that a text is the record of, its next id as it stands there. -/
def ofText? (text : String) : Option Document := (Tree.parse text).bind ofJson?

/-- The document with a next id beyond every id in it.  That there is one among the words of 64 bits
is told apart (`Word.reserveIds_eq`). -/
def reserveIds (d : Document) : Document := { d with nextId := max d.nextId (d.greatestId + 1) }

end Document

end PairAnnotation
