/-
# Documents that are written and read again

A document that fits 64 bits and whose relations hold no binary64 numbers
(`Document.Storable`) is read from its own text as it was written (`ofText?_toText`).  The
records are objects with their fields in order, so each field is found under its name
(`fields?_tree`), and what is left is to read a value, a list or a feature map field by
field.  What was read from a text fits 64 bits already (`storable_of_ofText?`).
-/

import PairAnnotation.Document.Json
import PairAnnotation.Proofs.Document.Ids
import PairAnnotation.Proofs.Json.Fields

namespace PairAnnotation

open Json

/-! ### Records -/

/-- Features hold no real number as soon as none of their values does. -/
theorem FeatureMap.realFree_toJson {α : Type} {write : α → Value} {m : FeatureMap α}
    (h : ∀ e ∈ m.entries, (write e.2).realFree = true) : (m.toJson write).realFree = true := by
  refine realFree_object.2 ?_
  rw [List.forall_mem_map]
  exact h

/-- A tag is written without real numbers, with a description or without. -/
theorem Tag.realFree_toJson (t : Tag) : t.toJson.realFree = true := by
  obtain ⟨name, description⟩ := t
  cases description <;> rfl

/-- Both offsets fit 64 bits, as they do in every text that was read. -/
def Span.InRange (s : Span) : Prop := s.start ≤ Numeral.word ∧ s.stop ≤ Numeral.word

/-- A span whose ends fit 64 bits is read as it was written. -/
theorem Span.ofJson?_toJson {s : Span} (h : s.InRange) : ofJson? s.toJson.tree = some s := by
  rw [ofJson?, toJson, Tree.fields?_tree _ (by simp)]
  simp [lookup_cons_ite, Tree.required?, Tree.nat?_nat h.1, Tree.nat?_nat h.2]

/-- A tag is read as it was written, and a missing description is read as missing. -/
theorem Tag.ofJson?_toJson (t : Tag) : ofJson? t.toJson.tree = some t := by
  obtain ⟨name, description⟩ := t
  cases description with
  | none =>
    rw [ofJson?, toJson, Tree.fields?_tree _ (by simp)]
    rfl
  | some text =>
    rw [ofJson?, toJson, Tree.fields?_tree _ (by simp)]
    rfl

/-- A tag set is read as it was written, tag by tag. -/
theorem TagSet.ofJson?_toJson (s : TagSet) : ofJson? s.toJson.tree = some s := by
  have htags := Tree.list?_array Tag.ofJson? (l := s.tags) fun t _ => t.ofJson?_toJson
  rw [ofJson?, toJson, Tree.fields?_tree _ (by simp)]
  simp [lookup_cons_ite, Tree.required?, htags, Tree.string?_string]

/-- The tag set of a feature is read as it was written, with its layer and its feature. -/
theorem TagSetRecord.ofJson?_toJson (t : TagSetRecord) : ofJson? t.toJson.tree = some t := by
  rw [ofJson?, toJson, Tree.fields?_tree _ (by simp)]
  simp [lookup_cons_ite, Tree.required?, t.tagSet.ofJson?_toJson, Tree.string?_string]

/-- Id and offsets fit 64 bits; layer and features are texts, which always fit. -/
structure SpanAnnotation.InRange (s : SpanAnnotation) : Prop where
  id : s.id.val ≤ Numeral.word
  span : s.span.InRange

/-- A span annotation whose numbers fit 64 bits is read as it was written, its features included. -/
theorem SpanAnnotation.ofJson?_toJson {s : SpanAnnotation} (h : s.InRange) :
    ofJson? s.toJson.tree = some s := by
  have hfeatures : (s.features.toJson .string).tree.features? Tree.string? = some s.features :=
    Tree.features?_object .string fun e _ => Tree.string?_string e.2
  rw [ofJson?, toJson, Tree.fields?_tree _ (by simp)]
  simp [lookup_cons_ite, Tree.required?, Tree.optional?, Tree.nat?_nat h.id,
    Tree.nat?_nat h.span.1, Tree.nat?_nat h.span.2, Tree.string?_string, hfeatures]

/-- **A feature value that a text can hold**: its integers fit 64 bits, it has no binary64 numbers,
and it nests no deeper than is read. -/
structure Json.Value.Storable (v : Value) : Prop where
  kept : v.Kept
  realFree : v.realFree = true
  depth_le : v.tree.depth + 4 ≤ Tree.depthLimit

/-- The value of a feature is read as it was written, if it holds no real number and is not nested
too deeply. -/
theorem featureValue?_tree {v : Value} (h : v.Storable) : featureValue? v.tree = some v := by
  rw [featureValue?, if_pos h.depth_le, value?_tree v h.kept h.realFree]

/-- A relation that is read as it was written: its id fits 64 bits, and its features hold values
that are kept. -/
structure RelationRecord.Storable (r : RelationRecord) : Prop where
  id : r.id.val ≤ Numeral.word
  features : ∀ e ∈ r.features.entries, e.2.Storable

/-- A relation that can be stored is read as it was written, with all its features. -/
theorem RelationRecord.ofJson?_toJson {r : RelationRecord} (h : r.Storable) :
    ofJson? r.toJson.tree = some r := by
  have hfeatures : (r.features.toJson fun v => v).tree.features? featureValue? = some r.features :=
    Tree.features?_object (fun v => v) fun e he => featureValue?_tree (h.features e he)
  rw [ofJson?, toJson, Tree.fields?_tree _ (by simp)]
  simp [lookup_cons_ite, Tree.required?, Tree.optional?, Tree.nat?_nat h.id, Tree.string?_string,
    hfeatures]

namespace Document

/-- **A document that a text can hold**: its numbers fit 64 bits, and the features of its relations
hold values that are kept. -/
structure Storable (d : Document) : Prop where
  sentences : ∀ s ∈ d.sentences, s.InRange
  spans : ∀ s ∈ d.spans, s.InRange
  relations : ∀ r ∈ d.relations, r.Storable
  nextId : d.nextId ≤ Numeral.word

/-- **A document that can be stored is read as it was written**, field by field. -/
theorem ofJson?_toJson {d : Document} (h : d.Storable) : ofJson? d.toJson.tree = some d := by
  have hsentences := Tree.list?_array Span.ofJson? fun s hs =>
    Span.ofJson?_toJson (h.sentences s hs)
  have hspans := Tree.list?_array SpanAnnotation.ofJson? fun s hs =>
    SpanAnnotation.ofJson?_toJson (h.spans s hs)
  have hrelations := Tree.list?_array RelationRecord.ofJson? fun r hr =>
    RelationRecord.ofJson?_toJson (h.relations r hr)
  have htagSets := Tree.list?_array TagSetRecord.ofJson? (l := d.tagSets) fun t _ =>
    t.ofJson?_toJson
  rw [ofJson?, toJson, Tree.fields?_tree _ (by simp)]
  simp [lookup_cons_ite, Tree.required?, Tree.optional?, Tree.nat?_nat h.nextId,
    Tree.string?_string, hsentences, hspans, hrelations, htagSets]

/-- Only feature values of relations can hold binary64 numbers, so a document that can be stored
holds none. -/
theorem realFree_toJson {d : Document} (h : d.Storable) : d.toJson.realFree = true := by
  have hsentences : ∀ s ∈ d.sentences, s.toJson.realFree = true := fun s _ => by
    simp [Span.toJson, realFree_object]
  have hspans : ∀ s ∈ d.spans, s.toJson.realFree = true := fun s _ => by
    have hfeatures : (s.features.toJson .string).realFree = true :=
      FeatureMap.realFree_toJson fun e _ => realFree_string e.2
    simp [realFree_object, hfeatures, SpanAnnotation.toJson]
  have hrelations : ∀ r ∈ d.relations, r.toJson.realFree = true := fun r hr => by
    have hfeatures : (r.features.toJson fun v => v).realFree = true :=
      FeatureMap.realFree_toJson fun e he => ((h.relations r hr).features e he).realFree
    simp [RelationRecord.toJson, realFree_object, hfeatures]
  have htagSets : ∀ t ∈ d.tagSets, t.toJson.realFree = true := fun t _ => by
    simp [TagSetRecord.toJson, TagSet.toJson, realFree_object, realFree_array_map,
      Tag.realFree_toJson]
  simpa [toJson, realFree_object, realFree_array_map] using
    ⟨hsentences, hspans, hrelations, htagSets⟩

/-- **A document is read from its text as it was written.** -/
theorem ofText?_toText {d : Document} (h : d.Storable) : ofText? d.toText = some d := by
  rw [ofText?, toText, Tree.parse_prettyText (realFree_toJson h), Option.bind_some,
    ofJson?_toJson h]

end Document

/-! ### What was read -/

/-- The ends of a span that was read fit 64 bits. -/
theorem Span.inRange_of_ofJson? {t : Tree} {s : Span} (h : ofJson? t = some s) : s.InRange := by
  simp only [ofJson?, Option.bind_eq_bind, Option.bind_eq_some_iff] at h
  obtain ⟨fields, -, h⟩ := h
  split at h
  · simp only [Option.bind_eq_some_iff, Option.some.injEq] at h
    obtain ⟨start, hstart, stop, hstop, rfl⟩ := h
    exact ⟨Tree.le_of_required? hstart, Tree.le_of_required? hstop⟩
  · cases h

/-- The numbers of a span annotation that was read fit 64 bits. -/
theorem SpanAnnotation.inRange_of_ofJson? {t : Tree} {s : SpanAnnotation}
    (h : ofJson? t = some s) : s.InRange := by
  simp only [ofJson?, Option.bind_eq_bind, Option.bind_eq_some_iff] at h
  obtain ⟨fields, -, h⟩ := h
  split at h
  · simp only [Option.bind_eq_some_iff, Option.some.injEq] at h
    obtain ⟨id, hid, layer, -, start, hstart, stop, hstop, features, -, rfl⟩ := h
    exact ⟨Tree.le_of_required? hid, Tree.le_of_required? hstart, Tree.le_of_required? hstop⟩
  · cases h

/-- A feature value that was read can be stored again, if it holds no real number. -/
theorem storable_of_featureValue? {t : Tree} {v : Value} (h : featureValue? t = some v)
    (hreal : v.realFree = true) : v.Storable := by
  unfold featureValue? at h
  split at h
  · rename_i hdepth
    obtain ⟨hkept, hle⟩ := kept_of_value? t h
    exact ⟨hkept, hreal, by omega⟩
  · cases h

/-- A relation that was read can be stored again, if none of its features holds a real number. -/
theorem RelationRecord.storable_of_ofJson? {t : Tree} {r : RelationRecord} (h : ofJson? t = some r)
    (hreal : ∀ e ∈ r.features.entries, e.2.realFree = true) : r.Storable := by
  simp only [ofJson?, Option.bind_eq_bind, Option.bind_eq_some_iff] at h
  obtain ⟨fields, -, h⟩ := h
  split at h
  · simp only [Option.bind_eq_some_iff, Option.some.injEq] at h
    obtain ⟨id, hid, layer, -, features, hfeatures, rfl⟩ := h
    refine ⟨Tree.le_of_required? hid, fun e he => ?_⟩
    obtain ⟨t, ht⟩ := Tree.exists_of_features? hfeatures e he
    exact storable_of_featureValue? ht (hreal e he)
  · cases h

namespace Document

/-- **What was read from a text can be written to one**, when no relation holds a binary64
number. -/
theorem storable_of_ofText? {text : String} {d : Document} (h : ofText? text = some d)
    (hreal : ∀ r ∈ d.relations, ∀ e ∈ r.features.entries, e.2.realFree = true) : d.Storable := by
  obtain ⟨t, -, h⟩ := Option.bind_eq_some_iff.1 h
  simp only [ofJson?, Option.bind_eq_bind, Option.bind_eq_some_iff] at h
  obtain ⟨fields, -, h⟩ := h
  split at h
  · simp only [Option.bind_eq_some_iff, Option.some.injEq] at h
    obtain ⟨name, -, format, -, text, -, sentences, hsentences, spans, hspans, relations,
      hrelations, tagSets, -, nextId, hnextId, rfl⟩ := h
    refine ⟨fun s hs => ?_, fun s hs => ?_, fun r hr => ?_, Tree.le_of_optional? hnextId⟩
    · obtain ⟨t, ht⟩ := Tree.exists_of_list? hsentences s hs
      exact Span.inRange_of_ofJson? ht
    · obtain ⟨t, ht⟩ := Tree.exists_of_list? hspans s hs
      exact SpanAnnotation.inRange_of_ofJson? ht
    · obtain ⟨t, ht⟩ := Tree.exists_of_list? hrelations r hr
      exact RelationRecord.storable_of_ofJson? ht (hreal r hr)
  · cases h

end Document
end PairAnnotation
