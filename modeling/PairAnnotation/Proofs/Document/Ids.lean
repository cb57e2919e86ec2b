/-
# Ids of a document

A document is well formed (`Document.WellFormed`) when no two annotations share an id
and the next id is beyond every id that stands in it, be it the id of an annotation or
one that an end of a relation points at.  Then the fresh id is that of no annotation,
and no dangling end waits for it.  Every edit keeps a document well formed, as long as
it does not write into the ends of a relation.
-/

import Mathlib.Data.List.Nodup
import PairAnnotation.Segment

namespace PairAnnotation

namespace RelationRecord

/-- The ids that the two ends of a relation point at. -/
def ends (r : RelationRecord) : List AnnotationId :=
  [dependentFeature, governorFeature].filterMap r.idFeature?

/-- An id is one that an end points at exactly if one of the two features holds it. -/
theorem mem_ends_iff {r : RelationRecord} {id : AnnotationId} :
    id ∈ r.ends ↔
      r.idFeature? dependentFeature = some id ∨ r.idFeature? governorFeature = some id := by
  simp [ends, List.mem_filterMap]

/-- Setting a feature leaves alone what another one holds, the ends of the relation included. -/
theorem idFeature?_setLabel {r : RelationRecord} {feature value key : String} (h : feature ≠ key) :
    (r.setLabel feature value).idFeature? key = r.idFeature? key := by
  rw [idFeature?, setLabel, FeatureMap.get?_insert, if_neg h.symm]
  rfl

/-- The end that depends is the one that a new relation was given for it. -/
theorem idFeature?_dependent_linking (id : AnnotationId) (layer : String)
    (dependent governor : AnnotationId) :
    (linking id layer dependent governor).idFeature? dependentFeature = some dependent := by
  simp [idFeature?, linking, FeatureMap.get?_insert, dependentFeature, governorFeature,
    Json.Value.nat, Json.Value.toNat?]

/-- The end that governs is the one that a new relation was given for it. -/
theorem idFeature?_governor_linking (id : AnnotationId) (layer : String)
    (dependent governor : AnnotationId) :
    (linking id layer dependent governor).idFeature? governorFeature = some governor := by
  simp [idFeature?, linking, FeatureMap.get?_insert, governorFeature, Json.Value.nat,
    Json.Value.toNat?]

/-- A new edge with the label that an old one had, or with none. -/
def relinked (id : AnnotationId) (layer labelFeature : String) (dependent governor : AnnotationId)
    (label : Option String) : RelationRecord :=
  match label with
  | some value => (linking id layer dependent governor).setLabel labelFeature value
  | none => linking id layer dependent governor

variable {id dependent governor : AnnotationId} {layer : String} {label : Option String}

@[simp]
theorem id_relinked : (relinked id layer labelFeature dependent governor label).id = id := by
  cases label <;> rfl

@[simp]
theorem layer_relinked :
    (relinked id layer labelFeature dependent governor label).layer = layer := by
  cases label <;> rfl

/-- A label does not write over the dependent end, as long as it is kept under another name. -/
theorem idFeature?_dependent_relinked (hd : labelFeature ≠ dependentFeature) :
    (relinked id layer labelFeature dependent governor label).idFeature? dependentFeature =
      some dependent := by
  cases label with
  | none => exact idFeature?_dependent_linking ..
  | some value =>
    rw [relinked, idFeature?_setLabel hd]
    exact idFeature?_dependent_linking ..

/-- A label does not write over the governing end, as long as it is kept under another name. -/
theorem idFeature?_governor_relinked (hg : labelFeature ≠ governorFeature) :
    (relinked id layer labelFeature dependent governor label).idFeature? governorFeature =
      some governor := by
  cases label with
  | none => exact idFeature?_governor_linking ..
  | some value =>
    rw [relinked, idFeature?_setLabel hg]
    exact idFeature?_governor_linking ..

/-- **The ends of an edge that is linked anew** are the two that it was given, with a label or
without one. -/
theorem ends_relinked (hd : labelFeature ≠ dependentFeature)
    (hg : labelFeature ≠ governorFeature) :
    (relinked id layer labelFeature dependent governor label).ends = [dependent, governor] := by
  simp [ends, idFeature?_dependent_relinked hd, idFeature?_governor_relinked hg]

end RelationRecord

namespace Document

/-- **Two documents that differ in their annotations at most**: name, format, text, sentences and
tag sets are the same. -/
structure SameFrame (d d' : Document) : Prop where
  name : d'.name = d.name
  format : d'.format = d.format
  text : d'.text = d.text
  sentences : d'.sentences = d.sentences
  tagSets : d'.tagSets = d.tagSets

theorem SameFrame.refl (d : Document) : d.SameFrame d := ⟨rfl, rfl, rfl, rfl, rfl⟩

theorem SameFrame.trans {d d' d'' : Document} (h : d.SameFrame d') (h' : d'.SameFrame d'') :
    d.SameFrame d'' where
  name := h'.name.trans h.name
  format := h'.format.trans h.format
  text := h'.text.trans h.text
  sentences := h'.sentences.trans h.sentences
  tagSets := h'.tagSets.trans h.tagSets

/-- A new span touches nothing but spans and the next id. -/
theorem frame_insertSpan (d : Document) (layer : String) (span : Span)
    (features : FeatureMap String) : d.SameFrame (d.insertSpan layer span features).2 :=
  ⟨rfl, rfl, rfl, rfl, rfl⟩

/-- A new relation touches nothing but relations and the next id. -/
theorem frame_insertRelation (d : Document) (layer : String) (dependent governor : AnnotationId)
    (labelFeature : String) (label : Option String) :
    d.SameFrame (d.insertRelation layer dependent governor labelFeature label).2 :=
  ⟨rfl, rfl, rfl, rfl, rfl⟩

/-- The ids of all annotations, those of spans first. -/
def ids (d : Document) : List AnnotationId := d.spans.map (·.id) ++ d.relations.map (·.id)

/-- **No id stands for two annotations, and the next id is beyond every id in the document**, those
that the ends of relations point at included. -/
structure WellFormed (d : Document) : Prop where
  nodup : d.ids.Nodup
  id_lt : ∀ id ∈ d.ids, id.val < d.nextId
  end_lt : ∀ r ∈ d.relations, ∀ id ∈ r.ends, id.val < d.nextId

/-- Whether a document is well formed is decided by looking at all ids in it. -/
instance (d : Document) : Decidable d.WellFormed :=
  decidable_of_iff
    (d.ids.Nodup ∧ (∀ id ∈ d.ids, id.val < d.nextId) ∧
      ∀ r ∈ d.relations, ∀ id ∈ r.ends, id.val < d.nextId)
    ⟨fun ⟨hnodup, hid, hend⟩ => ⟨hnodup, hid, hend⟩, fun h => ⟨h.nodup, h.id_lt, h.end_lt⟩⟩

/-- A document with three sentences, the second of which depends on the first one. -/
def threeSentences : Document where
  name := "three"
  format := "text"
  text := "A. B. C."
  sentences := [⟨0, 2⟩, ⟨3, 5⟩, ⟨6, 8⟩]
  spans :=
    [⟨⟨1⟩, "webanno.custom.Sentence", ⟨0, 2⟩, FeatureMap.empty⟩,
      ⟨⟨2⟩, "webanno.custom.Sentence", ⟨3, 5⟩, FeatureMap.empty⟩]
  relations :=
    [.relinked ⟨3⟩ "webanno.custom.SentenceRelation" "label" ⟨2⟩ ⟨1⟩ (some "cause")]
  nextId := 4

/-- The document with three sentences has distinct ids below its next one. -/
theorem threeSentences_wellFormed : threeSentences.WellFormed := by decide

/-- The sentences of that document as the segments of a session, in the order in which they
stand. -/
def threeSegments : SegmentList :=
  ⟨threeSentences.sentences.map (SegmentList.bare threeSentences), .derived⟩

set_option maxRecDepth 10000 in
/-- The format of that document is none that brings its segments along. -/
theorem isPreAnnotatedFormat_threeSentences :
    LayerConfig.isPreAnnotatedFormat {} threeSentences.format = false := by decide

/-- The segments of that document are its sentences, since its format brings none along. -/
theorem load_threeSentences : SegmentList.load threeSentences {} = threeSegments := by
  have hordered : threeSentences.orderedSentences = threeSentences.sentences :=
    List.mergeSort_of_pairwise (by decide)
  rw [SegmentList.load, isPreAnnotatedFormat_threeSentences, if_neg (by decide),
    SegmentList.derived, hordered]
  rfl

/-- The id of a span is one of the ids in the document. -/
theorem mem_ids_of_span {d : Document} {s : SpanAnnotation} (h : s ∈ d.spans) : s.id ∈ d.ids :=
  List.mem_append_left _ (List.mem_map_of_mem h)

/-- The id of a relation is one of the ids in the document. -/
theorem mem_ids_of_relation {d : Document} {r : RelationRecord} (h : r ∈ d.relations) :
    r.id ∈ d.ids :=
  List.mem_append_right _ (List.mem_map_of_mem h)

/-- A new relation stands behind all others, with the fresh id and with its label, if it has one. -/
theorem relations_insertRelation (d : Document) (layer : String)
    (dependent governor : AnnotationId) (labelFeature : String) (label : Option String) :
    (d.insertRelation layer dependent governor labelFeature label).2.relations =
      d.relations ++
        [RelationRecord.relinked d.freshId layer labelFeature dependent governor label] := by
  cases label <;> rfl

/-- A new span brings the fresh id and no other. -/
theorem ids_insertSpan (d : Document) (layer : String) (span : Span)
    (features : FeatureMap String) :
    (d.insertSpan layer span features).2.ids.Perm (d.freshId :: d.ids) := by
  simp only [ids, insertSpan, List.map_append, List.map_cons, List.map_nil, List.append_assoc,
    List.singleton_append]
  exact List.perm_middle

/-- A new relation brings the fresh id and no other. -/
theorem ids_insertRelation (d : Document) (layer : String) (dependent governor : AnnotationId)
    (labelFeature : String) (label : Option String) :
    (d.insertRelation layer dependent governor labelFeature label).2.ids.Perm
      (d.freshId :: d.ids) := by
  have hspans : (d.insertRelation layer dependent governor labelFeature label).2.spans = d.spans :=
    rfl
  rw [ids, relations_insertRelation, hspans, List.map_append, List.map_singleton,
    RelationRecord.id_relinked, ← List.append_assoc]
  exact List.perm_append_singleton _ _

/-- The fresh id is the next one, or it is greater, since zero is never given out. -/
theorem nextId_le_freshId (d : Document) : d.nextId ≤ d.freshId.val := Nat.le_max_left _ _

namespace WellFormed

variable {d : Document}

/-- An id below the next one is not the fresh one. -/
theorem ne_freshId_of_lt {id : AnnotationId} (h : id.val < d.nextId) : id ≠ d.freshId := by
  rintro rfl
  have := d.nextId_le_freshId
  omega

/-- **The fresh id of a well-formed document is free**: no annotation has it. -/
theorem freshId_not_mem (h : d.WellFormed) : d.freshId ∉ d.ids := fun hmem =>
  ne_freshId_of_lt (h.id_lt _ hmem) rfl

/-- The id of a relation is that of no span. -/
theorem span_id_ne (h : d.WellFormed) {s : SpanAnnotation} {r : RelationRecord} (hs : s ∈ d.spans)
    (hr : r ∈ d.relations) : s.id ≠ r.id :=
  (List.nodup_append.1 h.nodup).2.2 _ (List.mem_map_of_mem hs) _ (List.mem_map_of_mem hr)

/-- Two relations with one id are one relation, since ids are distinct. -/
theorem relation_eq_of_id_eq (h : d.WellFormed) {r r' : RelationRecord} (hr : r ∈ d.relations)
    (hr' : r' ∈ d.relations) (hid : r.id = r'.id) : r = r' :=
  List.inj_on_of_nodup_map (List.nodup_append.1 h.nodup).2.1 hr hr' hid

/-! ### Edits -/

/-- A new span takes the fresh id, which is that of nothing else, so the document stays well
formed. -/
theorem insertSpan (h : d.WellFormed) (layer : String) (span : Span)
    (features : FeatureMap String) : (d.insertSpan layer span features).2.WellFormed := by
  have hids := d.ids_insertSpan layer span features
  have hle := d.nextId_le_freshId
  refine ⟨hids.nodup_iff.2 (List.nodup_cons.2 ⟨h.freshId_not_mem, h.nodup⟩), ?_, ?_⟩
  · intro id hid
    change id.val < d.freshId.val + 1
    rcases List.mem_cons.1 (hids.mem_iff.1 hid) with rfl | hid
    · omega
    · have := h.id_lt id hid
      omega
  · intro r hr id hid
    change id.val < d.freshId.val + 1
    have := h.end_lt r hr id hid
    omega

/-- A new relation takes the fresh id; its ends have to be ids in use. -/
theorem insertRelation (h : d.WellFormed) {layer labelFeature : String}
    {dependent governor : AnnotationId} {label : Option String}
    (hdependent : labelFeature ≠ RelationRecord.dependentFeature)
    (hgovernor : labelFeature ≠ RelationRecord.governorFeature)
    (hd : dependent.val < d.nextId) (hg : governor.val < d.nextId) :
    (d.insertRelation layer dependent governor labelFeature label).2.WellFormed := by
  let d' := (d.insertRelation layer dependent governor labelFeature label).2
  have hrelations := d.relations_insertRelation layer dependent governor labelFeature label
  show d'.WellFormed
  have hids : d'.ids.Perm (d.freshId :: d.ids) :=
    d.ids_insertRelation layer dependent governor labelFeature label
  have hle := d.nextId_le_freshId
  have hnext : d'.nextId = d.freshId.val + 1 := rfl
  refine ⟨hids.nodup_iff.2 (List.nodup_cons.2 ⟨h.freshId_not_mem, h.nodup⟩), ?_, ?_⟩
  · intro id hid
    rcases List.mem_cons.1 (hids.mem_iff.1 hid) with rfl | hid
    · omega
    · have := h.id_lt id hid
      omega
  · intro r' hr' id hid
    rw [hrelations] at hr'
    rcases List.mem_append.1 hr' with hr' | hr'
    · have := h.end_lt r' hr' id hid
      omega
    · rw [List.mem_singleton.1 hr', RelationRecord.ends_relinked hdependent hgovernor,
        List.mem_cons, List.mem_singleton] at hid
      rcases hid with rfl | rfl <;> omega

/-- What is left of a well-formed document is well formed, whatever was taken away. -/
theorem of_sublist (h : d.WellFormed) {d' : Document} (hspans : d'.spans.Sublist d.spans)
    (hrelations : d'.relations.Sublist d.relations) (hnext : d.nextId ≤ d'.nextId) :
    d'.WellFormed := by
  have hids : d'.ids.Sublist d.ids := (hspans.map _).append (hrelations.map _)
  refine ⟨h.nodup.sublist hids, fun id hid => ?_, fun r hr id hid => ?_⟩
  · exact Nat.lt_of_lt_of_le (h.id_lt id (hids.subset hid)) hnext
  · exact Nat.lt_of_lt_of_le (h.end_lt r (hrelations.subset hr) id hid) hnext

/-- Ids may be passed over: a document stays well formed with any greater next id. -/
theorem raise (h : d.WellFormed) {next : Nat} (hnext : d.nextId ≤ next) :
    { d with nextId := next }.WellFormed :=
  h.of_sublist (List.Sublist.refl _) (List.Sublist.refl _) hnext

end WellFormed
end Document
end PairAnnotation
