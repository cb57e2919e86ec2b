/-
# Segments of a document that is opened again

Where the segments of a document come from is decided anew each time it is opened: from
the sentence layer when the format allows it and the layer has annotations
(`SegmentList.FromLayer`), from the sentences of the text otherwise.  Labels create
annotations on that very layer.  A document that brings its segments loses none of them
and gains none, since every end of a label has its annotation already
(`spans_reached`).  A document of another format has its sentences, which no label
touches (`frame_reached`).

What is left are documents of a pre-annotated format whose sentence layer is empty.  Their
segments last exactly as long as the layer stays empty (`reload_segments`); the first
label that is accepted leaves two segments of all (`reload_segments_loses`).
-/

import PairAnnotation.Proofs.Session.Invariants
import PairAnnotation.Proofs.Writer.Written

namespace PairAnnotation

namespace Document

/-- The annotations of a layer are those of the document that are on it, whatever their order. -/
theorem mem_layerSpans {d : Document} {layer : String} {s : SpanAnnotation} :
    s ∈ d.layerSpans layer ↔ s ∈ d.spans ∧ s.layer = layer := by
  simp [layerSpans, List.mem_mergeSort]

/-- A span of the layer has its annotation there, though it need not be this one. -/
theorem idAt?_ne_none {d : Document} {layer : String} {s : SpanAnnotation}
    (h : s ∈ d.layerSpans layer) : d.idAt? layer s.span ≠ none := by
  obtain ⟨hs, hlayer⟩ := mem_layerSpans.1 h
  have hsome := (d.isNone_idAt? layer s.span).trans (congrArg not
    (List.any_eq_true.2 ⟨s, hs, by simp [hlayer]⟩))
  rintro hnone
  rw [hnone] at hsome
  cases hsome

theorem frame_of_setFeature {d d' : Document} {id : AnnotationId} {feature value : String}
    (h : d.setFeature id feature value = .ok d') : d.SameFrame d' := by
  unfold setFeature at h
  split at h
  · cases h
    exact ⟨rfl, rfl, rfl, rfl, rfl⟩
  · split at h
    · cases h
      exact ⟨rfl, rfl, rfl, rfl, rfl⟩
    · cases h

/-- **The same spans**, and ids that tell them from relations, those to come included. -/
structure SameSpans (d d' : Document) : Prop extends SameFrame d d' where
  spans : d'.spans = d.spans
  relation_id : ∀ r ∈ d'.relations, ∀ s ∈ d.spans, s.id ≠ r.id
  id_lt : ∀ s ∈ d.spans, s.id.val < d'.nextId

/-- A well-formed document has its own spans, and its ids tell spans from relations. -/
theorem WellFormed.sameSpans {d : Document} (h : d.WellFormed) : d.SameSpans d where
  toSameFrame := .refl d
  spans := rfl
  relation_id _ hr _ hs := h.span_id_ne hs hr
  id_lt _ hs := h.id_lt _ (mem_ids_of_span hs)

end Document

namespace SegmentList

variable {d d' : Document} {layers : LayerConfig}

/-- **A document that brings its segments**: its format allows it, and its sentence layer has
annotations. -/
def FromLayer (d : Document) (layers : LayerConfig) : Prop :=
  layers.isPreAnnotatedFormat d.format = true ∧ d.layerSpans layers.sentenceLayer ≠ []

/-- **A document that brings its segments has them from its sentence layer**, in order. -/
theorem load_of_fromLayer (h : FromLayer d layers) :
    load d layers = ⟨(d.layerSpans layers.sentenceLayer).map (annotated d), .preAnnotated⟩ := by
  rw [load, if_pos h.1, if_neg]
  simpa using h.2

/-- A document that does not bring its segments has them from its sentences. -/
theorem load_of_not_fromLayer (h : ¬ FromLayer d layers) : load d layers = derived d := by
  unfold load
  split
  · rename_i hformat
    have hnil : d.layerSpans layers.sentenceLayer = [] := by
      by_contra hne
      exact h ⟨hformat, hne⟩
    rw [hnil]
    rfl
  · rfl

/-- Where segments come from is told by their source, so a session knows it. -/
theorem source_load_iff : (load d layers).source = .preAnnotated ↔ FromLayer d layers := by
  by_cases h : FromLayer d layers
  · rw [load_of_fromLayer h]
    exact iff_of_true rfl h
  · rw [load_of_not_fromLayer h]
    exact iff_of_false (by simp [derived]) h

/-- Derived segments depend on the text and the sentences alone, which no label changes. -/
theorem derived_congr (h : d.SameFrame d') : derived d' = derived d := by
  have hbare : bare d' = bare d := by
    funext span
    rw [bare, bare, h.text]
  rw [derived, derived, Document.orderedSentences, Document.orderedSentences, h.sentences, h.text,
    hbare]

/-- Segments are loaded alike from documents with the same frame and the same spans. -/
theorem load_congr_spans (h : d.SameFrame d') (hspans : d'.spans = d.spans) :
    load d' layers = load d layers := by
  have hannotated : annotated d' = annotated d := by
    funext s
    rw [annotated, annotated, h.text]
  rw [load, load, h.format, Document.layerSpans, Document.layerSpans, hspans, hannotated,
    derived_congr h]

/-- Every segment that a document brings has its annotation on the sentence layer. -/
theorem idAt?_ne_none_of_fromLayer (h : FromLayer d layers) {i : Nat} {span : Span}
    (hi : (load d layers).spanAt? i = some span) : d.idAt? layers.sentenceLayer span ≠ none := by
  rw [load_of_fromLayer h] at hi
  obtain ⟨segment, hsegment, rfl⟩ := Option.map_eq_some_iff.1 hi
  obtain ⟨s, hs, rfl⟩ := List.mem_map.1 (List.mem_of_getElem? hsegment)
  exact Document.idAt?_ne_none hs

end SegmentList

namespace LabelWriter

/-- Labels keep the frame of a document: its name, its format, its text, its sentences and its tag
sets. -/
theorem keptByLabels_frame (d : Document) (layers : LayerConfig) (segment : Span → Prop) :
    KeptByLabels layers segment (fun _ => True) (fun _ => True) d.SameFrame where
  insertSpan h _ _ := ⟨trivial, h.trans (Document.frame_insertSpan ..)⟩
  insertRelation _ _ h := ⟨trivial, h.trans (Document.frame_insertRelation ..)⟩
  setFeature h _ hset := h.trans (Document.frame_of_setFeature hset)
  without h _ := h.trans (Document.frame_without ..)
  old_of_mem _ _ := trivial

/-- **Labels keep the spans of a document**, when each end has its annotation. -/
theorem keptByLabels_spans {d : Document} {layers : LayerConfig} {segment : Span → Prop}
    (hsegment : ∀ span, segment span → d.idAt? layers.sentenceLayer span ≠ none) :
    KeptByLabels layers segment (fun id => ∀ s ∈ d.spans, s.id ≠ id)
      (fun id => ∀ s ∈ d.spans, s.id ≠ id) d.SameSpans where
  insertSpan {d' span} h hspan hnone := by
    rw [Document.idAt?, h.spans] at hnone
    exact absurd hnone (hsegment span hspan)
  insertRelation {d'} dependent governor h := by
    have hfresh : ∀ s ∈ d.spans, s.id.val < d'.freshId.val := fun s hs =>
      Nat.lt_of_lt_of_le (h.id_lt s hs) d'.nextId_le_freshId
    have hne : ∀ s ∈ d.spans, s.id ≠ d'.freshId := by
      rintro s hs heq
      exact Nat.lt_irrefl _ (heq ▸ hfresh s hs)
    refine ⟨hne, h.toSameFrame.trans (d'.frame_insertRelation ..), h.spans, fun r hr => ?_,
      fun s hs => Nat.lt_succ_of_lt (hfresh s hs)⟩
    rcases List.mem_append.1 hr with hr | hr
    · exact h.relation_id r hr
    · rw [List.mem_singleton.1 hr]
      exact hne
  setFeature {d' d'' id value} h hown hset := by
    have hframe := h.toSameFrame.trans (Document.frame_of_setFeature hset)
    have hspan : d'.hasSpan id = false :=
      List.any_eq_false.2 fun s hs => by simpa using hown s (h.spans ▸ hs)
    rw [Document.setFeature, hspan] at hset
    split at hset
    · cases hset
      refine ⟨hframe, h.spans, fun r hr => ?_, h.id_lt⟩
      rcases Document.mem_changeFirst hr with hr | ⟨r', hr', -, rfl⟩
      · exact h.relation_id r hr
      · exact h.relation_id r' hr'
    · cases hset
  without {d' id} h hid := by
    have hid : ∀ s ∈ d'.spans, s.id ∉ [id] := fun s hs heq =>
      hid.elim (· s (h.spans ▸ hs)) (· s (h.spans ▸ hs)) (List.mem_singleton.1 heq)
    exact ⟨h.toSameFrame.trans (d'.frame_without _), (Document.spans_without hid).trans h.spans,
      fun r hr => h.relation_id r (List.mem_filter.1 hr).1, h.id_lt⟩
  old_of_mem h he := by
    obtain ⟨r, hr, -, hresolve⟩ := mem_resolveRelations.1 he
    rw [RelationRecord.id_of_resolve? hresolve]
    exact h.relation_id r hr

end LabelWriter

namespace Session

open SegmentList (FromLayer)

variable {store : FileStore} {config : Config} {s₀ s : Session FileStore}

/-- **No action touches the text, its sentences or the tag sets**, whatever the document is like. -/
theorem frame_reached (hstart : start store config = .ok s₀) (hreached : s₀.Reached s) :
    store.document.SameFrame s.store.document := by
  obtain ⟨rfl, -⟩ := start_eq_ok hstart
  exact hreached.kept (LabelWriter.keptByLabels_frame _ _ _) (.refl _)

/-- **No action touches the spans of a document that brings its segments.** -/
theorem spans_reached (h : store.document.WellFormed) (hstart : start store config = .ok s₀)
    (hreached : s₀.Reached s) (hlayer : FromLayer store.document config.layers) :
    s.store.document.spans = store.document.spans := by
  obtain ⟨rfl, rfl, hsegments, -⟩ := start_eq_ok hstart
  have hanchored : ∀ span, (∃ i, s₀.segments.spanAt? i = some span) →
      s₀.store.document.idAt? s₀.config.layers.sentenceLayer span ≠ none := by
    rintro span ⟨i, hi⟩
    rw [hsegments] at hi
    exact SegmentList.idAt?_ne_none_of_fromLayer hlayer hi
  exact (hreached.kept (LabelWriter.keptByLabels_spans hanchored) h.sameSpans).spans

/-- A document that is opened again brings its segments, and did not before, exactly when its
sentence layer was filled in between. -/
theorem fromLayer_reached_iff (hstart : start store config = .ok s₀) (hreached : s₀.Reached s) :
    (config.layers.isPreAnnotatedFormat store.document.format = false ∨
        store.document.layerSpans config.layers.sentenceLayer ≠ [] ∨
        s.store.document.layerSpans config.layers.sentenceLayer = []) ↔
      (FromLayer s.store.document config.layers → FromLayer store.document config.layers) := by
  rw [FromLayer, FromLayer, (frame_reached hstart hreached).format]
  constructor
  · rintro hlast ⟨hformat, hlayer'⟩
    refine ⟨hformat, ?_⟩
    rcases hlast with hother | hlayer | hempty
    · rw [hother] at hformat
      cases hformat
    · exact hlayer
    · exact absurd hempty hlayer'
  · intro himp
    by_cases hformat : config.layers.isPreAnnotatedFormat store.document.format = true
    · by_cases hempty : s.store.document.layerSpans config.layers.sentenceLayer = []
      · exact .inr (.inr hempty)
      · exact .inr (.inl (himp ⟨hformat, hempty⟩).2)
    · exact .inl (Bool.eq_false_iff.2 hformat)

/-- The same segments, unless the document brings them from now on. -/
theorem load_reached (h : store.document.WellFormed) (hstart : start store config = .ok s₀)
    (hreached : s₀.Reached s)
    (hlast : FromLayer s.store.document config.layers → FromLayer store.document config.layers) :
    SegmentList.load s.store.document config.layers =
      SegmentList.load store.document config.layers := by
  have hframe := frame_reached hstart hreached
  by_cases hlayer : FromLayer store.document config.layers
  · exact SegmentList.load_congr_spans hframe (spans_reached h hstart hreached hlayer)
  · rw [SegmentList.load_of_not_fromLayer hlayer,
      SegmentList.load_of_not_fromLayer (mt hlast hlayer)]
    exact SegmentList.derived_congr hframe

/-- A document with the same segments can be opened again. -/
theorem exists_start_of_load_eq (hstart : start store config = .ok s₀) (hreached : s₀.Reached s)
    (hload : SegmentList.load s.store.document config.layers =
      SegmentList.load store.document config.layers) :
    ∃ s', start s.store config = .ok s' ∧ s'.segments = s.segments := by
  have hlength : 2 ≤ (SegmentList.load (AnnotationStore.document store) config.layers).length :=
    start_isOk_iff.1 ⟨s₀, hstart⟩
  have hagain : ∃ s', start s.store config = .ok s' := start_isOk_iff.2 (hload.symm ▸ hlength)
  obtain ⟨s', hstart'⟩ := hagain
  obtain ⟨-, -, hsegments', -⟩ := start_eq_ok hstart'
  obtain ⟨-, -, hsegments, -⟩ := start_eq_ok hstart
  exact ⟨s', hstart', hsegments'.trans
    (hload.trans (hreached.keeps.segments.trans hsegments).symm)⟩

/-- **When a document is opened again it has the same segments**, unless it is one of a
pre-annotated format whose sentence layer was empty when the session started and is not so any
more; then they come from that layer and no longer from the sentences. -/
theorem reload_segments (h : store.document.WellFormed) (hstart : start store config = .ok s₀)
    (hreached : s₀.Reached s) :
    let before := SegmentList.load store.document config.layers
    let after := SegmentList.load s.store.document config.layers
    let lasting := config.layers.isPreAnnotatedFormat store.document.format = false ∨
      store.document.layerSpans config.layers.sentenceLayer ≠ [] ∨
      s.store.document.layerSpans config.layers.sentenceLayer = []
    (lasting → after = before ∧ ∃ s', start s.store config = .ok s' ∧ s'.segments = s.segments) ∧
      (¬ lasting → after.source = .preAnnotated ∧ before.source = .derived) := by
  intro before after lasting
  have hlasting := fromLayer_reached_iff hstart hreached
  refine ⟨fun hlast => ?_, fun hnot => ?_⟩
  · have hload := load_reached h hstart hreached (hlasting.1 hlast)
    exact ⟨hload, exists_start_of_load_eq hstart hreached hload⟩
  · obtain ⟨hlayer', hlayer⟩ := Classical.not_imp.1 (mt hlasting.2 hnot)
    exact ⟨SegmentList.source_load_iff.2 hlayer',
      congrArg SegmentList.source (SegmentList.load_of_not_fromLayer hlayer)⟩

end Session

/-! ### Three sentences in a pre-annotated format -/

namespace Document

set_option maxRecDepth 10000 in
/-- The format of that kind of document is one that may bring its segments. -/
theorem isPreAnnotatedFormat_xmi : LayerConfig.isPreAnnotatedFormat {} "xmi" = true := by decide

/-- Three sentences in a pre-annotated format, with nothing on the sentence layer. -/
def threeBare : Document :=
  { threeSentences with format := "xmi", spans := [], relations := [], nextId := 1 }

/-- Three sentences in a pre-annotated format, all of them on the sentence layer, with relations
between them. -/
def threeAnnotated (relations : List RelationRecord) (nextId : Nat) : Document :=
  { threeBare with
    spans :=
      [⟨⟨1⟩, "webanno.custom.Sentence", ⟨0, 2⟩, FeatureMap.empty⟩,
        ⟨⟨2⟩, "webanno.custom.Sentence", ⟨3, 5⟩, FeatureMap.empty⟩,
        ⟨⟨3⟩, "webanno.custom.Sentence", ⟨6, 8⟩, FeatureMap.empty⟩]
    relations
    nextId }

/-- The sentences of those documents, as the sentence layer gives them. -/
def threeLayered : SegmentList :=
  ⟨(threeAnnotated [] 4).spans.map (SegmentList.annotated threeBare), .preAnnotated⟩

/-- Without annotations on the sentence layer, such a document has its sentences as segments. -/
theorem load_threeBare : SegmentList.load threeBare {} = threeSegments := by
  have hlayer : ¬ SegmentList.FromLayer threeBare {} := by
    rintro ⟨-, hne⟩
    obtain ⟨s, hs⟩ := List.exists_mem_of_ne_nil _ hne
    cases (mem_layerSpans.1 hs).1
  have hother : ¬ SegmentList.FromLayer threeSentences {} := by
    rintro ⟨hformat, -⟩
    cases hformat.symm.trans isPreAnnotatedFormat_threeSentences
  rw [← load_threeSentences, SegmentList.load_of_not_fromLayer hlayer,
    SegmentList.load_of_not_fromLayer hother]
  rfl

section

variable (relations : List RelationRecord) (nextId : Nat)

/-- The annotations of the sentence layer stand in order already. -/
theorem layerSpans_threeAnnotated :
    (threeAnnotated relations nextId).layerSpans "webanno.custom.Sentence" =
      (threeAnnotated [] 4).spans := by
  have hordered : (threeAnnotated [] 4).layerSpans "webanno.custom.Sentence" =
      (threeAnnotated [] 4).spans := List.mergeSort_of_pairwise (by decide)
  exact hordered

/-- These documents bring their segments: the format allows it, and all three sentences are
annotated. -/
theorem fromLayer_threeAnnotated : SegmentList.FromLayer (threeAnnotated relations nextId) {} := by
  refine ⟨isPreAnnotatedFormat_xmi, ?_⟩
  show (threeAnnotated relations nextId).layerSpans "webanno.custom.Sentence" ≠ []
  rw [layerSpans_threeAnnotated]
  exact List.cons_ne_nil _ _

/-- The segments of these documents are the three annotations, whatever their relations are. -/
theorem load_threeAnnotated :
    SegmentList.load (threeAnnotated relations nextId) {} = threeLayered := by
  rw [SegmentList.load_of_fromLayer (fromLayer_threeAnnotated relations nextId)]
  exact congrArg (fun spans => (⟨spans.map (SegmentList.annotated threeBare), .preAnnotated⟩ :
    SegmentList)) (layerSpans_threeAnnotated relations nextId)

/-- A session on such a document starts, since there are three segments. -/
theorem start_threeAnnotated :
    ∃ s₀, Session.start (⟨threeAnnotated relations nextId, none, {}⟩ : FileStore) {} = .ok s₀ :=
  Session.exists_start_of_load (load_threeAnnotated relations nextId) (by decide)

end

end Document

namespace Session

open Document (threeBare threeAnnotated threeLayered load_threeBare load_threeAnnotated
  fromLayer_threeAnnotated start_threeAnnotated)

/-- Whatever is done with three annotated sentences, they are the segments when the document is
opened again. -/
theorem reload_segments_threeAnnotated :
    ∃ s₀, start (⟨threeAnnotated [] 4, none, {}⟩ : FileStore) {} = .ok s₀ ∧
      ∀ actions, ∃ s', start (s₀.run actions).store {} = .ok s' ∧ s'.segments = s₀.segments := by
  obtain ⟨s₀, hstart⟩ := start_threeAnnotated [] 4
  refine ⟨s₀, hstart, fun actions => ?_⟩
  obtain ⟨hlasting, -⟩ := reload_segments (by decide) hstart (reached_run s₀ actions)
  obtain ⟨-, s', hstart', hsegments⟩ :=
    hlasting (.inr (.inl (fromLayer_threeAnnotated [] 4).2))
  exact ⟨s', hstart', hsegments.trans (keeps_run s₀ actions).segments⟩

/-- **The first label can take segments away**, unseen until the document is opened again.  Of three
sentences in a pre-annotated format two get annotations on the sentence layer, which was empty, and
those two are the segments from then on. -/
theorem reload_segments_loses :
    threeBare.WellFormed ∧
    ∃ s₀ applied s,
      start (⟨threeBare, none, {}⟩ : FileStore) {} = .ok s₀ ∧
      s₀.select .leftToRight unsetName = (.ok applied, s) ∧
      (SegmentList.load threeBare {}).source = .derived ∧
      (SegmentList.load threeBare {}).length = 3 ∧
      (SegmentList.load s.store.document {}).source = .preAnnotated ∧
      (SegmentList.load s.store.document {}).length = 2 := by
  refine ⟨by decide, ?_⟩
  have hsome : ∃ s₀, start (⟨threeBare, none, {}⟩ : FileStore) {} = .ok s₀ :=
    start_isOk_iff.2 (show 2 ≤ (SegmentList.load threeBare {}).length by
      rw [load_threeBare]
      decide)
  obtain ⟨s₀, hstart⟩ := hsome
  have htag := tag_unset_start hstart rfl
  have happlied := applied_threeSegments hstart load_threeBare Tag.unset
  obtain ⟨applied, pairs', store', happly⟩ := LabelWriter.apply_of_acceptsWrites
    (s := ⟨threeBare, none, {}⟩) {} Tag.unset s₀.pairs (by decide)
    LabelWriter.locate_threeSegments (FileStore.acceptsWrites_none {}) (by decide)
  have hselect := select_of_tag .leftToRight htag
  rw [happlied.trans happly] at hselect
  have hdocument := LabelWriter.document_of_apply_ok (by decide) LabelWriter.locate_threeSegments
    happly
  have hlength : (store'.document.layerSpans "webanno.custom.Sentence").length = 2 := by
    rw [hdocument, Document.layerSpans, List.length_mergeSort]
    decide
  have hlayer : SegmentList.FromLayer store'.document {} := by
    refine ⟨?_, fun hnil => ?_⟩
    · rw [hdocument]
      exact Document.isPreAnnotatedFormat_xmi
    · rw [show store'.document.layerSpans "webanno.custom.Sentence" = [] from hnil] at hlength
      cases hlength
  have hload := SegmentList.load_of_fromLayer hlayer
  refine ⟨s₀, applied, _, hstart, hselect, ?_, ?_, ?_, ?_⟩
  · rw [load_threeBare]
    rfl
  · rw [load_threeBare]
    rfl
  · exact congrArg SegmentList.source hload
  · show (SegmentList.load store'.document {}).length = 2
    rw [hload, SegmentList.length, List.length_map]
    exact hlength

end Session
end PairAnnotation
