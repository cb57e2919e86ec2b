/-
# Edits of a document

Labelling an edge is put together from four edits: anchoring a span
(`Document.anchor`), which finds its annotation or creates one, taking annotations
away (`Document.without`), adding an edge together with its label, and adding edges
for labels that were taken away (`Document.relink`).  Each of them keeps a document
well formed and says what becomes of the spans and of the relations.
-/

import Mathlib.Data.List.Forall2
import PairAnnotation.Proofs.Document.Relations

namespace PairAnnotation

/-- A stable sort does not change which element is found first, when the order does not tell apart
the elements that are looked for. -/
theorem find?_mergeSort {α : Type} {le : α → α → Bool} {p : α → Bool}
    (trans : ∀ a b c, le a b = true → le b c = true → le a c = true)
    (total : ∀ a b, (le a b || le b a) = true)
    (h : ∀ a b, p a = true → p b = true → le a b = true) (l : List α) :
    (l.mergeSort le).find? p = l.find? p := by
  have hsub : (l.filter p).Sublist (l.mergeSort le) := by
    refine List.sublist_mergeSort trans total ?_ List.filter_sublist
    exact List.pairwise_filter.2 (List.pairwise_of_forall fun a b => h a b)
  have hfilter : l.filter p = (l.mergeSort le).filter p := by
    refine List.Sublist.eq_of_length ?_ ((List.mergeSort_perm l le).symm.filter p).length_eq
    have hsub := hsub.filter p
    rwa [List.filter_filter, funext fun a => Bool.and_self (p a)] at hsub
  rw [← List.head?_filter, ← hfilter, List.head?_filter]

namespace Document

/-! ### Anchors -/

/-- The first annotation of a layer with exactly this span. -/
def idAt? (d : Document) (layer : String) (span : Span) : Option AnnotationId :=
  (d.spans.find? fun s => s.layer == layer && s.span == span).map (·.id)

/-- **To look among the annotations inside a span is to look among all.** -/
theorem find?_spansCoveredBy (d : Document) (layer : String) (span : Span) :
    ((d.spansCoveredBy layer span).find? (·.span == span)).map (·.id) = d.idAt? layer span := by
  have hcovers : ((d.spansCoveredBy layer span).find? (·.span == span)) =
      (d.layerSpans layer).find? (·.span == span) := by
    rw [spansCoveredBy, List.find?_filter]
    refine congrArg (List.find? · _) (funext fun s => ?_)
    by_cases hs : s.span = span
    · simp [hs, Span.covers_refl]
    · simp [hs]
  have hsort : (d.layerSpans layer).find? (·.span == span) =
      (d.spans.filter (·.layer == layer)).find? (·.span == span) := by
    apply find?_mergeSort
    · intro a b c
      exact Span.outerFirst_trans
    · intro a b
      exact Span.outerFirst_total a.span b.span
    · intro a b ha hb
      rw [Span.outerFirst_iff, eq_of_beq ha, eq_of_beq hb]
      omega
  rw [hcovers, hsort, List.find?_filter, idAt?]
  simp only [Bool.decide_and, Bool.decide_eq_true]

/-- An anchor is the id of an annotation with that span. -/
theorem exists_of_idAt? {d : Document} {layer : String} {span : Span} {id : AnnotationId}
    (h : d.idAt? layer span = some id) :
    ∃ s ∈ d.spans, s.layer = layer ∧ s.span = span ∧ s.id = id := by
  obtain ⟨s, hs, hid⟩ := Option.map_eq_some_iff.1 h
  have hspan : s.layer = layer ∧ s.span = span := by simpa using List.find?_some hs
  exact ⟨s, List.mem_of_find?_eq_some hs, hspan.1, hspan.2, hid⟩

/-- There is no id for a span on a layer exactly if no annotation of the layer stands on that
span. -/
theorem isNone_idAt? (d : Document) (layer : String) (span : Span) :
    (d.idAt? layer span).isNone = !d.spans.any fun s => s.layer == layer && s.span == span := by
  rw [idAt?, Option.isNone_map, Bool.eq_iff_iff, Option.isNone_iff_eq_none, List.find?_eq_none,
    Bool.not_eq_true', List.any_eq_false]

/-- The annotation of a layer with exactly this span, created if there is none. -/
def anchor (d : Document) (layer : String) (span : Span) : AnnotationId × Document :=
  match d.idAt? layer span with
  | some id => (id, d)
  | none => d.insertSpan layer span FeatureMap.empty

/-- **A span that is accepted lies inside the text**, and it is then inserted without features. -/
theorem eq_insertSpan_of_addSpan {d d' : Document} {layer : String} {span : Span}
    {id : AnnotationId} (h : d.addSpan layer span = .ok (id, d')) :
    span.fits d.text.length = true ∧ d.insertSpan layer span FeatureMap.empty = (id, d') := by
  unfold addSpan at h
  split at h
  · rename_i hfits
    injection h with h
    exact ⟨hfits, h⟩
  · cases h

/-- What anchoring a span creates: an annotation of this span with the fresh id, or nothing if there
is one already. -/
def missing (d : Document) (layer : String) (span : Span) : List SpanAnnotation :=
  match d.idAt? layer span with
  | some _ => []
  | none => [⟨d.freshId, layer, span, FeatureMap.empty⟩]

/-- An annotation that anchoring creates stands on the span that was asked for, and there was none
on it before. -/
theorem of_mem_missing {d : Document} {layer : String} {span : Span} {s : SpanAnnotation}
    (h : s ∈ d.missing layer span) : d.idAt? layer span = none ∧ s.span = span := by
  unfold missing at h
  split at h
  · cases h
  · rename_i hnone
    rw [List.mem_singleton.1 h]
    exact ⟨hnone, rfl⟩

/-- What anchoring a span creates, told without its id: one annotation without features if there was
none, and nothing otherwise. -/
theorem map_missing (d : Document) (layer : String) (span : Span) :
    (d.missing layer span).map (fun s => (s.layer, s.span, s.features)) =
      if (d.idAt? layer span).isNone then [(layer, span, FeatureMap.empty)] else [] := by
  unfold missing
  cases d.idAt? layer span <;> rfl

/-- **The same document**, up to ids that are passed over. -/
structure SameContent (d d' : Document) : Prop extends SameFrame d d' where
  spans : d'.spans = d.spans
  relations : d'.relations = d.relations
  nextId_le : d.nextId ≤ d'.nextId

/-- Documents with the same content are well formed together, since ids and next id are part of
it. -/
theorem SameContent.wellFormed {d d' : Document} (h : d.SameContent d') (hd : d.WellFormed) :
    d'.WellFormed :=
  hd.of_sublist (h.spans ▸ .refl _) (h.relations ▸ .refl _) h.nextId_le

/-- A document with more spans, and with ids beyond all that were there. -/
structure GrowsBy (d d' : Document) (new : List SpanAnnotation) : Prop where
  frame : d.SameFrame d'
  spans : d'.spans = d.spans ++ new
  relations : d'.relations = d.relations
  le_id : ∀ s ∈ new, d.nextId ≤ s.id.val
  nextId_le : d.nextId ≤ d'.nextId
  wellFormed : d'.WellFormed

namespace GrowsBy

variable {d d' d'' : Document} {new new' : List SpanAnnotation}

theorem refl (h : d.WellFormed) : d.GrowsBy d [] :=
  ⟨.refl d, (List.append_nil _).symm, rfl, by simp, Nat.le_refl _, h⟩

theorem trans (h : d.GrowsBy d' new) (h' : d'.GrowsBy d'' new') : d.GrowsBy d'' (new ++ new') where
  frame := h.frame.trans h'.frame
  spans := by rw [h'.spans, h.spans, List.append_assoc]
  relations := h'.relations.trans h.relations
  le_id s hs := by
    rcases List.mem_append.1 hs with hs | hs
    · exact h.le_id s hs
    · exact Nat.le_trans h.nextId_le (h'.le_id s hs)
  nextId_le := Nat.le_trans h.nextId_le h'.nextId_le
  wellFormed := h'.wellFormed

/-- Ids may be passed over: a next id that is greater still is beyond everything that is there. -/
theorem raise (h : d.GrowsBy d' new) {next : Nat} (hnext : d'.nextId ≤ next) :
    d.GrowsBy { d' with nextId := next } new where
  frame := h.frame.trans ⟨rfl, rfl, rfl, rfl, rfl⟩
  spans := h.spans
  relations := h.relations
  le_id := h.le_id
  nextId_le := Nat.le_trans h.nextId_le hnext
  wellFormed := h.wellFormed.raise hnext

/-- **Ids that were in use find the spans that they found.** -/
theorem spanOf?_eq (h : d.GrowsBy d' new) {id : AnnotationId} (hid : id.val < d.nextId) :
    spanOf? d'.spans id = spanOf? d.spans id := by
  rw [h.spans]
  refine spanOf?_append_of_forall_ne fun s hs heq => ?_
  have := h.le_id s hs
  rw [heq] at this
  omega

/-- **New spans change no relation that is listed**, since no end of a record points at a fresh
id. -/
theorem relationsOn_eq (h : d.GrowsBy d' new) (hd : d.WellFormed) (layer labelFeature : String) :
    d'.relationsOn layer labelFeature = d.relationsOn layer labelFeature := by
  rw [relationsOn, h.relations]
  exact resolveRelations_congr fun r hr id hid => h.spanOf?_eq (hd.end_lt r hr id hid)

/-- A span that had an annotation before still has it, with the same id, after others were added. -/
theorem idAt?_eq_some (h : d.GrowsBy d' new) {layer : String} {span : Span} {id : AnnotationId}
    (hid : d.idAt? layer span = some id) : d'.idAt? layer span = some id := by
  obtain ⟨s, hs, rfl⟩ := Option.map_eq_some_iff.1 hid
  rw [idAt?, h.spans, List.find?_append, hs]
  rfl

/-- A span that has no annotation by now had none before. -/
theorem idAt?_eq_none (h : d.GrowsBy d' new) {layer : String} {span : Span}
    (hnone : d'.idAt? layer span = none) : d.idAt? layer span = none := by
  cases hid : d.idAt? layer span with
  | none => rfl
  | some id => cases hnone.symm.trans (h.idAt?_eq_some hid)

end GrowsBy

/-- Anchoring a span lets a document grow by what was missing, which is one annotation or none. -/
theorem anchor_growsBy {d : Document} (h : d.WellFormed) (layer : String) (span : Span) :
    d.GrowsBy (d.anchor layer span).2 (d.missing layer span) := by
  unfold anchor missing
  split
  · exact .refl h
  · refine ⟨d.frame_insertSpan layer span _, rfl, rfl, ?_, ?_,
      h.insertSpan layer span FeatureMap.empty⟩
    · simpa using d.nextId_le_freshId
    · exact Nat.le_trans d.nextId_le_freshId (Nat.le_succ _)

/-- After a span was anchored, its annotation is found by span and layer, and it is the one that was
handed on. -/
theorem idAt?_anchor (d : Document) (layer : String) (span : Span) :
    (d.anchor layer span).2.idAt? layer span = some (d.anchor layer span).1 := by
  unfold anchor
  split
  · assumption
  · rename_i hnone
    have hnone : d.spans.find? (fun s => s.layer == layer && s.span == span) = none :=
      Option.map_eq_none_iff.1 hnone
    simp [idAt?, insertSpan, List.find?_append, hnone]

/-- Anchoring a span does not anchor another one, so what is found for other spans stays the
same. -/
theorem idAt?_anchor_of_ne (d : Document) (layer : String) {span span' : Span}
    (h : span ≠ span') : (d.anchor layer span).2.idAt? layer span' = d.idAt? layer span' := by
  unfold anchor
  split
  · rfl
  · simp [idAt?, insertSpan, List.find?_append, h]

/-- **An anchor is where it should be**: the id that is found for a span is that of an annotation on
this span. -/
theorem WellFormed.spanOf?_of_idAt? {d : Document} (h : d.WellFormed) {layer : String}
    {span : Span} {id : AnnotationId} (hid : d.idAt? layer span = some id) :
    spanOf? d.spans id = some span := by
  obtain ⟨s, hs, -, rfl, rfl⟩ := exists_of_idAt? hid
  exact spanOf?_eq_some_of_mem (List.nodup_append.1 h.nodup).1 hs

/-- An id that is found for a span is below the next one, like every id of an annotation. -/
theorem WellFormed.lt_nextId_of_idAt? {d : Document} (h : d.WellFormed) {layer : String}
    {span : Span} {id : AnnotationId} (hid : d.idAt? layer span = some id) :
    id.val < d.nextId := by
  obtain ⟨s, hs, -, -, rfl⟩ := exists_of_idAt? hid
  exact h.id_lt _ (mem_ids_of_span hs)

/-- What has a span is the id of an annotation, so a relation may point at it. -/
theorem hasSpan_of_spanOf? {d : Document} {id : AnnotationId} {span : Span}
    (h : spanOf? d.spans id = some span) : d.hasSpan id = true := by
  obtain ⟨s, hs, rfl, -⟩ := exists_of_spanOf? h
  exact List.any_eq_true.2 ⟨s, hs, beq_self_eq_true _⟩

/-- The id of a span annotation is below the next id of a well-formed document. -/
theorem lt_nextId_of_hasSpan {d : Document} (h : d.WellFormed) {id : AnnotationId}
    (hid : d.hasSpan id = true) : id.val < d.nextId := by
  obtain ⟨s, hs, heq⟩ := List.any_eq_true.1 hid
  exact h.id_lt _ (eq_of_beq heq ▸ mem_ids_of_span hs)

/-! ### Taking annotations away -/

/-- The document without the annotations of some ids; nothing else changes, the next id included. -/
def without (d : Document) (ids : List AnnotationId) : Document :=
  { d with
    relations := d.relations.filter (·.id ∉ ids)
    spans := d.spans.filter (·.id ∉ ids) }

theorem frame_without (d : Document) (ids : List AnnotationId) : d.SameFrame (d.without ids) :=
  ⟨rfl, rfl, rfl, rfl, rfl⟩

@[simp]
theorem without_nil (d : Document) : d.without [] = d := by
  simp [without]

/-- Annotations can be taken away in two goes, one after the other, or all at once. -/
theorem without_without (d : Document) (ids ids' : List AnnotationId) :
    (d.without ids).without ids' = d.without (ids ++ ids') := by
  have happend : ∀ id : AnnotationId,
      (decide (id ∉ ids) && decide (id ∉ ids')) = decide (id ∉ ids ++ ids') := by
    intro id
    rw [Bool.eq_iff_iff]
    simp
  simp only [without, List.filter_filter, Bool.and_comm, happend]

/-- **Deleting is taking away**, of an id that stands for something. -/
theorem delete_of_mem {d : Document} {id : AnnotationId} (h : id ∈ d.ids) :
    d.delete id = .ok (d.without [id]) := by
  have hany : (d.relations.any (·.id == id) || d.hasSpan id) = true := by
    rw [Bool.or_eq_true, hasSpan, List.any_eq_true, List.any_eq_true]
    rcases List.mem_append.1 h with h | h
    · obtain ⟨s, hs, rfl⟩ := List.mem_map.1 h
      exact .inr ⟨s, hs, beq_self_eq_true _⟩
    · obtain ⟨r, hr, rfl⟩ := List.mem_map.1 h
      exact .inl ⟨r, hr, beq_self_eq_true _⟩
  rw [delete, if_pos hany, without]
  simp only [List.mem_singleton, decide_not, bne, beq_eq_decide]

/-- **A deletion that is accepted takes away what has the id**, be it spans or relations, and
nothing else. -/
theorem eq_without_of_delete {d d' : Document} {id : AnnotationId} (h : d.delete id = .ok d') :
    d' = d.without [id] := by
  unfold delete at h
  split at h
  · injection h with h
    rw [← h, without]
    simp only [List.mem_singleton, decide_not, bne, beq_eq_decide]
  · cases h

/-- What is left of a well-formed document is well formed, whichever ids were taken away. -/
theorem WellFormed.without {d : Document} (h : d.WellFormed) (ids : List AnnotationId) :
    (d.without ids).WellFormed :=
  h.of_sublist List.filter_sublist List.filter_sublist (Nat.le_refl _)

/-- Where no span has one of the ids, all spans are kept. -/
theorem spans_without {d : Document} {ids : List AnnotationId} (h : ∀ s ∈ d.spans, s.id ∉ ids) :
    (d.without ids).spans = d.spans :=
  List.filter_eq_self.2 fun s hs => decide_eq_true (h s hs)

/-- Where no relation has one of the ids, all relations are kept. -/
theorem relations_without {d : Document} {ids : List AnnotationId}
    (h : ∀ r ∈ d.relations, r.id ∉ ids) : (d.without ids).relations = d.relations :=
  List.filter_eq_self.2 fun r hr => decide_eq_true (h r hr)

/-- **Every listing shows the other relations**, when no span is taken away. -/
theorem relationsOn_without {d : Document} {ids : List AnnotationId} {layer labelFeature : String}
    (h : ∀ s ∈ d.spans, s.id ∉ ids) :
    (d.without ids).relationsOn layer labelFeature =
      (d.relationsOn layer labelFeature).filter (·.id ∉ ids) := by
  rw [relationsOn, spans_without h]
  refine resolveRelations_filter fun r _ _ e he => ?_
  rw [RelationRecord.id_of_resolve? he]

/-- **What was created can be taken away again**, and the document is then what it was, apart from
the next id. -/
theorem GrowsBy.without_new {d d' : Document} {new : List SpanAnnotation} (h : d.GrowsBy d' new)
    (hd : d.WellFormed) {ids : List AnnotationId} (hids : ∀ id, id ∈ ids ↔ id ∈ new.map (·.id)) :
    d.SameContent (d'.without ids) := by
  have hold : ∀ id ∈ d.ids, id ∉ ids := by
    intro id hid hmem
    obtain ⟨s, hs, rfl⟩ := List.mem_map.1 ((hids id).1 hmem)
    have hge := h.le_id s hs
    have hlt := hd.id_lt _ hid
    omega
  refine ⟨h.frame.trans (d'.frame_without ids), ?_, ?_, h.nextId_le⟩
  · show d'.spans.filter (·.id ∉ ids) = d.spans
    have hspans : d.spans.filter (·.id ∉ ids) = d.spans :=
      spans_without fun s hs => hold s.id (mem_ids_of_span hs)
    have hnew : new.filter (·.id ∉ ids) = [] :=
      List.filter_eq_nil_iff.2 fun s hs => by simpa using (hids s.id).2 (List.mem_map_of_mem hs)
    rw [h.spans, List.filter_append, hspans, hnew, List.append_nil]
  · show d'.relations.filter (·.id ∉ ids) = d.relations
    rw [h.relations]
    exact relations_without fun r hr => hold r.id (mem_ids_of_relation hr)

/-- An id that is not taken away is still that of an annotation. -/
theorem mem_ids_without {d : Document} {ids : List AnnotationId} {id : AnnotationId}
    (h : id ∈ d.ids) (hid : id ∉ ids) : id ∈ (d.without ids).ids := by
  rcases List.mem_append.1 h with h | h
  · obtain ⟨s, hs, rfl⟩ := List.mem_map.1 h
    exact mem_ids_of_span (List.mem_filter.2 ⟨hs, decide_eq_true hid⟩)
  · obtain ⟨r, hr, rfl⟩ := List.mem_map.1 h
    exact mem_ids_of_relation (List.mem_filter.2 ⟨hr, decide_eq_true hid⟩)

/-! ### Adding edges -/

section AddEdges

variable {d d' : Document} {layer labelFeature : String} {dependent governor : AnnotationId}

/-- **A relation between two spans is accepted**, and it is inserted without a label. -/
theorem addRelation_of_hasSpan (layer : String) (hd : d.hasSpan dependent = true)
    (hg : d.hasSpan governor = true) :
    d.addRelation layer dependent governor =
      .ok (d.insertRelation layer dependent governor "" none) := by
  simp [addRelation, hd, hg]

/-- A relation that is accepted has the fresh id, and it is the last one in the document. -/
theorem eq_insertRelation_of_addRelation {id : AnnotationId}
    (h : d.addRelation layer dependent governor = .ok (id, d')) :
    id = d.freshId ∧ d' = (d.insertRelation layer dependent governor "" none).2 := by
  unfold addRelation at h
  split at h
  · cases h
  · split at h
    · cases h
    · injection h with h
      exact ⟨(congrArg Prod.fst h).symm, (congrArg Prod.snd h).symm⟩

/-- If only the last element of a list satisfies the condition, it is the one that is changed. -/
theorem changeFirst_append_singleton {α : Type} {p : α → Bool} (f : α → α) {l : List α} {a : α}
    (hl : ∀ b ∈ l, p b = false) (ha : p a = true) : changeFirst p f (l ++ [a]) = l ++ [f a] := by
  induction l with
  | nil => simp [changeFirst, ha]
  | cons b rest ih =>
    have hb := hl b List.mem_cons_self
    have ih := ih fun b hb => hl b (List.mem_cons_of_mem _ hb)
    simp [changeFirst, hb, ih]

/-- What is in a list after a change was there before, or it is the element that was changed. -/
theorem mem_changeFirst {α : Type} {p : α → Bool} {f : α → α} {l : List α} {b : α}
    (h : b ∈ changeFirst p f l) : b ∈ l ∨ ∃ a ∈ l, p a = true ∧ b = f a := by
  induction l with
  | nil => exact .inl h
  | cons a rest ih =>
    unfold changeFirst at h
    split at h
    · rename_i ha
      rcases List.mem_cons.1 h with rfl | h
      · exact .inr ⟨a, List.mem_cons_self, ha, rfl⟩
      · exact .inl (List.mem_cons_of_mem _ h)
    · rcases List.mem_cons.1 h with rfl | h
      · exact .inl List.mem_cons_self
      · exact (ih h).imp (List.mem_cons_of_mem _) fun ⟨a', ha', h'⟩ =>
          ⟨a', List.mem_cons_of_mem _ ha', h'⟩

/-- What the change leaves alone in one element, it leaves alone in the list. -/
theorem map_changeFirst {α β : Type} {p : α → Bool} {f : α → α} {g : α → β}
    (h : ∀ a, g (f a) = g a) (l : List α) : (changeFirst p f l).map g = l.map g := by
  induction l with
  | nil => rfl
  | cons a rest ih =>
    rw [changeFirst]
    split
    · rw [List.map_cons, h, List.map_cons]
    · rw [List.map_cons, ih, List.map_cons]

/-- **An edge that is added and then labelled is one that is added with its label.** -/
theorem setFeature_insertRelation (h : d.freshId ∉ d.ids) (layer : String)
    (dependent governor : AnnotationId) (labelFeature label : String) :
    (d.insertRelation layer dependent governor "" none).2.setFeature d.freshId labelFeature label =
      .ok (d.insertRelation layer dependent governor labelFeature (some label)).2 := by
  have hne : ∀ r ∈ d.relations, (r.id == d.freshId) = false := fun r hr =>
    beq_false_of_ne fun heq => h (heq ▸ mem_ids_of_relation hr)
  have hself :
      ((RelationRecord.linking d.freshId layer dependent governor).id == d.freshId) = true :=
    beq_self_eq_true _
  rw [setFeature, if_pos (by simp [insertRelation, RelationRecord.linking])]
  simp only [insertRelation]
  rw [changeFirst_append_singleton _ hne hself]

/-- A new edge that is taken away again leaves no trace but its id. -/
theorem without_insertRelation (h : d.freshId ∉ d.ids) (label : Option String) :
    (d.insertRelation layer dependent governor labelFeature label).2.without [d.freshId] =
      { d with nextId := d.freshId.val + 1 } := by
  have hspans : ∀ s ∈ d.spans, s.id ∉ [d.freshId] := fun s hs heq =>
    h (List.mem_singleton.1 heq ▸ mem_ids_of_span hs)
  have hrelations : ∀ r ∈ d.relations, r.id ∉ [d.freshId] := fun r hr heq =>
    h (List.mem_singleton.1 heq ▸ mem_ids_of_relation hr)
  have hfilter : (d.insertRelation layer dependent governor labelFeature label).2.relations.filter
      (·.id ∉ [d.freshId]) = d.relations := by
    have hold : d.relations.filter (·.id ∉ [d.freshId]) = d.relations :=
      relations_without hrelations
    rw [relations_insertRelation, List.filter_append, hold]
    simp
  have hfilter' : d.spans.filter (·.id ∉ [d.freshId]) = d.spans := spans_without hspans
  rw [without, hfilter]
  show { d with spans := d.spans.filter (·.id ∉ [d.freshId]), nextId := d.freshId.val + 1 } = _
  rw [hfilter']

/-- Edges between two annotations for a list of labels, in order. -/
def relink (d : Document) (layer labelFeature : String) (dependent governor : AnnotationId) :
    List (Option String) → Document
  | [] => d
  | label :: rest =>
    (d.insertRelation layer dependent governor labelFeature label).2.relink layer labelFeature
      dependent governor rest

/-- A record has an edge's ends and label, and nothing else. -/
def IsRelinked (layer labelFeature : String) (dependent governor : AnnotationId)
    (r : RelationRecord) (label : Option String) : Prop :=
  r = .relinked r.id layer labelFeature dependent governor label

/-- **What putting edges back does**: at the end there is one new record for each label. -/
structure RelinkedBy (d d' : Document) (layer labelFeature : String)
    (dependent governor : AnnotationId) (labels : List (Option String))
    (new : List RelationRecord) : Prop where
  frame : d.SameFrame d'
  spans : d'.spans = d.spans
  relations : d'.relations = d.relations ++ new
  new : List.Forall₂ (IsRelinked layer labelFeature dependent governor) new labels
  nextId_le : d.nextId ≤ d'.nextId
  wellFormed : d'.WellFormed

/-- **Edges that are put back between the same ends follow one another** with fresh ids, each with
the label of the edge that it stands for. -/
theorem relink_relinkedBy (h : d.WellFormed)
    (hdependent : labelFeature ≠ RelationRecord.dependentFeature)
    (hgovernor : labelFeature ≠ RelationRecord.governorFeature) (hd : dependent.val < d.nextId)
    (hg : governor.val < d.nextId) (layer : String) (labels : List (Option String)) :
    ∃ new, RelinkedBy d (d.relink layer labelFeature dependent governor labels) layer labelFeature
      dependent governor labels new := by
  induction labels generalizing d with
  | nil => exact ⟨[], .refl d, rfl, (List.append_nil _).symm, .nil, Nat.le_refl _, h⟩
  | cons label rest ih =>
    have hle := d.nextId_le_freshId
    have hnext : (d.insertRelation layer dependent governor labelFeature label).2.nextId =
      d.freshId.val + 1 := rfl
    have hwellFormed :
        (d.insertRelation layer dependent governor labelFeature label).2.WellFormed :=
      h.insertRelation hdependent hgovernor hd hg
    obtain ⟨new, hnew⟩ := ih hwellFormed (by omega) (by omega)
    refine ⟨.relinked d.freshId layer labelFeature dependent governor label :: new,
      (d.frame_insertRelation ..).trans hnew.frame, hnew.spans, ?_, .cons ?_ hnew.new, ?_,
      hnew.wellFormed⟩
    · rw [relink, hnew.relations, relations_insertRelation, List.append_assoc]
      rfl
    · rw [IsRelinked, RelationRecord.id_relinked]
    · have := hnew.nextId_le
      rw [relink]
      omega

end AddEdges

end Document
end PairAnnotation
