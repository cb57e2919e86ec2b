/-
# Relations of a document

A record is read as an edge by way of the ids at its ends, so what it is read as
depends on the spans with these ids and on nothing else.  Reading goes record by
record: it commutes with taking records away, and records that are read as edges
between the same two spans (`RelationRecord.onEdge`) are those whose edges link them.
The tag between two segments is that of the last label in `labelsOn`.
-/

import PairAnnotation.Proofs.Document.Ids
import PairAnnotation.RelationIndex

namespace PairAnnotation

/-! ### Spans by id -/

/-- Annotations with other ids do not change which span an id stands for, if they come behind. -/
theorem spanOf?_append_of_forall_ne {spans new : List SpanAnnotation} {id : AnnotationId}
    (h : ∀ s ∈ new, s.id ≠ id) : spanOf? (spans ++ new) id = spanOf? spans id := by
  have hnone : new.reverse.find? (·.id == id) = none :=
    List.find?_eq_none.2 fun s hs => by simpa using h s (List.mem_reverse.1 hs)
  rw [spanOf?, List.reverse_append, List.find?_append, hnone, Option.none_or]
  rfl

/-- The span of an id is that of an annotation with this id. -/
theorem exists_of_spanOf? {spans : List SpanAnnotation} {id : AnnotationId} {span : Span}
    (h : spanOf? spans id = some span) : ∃ s ∈ spans, s.id = id ∧ s.span = span := by
  obtain ⟨s, hs, hspan⟩ := Option.map_eq_some_iff.1 h
  exact ⟨s, List.mem_reverse.1 (List.mem_of_find?_eq_some hs), by simpa using List.find?_some hs,
    hspan⟩

/-- **The id of a span finds the span**, when no two spans share an id. -/
theorem spanOf?_eq_some_of_mem {spans : List SpanAnnotation} (hnodup : (spans.map (·.id)).Nodup)
    {s : SpanAnnotation} (h : s ∈ spans) : spanOf? spans s.id = some s.span := by
  have hsome : (spans.reverse.find? (·.id == s.id)).isSome :=
    List.find?_isSome.2 ⟨s, List.mem_reverse.2 h, beq_self_eq_true _⟩
  obtain ⟨s', hs'⟩ := Option.isSome_iff_exists.1 hsome
  have hmem : s' ∈ spans := List.mem_reverse.1 (List.mem_of_find?_eq_some hs')
  have hid : s'.id = s.id := by simpa using List.find?_some hs'
  rw [spanOf?, hs', List.inj_on_of_nodup_map hnodup hmem h hid]
  rfl

/-! ### One record -/

namespace RelationRecord

variable {spans spans' : List SpanAnnotation} {labelFeature : String} {r : RelationRecord}
variable {e : RelationAnnotation}

/-- **What a record is read as**: both ends have to be ids of annotations, whose spans are the ends
of the relation, and the label is what the feature holds. -/
theorem resolve?_eq_some_iff :
    r.resolve? spans labelFeature = some e ↔
      ∃ dependent governor,
        (r.idFeature? dependentFeature).bind (spanOf? spans) = some dependent ∧
        (r.idFeature? governorFeature).bind (spanOf? spans) = some governor ∧
        e = ⟨r.id, dependent, governor, r.label? labelFeature⟩ := by
  unfold resolve?
  cases (r.idFeature? dependentFeature).bind (spanOf? spans) <;>
    cases (r.idFeature? governorFeature).bind (spanOf? spans) <;> simp [eq_comm]

theorem id_of_resolve? (h : r.resolve? spans labelFeature = some e) : e.id = r.id := by
  obtain ⟨_, _, -, -, rfl⟩ := resolve?_eq_some_iff.1 h
  rfl

/-- The label of a relation is the one that its record holds. -/
theorem label_of_resolve? (h : r.resolve? spans labelFeature = some e) :
    e.label = r.label? labelFeature := by
  obtain ⟨_, _, -, -, rfl⟩ := resolve?_eq_some_iff.1 h
  rfl

/-- **A record is read by the spans at its ends**, whatever the other spans are. -/
theorem resolve?_congr (h : ∀ id ∈ r.ends, spanOf? spans' id = spanOf? spans id) :
    r.resolve? spans' labelFeature = r.resolve? spans labelFeature := by
  have hend : ∀ feature, (∀ id, r.idFeature? feature = some id → id ∈ r.ends) →
      (r.idFeature? feature).bind (spanOf? spans') =
        (r.idFeature? feature).bind (spanOf? spans) := by
    intro feature hmem
    cases hid : r.idFeature? feature with
    | none => rfl
    | some id => exact h id (hmem id hid)
  unfold resolve?
  rw [hend _ fun id hid => mem_ends_iff.2 (.inl hid),
    hend _ fun id hid => mem_ends_iff.2 (.inr hid)]

variable {id dependent governor : AnnotationId} {layer : String} {label : Option String}

/-- The label of an edge that is linked anew is the one that it was given, as long as its feature is
none of the two ends. -/
theorem label?_relinked (hd : labelFeature ≠ dependentFeature)
    (hg : labelFeature ≠ governorFeature) :
    (relinked id layer labelFeature dependent governor label).label? labelFeature = label := by
  cases label with
  | none =>
    simp [label?, relinked, linking, FeatureMap.get?_insert, FeatureMap.get?_empty, hd, hg]
  | some value => simp [label?, relinked, setLabel, FeatureMap.get?_insert]

/-- **An edge that is linked anew is read as it was meant**: between the spans of its two ends, with
its label. -/
theorem resolve?_relinked (hd : labelFeature ≠ dependentFeature)
    (hg : labelFeature ≠ governorFeature) {dependentSpan governorSpan : Span}
    (hdependent : spanOf? spans dependent = some dependentSpan)
    (hgovernor : spanOf? spans governor = some governorSpan) :
    (relinked id layer labelFeature dependent governor label).resolve? spans labelFeature =
      some ⟨id, dependentSpan, governorSpan, label⟩ := by
  refine resolve?_eq_some_iff.2 ⟨dependentSpan, governorSpan, ?_, ?_, ?_⟩
  · rw [idFeature?_dependent_relinked hd]
    exact hdependent
  · rw [idFeature?_governor_relinked hg]
    exact hgovernor
  · rw [id_relinked, label?_relinked hd hg]

/-- Whether a record is read as an edge of a layer from `governor` to `dependent`. -/
def onEdge (r : RelationRecord) (spans : List SpanAnnotation) (layer labelFeature : String)
    (dependent governor : Span) : Bool :=
  r.layer == layer && (r.resolve? spans labelFeature).any (·.links dependent governor)

end RelationRecord

/-! ### All records -/

section Resolve

variable {records records' : List RelationRecord} {spans spans' : List SpanAnnotation}
variable {layer labelFeature : String}

/-- A relation is read exactly from the records of its layer that have both ends. -/
theorem mem_resolveRelations {e : RelationAnnotation} :
    e ∈ resolveRelations records spans layer labelFeature ↔
      ∃ r ∈ records, r.layer = layer ∧ r.resolve? spans labelFeature = some e := by
  simp [resolveRelations, List.mem_filterMap, List.mem_filter, and_assoc]

/-- Records are read one by one, so those of two lists are read one list after the other. -/
theorem resolveRelations_append :
    resolveRelations (records ++ records') spans layer labelFeature =
      resolveRelations records spans layer labelFeature ++
        resolveRelations records' spans layer labelFeature := by
  rw [resolveRelations, List.filter_append, List.filterMap_append]
  rfl

/-- The first record is read as one relation at most, and none if it is on another layer. -/
theorem resolveRelations_cons {r : RelationRecord} :
    resolveRelations (r :: records) spans layer labelFeature =
      (if r.layer = layer then (r.resolve? spans labelFeature).toList else []) ++
        resolveRelations records spans layer labelFeature := by
  by_cases h : r.layer = layer <;>
    cases hr : r.resolve? spans labelFeature <;> simp [resolveRelations, h, hr]

/-- Records are read alike as long as the ids at their ends stand for the same spans. -/
theorem resolveRelations_congr
    (h : ∀ r ∈ records, ∀ id ∈ r.ends, spanOf? spans' id = spanOf? spans id) :
    resolveRelations records spans' layer labelFeature =
      resolveRelations records spans layer labelFeature :=
  List.filterMap_congr fun r hr => RelationRecord.resolve?_congr (h r (List.mem_filter.1 hr).1)

/-- **Taking records away takes their edges away**, and only those, if it is told by the edges which
records go. -/
theorem resolveRelations_filter {p : RelationRecord → Bool} {q : RelationAnnotation → Bool}
    (h : ∀ r ∈ records, r.layer = layer → ∀ e, r.resolve? spans labelFeature = some e →
      p r = q e) :
    resolveRelations (records.filter p) spans layer labelFeature =
      (resolveRelations records spans layer labelFeature).filter q := by
  induction records with
  | nil => rfl
  | cons r rest ih =>
    have ih := ih fun r hr => h r (List.mem_cons_of_mem _ hr)
    rw [resolveRelations_cons, List.filter_append, ← ih, List.filter_cons]
    by_cases hlayer : r.layer = layer
    · cases hr : r.resolve? spans labelFeature with
      | none => cases p r <;> simp [resolveRelations_cons, hr]
      | some e =>
        have hpq := h r List.mem_cons_self hlayer e hr
        cases hp : p r <;> simp [resolveRelations_cons, hlayer, hr, ← hpq, hp]
    · cases p r <;> simp [resolveRelations_cons, hlayer]

/-- The edges between two spans come from the records on that edge, one from each. -/
theorem map_filter_links {β : Type} {f : RelationAnnotation → β} {g : RelationRecord → β}
    (h : ∀ r e, r.resolve? spans labelFeature = some e → f e = g r) (dependent governor : Span) :
    ((resolveRelations records spans layer labelFeature).filter
        (·.links dependent governor)).map f =
      (records.filter (·.onEdge spans layer labelFeature dependent governor)).map g := by
  induction records with
  | nil => rfl
  | cons r rest ih =>
    rw [resolveRelations_cons, List.filter_append, List.map_append, ih, List.filter_cons]
    by_cases hlayer : r.layer = layer
    · cases hr : r.resolve? spans labelFeature with
      | none => simp [RelationRecord.onEdge, hr]
      | some e =>
        have hfg := h r e hr
        cases he : e.links dependent governor <;>
          simp [RelationRecord.onEdge, hlayer, hr, he, hfg]
    · simp [RelationRecord.onEdge, hlayer]

end Resolve

/-! ### Labels between two spans -/

/-- The labels of the edges from `governor` to `dependent`, in order. -/
def labelsOn (edges : List RelationAnnotation) (dependent governor : Span) : List (Option String) :=
  (edges.filter (·.links dependent governor)).map (·.label)

/-- The labels on two lists of edges are those on the first one and then those on the second one. -/
theorem labelsOn_append (edges edges' : List RelationAnnotation) (dependent governor : Span) :
    labelsOn (edges ++ edges') dependent governor =
      labelsOn edges dependent governor ++ labelsOn edges' dependent governor := by
  rw [labelsOn, List.filter_append, List.map_append]
  rfl

/-- A single edge puts its label on its own two ends, and on no others. -/
theorem labelsOn_singleton (e : RelationAnnotation) (dependent governor : Span) :
    labelsOn [e] dependent governor =
      if dependent = e.dependent ∧ governor = e.governor then [e.label] else [] := by
  by_cases h : dependent = e.dependent ∧ governor = e.governor
  · obtain ⟨rfl, rfl⟩ := h
    simp [labelsOn, RelationAnnotation.links]
  · have hlinks : e.links dependent governor = false := by
      refine Bool.eq_false_iff.2 fun hlinks => h ?_
      obtain ⟨hd, hg⟩ := RelationAnnotation.links_iff.1 hlinks
      exact ⟨hd.symm, hg.symm⟩
    simp [labelsOn, hlinks, h]

open RelationAnnotation (links_iff) in
/-- Taking all edges between two spans away leaves the labels between any other two. -/
theorem labelsOn_filter_not_links (edges : List RelationAnnotation)
    (d g dependent governor : Span) :
    labelsOn (edges.filter (!·.links dependent governor)) d g =
      if d = dependent ∧ g = governor then [] else labelsOn edges d g := by
  rw [labelsOn, List.filter_filter]
  split
  · rename_i h
    obtain ⟨rfl, rfl⟩ := h
    simp
  · rename_i h
    refine congrArg (List.map _) (List.filter_congr fun e _ => ?_)
    cases he : e.links d g with
    | false => rfl
    | true =>
      have hne : e.links dependent governor = false := by
        obtain ⟨rfl, rfl⟩ := links_iff.1 he
        exact Bool.eq_false_iff.2 fun hlinks => h (links_iff.1 hlinks)
      simp [hne]

/-- **The last label counts**: the last of the labels on two ends is that of the edge which is found
from the back. -/
theorem getLast?_labelsOn (edges : List RelationAnnotation) (dependent governor : Span) :
    (labelsOn edges dependent governor).getLast? =
      (edges.reverse.find? (·.links dependent governor)).map (·.label) := by
  rw [← List.head?_filter, List.filter_reverse, List.head?_reverse, labelsOn, List.getLast?_map]

/-- The label that counts for two ends is the last one on them, if there is one and it is not
missing. -/
theorem RelationIndex.label?_eq (x : RelationIndex) (dependent governor : Span) :
    x.label? dependent governor = (labelsOn x.edges dependent governor).getLast?.join := by
  rw [getLast?_labelsOn, label?, edge?]
  cases x.edges.reverse.find? (·.links dependent governor) <;> rfl

/-- Two indices with the same tags, and with the same labels between any two spans, show the same
tags. -/
theorem RelationIndex.resolve_congr {x y : RelationIndex} (htags : x.tags = y.tags)
    (h : ∀ dependent governor,
      labelsOn x.edges dependent governor = labelsOn y.edges dependent governor) :
    x.resolve = y.resolve := by
  have htag : ∀ dependent governor, x.tag? dependent governor = y.tag? dependent governor := by
    intro dependent governor
    rw [tag?, tag?, label?_eq, label?_eq, h, htags]
  funext left right
  rw [resolve, resolve, htag, htag]

/-! ### Documents -/

namespace Document

variable {d : Document} {layer labelFeature : String}

namespace WellFormed

/-- **The id of an edge names its record**: a record is one of the edges between two spans exactly
if its id is among their ids. -/
theorem id_mem_edge_ids_iff (h : d.WellFormed) {r : RelationRecord} (hr : r ∈ d.relations)
    (dependent governor : Span) :
    r.id ∈ ((d.relationsOn layer labelFeature).filter (·.links dependent governor)).map (·.id) ↔
      r.onEdge d.spans layer labelFeature dependent governor = true := by
  rw [relationsOn, map_filter_links (g := (·.id)) fun _ _ => RelationRecord.id_of_resolve?]
  constructor
  · intro hmem
    obtain ⟨r', hr', hid⟩ := List.mem_map.1 hmem
    obtain ⟨hr', hedge⟩ := List.mem_filter.1 hr'
    exact h.relation_eq_of_id_eq hr' hr hid ▸ hedge
  · intro hedge
    exact List.mem_map.2 ⟨r, List.mem_filter.2 ⟨hr, hedge⟩, rfl⟩

/-- The id of an edge is not that of a span. -/
theorem span_id_not_mem_edge_ids (h : d.WellFormed) {s : SpanAnnotation} (hs : s ∈ d.spans)
    (dependent governor : Span) :
    s.id ∉ ((d.relationsOn layer labelFeature).filter (·.links dependent governor)).map (·.id) := by
  intro hmem
  obtain ⟨e, he, hid⟩ := List.mem_map.1 hmem
  obtain ⟨r, hr, -, hresolve⟩ := mem_resolveRelations.1 (List.mem_filter.1 he).1
  exact h.span_id_ne hs hr (hid.symm.trans (RelationRecord.id_of_resolve? hresolve))

end WellFormed
end Document
end PairAnnotation
