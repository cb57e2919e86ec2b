/-
# What a failed label keeps

Whatever a roll-back loses, it does not lose the labels.  After a failed label the
document is well formed, and between any two spans stand the same labels in the same
order as before (`LabelWriter.Alike`), since the edges that were taken away are all
edges between two spans and come back in order.  The labels, and which spans can be
anchored, are all that a later label depends on: from two documents that agree in these
it has the same outcome and leaves the same labels (`apply_congr`).
-/

import PairAnnotation.Proofs.Writer.Label
import PairAnnotation.Proofs.Writer.RollBack

namespace PairAnnotation

/-- The edges that were put back have the labels that were taken away. -/
theorem labelsOn_resolveRelations_of_forall₂ {records : List RelationRecord}
    {labels : List (Option String)} {spans : List SpanAnnotation} {layer labelFeature : String}
    {dependent governor : AnnotationId} {dependentSpan governorSpan : Span}
    (hd : labelFeature ≠ RelationRecord.dependentFeature)
    (hg : labelFeature ≠ RelationRecord.governorFeature)
    (hdependent : spanOf? spans dependent = some dependentSpan)
    (hgovernor : spanOf? spans governor = some governorSpan)
    (h : List.Forall₂ (Document.IsRelinked layer labelFeature dependent governor) records labels)
    (d g : Span) :
    labelsOn (resolveRelations records spans layer labelFeature) d g =
      if d = dependentSpan ∧ g = governorSpan then labels else [] := by
  induction h with
  | nil => simp [resolveRelations, labelsOn]
  | @cons r label _ _ hr _ ih =>
    have hlayer : r.layer = layer := by
      rw [hr]
      exact RelationRecord.layer_relinked
    have hresolve : r.resolve? spans labelFeature =
        some ⟨r.id, dependentSpan, governorSpan, label⟩ := by
      rw [hr, RelationRecord.resolve?_relinked hd hg hdependent hgovernor]
      rw [← hr]
    rw [resolveRelations_cons, if_pos hlayer, hresolve, labelsOn_append, ih, Option.toList,
      labelsOn_singleton]
    split <;> rfl

/-- The labels in a document from a span to another one. -/
def Document.labels (d : Document) (layers : LayerConfig) (dependent governor : Span) :
    List (Option String) :=
  labelsOn (d.relationsOn layers.relationLayer layers.labelFeature) dependent governor

/-- Of these the index shows the last one, and nothing if there are none or the last edge has no
label. -/
theorem Document.label?_relationsOn (d : Document) (layers : LayerConfig) (tags : TagSet)
    (dependent governor : Span) :
    RelationIndex.label? ⟨d.relationsOn layers.relationLayer layers.labelFeature, tags⟩
        dependent governor = (d.labels layers dependent governor).getLast?.join :=
  RelationIndex.label?_eq _ dependent governor

namespace Relabelling

variable {p : Relabelling}

/-- The number of edges that are replaced is that of their labels. -/
theorem length_previous :
    p.previous.length = (p.document.labels p.layers p.target p.origin).length := by
  rw [Document.labels, labelsOn, List.length_map]
  rfl

/-- **The labels after a change**: those between the two ends are replaced by one. -/
theorem labels_result (h : p.document.WellFormed)
    (hd : p.layers.labelFeature ≠ RelationRecord.dependentFeature)
    (hg : p.layers.labelFeature ≠ RelationRecord.governorFeature) (d g : Span) :
    p.result.2.labels p.layers d g =
      if d = p.target ∧ g = p.origin then [some p.label] else p.document.labels p.layers d g := by
  rw [Document.labels, relationsOn_result h hd hg, labelsOn_append, labelsOn_filter_not_links,
    labelsOn_singleton]
  split
  · rfl
  · exact List.append_nil _

/-- What is created is an annotation of one of the two ends. -/
theorem span_mem_of_mem_created {s : SpanAnnotation} (h : s ∈ p.created) :
    s.span ∈ [p.origin, p.target] := by
  rcases List.mem_append.1 h with hmem | hmem
  · rw [(Document.of_mem_missing hmem).2]
    exact List.mem_cons_self
  · rw [(Document.of_mem_missing hmem).2]
    exact List.mem_cons_of_mem _ List.mem_cons_self

end Relabelling

namespace LabelWriter

open Relabelling

/-! ### Documents that a label cannot tell apart -/

/-- **Two documents that no label can tell apart**: between any two spans stand the same labels,
and the same spans can be anchored. -/
structure Alike (layers : LayerConfig) (d d' : Document) : Prop where
  labels (dependent governor : Span) :
    d'.labels layers dependent governor = d.labels layers dependent governor
  fits (span : Span) :
    (d'.idAt? layers.sentenceLayer span = none → span.fits d'.text.length = true) ↔
      (d.idAt? layers.sentenceLayer span = none → span.fits d.text.length = true)

theorem Alike.refl (layers : LayerConfig) (d : Document) : Alike layers d d :=
  ⟨fun _ _ => rfl, fun _ => Iff.rfl⟩

/-- The ends that lack an annotation are the same in documents that are alike, so they fit into both
texts or into none. -/
theorem Alike.anchorable {layers : LayerConfig} {d d' : Document} (h : Alike layers d d')
    (label : String) (originSpan targetSpan : Span) :
    Anchorable ⟨d', layers, label, originSpan, targetSpan⟩ ↔
      Anchorable ⟨d, layers, label, originSpan, targetSpan⟩ :=
  forall₂_congr fun span _ => h.fits span

theorem alike_of_sameContent {layers : LayerConfig} {d d' : Document} (h : d.SameContent d') :
    Alike layers d d' where
  labels dependent governor := by
    rw [Document.labels, Document.relationsOn, h.relations, h.spans]
    rfl
  fits span := by
    rw [Document.idAt?, h.spans, h.text]
    rfl

/-- **A label that was taken back cannot be told from one that was never tried**: the labels between
any two spans are the same, and so are the spans that can be anchored. -/
theorem alike_of_putBack {p : Relabelling} {d' : Document} {new : List RelationRecord}
    (h : p.document.WellFormed) (hd : p.layers.labelFeature ≠ RelationRecord.dependentFeature)
    (hg : p.layers.labelFeature ≠ RelationRecord.governorFeature) (hanchorable : p.Anchorable)
    (hput : p.PutBack d' new) : Alike p.layers p.document d' where
  labels dependent governor := by
    have hnew := labelsOn_resolveRelations_of_forall₂ hd hg (spanOf?_targetId h)
      (spanOf?_originId h) hput.new dependent governor
    have hcleared : resolveRelations p.cleared.relations p.cleared.spans p.layers.relationLayer
        p.layers.labelFeature = _ := relationsOn_cleared h
    rw [Document.labels, Document.relationsOn, hput.relations, hput.spans, resolveRelations_append,
      labelsOn_append, hnew, hcleared, labelsOn_filter_not_links]
    split
    · rename_i heq
      obtain ⟨rfl, rfl⟩ := heq
      rfl
    · exact List.append_nil _
  fits span := by
    have hgrows : d'.spans = p.document.spans ++ p.created := hput.spans.trans (spans_cleared h)
    -- A span that is anchored in one of the two only is one of the two ends, which fit.
    have hisNone : (d'.idAt? p.layers.sentenceLayer span).isNone =
        ((p.document.idAt? p.layers.sentenceLayer span).isNone &&
          !p.created.any fun s => s.layer == p.layers.sentenceLayer && s.span == span) := by
      rw [Document.isNone_idAt?, Document.isNone_idAt?, hgrows, List.any_append, Bool.not_or]
    rw [hput.frame.text, ← Option.isNone_iff_eq_none, ← Option.isNone_iff_eq_none, hisNone,
      Bool.and_eq_true]
    refine ⟨fun hfits hnone => ?_, fun hfits hnone => hfits hnone.1⟩
    cases hany : p.created.any fun s => s.layer == p.layers.sentenceLayer && s.span == span with
    | false => exact hfits ⟨hnone, by rw [hany]; rfl⟩
    | true =>
      obtain ⟨s, hs, heq⟩ := List.any_eq_true.1 hany
      have hspan : s.span = span := eq_of_beq (Bool.and_eq_true_iff.1 heq).2
      exact hanchorable span (hspan ▸ span_mem_of_mem_created hs)
        (Option.isNone_iff_eq_none.1 hnone)

section Apply

variable {layers : LayerConfig} {segments : SegmentList} {tag : Tag} {origin target : Nat}
variable {pairs : PairSet} {s s' : FileStore}

/-! ### After a failure -/

/-- What a roll-back leaves is well formed, and a label cannot tell it from what was before. -/
theorem alike_rollBack {p : Relabelling} {e : EditorError} {undo : Undo}
    (h : p.document.WellFormed) (hd : p.layers.labelFeature ≠ RelationRecord.dependentFeature)
    (hg : p.layers.labelFeature ≠ RelationRecord.governorFeature)
    (hstops : p.StopsInFile s e s' undo) :
    (rollBack p.layers undo s').document.WellFormed ∧
      Alike p.layers p.document (rollBack p.layers undo s').document := by
  obtain ⟨d', hrollBack, ⟨hsame, -⟩ | ⟨-, -, hanchorable, new, hput⟩⟩ :=
    rollBack_inFile h hd hg hstops
  · rw [hrollBack]
    exact ⟨hsame.wellFormed h, alike_of_sameContent hsame⟩
  · rw [hrollBack]
    exact ⟨hput.wellFormed, alike_of_putBack h hd hg hanchorable hput⟩

/-- **A label keeps the document well formed**, whether it is accepted or not. -/
theorem wellFormed_apply (h : s.document.WellFormed)
    (hd : layers.labelFeature ≠ RelationRecord.dependentFeature)
    (hg : layers.labelFeature ≠ RelationRecord.governorFeature) :
    (apply layers segments tag origin target pairs s).2.2.document.WellFormed := by
  rcases apply_inFile layers segments tag origin target pairs h with
    ⟨e, -, herror⟩ | ⟨place, -, ⟨s', -, hdocument, -, hok⟩ | ⟨e, s', undo, hstops, herror⟩⟩
  · rw [herror]
    exact h
  · rw [hok]
    show s'.document.WellFormed
    rw [hdocument]
    exact result_wellFormed h hd hg
  · rw [herror]
    exact (alike_rollBack h hd hg hstops).1

/-- **A failed label leaves the pairs as they were, and a document that no label can tell from the
one before.** -/
theorem alike_of_apply_error {pairs' : PairSet} {e : EditorError} (h : s.document.WellFormed)
    (hd : layers.labelFeature ≠ RelationRecord.dependentFeature)
    (hg : layers.labelFeature ≠ RelationRecord.governorFeature)
    (happly : apply layers segments tag origin target pairs s = (.error e, pairs', s')) :
    pairs' = pairs ∧ Alike layers s.document s'.document := by
  rcases apply_inFile layers segments tag origin target pairs h with
    ⟨e', -, herror⟩ | ⟨place, hplace, ⟨s₁, -, -, -, hok⟩ | ⟨e', s₁, undo, hstops, herror⟩⟩
  · rw [herror] at happly
    cases happly
    exact ⟨rfl, .refl _ _⟩
  · rw [hok] at happly
    cases happly
  · rw [herror] at happly
    cases happly
    exact ⟨rfl, (alike_rollBack h hd hg hstops).2⟩

/-! ### Alike documents, alike outcomes -/

/-- Whether the inverse direction says something is told by the last label on it. -/
theorem inverseInformative_eq (d : Document) (layers : LayerConfig) (originSpan targetSpan : Span) :
    inverseInformative d layers originSpan targetSpan =
      isInformative (d.labels layers originSpan targetSpan).getLast?.join := by
  rw [Document.labels, getLast?_labelsOn, inverseInformative]
  cases (d.relationsOn layers.relationLayer layers.labelFeature).reverse.find?
    (·.links originSpan targetSpan) <;> rfl

/-- In documents that are alike, the inverse direction says something in both or in none. -/
theorem Alike.inverseInformative_eq {d d' : Document} (h : Alike layers d d')
    (originSpan targetSpan : Span) :
    inverseInformative d' layers originSpan targetSpan =
      inverseInformative d layers originSpan targetSpan := by
  rw [LabelWriter.inverseInformative_eq, LabelWriter.inverseInformative_eq, h.labels]

/-- In documents that are alike, a label replaces equally many edges. -/
theorem Alike.length_previous_eq {d d' : Document} (h : Alike layers d d') (label : String)
    (originSpan targetSpan : Span) :
    (previous ⟨d', layers, label, originSpan, targetSpan⟩).length =
      (previous ⟨d, layers, label, originSpan, targetSpan⟩).length := by
  rw [length_previous, length_previous]
  exact congrArg List.length (h.labels targetSpan originSpan)

/-- **The same change of alike documents** leaves the same labels. -/
theorem Alike.labels_result_eq {d d' : Document} (halike : Alike layers d d') (h : d.WellFormed)
    (h' : d'.WellFormed) (hd : layers.labelFeature ≠ RelationRecord.dependentFeature)
    (hg : layers.labelFeature ≠ RelationRecord.governorFeature) (label : String)
    (originSpan targetSpan dependent governor : Span) :
    (result ⟨d', layers, label, originSpan, targetSpan⟩).2.labels layers dependent governor =
      (result ⟨d, layers, label, originSpan, targetSpan⟩).2.labels layers dependent governor := by
  have hlabels := labels_result (p := ⟨d, layers, label, originSpan, targetSpan⟩) h hd hg
    dependent governor
  have hlabels' := labels_result (p := ⟨d', layers, label, originSpan, targetSpan⟩) h' hd hg
    dependent governor
  refine hlabels'.trans (Eq.trans ?_ hlabels.symm)
  dsimp only
  rw [halike.labels]

/-- What an outcome says, whatever the id of the new edge. -/
def outcome (r : Except EditorError AppliedRelation) : Option (Pair × Nat × Bool) :=
  r.toOption.map fun applied => (applied.pair, applied.replaced, applied.completed)

/-- **Where the file can be written, a label fails only when an end cannot be anchored**, or when
the indices are no ends of an edge. -/
theorem apply_of_writes (h : s.document.WellFormed)
    (hd : layers.labelFeature ≠ RelationRecord.dependentFeature)
    (hg : layers.labelFeature ≠ RelationRecord.governorFeature)
    (hwrites : FileStore.AcceptsWrites s.path s.disk) :
    (∃ e s', apply layers segments tag origin target pairs s = (.error e, pairs, s') ∧
      Alike layers s.document s'.document ∧
      ∀ place, locate segments origin target = .ok place →
        ¬ Anchorable ⟨s.document, layers, tag.name, place.origin, place.target⟩) ∨
    ∃ place s', locate segments origin target = .ok place ∧
      let p : Relabelling := ⟨s.document, layers, tag.name, place.origin, place.target⟩
      let pairs' := markAfter pairs place.pair tag
        (inverseInformative p.document layers place.origin place.target)
      p.Anchorable ∧ s'.document = p.result.2 ∧
        apply layers segments tag origin target pairs s =
          (.ok ⟨p.result.1, place.pair, p.previous.length, pairs'.isCompleted place.pair⟩,
            pairs', s') := by
  rcases apply_inFile layers segments tag origin target pairs h with
    ⟨e, hlocate, herror⟩ | ⟨place, hplace, ⟨s', hanchorable, hdocument, -, hok⟩ |
      ⟨e, s₁, undo, hstops, herror⟩⟩
  · refine .inl ⟨e, s, herror, .refl _ _, fun place hplace => ?_⟩
    cases hlocate.symm.trans hplace
  · exact .inr ⟨place, s', hplace, hanchorable, hdocument, hok⟩
  · refine .inl ⟨e, _, herror, (alike_rollBack h hd hg hstops).2, fun place' hplace' => ?_⟩
    obtain rfl : place = place' := Except.ok.inj (hplace.symm.trans hplace')
    exact hstops.not_anchorable h hwrites

/-- **A label depends on the labels that stand between the spans, and on nothing else**: on two
documents that no label can tell apart it has the same outcome and leaves the same pairs and the
same labels, where both can be written. -/
theorem apply_congr (h : s.document.WellFormed) (h' : s'.document.WellFormed)
    (hd : layers.labelFeature ≠ RelationRecord.dependentFeature)
    (hg : layers.labelFeature ≠ RelationRecord.governorFeature)
    (halike : Alike layers s.document s'.document)
    (hwrites : FileStore.AcceptsWrites s.path s.disk)
    (hwrites' : FileStore.AcceptsWrites s'.path s'.disk) :
    let r := apply layers segments tag origin target pairs s
    let r' := apply layers segments tag origin target pairs s'
    outcome r'.1 = outcome r.1 ∧ r'.2.1 = r.2.1 ∧
      ∀ dependent governor, r'.2.2.document.labels layers dependent governor =
        r.2.2.document.labels layers dependent governor := by
  intro r r'
  rcases apply_of_writes h hd hg hwrites with
    ⟨e, s₁, herror, hkept, hnot⟩ | ⟨place, s₁, hplace, hanchorable, hdocument, hok⟩
  · rcases apply_of_writes h' hd hg hwrites' with
      ⟨e', s₁', herror', hkept', -⟩ | ⟨place, s₁', hplace, hanchorable', -, -⟩
    · rw [show r = _ from herror, show r' = _ from herror']
      refine ⟨rfl, rfl, fun dependent governor => ?_⟩
      rw [hkept'.labels, halike.labels, hkept.labels]
    · exact absurd ((halike.anchorable _ _ _).1 hanchorable') (hnot place hplace)
  · rcases apply_of_writes h' hd hg hwrites' with
      ⟨e', s₁', -, -, hnot'⟩ | ⟨place', s₁', hplace', -, hdocument', hok'⟩
    · exact absurd ((halike.anchorable _ _ _).2 hanchorable) (hnot' place hplace)
    · obtain rfl : place = place' := Except.ok.inj (hplace.symm.trans hplace')
      have hinverse := halike.inverseInformative_eq place.origin place.target
      have hreplaced := halike.length_previous_eq tag.name place.origin place.target
      rw [show r = _ from hok, show r' = _ from hok']
      refine ⟨?_, ?_, fun dependent governor => ?_⟩
      · simp only [outcome, Except.toOption, Option.map_some, hinverse, hreplaced]
      · simp only [hinverse]
      · show s₁'.document.labels layers dependent governor =
          s₁.document.labels layers dependent governor
        rw [hdocument, hdocument']
        exact halike.labels_result_eq h h' hd hg tag.name place.origin place.target dependent
          governor

end Apply

end LabelWriter
end PairAnnotation
