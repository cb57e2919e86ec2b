/-
# What a label change is meant to do

To relabel an edge of a document is to anchor both of its ends, to take all edges away
that link them, and to add one with the new label (`Relabelling.result`).  Read as
relations, that is to replace the edges between two spans by a new one at the end and
to leave the others as they are and in order (`relationsOn_result`); read as records,
it is the same (`relations_result`), and no other annotation is touched.
-/

import PairAnnotation.Proofs.Document.Edits
import PairAnnotation.Writer

namespace PairAnnotation

/-- A document and the edge in it that gets a new label. -/
structure Relabelling where
  document : Document
  layers : LayerConfig
  label : String
  origin : Span
  target : Span

namespace Relabelling

variable (p : Relabelling)

/-- The edges that are replaced: those of the label layer that point from the target to the
origin. -/
def previous : List RelationAnnotation :=
  (p.document.relationsOn p.layers.relationLayer p.layers.labelFeature).filter
    (·.links p.target p.origin)

/-- The document in which the origin has its annotation, be it found or created. -/
def originAnchored : Document := (p.document.anchor p.layers.sentenceLayer p.origin).2

/-- The id of the annotation at the origin, be it found or created. -/
def originId : AnnotationId := (p.document.anchor p.layers.sentenceLayer p.origin).1

/-- The document in which both ends have their annotations, that of the origin being created
first. -/
def anchored : Document := (p.originAnchored.anchor p.layers.sentenceLayer p.target).2

/-- The id of the annotation at the target, be it found or created after that of the origin. -/
def targetId : AnnotationId := (p.originAnchored.anchor p.layers.sentenceLayer p.target).1

/-- The annotations created for the ends, two of them at most. -/
def created : List SpanAnnotation :=
  p.document.missing p.layers.sentenceLayer p.origin ++
    p.originAnchored.missing p.layers.sentenceLayer p.target

/-- The document without the edges that are replaced, but with the annotations created for the new
one. -/
def cleared : Document := p.anchored.without (p.previous.map (·.id))

/-- The new edge and the document with it, which is the document that is then written. -/
def result : AnnotationId × Document :=
  p.cleared.insertRelation p.layers.relationLayer p.targetId p.originId p.layers.labelFeature
    (some p.label)

/-- What has been done before the document is written, all of which a roll-back would have to
undo. -/
def account : Undo where
  createdSpans := p.created.map (·.id)
  endpoints := some (p.targetId, p.originId)
  removed := p.previous.map (·.label)
  createdRelation := some p.result.1

/-- The ends that have no annotation fit into the text. -/
def Anchorable : Prop :=
  ∀ span ∈ [p.origin, p.target], p.document.idAt? p.layers.sentenceLayer span = none →
    span.fits p.document.text.length = true

instance : Decidable p.Anchorable :=
  inferInstanceAs (Decidable (∀ span ∈ [p.origin, p.target],
    p.document.idAt? p.layers.sentenceLayer span = none →
      span.fits p.document.text.length = true))

variable {p}

/-- Anchoring the origin lets the document grow by one annotation at most. -/
theorem originAnchored_growsBy (h : p.document.WellFormed) :
    p.document.GrowsBy p.originAnchored
      (p.document.missing p.layers.sentenceLayer p.origin) :=
  Document.anchor_growsBy h _ _

/-- **Anchoring both ends lets the document grow by what was missing**, two annotations at most. -/
theorem anchored_growsBy (h : p.document.WellFormed) :
    p.document.GrowsBy p.anchored p.created :=
  (originAnchored_growsBy h).trans
    (Document.anchor_growsBy (originAnchored_growsBy h).wellFormed _ _)

/-- It is enough to check each end when it is about to be anchored. -/
theorem anchorable_of_fits (h : p.document.WellFormed)
    (ho : p.document.idAt? p.layers.sentenceLayer p.origin = none →
      p.origin.fits p.document.text.length = true)
    (ht : p.originAnchored.idAt? p.layers.sentenceLayer p.target = none →
      p.target.fits p.originAnchored.text.length = true) : p.Anchorable := by
  intro span hspan hnone
  rcases List.mem_pair.1 hspan with rfl | rfl
  · exact ho hnone
  · by_cases heq : p.origin = p.target
    · rw [← heq] at hnone ⊢
      exact ho hnone
    · rw [← (originAnchored_growsBy h).frame.text]
      refine ht ?_
      rw [← hnone]
      exact Document.idAt?_anchor_of_ne _ _ heq

/-- Without the edges that are replaced the document is well formed, as it was with them. -/
theorem cleared_wellFormed (h : p.document.WellFormed) : p.cleared.WellFormed :=
  (anchored_growsBy h).wellFormed.without _

/-- The annotation at the target is found where it was anchored. -/
theorem idAt?_target : p.anchored.idAt? p.layers.sentenceLayer p.target = some p.targetId :=
  Document.idAt?_anchor _ _ _

/-- The annotation at the origin is still found after the target was anchored as well. -/
theorem idAt?_origin (h : p.document.WellFormed) :
    p.anchored.idAt? p.layers.sentenceLayer p.origin = some p.originId :=
  (Document.anchor_growsBy (originAnchored_growsBy h).wellFormed _ _).idAt?_eq_some
    (Document.idAt?_anchor _ _ _)

/-- A well-formed document stays well formed while both ends are anchored. -/
theorem anchored_wellFormed (h : p.document.WellFormed) : p.anchored.WellFormed :=
  (anchored_growsBy h).wellFormed

/-! ### Taking the old edges away -/

/-- Anchors are no ends of the edges that were there. -/
theorem previous_eq (h : p.document.WellFormed) :
    p.previous = (p.anchored.relationsOn p.layers.relationLayer p.layers.labelFeature).filter
      (·.links p.target p.origin) := by
  rw [(anchored_growsBy h).relationsOn_eq h]
  rfl

/-- Up to the new edge nothing has changed but annotations. -/
theorem frame_cleared (h : p.document.WellFormed) : p.document.SameFrame p.cleared :=
  (anchored_growsBy h).frame.trans (p.anchored.frame_without _)

/-- Up to the new edge the spans are those of the document, and behind them those created for the
ends. -/
theorem spans_cleared (h : p.document.WellFormed) :
    p.cleared.spans = p.document.spans ++ p.created := by
  rw [← (anchored_growsBy h).spans, cleared]
  refine Document.spans_without fun s hs => ?_
  rw [previous_eq h]
  exact (anchored_wellFormed h).span_id_not_mem_edge_ids hs _ _

/-- **The edges that are replaced are gone and all others are there**, in the order in which they
were. -/
theorem relations_cleared (h : p.document.WellFormed) :
    p.cleared.relations = p.document.relations.filter fun r =>
      !r.onEdge p.document.spans p.layers.relationLayer p.layers.labelFeature p.target
        p.origin := by
  change p.anchored.relations.filter _ = _
  rw [(anchored_growsBy h).relations]
  refine List.filter_congr fun r hr => ?_
  rw [Bool.eq_iff_iff, decide_eq_true_iff, Bool.not_eq_true', Bool.eq_false_iff]
  exact not_congr (h.id_mem_edge_ids_iff hr p.target p.origin)

/-- The relations that are listed up to the new edge are those that the label does not replace. -/
theorem relationsOn_cleared (h : p.document.WellFormed) :
    p.cleared.relationsOn p.layers.relationLayer p.layers.labelFeature =
      (p.document.relationsOn p.layers.relationLayer p.layers.labelFeature).filter
        (!·.links p.target p.origin) := by
  have hspans : p.cleared.spans = p.anchored.spans := by
    rw [spans_cleared h, (anchored_growsBy h).spans]
  rw [Document.relationsOn, hspans, relations_cleared h, Document.relationsOn]
  rw [← resolveRelations_filter (q := (!·.links p.target p.origin)) fun r hr hlayer e he => ?_]
  · refine resolveRelations_congr fun r hr id hid => ?_
    exact (anchored_growsBy h).spanOf?_eq (h.end_lt r (List.mem_filter.1 hr).1 id hid)
  · simp [RelationRecord.onEdge, hlayer, he]

/-- The annotation at the target stands on the target, so the new edge ends there. -/
theorem spanOf?_targetId (h : p.document.WellFormed) :
    spanOf? p.cleared.spans p.targetId = some p.target := by
  rw [spans_cleared h, ← (anchored_growsBy h).spans]
  exact (anchored_wellFormed h).spanOf?_of_idAt? idAt?_target

/-- The annotation at the origin stands on the origin, so the new edge starts there. -/
theorem spanOf?_originId (h : p.document.WellFormed) :
    spanOf? p.cleared.spans p.originId = some p.origin := by
  rw [spans_cleared h, ← (anchored_growsBy h).spans]
  exact (anchored_wellFormed h).spanOf?_of_idAt? (idAt?_origin h)

/-- The id at the target is below the next one, so the new edge will have another. -/
theorem targetId_lt (h : p.document.WellFormed) : p.targetId.val < p.anchored.nextId :=
  (anchored_wellFormed h).lt_nextId_of_idAt? idAt?_target

/-- The id at the origin is below the next one, so the new edge will have another. -/
theorem originId_lt (h : p.document.WellFormed) : p.originId.val < p.anchored.nextId :=
  (anchored_wellFormed h).lt_nextId_of_idAt? (idAt?_origin h)

/-! ### Adding the new edge -/

section Result

variable (h : p.document.WellFormed)
variable (hd : p.layers.labelFeature ≠ RelationRecord.dependentFeature)
variable (hg : p.layers.labelFeature ≠ RelationRecord.governorFeature)
include h

/-- A label leaves the spans of the document, and behind them those created for its ends. -/
theorem spans_result : p.result.2.spans = p.document.spans ++ p.created := spans_cleared h

/-- The new record, with the fresh id of the document from which the old ones are gone. -/
def newRecord (p : Relabelling) : RelationRecord :=
  .relinked p.cleared.freshId p.layers.relationLayer p.layers.labelFeature p.targetId p.originId
    (some p.label)

/-- **The records after a change**: those on the edge are replaced by one at the end. -/
theorem relations_result :
    p.result.2.relations =
      (p.document.relations.filter fun r =>
        !r.onEdge p.document.spans p.layers.relationLayer p.layers.labelFeature p.target
          p.origin) ++ [p.newRecord] := by
  rw [← relations_cleared h]
  rfl

include hd hg

/-- **A label keeps a document well formed**, new edge included. -/
theorem result_wellFormed : p.result.2.WellFormed :=
  (cleared_wellFormed h).insertRelation hd hg (targetId_lt h) (originId_lt h)

/-- The new edge is read as what it was meant to be: between the two segments, with the label. -/
theorem resolve?_newRecord :
    p.newRecord.resolve? p.result.2.spans p.layers.labelFeature =
      some ⟨p.result.1, p.target, p.origin, some p.label⟩ :=
  RelationRecord.resolve?_relinked hd hg (spanOf?_targetId h) (spanOf?_originId h)

/-- **The relations after a change**: those that linked the ends are replaced by one at the end. -/
theorem relationsOn_result :
    p.result.2.relationsOn p.layers.relationLayer p.layers.labelFeature =
      (p.document.relationsOn p.layers.relationLayer p.layers.labelFeature).filter
        (!·.links p.target p.origin) ++ [⟨p.result.1, p.target, p.origin, some p.label⟩] := by
  have hrelations : p.result.2.relations = p.cleared.relations ++ [p.newRecord] := rfl
  have hnew : resolveRelations [p.newRecord] p.result.2.spans p.layers.relationLayer
      p.layers.labelFeature = [⟨p.result.1, p.target, p.origin, some p.label⟩] := by
    have hlayer : p.newRecord.layer = p.layers.relationLayer := RelationRecord.layer_relinked
    rw [resolveRelations_cons, resolve?_newRecord h hd hg, if_pos hlayer]
    rfl
  rw [Document.relationsOn, hrelations, resolveRelations_append, hnew, ← relationsOn_cleared h]
  rfl

end Result

/-- **What is created are the ends that have no annotation**, on the sentence layer and without
features. -/
theorem created_eq (hne : p.origin ≠ p.target) :
    p.created.map (fun s => (s.layer, s.span, s.features)) =
      ([p.origin, p.target].filter fun span =>
        !p.document.spans.any fun s => s.layer == p.layers.sentenceLayer && s.span == span).map
        (p.layers.sentenceLayer, ·, FeatureMap.empty) := by
  have htarget : p.originAnchored.idAt? p.layers.sentenceLayer p.target =
      p.document.idAt? p.layers.sentenceLayer p.target :=
    Document.idAt?_anchor_of_ne p.document p.layers.sentenceLayer hne
  rw [created, List.map_append, Document.map_missing, Document.map_missing, htarget]
  simp only [List.filter_cons, List.filter_nil, ← Document.isNone_idAt?]
  cases p.document.idAt? p.layers.sentenceLayer p.origin <;>
    cases p.document.idAt? p.layers.sentenceLayer p.target <;> rfl

/-- **Nothing else changes**: the name, the format, the text, the sentences and the tag sets are
those before the change. -/
theorem frame_result (h : p.document.WellFormed) : p.document.SameFrame p.result.2 :=
  (frame_cleared h).trans (p.cleared.frame_insertRelation ..)

end Relabelling
end PairAnnotation
