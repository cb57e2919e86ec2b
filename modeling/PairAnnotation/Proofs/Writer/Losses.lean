/-
# What a failed label loses

Rolling a failed label back is meant to bring back every annotation
(`Document.SameAnnotations`).  It does when the store refused a span, and when it
refused to write and every edge that had been taken away had an annotation on the
sentence layer at both ends and no features but these ends and a text as its label
(`apply_restores_iff`).  Any other edge does not come back as it was: what else it
carried is lost (`failed_apply_loses_note`).
-/

import PairAnnotation.Proofs.Writer.Label
import PairAnnotation.Proofs.Writer.RollBack

namespace PairAnnotation

namespace RelationRecord

/-- What a record says, whatever its id: its layer and all of its features. -/
def content (r : RelationRecord) : String × FeatureMap Json.Value := (r.layer, r.features)

/-- The label of a record is read from its features alone. -/
theorem label?_congr {r r' : RelationRecord} (h : r.features = r'.features) (feature : String) :
    r.label? feature = r'.label? feature := by
  rw [label?, label?, h]

end RelationRecord

namespace Document

/-- **The same annotations in some order**, relations under ids of their own. -/
def SameAnnotations (d d' : Document) : Prop :=
  d'.spans.Perm d.spans ∧ (d'.relations.map (·.content)).Perm (d.relations.map (·.content))

/-- Documents with the same content have the same annotations, ids included. -/
theorem SameContent.sameAnnotations {d d' : Document} (h : d.SameContent d') :
    d.SameAnnotations d' := by
  refine ⟨?_, ?_⟩
  · rw [h.spans]
  · rw [h.relations]

variable {layer labelFeature : String} {dependent governor : AnnotationId}

/-- A record is nothing but an edge with a label exactly if its content is that of an edge linked
anew, whatever its id is. -/
theorem isRelinked_iff {r : RelationRecord} {label : Option String} :
    IsRelinked layer labelFeature dependent governor r label ↔
      r.content =
        (RelationRecord.relinked ⟨0⟩ layer labelFeature dependent governor label).content := by
  obtain ⟨id, l, features⟩ := r
  cases label <;>
    simp [IsRelinked, RelationRecord.content, RelationRecord.relinked, RelationRecord.linking,
      RelationRecord.setLabel]

/-- Records that are nothing but edges have the contents of edges linked anew, one for each
label. -/
theorem map_content_of_forall₂ {records : List RelationRecord} {labels : List (Option String)}
    (h : List.Forall₂ (IsRelinked layer labelFeature dependent governor) records labels) :
    records.map (·.content) = labels.map fun label =>
      (RelationRecord.relinked ⟨0⟩ layer labelFeature dependent governor label).content := by
  induction h with
  | nil => rfl
  | cons hr _ ih => rw [List.map_cons, List.map_cons, ih, isRelinked_iff.1 hr]

end Document

namespace Relabelling

variable {p : Relabelling}

/-- The records that are replaced, with everything that stands in them and not only their labels. -/
def replaced (p : Relabelling) : List RelationRecord :=
  p.document.relations.filter
    (·.onEdge p.document.spans p.layers.relationLayer p.layers.labelFeature p.target p.origin)

/-- The labels of the edges that a label replaces are read from their records. -/
theorem map_label_previous :
    p.previous.map (·.label) = p.replaced.map (·.label? p.layers.labelFeature) :=
  map_filter_links (fun _ _ => RelationRecord.label_of_resolve?) p.target p.origin

/-- No record is replaced exactly if no edge is, since each edge is read from one record. -/
theorem replaced_eq_nil_iff : p.replaced = [] ↔ p.previous = [] := by
  rw [← List.map_eq_nil_iff (f := (·.label? p.layers.labelFeature)), ← map_label_previous,
    List.map_eq_nil_iff]

/-- **An edge that can be put back as it was**: its ends are where the sentence layer has the two
segments, its label is a text or missing, and it carries nothing else. -/
def Restorable (p : Relabelling) (r : RelationRecord) : Prop :=
  ∃ dependent governor,
    p.document.idAt? p.layers.sentenceLayer p.target = some dependent ∧
    p.document.idAt? p.layers.sentenceLayer p.origin = some governor ∧
    Document.IsRelinked p.layers.relationLayer p.layers.labelFeature dependent governor r
      (r.label? p.layers.labelFeature)

/-- Where nothing was missing, the annotation was found and the document is as it was. -/
theorem eq_nil_of_missing {d : Document} {layer : String} {span : Span}
    (h : d.missing layer span = []) :
    d.idAt? layer span = some (d.anchor layer span).1 ∧ (d.anchor layer span).2 = d := by
  unfold Document.missing at h
  unfold Document.anchor
  cases hid : d.idAt? layer span with
  | some id => exact ⟨rfl, rfl⟩
  | none =>
    rw [hid] at h
    cases h

/-- When nothing is created, both ends have their annotations already. -/
theorem idAt?_of_created_eq_nil (h : p.created = []) :
    p.document.idAt? p.layers.sentenceLayer p.target = some p.targetId ∧
      p.document.idAt? p.layers.sentenceLayer p.origin = some p.originId := by
  obtain ⟨horigin, htarget⟩ := List.append_eq_nil_iff.1 h
  obtain ⟨hoid, hdoc⟩ := eq_nil_of_missing horigin
  obtain ⟨htid, -⟩ := eq_nil_of_missing htarget
  have hdoc : p.originAnchored = p.document := hdoc
  refine ⟨?_, hoid⟩
  rw [hdoc] at htid
  rw [htid, targetId, hdoc]

/-- Where both ends have annotations already, a label creates none. -/
theorem created_eq_nil {dependent governor : AnnotationId}
    (htarget : p.document.idAt? p.layers.sentenceLayer p.target = some dependent)
    (horigin : p.document.idAt? p.layers.sentenceLayer p.origin = some governor) :
    p.targetId = dependent ∧ p.originId = governor ∧ p.created = [] := by
  have hdoc : p.originAnchored = p.document := by
    rw [originAnchored, Document.anchor, horigin]
  refine ⟨?_, ?_, ?_⟩
  · rw [targetId, hdoc, Document.anchor, htarget]
  · rw [originId, Document.anchor, horigin]
  · rw [created, hdoc, Document.missing, horigin, Document.missing, htarget]
    rfl

/-- What is put back for a record: an edge with the same label between the two annotations. -/
def contentBack (p : Relabelling) (r : RelationRecord) : String × FeatureMap Json.Value :=
  (RelationRecord.relinked ⟨0⟩ p.layers.relationLayer p.layers.labelFeature p.targetId p.originId
    (r.label? p.layers.labelFeature)).content

/-- **What edges are put back as**: behind those that stayed, each with its ends and its label and
with nothing else. -/
theorem map_content_of_putBack {d' : Document} {new : List RelationRecord}
    (hput : p.PutBack d' new) :
    d'.relations.map (·.content) =
      p.cleared.relations.map (·.content) ++ p.replaced.map p.contentBack := by
  rw [hput.relations, List.map_append, Document.map_content_of_forall₂ hput.new,
    map_label_previous, List.map_map]
  rfl

/-- A record is replaced or stays, so the contents of the two kinds add up to all contents, in some
order. -/
theorem perm_content_cleared (h : p.document.WellFormed) :
    (p.document.relations.map (·.content)).Perm
      (p.cleared.relations.map (·.content) ++ p.replaced.map (·.content)) := by
  rw [relations_cleared h, ← List.map_append]
  exact (List.perm_append_comm.trans (List.filter_append_perm _ _)).symm.map _

/-- An edge that can be put back as it was is put back as it was. -/
theorem content_eq_of_restorable {r : RelationRecord} (h : p.Restorable r) :
    p.contentBack r = r.content := by
  obtain ⟨dependent, governor, htarget, horigin, hrelinked⟩ := h
  obtain ⟨htid, hoid, -⟩ := created_eq_nil htarget horigin
  rw [contentBack, htid, hoid]
  exact (Document.isRelinked_iff.1 hrelinked).symm

/-- A record is restorable when it is put back for some record, and nothing was created. -/
theorem restorable_of_content_eq {r r' : RelationRecord}
    (hd : p.layers.labelFeature ≠ RelationRecord.dependentFeature)
    (hg : p.layers.labelFeature ≠ RelationRecord.governorFeature) (hcreated : p.created = [])
    (hcontent : p.contentBack r' = r.content) : p.Restorable r := by
  obtain ⟨htarget, horigin⟩ := idAt?_of_created_eq_nil hcreated
  -- The label that was put back for `r'` is the label of `r`, since their features agree.
  have hlabel : r.label? p.layers.labelFeature = r'.label? p.layers.labelFeature := by
    rw [← RelationRecord.label?_congr (congrArg Prod.snd hcontent),
      RelationRecord.label?_relinked hd hg]
  refine ⟨p.targetId, p.originId, htarget, horigin, Document.isRelinked_iff.2 ?_⟩
  rw [hlabel]
  exact hcontent.symm

/-- **A roll-back after a refused writing brings back every annotation exactly when each edge that
was taken away can be put back as it was.** -/
theorem sameAnnotations_iff_of_putBack {d' : Document} {new : List RelationRecord}
    (h : p.document.WellFormed) (hd : p.layers.labelFeature ≠ RelationRecord.dependentFeature)
    (hg : p.layers.labelFeature ≠ RelationRecord.governorFeature) (hprevious : p.previous ≠ [])
    (hput : p.PutBack d' new) :
    p.document.SameAnnotations d' ↔ ∀ r ∈ p.replaced, p.Restorable r := by
  have hspans : d'.spans = p.document.spans ++ p.created := hput.spans.trans (spans_cleared h)
  have hrelations := map_content_of_putBack hput
  constructor
  · rintro ⟨hspansPerm, hrelationsPerm⟩ r hr
    have hcreated : p.created = [] := by
      have hlength := hspansPerm.length_eq
      rw [hspans, List.length_append] at hlength
      exact List.eq_nil_of_length_eq_zero (by omega)
    have hperm := hrelationsPerm.trans (perm_content_cleared h)
    rw [hrelations] at hperm
    have hmem := ((List.perm_append_left_iff _).1 hperm).symm.subset (List.mem_map_of_mem hr)
    obtain ⟨r', -, hcontent⟩ := List.mem_map.1 hmem
    exact restorable_of_content_eq hd hg hcreated hcontent
  · intro hrestorable
    obtain ⟨r, hr⟩ := List.exists_mem_of_ne_nil _ (mt replaced_eq_nil_iff.1 hprevious)
    obtain ⟨dependent, governor, htarget, horigin, -⟩ := hrestorable r hr
    obtain ⟨-, -, hcreated⟩ := created_eq_nil htarget horigin
    have hcontent : p.replaced.map p.contentBack = p.replaced.map (·.content) :=
      List.map_congr_left fun r hr => content_eq_of_restorable (hrestorable r hr)
    constructor
    · rw [hspans, hcreated, List.append_nil]
    · rw [hrelations, hcontent]
      exact (perm_content_cleared h).symm

end Relabelling

namespace LabelWriter

open Relabelling
open Document (threeSegments threeSentences threeSentences_wellFormed)

/-- **A failed label brings back every annotation, unless the store refused to write and an edge
that had been taken away cannot be put back as it was.** -/
theorem apply_restores_iff {layers : LayerConfig} {segments : SegmentList} {tag : Tag}
    {origin target : Nat} {pairs pairs' : PairSet} {s s' : FileStore} {e : EditorError}
    (h : s.document.WellFormed) (hd : layers.labelFeature ≠ RelationRecord.dependentFeature)
    (hg : layers.labelFeature ≠ RelationRecord.governorFeature)
    (happly : apply layers segments tag origin target pairs s = (.error e, pairs', s')) :
    s.document.SameAnnotations s'.document ↔
      ∀ cause, e = .persistence "write document" cause →
        ∀ originSpan targetSpan, segments.spanAt? origin = some originSpan →
          segments.spanAt? target = some targetSpan →
          ∀ r ∈ s.document.relations,
            r.onEdge s.document.spans layers.relationLayer layers.labelFeature targetSpan
              originSpan = true →
            ∃ dependent governor,
              s.document.idAt? layers.sentenceLayer targetSpan = some dependent ∧
              s.document.idAt? layers.sentenceLayer originSpan = some governor ∧
              Document.IsRelinked layers.relationLayer layers.labelFeature dependent governor r
                (r.label? layers.labelFeature) := by
  rcases apply_inFile layers segments tag origin target pairs h with
    ⟨e', hlocate, herror⟩ | ⟨place, hplace, ⟨s₁, -, -, -, hok⟩ | ⟨e', s₁, undo, hstops, herror⟩⟩
  · rw [herror] at happly
    cases happly
    refine ⟨fun _ cause he => ?_, fun _ => ⟨List.Perm.refl _, List.Perm.refl _⟩⟩
    exact absurd he (locate_error_ne_persistence hlocate _ cause)
  · rw [hok] at happly
    cases happly
  · rw [herror] at happly
    cases happly
    obtain ⟨horigin, htarget, -⟩ := locate_eq_ok.1 hplace
    let p : Relabelling := ⟨s.document, layers, tag.name, place.origin, place.target⟩
    obtain ⟨d', hdocument, ⟨hsame, hnone⟩ | ⟨⟨cause, rfl⟩, hprevious, -, new, hput⟩⟩ :=
      rollBack_inFile (p := p) h hd hg hstops
    · rw [show rollBack layers undo s₁ = { s with document := d' } from hdocument]
      refine ⟨fun _ cause he originSpan targetSpan ho ht r hr hedge => ?_,
        fun _ => hsame.sameAnnotations⟩
      obtain rfl : originSpan = place.origin := Option.some.inj (ho.symm.trans horigin)
      obtain rfl : targetSpan = place.target := Option.some.inj (ht.symm.trans htarget)
      have hmem : r ∈ p.replaced := List.mem_filter.2 ⟨hr, hedge⟩
      rw [replaced_eq_nil_iff.2 (hnone cause he)] at hmem
      cases hmem
    · rw [show rollBack layers undo s₁ = { s with document := d' } from hdocument]
      have hiff := sameAnnotations_iff_of_putBack (p := p) h hd hg hprevious hput
      constructor
      · intro hsame cause _ originSpan targetSpan ho ht r hr hedge
        obtain rfl : originSpan = place.origin := Option.some.inj (ho.symm.trans horigin)
        obtain rfl : targetSpan = place.target := Option.some.inj (ht.symm.trans htarget)
        exact hiff.1 hsame r (List.mem_filter.2 ⟨hr, hedge⟩)
      · intro hrestorable
        refine hiff.2 fun r hr => ?_
        obtain ⟨hr, hedge⟩ := List.mem_filter.1 hr
        exact hrestorable cause rfl place.origin place.target horigin htarget r hr hedge

/-- A file that cannot be written, since its path leads into a directory that is not there. -/
def unwritable (d : Document) : FileStore := ⟨d, some "missing/doc.json", {}⟩

/-- A path in a directory that is not there is no place to write to. -/
theorem destination_unwritable (d : Document) :
    (unwritable d).disk.destination "missing/doc.json" = .error .notFound := by
  show ({} : Disk).destination "missing/doc.json" = .error .notFound
  decide

/-- An edge with nothing but its label is put back. -/
theorem failed_apply_restores_cause :
    ∃ e s', apply {} threeSegments ⟨"contrast", none⟩ 0 1 (.combinations 3)
        (unwritable threeSentences) = (.error e, .combinations 3, s') ∧
      threeSentences.SameAnnotations s'.document := by
  obtain ⟨-, hfails⟩ := apply_of_unwritable (s := unwritable threeSentences) {}
    ⟨"contrast", none⟩ (.combinations 3) threeSentences_wellFormed locate_threeSegments rfl
    (destination_unwritable _) (by decide)
  refine ⟨_, _, hfails, ?_⟩
  refine (apply_restores_iff threeSentences_wellFormed (by decide) (by decide) hfails).2 ?_
  rintro cause - originSpan targetSpan ho ht r hr -
  obtain rfl : ⟨0, 2⟩ = originSpan := Option.some.inj ho
  obtain rfl : ⟨3, 5⟩ = targetSpan := Option.some.inj ht
  obtain rfl := List.mem_singleton.1 hr
  exact ⟨⟨2⟩, ⟨1⟩, by decide, by decide, rfl⟩

/-- The edge of the three sentences, with a note on it. -/
def notedEdge : RelationRecord where
  id := ⟨3⟩
  layer := "webanno.custom.SentenceRelation"
  features := .ofList [("Dependent", .nat 2), ("Governor", .nat 1), ("label", .string "cause"),
    ("note", .string "see draft")]

/-- The three sentences with that edge in the place of the plain one. -/
def notedSentences : Document := { threeSentences with relations := [notedEdge] }

/-- **An edge that carries a note comes back without it**, in a document that is well formed. -/
theorem failed_apply_loses_note :
    notedSentences.WellFormed ∧
    ∃ e s', apply {} threeSegments ⟨"contrast", none⟩ 0 1 (.combinations 3)
        (unwritable notedSentences) = (.error e, .combinations 3, s') ∧
      ¬ notedSentences.SameAnnotations s'.document := by
  have hwellFormed : notedSentences.WellFormed := by decide
  let p : Relabelling := ⟨notedSentences, {}, "contrast", ⟨0, 2⟩, ⟨3, 5⟩⟩
  obtain ⟨hstops, hfails⟩ := apply_of_unwritable (s := unwritable notedSentences) {}
    ⟨"contrast", none⟩ (.combinations 3) hwellFormed locate_threeSegments rfl
    (destination_unwritable _) (by decide)
  refine ⟨hwellFormed, _, _, hfails, fun hsame => ?_⟩
  obtain ⟨d', hdocument, ⟨-, hnone⟩ | ⟨-, hprevious, -, new, hput⟩⟩ :=
    rollBack_inFile (p := p) hwellFormed (by decide) (by decide) hstops
  · exact absurd (hnone _ rfl) (by decide)
  · rw [show rollBack {} _ _ = _ from hdocument] at hsame
    have hmem : notedEdge ∈ p.replaced := List.mem_filter.2 ⟨List.mem_singleton_self _, by decide⟩
    have hrestorable :=
      (sameAnnotations_iff_of_putBack hwellFormed (by decide) (by decide) hprevious hput).1 hsame
    obtain ⟨dependent, governor, -, -, hrelinked⟩ := hrestorable _ hmem
    have hnote := congrArg (fun r : RelationRecord => r.features.get? "note") hrelinked
    have hlabel : notedEdge.label? "label" = some "cause" := by decide
    change some (Json.Value.string "see draft") = _ at hnote
    simp [p, hlabel, RelationRecord.relinked, RelationRecord.setLabel, RelationRecord.linking,
      FeatureMap.get?_insert, FeatureMap.get?_empty, RelationRecord.dependentFeature,
      RelationRecord.governorFeature] at hnote

end LabelWriter
end PairAnnotation
