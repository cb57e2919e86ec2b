/-
# The stages of a label change

On a store that keeps its contract a label change either gets through, and has done to
the document what it is meant to do (`Relabelling.result`), or it stops at one of six
stages (`Relabelling.StopsAt`), each with the document and the account that the stages
before it left.
-/

import PairAnnotation.Proofs.Writer.Attempt
import PairAnnotation.Proofs.Writer.Relabelling

namespace PairAnnotation

namespace Relabelling

open Attempt (Refused Accepted)

/-- **Where a change can stop**: the error, the store that is left, and the account of what was done
before. -/
inductive StopsAt {σ : Type} [AnnotationStore σ] (P : σ → Prop) (p : Relabelling) :
    EditorError → σ → Undo → Prop where
  | origin {cause : StoreError} {s : σ} :
    p.document.idAt? p.layers.sentenceLayer p.origin = none →
    Refused P (AnnotationStore.addSpan p.layers.sentenceLayer p.origin) cause p.document s →
    StopsAt P p (.persistence "create span annotation" cause) s {}
  | target {cause : StoreError} {s : σ} :
    p.originAnchored.idAt? p.layers.sentenceLayer p.target = none →
    Refused P (AnnotationStore.addSpan p.layers.sentenceLayer p.target) cause p.originAnchored s →
    StopsAt P p (.persistence "create span annotation" cause) s
      { createdSpans := (p.document.missing p.layers.sentenceLayer p.origin).map (·.id) }
  | delete {cause : StoreError} {s : σ} {done rest : List RelationAnnotation}
      {old : RelationAnnotation} :
    p.Anchorable →
    p.previous = done ++ old :: rest →
    Refused P (AnnotationStore.delete old.id) cause (p.anchored.without (done.map (·.id))) s →
    StopsAt P p (.persistence "delete previous relation" cause) s
      { p.account with removed := done.map (·.label), createdRelation := none }
  | add {cause : StoreError} {s : σ} :
    p.Anchorable →
    Refused P (AnnotationStore.addRelation p.layers.relationLayer p.targetId p.originId) cause
      p.cleared s →
    StopsAt P p (.persistence "create relation annotation" cause) s
      { p.account with createdRelation := none }
  | label {cause : StoreError} {s : σ} :
    p.Anchorable →
    Refused P (AnnotationStore.setFeature p.result.1 p.layers.labelFeature p.label) cause
      (p.cleared.insertRelation p.layers.relationLayer p.targetId p.originId "" none).2 s →
    StopsAt P p (.persistence "set relation label" cause) s p.account
  | write {cause : StoreError} {s : σ} :
    p.Anchorable →
    Refused P AnnotationStore.write cause p.result.2 s →
    StopsAt P p (.persistence "write document" cause) s p.account

end Relabelling

namespace LabelWriter

open Attempt Relabelling

variable {σ : Type} [AnnotationStore σ] [LawfulStore σ] {P : σ → Prop}

/-- **Anchoring a span in the store** is anchoring it in the document. -/
theorem ends_ensureSpan (hkeep : KeptByEdits P) (layer : String) (span : Span) {s : σ}
    {d : Document} (hd : AnnotationStore.document s = d) (hP : P s) (undo : Undo) :
    Ends (ensureSpan layer span) s undo
      (fun id s' undo' => P s' ∧ id = (d.anchor layer span).1 ∧
        AnnotationStore.document s' = (d.anchor layer span).2 ∧
        (d.idAt? layer span = none → span.fits d.text.length = true) ∧
        undo' =
          { undo with createdSpans := undo.createdSpans ++ (d.missing layer span).map (·.id) })
      fun e s' undo' => ∃ cause, e = .persistence "create span annotation" cause ∧ undo' = undo ∧
        d.idAt? layer span = none ∧ Refused P (AnnotationStore.addSpan layer span) cause d s' := by
  subst hd
  have hfind := (AnnotationStore.document s).find?_spansCoveredBy layer span
  refine ends_bind (ends_document ?_)
  cases hspan : ((AnnotationStore.document s).spansCoveredBy layer span).find? (·.span == span) with
  | some existing =>
    rw [hspan] at hfind
    have hid : (AnnotationStore.document s).idAt? layer span = some existing.id := hfind.symm
    refine ends_pure ⟨hP, ?_⟩
    simp [Document.anchor, Document.missing, hid]
  | none =>
    rw [hspan] at hfind
    have hid : (AnnotationStore.document s).idAt? layer span = none := hfind.symm
    refine ends_bind (ends_step (LawfulStore.addSpan layer span) rfl hP ?_ ?_)
    · intro id d' s' hadd haccepted
      obtain ⟨hfits, hinsert⟩ := Document.eq_insertSpan_of_addSpan hadd
      refine ends_bind (ends_note (ends_pure ⟨haccepted.kept (hkeep.addSpan layer span), ?_,
        haccepted.document.trans ?_, fun _ => hfits, ?_⟩))
      · rw [Document.anchor, hid]
        exact (congrArg Prod.fst hinsert).symm
      · rw [Document.anchor, hid]
        exact (congrArg Prod.snd hinsert).symm
      · have hfresh : (AnnotationStore.document s).freshId = id := congrArg Prod.fst hinsert
        simp [Document.missing, hid, hfresh]
    · exact fun cause s' hrefused => ⟨cause, rfl, rfl, hid, hrefused⟩

/-- **Taking edges away one by one**: those before the one that is refused are gone. -/
theorem ends_removeAll (hkeep : KeptByEdits P) (edges : List RelationAnnotation) {s : σ}
    {d : Document} (hd : AnnotationStore.document s = d) (hP : P s) (undo : Undo) :
    Ends (removeAll edges) s undo
      (fun _ s' undo' => P s' ∧ AnnotationStore.document s' = d.without (edges.map (·.id)) ∧
        undo' = { undo with removed := undo.removed ++ edges.map (·.label) })
      fun e s' undo' => ∃ done old rest cause, edges = done ++ old :: rest ∧
        e = .persistence "delete previous relation" cause ∧
        Refused P (AnnotationStore.delete old.id) cause (d.without (done.map (·.id))) s' ∧
        undo' = { undo with removed := undo.removed ++ done.map (·.label) } := by
  induction edges generalizing s d undo with
  | nil => exact ends_pure (by simp [hd, hP])
  | cons old rest ih =>
    refine ends_bind (ends_step (LawfulStore.delete old.id) hd hP ?_ ?_)
    · intro _ d₁ s₁ hdelete haccepted
      obtain rfl := Document.eq_without_of_delete (eq_ok_of_map_unit hdelete)
      have hP₁ := haccepted.kept (hkeep.delete old.id)
      refine ends_bind (ends_note ((ih haccepted.document hP₁ _).mono ?_ ?_))
      · rintro _ s' _ ⟨hP', hdoc', rfl⟩
        refine ⟨hP', ?_, by simp⟩
        rw [hdoc', Document.without_without]
        rfl
      · rintro _ s' _ ⟨done, old', rest', cause, rfl, rfl, hrefused, rfl⟩
        rw [Document.without_without] at hrefused
        exact ⟨old :: done, old', rest', cause, rfl, rfl, hrefused, by simp⟩
    · intro cause s₁ hrefused
      exact ⟨[], old, rest, cause, rfl, rfl, by simpa using hrefused, by simp⟩

/-- The stages after both ends are anchored: removing the old edges, adding the new one, labelling
it and writing the document. -/
theorem ends_afterAnchors (hkeep : KeptByEdits P) {s : σ} {p : Relabelling}
    (hs : AnnotationStore.document s = p.anchored) (hP : P s) (hanchorable : p.Anchorable)
    (hfresh : p.cleared.freshId ∉ p.cleared.ids) :
    Ends
      (do
        removeAll p.previous
        let relation ← step "create relation annotation"
          (AnnotationStore.addRelation p.layers.relationLayer p.targetId p.originId)
        note fun u => { u with createdRelation := some relation }
        step "set relation label"
          (AnnotationStore.setFeature relation p.layers.labelFeature p.label)
        step "write document" AnnotationStore.write
        pure relation)
      s { p.account with removed := [], createdRelation := none }
      (fun relation s' _ => relation = p.result.1 ∧ p.Anchorable ∧
        Accepted P AnnotationStore.write () p.result.2 p.result.2 s')
      fun e s' undo => p.StopsAt P e s' undo := by
  refine ends_bind ((ends_removeAll hkeep p.previous hs hP _).mono ?_ ?_)
  case refine_2 =>
    rintro _ s₁ _ ⟨done, old, rest, cause, hprevious, rfl, hrefused, rfl⟩
    exact .delete hanchorable hprevious hrefused
  rintro _ s₁ _ ⟨hP₁, hs₁, rfl⟩
  refine ends_bind (ends_step (LawfulStore.addRelation _ _ _) hs₁ hP₁ ?_ ?_)
  case refine_2 => exact fun cause s₂ hrefused => .add hanchorable hrefused
  intro relation d₂ s₂ hadd hadded
  obtain ⟨rfl, rfl⟩ := Document.eq_insertRelation_of_addRelation hadd
  have hP₂ := hadded.kept (hkeep.addRelation _ _ _)
  refine ends_bind (ends_note (ends_bind
    (ends_step (LawfulStore.setFeature _ _ _) hadded.document hP₂ ?_ ?_)))
  case refine_2 => exact fun cause s₃ hrefused => .label hanchorable hrefused
  intro _ d₃ s₃ hset hlabelled
  have hlabel : d₃ = p.result.2 := by
    have hset := eq_ok_of_map_unit hset
    change Document.setFeature _ p.cleared.freshId _ _ = _ at hset
    rw [show p.anchored.without (p.previous.map (·.id)) = p.cleared from rfl,
      Document.setFeature_insertRelation hfresh] at hset
    injection hset with hset
    exact hset.symm
  have hP₃ := hlabelled.kept (hkeep.setFeature _ _ _)
  refine ends_bind (ends_step LawfulStore.write (hlabelled.document.trans hlabel) hP₃ ?_ ?_)
  · intro _ d₄ s₄ hwrite hwritten
    injection hwrite with hwrite
    obtain rfl : p.result.2 = d₄ := congrArg Prod.snd hwrite
    exact ends_pure ⟨rfl, hanchorable, hwritten⟩
  · exact fun cause s₄ hrefused => .write hanchorable hrefused

/-- A change gets through, or stops at one of its stages, when both ends can be anchored once they
fit and the new edge takes an id that is free. -/
theorem ends_replaceEdge_of_fresh (hkeep : KeptByEdits P) {s : σ} {p : Relabelling}
    (hs : AnnotationStore.document s = p.document) (hP : P s)
    (hanchorable : (p.document.idAt? p.layers.sentenceLayer p.origin = none →
        p.origin.fits p.document.text.length = true) →
      (p.originAnchored.idAt? p.layers.sentenceLayer p.target = none →
        p.target.fits p.originAnchored.text.length = true) → p.Anchorable)
    (hfresh : p.cleared.freshId ∉ p.cleared.ids) :
    Ends (replaceEdge p.layers p.label p.origin p.target p.previous) s {}
      (fun relation s' _ => relation = p.result.1 ∧ p.Anchorable ∧
        Accepted P AnnotationStore.write () p.result.2 p.result.2 s')
      fun e s' undo => p.StopsAt P e s' undo := by
  refine ends_bind ((ends_ensureSpan hkeep p.layers.sentenceLayer p.origin hs hP {}).mono ?_ ?_)
  case refine_2 =>
    rintro _ s₁ _ ⟨cause, rfl, rfl, hnone, hrefused⟩
    exact .origin hnone hrefused
  rintro originId s₁ _ ⟨hP₁, rfl, hs₁, horigin, rfl⟩
  refine ends_bind ((ends_ensureSpan hkeep p.layers.sentenceLayer p.target hs₁ hP₁ _).mono ?_ ?_)
  case refine_2 =>
    rintro _ s₂ _ ⟨cause, rfl, rfl, hnone, hrefused⟩
    exact .target hnone hrefused
  rintro targetId s₂ _ ⟨hP₂, rfl, hs₂, htarget, rfl⟩
  have haccount : { p.account with removed := [], createdRelation := none } =
      (⟨(p.document.missing p.layers.sentenceLayer p.origin).map (·.id) ++
        (p.originAnchored.missing p.layers.sentenceLayer p.target).map (·.id),
        some (p.targetId, p.originId), [], none⟩ : Undo) := by
    rw [account, created, List.map_append]
  have hafter := ends_afterAnchors hkeep hs₂ hP₂ (hanchorable horigin htarget) hfresh
  rw [haccount] at hafter
  exact ends_bind (ends_note hafter)

/-- **A change gets through, or stops at one of its stages.** -/
theorem ends_replaceEdge (hkeep : KeptByEdits P) {s : σ} {p : Relabelling}
    (hs : AnnotationStore.document s = p.document) (hP : P s) (h : p.document.WellFormed) :
    Ends (replaceEdge p.layers p.label p.origin p.target p.previous) s {}
      (fun relation s' _ => relation = p.result.1 ∧ p.Anchorable ∧
        Accepted P AnnotationStore.write () p.result.2 p.result.2 s')
      fun e s' undo => p.StopsAt P e s' undo :=
  ends_replaceEdge_of_fresh hkeep hs hP (anchorable_of_fits h)
    (cleared_wellFormed h).freshId_not_mem

/-! ### The whole change -/

/-- Whether the edge in the other direction says something, the last one of these edges being
asked. -/
def inverseInformative (d : Document) (layers : LayerConfig) (origin target : Span) : Bool :=
  match (d.relationsOn layers.relationLayer layers.labelFeature).reverse.find?
      (·.links origin target) with
  | some r => r.isInformative
  | none => false

omit [LawfulStore σ] in
/-- **What a label does is what its change does**, and the roll-back where the change stops. -/
theorem apply_cases_of_ends (layers : LayerConfig) {segments : SegmentList} (tag : Tag)
    {origin target : Nat} (pairs : PairSet) {s : σ} {place : Target}
    {through : AnnotationId → σ → Undo → Prop} {stopped : EditorError → σ → Undo → Prop}
    (hplace : locate segments origin target = .ok place)
    (hends : let p : Relabelling :=
        ⟨AnnotationStore.document s, layers, tag.name, place.origin, place.target⟩
      Ends (replaceEdge p.layers p.label p.origin p.target p.previous) s {} through stopped) :
    let p : Relabelling :=
      ⟨AnnotationStore.document s, layers, tag.name, place.origin, place.target⟩
    let pairs' := markAfter pairs place.pair tag
      (inverseInformative p.document layers place.origin place.target)
    (∃ relation s' undo, through relation s' undo ∧
      apply layers segments tag origin target pairs s =
        (.ok ⟨relation, place.pair, p.previous.length, pairs'.isCompleted place.pair⟩,
          pairs', s')) ∨
    ∃ e s' undo, stopped e s' undo ∧
      apply layers segments tag origin target pairs s =
        (.error e, pairs, rollBack layers undo s') := by
  intro p pairs'
  let previous := ((AnnotationStore.document s).relationsOn layers.relationLayer
    layers.labelFeature).filter (·.links place.target place.origin)
  rcases hends.cases with ⟨relation, s', undo, hrun, hthrough⟩ | ⟨e, s', undo, hrun, hstopped⟩
  · replace hrun : (replaceEdge layers tag.name place.origin place.target previous).run.run
      (s, {}) = _ := hrun
    refine .inl ⟨relation, s', undo, hthrough, ?_⟩
    rw [apply, hplace]
    dsimp only
    rw [hrun]
    rfl
  · replace hrun : (replaceEdge layers tag.name place.origin place.target previous).run.run
      (s, {}) = _ := hrun
    refine .inr ⟨e, s', undo, hstopped, ?_⟩
    rw [apply, hplace]
    dsimp only
    rw [hrun]

/-- **Labelling an edge**: the two indices are no ends of an edge, or the store did all that was
meant to be done, or it stopped and what had been done was rolled back. -/
theorem apply_cases (hkeep : KeptByEdits P) (layers : LayerConfig) (segments : SegmentList)
    (tag : Tag) (origin target : Nat) (pairs : PairSet) {s : σ} (hP : P s)
    (h : (AnnotationStore.document s).WellFormed) :
    (∃ e, locate segments origin target = .error e ∧
      apply layers segments tag origin target pairs s = (.error e, pairs, s)) ∨
    ∃ place, locate segments origin target = .ok place ∧
      let p : Relabelling :=
        ⟨AnnotationStore.document s, layers, tag.name, place.origin, place.target⟩
      let pairs' := markAfter pairs place.pair tag
        (inverseInformative p.document layers place.origin place.target)
      (∃ s', p.Anchorable ∧ Accepted P AnnotationStore.write () p.result.2 p.result.2 s' ∧
        apply layers segments tag origin target pairs s =
          (.ok ⟨p.result.1, place.pair, p.previous.length, pairs'.isCompleted place.pair⟩,
            pairs', s')) ∨
      ∃ e s' undo, p.StopsAt P e s' undo ∧
        apply layers segments tag origin target pairs s =
          (.error e, pairs, rollBack layers undo s') := by
  cases hlocate : locate segments origin target with
  | error e => exact .inl ⟨e, rfl, by rw [apply, hlocate]⟩
  | ok place =>
    refine .inr ⟨place, rfl, ?_⟩
    intro p pairs'
    rcases apply_cases_of_ends layers tag pairs hlocate
      (ends_replaceEdge (p := p) hkeep rfl hP h) with
      ⟨relation, s', undo, ⟨rfl, hanchorable, hs'⟩, hok⟩ | ⟨e, s', undo, hstops, herror⟩
    · exact .inl ⟨s', hanchorable, hs', hok⟩
    · exact .inr ⟨e, s', undo, hstops, herror⟩

end LabelWriter
end PairAnnotation
