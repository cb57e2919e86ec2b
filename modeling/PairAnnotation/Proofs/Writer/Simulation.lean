/-
# Stores that answer alike

Labels know a store by its document and by what it answers to five changes.  So two
stores that have the same document and answer every change alike, as long as they are
related (`Simulates`), cannot be told apart by a label, be it accepted or rolled back:
it comes to the same end on both, and they are related afterwards
(`LabelWriter.rel_apply`).

The relation may say more of the one store than the other one knows, such as what was
done to it so far.  What is simulated is then an invariant of labels.
-/

import PairAnnotation.Proofs.Writer.RollBack

namespace PairAnnotation

variable {σ τ α β γ : Type} {R : τ → σ → Prop} {t : τ} {s : σ}

/-! ### Changes -/

namespace Edit

/-- **Two changes that answer alike**, and hand on related stores. -/
def Matches (R : τ → σ → Prop) (e : Edit τ α) (e' : Edit σ α) : Prop :=
  ∀ t s, R t s → ∃ outcome t' s',
    e.apply t = (outcome, t') ∧ e'.apply s = (outcome, s') ∧ R t' s'

theorem matches_pure (a : α) : Matches R (pure a) (pure a) := fun t s h =>
  ⟨.ok a, t, s, rfl, rfl, h⟩

/-- Two changes in a row answer alike if each of them does, whatever the first one answers. -/
theorem Matches.bind {e : Edit τ α} {e' : Edit σ α} {f : α → Edit τ β} {f' : α → Edit σ β}
    (h : Matches R e e') (hf : ∀ a, Matches R (f a) (f' a)) : Matches R (e >>= f) (e' >>= f') := by
  intro t s hR
  obtain ⟨outcome, t', s', ht, hs, hR'⟩ := h t s hR
  cases outcome with
  | error cause => exact ⟨_, t', s', apply_bind_of_error ht, apply_bind_of_error hs, hR'⟩
  | ok a =>
    obtain ⟨outcome, t'', s'', ht', hs', hR''⟩ := hf a t' s' hR'
    exact ⟨outcome, t'', s'', (apply_bind_of_ok ht).trans ht',
      (apply_bind_of_ok hs).trans hs', hR''⟩

/-- A change that is tried hands on related stores, be it accepted or not. -/
theorem Matches.tryEdit {e : Edit τ α} {e' : Edit σ α} (h : Matches R e e') (hR : R t s) :
    R (LabelWriter.tryEdit e t) (LabelWriter.tryEdit e' s) := by
  obtain ⟨outcome, t', s', ht, hs, hR'⟩ := h t s hR
  rwa [LabelWriter.tryEdit, LabelWriter.tryEdit, ht, hs]

/-- Changes that are tried one after the other hand on related stores, by induction over their
list. -/
theorem Matches.foldl_tryEdit {e : γ → Edit τ α} {e' : γ → Edit σ α}
    (h : ∀ c, Matches R (e c) (e' c)) (l : List γ) (hR : R t s) :
    R (l.foldl (fun t c => LabelWriter.tryEdit (e c) t) t)
      (l.foldl (fun s c => LabelWriter.tryEdit (e' c) s) s) := by
  induction l generalizing t s with
  | nil => exact hR
  | cons c rest ih => exact ih ((h c).tryEdit hR)

end Edit

/-- **Stores that cannot be told apart**: related ones have the same document, and all changes
answer alike. -/
structure Simulates [AnnotationStore τ] [AnnotationStore σ] (R : τ → σ → Prop) : Prop where
  document {t : τ} {s : σ} : R t s → AnnotationStore.document t = AnnotationStore.document s
  addSpan (layer : String) (span : Span) :
    Edit.Matches R (AnnotationStore.addSpan layer span) (AnnotationStore.addSpan layer span)
  addRelation (layer : String) (dependent governor : AnnotationId) :
    Edit.Matches R (AnnotationStore.addRelation layer dependent governor)
      (AnnotationStore.addRelation layer dependent governor)
  setFeature (id : AnnotationId) (feature value : String) :
    Edit.Matches R (AnnotationStore.setFeature id feature value)
      (AnnotationStore.setFeature id feature value)
  delete (id : AnnotationId) :
    Edit.Matches R (AnnotationStore.delete id) (AnnotationStore.delete id)
  write : Edit.Matches R AnnotationStore.write AnnotationStore.write

/-! ### Attempts -/

namespace Attempt

/-- Two attempts that come to the same end with the same account, and hand on related stores. -/
def Matches (R : τ → σ → Prop) (m : Attempt τ α) (m' : Attempt σ α) : Prop :=
  ∀ t s undo, R t s → ∃ outcome t' s' undo',
    m.run.run (t, undo) = (outcome, t', undo') ∧ m'.run.run (s, undo) = (outcome, s', undo') ∧
      R t' s'

/-- Attempts that only answer come to the same end, and leave the stores and the accounts as they
are. -/
theorem matches_pure (a : α) : Matches R (pure a) (pure a) := fun t s undo h =>
  ⟨.ok a, t, s, undo, rfl, rfl, h⟩

theorem matches_note (f : Undo → Undo) : Matches R (note f) (note f) := fun t s undo h =>
  ⟨.ok (), t, s, f undo, rfl, rfl, h⟩

/-- Two attempts in a row come to the same end if each of them does. -/
theorem Matches.bind {m : Attempt τ α} {m' : Attempt σ α} {f : α → Attempt τ β}
    {f' : α → Attempt σ β} (h : Matches R m m') (hf : ∀ a, Matches R (f a) (f' a)) :
    Matches R (m >>= f) (m' >>= f') := by
  intro t s undo hR
  obtain ⟨outcome, t', s', undo', ht, hs, hR'⟩ := h t s undo hR
  cases outcome with
  | error e => exact ⟨_, t', s', undo', run_bind_of_error ht, run_bind_of_error hs, hR'⟩
  | ok a =>
    obtain ⟨outcome, t'', s'', undo'', ht', hs', hR''⟩ := hf a t' s' undo' hR'
    exact ⟨outcome, t'', s'', undo'', (run_bind_of_ok ht).trans ht', (run_bind_of_ok hs).trans hs',
      hR''⟩

/-- A step comes to the same end on stores that answer its change alike. -/
theorem matches_step (name : String) {e : Edit τ α} {e' : Edit σ α} (h : Edit.Matches R e e') :
    Matches R (step name e) (step name e') := by
  intro t s undo hR
  obtain ⟨outcome, t', s', ht, hs, hR'⟩ := h t s hR
  cases outcome with
  | error cause => exact ⟨_, t', s', undo, run_step_of_error ht, run_step_of_error hs, hR'⟩
  | ok a => exact ⟨_, t', s', undo, run_step_of_ok ht, run_step_of_ok hs, hR'⟩

end Attempt

/-! ### Labels -/

namespace LabelWriter

open Attempt (matches_pure matches_note matches_step)

variable [AnnotationStore τ] [AnnotationStore σ]

/-- Looking at the document shows the same one on both stores. -/
theorem matches_document (h : Simulates R) :
    Attempt.Matches R Attempt.document Attempt.document := fun t s undo hR =>
  ⟨.ok (AnnotationStore.document s), t, s, undo, by rw [← h.document hR]; rfl, rfl, hR⟩

/-- A span is found or created on both stores, with the same id. -/
theorem matches_ensureSpan (h : Simulates R) (layer : String) (span : Span) :
    Attempt.Matches R (ensureSpan layer span) (ensureSpan layer span) := by
  refine (matches_document h).bind fun d => ?_
  cases (d.spansCoveredBy layer span).find? (·.span == span) with
  | some existing => exact matches_pure _
  | none =>
    exact (matches_step _ (h.addSpan layer span)).bind fun id =>
      (matches_note _).bind fun _ => matches_pure id

/-- Edges are taken away from both stores, up to the same one if a deletion is refused. -/
theorem matches_removeAll (h : Simulates R) (edges : List RelationAnnotation) :
    Attempt.Matches R (removeAll edges) (removeAll edges) := by
  induction edges with
  | nil => exact matches_pure ()
  | cons e rest ih =>
    exact (matches_step _ (h.delete e.id)).bind fun _ => (matches_note _).bind fun _ => ih

/-- **An edge is replaced on both stores with the same account**, up to the step at which both stop,
if there is one. -/
theorem matches_replaceEdge (h : Simulates R) (layers : LayerConfig) (label : String)
    (origin target : Span) (previous : List RelationAnnotation) :
    Attempt.Matches R (replaceEdge layers label origin target previous)
      (replaceEdge layers label origin target previous) := by
  refine (matches_ensureSpan h _ origin).bind fun originId => ?_
  refine (matches_ensureSpan h _ target).bind fun targetId => ?_
  refine (matches_note _).bind fun _ => (matches_removeAll h previous).bind fun _ => ?_
  refine (matches_step _ (h.addRelation _ targetId originId)).bind fun relation => ?_
  refine (matches_note _).bind fun _ => ?_
  refine (matches_step _ (h.setFeature relation _ label)).bind fun _ => ?_
  exact (matches_step _ h.write).bind fun _ => matches_pure relation

/-- An edge is put back on both stores or on none. -/
theorem matches_restore (h : Simulates R) (layers : LayerConfig)
    (dependent governor : AnnotationId) (label : Option String) :
    Edit.Matches R (restore layers dependent governor label)
      (restore layers dependent governor label) := by
  refine (h.addRelation _ dependent governor).bind fun id => ?_
  cases label with
  | none => exact Edit.matches_pure ()
  | some value => exact h.setFeature id _ value

/-- **A roll-back hands on related stores**, whichever of its changes are refused on the way. -/
theorem rel_rollBack (h : Simulates R) (layers : LayerConfig) (undo : Undo) (hR : R t s) :
    R (rollBack layers undo t) (rollBack layers undo s) := by
  obtain ⟨createdSpans, endpoints, removed, createdRelation⟩ := undo
  -- The stages of a roll-back, from the last one to the first: each hands on to the one above it.
  have hspans : ∀ {t s}, R t s →
      R (rollBack layers ⟨createdSpans, none, removed, none⟩ t)
        (rollBack layers ⟨createdSpans, none, removed, none⟩ s) := by
    intro t s hR
    simp only [rollBack]
    split
    · exact Edit.Matches.foldl_tryEdit h.delete createdSpans.reverse hR
    · exact hR
  have hedges : ∀ {t s}, R t s →
      R (rollBack layers ⟨createdSpans, endpoints, removed, none⟩ t)
        (rollBack layers ⟨createdSpans, endpoints, removed, none⟩ s) := by
    intro t s hR
    cases endpoints with
    | none => exact hspans hR
    | some ends =>
      exact hspans (Edit.Matches.foldl_tryEdit (matches_restore h layers ends.1 ends.2) removed hR)
  cases createdRelation with
  | none => exact hedges hR
  | some relation => exact hedges ((h.delete relation).tryEdit hR)

/-- **Labels cannot tell stores apart**: the answer and the completion of pairs are the same on
both, and the stores are related afterwards. -/
theorem rel_apply (h : Simulates R) (layers : LayerConfig) (segments : SegmentList) (tag : Tag)
    (origin target : Nat) (pairs : PairSet) (hR : R t s) :
    ∃ answer pairs' t' s', apply layers segments tag origin target pairs t = (answer, pairs', t') ∧
      apply layers segments tag origin target pairs s = (answer, pairs', s') ∧ R t' s' := by
  simp only [apply, h.document hR]
  cases locate segments origin target with
  | error e => exact ⟨_, _, t, s, rfl, rfl, hR⟩
  | ok place =>
    obtain ⟨outcome, t', s', undo', ht, hs, hR'⟩ := matches_replaceEdge h layers tag.name
      place.origin place.target (((AnnotationStore.document s).relationsOn layers.relationLayer
        layers.labelFeature).filter (·.links place.target place.origin)) t s {} hR
    simp only [ht, hs]
    cases outcome with
    | error e => exact ⟨_, _, _, _, rfl, rfl, rel_rollBack h layers undo' hR'⟩
    | ok relation => exact ⟨_, _, t', s', rfl, rfl, hR'⟩

end LabelWriter
end PairAnnotation
