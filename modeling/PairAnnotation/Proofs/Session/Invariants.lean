/-
# What every label keeps

Whatever becomes of a label, it changes its document by four edits only.  It creates
annotations for ends that have none, and edges; it writes into an edge of its own; and
it deletes the edges that were there before, or, when it is rolled back, annotations
that it created itself.  A property of documents that these edits keep
(`LabelWriter.KeptByLabels`) is kept by every label, be it accepted or not
(`LabelWriter.kept_apply`), and so holds in every state of a session
(`Session.Reached.kept`).

Nothing else is asked of the document: ids may stand for several annotations, and the
label may be written into the end of an edge.
-/

import PairAnnotation.Proofs.Session.PairStates

namespace PairAnnotation

namespace LabelWriter

open Attempt (Ends ends_bind ends_step ends_note ends_document ends_pure)

/-- **A property of documents that the edits of a label keep.**  Labels are put on the spans that
satisfy `segment`; ids that they give out satisfy `own`, and those of the edges that they replace
satisfy `old`. -/
structure KeptByLabels (layers : LayerConfig) (segment : Span → Prop)
    (own old : AnnotationId → Prop) (P : Document → Prop) : Prop where
  insertSpan {d : Document} {span : Span} : P d → segment span →
    d.idAt? layers.sentenceLayer span = none →
    own d.freshId ∧ P (d.insertSpan layers.sentenceLayer span FeatureMap.empty).2
  insertRelation {d : Document} (dependent governor : AnnotationId) : P d →
    own d.freshId ∧ P (d.insertRelation layers.relationLayer dependent governor "" none).2
  setFeature {d d' : Document} {id : AnnotationId} {value : String} : P d → own id →
    d.setFeature id layers.labelFeature value = .ok d' → P d'
  without {d : Document} {id : AnnotationId} : P d → own id ∨ old id → P (d.without [id])
  old_of_mem {d : Document} {e : RelationAnnotation} : P d →
    e ∈ d.relationsOn layers.relationLayer layers.labelFeature → old e.id

variable {σ : Type} [AnnotationStore σ]

/-- The property holds on the way, and the account names annotations that the label created. -/
structure OnTheWay (own : AnnotationId → Prop) (P : Document → Prop) (s : σ) (undo : Undo) :
    Prop where
  document : P (AnnotationStore.document s)
  createdSpans : ∀ id ∈ undo.createdSpans, own id
  createdRelation : ∀ id ∈ undo.createdRelation, own id

/-- **An attempt stays on the way**, whether it gets through, with an answer that satisfies `Q`, or
stops. -/
def StaysOnTheWay {α : Type} (own : AnnotationId → Prop) (P : Document → Prop) (m : Attempt σ α)
    (s : σ) (undo : Undo) (Q : α → Prop) : Prop :=
  Ends m s undo (fun a s' undo' => Q a ∧ OnTheWay own P s' undo')
    fun _ s' undo' => OnTheWay own P s' undo'

variable {layers : LayerConfig} {segment : Span → Prop} {own old : AnnotationId → Prop}
variable {P : Document → Prop} {s : σ} {undo : Undo}

section

variable {α β : Type} {Q : α → Prop}

/-- An attempt that only answers stays on the way, if its answer is one that is allowed. -/
theorem staysOnTheWay_pure {a : α} (ha : Q a) (h : OnTheWay own P s undo) :
    StaysOnTheWay own P (pure a) s undo Q :=
  ends_pure ⟨ha, h⟩

/-- **Two attempts in a row stay on the way** if the first one does, and so does the second one from
wherever the first one gets to. -/
theorem StaysOnTheWay.bind {m : Attempt σ α} {f : α → Attempt σ β} {R : β → Prop}
    (h : StaysOnTheWay own P m s undo Q)
    (hnext : ∀ a s' undo', Q a → OnTheWay own P s' undo' → StaysOnTheWay own P (f a) s' undo' R) :
    StaysOnTheWay own P (m >>= f) s undo R :=
  ends_bind (h.mono (fun a s' undo' h => hnext a s' undo' h.1 h.2) fun _ _ _ h => h)

/-- What is noted in between names annotations that the label created. -/
theorem staysOnTheWay_note {note : Undo → Undo} {f : Unit → Attempt σ α}
    (h : StaysOnTheWay own P (f ()) s (note undo) Q) :
    StaysOnTheWay own P (Attempt.note note >>= f) s undo Q :=
  ends_bind (ends_note h)

/-- A step that keeps the property, with what is known of its answer. -/
theorem staysOnTheWay_step {name : String} {e : Edit σ α}
    {f : Document → Except StoreError (α × Document)} (hf : FollowsDocument e f)
    (h : OnTheWay own P s undo)
    (hstep : ∀ a d', f (AnnotationStore.document s) = .ok (a, d') → Q a ∧ P d') :
    StaysOnTheWay own P (Attempt.step name e) s undo Q := by
  refine ends_step (P := fun _ => True) hf rfl trivial ?_ ?_
  · intro a d' s' ha haccepted
    obtain ⟨hanswer, hd'⟩ := hstep a d' ha
    exact ⟨hanswer, haccepted.document.symm ▸ hd', h.createdSpans, h.createdRelation⟩
  · intro cause s' hrefused
    exact ⟨hrefused.document.symm ▸ h.document, h.createdSpans, h.createdRelation⟩

end

variable [LawfulStore σ]

/-- Anchoring the span of a segment stays on the way: the annotation is found, or it is created and
entered in the account. -/
theorem staysOnTheWay_ensureSpan (hkept : KeptByLabels layers segment own old P) {span : Span}
    (hspan : segment span) (h : OnTheWay own P s undo) :
    StaysOnTheWay own P (ensureSpan layers.sentenceLayer span) s undo fun _ => True := by
  have hfind := (AnnotationStore.document s).find?_spansCoveredBy layers.sentenceLayer span
  refine ends_bind (ends_document ?_)
  cases hexisting : ((AnnotationStore.document s).spansCoveredBy layers.sentenceLayer span).find?
      (·.span == span) with
  | some existing => exact staysOnTheWay_pure trivial h
  | none =>
    rw [hexisting] at hfind
    refine (staysOnTheWay_step (Q := own) (LawfulStore.addSpan _ span) h ?_).bind ?_
    · intro id d' hadd
      obtain ⟨-, hinsert⟩ := Document.eq_insertSpan_of_addSpan hadd
      obtain ⟨hown, hinserted⟩ := hkept.insertSpan h.document hspan hfind.symm
      rw [hinsert] at hinserted
      have hid : (AnnotationStore.document s).freshId = id := congrArg Prod.fst hinsert
      exact ⟨hid ▸ hown, hinserted⟩
    · intro id s' undo' hid h'
      refine staysOnTheWay_note (staysOnTheWay_pure trivial ⟨h'.document, fun id' hid' => ?_,
        h'.createdRelation⟩)
      rcases List.mem_append.1 hid' with hid' | hid'
      · exact h'.createdSpans id' hid'
      · exact List.mem_singleton.1 hid' ▸ hid

/-- Taking edges away stays on the way, by induction over the edges, since each of them is one that
may be replaced. -/
theorem staysOnTheWay_removeAll (hkept : KeptByLabels layers segment own old P)
    {edges : List RelationAnnotation} (hedges : ∀ e ∈ edges, old e.id)
    (h : OnTheWay own P s undo) :
    StaysOnTheWay own P (removeAll edges) s undo fun _ => True := by
  induction edges generalizing s undo with
  | nil => exact staysOnTheWay_pure trivial h
  | cons e rest ih =>
    refine (staysOnTheWay_step (Q := fun _ => True) (LawfulStore.delete e.id) h ?_).bind ?_
    · intro _ d' hdelete
      rw [Document.eq_without_of_delete (eq_ok_of_map_unit hdelete)]
      exact ⟨trivial, hkept.without h.document (.inr (hedges e List.mem_cons_self))⟩
    · intro _ s' undo' _ h'
      exact staysOnTheWay_note (ih (fun e he => hedges e (List.mem_cons_of_mem _ he))
        ⟨h'.document, h'.createdSpans, h'.createdRelation⟩)

/-- **A label keeps the property until it is through, or until it stops.** -/
theorem staysOnTheWay_replaceEdge (hkept : KeptByLabels layers segment own old P) (label : String)
    {origin target : Span} (horigin : segment origin) (htarget : segment target)
    {edges : List RelationAnnotation} (hedges : ∀ e ∈ edges, old e.id)
    (h : OnTheWay own P s undo) :
    StaysOnTheWay own P (replaceEdge layers label origin target edges) s undo fun _ => True := by
  refine (staysOnTheWay_ensureSpan hkept horigin h).bind fun originId s₁ undo₁ _ h₁ => ?_
  refine (staysOnTheWay_ensureSpan hkept htarget h₁).bind fun targetId s₂ undo₂ _ h₂ => ?_
  have h₂ : OnTheWay own P s₂ { undo₂ with endpoints := some (targetId, originId) } :=
    ⟨h₂.document, h₂.createdSpans, h₂.createdRelation⟩
  refine staysOnTheWay_note
    ((staysOnTheWay_removeAll hkept hedges h₂).bind fun _ s₃ undo₃ _ h₃ => ?_)
  refine (staysOnTheWay_step (Q := own) (LawfulStore.addRelation _ targetId originId) h₃ ?_).bind
    fun relation s₄ undo₄ hrelation h₄ => ?_
  · intro id d' hadd
    obtain ⟨rfl, rfl⟩ := Document.eq_insertRelation_of_addRelation hadd
    exact hkept.insertRelation targetId originId h₃.document
  have h₄ : OnTheWay own P s₄ { undo₄ with createdRelation := some relation } :=
    ⟨h₄.document, h₄.createdSpans, fun id hid => Option.mem_some_iff.1 hid ▸ hrelation⟩
  refine staysOnTheWay_note ((staysOnTheWay_step (Q := fun _ => True)
    (LawfulStore.setFeature relation layers.labelFeature label) h₄ ?_).bind
    fun _ s₅ undo₅ _ h₅ => ?_)
  · intro _ d' hset
    exact ⟨trivial, hkept.setFeature h₄.document hrelation (eq_ok_of_map_unit hset)⟩
  refine (staysOnTheWay_step (Q := fun _ => True) LawfulStore.write h₅ ?_).bind
    fun _ s₆ undo₆ _ h₆ => staysOnTheWay_pure trivial h₆
  intro _ d' hwrite
  obtain rfl : AnnotationStore.document s₅ = d' := congrArg Prod.snd (Except.ok.inj hwrite)
  exact ⟨trivial, h₅.document⟩

/-! ### Rolling back -/

omit [LawfulStore σ] in
/-- A change that is tried keeps a property of documents, if the change of the document does; a
refused one changes nothing. -/
theorem kept_tryEdit {α : Type} {e : Edit σ α} {f : Document → Except StoreError (α × Document)}
    (hf : FollowsDocument e f) (h : P (AnnotationStore.document s))
    (hstep : ∀ a d', f (AnnotationStore.document s) = .ok (a, d') → P d') :
    P (AnnotationStore.document (tryEdit e s)) := by
  unfold tryEdit
  rcases happly : e.apply s with ⟨cause | a, s'⟩
  · exact ((hf s s').2 cause happly).symm ▸ h
  · exact hstep a _ ((hf s s').1 a happly)

/-- A deletion that is tried keeps the property, if the id is one that the label gave out. -/
theorem kept_tryEdit_delete (hkept : KeptByLabels layers segment own old P) {id : AnnotationId}
    (hid : own id) (h : P (AnnotationStore.document s)) :
    P (AnnotationStore.document (tryEdit (AnnotationStore.delete id) s)) := by
  refine kept_tryEdit (LawfulStore.delete id) h fun _ d' hdelete => ?_
  rw [Document.eq_without_of_delete (eq_ok_of_map_unit hdelete)]
  exact hkept.without h (.inl hid)

/-- An edge that is put back keeps the property, as far as it gets. -/
theorem kept_tryEdit_restore (hkept : KeptByLabels layers segment own old P)
    (dependent governor : AnnotationId) (label : Option String)
    (h : P (AnnotationStore.document s)) :
    P (AnnotationStore.document (tryEdit (restore layers dependent governor label) s)) := by
  have hfollows := LawfulStore.addRelation (σ := σ) layers.relationLayer dependent governor
  rcases hadd : Edit.apply (AnnotationStore.addRelation layers.relationLayer dependent governor) s
    with ⟨cause | id, s'⟩
  · have hsame := (hfollows s s').2 cause hadd
    rw [tryEdit, restore, Edit.apply_bind_of_error hadd]
    exact hsame.symm ▸ h
  · obtain ⟨hid, hd'⟩ :=
      Document.eq_insertRelation_of_addRelation ((hfollows s s').1 id hadd)
    obtain ⟨hown, hinserted⟩ := hkept.insertRelation dependent governor h
    rw [← hd'] at hinserted
    rw [← hid] at hown
    rw [tryEdit, restore, Edit.apply_bind_of_ok hadd]
    cases label with
    | none => exact hinserted
    | some label =>
      exact kept_tryEdit (LawfulStore.setFeature id layers.labelFeature label) hinserted
        fun _ d' hset => hkept.setFeature hinserted hown (eq_ok_of_map_unit hset)

omit [LawfulStore σ] in
/-- What each step of a fold keeps is kept by the fold. -/
theorem kept_foldl {α : Type} {step : σ → α → σ} {items : List α}
    (hstep : ∀ a ∈ items, ∀ s : σ, P (AnnotationStore.document s) →
      P (AnnotationStore.document (step s a)))
    (h : P (AnnotationStore.document s)) :
    P (AnnotationStore.document (items.foldl step s)) := by
  induction items generalizing s with
  | nil => exact h
  | cons a rest ih =>
    exact ih (fun a ha => hstep a (List.mem_cons_of_mem _ ha))
      (hstep a List.mem_cons_self s h)

/-- **A roll-back keeps the property**, however many of its changes are refused. -/
theorem kept_rollBack (hkept : KeptByLabels layers segment own old P)
    (h : OnTheWay own P s undo) : P (AnnotationStore.document (rollBack layers undo s)) := by
  have hdelete : ∀ id, own id → ∀ s : σ, P (AnnotationStore.document s) →
      P (AnnotationStore.document (tryEdit (AnnotationStore.delete id) s)) :=
    fun id hid s h => kept_tryEdit_delete hkept hid h
  obtain ⟨createdSpans, endpoints, removed, createdRelation⟩ := undo
  have hrestored : ∀ (dependent governor : AnnotationId) (s : σ), P (AnnotationStore.document s) →
      P (AnnotationStore.document
        (removed.foldl (fun s label => tryEdit (restore layers dependent governor label) s) s)) :=
    fun dependent governor s h =>
      kept_foldl (fun label _ s h => kept_tryEdit_restore hkept dependent governor label h) h
  have hspans : ∀ s : σ, P (AnnotationStore.document s) → P (AnnotationStore.document
      (if removed.isEmpty then
        createdSpans.reverse.foldl (fun s id => tryEdit (AnnotationStore.delete id) s) s
      else s)) := by
    intro s hs
    split
    · exact kept_foldl (fun id hid => hdelete id (h.createdSpans id (List.mem_reverse.1 hid))) hs
    · exact hs
  -- The new edge is taken away, the edges before it are put back, then created spans are deleted.
  cases createdRelation with
  | none =>
    cases endpoints with
    | none => exact hspans s h.document
    | some ends => exact hspans _ (hrestored ends.1 ends.2 s h.document)
  | some relation =>
    have hwithdrawn := hdelete relation (h.createdRelation relation rfl) s h.document
    cases endpoints with
    | none => exact hspans _ hwithdrawn
    | some ends => exact hspans _ (hrestored ends.1 ends.2 _ hwithdrawn)

/-- **A label keeps the property**, whether it is accepted or not. -/
theorem kept_apply {segments : SegmentList}
    (hkept : KeptByLabels layers (fun span => ∃ i, segments.spanAt? i = some span) own old P)
    (tag : Tag) (origin target : Nat) (pairs : PairSet) (h : P (AnnotationStore.document s)) :
    P (AnnotationStore.document (apply layers segments tag origin target pairs s).2.2) := by
  cases hlocate : locate segments origin target with
  | error e =>
    rw [apply, hlocate]
    exact h
  | ok place =>
    obtain ⟨horigin, htarget, -⟩ := locate_eq_ok.1 hlocate
    have hedges : ∀ e ∈ ((AnnotationStore.document s).relationsOn layers.relationLayer
        layers.labelFeature).filter (·.links place.target place.origin), old e.id :=
      fun e he => hkept.old_of_mem h (List.mem_filter.1 he).1
    have hbegin : OnTheWay own P s {} := ⟨h, by simp, by simp⟩
    have hends := staysOnTheWay_replaceEdge hkept tag.name ⟨origin, horigin⟩ ⟨target, htarget⟩
      hedges hbegin
    rcases apply_cases_of_ends layers tag pairs hlocate hends with
      ⟨relation, s', undo, ⟨-, h'⟩, hok⟩ | ⟨e, s', undo, h', herror⟩
    · rw [hok]
      exact h'.document
    · rw [herror]
      exact kept_rollBack hkept h'

end LabelWriter

namespace Session

open LabelWriter (KeptByLabels)

variable {own old : AnnotationId → Prop} {P : Document → Prop}

/-- **An action keeps the property**: only labels change the document, and those are put on spans of
segments. -/
theorem kept_perform {σ : Type} [AnnotationStore σ] [LawfulStore σ] {s : Session σ}
    (hkept : KeptByLabels s.config.layers (fun span => ∃ i, s.segments.spanAt? i = some span) own
      old P)
    (a : Action) (h : P (AnnotationStore.document s.store)) :
    P (AnnotationStore.document (s.perform a).store) := by
  rcases s.store_perform a with hstore | ⟨direction, tag, hstore⟩
  · rw [hstore]
    exact h
  · rw [hstore]
    exact LabelWriter.kept_apply hkept tag _ _ s.pairs h

/-- **A property that the edits of a label keep holds in every state of a session**, if it holds at
the beginning. -/
theorem Reached.kept {s₀ s : Session FileStore}
    (hkept : KeptByLabels s₀.config.layers (fun span => ∃ i, s₀.segments.spanAt? i = some span) own
      old P)
    (h₀ : P s₀.store.document) (h : s₀.Reached s) : P s.store.document := by
  induction h with
  | start => exact h₀
  | act a hreached ih =>
    have hkeeps := hreached.keeps
    rw [← hkeeps.config, ← hkeeps.segments] at hkept
    exact kept_perform hkept a ih
  | elsewhere path disk _ ih => exact ih

end Session
end PairAnnotation
