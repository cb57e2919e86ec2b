/-
# What a roll-back leaves

A document bound to a file refuses nothing of a roll-back, so what is left after one
can be said exactly (`rollBack_inFile`).  When no edge had been taken away the document
is the one before the change, up to ids that were passed over (`Document.SameContent`).
Otherwise the edges that were taken away come back as new ones, which keep the label
and lose everything else, and the annotations created for the ends stay
(`Relabelling.PutBack`).
-/

import PairAnnotation.Proofs.Writer.Files

namespace PairAnnotation

/-- An answer is handed on to the edit behind it, which goes on from the store that came with it. -/
theorem Edit.apply_bind_of_ok {σ α β : Type} {e : Edit σ α} {f : α → Edit σ β} {s s' : σ} {a : α}
    (h : e.apply s = (.ok a, s')) : Edit.apply (e >>= f) s = (f a).apply s' := by
  unfold Edit.apply at h ⊢
  rw [ExceptT.run_bind, StateT.run_bind, h]
  rfl

/-- An error is handed on as it is, and the edit behind it is not made. -/
theorem Edit.apply_bind_of_error {σ α β : Type} {e : Edit σ α} {f : α → Edit σ β} {s s' : σ}
    {cause : StoreError} (h : e.apply s = (.error cause, s')) :
    Edit.apply (e >>= f) s = (.error cause, s') := by
  unfold Edit.apply at h ⊢
  rw [ExceptT.run_bind, StateT.run_bind, h]
  rfl

namespace FileStore

/-- A change that the document accepts is accepted by its file, which holds the changed document. -/
theorem apply_editing_of_ok {α : Type} {f : Document → Except StoreError (α × Document)}
    {s : FileStore} {a : α} {d : Document} (h : f s.document = .ok (a, d)) :
    (editing f).apply s = (.ok a, { s with document := d }) := by
  rw [editing, Edit.apply_of, h]

end FileStore

namespace LabelWriter

variable {s : FileStore} {layers : LayerConfig}

/-- A deletion of what is there takes it away, be it a span or a relation. -/
theorem tryEdit_delete {id : AnnotationId} (h : id ∈ s.document.ids) :
    tryEdit (AnnotationStore.delete id) s = { s with document := s.document.without [id] } := by
  have hdelete : ((s.document.delete id).map fun d => ((), d)) =
      .ok ((), s.document.without [id]) := by
    rw [Document.delete_of_mem h]
    rfl
  exact congrArg Prod.snd (FileStore.apply_editing_of_ok hdelete)

/-- **Annotations that are there can be deleted one after the other.** -/
theorem foldl_tryEdit_delete {ids : List AnnotationId} (hnodup : ids.Nodup)
    (h : ∀ id ∈ ids, id ∈ s.document.ids) :
    ids.foldl (fun s id => tryEdit (AnnotationStore.delete id) s) s =
      { s with document := s.document.without ids } := by
  induction ids generalizing s with
  | nil => rw [Document.without_nil, List.foldl_nil]
  | cons id rest ih =>
    obtain ⟨hid, hnodup⟩ := List.nodup_cons.1 hnodup
    rw [List.foldl_cons, tryEdit_delete (h id List.mem_cons_self), ih hnodup fun id' hid' => ?_]
    · rw [Document.without_without]
      rfl
    · refine Document.mem_ids_without (h id' (List.mem_cons_of_mem _ hid')) fun hmem => hid ?_
      rwa [← List.mem_singleton.1 hmem]

variable {dependent governor : AnnotationId}

/-- **An edge is put back between ends that are there**, with the fresh id and with the label that
it had. -/
theorem tryEdit_restore (hfresh : s.document.freshId ∉ s.document.ids)
    (hd : s.document.hasSpan dependent = true) (hg : s.document.hasSpan governor = true)
    (label : Option String) :
    tryEdit (restore layers dependent governor label) s =
      { s with
        document := (s.document.insertRelation layers.relationLayer dependent governor
          layers.labelFeature label).2 } := by
  have hadd : Edit.apply (AnnotationStore.addRelation layers.relationLayer dependent governor) s =
      (.ok s.document.freshId,
        { s with document :=
          (s.document.insertRelation layers.relationLayer dependent governor "" none).2 }) :=
    FileStore.apply_editing_of_ok (Document.addRelation_of_hasSpan _ hd hg)
  rw [tryEdit, restore, Edit.apply_bind_of_ok hadd]
  cases label with
  | none => rfl
  | some value =>
    have hset := Document.setFeature_insertRelation hfresh layers.relationLayer dependent governor
      layers.labelFeature value
    refine congrArg Prod.snd (FileStore.apply_editing_of_ok (a := ()) ?_)
    rw [hset]
    rfl

/-- **Edges can be put back one after the other**, between two annotations that are there. -/
theorem foldl_tryEdit_restore (h : s.document.WellFormed)
    (hdependent : layers.labelFeature ≠ RelationRecord.dependentFeature)
    (hgovernor : layers.labelFeature ≠ RelationRecord.governorFeature)
    (hd : s.document.hasSpan dependent = true) (hg : s.document.hasSpan governor = true)
    (labels : List (Option String)) :
    labels.foldl (fun s label => tryEdit (restore layers dependent governor label) s) s =
      { s with
        document := s.document.relink layers.relationLayer layers.labelFeature dependent governor
          labels } := by
  induction labels generalizing s with
  | nil => rfl
  | cons label rest ih =>
    rw [List.foldl_cons, tryEdit_restore h.freshId_not_mem hd hg]
    exact ih (h.insertRelation hdependent hgovernor (Document.lt_nextId_of_hasSpan h hd)
      (Document.lt_nextId_of_hasSpan h hg)) hd hg

end LabelWriter

/-! ### The whole roll-back -/

namespace Relabelling

variable {p : Relabelling}

/-- **What is left when edges had been taken away**: new edges with the same labels stand at the
end, and the annotations created for their ends stay. -/
structure PutBack (p : Relabelling) (d' : Document) (new : List RelationRecord) : Prop where
  frame : p.document.SameFrame d'
  spans : d'.spans = p.cleared.spans
  relations : d'.relations = p.cleared.relations ++ new
  new : List.Forall₂ (Document.IsRelinked p.layers.relationLayer p.layers.labelFeature p.targetId
    p.originId) new (p.previous.map (·.label))
  nextId_le : p.document.nextId ≤ d'.nextId
  wellFormed : d'.WellFormed

/-- The document after the new edge was taken away again. -/
def withdrawn (p : Relabelling) : Document :=
  { p.cleared with nextId := p.cleared.freshId.val + 1 }

/-- The document after the labels that were taken away were put back. -/
def restored (p : Relabelling) : Document :=
  p.withdrawn.relink p.layers.relationLayer p.layers.labelFeature p.targetId p.originId
    (p.previous.map (·.label))

/-- The next id is no smaller after a new edge was taken away, since ids are not given out again. -/
theorem nextId_le_withdrawn : p.anchored.nextId ≤ p.withdrawn.nextId :=
  Nat.le_succ_of_le p.cleared.nextId_le_freshId

/-- The document is well formed after a new edge was taken away. -/
theorem withdrawn_wellFormed (h : p.document.WellFormed) : p.withdrawn.WellFormed :=
  (cleared_wellFormed h).raise nextId_le_withdrawn

/-- What is created has ids of its own, so each of the created spans is deleted once. -/
theorem nodup_created_ids (h : p.document.WellFormed) : (p.created.map (·.id)).Nodup := by
  have hnodup := (List.nodup_append.1 (anchored_wellFormed h).nodup).1
  rw [(anchored_growsBy h).spans, List.map_append] at hnodup
  exact (List.nodup_append.1 hnodup).2.1

/-- **Nothing is put back when nothing was taken away**: with the created spans deleted, only the
next id may be greater than before. -/
theorem withdrawn_without_created (h : p.document.WellFormed) (hprevious : p.previous = []) :
    p.document.SameContent (p.withdrawn.without (p.created.map (·.id)).reverse) := by
  have hcleared : p.cleared = p.anchored := by
    rw [cleared, hprevious]
    exact p.anchored.without_nil
  have hgrows := (anchored_growsBy h).raise nextId_le_withdrawn
  have heq : p.withdrawn = { p.anchored with nextId := p.withdrawn.nextId } := by
    rw [withdrawn, hcleared]
  rw [← heq] at hgrows
  exact hgrows.without_new h fun id => List.mem_reverse

/-- The labels of the edges that were taken away are back. -/
theorem putBack_restored (h : p.document.WellFormed)
    (hd : p.layers.labelFeature ≠ RelationRecord.dependentFeature)
    (hg : p.layers.labelFeature ≠ RelationRecord.governorFeature) :
    ∃ new, p.PutBack p.restored new := by
  have hle : p.anchored.nextId ≤ p.withdrawn.nextId := nextId_le_withdrawn
  have htarget := targetId_lt h
  have horigin := originId_lt h
  obtain ⟨new, hnew⟩ := Document.relink_relinkedBy (withdrawn_wellFormed h) hd hg
    (show p.targetId.val < p.withdrawn.nextId by omega)
    (show p.originId.val < p.withdrawn.nextId by omega) p.layers.relationLayer
    (p.previous.map (·.label))
  have hgrows := (anchored_growsBy h).nextId_le
  have hframe : p.cleared.SameFrame p.withdrawn := ⟨rfl, rfl, rfl, rfl, rfl⟩
  exact ⟨new, (frame_cleared h).trans (hframe.trans hnew.frame), hnew.spans, hnew.relations,
    hnew.new, Nat.le_trans hgrows (Nat.le_trans hle hnew.nextId_le), hnew.wellFormed⟩

end Relabelling

namespace LabelWriter

open Relabelling

variable {p : Relabelling}

/-- **What was created can be deleted again**, the last one first. -/
theorem foldl_tryEdit_delete_new {d : Document} {old new : List SpanAnnotation}
    (hspans : d.spans = old ++ new) (hnodup : (new.map (·.id)).Nodup) (s : FileStore) :
    (new.map (·.id)).reverse.foldl (fun s id => tryEdit (AnnotationStore.delete id) s)
        { s with document := d } =
      { s with document := d.without (new.map (·.id)).reverse } := by
  have hmem : ∀ id ∈ (new.map (·.id)).reverse, id ∈ d.ids := by
    intro id hid
    refine List.mem_append_left _ ?_
    rw [hspans, List.map_append]
    exact List.mem_append_right _ (List.mem_reverse.1 hid)
  exact foldl_tryEdit_delete (s := { s with document := d }) (List.nodup_reverse.2 hnodup) hmem

/-- The new edge can be deleted again, since its id was fresh and no other record goes with it. -/
theorem tryEdit_delete_result (h : p.document.WellFormed) (s : FileStore) :
    tryEdit (AnnotationStore.delete p.result.1) { s with document := p.result.2 } =
      { s with document := p.withdrawn } := by
  have hnew : p.result.1 ∈ p.result.2.ids := by
    refine List.mem_append_right _ ?_
    rw [relations_result h, List.map_append]
    exact List.mem_append_right _ (by simp [newRecord, result, Document.insertRelation])
  have hwithout : p.result.2.without [p.result.1] = p.withdrawn :=
    Document.without_insertRelation (cleared_wellFormed h).freshId_not_mem _
  rw [tryEdit_delete hnew]
  show { s with document := p.result.2.without [p.result.1] } = _
  rw [hwithout]

/-- **A roll-back after a whole change** puts the labels back, and takes the created annotations
away when there are none. -/
theorem rollBack_account (h : p.document.WellFormed)
    (hd : p.layers.labelFeature ≠ RelationRecord.dependentFeature)
    (hg : p.layers.labelFeature ≠ RelationRecord.governorFeature) (s : FileStore) :
    rollBack p.layers p.account { s with document := p.result.2 } =
      if (p.previous.map (·.label)).isEmpty then
        (p.created.map (·.id)).reverse.foldl (fun s id => tryEdit (AnnotationStore.delete id) s)
          { s with document := p.restored }
      else { s with document := p.restored } := by
  have hspan : ∀ id, (∃ span, spanOf? p.cleared.spans id = some span) →
      p.withdrawn.hasSpan id = true := by
    rintro id ⟨span, hid⟩
    exact Document.hasSpan_of_spanOf? hid
  have hrestore := foldl_tryEdit_restore (s := { s with document := p.withdrawn })
    (withdrawn_wellFormed h) hd hg (hspan p.targetId ⟨_, spanOf?_targetId h⟩)
    (hspan p.originId ⟨_, spanOf?_originId h⟩) (p.previous.map (·.label))
  simp only [rollBack, account, tryEdit_delete_result h, hrestore]
  rfl

/-- **What a roll-back leaves** of a label change that stopped. -/
theorem rollBack_inFile {s s' : FileStore} {e : EditorError} {undo : Undo}
    (h : p.document.WellFormed) (hd : p.layers.labelFeature ≠ RelationRecord.dependentFeature)
    (hg : p.layers.labelFeature ≠ RelationRecord.governorFeature)
    (hstops : p.StopsInFile s e s' undo) :
    ∃ d', rollBack p.layers undo s' = { s with document := d' } ∧
      ((p.document.SameContent d' ∧
          ∀ cause, e = .persistence "write document" cause → p.previous = []) ∨
        ((∃ cause, e = .persistence "write document" cause) ∧ p.previous ≠ [] ∧ p.Anchorable ∧
          ∃ new, p.PutBack d' new)) := by
  cases hstops with
  | origin hnone hadd =>
    refine ⟨p.document, rfl, .inl ⟨⟨.refl _, rfl, rfl, Nat.le_refl _⟩, fun cause he => ?_⟩⟩
    exact absurd he (create_ne_write _ cause)
  | target hnone hadd =>
    have hgrows := originAnchored_growsBy h
    have hnodup : ((p.document.missing p.layers.sentenceLayer p.origin).map (·.id)).Nodup := by
      have hcreated := nodup_created_ids h
      rw [created, List.map_append] at hcreated
      exact (List.nodup_append.1 hcreated).1
    have hwithout := hgrows.without_new h fun id => List.mem_reverse
    refine ⟨_, foldl_tryEdit_delete_new hgrows.spans hnodup s, .inl ⟨hwithout, fun cause he => ?_⟩⟩
    exact absurd he (create_ne_write _ cause)
  | write hanchorable hwrite =>
    rw [rollBack_account h hd hg]
    by_cases hprevious : p.previous = []
    · have hspans : p.withdrawn.spans = p.document.spans ++ p.created := spans_cleared h
      have hrestored : p.restored = p.withdrawn := by
        rw [restored, hprevious]
        rfl
      refine ⟨_, ?_, .inl ⟨withdrawn_without_created h hprevious, fun _ _ => hprevious⟩⟩
      rw [hprevious, hrestored]
      exact foldl_tryEdit_delete_new hspans (nodup_created_ids h) s
    · obtain ⟨new, hnew⟩ := putBack_restored h hd hg
      refine ⟨_, ?_, .inr ⟨⟨_, rfl⟩, hprevious, hanchorable, new, hnew⟩⟩
      rw [if_neg (by simpa using hprevious)]

end LabelWriter
end PairAnnotation
