/-
# Label changes of a document bound to a file

A document in memory refuses no change that its own edits allow.  So once both ends of
an edge are anchored nothing can go wrong but the writing, and a label change stops at
one of three stages only (`Relabelling.StopsInFile`): a segment without annotation
that does not fit into the text, on either side, and the file that cannot be written.
The file and the disk are what they were before, until the document is written.
-/

import PairAnnotation.Proofs.Writer.Stages
import PairAnnotation.Store.File

namespace PairAnnotation

namespace FileStore

open Attempt

/-- A store bound to the same file on the same disk. -/
def SameFile (s s' : FileStore) : Prop := s'.path = s.path ∧ s'.disk = s.disk

/-- Files that differ in their document at most are one file with two documents. -/
theorem SameFile.eq {s s' : FileStore} (h : s.SameFile s') :
    s' = { s with document := s'.document } := by
  obtain ⟨hpath, hdisk⟩ := h
  rw [← hpath, ← hdisk]

/-- A change of the document stays in its file, be it accepted or refused. -/
theorem sameFile_editing {α : Type} (f : Document → Except StoreError (α × Document))
    {s s' : FileStore} (h : s.SameFile s') : s.SameFile ((editing f).apply s').2 := by
  have happly : ((editing f).apply s').2.path = s'.path ∧
      ((editing f).apply s').2.disk = s'.disk := by
    rw [editing, Edit.apply_of]
    split <;> exact ⟨rfl, rfl⟩
  exact ⟨happly.1.trans h.1, happly.2.trans h.2⟩

/-- **Only writing touches the disk.** The other edits change the document in memory and keep the
path and the disk. -/
theorem keptByEdits_sameFile (s : FileStore) : KeptByEdits s.SameFile where
  addSpan _ _ _ h := sameFile_editing _ h
  addRelation _ _ _ _ h := sameFile_editing _ h
  setFeature _ _ _ _ h := sameFile_editing _ h
  delete _ _ h := sameFile_editing _ h

/-- **What a document in memory refuses is refused by its own edit.** -/
theorem eq_error_of_refused {α : Type} {P : FileStore → Prop}
    {f : Document → Except StoreError (α × Document)} {cause : StoreError} {d : Document}
    {s' : FileStore} (h : Refused P (editing f) cause d s') : f d = .error cause := by
  obtain ⟨s, -, rfl, happly⟩ := h.before
  change f s.document = .error cause
  rw [editing, Edit.apply_of] at happly
  split at happly
  · cases happly
  · rename_i hf
    rw [hf]
    exact congrArg _ (Except.error.inj (congrArg Prod.fst happly))

/-- A change without an answer is refused for the reason that its document was. -/
theorem eq_error_of_map_unit {x : Except StoreError Document} {cause : StoreError}
    (h : (x.map fun d => ((), d)) = .error cause) : x = .error cause := by
  cases x with
  | error cause' => exact congrArg _ (Except.error.inj h)
  | ok d => cases h

/-- A file that refuses a change is the file with the document it had. -/
theorem eq_of_refused {α : Type} {e : Edit FileStore α} {cause : StoreError} {d : Document}
    {s s' : FileStore} (hkeep : ∀ s', s.SameFile s' → s.SameFile (e.apply s').2)
    (h : Refused s.SameFile e cause d s') : s' = { s with document := d } := by
  obtain ⟨s₁, hsame, -, happly⟩ := h.before
  have hsame' : s.SameFile s' := by
    have hkept := hkeep s₁ hsame
    rwa [happly] at hkept
  have hd : s'.document = d := h.document
  rw [← hd]
  exact hsame'.eq

/-- A refused writing leaves the store as it is, with the document that could not be written. -/
theorem eq_of_write_refused {cause : StoreError} {d : Document} {s s' : FileStore}
    (h : Refused s.SameFile writeBack cause d s') :
    s' = { s with document := d } ∧
      writeBack.apply { s with document := d } = (.error cause, s') := by
  obtain ⟨s₁, hsame, rfl, happly⟩ := h.before
  have heq : s' = s₁ := by
    have happly := happly
    rw [writeBack, Edit.apply_of] at happly
    split at happly
    · cases happly
    · split at happly
      · cases happly
      · exact (congrArg Prod.snd happly).symm
  have hs₁ : s₁ = { s with document := AnnotationStore.document s₁ } := hsame.eq
  exact ⟨heq.trans hs₁, hs₁ ▸ happly⟩

/-- A file that can be written, whatever the document is by then. -/
def AcceptsWrites (path : Option String) (disk : Disk) : Prop :=
  ∀ d, (writeBack.apply ⟨d, path, disk⟩).1 = .ok ()

/-- A file that cannot be written, whatever the document is by then. -/
def RefusesWrites (path : Option String) (disk : Disk) : Prop :=
  ∀ d, ∃ cause, (writeBack.apply ⟨d, path, disk⟩).1 = .error cause

/-- A document that is bound to no file can always be written. -/
theorem acceptsWrites_none (disk : Disk) : AcceptsWrites none disk := fun _ => rfl

end FileStore

namespace Relabelling

variable {p : Relabelling}

/-! ### What the document allows -/

/-- The edges that a label replaces have different ids, so none is deleted twice. -/
theorem nodup_previous_ids (h : p.document.WellFormed) : (p.previous.map (·.id)).Nodup := by
  rw [previous, Document.relationsOn,
    map_filter_links (g := (·.id)) fun _ _ => RelationRecord.id_of_resolve?]
  exact (List.nodup_append.1 h.nodup).2.1.sublist (List.filter_sublist.map _)

/-- The edges that a label replaces are still there when its ends have been anchored. -/
theorem id_mem_of_previous (h : p.document.WellFormed) {e : RelationAnnotation}
    (he : e ∈ p.previous) : e.id ∈ p.anchored.ids := by
  rw [previous_eq h] at he
  obtain ⟨r, hr, -, hresolve⟩ := mem_resolveRelations.1 (List.mem_filter.1 he).1
  rw [RelationRecord.id_of_resolve? hresolve]
  exact Document.mem_ids_of_relation hr

/-- The edges that are replaced can be deleted one after the other. -/
theorem delete_previous (h : p.document.WellFormed) {done rest : List RelationAnnotation}
    {old : RelationAnnotation} (hprevious : p.previous = done ++ old :: rest) :
    ∃ d, (p.anchored.without (done.map (·.id))).delete old.id = .ok d := by
  have hmem : old ∈ p.previous := by
    rw [hprevious]
    exact List.mem_append_right _ List.mem_cons_self
  have hnot : old.id ∉ done.map (·.id) := by
    have hnodup := nodup_previous_ids h
    rw [hprevious, List.map_append, List.map_cons] at hnodup
    exact fun hdone => (List.nodup_append.1 hnodup).2.2 _ hdone _ List.mem_cons_self rfl
  exact ⟨_, Document.delete_of_mem (Document.mem_ids_without (id_mem_of_previous h hmem) hnot)⟩

/-- **The new edge is accepted**, since both of its ends have annotations by then. -/
theorem addRelation_cleared (h : p.document.WellFormed) :
    p.cleared.addRelation p.layers.relationLayer p.targetId p.originId =
      .ok (p.cleared.insertRelation p.layers.relationLayer p.targetId p.originId "" none) :=
  Document.addRelation_of_hasSpan _ (Document.hasSpan_of_spanOf? (spanOf?_targetId h))
    (Document.hasSpan_of_spanOf? (spanOf?_originId h))

/-! ### Where the change stops -/

/-- **Where a label change of a document bound to a file can stop**: the error, the store that is
left, and the account of what was done before. -/
inductive StopsInFile (s : FileStore) (p : Relabelling) :
    EditorError → FileStore → Undo → Prop where
  | origin {cause : StoreError} :
    p.document.idAt? p.layers.sentenceLayer p.origin = none →
    p.document.addSpan p.layers.sentenceLayer p.origin = .error cause →
    StopsInFile s p (.persistence "create span annotation" cause)
      { s with document := p.document } {}
  | target {cause : StoreError} :
    p.originAnchored.idAt? p.layers.sentenceLayer p.target = none →
    p.originAnchored.addSpan p.layers.sentenceLayer p.target = .error cause →
    StopsInFile s p (.persistence "create span annotation" cause)
      { s with document := p.originAnchored }
      { createdSpans := (p.document.missing p.layers.sentenceLayer p.origin).map (·.id) }
  | write {cause : StoreError} :
    p.Anchorable →
    FileStore.writeBack.apply { s with document := p.result.2 } =
      (.error cause, { s with document := p.result.2 }) →
    StopsInFile s p (.persistence "write document" cause)
      { s with document := p.result.2 } p.account

/-- **Nothing else is refused**: where the document is well formed, the other stages get through. -/
theorem StopsAt.inFile {s s' : FileStore} {e : EditorError} {undo : Undo}
    (h : p.document.WellFormed) (hstops : p.StopsAt s.SameFile e s' undo) :
    p.StopsInFile s e s' undo := by
  cases hstops with
  | origin hnone hrefused =>
    obtain rfl := FileStore.eq_of_refused (fun _ => FileStore.sameFile_editing _) hrefused
    exact .origin hnone (FileStore.eq_error_of_refused hrefused)
  | target hnone hrefused =>
    obtain rfl := FileStore.eq_of_refused (fun _ => FileStore.sameFile_editing _) hrefused
    exact .target hnone (FileStore.eq_error_of_refused hrefused)
  | delete hanchorable hprevious hrefused =>
    obtain ⟨d, hd⟩ := delete_previous h hprevious
    have herror := FileStore.eq_error_of_map_unit (FileStore.eq_error_of_refused hrefused)
    rw [hd] at herror
    cases herror
  | add hanchorable hrefused =>
    have herror := FileStore.eq_error_of_refused hrefused
    rw [addRelation_cleared h] at herror
    cases herror
  | label hanchorable hrefused =>
    have herror := FileStore.eq_error_of_map_unit (FileStore.eq_error_of_refused hrefused)
    have hlabel := Document.setFeature_insertRelation (cleared_wellFormed h).freshId_not_mem
      p.layers.relationLayer p.targetId p.originId p.layers.labelFeature p.label
    cases hlabel.symm.trans herror
  | write hanchorable hrefused =>
    obtain ⟨rfl, happly⟩ := FileStore.eq_of_write_refused hrefused
    exact .write hanchorable happly

/-- A span that is refused and a file that is not written are different errors. -/
theorem create_ne_write (cause cause' : StoreError) :
    EditorError.persistence "create span annotation" cause ≠
      .persistence "write document" cause' := by
  intro heq
  injection heq with hstep
  exact absurd hstep (by decide)

/-- **Only the writing can fail once both ends can be anchored.** -/
theorem StopsInFile.write_iff_anchorable {s s' : FileStore} {e : EditorError} {undo : Undo}
    (h : p.document.WellFormed) (hstops : p.StopsInFile s e s' undo) :
    (∃ cause, e = .persistence "write document" cause) ↔ p.Anchorable := by
  -- A span that was refused does not fit.
  have hfits : ∀ {d : Document} {layer : String} {span : Span} {cause : StoreError},
      d.addSpan layer span = .error cause → span.fits d.text.length ≠ true := by
    intro d layer span cause hadd hfits
    rw [Document.addSpan, if_pos hfits] at hadd
    cases hadd
  cases hstops with
  | origin hnone hadd =>
    constructor
    · rintro ⟨cause, he⟩
      exact absurd he (create_ne_write _ cause)
    · intro hanchorable
      exact absurd (hanchorable _ List.mem_cons_self hnone) (hfits hadd)
  | target hnone hadd =>
    constructor
    · rintro ⟨cause, he⟩
      exact absurd he (create_ne_write _ cause)
    · intro hanchorable
      have hgrows := originAnchored_growsBy h
      have hfit := hanchorable _ (List.mem_cons_of_mem _ List.mem_cons_self)
        (hgrows.idAt?_eq_none hnone)
      rw [← hgrows.frame.text] at hfit
      exact absurd hfit (hfits hadd)
  | write hanchorable => exact ⟨fun _ => hanchorable, fun _ => ⟨_, rfl⟩⟩

/-- **Where the file can be written, a change stops only at an end that cannot be anchored.** -/
theorem StopsInFile.not_anchorable {s s' : FileStore} {e : EditorError} {undo : Undo}
    (h : p.document.WellFormed) (hstops : p.StopsInFile s e s' undo)
    (hwrites : FileStore.AcceptsWrites s.path s.disk) : ¬ p.Anchorable := by
  intro hanchorable
  obtain ⟨cause, he⟩ := (hstops.write_iff_anchorable h).2 hanchorable
  cases hstops with
  | origin _ _ | target _ _ => exact absurd he (create_ne_write _ cause)
  | write _ hrefused =>
    have hwrite := hwrites p.result.2
    rw [hrefused] at hwrite
    cases hwrite

end Relabelling

namespace LabelWriter

open Relabelling

/-- **Labelling an edge of a document bound to a file**: the two indices are no ends of an edge, or
the document was changed and written, or the change stopped and was rolled back. -/
theorem apply_inFile (layers : LayerConfig) (segments : SegmentList) (tag : Tag)
    (origin target : Nat) (pairs : PairSet) {s : FileStore} (h : s.document.WellFormed) :
    (∃ e, locate segments origin target = .error e ∧
      apply layers segments tag origin target pairs s = (.error e, pairs, s)) ∨
    ∃ place, locate segments origin target = .ok place ∧
      let p : Relabelling := ⟨s.document, layers, tag.name, place.origin, place.target⟩
      let pairs' := markAfter pairs place.pair tag
        (inverseInformative p.document layers place.origin place.target)
      (∃ s', p.Anchorable ∧ s'.document = p.result.2 ∧
        FileStore.writeBack.apply { s with document := p.result.2 } = (.ok (), s') ∧
        apply layers segments tag origin target pairs s =
          (.ok ⟨p.result.1, place.pair, p.previous.length, pairs'.isCompleted place.pair⟩,
            pairs', s')) ∨
      ∃ e s' undo, p.StopsInFile s e s' undo ∧
        apply layers segments tag origin target pairs s =
          (.error e, pairs, rollBack layers undo s') := by
  rcases apply_cases (FileStore.keptByEdits_sameFile s) layers segments tag origin target pairs
    (show s.SameFile s from ⟨rfl, rfl⟩) h with
    herror | ⟨place, hplace, ⟨s', hanchorable, haccepted, hok⟩ | ⟨e, s', undo, hstops, herror⟩⟩
  · exact .inl herror
  · refine .inr ⟨place, hplace, .inl ⟨s', hanchorable, haccepted.document, ?_, hok⟩⟩
    obtain ⟨s₁, hsame, hdocument, hwrite⟩ := haccepted.before
    have heq := hsame.eq
    rw [show s₁.document = _ from hdocument] at heq
    exact (congrArg FileStore.writeBack.apply heq).symm.trans hwrite
  · exact .inr ⟨place, hplace, .inr ⟨e, s', undo, hstops.inFile h, herror⟩⟩

/-- **A label on a file that can be written is accepted**, when both ends can be anchored. -/
theorem apply_of_acceptsWrites (layers : LayerConfig) {segments : SegmentList} (tag : Tag)
    {origin target : Nat} (pairs : PairSet) {s : FileStore} {place : Target}
    (h : s.document.WellFormed) (hplace : locate segments origin target = .ok place)
    (hwrites : FileStore.AcceptsWrites s.path s.disk)
    (hanchorable :
      Relabelling.Anchorable ⟨s.document, layers, tag.name, place.origin, place.target⟩) :
    ∃ applied pairs' s',
      apply layers segments tag origin target pairs s = (.ok applied, pairs', s') := by
  rcases apply_inFile layers segments tag origin target pairs h with
    ⟨e, hlocate, -⟩ | ⟨place', hplace', hcases⟩
  · cases hplace.symm.trans hlocate
  · obtain rfl : place = place' := Except.ok.inj (hplace.symm.trans hplace')
    rcases hcases with ⟨s', -, -, -, hok⟩ | ⟨e, s', undo, hstops, -⟩
    · exact ⟨_, _, s', hok⟩
    · exact absurd hanchorable (hstops.not_anchorable h hwrites)

/-- **A label on a document that is bound to no file is accepted and stays in memory**, when both
ends can be anchored. -/
theorem apply_unbound (layers : LayerConfig) {segments : SegmentList} (tag : Tag)
    {origin target : Nat} (pairs : PairSet) {d : Document} (disk : Disk) {place : Target}
    (h : d.WellFormed) (hplace : locate segments origin target = .ok place)
    (hanchorable : Relabelling.Anchorable ⟨d, layers, tag.name, place.origin, place.target⟩) :
    ∃ applied pairs',
      apply layers segments tag origin target pairs (⟨d, none, disk⟩ : FileStore) =
        (.ok applied, pairs',
          ⟨(result ⟨d, layers, tag.name, place.origin, place.target⟩).2, none, disk⟩) := by
  rcases apply_inFile layers segments tag origin target pairs (s := ⟨d, none, disk⟩) h with
    ⟨e, hlocate, -⟩ | ⟨place', hplace', hcases⟩
  · cases hplace.symm.trans hlocate
  · obtain rfl : place = place' := Except.ok.inj (hplace.symm.trans hplace')
    rcases hcases with ⟨s', -, -, hwrite, hok⟩ | ⟨e, s', undo, hstops, -⟩
    · -- Without a file, writing does nothing.
      obtain rfl := (congrArg Prod.snd hwrite).symm
      exact ⟨_, _, hok⟩
    · exact absurd hanchorable (hstops.not_anchorable h (FileStore.acceptsWrites_none disk))

/-- **A label on a file that cannot be written fails**, and what was done is rolled back. -/
theorem apply_of_unwritable (layers : LayerConfig) {segments : SegmentList} (tag : Tag)
    {origin target : Nat} (pairs : PairSet) {s : FileStore} {place : Target} {path : String}
    {flaw : DiskError} (h : s.document.WellFormed)
    (hplace : locate segments origin target = .ok place)
    (hpath : s.path = some path) (hdisk : s.disk.destination path = .error flaw)
    (hanchorable :
      Relabelling.Anchorable ⟨s.document, layers, tag.name, place.origin, place.target⟩) :
    let p : Relabelling := ⟨s.document, layers, tag.name, place.origin, place.target⟩
    p.StopsInFile s (.persistence "write document" (.io path)) { s with document := p.result.2 }
        p.account ∧
      apply layers segments tag origin target pairs s =
        (.error (.persistence "write document" (.io path)), pairs,
          rollBack layers p.account { s with document := p.result.2 }) := by
  intro p
  have hwrite : FileStore.writeBack.apply { s with document := p.result.2 } =
      (.error (.io path), { s with document := p.result.2 }) := by
    rw [FileStore.writeBack, Edit.apply_of]
    simp only [hpath, Disk.write, hdisk]
  rcases apply_inFile layers segments tag origin target pairs h with
    ⟨e, hlocate, -⟩ | ⟨place', hplace', hcases⟩
  · cases hplace.symm.trans hlocate
  · obtain rfl : place = place' := Except.ok.inj (hplace.symm.trans hplace')
    rcases hcases with ⟨s', -, -, haccepted, -⟩ | ⟨e, s', undo, hstops, herror⟩
    · cases hwrite.symm.trans haccepted
    · obtain ⟨cause, he⟩ := (hstops.write_iff_anchorable h).2 hanchorable
      cases hstops with
      | origin _ _ | target _ _ => exact absurd he (create_ne_write _ cause)
      | write _ hrefused =>
        cases hwrite.symm.trans hrefused
        exact ⟨.write hanchorable hwrite, herror⟩

end LabelWriter
end PairAnnotation
