/-
# What a label leaves in the file

A label adds nothing to a document that its text could not hold: what it adds are
annotations without features, of spans in the text, and relations with two ends and a
label (`Document.ComesOf`).  So the file that a label has written loads, and shows the
labels of the store (`FileStore.saved_of_writeBack`).  A label that is not written leaves
the file as it was and every label where it was (`written_or_kept_apply`).
-/

import PairAnnotation.Proofs.Document.Reloading
import PairAnnotation.Proofs.Writer.Recovery

namespace PairAnnotation

open Json (Numeral)

/-! ### Documents that a text can hold -/

/-- A number that fits 64 bits can be stored, since it is read back as the same whole number. -/
theorem Json.Value.storable_nat {n : Nat} (h : n ≤ Numeral.word) : (Value.nat n).Storable :=
  ⟨h, rfl, (by decide : 0 + 4 ≤ Tree.depthLimit)⟩

theorem Json.Value.storable_string (s : String) : (Value.string s).Storable :=
  ⟨trivial, rfl, (by decide : 0 + 4 ≤ Tree.depthLimit)⟩

/-- A text can hold a relation with nothing but its ends and a label. -/
theorem RelationRecord.storable_relinked {id dependent governor : AnnotationId}
    (hid : id.val ≤ Numeral.word) (hd : dependent.val ≤ Numeral.word)
    (hg : governor.val ≤ Numeral.word) (layer labelFeature : String) (label : Option String) :
    (relinked id layer labelFeature dependent governor label).Storable := by
  have hlinking : ∀ e ∈ (linking id layer dependent governor).features.entries, e.2.Storable := by
    intro e he
    rcases FeatureMap.mem_entries_insert he with rfl | he
    · exact Json.Value.storable_nat hg
    · rcases FeatureMap.mem_entries_insert he with rfl | he
      · exact Json.Value.storable_nat hd
      · cases he
  refine ⟨by rwa [id_relinked], fun e he => ?_⟩
  cases label with
  | none => exact hlinking e he
  | some value =>
    rcases FeatureMap.mem_entries_insert he with rfl | he
    · exact Json.Value.storable_string value
    · exact hlinking e he

namespace Document

/-- **A document that came of another one by a label**: what was not there before is an annotation
of a span in the text, or a relation with nothing but its ends and a label. -/
structure ComesOf (d d' : Document) : Prop where
  frame : d.SameFrame d'
  spans : ∀ s ∈ d'.spans, s ∈ d.spans ∨ s.span.fits d.text.length = true
  relations : ∀ r ∈ d'.relations, r ∈ d.relations ∨
    ∃ layer labelFeature dependent governor label,
      IsRelinked layer labelFeature dependent governor r label ∧ r.ends = [dependent, governor]
  nextId_le : d.nextId ≤ d'.nextId
  wellFormed : d'.WellFormed

variable {d d' : Document}

/-- A document with the same content as a well-formed one came of it, since nothing was added. -/
theorem SameContent.comesOf (h : d.SameContent d') (hd : d.WellFormed) : d.ComesOf d' where
  frame := h.toSameFrame
  spans _ hs := .inl (h.spans ▸ hs)
  relations _ hr := .inl (h.relations ▸ hr)
  nextId_le := h.nextId_le
  wellFormed := h.wellFormed hd

theorem ComesOf.refl (h : d.WellFormed) : d.ComesOf d :=
  SameContent.comesOf ⟨.refl d, rfl, rfl, Nat.le_refl _⟩ h

/-- **A text can still hold what comes of a document**, as long as positions and ids fit 64 bits. -/
theorem ComesOf.storable (h : d.ComesOf d') (hd : d.Storable)
    (htext : d.text.length ≤ Numeral.word) (hnext : d'.nextId ≤ Numeral.word) : d'.Storable := by
  have hid : ∀ id ∈ d'.ids, id.val ≤ Numeral.word := fun id hid =>
    Nat.le_trans (Nat.le_of_lt (h.wellFormed.id_lt id hid)) hnext
  refine ⟨fun s hs => hd.sentences s (h.frame.sentences ▸ hs), fun s hs => ?_, fun r hr => ?_,
    hnext⟩
  · rcases h.spans s hs with hold | hfits
    · exact hd.spans s hold
    · obtain ⟨hstart, hstop⟩ := Span.fits_iff.1 hfits
      exact ⟨hid _ (mem_ids_of_span hs), by omega, by omega⟩
  · rcases h.relations r hr with
      hold | ⟨layer, labelFeature, dependent, governor, label, hnew, hends⟩
    · exact hd.relations r hold
    · have hend : ∀ id ∈ [dependent, governor], id.val ≤ Numeral.word := fun id hid =>
        Nat.le_trans (Nat.le_of_lt (h.wellFormed.end_lt r hr id (hends ▸ hid))) hnext
      rw [hnew]
      exact RelationRecord.storable_relinked (hid _ (mem_ids_of_relation hr))
        (hend _ List.mem_cons_self) (hend _ (List.mem_cons_of_mem _ List.mem_cons_self)) ..

end Document

namespace Relabelling

variable {p : Relabelling}

/-- What is created for the ends lies in the text. -/
theorem fits_of_mem_created (h : p.document.WellFormed) (hanchorable : p.Anchorable)
    {s : SpanAnnotation} (hs : s ∈ p.created) : s.span.fits p.document.text.length = true := by
  rcases List.mem_append.1 hs with hs | hs
  · obtain ⟨hnone, hspan⟩ := Document.of_mem_missing hs
    rw [hspan]
    exact hanchorable _ List.mem_cons_self hnone
  · obtain ⟨hnone, hspan⟩ := Document.of_mem_missing hs
    rw [hspan]
    exact hanchorable _ (List.mem_cons_of_mem _ List.mem_cons_self)
      ((originAnchored_growsBy h).idAt?_eq_none hnone)

/-- What was put back are relations with nothing but their ends and a label. -/
theorem isRelinked_of_mem {layer labelFeature : String} {dependent governor : AnnotationId}
    {records : List RelationRecord} {labels : List (Option String)}
    (h : List.Forall₂ (Document.IsRelinked layer labelFeature dependent governor) records labels) :
    ∀ r ∈ records, ∃ label, Document.IsRelinked layer labelFeature dependent governor r label := by
  induction h with
  | nil => simp
  | cons hr _ ih => exact List.forall_mem_cons.2 ⟨⟨_, hr⟩, ih⟩

section

variable (h : p.document.WellFormed)
variable (hd : p.layers.labelFeature ≠ RelationRecord.dependentFeature)
variable (hg : p.layers.labelFeature ≠ RelationRecord.governorFeature)
include h hd hg

/-- **What a label leaves came of the document**: it added annotations of spans in the text and one
edge with a label. -/
theorem comesOf_result (hanchorable : p.Anchorable) : p.document.ComesOf p.result.2 where
  frame := frame_result h
  spans s hs := by
    rw [spans_result h] at hs
    exact (List.mem_append.1 hs).imp id (fits_of_mem_created h hanchorable)
  relations r hr := by
    rw [relations_result h] at hr
    rcases List.mem_append.1 hr with hr | hr
    · exact .inl (List.mem_filter.1 hr).1
    · obtain rfl := List.mem_singleton.1 hr
      refine .inr ⟨p.layers.relationLayer, p.layers.labelFeature, p.targetId, p.originId,
        some p.label, ?_, RelationRecord.ends_relinked hd hg⟩
      rw [Document.IsRelinked, newRecord, RelationRecord.id_relinked]
  nextId_le := Nat.le_trans (anchored_growsBy h).nextId_le nextId_le_withdrawn
  wellFormed := result_wellFormed h hd hg

/-- What a roll-back leaves came of the document, also if its edges had to be put back. -/
theorem comesOf_of_putBack (hanchorable : p.Anchorable) {d' : Document} {new : List RelationRecord}
    (hput : p.PutBack d' new) : p.document.ComesOf d' where
  frame := hput.frame
  spans s hs := by
    rw [hput.spans, spans_cleared h] at hs
    exact (List.mem_append.1 hs).imp id (fits_of_mem_created h hanchorable)
  relations r hr := by
    rw [hput.relations, relations_cleared h] at hr
    rcases List.mem_append.1 hr with hr | hr
    · exact .inl (List.mem_filter.1 hr).1
    · obtain ⟨label, hlabel⟩ := isRelinked_of_mem hput.new r hr
      refine .inr ⟨_, _, _, _, label, hlabel, ?_⟩
      rw [hlabel]
      exact RelationRecord.ends_relinked hd hg
  nextId_le := hput.nextId_le
  wellFormed := hput.wellFormed

end

end Relabelling

namespace FileStore

/-- **A file that shows what the store holds**: it loads, and between any two spans it has the
labels of the store. -/
structure Saved (s : FileStore) (path : String) (layers : LayerConfig) : Prop where
  bound : s.path = some path
  file : ∃ file, load s.disk path = .ok file ∧
    ∀ dependent governor, file.document.labels layers dependent governor =
      s.document.labels layers dependent governor

variable {s s' : FileStore} {disk : Disk} {path : String} {layers : LayerConfig}

/-- A file that was just loaded shows what the store holds, since both come of one text. -/
theorem saved_load (layers : LayerConfig) (h : load disk path = .ok s) : s.Saved path layers := by
  obtain ⟨text, d, htext, hd, rfl⟩ := load_eq_ok h
  exact ⟨rfl, _, h, fun _ _ => rfl⟩

/-- What tells the same labels is shown by the same file. -/
theorem Saved.of_labels {d : Document} (h : s.Saved path layers)
    (hlabels : ∀ dependent governor,
      d.labels layers dependent governor = s.document.labels layers dependent governor) :
    { s with document := d }.Saved path layers := by
  obtain ⟨file, hload, hfile⟩ := h.file
  exact ⟨h.bound, file, hload, fun dependent governor =>
    (hfile dependent governor).trans (hlabels dependent governor).symm⟩

/-- A file that was just written shows what the store holds, if the document can be stored. -/
theorem saved_of_writeBack (hpath : s.path = some path) (hstorable : s.document.Storable)
    (h : writeBack.apply s = (.ok (), s')) : s'.Saved path layers := by
  obtain ⟨d, _, disk⟩ := s
  subst hpath
  rw [writeBack, Edit.apply_of] at h
  dsimp only at h
  split at h
  · rename_i disk' hdisk
    obtain rfl := congrArg Prod.snd h
    exact ⟨rfl, _, load_of_write hstorable hdisk, fun _ _ => rfl⟩
  · cases h

end FileStore

namespace LabelWriter

open Relabelling

variable {layers : LayerConfig} {segments : SegmentList} {tag : Tag} {origin target : Nat}
variable {pairs : PairSet} {s : FileStore}

/-- **A label is written, or leaves the file and the labels as they were.** -/
theorem written_or_kept_apply (h : s.document.WellFormed)
    (hd : layers.labelFeature ≠ RelationRecord.dependentFeature)
    (hg : layers.labelFeature ≠ RelationRecord.governorFeature) :
    let s' := (apply layers segments tag origin target pairs s).2.2
    s.document.ComesOf s'.document ∧
      (FileStore.writeBack.apply { s with document := s'.document } = (.ok (), s') ∨
        s' = { s with document := s'.document } ∧
          ∀ dependent governor, s'.document.labels layers dependent governor =
            s.document.labels layers dependent governor) := by
  intro s'
  rcases apply_inFile layers segments tag origin target pairs h with
    ⟨e, -, herror⟩ | ⟨place, -,
      ⟨s₁, hanchorable, hdocument, hwrite, hok⟩ | ⟨e, s₁, undo, hstops, herror⟩⟩
  · have hs : s' = s := congrArg (·.2.2) herror
    rw [hs]
    exact ⟨.refl h, .inr ⟨rfl, fun _ _ => rfl⟩⟩
  · have hs : s' = s₁ := congrArg (·.2.2) hok
    rw [hs, hdocument]
    exact ⟨comesOf_result h hd hg hanchorable, .inl hwrite⟩
  · obtain ⟨d', hrollBack, hkept⟩ := rollBack_inFile h hd hg hstops
    have hs : s' = { s with document := d' } := (congrArg (·.2.2) herror).trans hrollBack
    rw [hs]
    rcases hkept with ⟨hsame, -⟩ | ⟨-, -, hanchorable, new, hput⟩
    · exact ⟨hsame.comesOf h, .inr ⟨rfl, (alike_of_sameContent hsame).labels⟩⟩
    · exact ⟨comesOf_of_putBack h hd hg hanchorable hput,
        .inr ⟨rfl, (alike_of_putBack h hd hg hanchorable hput).labels⟩⟩

/-- The document after a label that is accepted is the result of the change, and nothing beyond
it. -/
theorem document_of_apply_ok {place : Target} {pairs' : PairSet} {s' : FileStore}
    {applied : AppliedRelation} (h : s.document.WellFormed)
    (hplace : locate segments origin target = .ok place)
    (happly : apply layers segments tag origin target pairs s = (.ok applied, pairs', s')) :
    s'.document =
      (result ⟨s.document, layers, tag.name, place.origin, place.target⟩).2 := by
  obtain ⟨place', hplace', hdocument, -⟩ := exists_of_apply_ok h happly
  cases hplace.symm.trans hplace'
  exact hdocument

end LabelWriter
end PairAnnotation
