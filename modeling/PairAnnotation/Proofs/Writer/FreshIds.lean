/-
# Ids are given out once

A document is loaded from a file or is new (`FileStore.Opened`), and then it is changed
step by step (`FileStep`): annotations come and go, features are set, labels are written
or rolled back, and now and then the document is written and loaded again.  Whatever the
steps, an id that is given out belongs to no annotation that there is, belonged to none
at first, and was never given out before, be its annotation still there or not
(`FileStep.ids_given_out_once`).

Loading needs a word of its own: it takes the ids and the next id from the text
(`Document.ids_of_ofText?`), and it never lowers the next id.
-/

import PairAnnotation.Proofs.Document.Reloading
import PairAnnotation.Proofs.Document.Rereading
import PairAnnotation.Proofs.Writer.Ledger
import PairAnnotation.Store.Guarded

namespace PairAnnotation

namespace FileStore

/-! ### Opening and reloading -/

/-- **How a document begins**: it was loaded from a file, or it is new. -/
inductive Opened : FileStore → Prop where
  | loaded {disk : Disk} {path : String} {s : FileStore} (h : load disk path = .ok s) : Opened s
  | new (name format text : String) (path : Option String) (disk : Disk) :
      Opened ⟨{ name, format, text }, path, disk⟩

/-- Load the document from a path of its disk; it stays as it is if it cannot be loaded. -/
def reopen (s : FileStore) (path : String) : FileStore :=
  match load s.disk path with
  | .ok s' => s'
  | .error _ => s

/-- Write the document where it is kept, and load it from there once it is written. -/
def reload (s : FileStore) : FileStore :=
  match s.path with
  | none => s
  | some path =>
    match writeBack.apply s with
    | (.ok (), s') => s'.reopen path
    | (.error _, s') => s'

/-- Write the document to a path, and load it from there once it is written. -/
def saveAndLoad (s : FileStore) (path : String) : FileStore :=
  match s.save path with
  | .ok s' => s'.reopen path
  | .error _ => s

variable {s s' : FileStore} {path : String}

/-- **The next id is beyond all ids** when a document begins. -/
theorem Opened.lt_nextId (h : s.Opened) :
    ∀ id ∈ s.document.ids, id.val < s.document.nextId := by
  cases h with
  | loaded hload =>
    obtain ⟨text, d, -, -, rfl⟩ := load_eq_ok hload
    exact fun id hid => Document.id_lt_reserveIds hid
  | new => exact fun id hid => absurd hid List.not_mem_nil

/-- Writing a document does not change it, be it to its own path or to another one. -/
theorem WrittenTo.document_eq (h : s.WrittenTo path s') : s'.document = s.document := by
  rcases h with h | ⟨-, h⟩
  · unfold save at h
    split at h
    · cases h
      rfl
    · cases h
  · exact (congrArg Prod.snd (Except.ok.inj ((writeBack_follows s s').1 () h))).symm

/-- **What was written is loaded with its ids**, and the next id is no smaller. -/
theorem WrittenTo.noNewIds (h : s.WrittenTo path s') :
    s.document.NoNewIds (s'.reopen path).document := by
  unfold reopen
  split
  · rename_i hload
    obtain ⟨text, d, htext, hd, rfl⟩ := load_eq_ok hload
    rw [Disk.read_write h.write] at htext
    cases htext
    obtain ⟨hids, hnext⟩ := Document.ids_of_ofText? hd
    have hreserved : d.reserveIds.ids = s.document.ids := hids
    exact ⟨hreserved ▸ .refl _, hnext ▸ Nat.le_max_left _ _⟩
  · rw [h.document_eq]
    exact .refl _

/-- A document that is written and loaded again has no ids but those it had. -/
theorem noNewIds_reload (s : FileStore) : s.document.NoNewIds s.reload.document := by
  unfold reload
  split
  · exact .refl _
  · rename_i path hpath
    split
    · rename_i s' hwrite
      exact WrittenTo.noNewIds (.inr ⟨hpath, hwrite⟩)
    · rename_i cause s' hwrite
      have hd : s'.document = s.document := (writeBack_follows s s').2 cause hwrite
      exact hd ▸ .refl _

/-- A document that is written to a path and loaded from there has no ids but those it had. -/
theorem noNewIds_saveAndLoad (s : FileStore) (path : String) :
    s.document.NoNewIds (s.saveAndLoad path).document := by
  unfold saveAndLoad
  split
  · rename_i hsave
    exact WrittenTo.noNewIds (.inl hsave)
  · exact .refl _

end FileStore

/-! ### Steps -/

/-- A change of a document whose answer is an id that is given out. -/
inductive Issuing where
  | insertSpan (layer : String) (span : Span) (features : FeatureMap String)
  | insertRelation (layer : String) (dependent governor : AnnotationId) (labelFeature : String)
      (label : Option String)
  | addSpan (layer : String) (span : Span)
  | addRelation (layer : String) (dependent governor : AnnotationId)

namespace Issuing

/-- The id that is given out and the document with its annotation, or why there is none. -/
def onDocument : Issuing → Document → Except StoreError (AnnotationId × Document)
  | insertSpan layer span features, d => .ok (d.insertSpan layer span features)
  | insertRelation layer dependent governor labelFeature label, d =>
    .ok (d.insertRelation layer dependent governor labelFeature label)
  | addSpan layer span, d => d.addSpan layer span
  | addRelation layer dependent governor, d => d.addRelation layer dependent governor

/-- The change in a file, with the answer that the store gives for it. -/
def edit (c : Issuing) : Edit FileStore AnnotationId := FileStore.editing c.onDocument

/-- What gives out an id gives out the fresh one, whether it checks its arguments or not. -/
theorem issues_onDocument {c : Issuing} {d d' : Document} {id : AnnotationId}
    (h : c.onDocument d = .ok (id, d')) : d.Issues id d' := by
  cases c with
  | insertSpan layer span features =>
    cases h
    exact d.issues_insertSpan layer span features
  | insertRelation layer dependent governor labelFeature label =>
    cases h
    exact d.issues_insertRelation layer dependent governor labelFeature label
  | addSpan layer span => exact Document.issues_of_addSpan h
  | addRelation layer dependent governor => exact Document.issues_of_addRelation h

end Issuing

/-- A change of a document in a file that gives out no id. -/
inductive Passing where
  | setFeature (id : AnnotationId) (feature value : String)
  | delete (id : AnnotationId)
  | addSentence (span : Span)
  | setTagSet (layer feature : String) (tagSet : TagSet)
  | bind (path : String)
  | write
  | reload
  | saveAndLoad (path : String)

namespace Passing

open LabelWriter (tryEdit)

/-- The file afterwards; a change that is refused leaves it as it is. -/
def onFile : Passing → FileStore → FileStore
  | setFeature id feature value, s => tryEdit (AnnotationStore.setFeature id feature value) s
  | delete id, s => tryEdit (AnnotationStore.delete id) s
  | addSentence span, s => { s with document := s.document.withSentence span }
  | setTagSet layer feature tagSet, s =>
    { s with document := s.document.withTagSet layer feature tagSet }
  | bind path, s => s.bind path
  | write, s => tryEdit AnnotationStore.write s
  | reload, s => s.reload
  | saveAndLoad path, s => s.saveAndLoad path

/-- **A change that gives out no id brings none**, not even by loading the document again. -/
theorem noNewIds_onFile (c : Passing) (s : FileStore) :
    s.document.NoNewIds (c.onFile s).document := by
  cases c with
  | setFeature id feature value => exact Ledger.bringsNoId_setFeature id feature value s
  | delete id => exact Ledger.bringsNoId_delete id s
  | addSentence span => exact ⟨.refl _, Nat.le_refl _⟩
  | setTagSet layer feature tagSet => exact ⟨.refl _, Nat.le_refl _⟩
  | bind path => exact .refl _
  | write => exact Ledger.bringsNoId_write s
  | reload => exact s.noNewIds_reload
  | saveAndLoad path => exact s.noNewIds_saveAndLoad path

end Passing

/-- A label that is to be written, with all that the writer is handed for it. -/
structure Labelling where
  layers : LayerConfig
  segments : SegmentList
  tag : Tag
  origin : Nat
  target : Nat
  pairs : PairSet

namespace Labelling

variable {σ τ : Type} [AnnotationStore σ] [AnnotationStore τ]

/-- The store afterwards, be the label accepted or rolled back. -/
def onStore (x : Labelling) (s : σ) : σ :=
  (LabelWriter.apply x.layers x.segments x.tag x.origin x.target x.pairs s).2.2

/-- A label hands on related stores, be it accepted or rolled back. -/
theorem rel_onStore {R : τ → σ → Prop} (h : Simulates R) (x : Labelling) {t : τ} {s : σ}
    (hR : R t s) : R (x.onStore t) (x.onStore s) := by
  obtain ⟨answer, pairs, t', s', ht, hs, hR'⟩ :=
    LabelWriter.rel_apply h x.layers x.segments x.tag x.origin x.target x.pairs hR
  rwa [onStore, onStore, ht, hs]

end Labelling

/-- A step of a document in a file.  A label may be written behind locks, which refuse some of its
steps and of its roll-back. -/
inductive FileStep where
  | issuing (c : Issuing)
  | passing (c : Passing)
  | label (x : Labelling)
  | labelLocked (x : Labelling) (locks : StoreMethod → Lock)

namespace FileStep

open LabelWriter (tryEdit)

/-- The file after a step, be the step accepted, refused or rolled back. -/
def onFile : FileStep → FileStore → FileStore
  | issuing c, s => tryEdit c.edit s
  | passing c, s => c.onFile s
  | label x, s => x.onStore s
  | labelLocked x locks, s => (x.onStore (⟨s, locks⟩ : Guarded FileStore)).store

/-- The file and its ledger after a step, with one entry for each id that the step took. -/
def onLedger : FileStep → Ledger FileStore → Ledger FileStore
  | issuing c, l => tryEdit (Ledger.recording c.edit) l
  | passing c, l => { l with store := c.onFile l.store }
  | label x, l => x.onStore l
  | labelLocked x locks, l =>
    let l' := x.onStore (⟨⟨l.store, locks⟩, l.issues⟩ : Ledger (Guarded FileStore))
    ⟨l'.store.store, l'.issues⟩

/-- The file after all steps, taken one after the other. -/
def run (s : FileStore) (steps : List FileStep) : FileStore :=
  steps.foldl (fun s step => step.onFile s) s

/-- The file after all steps, with the ids that were given out on the way. -/
def ledger (s : FileStore) (steps : List FileStep) : Ledger FileStore :=
  steps.foldl (fun l step => step.onLedger l) ⟨s, []⟩

variable {start : List AnnotationId} {l : Ledger FileStore} {s : FileStore}

/-- **A step gives out no id twice**, and the ledger only looks on. -/
theorem follows_step (step : FileStep) (h : Ledger.Follows start l s) :
    Ledger.Follows start (step.onLedger l) (step.onFile s) := by
  cases step with
  | issuing c =>
    exact (Ledger.matches_recording (FileStore.editing_follows c.onDocument) fun _ _ _ =>
      Issuing.issues_onDocument).tryEdit h
  | passing c =>
    exact ⟨congrArg c.onFile h.store, h.sound.noNewIds (c.noNewIds_onFile s)⟩
  | label x => exact x.rel_onStore (Ledger.simulates start) h
  | labelLocked x locks =>
    -- The ledger stands before the locks: of a call that is refused there, nothing is entered.
    have hlocked : Ledger.Follows start (⟨⟨l.store, locks⟩, l.issues⟩ : Ledger (Guarded FileStore))
        ⟨s, locks⟩ := ⟨congrArg (Guarded.mk · locks) h.store, h.sound⟩
    have hstep := x.rel_onStore (Ledger.simulates start) hlocked
    exact ⟨congrArg Guarded.store hstep.store, hstep.sound⟩

/-- The ledger looks on through a whole run, by induction over its steps, and no id is given out
twice. -/
theorem follows_run (steps : List FileStep) (h : Ledger.Follows start l s) :
    Ledger.Follows start (steps.foldl (fun l step => step.onLedger l) l)
      (steps.foldl (fun s step => step.onFile s) s) := by
  induction steps generalizing l s with
  | nil => exact h
  | cons step rest ih => exact ih (follows_step step h)

/-- **Ids are given out once.**  However a document began and whatever was done to it, an id that
was given out belonged to no annotation at first, belonged to none when it was given out, and was
not given out twice, and the ids in the document are among those there were at first and those
that were given out.  So the ids of annotations are distinct at all times if they were at first. -/
theorem ids_given_out_once (h : s.Opened) (steps : List FileStep) :
    (ledger s steps).store = run s steps ∧
      (ledger s steps).issued.Nodup ∧
      (∀ i ∈ (ledger s steps).issues, i.id ∉ s.document.ids ∧ i.id ∉ i.present) ∧
      (∀ id ∈ (run s steps).document.ids,
        id ∈ s.document.ids ∨ id ∈ (ledger s steps).issued) ∧
      (s.document.ids.Nodup → (run s steps).document.ids.Nodup ∧
        ∀ i ∈ (ledger s steps).issues, i.present.Nodup) := by
  have hstart : Ledger.Follows s.document.ids ⟨s, []⟩ s := ⟨rfl, Ledger.sound_start h.lt_nextId⟩
  have hrun : Ledger.Follows s.document.ids (ledger s steps) (run s steps) :=
    follows_run steps hstart
  exact ⟨hrun.store, hrun.sound.nodup, hrun.sound.fresh,
    fun id hid => List.mem_append.1 (hrun.sound.known id hid), hrun.sound.distinct⟩

/-! ### A document whose greatest id is deleted before it is loaded again -/

/-- Two sentences, and a next id that need not fit them. -/
def twoSentences (nextId : Nat) : Document where
  name := "two"
  format := "text"
  text := "A. B."
  spans :=
    [⟨⟨1⟩, "Sentence", ⟨0, 2⟩, FeatureMap.empty⟩, ⟨⟨2⟩, "Sentence", ⟨3, 5⟩, FeatureMap.empty⟩]
  nextId := nextId

/-- The two sentences as they are loaded from a file with some text. -/
def twoInFile (nextId : Nat) (text : String) : FileStore :=
  ⟨twoSentences nextId, some "doc.json", FileStore.onlyFile text⟩

/-- The two sentences can be stored with any next id that fits 64 bits. -/
theorem storable_twoSentences {nextId : Nat} (h : nextId ≤ Json.Numeral.word) :
    (twoSentences nextId).Storable where
  sentences := by simp [twoSentences]
  spans s hs := by
    rcases List.mem_pair.1 hs with rfl | rfl <;> exact ⟨by decide, by decide, by decide⟩
  relations := by simp [twoSentences]
  nextId := h

/-- The next id is at least 3 when the two sentences are loaded. -/
theorem load_twoSentences {nextId : Nat} (h : nextId ≤ Json.Numeral.word) (text : String) :
    FileStore.load (FileStore.onlyFile (twoSentences nextId).toText) "doc.json" =
      .ok (twoInFile (max nextId 3) (twoSentences nextId).toText) := by
  have hreserved : (twoSentences nextId).reserveIds = twoSentences (max nextId 3) := rfl
  rw [FileStore.load_of_write (storable_twoSentences h) (FileStore.write_onlyFile text _),
    hreserved, twoInFile]

/-- Writing and loading the two sentences leaves them as they are, with a next id of 3 at least. -/
theorem reload_twoInFile {nextId : Nat} (h : nextId ≤ Json.Numeral.word) (text : String) :
    (twoInFile nextId text).reload = twoInFile (max nextId 3) (twoSentences nextId).toText := by
  simp only [FileStore.reload, twoInFile, FileStore.writeBack, Edit.apply_of,
    FileStore.write_onlyFile, FileStore.reopen, load_twoSentences h text]

/-- The sentences are linked, the link is deleted, the document is written and loaded again, and
the sentences are linked once more. -/
def linkedTwice : List FileStep :=
  [.issuing (.addRelation "Relation" ⟨2⟩ ⟨1⟩), .passing (.delete ⟨3⟩), .passing .reload,
    .issuing (.addRelation "Relation" ⟨2⟩ ⟨1⟩)]

/-- The links have the ids 3 and 4, whatever the text of the file. -/
theorem linkedTwice_onLedger (text text' : String)
    (h : (twoInFile 4 text).reload = twoInFile 4 text') :
    (ledger (twoInFile 3 text) linkedTwice).issued = [⟨3⟩, ⟨4⟩] ∧
      (ledger (twoInFile 3 text) linkedTwice).store.document.ids = [⟨1⟩, ⟨2⟩, ⟨4⟩] := by
  have hdeleted : onLedger (.passing (.delete ⟨3⟩))
      (onLedger (.issuing (.addRelation "Relation" ⟨2⟩ ⟨1⟩)) ⟨twoInFile 3 text, []⟩) =
        ⟨twoInFile 4 text, [⟨⟨3⟩, [⟨1⟩, ⟨2⟩]⟩]⟩ := rfl
  have hreloaded : onLedger (.passing .reload) ⟨twoInFile 4 text, [⟨⟨3⟩, [⟨1⟩, ⟨2⟩]⟩]⟩ =
      ⟨twoInFile 4 text', [⟨⟨3⟩, [⟨1⟩, ⟨2⟩]⟩]⟩ := by
    rw [onLedger, Passing.onFile, h]
  simp only [ledger, linkedTwice, List.foldl_cons, List.foldl_nil, hdeleted, hreloaded]
  exact ⟨rfl, rfl⟩

/-- The second link does not get the id of the first one, though no annotation had it when the
document was loaded. -/
theorem ids_given_out_once_linkedTwice :
    (twoInFile 3 (twoSentences 0).toText).Opened ∧
      (ledger (twoInFile 3 (twoSentences 0).toText) linkedTwice).issued = [⟨3⟩, ⟨4⟩] ∧
      (ledger (twoInFile 3 (twoSentences 0).toText) linkedTwice).issued.Nodup ∧
      (run (twoInFile 3 (twoSentences 0).toText) linkedTwice).document.ids = [⟨1⟩, ⟨2⟩, ⟨4⟩] := by
  have hopened : (twoInFile 3 (twoSentences 0).toText).Opened :=
    .loaded (load_twoSentences (Nat.zero_le _) "")
  obtain ⟨hstore, hnodup, -⟩ := ids_given_out_once hopened linkedTwice
  obtain ⟨hissued, hids⟩ := linkedTwice_onLedger (twoSentences 0).toText (twoSentences 4).toText
    (reload_twoInFile (by decide) _)
  rw [hstore] at hids
  exact ⟨hopened, hissued, hnodup, hids⟩

end FileStep
end PairAnnotation
