/-
# Ids in words

Ids and the next id of a document are words of 64 bits, while the definitions of documents count
with numbers of any size.  Only two sums are formed of them: the one behind an id that is given
out, and the one behind the greatest id when a document is loaded.  Here both are formed step by
step (`Word.add?`), and an edit has no result as soon as the sum leaves the words.  Where it does
not, the edit is the one without bound (`Word.insertSpan_eq`, `Word.insertRelation_eq`,
`Word.reserveIds_eq`, `Word.onDocument_eq`).

What a document, a label or a session does to ids is told by the ledger of all ids that were given
out.  The id that is fresh at the end is the one behind the last of them (`Ledger.Counts`), so one
look at the end decides for a whole run: all sums on the way were words exactly if the fresh id at
the end is one, be it after the actions of a session (`Session.inWords_iff`) or after the steps of
a file (`FileStep.inWords_iff`).
-/

import Mathlib.Algebra.Group.Nat.Defs
import PairAnnotation.Proofs.PairSet.Words
import PairAnnotation.Proofs.Session.Runs
import PairAnnotation.Proofs.Writer.FreshIds

namespace PairAnnotation

/-! ### Edits in words -/

namespace Word

/-- A result that is formed from one sum is there exactly if that sum is a word, and then it is
formed from the sum without bound. -/
theorem add?_bind_some {α : Type} (a b : Nat) (f : Nat → α) :
    (add? a b >>= fun sum => some (f sum)) = if a + b < 2 ^ 64 then some (f (a + b)) else none := by
  split
  · rename_i hword
    exact add?_bind hword
  · rename_i hover
    rw [add?, if_neg hover]
    rfl

/-- Add a span annotation, if there is an id behind the one it gets. -/
def insertSpan (d : Document) (layer : String) (span : Span) (features : FeatureMap String) :
    Option (AnnotationId × Document) := do
  let nextId ← add? d.freshId.val 1
  some (d.freshId, { d with spans := d.spans ++ [⟨d.freshId, layer, span, features⟩], nextId })

/-- Add a relation record, if there is an id behind the one it gets. -/
def insertRelation (d : Document) (layer : String) (dependent governor : AnnotationId)
    (labelFeature : String) (label : Option String) : Option (AnnotationId × Document) := do
  let nextId ← add? d.freshId.val 1
  let record := RelationRecord.relinked d.freshId layer labelFeature dependent governor label
  some (d.freshId, { d with relations := d.relations ++ [record], nextId })

/-- The document with a next id beyond every id in it, if there is an id behind the greatest. -/
def reserveIds (d : Document) : Option Document := do
  let above ← add? d.greatestId 1
  some { d with nextId := max d.nextId above }

/-- A change that gives out an id: one that is refused asks for none, and one that is accepted needs
another id behind the one it gives out. -/
def onDocument (c : Issuing) (d : Document) :
    Option (Except StoreError (AnnotationId × Document)) :=
  match c with
  | .insertSpan layer span features => (insertSpan d layer span features).map .ok
  | .insertRelation layer dependent governor labelFeature label =>
    (insertRelation d layer dependent governor labelFeature label).map .ok
  | .addSpan layer span =>
    match d.addSpan layer span with
    | .ok _ => (insertSpan d layer span FeatureMap.empty).map .ok
    | .error cause => some (.error cause)
  | .addRelation layer dependent governor =>
    match d.addRelation layer dependent governor with
    | .ok _ => (insertRelation d layer dependent governor "" none).map .ok
    | .error cause => some (.error cause)

/-- **A span is added in words** exactly if the next id is a word afterwards, and it is then added
as it is without bound. -/
theorem insertSpan_eq (d : Document) (layer : String) (span : Span) (features : FeatureMap String) :
    insertSpan d layer span features =
      if d.freshId.val + 1 < 2 ^ 64 then some (d.insertSpan layer span features) else none :=
  add?_bind_some ..

/-- **A relation is added in words** exactly if the next id is a word afterwards, and it is then
added as it is without bound. -/
theorem insertRelation_eq (d : Document) (layer : String) (dependent governor : AnnotationId)
    (labelFeature : String) (label : Option String) :
    insertRelation d layer dependent governor labelFeature label =
      if d.freshId.val + 1 < 2 ^ 64
      then some (d.insertRelation layer dependent governor labelFeature label) else none := by
  have hinsert : d.insertRelation layer dependent governor labelFeature label =
      (d.freshId, { d with
        relations := d.relations ++
          [RelationRecord.relinked d.freshId layer labelFeature dependent governor label]
        nextId := d.freshId.val + 1 }) := by
    cases label <;> rfl
  rw [hinsert]
  exact add?_bind_some ..

/-- **Ids are reserved in words** exactly if there is a word behind the greatest id. -/
theorem reserveIds_eq (d : Document) :
    reserveIds d = if d.greatestId + 1 < 2 ^ 64 then some d.reserveIds else none :=
  add?_bind_some ..

/-- An answer with an id that was given out, if there is a word behind that id. -/
def answer? : Except StoreError (AnnotationId × Document) →
    Option (Except StoreError (AnnotationId × Document))
  | .ok (id, d) => if id.val + 1 < 2 ^ 64 then some (.ok (id, d)) else none
  | .error cause => some (.error cause)

/-- An insertion that asks for the word behind its id gives the answer that is asked for it. -/
theorem map_ok_eq_answer? {inserted : Option (AnnotationId × Document)}
    {answer : AnnotationId × Document}
    (h : inserted = if answer.1.val + 1 < 2 ^ 64 then some answer else none) :
    inserted.map .ok = answer? (.ok answer) := by
  rw [h, answer?]
  split <;> rfl

/-- **A change gives out an id in words as it does without bound**, unless there is no word behind
the id that it gives out; then it has no result. -/
theorem onDocument_eq (c : Issuing) (d : Document) :
    onDocument c d = answer? (c.onDocument d) := by
  cases c with
  | insertSpan layer span features => exact map_ok_eq_answer? (insertSpan_eq d layer span features)
  | insertRelation layer dependent governor labelFeature label =>
    exact map_ok_eq_answer? (insertRelation_eq d layer dependent governor labelFeature label)
  | addSpan layer span =>
    rw [onDocument, Issuing.onDocument]
    cases hadd : d.addSpan layer span with
    | error cause => rfl
    | ok answer =>
      obtain ⟨-, hinsert⟩ := Document.eq_insertSpan_of_addSpan hadd
      rw [← show d.insertSpan layer span FeatureMap.empty = answer from hinsert]
      exact map_ok_eq_answer? (insertSpan_eq d layer span FeatureMap.empty)
  | addRelation layer dependent governor =>
    rw [onDocument, Issuing.onDocument]
    cases hadd : d.addRelation layer dependent governor with
    | error cause => rfl
    | ok answer =>
      obtain ⟨hid, hd⟩ := Document.eq_insertRelation_of_addRelation hadd
      rw [← show d.insertRelation layer dependent governor "" none = answer from
        Prod.ext hid.symm hd.symm]
      exact map_ok_eq_answer? (insertRelation_eq d layer dependent governor "" none)

end Word

/-! ### The fresh id and the ids that were given out -/

/-- A change that keeps the next id, be it accepted or refused. -/
def KeepsNextId {σ α : Type} [AnnotationStore σ] (e : Edit σ α) : Prop :=
  ∀ s, (AnnotationStore.document (e.apply s).2).nextId = (AnnotationStore.document s).nextId

/-- A change keeps the next id if its document's change does, since a refused one leaves the
document alone. -/
theorem keepsNextId_of_follows {σ α : Type} [AnnotationStore σ] {e : Edit σ α}
    {f : Document → Except StoreError (α × Document)} (hf : FollowsDocument e f)
    (hkeep : ∀ d a d', f d = .ok (a, d') → d'.nextId = d.nextId) : KeepsNextId e := by
  intro s
  rcases happly : e.apply s with ⟨cause | a, s'⟩
  · rw [(hf s s').2 cause happly]
  · exact hkeep _ a _ ((hf s s').1 a happly)

namespace Document

variable {d d' : Document} {id : AnnotationId}

/-- Setting a feature of an annotation gives out no id, so the next one stays. -/
theorem nextId_of_setFeature {feature value : String}
    (h : d.setFeature id feature value = .ok d') : d'.nextId = d.nextId := by
  unfold setFeature at h
  split at h
  · cases h
    rfl
  · split at h
    · cases h
      rfl
    · cases h

/-- A deletion gives no id back, so the next one stays. -/
theorem nextId_of_delete (h : d.delete id = .ok d') : d'.nextId = d.nextId := by
  rw [eq_without_of_delete h]
  rfl

/-- The fresh id moves behind the id that is given out. -/
theorem Issues.freshId (h : d.Issues id d') : d'.freshId.val = id.val + 1 := by
  rw [Document.freshId, h.nextId]
  exact Nat.max_eq_left (Nat.succ_le_succ (Nat.zero_le _))

/-- The fresh id is beyond the greatest one as soon as it is beyond all of them. -/
theorem greatestId_lt_freshId (h : ∀ id ∈ d.ids, id.val < d.nextId) :
    d.greatestId < d.freshId.val :=
  d.isGreatestId.lt (Nat.lt_of_lt_of_le Nat.one_pos (Nat.le_max_right _ _)) fun id hid =>
    Nat.lt_of_lt_of_le (h id hid) d.nextId_le_freshId

end Document

namespace Ledger

/-- **All ids that were given out have a word behind them.** -/
def InWords {σ : Type} (l : Ledger σ) : Prop := ∀ id ∈ l.issued, id.val + 1 < 2 ^ 64

variable {σ : Type} [AnnotationStore σ]

/-- The fresh id of a store, the one that it would give out next. -/
abbrev fresh (s : σ) : Nat := (AnnotationStore.document s).freshId.val

/-- **The fresh id is the one behind the last id that was given out**, and `first` as long as none
was. -/
structure Counts (first : Nat) (l : Ledger σ) (s : σ) : Prop where
  store : l.store = s
  lt : ∀ id ∈ l.issued, id.val < fresh s
  eq : fresh s = first ∨ ∃ id ∈ l.issued, fresh s = id.val + 1

variable {first : Nat} {l : Ledger σ} {s s' : σ}

/-- Nothing was given out yet, and the fresh id is the first one. -/
theorem counts_start (s : σ) : Counts (fresh s) ⟨s, []⟩ s :=
  ⟨rfl, fun _ hid => absurd hid List.not_mem_nil, .inl rfl⟩

/-- **The fresh id is a word exactly if all sums were**: that behind each id that was given out. -/
theorem Counts.inWords_iff (h : Counts first l s) (hfirst : first < 2 ^ 64) :
    l.InWords ↔ fresh s < 2 ^ 64 := by
  constructor
  · intro hwords
    rcases h.eq with heq | ⟨id, hid, heq⟩
    · rwa [heq]
    · rw [heq]
      exact hwords id hid
  · exact fun hfresh id hid => Nat.lt_of_le_of_lt (h.lt id hid) hfresh

/-- The fresh id stays where no id is given out. -/
theorem Counts.keep (h : Counts first l s) (hfresh : fresh s' = fresh s) :
    Counts first { l with store := s' } s' :=
  ⟨rfl, fun id hid => hfresh ▸ h.lt id hid, hfresh ▸ h.eq⟩

/-- A change that keeps the next id passes by the ledger, and the fresh id still is the one behind
the last that was given out. -/
theorem counts_passing {α : Type} {e : Edit σ α} (he : KeepsNextId e) :
    Edit.Matches (Counts first) (passing e) e := by
  rintro l s h
  have hstore := h.store
  subst hstore
  exact ⟨_, _, _, apply_passing rfl, rfl, h.keep (congrArg (max · 1) (he l.store))⟩

/-- **An id that is given out is entered, and the fresh id is the one behind it**; where the change
is refused, nothing happens to either. -/
theorem counts_recording {e : Edit σ AnnotationId}
    {f : Document → Except StoreError (AnnotationId × Document)} (hf : FollowsDocument e f)
    (hissues : ∀ d id d', f d = .ok (id, d') → d.Issues id d') :
    Edit.Matches (Counts first) (recording e) e := by
  rintro l s h
  have hstore := h.store
  subst hstore
  rcases happly : e.apply l.store with ⟨cause | id, s'⟩
  · have hd := (hf l.store s').2 cause happly
    exact ⟨_, _, s', apply_recording_of_error happly, rfl, h.keep (by rw [fresh, hd])⟩
  · have hd := hissues _ id _ ((hf l.store s').1 id happly)
    have hissued : issued ⟨s', l.issues ++ [⟨id, (AnnotationStore.document l.store).ids⟩]⟩ =
        l.issued ++ [id] := by
      rw [issued, issued, List.map_append, List.map_singleton]
    refine ⟨_, _, s', apply_recording_of_ok happly, rfl, rfl, fun id' hid' => ?_, .inr ⟨id, ?_, ?_⟩⟩
    · rw [fresh, hd.freshId]
      rw [hissued, List.mem_append, List.mem_singleton] at hid'
      rcases hid' with hid' | rfl
      · refine Nat.lt_succ_of_lt (Nat.lt_of_lt_of_le (h.lt id' hid') ?_)
        exact Nat.le_of_eq (congrArg AnnotationId.val hd.id_eq.symm)
      · exact Nat.lt_succ_self _
    · rw [hissued]
      exact List.mem_append_right _ List.mem_cons_self
    · exact hd.freshId

/-- Setting a feature keeps the next id of a lawful store. -/
theorem keepsNextId_setFeature [LawfulStore σ] (id : AnnotationId) (feature value : String) :
    KeepsNextId (σ := σ) (AnnotationStore.setFeature id feature value) :=
  keepsNextId_of_follows (LawfulStore.setFeature id feature value) fun _ _ _ h =>
    Document.nextId_of_setFeature (eq_ok_of_map_unit h)

/-- A deletion keeps the next id of a lawful store. -/
theorem keepsNextId_delete [LawfulStore σ] (id : AnnotationId) :
    KeepsNextId (σ := σ) (AnnotationStore.delete id) :=
  keepsNextId_of_follows (LawfulStore.delete id) fun _ _ _ h =>
    Document.nextId_of_delete (eq_ok_of_map_unit h)

/-- Writing keeps the next id of a lawful store, since it keeps the document. -/
theorem keepsNextId_write [LawfulStore σ] : KeepsNextId (σ := σ) AnnotationStore.write :=
  keepsNextId_of_follows LawfulStore.write fun _ _ _ h => by
    cases h
    rfl

/-- **A lawful store moves the fresh id behind each id that it gives out**, and for nothing else. -/
theorem simulates_counts [LawfulStore σ] (first : Nat) : Simulates (Counts (σ := σ) first) where
  document h := congrArg AnnotationStore.document h.store
  addSpan layer span :=
    counts_recording (LawfulStore.addSpan layer span) fun _ _ _ => Document.issues_of_addSpan
  addRelation layer dependent governor :=
    counts_recording (LawfulStore.addRelation layer dependent governor) fun _ _ _ =>
      Document.issues_of_addRelation
  setFeature id feature value := counts_passing (keepsNextId_setFeature id feature value)
  delete id := counts_passing (keepsNextId_delete id)
  write := counts_passing keepsNextId_write

end Ledger

/-! ### Sessions -/

namespace Session

variable {σ τ : Type} [AnnotationStore σ] [AnnotationStore τ]

/-- The same session over another store, with the pairs, the cursor and the index it had. -/
def withStore (s : Session σ) (store : τ) : Session τ :=
  ⟨store, s.config, s.segments, s.index, s.pairs, s.cursor, s.warnings⟩

/-- **An action cannot tell stores apart** that answer alike: what it does to the session is the
same over both. -/
theorem exists_perform_withStore {R : τ → σ → Prop} (h : Simulates R) (s : Session σ) {t : τ}
    (hR : R t s.store) (action : Action) :
    ∃ t', (s.withStore t).perform action = (s.perform action).withStore t' ∧
      R t' (s.perform action).store := by
  cases action with
  | select direction tagName =>
    dsimp only [perform]
    cases htag : s.tag tagName with
    | error e =>
      have htag' : (s.withStore t).tag tagName = .error e := htag
      rw [select_of_no_tag direction htag, select_of_no_tag direction htag']
      exact ⟨t, rfl, hR⟩
    | ok tag =>
      have htag' : (s.withStore t).tag tagName = .ok tag := htag
      obtain ⟨answer, pairs, t', s', ht, hs, hR'⟩ :=
        LabelWriter.rel_apply h s.config.layers s.segments tag (endsOf s.cursor direction).1
          (endsOf s.cursor direction).2 s.pairs hR
      have happlied : s.applied direction tag = (answer, pairs, s') := hs
      have happlied' : (s.withStore t).applied direction tag = (answer, pairs, t') := ht
      rw [select_of_tag direction htag, select_of_tag direction htag', happlied, happlied']
      refine ⟨t', ?_, hR'⟩
      simp only [reindex, withStore, h.document hR']
  | moveSegment side direction => exact ⟨t, rfl, hR⟩
  | movePair move => cases move <;> exact ⟨t, rfl, hR⟩
  | setFilter tagName =>
    refine ⟨t, ?_, ?_⟩
    · cases tagName with
      | none => rfl
      | some name =>
        have htag : (s.withStore t).tag name = s.tag name := rfl
        simp only [perform, setFilter, htag]
        cases s.tag name <;> rfl
    · cases tagName with
      | none => exact hR
      | some name =>
        simp only [perform, setFilter]
        cases s.tag name <;> exact hR

/-- **No run can tell stores apart** that answer alike: it comes to the same session over either of
them, and the stores stay related. -/
theorem exists_run_withStore {R : τ → σ → Prop} (h : Simulates R) (s : Session σ) {t : τ}
    (hR : R t s.store) (actions : List Action) :
    ∃ t', (s.withStore t).run actions = (s.run actions).withStore t' ∧
      R t' (s.run actions).store := by
  induction actions generalizing s t with
  | nil => exact ⟨t, rfl, hR⟩
  | cons action rest ih =>
    obtain ⟨t', hstep, hR'⟩ := exists_perform_withStore h s hR action
    obtain ⟨t'', hrun, hR''⟩ := ih (s.perform action) hR'
    refine ⟨t'', ?_, hR''⟩
    rw [run, List.foldl_cons, hstep]
    exact hrun

/-- **A session stays in words exactly as long as the fresh id is one.**  Over a ledger its run is
the same, and every id that was entered there has a word behind it exactly if the id that is fresh
at the end is a word. -/
theorem inWords_iff [LawfulStore σ] (s : Session σ) (h : Ledger.fresh s.store < 2 ^ 64)
    (actions : List Action) :
    ∃ l : Ledger σ, (s.withStore (Ledger.mk s.store [])).run actions = (s.run actions).withStore l ∧
      l.store = (s.run actions).store ∧
      (l.InWords ↔ Ledger.fresh (s.run actions).store < 2 ^ 64) := by
  obtain ⟨l, hrun, hcounts⟩ := exists_run_withStore
    (Ledger.simulates_counts (Ledger.fresh s.store)) s (Ledger.counts_start s.store) actions
  exact ⟨l, hrun, hcounts.store, hcounts.inWords_iff h⟩

end Session

/-! ### Files -/

namespace FileStore

variable {s s' : FileStore} {path : String}

/-- What was written is loaded with its fresh id, once that is beyond all ids. -/
theorem WrittenTo.freshId (h : s.WrittenTo path s')
    (hlt : ∀ id ∈ s.document.ids, id.val < s.document.nextId) :
    (s'.reopen path).document.freshId = s.document.freshId := by
  unfold reopen
  split
  · rename_i hload
    obtain ⟨text, d, htext, hd, rfl⟩ := load_eq_ok hload
    rw [Disk.read_write h.write] at htext
    cases htext
    obtain ⟨hids, hnext⟩ := Document.ids_of_ofText? hd
    have hgreatest : d.greatestId < max d.nextId 1 :=
      Document.greatestId_lt_freshId fun id hid => hnext ▸ hlt id (hids ▸ hid)
    have hreserved : max (max d.nextId (d.greatestId + 1)) 1 = max d.nextId 1 := by omega
    rw [Document.freshId, Document.freshId, ← hnext]
    exact congrArg AnnotationId.mk hreserved
  · rw [h.document_eq]

/-- A document that is written and loaded again has its fresh id, be it written or not. -/
theorem freshId_reload (hlt : ∀ id ∈ s.document.ids, id.val < s.document.nextId) :
    s.reload.document.freshId = s.document.freshId := by
  unfold reload
  split
  · rfl
  · rename_i path hpath
    split
    · rename_i s' hwrite
      exact WrittenTo.freshId (.inr ⟨hpath, hwrite⟩) hlt
    · rename_i cause s' hwrite
      rw [show s'.document = s.document from (writeBack_follows s s').2 cause hwrite]

/-- A document that is written to a path and loaded from there has its fresh id, be it written or
not. -/
theorem freshId_saveAndLoad (path : String)
    (hlt : ∀ id ∈ s.document.ids, id.val < s.document.nextId) :
    (s.saveAndLoad path).document.freshId = s.document.freshId := by
  unfold saveAndLoad
  split
  · rename_i hsave
    exact WrittenTo.freshId (.inl hsave) hlt
  · rfl

end FileStore

/-- A change that gives out no id leaves the fresh one as it is, once that is beyond all ids. -/
theorem Passing.freshId_onFile (c : Passing) {s : FileStore}
    (hlt : ∀ id ∈ s.document.ids, id.val < s.document.nextId) :
    (c.onFile s).document.freshId = s.document.freshId := by
  have hkeep : ∀ {α : Type} {e : Edit FileStore α}, KeepsNextId e →
      (LabelWriter.tryEdit e s).document.freshId = s.document.freshId := fun he =>
    congrArg (fun nextId => AnnotationId.mk (max nextId 1)) (he s)
  cases c with
  | setFeature id feature value => exact hkeep (Ledger.keepsNextId_setFeature id feature value)
  | delete id => exact hkeep (Ledger.keepsNextId_delete id)
  | addSentence span => rfl
  | setTagSet layer feature tagSet => rfl
  | bind path => rfl
  | write => exact hkeep Ledger.keepsNextId_write
  | reload => exact FileStore.freshId_reload hlt
  | saveAndLoad path => exact FileStore.freshId_saveAndLoad path hlt

namespace FileStep

variable {start : List AnnotationId} {first : Nat} {l : Ledger FileStore} {s : FileStore}

/-- **A step moves the fresh id behind each id that it gives out**, and for nothing else. -/
theorem counts_step (step : FileStep) (hfollows : Ledger.Follows start l s)
    (h : Ledger.Counts first l s) : Ledger.Counts first (step.onLedger l) (step.onFile s) := by
  cases step with
  | issuing c =>
    exact (Ledger.counts_recording (FileStore.editing_follows c.onDocument) fun _ _ _ =>
      Issuing.issues_onDocument).tryEdit h
  | passing c =>
    -- What is loaded reserves its ids, which changes nothing: the fresh one is beyond them already.
    have hlt : ∀ id ∈ s.document.ids, id.val < s.document.nextId := fun id hid =>
      hfollows.sound.lt_nextId id (hfollows.sound.known id hid)
    have hstore : c.onFile l.store = c.onFile s := congrArg c.onFile h.store
    rw [onLedger, onFile, hstore]
    exact h.keep (congrArg AnnotationId.val (c.freshId_onFile hlt))
  | label x => exact x.rel_onStore (Ledger.simulates_counts first) h
  | labelLocked x locks =>
    have hlocked : Ledger.Counts first (⟨⟨l.store, locks⟩, l.issues⟩ : Ledger (Guarded FileStore))
        ⟨s, locks⟩ := ⟨congrArg (Guarded.mk · locks) h.store, h.lt, h.eq⟩
    have hstep := x.rel_onStore (Ledger.simulates_counts first) hlocked
    exact ⟨congrArg Guarded.store hstep.store, hstep.lt, hstep.eq⟩

/-- The fresh id moves with the ids that are given out through a whole run, by induction over its
steps. -/
theorem counts_run (steps : List FileStep) (hfollows : Ledger.Follows start l s)
    (h : Ledger.Counts first l s) :
    Ledger.Counts first (steps.foldl (fun l step => step.onLedger l) l)
      (steps.foldl (fun s step => step.onFile s) s) := by
  induction steps generalizing l s with
  | nil => exact h
  | cons step rest ih => exact ih (follows_step step hfollows) (counts_step step hfollows h)

/-- **A document stays in words exactly as long as its fresh id is one**, whatever is done to it.
Every id that was given out has a word behind it exactly if the id that is fresh at the end is a
word, and then there is a word behind the greatest id as well, so the document can be loaded. -/
theorem inWords_iff (h : s.Opened) (hfirst : s.document.freshId.val < 2 ^ 64)
    (steps : List FileStep) :
    ((ledger s steps).InWords ↔ (run s steps).document.freshId.val < 2 ^ 64) ∧
      ((run s steps).document.freshId.val < 2 ^ 64 →
        Word.reserveIds (run s steps).document = some (run s steps).document.reserveIds) := by
  have hstart : Ledger.Follows s.document.ids ⟨s, []⟩ s := ⟨rfl, Ledger.sound_start h.lt_nextId⟩
  have hfollows : Ledger.Follows s.document.ids (ledger s steps) (run s steps) :=
    follows_run steps hstart
  have hcounts : Ledger.Counts s.document.freshId.val (ledger s steps) (run s steps) :=
    counts_run steps hstart (Ledger.counts_start s)
  refine ⟨hcounts.inWords_iff hfirst, fun hfresh => ?_⟩
  have hgreatest : (run s steps).document.greatestId < (run s steps).document.freshId.val :=
    Document.greatestId_lt_freshId fun id hid =>
      hfollows.sound.lt_nextId id (hfollows.sound.known id hid)
  exact (Word.reserveIds_eq _).trans (if_pos (Nat.lt_of_le_of_lt hgreatest hfresh))

end FileStep
end PairAnnotation
