/-
# Ids that a store gives out

A store is watched through a ledger (`Ledger`), which enters every id that the store
gives out, together with the ids that stood in the document at that moment.  The ledger
is a store of its own and only looks on: every change is answered as it is answered
without it.

An edit of a document either gives out the fresh id (`Document.Issues`) or brings no id
(`Document.NoNewIds`).  So the next id stays beyond all ids that there have been, those
of annotations that are gone included, and no id is ever given out again
(`Ledger.Sound`).  A lawful store under a ledger and without it cannot be told apart
while this holds (`Ledger.simulates`), and so it holds after a label as well, whether
the label was accepted or rolled back.
-/

import PairAnnotation.Proofs.Writer.Simulation

namespace PairAnnotation

namespace Document

/-! ### Edits and ids -/

/-- **No id comes in**: what is left are ids that were there, and the next id is no smaller. -/
structure NoNewIds (d d' : Document) : Prop where
  ids : d'.ids.Sublist d.ids
  nextId_le : d.nextId ≤ d'.nextId

theorem NoNewIds.refl (d : Document) : d.NoNewIds d := ⟨.refl _, Nat.le_refl _⟩

/-- **An id is given out**: the fresh one comes in, and the next id is the one after it. -/
structure Issues (d : Document) (id : AnnotationId) (d' : Document) : Prop where
  id_eq : id = d.freshId
  ids : d'.ids.Perm (id :: d.ids)
  nextId : d'.nextId = id.val + 1

variable {d d' : Document} {id : AnnotationId}

theorem issues_insertSpan (d : Document) (layer : String) (span : Span)
    (features : FeatureMap String) :
    d.Issues (d.insertSpan layer span features).1 (d.insertSpan layer span features).2 :=
  ⟨rfl, d.ids_insertSpan layer span features, rfl⟩

/-- Adding a relation gives out the fresh id, with a label or without one. -/
theorem issues_insertRelation (d : Document) (layer : String) (dependent governor : AnnotationId)
    (labelFeature : String) (label : Option String) :
    d.Issues (d.insertRelation layer dependent governor labelFeature label).1
      (d.insertRelation layer dependent governor labelFeature label).2 :=
  ⟨rfl, d.ids_insertRelation layer dependent governor labelFeature label, rfl⟩

/-- A span that is accepted is given the fresh id. -/
theorem issues_of_addSpan {layer : String} {span : Span} (h : d.addSpan layer span = .ok (id, d')) :
    d.Issues id d' := by
  obtain ⟨-, hinsert⟩ := eq_insertSpan_of_addSpan h
  have hissues := d.issues_insertSpan layer span FeatureMap.empty
  rwa [hinsert] at hissues

/-- A relation that is accepted is given the fresh id. -/
theorem issues_of_addRelation {layer : String} {dependent governor : AnnotationId}
    (h : d.addRelation layer dependent governor = .ok (id, d')) : d.Issues id d' := by
  obtain ⟨rfl, rfl⟩ := eq_insertRelation_of_addRelation h
  exact d.issues_insertRelation layer dependent governor "" none

/-- A feature is set on an annotation that is there, and no id changes. -/
theorem noNewIds_of_setFeature {feature value : String}
    (h : d.setFeature id feature value = .ok d') : d.NoNewIds d' := by
  unfold setFeature at h
  split at h
  · cases h
    refine ⟨List.Sublist.append_left ?_ _, Nat.le_refl _⟩
    dsimp only
    rw [map_changeFirst]
    exact fun _ => rfl
  · split at h
    · cases h
      refine ⟨List.Sublist.append_right ?_ _, Nat.le_refl _⟩
      dsimp only
      rw [map_changeFirst]
      exact fun _ => rfl
    · cases h

/-- A deletion brings no id: what is left had its ids before. -/
theorem noNewIds_of_delete (h : d.delete id = .ok d') : d.NoNewIds d' := by
  rw [eq_without_of_delete h]
  exact ⟨(List.filter_sublist.map _).append (List.filter_sublist.map _), Nat.le_refl _⟩

end Document

/-! ### Ledgers -/

/-- An id that was given out, and the ids that stood in the document at that moment. -/
structure Issue where
  id : AnnotationId
  present : List AnnotationId

/-- A store, and the ids that it gave out so far, the last one at the end. -/
structure Ledger (σ : Type) where
  store : σ
  issues : List Issue := []

namespace Ledger

variable {σ : Type}

/-- The ids that were given out, in the order in which that happened. -/
def issued (l : Ledger σ) : List AnnotationId := l.issues.map (·.id)

/-- A change that gives out no id, made without an entry in the ledger. -/
def passing {α : Type} (e : Edit σ α) : Edit (Ledger σ) α :=
  .of fun l =>
    let (outcome, store) := e.apply l.store
    (outcome, { l with store })

/-- A change that passes is answered as it is without the ledger, and nothing is entered. -/
theorem apply_passing {α : Type} {e : Edit σ α} {l : Ledger σ} {outcome : Except StoreError α}
    {s : σ} (h : e.apply l.store = (outcome, s)) :
    (passing e).apply l = (outcome, { l with store := s }) := by
  rw [passing, Edit.apply_of, h]

variable [AnnotationStore σ]

/-- A change whose answer is an id that is given out. -/
def recording (e : Edit σ AnnotationId) : Edit (Ledger σ) AnnotationId :=
  .of fun l =>
    match e.apply l.store with
    | (.ok id, store) =>
      (.ok id, ⟨store, l.issues ++ [⟨id, (AnnotationStore.document l.store).ids⟩]⟩)
    | (.error cause, store) => (.error cause, { l with store })

/-- An id that is given out is entered, together with the ids that stood in the document before. -/
theorem apply_recording_of_ok {e : Edit σ AnnotationId} {l : Ledger σ} {id : AnnotationId} {s : σ}
    (h : e.apply l.store = (.ok id, s)) :
    (recording e).apply l =
      (.ok id, ⟨s, l.issues ++ [⟨id, (AnnotationStore.document l.store).ids⟩]⟩) := by
  rw [recording, Edit.apply_of, h]

theorem apply_recording_of_error {e : Edit σ AnnotationId} {l : Ledger σ} {cause : StoreError}
    {s : σ} (h : e.apply l.store = (.error cause, s)) :
    (recording e).apply l = (.error cause, { l with store := s }) := by
  rw [recording, Edit.apply_of, h]

instance : AnnotationStore (Ledger σ) where
  document l := AnnotationStore.document l.store
  addSpan layer span := recording (AnnotationStore.addSpan layer span)
  addRelation layer dependent governor :=
    recording (AnnotationStore.addRelation layer dependent governor)
  setFeature id feature value := passing (AnnotationStore.setFeature id feature value)
  delete id := passing (AnnotationStore.delete id)
  write := passing AnnotationStore.write

/-- **What is true of all ids there have been**, when the ids `start` stood in the document at
first: they are below the next one, each annotation has one of them, and none was given out that
stood in the document then, had stood there at first, or had been given out before. -/
structure Sound (start : List AnnotationId) (issues : List Issue) (d : Document) : Prop where
  lt_nextId : ∀ id ∈ start ++ issues.map (·.id), id.val < d.nextId
  known : ∀ id ∈ d.ids, id ∈ start ++ issues.map (·.id)
  nodup : (issues.map (·.id)).Nodup
  fresh : ∀ i ∈ issues, i.id ∉ start ∧ i.id ∉ i.present
  distinct : start.Nodup → d.ids.Nodup ∧ ∀ i ∈ issues, i.present.Nodup

variable {start : List AnnotationId} {issues : List Issue} {d d' : Document}

/-- Nothing was given out yet, and every id that is there is below the next one. -/
theorem sound_start (h : ∀ id ∈ d.ids, id.val < d.nextId) : Sound d.ids [] d where
  lt_nextId id hid := h id (by simpa using hid)
  known id hid := by simpa using hid
  nodup := List.nodup_nil
  fresh := by simp
  distinct hnodup := ⟨hnodup, by simp⟩

/-- What is true of all ids there have been stays true when no id comes in. -/
theorem Sound.noNewIds (h : Sound start issues d) (hd : d.NoNewIds d') :
    Sound start issues d' where
  lt_nextId id hid := Nat.lt_of_lt_of_le (h.lt_nextId id hid) hd.nextId_le
  known id hid := h.known id (hd.ids.subset hid)
  nodup := h.nodup
  fresh := h.fresh
  distinct hstart := ⟨(h.distinct hstart).1.sublist hd.ids, (h.distinct hstart).2⟩

/-- **The fresh id has never been given out**: all ids there have been are below the next one. -/
theorem Sound.issue (h : Sound start issues d) {id : AnnotationId} (hd : d.Issues id d') :
    Sound start (issues ++ [⟨id, d.ids⟩]) d' := by
  -- All ids there have been are below the next one, which the fresh id is not.
  have hlt : ∀ id' ∈ start ++ issues.map (·.id), id'.val < id.val := fun id' hid' =>
    Nat.lt_of_lt_of_le (h.lt_nextId id' hid') (hd.id_eq ▸ d.nextId_le_freshId)
  have hnew : id ∉ start ++ issues.map (·.id) := fun hid => Nat.lt_irrefl _ (hlt id hid)
  have habsent : id ∉ d.ids := fun hid => hnew (h.known id hid)
  obtain ⟨hstart, hissues⟩ := not_or.1 (mt List.mem_append.2 hnew)
  have hmap : (issues ++ [Issue.mk id d.ids]).map (·.id) = issues.map (·.id) ++ [id] := by
    rw [List.map_append, List.map_singleton]
  constructor
  · intro id' hid'
    rw [hmap, ← List.append_assoc, List.mem_append, List.mem_singleton] at hid'
    rw [hd.nextId]
    rcases hid' with hid' | rfl
    · exact Nat.lt_succ_of_lt (hlt id' hid')
    · exact Nat.lt_succ_self _
  · intro id' hid'
    rw [hmap, ← List.append_assoc, List.mem_append, List.mem_singleton]
    rcases List.mem_cons.1 (hd.ids.mem_iff.1 hid') with rfl | hid'
    · exact .inr rfl
    · exact .inl (h.known id' hid')
  · rw [hmap]
    exact List.nodup_append.2 ⟨h.nodup, List.nodup_singleton id, fun a ha b hb hab =>
      hissues (by rwa [hab, List.mem_singleton.1 hb] at ha)⟩
  · intro i hi
    rcases List.mem_append.1 hi with hi | hi
    · exact h.fresh i hi
    · rw [List.mem_singleton.1 hi]
      exact ⟨hstart, habsent⟩
  · intro hdistinct
    obtain ⟨hids, hpresent⟩ := h.distinct hdistinct
    refine ⟨hd.ids.nodup_iff.2 (List.nodup_cons.2 ⟨habsent, hids⟩), fun i hi => ?_⟩
    rcases List.mem_append.1 hi with hi | hi
    · exact hpresent i hi
    · rw [List.mem_singleton.1 hi]
      exact hids

/-! ### Looking on -/

/-- A ledger looks on at a store, and nothing was given out twice. -/
structure Follows (start : List AnnotationId) (l : Ledger σ) (s : σ) : Prop where
  store : l.store = s
  sound : Sound start l.issues (AnnotationStore.document s)

/-- A change that brings no id, be it accepted or refused. -/
def BringsNoId {α : Type} (e : Edit σ α) : Prop :=
  ∀ s, (AnnotationStore.document s).NoNewIds (AnnotationStore.document (e.apply s).2)

/-- A change brings no id if its document's change brings none, since a refused one leaves the
document alone. -/
theorem bringsNoId_of_follows {α : Type} {e : Edit σ α}
    {f : Document → Except StoreError (α × Document)} (hf : FollowsDocument e f)
    (hnone : ∀ d a d', f d = .ok (a, d') → d.NoNewIds d') : BringsNoId e := by
  intro s
  rcases happly : e.apply s with ⟨cause | a, s'⟩
  · rw [(hf s s').2 cause happly]
    exact .refl _
  · exact hnone _ a _ ((hf s s').1 a happly)

section

variable [LawfulStore σ]

/-- Setting a feature of an annotation brings no id, since the annotation keeps its own. -/
theorem bringsNoId_setFeature (id : AnnotationId) (feature value : String) :
    BringsNoId (σ := σ) (AnnotationStore.setFeature id feature value) :=
  bringsNoId_of_follows (LawfulStore.setFeature id feature value) fun _ _ _ h =>
    Document.noNewIds_of_setFeature (eq_ok_of_map_unit h)

theorem bringsNoId_delete (id : AnnotationId) :
    BringsNoId (σ := σ) (AnnotationStore.delete id) :=
  bringsNoId_of_follows (LawfulStore.delete id) fun _ _ _ h =>
    Document.noNewIds_of_delete (eq_ok_of_map_unit h)

theorem bringsNoId_write : BringsNoId (σ := σ) AnnotationStore.write :=
  bringsNoId_of_follows LawfulStore.write fun d _ _ h => by
    cases h
    exact .refl d

end

/-- A change that brings no id is one that passes. -/
theorem matches_passing {α : Type} {e : Edit σ α} (h : BringsNoId e) :
    Edit.Matches (Follows start) (passing e) e := by
  rintro l s ⟨rfl, hsound⟩
  exact ⟨_, _, _, apply_passing rfl, rfl, rfl, hsound.noNewIds (h l.store)⟩

/-- A change that answers with the fresh id is one that is recorded. -/
theorem matches_recording {e : Edit σ AnnotationId}
    {f : Document → Except StoreError (AnnotationId × Document)} (hf : FollowsDocument e f)
    (hissues : ∀ d id d', f d = .ok (id, d') → d.Issues id d') :
    Edit.Matches (Follows start) (recording e) e := by
  rintro l s ⟨rfl, hsound⟩
  rcases happly : e.apply l.store with ⟨cause | id, s'⟩
  · have hd := (hf l.store s').2 cause happly
    exact ⟨_, _, s', apply_recording_of_error happly, rfl, rfl, hd ▸ hsound⟩
  · have hd := hissues _ id _ ((hf l.store s').1 id happly)
    exact ⟨_, _, s', apply_recording_of_ok happly, rfl, rfl, hsound.issue hd⟩

/-- **A lawful store gives out no id twice**, and it cannot be told from the same store under a
ledger. -/
theorem simulates [LawfulStore σ] (start : List AnnotationId) :
    Simulates (Follows (σ := σ) start) where
  document h := congrArg AnnotationStore.document h.store
  addSpan layer span :=
    matches_recording (LawfulStore.addSpan layer span) fun _ _ _ => Document.issues_of_addSpan
  addRelation layer dependent governor :=
    matches_recording (LawfulStore.addRelation layer dependent governor) fun _ _ _ =>
      Document.issues_of_addRelation
  setFeature id feature value := matches_passing (bringsNoId_setFeature id feature value)
  delete id := matches_passing (bringsNoId_delete id)
  write := matches_passing bringsNoId_write

end Ledger
end PairAnnotation
