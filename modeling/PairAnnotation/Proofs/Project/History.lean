/-
# The history of a project

A project is built by calls: source documents are added, and it is recorded how far a user
is with a document, again and again.  The project can be told from the calls
(`Project.reflects_performAll`).  It has each source document once, in the order in which they
were first added, and one annotation document for each document and user that something was
recorded for, in the order of their first records and with the last one in it.  So the users in
a state are those whose last record has this state (`Project.recorded_read_back`).
-/

import PairAnnotation.Project.Completion
import PairAnnotation.Proofs.Distinct

namespace PairAnnotation

/-! ### Calls -/

/-- A call that changes a project, and when it is made. -/
inductive ProjectCall where
  | addSource (name : String) (now : Timestamp)
  | record (document user : String) (state : WorkState) (now : Timestamp)

namespace ProjectCall

/-- The name of the source document that a call adds. -/
def source? : ProjectCall → Option String
  | addSource name _ => some name
  | record .. => none

/-- The work that a call records, and nothing for a call that adds a source document. -/
def work? : ProjectCall → Option AnnotationDocument
  | addSource .. => none
  | record document user state now => some ⟨document, user, state, now⟩

end ProjectCall

/-- The document and the user that an annotation document is for. -/
def AnnotationDocument.key (a : AnnotationDocument) : String × String := (a.name, a.user)

namespace Project

variable {p : Project} {calls : List ProjectCall} {document user : String} {state : WorkState}
  {now : Timestamp}

/-- The project after a call, as the call with its arguments leaves it. -/
def perform (p : Project) : ProjectCall → Project
  | .addSource name now => (p.addSource name now).2
  | .record document user state now => p.record document user state now

/-- The project after a number of calls, made one after the other. -/
def performAll (p : Project) (calls : List ProjectCall) : Project := calls.foldl perform p

/-- The names of source documents in the order of the calls that add them. -/
def added (calls : List ProjectCall) : List String := calls.filterMap (·.source?)

/-- What calls record, one after the other, with every state that was recorded on the way. -/
def recorded (calls : List ProjectCall) : List AnnotationDocument := calls.filterMap (·.work?)

/-- What was recorded last for a document and a user. -/
def last? (calls : List ProjectCall) (document user : String) : Option AnnotationDocument :=
  ((recorded calls).filter (·.key = (document, user))).getLast?

/-- The state that was recorded last for a document and a user. -/
def lastState? (calls : List ProjectCall) (document user : String) : Option WorkState :=
  (last? calls document user).map (·.state)

/-- The users that something was recorded for on a document, in the order of the first records. -/
def usersRecorded (calls : List ProjectCall) (document : String) : List String :=
  firstOccurrences (((recorded calls).filter (·.name == document)).map (·.user))

/-- **The users whose last record for a document has a state**, in the order of their first records
for it. -/
def usersLeftIn (calls : List ProjectCall) (document : String) (state : WorkState) : List String :=
  (usersRecorded calls document).filter (lastState? calls document · = some state)

/-! ### One call -/

/-- A source document is found by its name exactly if one with this name was added. -/
theorem isSome_source?_iff {name : String} :
    (p.source? name).isSome = true ↔ name ∈ p.sources.map (·.name) := by
  simp [source?, List.find?_isSome]

/-- Entering a state keeps the documents and users in their places, and puts new ones last. -/
theorem map_key_enterState (annotations : List AnnotationDocument) :
    (enterState document user state now annotations).map (·.key) =
      if (document, user) ∈ annotations.map (·.key) then annotations.map (·.key)
      else annotations.map (·.key) ++ [(document, user)] := by
  induction annotations with
  | nil => rfl
  | cons a rest ih =>
    rw [enterState]
    by_cases h : a.name = document ∧ a.user = user
    · obtain ⟨rfl, rfl⟩ := h
      simp [AnnotationDocument.key]
    · have hkey : (document, user) ≠ a.key := fun hkey => h (by simp_all [AnnotationDocument.key])
      rw [if_neg h, List.map_cons, ih, List.map_cons]
      split <;> simp_all

/-- After a state has been entered, there is the new entry, and what was there for other documents
and users. -/
theorem mem_enterState {annotations : List AnnotationDocument} {a : AnnotationDocument}
    (hnodup : (annotations.map (·.key)).Nodup)
    (ha : a ∈ enterState document user state now annotations) :
    a = ⟨document, user, state, now⟩ ∨ a ∈ annotations ∧ a.key ≠ (document, user) := by
  induction annotations with
  | nil => exact .inl (List.mem_singleton.1 ha)
  | cons b rest ih =>
    obtain ⟨hb, hrest⟩ := List.nodup_cons.1 hnodup
    rw [enterState] at ha
    by_cases h : b.name = document ∧ b.user = user
    · obtain ⟨rfl, rfl⟩ := h
      rw [if_pos ⟨rfl, rfl⟩] at ha
      rcases List.mem_cons.1 ha with rfl | ha
      · exact .inl rfl
      · exact .inr ⟨List.mem_cons_of_mem b ha, fun hkey => hb (List.mem_map.2 ⟨a, ha, hkey⟩)⟩
    · rw [if_neg h] at ha
      rcases List.mem_cons.1 ha with rfl | ha
      · refine .inr ⟨List.mem_cons_self, fun hkey => h ?_⟩
        simpa [AnnotationDocument.key] using hkey
      · exact (ih hrest ha).imp_right (And.imp_left (List.mem_cons_of_mem b))

/-- What was added after another call is what was added before, and what the call adds. -/
theorem added_append (c : ProjectCall) :
    added (calls ++ [c]) = added calls ++ c.source?.toList := by
  cases h : c.source? <;> simp [added, h]

/-- What was recorded after another call is what was recorded before, and what the call records. -/
theorem recorded_append (c : ProjectCall) :
    recorded (calls ++ [c]) = recorded calls ++ c.work?.toList := by
  cases h : c.work? <;> simp [recorded, h]

/-- A record for a document and a user is the last one for them. -/
theorem last?_append_record :
    last? (calls ++ [.record document user state now]) document user =
      some ⟨document, user, state, now⟩ := by
  simp [last?, recorded_append, ProjectCall.work?, AnnotationDocument.key]

/-- A call that records nothing for a document and a user leaves the last record for them. -/
theorem last?_append_of_ne {c : ProjectCall} (h : ∀ a ∈ c.work?, a.key ≠ (document, user)) :
    last? (calls ++ [c]) document user = last? calls document user := by
  have hnone : c.work?.toList.filter (·.key = (document, user)) = [] := by
    rw [List.filter_eq_nil_iff]
    exact fun a ha => by simpa using h a (by simpa using ha)
  rw [last?, last?, recorded_append, List.filter_append, hnone, List.append_nil]

/-! ### All calls -/

/-- **What a project shows of the calls it was built by.** -/
structure Reflects (p : Project) (calls : List ProjectCall) : Prop where
  sources : p.sources.map (·.name) = firstOccurrences (added calls)
  keys : p.annotations.map (·.key) = firstOccurrences ((recorded calls).map (·.key))
  last : ∀ a ∈ p.annotations, last? calls a.name a.user = some a

/-- No two source documents of a project have the same name. -/
theorem Reflects.nodup_names (h : p.Reflects calls) : (p.sources.map (·.name)).Nodup := by
  rw [h.sources]
  exact nodup_firstOccurrences _

/-- No two annotation documents of a project have both name and user in common. -/
theorem Reflects.nodup_keys (h : p.Reflects calls) : (p.annotations.map (·.key)).Nodup := by
  rw [h.keys]
  exact nodup_firstOccurrences _

/-- **A call is reflected in the project**: whatever the calls before were, it does to the project
what it says. -/
theorem Reflects.perform (h : p.Reflects calls) (c : ProjectCall) :
    (p.perform c).Reflects (calls ++ [c]) := by
  cases c with
  | addSource name now =>
    have hannotations : (p.perform (.addSource name now)).annotations = p.annotations := by
      rw [Project.perform, addSource]
      split <;> rfl
    refine ⟨?_, ?_, ?_⟩
    · have hsome : (p.source? name).isSome = true ↔ name ∈ added calls := by
        rw [isSome_source?_iff, h.sources, mem_firstOccurrences]
      rw [added_append, ProjectCall.source?, Option.toList_some, firstOccurrences_append_singleton,
        ← h.sources, Project.perform, addSource, ← if_congr hsome rfl rfl]
      split <;> simp
    · rw [hannotations, recorded_append]
      simpa [ProjectCall.work?] using h.keys
    · rw [hannotations]
      intro a ha
      rw [last?_append_of_ne (by simp [ProjectCall.work?]), h.last a ha]
  | record document user state now =>
    refine ⟨?_, ?_, ?_⟩
    · rw [added_append, ProjectCall.source?, Option.toList_none, List.append_nil]
      exact h.sources
    · have hmem : (document, user) ∈ (recorded calls).map (·.key) ↔
          (document, user) ∈ p.annotations.map (·.key) := by
        rw [h.keys, mem_firstOccurrences]
      rw [recorded_append, ProjectCall.work?, Option.toList_some, List.map_append,
        List.map_singleton, firstOccurrences_append_singleton, ← h.keys]
      refine (map_key_enterState p.annotations).trans ?_
      by_cases hold : (document, user) ∈ p.annotations.map (·.key)
      · rw [if_pos hold]
        exact (if_pos (hmem.2 hold)).symm
      · rw [if_neg hold]
        exact (if_neg fun hnew => hold (hmem.1 hnew)).symm
    · intro a ha
      rcases mem_enterState h.nodup_keys ha with rfl | ⟨ha, hkey⟩
      · exact last?_append_record
      · rw [last?_append_of_ne, h.last a ha]
        intro b hb
        obtain rfl : _ = b := Option.some.inj hb
        exact hkey.symm

/-- **A project reflects the calls it was built by**, whatever calls these are and in whatever order
they come. -/
theorem reflects_performAll (id : Uuid) (name : String) (now : Timestamp)
    (calls : List ProjectCall) : ((create id name now).performAll calls).Reflects calls := by
  induction calls using List.reverseRecOn with
  | nil => exact ⟨rfl, rfl, by simp [performAll, create]⟩
  | append_singleton calls c ih =>
    rw [performAll, List.foldl_append]
    exact ih.perform c

/-! ### Reading back -/

/-- A user is listed in a state exactly if this is the last state recorded for the user and the
document. -/
theorem mem_usersLeftIn :
    user ∈ usersLeftIn calls document state ↔ lastState? calls document user = some state := by
  rw [usersLeftIn, List.mem_filter, decide_eq_true_eq, and_iff_right_iff_imp]
  intro hlast
  obtain ⟨a, ha, -⟩ := Option.map_eq_some_iff.1 hlast
  obtain ⟨hmem, hkey⟩ := List.mem_filter.1 (List.mem_of_getLast? ha)
  obtain ⟨hname, huser⟩ : a.name = document ∧ a.user = user := by
    simpa [AnnotationDocument.key] using hkey
  exact mem_firstOccurrences.2
    (List.mem_map.2 ⟨a, List.mem_filter.2 ⟨hmem, beq_iff_eq.2 hname⟩, huser⟩)

/-- Every user is listed once, however often a state was recorded. -/
theorem nodup_usersLeftIn : (usersLeftIn calls document state).Nodup :=
  (nodup_firstOccurrences _).filter _

/-- The users that have an annotation document for a document. -/
theorem Reflects.map_user (h : p.Reflects calls) (document : String) :
    (p.annotationsFor document).map (·.user) = usersRecorded calls document := by
  have hkeys : ∀ l : List AnnotationDocument, (l.filter (·.name == document)).map (·.user) =
      ((l.map (·.key)).filter (·.1 == document)).map Prod.snd := by
    intro l
    rw [List.filter_map, List.map_map]
    rfl
  have hinj : ∀ k k' : String × String, (k.1 == document) = true → (k'.1 == document) = true →
      k.2 = k'.2 → k = k' := by
    intro k k' hk hk' heq
    rw [beq_iff_eq] at hk hk'
    exact Prod.ext (hk.trans hk'.symm) heq
  rw [annotationsFor, usersRecorded, hkeys, hkeys, h.keys, map_filter_firstOccurrences hinj]

/-- **The users in a state are those whose last record has it.** -/
theorem Reflects.usersIn (h : p.Reflects calls) (document : String) (state : WorkState) :
    p.usersIn document state = usersLeftIn calls document state := by
  rw [Project.usersIn, usersLeftIn, ← h.map_user, List.filter_map]
  congr 1
  refine List.filter_congr fun a ha => ?_
  obtain ⟨ha, hname⟩ := List.mem_filter.1 ha
  rw [beq_iff_eq] at hname
  have hlast : lastState? calls document a.user = some a.state := by
    rw [lastState?, ← hname, h.last a ha, Option.map_some]
  simp [hlast, beq_eq_decide]

/-- **The table is told by the history**: a row for each source document in the order in which they
were added, with the users that the last states say. -/
theorem Reflects.completionTable (h : p.Reflects calls) :
    p.completionTable = (firstOccurrences (added calls)).map fun document =>
      ⟨document, usersLeftIn calls document .finished, usersLeftIn calls document .inProgress⟩ := by
  rw [← h.sources, List.map_map, Project.completionTable]
  simp only [h.usersIn]
  rfl

/-- Every annotation document is in one of the four states. -/
theorem sum_count (p : Project) :
    p.count .new + p.count .inProgress + p.count .finished + p.count .ignore =
      p.annotations.length := by
  unfold count
  induction p.annotations with
  | nil => rfl
  | cons a rest ih =>
    have hone : ∀ state, (if (a.state == state) = true then 1 else 0) =
        if a.state = state then 1 else 0 := by simp
    simp only [List.countP_cons, List.length_cons, hone]
    cases a.state <;> simp <;> omega

/-- **What was recorded is read back.**  After any calls on a new project, its source documents have
different names; there is one annotation document for each document and user that something was
recorded for, in the order of the first records, and it is the last record; the users in a state
are, without repetition and in that order, those whose last record has this state, and so they stand
in the completion table; and the annotation documents are those in the four states. -/
theorem recorded_read_back (id : Uuid) (name : String) (now : Timestamp)
    (calls : List ProjectCall) :
    let p := (create id name now).performAll calls
    p.sources.map (·.name) = firstOccurrences (added calls) ∧
      (p.sources.map (·.name)).Nodup ∧
      p.annotations.map (·.key) = firstOccurrences ((recorded calls).map (·.key)) ∧
      (∀ a ∈ p.annotations, last? calls a.name a.user = some a) ∧
      (∀ document state,
        p.usersIn document state = usersLeftIn calls document state ∧
          (p.usersIn document state).Nodup ∧
          ∀ user, user ∈ p.usersIn document state ↔
            lastState? calls document user = some state) ∧
      (p.completionTable = (firstOccurrences (added calls)).map fun document =>
        ⟨document, usersLeftIn calls document .finished,
          usersLeftIn calls document .inProgress⟩) ∧
      p.stats.new + p.stats.inProgress + p.stats.finished + p.stats.ignored =
        p.stats.annotationDocuments := by
  intro p
  have h : p.Reflects calls := reflects_performAll id name now calls
  refine ⟨h.sources, h.nodup_names, h.keys, h.last, fun document state => ?_, h.completionTable,
    sum_count p⟩
  rw [h.usersIn]
  exact ⟨rfl, nodup_usersLeftIn, fun user => mem_usersLeftIn⟩

end Project
end PairAnnotation
