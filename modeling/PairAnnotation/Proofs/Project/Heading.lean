/-
# The heading over a completion table

The program shows how far a project is in two ways, one above the other: the heading counts the
annotation documents in a state, and the table lists the users in this state, one source document
after the other.  So the heading counts an annotation document that the table leaves out, if there
is no source document of its name (`Project.count_eq_sum`).  Nothing keeps a project from having
such annotation documents, and exactly if it has none in the states of the table, the two ways
agree (`Project.headingAgrees_iff`).
-/

import Mathlib.Algebra.Ring.Nat
import PairAnnotation.Program
import PairAnnotation.Proofs.Project.History

namespace PairAnnotation

/-- **Counting key by key**: what has a property is counted under its key, if this is among the
keys, or else among the rest. -/
theorem countP_eq_sum_add {α β : Type} [DecidableEq β] (f : α → β) {keys : List β}
    (hkeys : keys.Nodup) (q : α → Bool) (l : List α) :
    l.countP q = (keys.map fun k => l.countP fun a => q a && f a = k).sum +
      l.countP fun a => q a && f a ∉ keys := by
  induction keys generalizing q with
  | nil => simp
  | cons k keys ih =>
    obtain ⟨hk, hkeys⟩ := List.nodup_cons.1 hkeys
    -- What is not under the first key is counted key by key.
    have hothers := ih hkeys fun a => q a && f a ≠ k
    have hsum : ∀ k' ∈ keys, (l.countP fun a => (q a && f a ≠ k) && f a = k') =
        l.countP fun a => q a && f a = k' := by
      intro k' hk'
      have hne : k' ≠ k := fun h => hk (h ▸ hk')
      refine List.countP_congr fun a _ => ?_
      simp only [Bool.and_eq_true, decide_eq_true_eq]
      exact ⟨fun ⟨⟨hq, _⟩, hf⟩ => ⟨hq, hf⟩, fun ⟨hq, hf⟩ => ⟨⟨hq, hf ▸ hne⟩, hf⟩⟩
    have hrest : (l.countP fun a => (q a && f a ≠ k) && f a ∉ keys) =
        l.countP fun a => q a && f a ∉ k :: keys := by
      refine List.countP_congr fun a _ => ?_
      simp [and_assoc]
    rw [List.map_congr_left hsum, hrest] at hothers
    rw [List.map_cons, List.sum_cons, Nat.add_assoc, ← hothers,
      List.countP_eq_countP_filter_add l q (f · = k), List.countP_filter, List.countP_filter]
    simp

namespace Project

variable {p : Project} {calls : List ProjectCall} {document user : String} {state : WorkState}

/-- The annotation documents in a state for which there is no source document. -/
def stray (p : Project) (state : WorkState) : List AnnotationDocument :=
  p.annotations.filter fun a => a.state = state ∧ a.name ∉ p.sources.map (·.name)

/-- The number of users that the table lists in a column, all rows together. -/
def listed (p : Project) (column : DocumentCompletion → List String) : Nat :=
  (p.completionTable.map fun row => (column row).length).sum

/-- **The heading agrees with the table**: it counts the users that the table lists. -/
structure HeadingAgrees (p : Project) : Prop where
  finished : p.stats.finished = p.listed (·.finished)
  inProgress : p.stats.inProgress = p.listed (·.inProgress)

instance (p : Project) : Decidable p.HeadingAgrees :=
  decidable_of_iff
    (p.stats.finished = p.listed (·.finished) ∧ p.stats.inProgress = p.listed (·.inProgress))
    ⟨fun ⟨finished, inProgress⟩ => ⟨finished, inProgress⟩, fun h => ⟨h.finished, h.inProgress⟩⟩

/-- An annotation document is stray exactly if it has the state and no source document has its
name. -/
theorem mem_stray {a : AnnotationDocument} :
    a ∈ p.stray state ↔
      a ∈ p.annotations ∧ a.state = state ∧ a.name ∉ p.sources.map (·.name) := by
  rw [stray, List.mem_filter, decide_eq_true_eq]

/-- As many users are listed for a document in a state as there are annotation documents of this
name in that state. -/
theorem length_usersIn (p : Project) (document : String) (state : WorkState) :
    (p.usersIn document state).length =
      p.annotations.countP fun a => a.state == state && a.name = document := by
  rw [usersIn, annotationsFor, List.length_map, List.filter_filter, List.countP_eq_length_filter]
  rfl

/-- **The annotation documents in a state** are those that the users of the source documents have,
and the stray ones. -/
theorem count_eq_sum (h : (p.sources.map (·.name)).Nodup) (state : WorkState) :
    p.count state = (p.sources.map fun s => (p.usersIn s.name state).length).sum +
      (p.stray state).length := by
  have hstray : (p.stray state).length =
      p.annotations.countP fun a => a.state == state && a.name ∉ p.sources.map (·.name) := by
    rw [stray, ← List.countP_eq_length_filter]
    exact List.countP_congr fun a _ => by simp
  rw [count, countP_eq_sum_add (·.name) h, List.map_map, hstray]
  simp only [length_usersIn]
  rfl

/-- There is no stray annotation document in a state exactly if every document with this state as
the last one of a user was added. -/
theorem Reflects.stray_eq_nil_iff (h : p.Reflects calls) (state : WorkState) :
    p.stray state = [] ↔
      ∀ document user, lastState? calls document user = some state → document ∈ added calls := by
  have hadded : ∀ name, name ∈ p.sources.map (·.name) ↔ name ∈ added calls := by
    intro name
    rw [h.sources, mem_firstOccurrences]
  rw [List.eq_nil_iff_forall_not_mem]
  constructor
  · intro hnone document user hlast
    by_contra hnot
    rw [← mem_usersLeftIn, ← h.usersIn] at hlast
    obtain ⟨a, ha, -⟩ := List.mem_map.1 hlast
    obtain ⟨ha, hstate⟩ := List.mem_filter.1 ha
    obtain ⟨ha, hname⟩ := List.mem_filter.1 ha
    rw [beq_iff_eq] at hstate hname
    refine hnone a (mem_stray.2 ⟨ha, hstate, ?_⟩)
    rwa [hname, hadded]
  · intro hall a ha
    obtain ⟨ha, hstate, hname⟩ := mem_stray.1 ha
    rw [hadded] at hname
    refine hname (hall a.name a.user ?_)
    rw [lastState?, h.last a ha, Option.map_some, hstate]

/-- **The finished ones that the heading counts** are those that the table lists and those that are
stray. -/
theorem stats_finished (h : (p.sources.map (·.name)).Nodup) :
    p.stats.finished = p.listed (·.finished) + (p.stray .finished).length := by
  rw [listed, completionTable, List.map_map]
  exact count_eq_sum h .finished

/-- The ones in progress that the heading counts are those that the table lists and those that are
stray. -/
theorem stats_inProgress (h : (p.sources.map (·.name)).Nodup) :
    p.stats.inProgress = p.listed (·.inProgress) + (p.stray .inProgress).length := by
  rw [listed, completionTable, List.map_map]
  exact count_eq_sum h .inProgress

/-- The heading that goes above a table: the name of the project and the three counts. -/
def headingText (name : String) (documents finished inProgress : Nat) : String :=
  name ++ ": " ++ toString documents ++ " documents, " ++ toString finished ++ " finished, "
    ++ toString inProgress ++ " in progress\n"

/-- **The heading agrees with the table exactly if no work is stray.**  After any calls on a new
project, the heading counts the users that the table lists in a state and, on top of these, the
annotation documents for which there is no source document.  So the two agree exactly if every
document that some user has finished or is at work on, by the last record, was added.  What the
program prints over the table is the table's numbers and the stray ones. -/
theorem headingAgrees_iff (id : Uuid) (name : String) (now : Timestamp)
    (calls : List ProjectCall) :
    let p := (create id name now).performAll calls
    p.stats.finished = p.listed (·.finished) + (p.stray .finished).length ∧
      p.stats.inProgress = p.listed (·.inProgress) + (p.stray .inProgress).length ∧
      (p.HeadingAgrees ↔ ∀ document user state, state = .finished ∨ state = .inProgress →
        lastState? calls document user = some state → document ∈ added calls) ∧
      ∀ s path, load s.disk path = .ok p →
        (Program.monitor s path).output =
          headingText p.name p.completionTable.length
              (p.listed (·.finished) + (p.stray .finished).length)
              (p.listed (·.inProgress) + (p.stray .inProgress).length) ++
            CompletionTable.render p.completionTable := by
  intro p
  have h : p.Reflects calls := reflects_performAll id name now calls
  have hfinished := stats_finished h.nodup_names
  have hinProgress := stats_inProgress h.nodup_names
  refine ⟨hfinished, hinProgress, ⟨?_, fun hall => ⟨?_, ?_⟩⟩, fun s path hload => ?_⟩
  · rintro ⟨hf, hi⟩ document user state (rfl | rfl) hlast
    · exact (h.stray_eq_nil_iff .finished).1 (List.eq_nil_of_length_eq_zero (by omega)) document
        user hlast
    · exact (h.stray_eq_nil_iff .inProgress).1 (List.eq_nil_of_length_eq_zero (by omega)) document
        user hlast
  · have hnone := (h.stray_eq_nil_iff .finished).2 fun document user =>
      hall document user _ (.inl rfl)
    rw [hfinished, hnone, List.length_nil, Nat.add_zero]
  · have hnone := (h.stray_eq_nil_iff .inProgress).2 fun document user =>
      hall document user _ (.inr rfl)
    rw [hinProgress, hnone, List.length_nil, Nat.add_zero]
  · rw [Program.monitor, hload, ← hfinished, ← hinProgress, completionTable, List.length_map]
    rfl

/-- Work on a document that was not added is counted in the heading, and is not in the table. -/
theorem heading_disagrees_unknown :
    let p := (create ⟨List.replicate 32 0⟩ "essays" default).performAll
      [.record "a.xmi" "ana" .finished default]
    p.stats.finished = 1 ∧ p.completionTable = [] ∧ ¬ p.HeadingAgrees := by
  decide

end Project
end PairAnnotation
