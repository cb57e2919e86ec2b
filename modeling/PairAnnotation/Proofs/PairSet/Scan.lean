/-
# What a scan of relations finds

Whatever the policy, the pairs that a scan lists are the pairs of the edges it read
(`mem_order_scanRelations`), both members of each are indices of segments
(`RelationAnnotation.high_lt_of_edge?`), and every pair it takes to be completed is
among those it lists (`order_of_completed`).  So the pairs that a session starts with
are completed only where they are offered.
-/

import Mathlib.Data.List.Induction
import PairAnnotation.PairSet.Scan
import PairAnnotation.Proofs.PairSet.Candidates
import PairAnnotation.Proofs.Segments

namespace PairAnnotation

/-- A place in a list with one more element at its end is a place in the list or that end. -/
theorem exists_split_append_singleton {α : Type} {init : List α} {last : α}
    {At : List α → α → Prop} :
    (∃ before a after, init ++ [last] = before ++ a :: after ∧ At before a) ↔
      (∃ before a after, init = before ++ a :: after ∧ At before a) ∨ At init last := by
  constructor
  · rintro ⟨before, a, after, hsplit, h⟩
    rcases List.eq_nil_or_concat after with rfl | ⟨after', last', rfl⟩
    · obtain ⟨rfl, hlast⟩ := List.append_inj' hsplit rfl
      obtain rfl : last = a := List.singleton_inj.1 hlast
      exact .inr h
    · rw [List.concat_eq_append, ← List.cons_append, ← List.append_assoc] at hsplit
      obtain ⟨rfl, -⟩ := List.append_inj' hsplit rfl
      exact .inl ⟨before, a, after', rfl, h⟩
  · rintro (⟨before, a, after, rfl, h⟩ | h)
    · exact ⟨before, a, after ++ [last], by simp, h⟩
    · exact ⟨init, last, [], rfl, h⟩

variable {segments : SegmentList}

namespace RelationAnnotation

/-- A relation is an edge exactly if it is read as one: both ends are segments, and they are
different. -/
theorem edge?_eq_some_iff {r : RelationAnnotation} {e : Edge} :
    r.edge? segments = some e ↔ r.reading segments = .edge e := by
  unfold edge?
  split
  · rename_i h
    simp [h]
  · rename_i h
    exact ⟨fun h' => (Option.some_ne_none e h'.symm).elim, fun h' => (h e h').elim⟩

/-- The members of an edge's pair are indices of segments. -/
theorem high_lt_of_edge? {r : RelationAnnotation} {e : Edge} (h : r.edge? segments = some e) :
    e.pair.high < segments.length := by
  rw [edge?_eq_some_iff, reading] at h
  split at h
  · rename_i dependent governor hd hg
    have hd := SegmentList.lt_length_of_indexOf? hd
    have hg := SegmentList.lt_length_of_indexOf? hg
    split at h
    · cases h
    · rename_i pair hpair
      injection h with h
      subst h
      rcases Pair.of?_eq_some_iff.1 hpair with h | h <;> dsimp only <;> omega
  · cases h

end RelationAnnotation

namespace Scan

open RelationAnnotation (edge?_eq_some_iff)

variable {policy : DuplicatePolicy} {s : Scan} {p : Pair}

/-! ### One relation -/

@[simp]
theorem completed_enter (s : Scan) (e : Edge) : (s.enter e).completed = s.completed := rfl

/-- An edge that is entered brings its pair, and no other. -/
theorem mem_order_enter {e : Edge} : p ∈ (s.enter e).order ↔ p ∈ s.order ∨ p = e.pair := by
  unfold enter
  dsimp only
  split
  · rename_i h
    refine ⟨.inl, ?_⟩
    rintro (h' | rfl)
    · exact h'
    · simpa using h
  · simp

/-- Noting a repetition brings no pair; it leaves a warning at most. -/
theorem order_noteRepetition (s : Scan) (e : Edge) : (s.noteRepetition e).order = s.order := by
  unfold noteRepetition
  split <;> rfl

theorem completed_noteRepetition (s : Scan) (e : Edge) :
    (s.noteRepetition e).completed = s.completed := by
  unfold noteRepetition
  split <;> rfl

/-- Where the first edge decides, an edge brings the pair that it brings under any policy. -/
theorem order_addAdjacent (s : Scan) (e : Edge) : (s.addAdjacent e).order = (s.enter e).order := by
  unfold addAdjacent
  split
  · rfl
  · split
    · rfl
    · simp only [enter, order_noteRepetition]

/-- Where the first edge decides, an edge completes its own pair at most. -/
theorem mem_completed_addAdjacent {e : Edge} (h : p ∈ (s.addAdjacent e).completed) :
    p ∈ s.completed ∨ p = e.pair := by
  unfold addAdjacent at h
  split at h
  · dsimp only at h
    split at h
    · simpa using h
    · exact .inl h
  · split at h
    · simpa using h
    · rw [completed_enter, completed_noteRepetition] at h
      exact .inl h

/-- A relation that is an edge brings its pair, whichever policy decides. -/
theorem order_add_of_edge {r : RelationAnnotation} {e : Edge} (h : r.edge? segments = some e) :
    (add policy segments s r).order = (s.enter e).order := by
  rw [add, edge?_eq_some_iff.1 h]
  cases policy with
  | adjacent => exact order_addAdjacent s e
  | lastWriteWins => simp only [enter, order_noteRepetition]

/-- A relation that is no edge brings no pair. -/
theorem order_add_of_no_edge {r : RelationAnnotation} (h : r.edge? segments = none) :
    (add policy segments s r).order = s.order := by
  cases hr : r.reading segments with
  | stray => simp [add, hr, skip]
  | loop segment => simp [add, hr, skip]
  | edge e =>
    rw [edge?_eq_some_iff.2 hr] at h
    cases h

/-- **A relation that is an edge enters its pair**, any other one enters nothing. -/
theorem mem_order_add {r : RelationAnnotation} :
    p ∈ (add policy segments s r).order ↔
      p ∈ s.order ∨ ∃ e, r.edge? segments = some e ∧ e.pair = p := by
  cases h : r.edge? segments with
  | none => simp [order_add_of_no_edge h]
  | some e => simp [order_add_of_edge h, mem_order_enter, eq_comm]

/-- **A relation completes the pair of its two ends at most**, and none if it is no edge. -/
theorem mem_completed_add {r : RelationAnnotation}
    (h : p ∈ (add policy segments s r).completed) :
    p ∈ s.completed ∨ ∃ e, r.edge? segments = some e ∧ e.pair = p := by
  unfold add at h
  simp only [edge?_eq_some_iff]
  cases hr : r.reading segments with
  | stray => exact .inl (by simpa [hr, skip] using h)
  | loop segment => exact .inl (by simpa [hr, skip] using h)
  | edge e =>
    rw [hr] at h
    cases policy with
    | adjacent =>
      rcases mem_completed_addAdjacent h with h | rfl
      · exact .inl h
      · exact .inr ⟨e, rfl, rfl⟩
    | lastWriteWins =>
      dsimp only at h
      rw [completed_enter, completed_noteRepetition] at h
      exact .inl h

/-! ### All relations -/

/-- **A scan lists the pairs of its edges** in the order of their first occurrences. -/
theorem order_foldl (relations : List RelationAnnotation) :
    (relations.foldl (add policy segments) {}).order =
      firstOccurrences ((relations.filterMap (·.edge? segments)).map (·.pair)) := by
  induction relations using List.reverseRecOn with
  | nil => rfl
  | append_singleton before r ih =>
    rw [List.foldl_append, List.foldl_cons, List.foldl_nil, List.filterMap_append]
    cases h : r.edge? segments with
    | none => simp [order_add_of_no_edge h, h, ih]
    | some e =>
      have hlist : List.filterMap (·.edge? segments) [r] = [e] := by simp [h]
      rw [order_add_of_edge h, hlist, List.map_append, List.map_singleton,
        firstOccurrences_append_singleton, enter, ih]
      simp only [List.contains_iff_mem, mem_firstOccurrences]

/-- The pairs of a scan are those of the edges that were read. -/
theorem mem_order_foldl {relations : List RelationAnnotation} :
    p ∈ (relations.foldl (add policy segments) {}).order ↔
      ∃ e ∈ relations.filterMap (·.edge? segments), e.pair = p := by
  rw [order_foldl, mem_firstOccurrences, List.mem_map]

/-- Completed pairs stay among the listed ones along a scan. -/
theorem order_of_completed_foldl {relations : List RelationAnnotation}
    (h : ∀ p ∈ s.completed, p ∈ s.order) :
    ∀ p ∈ (relations.foldl (add policy segments) s).completed,
      p ∈ (relations.foldl (add policy segments) s).order := by
  induction relations generalizing s with
  | nil => exact h
  | cons r rest ih =>
    refine ih fun p hp => ?_
    rw [mem_order_add]
    rcases mem_completed_add hp with hp | hp
    · exact .inl (h p hp)
    · exact .inr hp

end Scan

/-- An edge that no later one replaces is one of the edges. -/
theorem mem_of_mem_lastEdges {e : Edge} {edges : List Edge} (h : e ∈ lastEdges edges) :
    e ∈ edges := by
  induction edges with
  | nil => exact h
  | cons a rest ih =>
    rw [lastEdges] at h
    split at h
    · exact List.mem_cons_of_mem _ (ih h)
    · rcases List.mem_cons.1 h with rfl | h
      · exact List.mem_cons_self
      · exact List.mem_cons_of_mem _ (ih h)

variable {relations : List RelationAnnotation} {policy : DuplicatePolicy} {p : Pair}

/-- **The pairs a scan lists are those of the edges.** -/
theorem mem_order_scanRelations :
    p ∈ (scanRelations relations segments policy).order ↔
      ∃ e ∈ relations.filterMap (·.edge? segments), e.pair = p := by
  have h : (scanRelations relations segments policy).order =
      (relations.foldl (Scan.add policy segments) {}).order := by
    cases policy <;> rfl
  rw [h, Scan.mem_order_foldl]

/-- **What a scan takes to be completed, it lists**, since a pair is completed by edges that are
entered. -/
theorem order_of_completed (h : p ∈ (scanRelations relations segments policy).completed) :
    p ∈ (scanRelations relations segments policy).order := by
  cases policy with
  | adjacent => exact Scan.order_of_completed_foldl (by simp) p h
  | lastWriteWins =>
    obtain ⟨e, he, rfl⟩ := List.mem_map.1 h
    obtain ⟨he, -⟩ := List.mem_filter.1 he
    exact mem_order_scanRelations.2 ⟨e, mem_of_mem_lastEdges he, rfl⟩

/-- Both members of a scanned pair are indices of segments. -/
theorem high_lt_of_mem_order (h : p ∈ (scanRelations relations segments policy).order) :
    p.high < segments.length := by
  obtain ⟨e, he, rfl⟩ := mem_order_scanRelations.1 h
  obtain ⟨r, -, hr⟩ := List.mem_filterMap.1 he
  exact RelationAnnotation.high_lt_of_edge? hr

/-! ### The pair sets of a document -/

namespace PairSet

/-- The candidates of an enumeration are the pairs that the scan has met. -/
theorem mem_toList_enumerate :
    p ∈ (enumerate relations segments policy).1.toList ↔
      p ∈ (scanRelations relations segments policy).order :=
  mem_firstOccurrences

/-- The candidates of a full enumeration are all pairs of segments, with relations or without. -/
theorem mem_toList_enumerateAll :
    p ∈ (enumerateAll relations segments policy).1.toList ↔ p.high < segments.length :=
  Candidates.mem_toList_combinations

/-- The completed pairs are those that were given, whatever the set had before. -/
theorem mem_completed_withCompleted {s : PairSet} {completed : List Pair} :
    p ∈ (s.withCompleted completed).completed ↔ p ∈ completed :=
  mem_firstOccurrences

end PairSet

end PairAnnotation
