/-
# The last label, by spans and by indices

Which label counts between two segments is settled twice from one list of relations.
An index keeps the last label for every two spans.  A scan under the policy that the
last label counts keeps, for every two indices of segments, whether the last edge says
something, and completes the pairs of those that do.  Both are tables that each
relation writes one entry of, the later ones over the earlier ones (`lastFor`).

The two tables have different keys: a relation of a span that is no segment, or of a
segment with itself, has an entry in the first table only.  Between two segments of a
listed pair they say the same (`PairSet.completed_iff_label_informative`), whatever
else stands in the list and in whatever order.
-/

import Mathlib.Logic.Function.Basic
import PairAnnotation.Proofs.PairSet.Completion

namespace PairAnnotation

/-! ### Tables of last values -/

section Table

variable {α β κ : Type} [DecidableEq κ] {key : α → κ} {value : α → β}

/-- **The table that each element of a list writes its value to**, under its key. -/
def lastFor (key : α → κ) (value : α → β) (l : List α) : κ → Option β :=
  l.foldl (fun table a => Function.update table (key a) (some (value a))) fun _ => none

/-- **An entry of the table is the value of the last element with its key.** -/
theorem lastFor_eq_find? (key : α → κ) (value : α → β) (l : List α) (k : κ) :
    lastFor key value l k = (l.reverse.find? (key · = k)).map value := by
  induction l using List.reverseRecOn with
  | nil => rfl
  | append_singleton init a ih =>
    rw [lastFor, List.foldl_append, List.foldl_cons, List.foldl_nil, List.reverse_append,
      List.reverse_singleton, List.singleton_append, List.find?_cons]
    by_cases hk : key a = k
    · subst hk
      rw [Function.update_self, decide_eq_true rfl]
      rfl
    · rw [Function.update_of_ne (Ne.symm hk), decide_eq_false hk]
      exact ih

end Table

/-! ### Labels by spans -/

/-- **An index answers from the table of labels by spans.** -/
theorem RelationIndex.label?_eq_lastFor (x : RelationIndex) (dependent governor : Span) :
    x.label? dependent governor =
      (lastFor (fun r => (r.dependent, r.governor)) (·.label) x.edges
        (dependent, governor)).join := by
  have hkey : (fun r : RelationAnnotation =>
      decide ((r.dependent, r.governor) = (dependent, governor))) =
        (·.links dependent governor) := by
    funext r
    rw [Bool.eq_iff_iff, decide_eq_true_iff, RelationAnnotation.links_iff, Prod.mk.injEq]
  rw [label?_eq, getLast?_labelsOn, lastFor_eq_find?, hkey]

/-! ### Completion by indices -/

variable {segments : SegmentList} {relations : List RelationAnnotation} {p : Pair}

/-- The edges that none replaces are those that a search from the end finds by their ends. -/
theorem mem_lastEdges_iff_find? {e : Edge} {edges : List Edge} :
    e ∈ lastEdges edges ↔ edges.reverse.find? (·.ends = e.ends) = some e := by
  rw [mem_lastEdges_iff, List.find?_eq_some_iff_append]
  constructor
  · rintro ⟨before, after, rfl, hafter⟩
    exact ⟨decide_eq_true rfl, after.reverse, before.reverse, by simp, by simpa using hafter⟩
  · rintro ⟨-, after, before, hsplit, hafter⟩
    rw [List.reverse_eq_iff] at hsplit
    exact ⟨before.reverse, after.reverse, by simpa using hsplit, by simpa using hafter⟩

/-- **A scan completes the pairs of the entries that say something** in the table of edges by
indices. -/
theorem mem_completed_lastWriteWins_iff_lastFor :
    p ∈ (scanRelations relations segments .lastWriteWins).completed ↔
      ∃ dependent governor, Pair.of? dependent governor = some p ∧
        lastFor Edge.ends (·.isInformative) (relations.filterMap (·.edge? segments))
          (dependent, governor) = some true := by
  have hpair : ∀ e ∈ relations.filterMap (·.edge? segments),
      Pair.of? e.dependent e.governor = some e.pair := by
    intro e he
    obtain ⟨r, -, hr⟩ := List.mem_filterMap.1 he
    obtain ⟨-, -, hpair, -⟩ := RelationAnnotation.edge?_eq_some_iff_indices.1 hr
    exact hpair
  change p ∈ ((lastEdges (relations.filterMap (·.edge? segments))).filter (·.isInformative)).map
    (·.pair) ↔ _
  generalize relations.filterMap (·.edge? segments) = edges at hpair ⊢
  simp only [List.mem_map, List.mem_filter, lastFor_eq_find?, Option.map_eq_some_iff]
  constructor
  · rintro ⟨e, ⟨he, hinformative⟩, rfl⟩
    exact ⟨e.dependent, e.governor, hpair e (mem_of_mem_lastEdges he), e,
      mem_lastEdges_iff_find?.1 he, hinformative⟩
  · rintro ⟨dependent, governor, hp, e, hfind, hinformative⟩
    have hends : e.ends = (dependent, governor) := by simpa using List.find?_some hfind
    rw [← hends] at hfind
    obtain ⟨rfl, rfl⟩ := Prod.mk.inj hends
    have he := mem_lastEdges_iff_find?.2 hfind
    have hsame := (hpair e (mem_of_mem_lastEdges he)).symm.trans hp
    exact ⟨e, ⟨he, hinformative⟩, Option.some.inj hsame⟩

/-! ### Both tables -/

namespace PairSet

/-- The members of a listed pair are found by the spans of their segments. -/
theorem exists_indexOf?_of_mem_enumerate {policy : DuplicatePolicy}
    (hp : p ∈ (enumerate relations segments policy).1.toList) :
    ∃ low high, segments.indexOf? low = some p.low ∧ segments.indexOf? high = some p.high := by
  obtain ⟨e, he, rfl⟩ := mem_order_scanRelations.1 (mem_toList_enumerate.1 hp)
  obtain ⟨r, -, hr⟩ := List.mem_filterMap.1 he
  obtain ⟨hdependent, hgovernor, hpair, -⟩ := RelationAnnotation.edge?_eq_some_iff_indices.1 hr
  rcases Pair.of?_eq_some_iff.1 hpair with ⟨hlow, hhigh⟩ | ⟨hhigh, hlow⟩
  · exact ⟨_, _, hlow ▸ hdependent, hhigh ▸ hgovernor⟩
  · exact ⟨_, _, hlow ▸ hgovernor, hhigh ▸ hdependent⟩

/-- **When the last label counts, completion agrees with the index.**  A listed pair is completed
exactly when the index of the same relations has a label that says something between the spans of
its two segments, in either direction; no other pair is completed, and listing all combinations
instead completes the same pairs.  The index answers from the table of labels by spans, and the
completed pairs are those told by the table of edges by indices. -/
theorem completed_iff_label_informative (relations : List RelationAnnotation)
    (segments : SegmentList) (tags : TagSet) :
    let index : RelationIndex := ⟨relations, tags⟩
    let listed := (enumerate relations segments .lastWriteWins).1
    (∀ p ∈ listed.toList, ∃ low high,
        segments.spanAt? p.low = some low ∧ segments.spanAt? p.high = some high ∧
          (listed.isCompleted p = true ↔
            isInformative (index.label? low high) = true ∨
              isInformative (index.label? high low) = true)) ∧
      (∀ p, listed.isCompleted p = true → p ∈ listed.toList) ∧
      (enumerateAll relations segments .lastWriteWins).1.completed = listed.completed ∧
      (∀ dependent governor, index.label? dependent governor =
        (lastFor (fun r => (r.dependent, r.governor)) (·.label) relations
          (dependent, governor)).join) ∧
      ∀ p, listed.isCompleted p = true ↔ ∃ i j, Pair.of? i j = some p ∧
        lastFor Edge.ends (·.isInformative) (relations.filterMap (·.edge? segments)) (i, j) =
          some true := by
  intro index listed
  have hcompleted (p : Pair) : listed.isCompleted p = true ↔
      p ∈ (scanRelations relations segments .lastWriteWins).completed :=
    isCompleted_iff.trans mem_completed_withCompleted
  refine ⟨fun p hp => ?_, fun p hp => ?_, rfl, index.label?_eq_lastFor, fun p => ?_⟩
  · obtain ⟨low, high, hlow, hhigh⟩ := exists_indexOf?_of_mem_enumerate hp
    refine ⟨low, high, SegmentList.spanAt?_of_indexOf? hlow, SegmentList.spanAt?_of_indexOf? hhigh,
      ?_⟩
    rw [hcompleted, ← RelationIndex.informative_eq_label?, ← RelationIndex.informative_eq_label?]
    exact mem_completed_lastWriteWins_iff_informative hlow hhigh
  · exact mem_toList_enumerate.2 (order_of_completed ((hcompleted p).1 hp))
  · exact (hcompleted p).trans mem_completed_lastWriteWins_iff_lastFor

/-- Relations of three segments: an edge without label and one with a label, a loop, a relation of a
span that is no segment, and both edges once more with the labels the other way round. -/
def relabelled : List RelationAnnotation :=
  [⟨⟨1⟩, ⟨0, 2⟩, ⟨3, 5⟩, none⟩, ⟨⟨2⟩, ⟨6, 8⟩, ⟨3, 5⟩, some "cause"⟩,
    ⟨⟨3⟩, ⟨3, 5⟩, ⟨3, 5⟩, some "cause"⟩, ⟨⟨4⟩, ⟨0, 1⟩, ⟨3, 5⟩, some "cause"⟩,
    ⟨⟨5⟩, ⟨0, 2⟩, ⟨3, 5⟩, some "cause"⟩, ⟨⟨6⟩, ⟨6, 8⟩, ⟨3, 5⟩, none⟩]

/-- Of the two listed pairs, the first one is completed, and its label is in the index. -/
theorem completed_iff_label_informative_relabelled :
    let index : RelationIndex := ⟨relabelled, ⟨"", []⟩⟩
    let listed := (enumerate relabelled Document.threeSegments .lastWriteWins).1
    listed.toList = [⟨0, 1, by decide⟩, ⟨1, 2, by decide⟩] ∧
      listed.completed = [⟨0, 1, by decide⟩] ∧
      ∃ low high, Document.threeSegments.spanAt? 0 = some low ∧
        Document.threeSegments.spanAt? 1 = some high ∧
        (isInformative (index.label? low high) = true ∨
          isInformative (index.label? high low) = true) := by
  intro index listed
  have hlisted : ⟨0, 1, by decide⟩ ∈ listed.toList := by decide
  obtain ⟨low, high, hlow, hhigh, hcompleted⟩ :=
    (completed_iff_label_informative relabelled Document.threeSegments ⟨"", []⟩).1 _ hlisted
  exact ⟨by decide, by decide, low, high, hlow, hhigh, hcompleted.1 (by decide)⟩

end PairSet
end PairAnnotation
