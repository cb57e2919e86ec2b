/-
# What completes a pair

A scan reads relations from the first to the last one, but which pairs it takes to be
completed can be said of the whole list.  When the last label counts, a pair is
completed by an edge that says something and that no later edge with the same ends
replaces (`mem_completed_lastWriteWins_iff`).  When the first edge decides, it is
completed by an edge that says something and is either the first one of the pair or
stands directly behind an edge with the same ends (`mem_completed_adjacent_iff`).

What stands on one direction between two segments is summed up by a `DirectionState`.
The first rule asks for the last label of either direction
(`mem_completed_lastWriteWins_iff_informative`).  The second rule looks at how the two
directions are interleaved, but a pair with an edge is completed in any order of its
edges when both directions are firm (`mem_completed_adjacent_of_firm`).
-/

import Mathlib.Data.List.Induction
import PairAnnotation.Proofs.Document.Relations
import PairAnnotation.Proofs.PairSet.Scan

namespace PairAnnotation

variable {segments : SegmentList} {relations : List RelationAnnotation} {p : Pair}

/-! ### The first edge decides -/

namespace Scan

open RelationAnnotation (edge?_eq_some_iff)

variable {s : Scan}

/-- A scan remembers the ends of the relation it read last. -/
theorem previous_add (policy : DuplicatePolicy) (s : Scan) (r : RelationAnnotation) :
    (add policy segments s r).previous = (r.edge? segments).map (·.ends) := by
  unfold add RelationAnnotation.edge?
  cases r.reading segments with
  | stray => rfl
  | loop segment => rfl
  | edge e =>
    cases policy with
    | lastWriteWins => rfl
    | adjacent =>
      dsimp only [addAdjacent]
      split
      · rfl
      · split <;> rfl

/-- The previous edge of a scan is the last relation that was read, unless that one is no edge. -/
theorem previous_foldl (policy : DuplicatePolicy) (relations : List RelationAnnotation) :
    (relations.foldl (add policy segments) {}).previous =
      (relations.getLast?.bind (·.edge? segments)).map (·.ends) := by
  cases relations using List.reverseRecOn with
  | nil => rfl
  | append_singleton before r =>
    rw [List.foldl_append, List.getLast?_append, List.getLast?_singleton]
    exact previous_add policy _ r

/-- **A relation completes the pair of its edge** when it says something and is the first edge of
the pair, or directly behind an edge with the same ends. -/
theorem mem_completed_add_adjacent_iff {r : RelationAnnotation} :
    p ∈ (add .adjacent segments s r).completed ↔
      p ∈ s.completed ∨ ∃ e, r.edge? segments = some e ∧ e.pair = p ∧ e.isInformative = true ∧
        (p ∉ s.order ∨ s.previous = some e.ends) := by
  simp only [edge?_eq_some_iff]
  cases h : r.reading segments with
  | stray => simp [add, h, skip]
  | loop segment => simp [add, h, skip]
  | edge e =>
    simp only [add, h, RelationReading.edge.injEq, exists_eq_left']
    unfold addAdjacent
    by_cases hnew : e.pair ∈ s.order
    · by_cases hplaceholder : e.isInformative && !s.completed.contains e.pair &&
          s.previous == some e.ends
      · rw [if_neg (by simpa using hnew), if_pos hplaceholder]
        simp only [Bool.and_eq_true, beq_iff_eq] at hplaceholder
        obtain ⟨⟨hinformative, -⟩, hprevious⟩ := hplaceholder
        simp [hinformative, hprevious, eq_comm]
      · rw [if_neg (by simpa using hnew), if_neg hplaceholder]
        rw [completed_enter, completed_noteRepetition]
        refine ⟨.inl, ?_⟩
        rintro (hp | ⟨rfl, hinformative, hfirst | hprevious⟩)
        · exact hp
        · exact absurd hnew hfirst
        · -- Only a pair that is completed already is not completed by it.
          simpa [hinformative, hprevious] using hplaceholder
    · rw [if_pos (by simpa using hnew)]
      cases hinformative : e.isInformative with
      | false => simp
      | true =>
        simp only [if_true, List.mem_append, List.mem_singleton]
        refine or_congr_right ⟨?_, ?_⟩
        · rintro rfl
          exact ⟨rfl, trivial, .inl hnew⟩
        · rintro ⟨rfl, -⟩
          rfl

end Scan

/-- **What completes a pair when the first edge decides**: an edge that says something and is the
first one of the pair, or directly follows an edge with the same ends. -/
theorem mem_completed_adjacent_iff :
    p ∈ (scanRelations relations segments .adjacent).completed ↔
      ∃ before r after e, relations = before ++ r :: after ∧ r.edge? segments = some e ∧
        e.pair = p ∧ e.isInformative = true ∧
        ((∀ x ∈ before.filterMap (·.edge? segments), x.pair ≠ p) ∨
          (before.getLast?.bind (·.edge? segments)).map (·.ends) = some e.ends) := by
  change p ∈ (relations.foldl (Scan.add .adjacent segments) {}).completed ↔ _
  induction relations using List.reverseRecOn with
  | nil => simp
  | append_singleton init last ih =>
    have horder : p ∉ (init.foldl (Scan.add .adjacent segments) {}).order ↔
        ∀ x ∈ init.filterMap (·.edge? segments), x.pair ≠ p := by
      rw [Scan.mem_order_foldl]
      simp
    rw [List.foldl_append, List.foldl_cons, List.foldl_nil, Scan.mem_completed_add_adjacent_iff,
      ih, horder, Scan.previous_foldl]
    simp only [exists_and_left, exists_split_append_singleton]

/-! ### The last label counts -/

/-- **An edge is last for its ends** when no later edge has the same ends. -/
theorem mem_lastEdges_iff {e : Edge} {edges : List Edge} :
    e ∈ lastEdges edges ↔
      ∃ before after, edges = before ++ e :: after ∧ ∀ x ∈ after, x.ends ≠ e.ends := by
  induction edges with
  | nil => simp [lastEdges]
  | cons a rest ih =>
    have htail : (∃ before after, rest = before ++ e :: after ∧ ∀ x ∈ after, x.ends ≠ e.ends) →
        ∃ before after, a :: rest = before ++ e :: after ∧ ∀ x ∈ after, x.ends ≠ e.ends := by
      rintro ⟨before, after, rfl, hafter⟩
      exact ⟨a :: before, after, rfl, hafter⟩
    rw [lastEdges]
    split
    · rename_i hlater
      rw [ih]
      refine ⟨htail, ?_⟩
      rintro ⟨before, after, hsplit, hafter⟩
      cases before with
      | nil =>
        obtain ⟨rfl, rfl⟩ := List.cons.inj hsplit
        obtain ⟨x, hx, hends⟩ := List.any_eq_true.1 hlater
        exact absurd (eq_of_beq hends) (hafter x hx)
      | cons b before => exact ⟨before, after, (List.cons.inj hsplit).2, hafter⟩
    · rename_i hlast
      rw [List.mem_cons, ih]
      constructor
      · rintro (rfl | h)
        · refine ⟨[], rest, rfl, fun x hx hends => hlast (List.any_eq_true.2 ⟨x, hx, ?_⟩)⟩
          exact beq_iff_eq.2 hends
        · exact htail h
      · rintro ⟨before, after, hsplit, hafter⟩
        cases before with
        | nil => exact .inl (List.cons.inj hsplit).1.symm
        | cons b before => exact .inr ⟨before, after, (List.cons.inj hsplit).2, hafter⟩

/-- **What completes a pair when the last label counts**: an edge that says something and has no
later edge with the same ends. -/
theorem mem_completed_lastWriteWins_iff :
    p ∈ (scanRelations relations segments .lastWriteWins).completed ↔
      ∃ before r after e, relations = before ++ r :: after ∧ r.edge? segments = some e ∧
        e.pair = p ∧ e.isInformative = true ∧
        ∀ x ∈ after.filterMap (·.edge? segments), x.ends ≠ e.ends := by
  change p ∈ ((lastEdges (relations.filterMap (·.edge? segments))).filter (·.isInformative)).map
    (·.pair) ↔ _
  simp only [List.mem_map, List.mem_filter, mem_lastEdges_iff]
  constructor
  · rintro ⟨e, ⟨⟨before, after, hsplit, hafter⟩, hinformative⟩, rfl⟩
    obtain ⟨l, l', rfl, -, hl'⟩ := List.filterMap_eq_append_iff.1 hsplit
    obtain ⟨skipped, r, rest, rfl, -, hr, rfl⟩ := List.filterMap_eq_cons_iff.1 hl'
    exact ⟨l ++ skipped, r, rest, e, by simp, hr, rfl, hinformative, hafter⟩
  · rintro ⟨before, r, after, e, rfl, hr, rfl, hinformative, hafter⟩
    refine ⟨e, ⟨⟨before.filterMap (·.edge? segments), after.filterMap (·.edge? segments), ?_,
      hafter⟩, hinformative⟩, rfl⟩
    rw [List.filterMap_append, List.filterMap_cons_some hr]

/-! ### Edges by the spans of their ends -/

namespace RelationAnnotation

variable {r : RelationAnnotation} {e : Edge} {d g : Span} {i j : Nat}

/-- What an edge is made of: the indices of its two ends, their pair, its id, and whether it says
something. -/
theorem edge?_eq_some_iff_indices :
    r.edge? segments = some e ↔
      segments.indexOf? r.dependent = some e.dependent ∧
        segments.indexOf? r.governor = some e.governor ∧
        Pair.of? e.dependent e.governor = some e.pair ∧ e.relation = r.id ∧
        e.isInformative = r.isInformative := by
  obtain ⟨relation, dependent, governor, pair, informative⟩ := e
  rw [edge?_eq_some_iff, reading]
  split
  · rename_i i j hi hj
    rw [hi, hj]
    cases hpair : Pair.of? i j with
    | none =>
      simp only [reduceCtorEq, Option.some.injEq, false_iff]
      rintro ⟨rfl, rfl, hsome, -, -⟩
      rw [hpair] at hsome
      cases hsome
    | some q =>
      simp only [RelationReading.edge.injEq, Edge.mk.injEq, Option.some.injEq]
      constructor
      · rintro ⟨rfl, rfl, rfl, rfl, rfl⟩
        exact ⟨rfl, rfl, hpair, rfl, rfl⟩
      · rintro ⟨rfl, rfl, hsome, rfl, rfl⟩
        exact ⟨rfl, rfl, rfl, Option.some.inj (hpair.symm.trans hsome), rfl⟩
  · rename_i hnot
    simp only [reduceCtorEq, false_iff]
    rintro ⟨hi, hj, -⟩
    exact hnot _ _ hi hj

/-- A relation between two segments is the edge between their indices. -/
theorem edge?_of_links (hd : segments.indexOf? d = some i) (hg : segments.indexOf? g = some j)
    (hp : Pair.of? i j = some p) (h : r.links d g = true) :
    r.edge? segments = some ⟨r.id, i, j, p, r.isInformative⟩ := by
  obtain ⟨rfl, rfl⟩ := links_iff.1 h
  exact edge?_eq_some_iff_indices.2 ⟨hd, hg, hp, rfl, rfl⟩

/-- An edge with the ends of two segments is a relation between them. -/
theorem links_of_edge? (hd : segments.indexOf? d = some i) (hg : segments.indexOf? g = some j)
    (he : r.edge? segments = some e) (hends : e.ends = (i, j)) : r.links d g = true := by
  obtain ⟨hdependent, hgovernor, -⟩ := edge?_eq_some_iff_indices.1 he
  obtain ⟨rfl, rfl⟩ := Prod.mk.inj hends
  exact links_iff.2
    ⟨SegmentList.indexOf?_inj hdependent hd, SegmentList.indexOf?_inj hgovernor hg⟩

/-- The edges of a pair are the relations between its two segments, in either direction. -/
theorem links_of_edge?_pair (hd : segments.indexOf? d = some i) (hg : segments.indexOf? g = some j)
    (hp : Pair.of? i j = some p) (he : r.edge? segments = some e) (hpair : e.pair = p) :
    r.links d g = true ∨ r.links g d = true := by
  obtain ⟨-, -, hof, -, -⟩ := edge?_eq_some_iff_indices.1 he
  rw [hpair] at hof
  have hends : e.ends = (i, j) ∨ e.ends = (j, i) := by
    rcases Pair.of?_eq_some_iff.1 hof with h | h <;>
      rcases Pair.of?_eq_some_iff.1 hp with h' | h' <;>
      simp [Edge.ends, h, h']
  exact hends.imp (links_of_edge? hd hg he) (links_of_edge? hg hd he)

end RelationAnnotation

/-! ### One direction -/

open RelationAnnotation (edge?_eq_some_iff_indices edge?_of_links links_iff links_of_edge?
  links_of_edge?_pair)

/-- A relation that says something stands directly behind another one with the same ends. -/
def Restated (relations : List RelationAnnotation) (d g : Span) : Prop :=
  ∃ e e', [e, e'] <:+: relations ∧ e.links d g = true ∧ e'.links d g = true ∧
    e'.isInformative = true

/-- What stands on one direction between two segments: the labels of its relations in order, and
whether one of them is restated. -/
structure DirectionState where
  labels : List (Option String)
  restated : Prop

namespace DirectionState

/-- The state of a direction in a list of relations. -/
def of (relations : List RelationAnnotation) (d g : Span) : DirectionState where
  labels := labelsOn relations d g
  restated := Restated relations d g

/-- Whether the label that counts says something; a direction without labels says nothing. -/
def informative (x : DirectionState) : Bool := PairAnnotation.isInformative x.labels.getLast?.join

/-- **A direction is firm** when its first label says something, if it has one, or when it is
restated somewhere.  Wherever the relations of a firm direction stand among the others, they do not
keep the pair from being completed. -/
def Firm (x : DirectionState) : Prop :=
  (∀ label ∈ x.labels.head?, PairAnnotation.isInformative label = true) ∨ x.restated

end DirectionState

variable {d g low high : Span} {i j : Nat}

/-- **The label that counts is the one of the index.** -/
theorem RelationIndex.informative_eq_label? (x : RelationIndex) (d g : Span) :
    (DirectionState.of x.edges d g).informative =
      PairAnnotation.isInformative (x.label? d g) := by
  rw [label?_eq]
  rfl

/-- A direction says something when the last relation on it does. -/
theorem informative_of_iff :
    (DirectionState.of relations d g).informative = true ↔
      ∃ before r after, relations = before ++ r :: after ∧ r.links d g = true ∧
        r.isInformative = true ∧ ∀ x ∈ after, x.links d g = false := by
  rw [DirectionState.informative, DirectionState.of, getLast?_labelsOn]
  constructor
  · intro h
    cases hfind : relations.reverse.find? (·.links d g) with
    | none =>
      rw [hfind] at h
      cases h
    | some r =>
      obtain ⟨hr, after, before, hsplit, hafter⟩ := List.find?_eq_some_iff_append.1 hfind
      rw [List.reverse_eq_iff] at hsplit
      refine ⟨before.reverse, r, after.reverse, by simpa using hsplit, hr, ?_, ?_⟩
      · rwa [hfind] at h
      · simpa using hafter
  · rintro ⟨before, r, after, rfl, hr, hinformative, hafter⟩
    have hfind : (before ++ r :: after).reverse.find? (·.links d g) = some r :=
      List.find?_eq_some_iff_append.2
        ⟨hr, after.reverse, before.reverse, by simp, by simpa using hafter⟩
    rw [hfind]
    exact hinformative

/-- Where the last label counts, a direction whose last label says something completes its pair. -/
theorem mem_completed_lastWriteWins_of_informative (hd : segments.indexOf? d = some i)
    (hg : segments.indexOf? g = some j) (hp : Pair.of? i j = some p)
    (h : (DirectionState.of relations d g).informative = true) :
    p ∈ (scanRelations relations segments .lastWriteWins).completed := by
  obtain ⟨before, r, after, rfl, hr, hinformative, hafter⟩ := informative_of_iff.1 h
  refine mem_completed_lastWriteWins_iff.2 ⟨before, r, after, _, rfl,
    edge?_of_links hd hg hp hr, rfl, hinformative, fun x hx hends => ?_⟩
  obtain ⟨r', hr', hx⟩ := List.mem_filterMap.1 hx
  have hlinks := links_of_edge? hd hg hx hends
  rw [hafter r' hr'] at hlinks
  cases hlinks

/-- An edge that is last for its ends has the last label of its direction. -/
theorem informative_of_edge? {before after : List RelationAnnotation} {r : RelationAnnotation}
    {e : Edge} (hsplit : relations = before ++ r :: after) (he : r.edge? segments = some e)
    (hinformative : e.isInformative = true)
    (hafter : ∀ x ∈ after.filterMap (·.edge? segments), x.ends ≠ e.ends)
    (hlinks : r.links d g = true) : (DirectionState.of relations d g).informative = true := by
  obtain ⟨hd, hg, hof, -, hreading⟩ := edge?_eq_some_iff_indices.1 he
  obtain ⟨rfl, rfl⟩ := links_iff.1 hlinks
  refine informative_of_iff.2 ⟨before, r, after, hsplit, hlinks, hreading ▸ hinformative,
    fun x hx => Bool.eq_false_iff.2 fun hx' => ?_⟩
  have hedge := edge?_of_links hd hg hof hx'
  exact hafter _ (List.mem_filterMap.2 ⟨x, hx, hedge⟩) rfl

/-- **When the last label counts, a pair is completed by either direction** whose last label says
something. -/
theorem mem_completed_lastWriteWins_iff_informative (hlow : segments.indexOf? low = some p.low)
    (hhigh : segments.indexOf? high = some p.high) :
    p ∈ (scanRelations relations segments .lastWriteWins).completed ↔
      (DirectionState.of relations low high).informative = true ∨
        (DirectionState.of relations high low).informative = true := by
  constructor
  · intro h
    obtain ⟨before, r, after, e, hsplit, he, hpair, hinformative, hafter⟩ :=
      mem_completed_lastWriteWins_iff.1 h
    exact (links_of_edge?_pair hlow hhigh p.of?_members he hpair).imp
      (informative_of_edge? hsplit he hinformative hafter)
      (informative_of_edge? hsplit he hinformative hafter)
  · rintro (h | h)
    · exact mem_completed_lastWriteWins_of_informative hlow hhigh p.of?_members h
    · exact mem_completed_lastWriteWins_of_informative hhigh hlow
        ((Pair.of?_comm _ _).trans p.of?_members) h

/-! ### Firm directions -/

/-- Where the first edge decides, a direction that is restated completes its pair. -/
theorem mem_completed_adjacent_of_restated (hd : segments.indexOf? d = some i)
    (hg : segments.indexOf? g = some j) (hp : Pair.of? i j = some p)
    (h : Restated relations d g) :
    p ∈ (scanRelations relations segments .adjacent).completed := by
  obtain ⟨e, e', ⟨before, after, rfl⟩, he, he', hinformative⟩ := h
  refine mem_completed_adjacent_iff.2 ⟨before ++ [e], e', after, _, by simp,
    edge?_of_links hd hg hp he', rfl, hinformative, .inr ?_⟩
  rw [List.getLast?_append, List.getLast?_singleton, Option.some_or, Option.bind_some,
    edge?_of_links hd hg hp he]
  rfl

/-- **A firm direction that has the first relation of a pair** completes it. -/
theorem mem_completed_adjacent_of_first {before after : List RelationAnnotation}
    {r : RelationAnnotation} (hd : segments.indexOf? d = some i)
    (hg : segments.indexOf? g = some j) (hp : Pair.of? i j = some p)
    (hsplit : relations = before ++ r :: after) (hr : r.links d g = true)
    (hbefore : ∀ x ∈ before, x.links d g = false ∧ x.links g d = false)
    (hfirm : (DirectionState.of relations d g).Firm) :
    p ∈ (scanRelations relations segments .adjacent).completed := by
  rcases hfirm with hfirst | hrestated
  · have hhead : (labelsOn relations d g).head? = some r.label := by
      have hnone : before.filter (·.links d g) = [] :=
        List.filter_eq_nil_iff.2 fun x hx => by simp [(hbefore x hx).1]
      rw [labelsOn, hsplit, List.filter_append, hnone, List.nil_append, List.filter_cons,
        if_pos hr]
      rfl
    refine mem_completed_adjacent_iff.2 ⟨before, r, after, _, hsplit,
      edge?_of_links hd hg hp hr, rfl, hfirst _ hhead, .inl fun x hx => ?_⟩
    obtain ⟨r', hr', hx⟩ := List.mem_filterMap.1 hx
    intro hpair
    rcases links_of_edge?_pair hd hg hp hx hpair with hlinks | hlinks
    · simp [(hbefore r' hr').1] at hlinks
    · simp [(hbefore r' hr').2] at hlinks
  · exact mem_completed_adjacent_of_restated hd hg hp hrestated

/-- A completed pair has a relation in one of its directions. -/
theorem labelsOn_ne_nil_of_completed {policy : DuplicatePolicy}
    (hlow : segments.indexOf? low = some p.low) (hhigh : segments.indexOf? high = some p.high)
    (h : p ∈ (scanRelations relations segments policy).completed) :
    labelsOn relations low high ≠ [] ∨ labelsOn relations high low ≠ [] := by
  obtain ⟨e, he, hpair⟩ := mem_order_scanRelations.1 (order_of_completed h)
  obtain ⟨r, hr, he⟩ := List.mem_filterMap.1 he
  have hne : ∀ {d g : Span}, r.links d g = true → labelsOn relations d g ≠ [] := fun hlinks =>
    List.ne_nil_of_mem (List.mem_map_of_mem (List.mem_filter.2 ⟨hr, hlinks⟩))
  exact (links_of_edge?_pair hlow hhigh p.of?_members he hpair).imp hne hne

/-- **A pair with a relation is completed when both of its directions are firm**, however the
relations of the two are interleaved. -/
theorem mem_completed_adjacent_of_firm (hlow : segments.indexOf? low = some p.low)
    (hhigh : segments.indexOf? high = some p.high)
    (hsome : labelsOn relations low high ≠ [] ∨ labelsOn relations high low ≠ [])
    (hlowHigh : (DirectionState.of relations low high).Firm)
    (hhighLow : (DirectionState.of relations high low).Firm) :
    p ∈ (scanRelations relations segments .adjacent).completed := by
  have hof : Pair.of? p.high p.low = some p := (Pair.of?_comm _ _).trans p.of?_members
  have hfirst : ∃ r before after, relations = before ++ r :: after ∧
      (r.links low high = true ∨ r.links high low = true) ∧
      ∀ x ∈ before, x.links low high = false ∧ x.links high low = false := by
    have hmem : ∃ r ∈ relations, (r.links low high || r.links high low) = true := by
      rcases hsome with h | h
      all_goals
        obtain ⟨label, hlabel⟩ := List.exists_mem_of_ne_nil _ h
        obtain ⟨r, hr, -⟩ := List.mem_map.1 hlabel
        obtain ⟨hr, hlinks⟩ := List.mem_filter.1 hr
        exact ⟨r, hr, by simp [hlinks]⟩
    obtain ⟨r, hfind⟩ := Option.isSome_iff_exists.1 (List.find?_isSome.2 hmem)
    obtain ⟨hr, before, after, hsplit, hbefore⟩ := List.find?_eq_some_iff_append.1 hfind
    exact ⟨r, before, after, hsplit, Bool.or_eq_true_iff.1 hr, fun x hx => by
      simpa using hbefore x hx⟩
  obtain ⟨r, before, after, hsplit, hr | hr, hbefore⟩ := hfirst
  · exact mem_completed_adjacent_of_first hlow hhigh p.of?_members hsplit hr hbefore hlowHigh
  · exact mem_completed_adjacent_of_first hhigh hlow hof hsplit hr
      (fun x hx => (hbefore x hx).symm) hhighLow

end PairAnnotation
