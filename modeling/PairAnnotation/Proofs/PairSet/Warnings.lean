/-
# Every odd relation is warned of, once

What is odd about a relation can be said without a scan: an end of it is no segment, or
both ends are the same segment, or an earlier relation runs between the same segments in
the same direction (`RelationAnnotation.oddity?`).  A scan leaves one warning for each
relation that is odd, in their order, and no other ones, whatever the policy
(`warnings_scanRelations`).  The policy only has a say in the words for a repetition.

When the first edge decides, there are two branches that warn of a repetition, and none
of them asks the whole question.  That they answer it together rests on what a scan
remembers: the ends of the relation right before are among those of the edges so far,
and the pairs of those edges have been listed.
-/

import PairAnnotation.Proofs.PairSet.Placeholders

namespace PairAnnotation

/-! ### What is odd about a relation -/

/-- What can be odd about a relation that stands behind others. -/
inductive Oddity where
  /-- An end is no segment. -/
  | strayEnd
  /-- Both ends are the same segment. -/
  | loop (segment : Nat)
  /-- An earlier relation runs between the same segments in the same direction. -/
  | repeats (dependent governor : Nat)
  deriving DecidableEq, Repr

namespace RelationAnnotation

/-- The indices of the segments that the ends are, if both are segments; they may be one segment. -/
def indices? (segments : SegmentList) (r : RelationAnnotation) : Option (Nat × Nat) :=
  (segments.indexOf? r.dependent).bind fun dependent =>
    (segments.indexOf? r.governor).map fun governor => (dependent, governor)

/-- **What is odd about a relation** that stands behind others. -/
def oddity? (segments : SegmentList) (before : List RelationAnnotation) (r : RelationAnnotation) :
    Option Oddity :=
  match r.indices? segments with
  | none => some .strayEnd
  | some (dependent, governor) =>
    if dependent = governor then some (.loop dependent)
    else if ∃ r' ∈ before, r'.indices? segments = some (dependent, governor) then
      some (.repeats dependent governor)
    else none

end RelationAnnotation

/-- The odd ones among relations that stand behind others, each with what is odd about it, in their
order. -/
def oddities (segments : SegmentList) :
    List RelationAnnotation → List RelationAnnotation → List (Prod RelationAnnotation Oddity)
  | _, [] => []
  | before, r :: rest =>
    ((r.oddity? segments before).map (r, ·)).toList ++ oddities segments (before ++ [r]) rest

/-- **A warning tells what is odd about a relation.**  Only when the first edge decides, a
repetition may be told of as a label behind a placeholder. -/
inductive Reports (policy : DuplicatePolicy) (r : RelationAnnotation) :
    Oddity → IntegrityWarning → Prop where
  | strayEnd : Reports policy r .strayEnd (.unknownEndpoint r.id)
  | loop (segment : Nat) : Reports policy r (.loop segment) (.selfRelation r.id segment)
  | repeats (dependent governor : Nat) :
    Reports policy r (.repeats dependent governor) (.duplicateEdge r.id dependent governor)
  | placeholder {dependent governor : Nat} {pair : Pair} (hpolicy : policy = .adjacent)
    (hpair : Pair.of? dependent governor = some pair) :
    Reports policy r (.repeats dependent governor) (.legacyPlaceholder r.id pair)

/-- The relation that a warning is about, by its id. -/
def IntegrityWarning.relation : IntegrityWarning → AnnotationId
  | .unknownEndpoint relation => relation
  | .selfRelation relation _ => relation
  | .legacyPlaceholder relation _ => relation
  | .duplicateEdge relation _ _ => relation

variable {segments : SegmentList} {policy : DuplicatePolicy} {before : List RelationAnnotation}
  {r : RelationAnnotation} {e : Edge}

/-- Whatever is odd about a relation, the warning has the id of the relation. -/
theorem Reports.relation_eq {odd : Oddity} {w : IntegrityWarning} (h : Reports policy r odd w) :
    w.relation = r.id := by
  cases h <;> rfl

/-- A relation at the end of a list may be odd in the light of all before it, and it changes nothing
about those. -/
theorem oddities_append_singleton (before relations : List RelationAnnotation)
    (r : RelationAnnotation) :
    oddities segments before (relations ++ [r]) =
      oddities segments before relations ++
        ((r.oddity? segments (before ++ relations)).map (r, ·)).toList := by
  induction relations generalizing before with
  | nil => simp [oddities]
  | cons a rest ih => simp [oddities, ih]

/-! ### Edges and their indices -/

namespace RelationAnnotation

/-- An edge runs between the segments of its indices, the dependent one first. -/
theorem indices?_of_edge? (h : r.edge? segments = some e) : r.indices? segments = some e.ends := by
  obtain ⟨hdependent, hgovernor, -⟩ := edge?_eq_some_iff_indices.1 h
  simp [indices?, hdependent, hgovernor, Edge.ends]

/-- **A relation is read by its indices**: it has none, or they are the same, or it is an edge. -/
theorem reading_cases (segments : SegmentList) (r : RelationAnnotation) :
    (r.reading segments = .stray ∧ r.indices? segments = none) ∨
      (∃ segment, r.reading segments = .loop segment ∧
        r.indices? segments = some (segment, segment)) ∨
      ∃ e, r.reading segments = .edge e ∧ r.edge? segments = some e ∧
        r.indices? segments = some e.ends ∧ e.dependent ≠ e.governor := by
  cases hd : segments.indexOf? r.dependent with
  | none => exact .inl ⟨by simp [reading, hd], by simp [indices?, hd]⟩
  | some dependent =>
    cases hg : segments.indexOf? r.governor with
    | none => exact .inl ⟨by simp [reading, hg], by simp [indices?, hg]⟩
    | some governor =>
      cases hpair : Pair.of? dependent governor with
      | none =>
        obtain rfl : dependent = governor := Pair.of?_eq_none_iff.1 hpair
        exact .inr (.inl ⟨dependent, by simp [reading, hd, hg], by simp [indices?, hd, hg]⟩)
      | some pair =>
        have hreading : r.reading segments =
            .edge ⟨r.id, dependent, governor, pair, r.isInformative⟩ := by
          simp [reading, hd, hg, hpair]
        have he := edge?_eq_some_iff.2 hreading
        refine .inr (.inr ⟨_, hreading, he, indices?_of_edge? he, fun hself => ?_⟩)
        rw [show dependent = governor from hself, Pair.of?_self] at hpair
        cases hpair

/-- Two indices that differ make an edge of a relation. -/
theorem exists_edge?_of_indices? {ends : Nat × Nat} (h : r.indices? segments = some ends)
    (hne : ends.1 ≠ ends.2) : ∃ e, r.edge? segments = some e ∧ e.ends = ends := by
  rcases reading_cases segments r with ⟨-, hnone⟩ | ⟨segment, -, hloop⟩ | ⟨e, -, he, hends, -⟩
  · cases h.symm.trans hnone
  · obtain rfl := Option.some.inj (h.symm.trans hloop)
    exact absurd rfl hne
  · exact ⟨e, he, Option.some.inj (hends.symm.trans h)⟩

/-- **What is odd about an edge** is that an earlier relation has its indices. -/
theorem oddity?_of_edge (h : r.indices? segments = some e.ends) (hne : e.dependent ≠ e.governor) :
    r.oddity? segments before =
      if ∃ r' ∈ before, r'.indices? segments = some e.ends then
        some (.repeats e.dependent e.governor)
      else none := by
  rw [oddity?, h]
  exact if_neg hne

end RelationAnnotation

open RelationAnnotation (edge?_eq_some_iff_indices reading_cases exists_edge?_of_indices?
  indices?_of_edge? oddity? oddity?_of_edge)

/-! ### What a scan remembers -/

namespace Scan

/-- A relation leaves the ends of its edge to a scan, if it is one. -/
theorem ends_add (policy : DuplicatePolicy) (s : Scan) (r : RelationAnnotation) :
    (add policy segments s r).ends = s.ends ++ ((r.edge? segments).map (·.ends)).toList := by
  have hadjacent (e : Edge) : (s.addAdjacent e).ends = s.ends ++ [e.ends] := by
    unfold addAdjacent noteRepetition enter
    split
    · rfl
    · split
      · rfl
      · split <;> rfl
  have hlast (e : Edge) : ((s.noteRepetition e).enter e).ends = s.ends ++ [e.ends] := by
    unfold noteRepetition enter
    split <;> rfl
  unfold add RelationAnnotation.edge?
  cases r.reading segments with
  | stray => simp [skip]
  | loop segment => simp [skip]
  | edge e =>
    cases policy with
    | adjacent => exact hadjacent e
    | lastWriteWins => exact hlast e

/-- A scan remembers the ends of all edges it has read, in their order. -/
theorem ends_foldl (policy : DuplicatePolicy) (relations : List RelationAnnotation) :
    (relations.foldl (add policy segments) {}).ends =
      (relations.filterMap (·.edge? segments)).map (·.ends) := by
  induction relations using List.reverseRecOn with
  | nil => rfl
  | append_singleton before r ih =>
    rw [List.foldl_append, List.foldl_cons, List.foldl_nil, ends_add, ih, List.filterMap_append]
    cases h : r.edge? segments <;> simp [h]

/-- **The ends of the edges so far** are the indices of earlier relations. -/
theorem mem_ends_foldl {ends : Nat × Nat} (hne : ends.1 ≠ ends.2) :
    ends ∈ (before.foldl (add policy segments) {}).ends ↔
      ∃ r' ∈ before, r'.indices? segments = some ends := by
  simp only [ends_foldl, List.mem_map, List.mem_filterMap]
  constructor
  · rintro ⟨e, ⟨r', hr', he⟩, rfl⟩
    exact ⟨r', hr', indices?_of_edge? he⟩
  · rintro ⟨r', hr', hindices⟩
    obtain ⟨e, he, hends⟩ := exists_edge?_of_indices? hindices hne
    exact ⟨e, ⟨r', hr', he⟩, hends⟩

/-- The ends of the relation right before are among them. -/
theorem mem_ends_of_previous {ends : Nat × Nat}
    (h : (before.foldl (add policy segments) {}).previous = some ends) :
    ends ∈ (before.foldl (add policy segments) {}).ends := by
  rw [previous_foldl, Option.map_eq_some_iff] at h
  obtain ⟨e, he, rfl⟩ := h
  obtain ⟨r', hr', he⟩ := Option.bind_eq_some_iff.1 he
  rw [ends_foldl]
  exact List.mem_map_of_mem (List.mem_filterMap.2 ⟨r', List.mem_of_getLast? hr', he⟩)

/-- The pairs of those edges have been listed, since every edge that is entered brings its pair. -/
theorem mem_order_of_mem_ends (he : r.edge? segments = some e)
    (h : e.ends ∈ (before.foldl (add policy segments) {}).ends) :
    e.pair ∈ (before.foldl (add policy segments) {}).order := by
  rw [ends_foldl] at h
  obtain ⟨e', he', hends⟩ := List.mem_map.1 h
  obtain ⟨r', -, hr'⟩ := List.mem_filterMap.1 he'
  exact mem_order_foldl.2 ⟨e', he', pair_eq_of_ends_eq hr' he hends⟩

/-! ### One relation -/

/-- The warning that an edge adds when the last label counts. -/
def repetition? (s : Scan) (e : Edge) : Option IntegrityWarning :=
  if s.ends.contains e.ends then some (.duplicateEdge e.relation e.dependent e.governor) else none

/-- Where the last label counts, an edge adds one warning at most, and it adds it at the end. -/
theorem warnings_noteRepetition (s : Scan) (e : Edge) :
    ((s.noteRepetition e).enter e).warnings = s.warnings ++ (s.repetition? e).toList := by
  unfold noteRepetition enter repetition?
  split <;> simp

/-- **The two branches that warn of a repetition** when the first edge decides answer together
whether the ends of the edge are known. -/
theorem edgeRemark?_foldl (he : r.edge? segments = some e) :
    Option.Rel (Reports .adjacent r)
      (if e.ends ∈ (before.foldl (add .adjacent segments) {}).ends then
        some (.repeats e.dependent e.governor) else none)
      ((before.foldl (add .adjacent segments) {}).edgeRemark? e) := by
  obtain ⟨-, -, hpair, hid, -⟩ := edge?_eq_some_iff_indices.1 he
  unfold edgeRemark?
  by_cases hknown : e.ends ∈ (before.foldl (add .adjacent segments) {}).ends
  · rw [if_pos hknown, if_neg (not_not.2 (mem_order_of_mem_ends he hknown)), if_pos hknown, hid]
    split
    · exact .some (.placeholder rfl hpair)
    · exact .some (.repeats _ _)
  · have hprevious : (before.foldl (add .adjacent segments) {}).previous ≠ some e.ends :=
      fun h => hknown (mem_ends_of_previous h)
    simp only [hknown, hprevious, and_false, if_false, ite_self]
    exact .none

/-- **What is said of an edge that repeats another one**, where the last label counts: that it
repeats it, and of other edges nothing. -/
theorem repetition?_foldl (he : r.edge? segments = some e) :
    Option.Rel (Reports policy r)
      (if e.ends ∈ (before.foldl (add policy segments) {}).ends then
        some (.repeats e.dependent e.governor) else none)
      ((before.foldl (add policy segments) {}).repetition? e) := by
  obtain ⟨-, -, -, hid, -⟩ := edge?_eq_some_iff_indices.1 he
  rw [repetition?, hid]
  simp only [List.contains_iff_mem]
  split
  · exact .some (.repeats _ _)
  · exact .none

/-- **A relation that is odd leaves one warning**, which tells what is odd about it, and another one
leaves none. -/
theorem exists_warnings_add (policy : DuplicatePolicy) (segments : SegmentList)
    (before : List RelationAnnotation) (r : RelationAnnotation) :
    ∃ w? : Option IntegrityWarning,
      (add policy segments (before.foldl (add policy segments) {}) r).warnings =
        (before.foldl (add policy segments) {}).warnings ++ w?.toList ∧
      Option.Rel (Reports policy r) (r.oddity? segments before) w? := by
  rcases reading_cases segments r with ⟨hr, hindices⟩ | ⟨segment, hr, hindices⟩ |
    ⟨e, hr, he, hindices, hne⟩
  · refine ⟨some (.unknownEndpoint r.id), by rw [add, hr]; rfl, ?_⟩
    rw [oddity?, hindices]
    exact .some .strayEnd
  · refine ⟨some (.selfRelation r.id segment), by rw [add, hr]; rfl, ?_⟩
    simp only [oddity?, hindices, if_pos]
    exact .some (.loop segment)
  · have hknown : e.ends ∈ (before.foldl (add policy segments) {}).ends ↔
        ∃ r' ∈ before, r'.indices? segments = some e.ends := mem_ends_foldl hne
    simp only [oddity?_of_edge hindices hne, ← hknown]
    cases policy with
    | adjacent =>
      refine ⟨_, ?_, edgeRemark?_foldl he⟩
      rw [add, hr]
      exact warnings_addAdjacent _ e
    | lastWriteWins =>
      refine ⟨_, ?_, repetition?_foldl he⟩
      rw [add, hr]
      exact warnings_noteRepetition _ e

end Scan

/-! ### All relations -/

/-- The warnings of a scan are those that its relations leave one after the other; what is done at
its end leaves none. -/
theorem warnings_scanRelations_eq (relations : List RelationAnnotation) (segments : SegmentList)
    (policy : DuplicatePolicy) :
    (scanRelations relations segments policy).warnings =
      (relations.foldl (Scan.add policy segments) {}).warnings := by
  cases policy <;> rfl

/-- **The warnings follow the oddities one by one**, in the order of the relations, by induction
from the last relation. -/
theorem forall₂_reports_foldl (policy : DuplicatePolicy) (segments : SegmentList)
    (relations : List RelationAnnotation) :
    List.Forall₂ (fun odd w => Reports policy odd.1 odd.2 w) (oddities segments [] relations)
      (relations.foldl (Scan.add policy segments) {}).warnings := by
  induction relations using List.reverseRecOn with
  | nil => exact .nil
  | append_singleton before r ih =>
    obtain ⟨w?, hwarnings, hreports⟩ := Scan.exists_warnings_add policy segments before r
    rw [List.foldl_append, List.foldl_cons, List.foldl_nil, hwarnings, oddities_append_singleton,
      List.nil_append]
    refine List.rel_append ih ?_
    generalize r.oddity? segments before = odd at hreports
    cases hreports with
    | none => exact .nil
    | some hw => exact .cons hw .nil

/-- **Warnings are complete and the policy has no say in where they are left.**  The warnings of a
scan are, one by one and in the same order, those of the relations that are odd: an end of them is
no segment, or both ends are one segment, or an earlier relation runs between the same segments in
the same direction.  So under both policies the same relations are warned of. -/
theorem warnings_scanRelations (relations : List RelationAnnotation) (segments : SegmentList) :
    (∀ policy, List.Forall₂ (fun odd w => Reports policy odd.1 odd.2 w)
      (oddities segments [] relations) (scanRelations relations segments policy).warnings) ∧
    (scanRelations relations segments .adjacent).warnings.map (·.relation) =
      (scanRelations relations segments .lastWriteWins).warnings.map (·.relation) := by
  have hreports (policy : DuplicatePolicy) :
      List.Forall₂ (fun odd w => Reports policy odd.1 odd.2 w) (oddities segments [] relations)
        (scanRelations relations segments policy).warnings := by
    rw [warnings_scanRelations_eq]
    exact forall₂_reports_foldl policy segments relations
  have hrelation (policy : DuplicatePolicy) :
      (scanRelations relations segments policy).warnings.map (·.relation) =
        (oddities segments [] relations).map (·.1.id) := by
    rw [← List.forall₂_eq_eq_eq, List.forall₂_map_left_iff, List.forall₂_map_right_iff]
    exact (hreports policy).flip.imp fun _ _ h => h.relation_eq
  exact ⟨hreports, (hrelation _).trans (hrelation _).symm⟩

end PairAnnotation
