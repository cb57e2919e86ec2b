/-
# Labels behind placeholders

When the first edge of a pair decides, a pair whose first edge says nothing can still be
completed by an edge that says something and directly follows one with the same ends.
A scan leaves a warning on such an edge: it follows an unset placeholder.

Each warning is left at one relation (`mem_warnings_iff`), and this one exactly where an
edge that says something directly follows one with the same ends while its pair is not
completed (`warns_legacyPlaceholder_iff`).  It is the only way to complete a pair whose
first edge says nothing (`exists_warns_of_completed`).

The edge that is followed need not be a placeholder, though.  An edge whose label came too
late to complete its pair says something, and when the edge behind it has the same ends,
the scan takes it for a placeholder all the same, since all it remembers of an edge are
its ends.  So the warnings are true exactly where no such label is restated
(`placeholder_warnings`).
-/

import PairAnnotation.Proofs.PairSet.FirstEdge

namespace PairAnnotation

variable {segments : SegmentList} {relations before : List RelationAnnotation}
  {r : RelationAnnotation} {p : Pair}

/-! ### One relation, one warning at most -/

namespace Scan

/-- The warning that an edge adds when the first edge decides. -/
def edgeRemark? (s : Scan) (e : Edge) : Option IntegrityWarning :=
  if e.pair ∉ s.order then none
  else if e.isInformative = true ∧ e.pair ∉ s.completed ∧ s.previous = some e.ends then
    some (.legacyPlaceholder e.relation e.pair)
  else if e.ends ∈ s.ends then some (.duplicateEdge e.relation e.dependent e.governor)
  else none

/-- The warning that a relation adds when the first edge decides. -/
def remark? (segments : SegmentList) (s : Scan) (r : RelationAnnotation) :
    Option IntegrityWarning :=
  match r.reading segments with
  | .stray => some (.unknownEndpoint r.id)
  | .loop segment => some (.selfRelation r.id segment)
  | .edge e => s.edgeRemark? e

/-- An edge adds one warning at most to those of a scan in which the first edge decides, and it adds
it at the end. -/
theorem warnings_addAdjacent (s : Scan) (e : Edge) :
    (s.addAdjacent e).warnings = s.warnings ++ (s.edgeRemark? e).toList := by
  unfold addAdjacent edgeRemark?
  by_cases hnew : e.pair ∈ s.order
  · by_cases hlate : e.isInformative = true ∧ e.pair ∉ s.completed ∧ s.previous = some e.ends
    · simp [hnew, hlate, enter]
    · by_cases hknown : e.ends ∈ s.ends
      · simp [hnew, hlate, hknown, enter, noteRepetition, and_assoc]
      · simp [hnew, hlate, hknown, enter, noteRepetition, and_assoc]
  · simp [hnew, enter]

/-- **Each relation adds one warning at most**, behind those of the relations before it. -/
theorem warnings_add (s : Scan) (r : RelationAnnotation) :
    (add .adjacent segments s r).warnings = s.warnings ++ (s.remark? segments r).toList := by
  unfold add remark?
  cases r.reading segments with
  | stray => rfl
  | loop segment => rfl
  | edge e => exact warnings_addAdjacent s e

/-- **When a placeholder is reported**: an edge that says something comes directly behind one with
the same ends, and its pair was met before and is not completed. -/
theorem edgeRemark?_eq_legacyPlaceholder_iff {s : Scan} {e : Edge} {id : AnnotationId} :
    s.edgeRemark? e = some (.legacyPlaceholder id p) ↔
      e.relation = id ∧ e.pair = p ∧ e.isInformative = true ∧ e.pair ∈ s.order ∧
        e.pair ∉ s.completed ∧ s.previous = some e.ends := by
  unfold edgeRemark?
  split
  · simp_all
  · split
    · simp_all
    · split <;> simp_all

end Scan

/-- **A relation leaves a warning** when it is read behind others. -/
def Warns (segments : SegmentList) (before : List RelationAnnotation) (r : RelationAnnotation)
    (w : IntegrityWarning) : Prop :=
  (scanRelations (before ++ [r]) segments .adjacent).warnings =
    (scanRelations before segments .adjacent).warnings ++ [w]

/-- A relation at the end of a list is scanned last. -/
theorem scan_append_singleton (segments : SegmentList) (before : List RelationAnnotation)
    (r : RelationAnnotation) :
    scanRelations (before ++ [r]) segments .adjacent =
      (scanRelations before segments .adjacent).add .adjacent segments r :=
  List.foldl_append

/-- What a relation warns of is what the scan of the relations before it has to remark on it. -/
theorem warns_iff_remark? {w : IntegrityWarning} :
    Warns segments before r w ↔
      (scanRelations before segments .adjacent).remark? segments r = some w := by
  rw [Warns, scan_append_singleton, Scan.warnings_add, List.append_cancel_left_eq]
  cases (scanRelations before segments .adjacent).remark? segments r <;> simp

/-- **Every warning is left at a relation**, by what the relations before it were, and by nothing
behind it. -/
theorem mem_warnings_iff {w : IntegrityWarning} :
    w ∈ (scanRelations relations segments .adjacent).warnings ↔
      ∃ before r after, relations = before ++ r :: after ∧ Warns segments before r w := by
  induction relations using List.reverseRecOn with
  | nil => simp [scanRelations]
  | append_singleton init last ih =>
    rw [exists_split_append_singleton, ← ih, scan_append_singleton, Scan.warnings_add,
      warns_iff_remark?]
    simp

/-! ### Where an edge is taken for a late label -/

/-- Edges with the same ends are edges of the same pair. -/
theorem pair_eq_of_ends_eq {r' : RelationAnnotation} {e e' : Edge}
    (h : r.edge? segments = some e) (h' : r'.edge? segments = some e') (hends : e.ends = e'.ends) :
    e.pair = e'.pair := by
  obtain ⟨-, -, hpair, -⟩ := RelationAnnotation.edge?_eq_some_iff_indices.1 h
  obtain ⟨-, -, hpair', -⟩ := RelationAnnotation.edge?_eq_some_iff_indices.1 h'
  obtain ⟨hdependent, hgovernor⟩ := Prod.mk.inj hends
  rw [hdependent, hgovernor, hpair'] at hpair
  exact (Option.some.inj hpair).symm

/-- What the scan remembers of the relation right before is the ends of its edge. -/
theorem previous_scan_eq_some_iff {ends : Nat × Nat} :
    (scanRelations before segments .adjacent).previous = some ends ↔
      ∃ init previous e, before = init ++ [previous] ∧ previous.edge? segments = some e ∧
        e.ends = ends := by
  change (before.foldl (Scan.add .adjacent segments) {}).previous = some ends ↔ _
  rw [Scan.previous_foldl]
  simp only [Option.map_eq_some_iff, Option.bind_eq_some_iff, List.getLast?_eq_some_iff]
  constructor
  · rintro ⟨e, ⟨previous, ⟨init, hinit⟩, he⟩, hends⟩
    exact ⟨init, previous, e, hinit, he, hends⟩
  · rintro ⟨init, previous, e, hinit, he, hends⟩
    exact ⟨e, ⟨previous, ⟨init, hinit⟩, he⟩, hends⟩

/-- **Where the warning of a placeholder is left**: at an edge that says something and directly
follows one with the same ends, as long as its pair is not completed. -/
theorem warns_legacyPlaceholder_iff {id : AnnotationId} :
    Warns segments before r (.legacyPlaceholder id p) ↔
      ∃ init previous e e', before = init ++ [previous] ∧ previous.edge? segments = some e ∧
        r.edge? segments = some e' ∧ e.ends = e'.ends ∧ r.id = id ∧ e'.pair = p ∧
        e'.isInformative = true ∧ p ∉ (scanRelations before segments .adjacent).completed := by
  rw [warns_iff_remark?]
  constructor
  · intro h
    unfold Scan.remark? at h
    split at h
    · cases h
    · cases h
    · rename_i e' hr
      replace hr := RelationAnnotation.edge?_eq_some_iff.2 hr
      obtain ⟨hid, rfl, hinformative, -, hopen, hprevious⟩ :=
        Scan.edgeRemark?_eq_legacyPlaceholder_iff.1 h
      obtain ⟨init, previous, e, hbefore, he, hends⟩ := previous_scan_eq_some_iff.1 hprevious
      obtain ⟨-, -, -, hrelation, -⟩ := RelationAnnotation.edge?_eq_some_iff_indices.1 hr
      exact ⟨init, previous, e, e', hbefore, he, hr, hends, hrelation.symm.trans hid, rfl,
        hinformative, hopen⟩
  · rintro ⟨init, previous, e, e', hbefore, he, hr, hends, rfl, rfl, hinformative, hopen⟩
    obtain ⟨-, -, -, hrelation, -⟩ := RelationAnnotation.edge?_eq_some_iff_indices.1 hr
    have hlisted : e'.pair ∈ (scanRelations before segments .adjacent).order := by
      refine mem_order_scanRelations.2 ⟨e, List.mem_filterMap.2 ⟨previous, ?_, he⟩,
        pair_eq_of_ends_eq he hr hends⟩
      simp [hbefore]
    have hprevious := previous_scan_eq_some_iff.2 ⟨init, previous, e, hbefore, he, hends⟩
    rw [Scan.remark?, RelationAnnotation.edge?_eq_some_iff.1 hr]
    exact Scan.edgeRemark?_eq_legacyPlaceholder_iff.2
      ⟨hrelation, rfl, hinformative, hlisted, hopen, hprevious⟩

/-! ### Pairs whose first edge says nothing -/

/-- A completed pair has been completed by some relation, which found it incomplete. -/
theorem exists_completing (h : p ∈ (scanRelations relations segments .adjacent).completed) :
    ∃ before r after, relations = before ++ r :: after ∧
      p ∉ (scanRelations before segments .adjacent).completed ∧
      p ∈ (scanRelations (before ++ [r]) segments .adjacent).completed := by
  induction relations using List.reverseRecOn with
  | nil => simp [scanRelations] at h
  | append_singleton init last ih =>
    by_cases hinit : p ∈ (scanRelations init segments .adjacent).completed
    · obtain ⟨before, r, after, rfl, hcompletes⟩ := ih hinit
      exact ⟨before, r, after ++ [last], by simp, hcompletes⟩
    · exact ⟨init, last, [], rfl, hinit, h⟩

/-- **A pair whose first edge says nothing is completed with a warning.** -/
theorem exists_warns_of_completed {e₀ : Edge}
    (hfirst : (relations.filterMap (·.edge? segments)).find? (·.pair = p) = some e₀)
    (hnothing : e₀.isInformative = false)
    (h : p ∈ (scanRelations relations segments .adjacent).completed) :
    ∃ before r after, relations = before ++ r :: after ∧
      Warns segments before r (.legacyPlaceholder r.id p) := by
  obtain ⟨before, r, after, rfl, hopen, hcompleted⟩ := exists_completing h
  refine ⟨before, r, after, rfl, ?_⟩
  rw [scan_append_singleton, Scan.mem_completed_add_adjacent_iff] at hcompleted
  rcases hcompleted with hcompleted | ⟨e, he, hpair, hinformative, hnew | hprevious⟩
  · exact absurd hcompleted hopen
  · -- The first edge of the pair would be one that says something.
    have hbefore : ∀ x ∈ before.filterMap (·.edge? segments), x.pair ≠ p := by
      intro x hx hxp
      exact hnew (mem_order_scanRelations.2 ⟨x, hx, hxp⟩)
    have hfirst' := find?_edge_eq_some_iff.2 ⟨before, r, after, rfl, he, hpair, hbefore⟩
    obtain rfl : e₀ = e := Option.some.inj (hfirst.symm.trans hfirst')
    rw [hnothing] at hinformative
    cases hinformative
  · obtain ⟨init, previous, e', hbefore, he', hends⟩ := previous_scan_eq_some_iff.1 hprevious
    exact warns_legacyPlaceholder_iff.2 ⟨init, previous, e', e, hbefore, he', he, hends, rfl, hpair,
      hinformative, hopen⟩

/-- The pair of such a warning is completed from then on, whatever relations follow. -/
theorem mem_completed_of_warns {after : List RelationAnnotation} {id : AnnotationId}
    (h : Warns segments before r (.legacyPlaceholder id p)) :
    p ∈ (scanRelations (before ++ r :: after) segments .adjacent).completed := by
  obtain ⟨init, previous, e, e', rfl, he, hr, hends, -, hpair, hinformative, -⟩ :=
    warns_legacyPlaceholder_iff.1 h
  have hfollows : Follows (init ++ [previous] ++ r :: after) segments e e' :=
    ⟨previous, r, ⟨init, after, by simp⟩, he, hr⟩
  exact mem_completed_adjacent_iff_first.2 (.inr ⟨e, e', hfollows, hends, hpair, hinformative⟩)

/-! ### Where the warnings are true -/

/-- **Only placeholders are taken for placeholders**: wherever one is reported, the edge before says
nothing, and conversely. -/
structure OnlyPlaceholders (relations : List RelationAnnotation) (segments : SegmentList) :
    Prop where
  /-- A relation with the warning of a placeholder directly follows an edge with the same ends that
  says nothing. -/
  warned (before : List RelationAnnotation) (r : RelationAnnotation)
    (after : List RelationAnnotation) (id : AnnotationId) (p : Pair)
    (hsplit : relations = before ++ r :: after)
    (hwarns : Warns segments before r (.legacyPlaceholder id p)) :
    ∃ init previous e e', before = init ++ [previous] ∧ previous.edge? segments = some e ∧
      r.edge? segments = some e' ∧ e.ends = e'.ends ∧ e.isInformative = false
  /-- A completed pair whose first edge says nothing has an edge that says something and directly
  follows one with the same ends that says nothing. -/
  completed (p : Pair) (e₀ : Edge)
    (hfirst : (relations.filterMap (·.edge? segments)).find? (·.pair = p) = some e₀)
    (hnothing : e₀.isInformative = false)
    (hcompleted : p ∈ (scanRelations relations segments .adjacent).completed) :
    ∃ e e', Follows relations segments e e' ∧ e.ends = e'.ends ∧ e'.pair = p ∧
      e.isInformative = false ∧ e'.isInformative = true

/-- A label that came too late and is restated: an edge that says something and leaves its pair
incomplete, directly followed by one with the same ends that says something. -/
def LateLabelRestated (relations : List RelationAnnotation) (segments : SegmentList) : Prop :=
  ∃ init previous r after e e', relations = init ++ previous :: r :: after ∧
    previous.edge? segments = some e ∧ r.edge? segments = some e' ∧ e.ends = e'.ends ∧
    e.isInformative = true ∧ e'.isInformative = true ∧
    e.pair ∉ (scanRelations (init ++ [previous]) segments .adjacent).completed

/-- Where no late label is restated, the warning of a placeholder is left behind placeholders. -/
theorem isInformative_eq_false_of_warns {id : AnnotationId}
    {init after : List RelationAnnotation} {previous : RelationAnnotation} {e : Edge}
    (hnone : ¬LateLabelRestated (init ++ previous :: r :: after) segments)
    (he : previous.edge? segments = some e)
    (hwarns : Warns segments (init ++ [previous]) r (.legacyPlaceholder id p)) :
    e.isInformative = false := by
  obtain ⟨init', previous', e', e'', hbefore, he', hr, hends, -, rfl, hinformative, hopen⟩ :=
    warns_legacyPlaceholder_iff.1 hwarns
  obtain ⟨rfl, hlast⟩ := List.append_inj' hbefore rfl
  obtain rfl : previous = previous' := List.singleton_inj.1 hlast
  obtain rfl : e = e' := Option.some.inj (he.symm.trans he')
  by_contra hlate
  refine hnone ⟨init, previous, r, after, e, e'', rfl, he, hr, hends, ?_, hinformative, ?_⟩
  · simpa using hlate
  · rwa [pair_eq_of_ends_eq he hr hends]

/-- The placeholders that are reported are placeholders indeed exactly if no label that came too
late is restated. -/
theorem onlyPlaceholders_iff :
    OnlyPlaceholders relations segments ↔ ¬LateLabelRestated relations segments := by
  constructor
  · rintro honly ⟨init, previous, r, after, e, e', rfl, he, hr, hends, hlate, hinformative, hopen⟩
    have hwarns : Warns segments (init ++ [previous]) r (.legacyPlaceholder r.id e'.pair) := by
      rw [pair_eq_of_ends_eq he hr hends] at hopen
      exact warns_legacyPlaceholder_iff.2
        ⟨init, previous, e, e', rfl, he, hr, hends, rfl, rfl, hinformative, hopen⟩
    obtain ⟨init', previous', e₁, -, hbefore, he₁, -, -, hnothing⟩ :=
      honly.warned _ r after _ _ (by simp) hwarns
    obtain ⟨-, hlast⟩ := List.append_inj' hbefore rfl
    obtain rfl : previous = previous' := List.singleton_inj.1 hlast
    obtain rfl : e = e₁ := Option.some.inj (he.symm.trans he₁)
    rw [hnothing] at hlate
    cases hlate
  · intro hnone
    constructor
    · rintro before r after id p rfl hwarns
      obtain ⟨init, previous, e, e', rfl, he, hr, hends, -⟩ := warns_legacyPlaceholder_iff.1 hwarns
      rw [List.append_assoc] at hnone
      exact ⟨init, previous, e, e', rfl, he, hr, hends,
        isInformative_eq_false_of_warns hnone he hwarns⟩
    · intro p e₀ hfirst hnothing hcompleted
      obtain ⟨before, r, after, rfl, hwarns⟩ :=
        exists_warns_of_completed hfirst hnothing hcompleted
      obtain ⟨init, previous, e, e', rfl, he, hr, hends, -, hpair, hinformative, -⟩ :=
        warns_legacyPlaceholder_iff.1 hwarns
      rw [List.append_assoc] at hnone
      have hfollows : Follows (init ++ [previous] ++ r :: after) segments e e' :=
        ⟨previous, r, ⟨init, after, by simp⟩, he, hr⟩
      exact ⟨e, e', hfollows, hends, hpair, isInformative_eq_false_of_warns hnone he hwarns,
        hinformative⟩

/-- **What the warning of a placeholder tells.**  Every warning is left at one relation.  That of a
placeholder is left exactly at an edge that says something and directly follows one with the same
ends while its pair is not completed, and a pair whose first edge says nothing is completed exactly
where it is left.  The edge that is followed says nothing, as the warning tells, and such a pair is
completed behind a placeholder only, if and only if no label that came too late is restated. -/
theorem placeholder_warnings (relations : List RelationAnnotation) (segments : SegmentList) :
    (∀ w, w ∈ (PairSet.enumerate relations segments .adjacent).2 ↔
      ∃ before r after, relations = before ++ r :: after ∧ Warns segments before r w) ∧
    (∀ before r id p, Warns segments before r (.legacyPlaceholder id p) ↔
      ∃ init previous e e', before = init ++ [previous] ∧ previous.edge? segments = some e ∧
        r.edge? segments = some e' ∧ e.ends = e'.ends ∧ r.id = id ∧ e'.pair = p ∧
        e'.isInformative = true ∧ p ∉ (scanRelations before segments .adjacent).completed) ∧
    (∀ p e₀, (relations.filterMap (·.edge? segments)).find? (·.pair = p) = some e₀ →
      e₀.isInformative = false →
        (p ∈ (scanRelations relations segments .adjacent).completed ↔
          ∃ before r after, relations = before ++ r :: after ∧
            Warns segments before r (.legacyPlaceholder r.id p))) ∧
    (OnlyPlaceholders relations segments ↔ ¬LateLabelRestated relations segments) := by
  refine ⟨fun w => mem_warnings_iff, fun before r id p => warns_legacyPlaceholder_iff, ?_,
    onlyPlaceholders_iff⟩
  intro p e₀ hfirst hnothing
  constructor
  · exact exists_warns_of_completed hfirst hnothing
  · rintro ⟨before, r, after, rfl, hwarns⟩
    exact mem_completed_of_warns hwarns

/-- An edge that is marked as having no relation, and one with the same ends that has a label. -/
def placeholderThenLabel : List RelationAnnotation :=
  [⟨⟨1⟩, ⟨3, 5⟩, ⟨0, 2⟩, some "unset"⟩, ⟨⟨2⟩, ⟨3, 5⟩, ⟨0, 2⟩, some "cause"⟩]

/-- The first edge of the pair says nothing, and the second one is warned of and completes it. -/
theorem placeholder_warnings_label :
    (placeholderThenLabel.filterMap (·.edge? Document.threeSegments)).find?
        (·.pair = ⟨0, 1, by decide⟩) = some ⟨⟨1⟩, 1, 0, ⟨0, 1, by decide⟩, false⟩ ∧
      ⟨0, 1, by decide⟩ ∈
        (scanRelations placeholderThenLabel Document.threeSegments .adjacent).completed ∧
      ∃ before r after, placeholderThenLabel = before ++ r :: after ∧
        Warns Document.threeSegments before r (.legacyPlaceholder r.id ⟨0, 1, by decide⟩) := by
  have hfirst : (placeholderThenLabel.filterMap (·.edge? Document.threeSegments)).find?
      (·.pair = ⟨0, 1, by decide⟩) = some ⟨⟨1⟩, 1, 0, ⟨0, 1, by decide⟩, false⟩ := by decide
  have hcompleted : ⟨0, 1, by decide⟩ ∈
      (scanRelations placeholderThenLabel Document.threeSegments .adjacent).completed := by decide
  have hwarnings := (placeholder_warnings placeholderThenLabel Document.threeSegments).2.2.1
  exact ⟨hfirst, hcompleted, (hwarnings _ _ hfirst rfl).1 hcompleted⟩

/-- Three relations between two segments: one way they are marked as having no relation, the other
way they have a label, which comes too late, and then a second one. -/
def secondThought : List RelationAnnotation :=
  [⟨⟨1⟩, ⟨0, 2⟩, ⟨3, 5⟩, some "unset"⟩, ⟨⟨2⟩, ⟨3, 5⟩, ⟨0, 2⟩, some "cause"⟩,
    ⟨⟨3⟩, ⟨3, 5⟩, ⟨0, 2⟩, some "effect"⟩]

/-- The second label completes the pair with the warning that it follows a placeholder, but what it
follows is the first label, and nowhere does a label follow a placeholder. -/
theorem secondThought_taken_for_late :
    (PairSet.enumerate secondThought Document.threeSegments .adjacent).2 =
        [.legacyPlaceholder ⟨3⟩ ⟨0, 1, by decide⟩] ∧
      (PairSet.enumerate secondThought Document.threeSegments .adjacent).1.completed =
        [⟨0, 1, by decide⟩] ∧
      ¬OnlyPlaceholders secondThought Document.threeSegments := by
  refine ⟨by decide, by decide, fun honly => onlyPlaceholders_iff.1 honly ?_⟩
  exact ⟨[⟨⟨1⟩, ⟨0, 2⟩, ⟨3, 5⟩, some "unset"⟩], ⟨⟨2⟩, ⟨3, 5⟩, ⟨0, 2⟩, some "cause"⟩,
    ⟨⟨3⟩, ⟨3, 5⟩, ⟨0, 2⟩, some "effect"⟩, [], ⟨⟨2⟩, 1, 0, ⟨0, 1, by decide⟩, true⟩,
    ⟨⟨3⟩, 1, 0, ⟨0, 1, by decide⟩, true⟩, rfl, by decide, by decide, rfl, rfl, rfl, by decide⟩

end PairAnnotation
