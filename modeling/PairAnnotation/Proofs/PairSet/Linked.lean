/-
# Partners and linked spans

Which segments a relation connects is kept twice.  A pair set of relations knows it by
indices: what may stand opposite an index (`PairSet.eligible`).  An index of relations
knows it by spans: what a span is linked with (`RelationIndex.linked`), in a table filled
relation by relation (`RelationIndex.foldl_link`).  The first one skips an end that is no
segment and a relation of a segment with itself; the second one keeps both.  Where no two
segments share a span, the two say the same of every two different segments.
-/

import PairAnnotation.Proofs.PairSet.Completion
import PairAnnotation.Proofs.PairSet.LastLabels
import PairAnnotation.Proofs.PairSet.Register

namespace PairAnnotation

/-! ### Linked spans -/

namespace RelationIndex

variable {x : RelationIndex} {s t : Span}

/-- **A link leads both ways**: the segments that are linked with one are those that it is linked
with. -/
theorem linked_symm : t ∈ x.linked s ↔ s ∈ x.linked t := by
  rw [mem_linked, mem_linked]
  refine exists_congr fun r => and_congr_right fun _ => ?_
  rw [or_comm, and_comm, and_comm (a := r.dependent = s)]

/-- The spans that are linked with one stand in order, and none stands there twice. -/
theorem pairwise_linked (x : RelationIndex) (s : Span) : (x.linked s).Pairwise Span.Before :=
  Span.tellsOrder_le.pairwise_ascending _

/-- One more relation links each of its ends with the other one. -/
def link (table : Span → List Span) (r : RelationAnnotation) : Span → List Span :=
  addNeighbour Span.le (addNeighbour Span.le table r.dependent r.governor) r.governor r.dependent

/-- A relation makes its two ends neighbours of each other, and nothing else. -/
theorem mem_link {table : Span → List Span} {r : RelationAnnotation} :
    t ∈ link table r s ↔
      t ∈ table s ∨ (r.dependent = s ∧ r.governor = t) ∨ (r.governor = s ∧ r.dependent = t) := by
  rw [link, mem_addNeighbour, mem_addNeighbour, eq_comm (a := s), eq_comm (a := t),
    eq_comm (a := s), eq_comm (a := t)]
  tauto

/-- Linking another two spans keeps the neighbours of every span in order. -/
theorem pairwise_link {table : Span → List Span} (r : RelationAnnotation)
    (h : ∀ s, (table s).Pairwise Span.Before) (s : Span) :
    (link table r s).Pairwise Span.Before :=
  Span.tellsOrder_le.pairwise_addNeighbour _ _
    (Span.tellsOrder_le.pairwise_addNeighbour _ _ h) s

/-- After a number of relations, the neighbours of a span are those at the other ends of its
relations. -/
theorem mem_foldl_link {edges : List RelationAnnotation} {table : Span → List Span} :
    t ∈ edges.foldl link table s ↔ t ∈ table s ∨ ∃ r ∈ edges,
      (r.dependent = s ∧ r.governor = t) ∨ (r.governor = s ∧ r.dependent = t) := by
  induction edges generalizing table with
  | nil => simp
  | cons r rest ih =>
    rw [List.foldl_cons, ih, mem_link, or_assoc]
    simp only [List.mem_cons, or_and_right, exists_or, exists_eq_left]

/-- Linking the ends of several relations keeps the neighbours of every span in order. -/
theorem pairwise_foldl_link (edges : List RelationAnnotation) {table : Span → List Span}
    (h : ∀ s, (table s).Pairwise Span.Before) (s : Span) :
    (edges.foldl link table s).Pairwise Span.Before := by
  induction edges generalizing table with
  | nil => exact h s
  | cons r rest ih => exact ih (pairwise_link r h)

/-- **The table filled relation by relation** has the linked spans of each span. -/
theorem foldl_link (x : RelationIndex) (s : Span) :
    x.edges.foldl link (fun _ => []) s = x.linked s := by
  refine (pairwise_foldl_link _ (fun _ => List.Pairwise.nil) s).eq_of_mem_iff
    (x.pairwise_linked s) fun t => ?_
  rw [mem_foldl_link, mem_linked]
  simp

end RelationIndex

/-! ### Two segments of one relation -/

variable {segments : SegmentList} {relations : List RelationAnnotation} {policy : DuplicatePolicy}
variable {i j : Nat} {span : Span}

open RelationAnnotation (edge?_eq_some_iff_indices)

/-- **A relation brings a segment together with another one** when its ends are their spans, in
either direction. -/
theorem exists_edge?_iff {r : RelationAnnotation} (hi : segments.indexOf? span = some i)
    (hne : j ≠ i) :
    (∃ e, r.edge? segments = some e ∧ Pair.of? i j = some e.pair) ↔
      ∃ t, segments.indexOf? t = some j ∧
        ((r.dependent = span ∧ r.governor = t) ∨ (r.governor = span ∧ r.dependent = t)) := by
  constructor
  · rintro ⟨e, he, hpair⟩
    obtain ⟨hd, hg, hof, -, -⟩ := edge?_eq_some_iff_indices.1 he
    have hends : (e.dependent = i ∧ e.governor = j) ∨ (e.dependent = j ∧ e.governor = i) := by
      rcases Pair.of?_eq_some_iff.1 hof with h | h <;>
        rcases Pair.of?_eq_some_iff.1 hpair with h' | h' <;> simp [h, h']
    rcases hends with ⟨rfl, rfl⟩ | ⟨rfl, rfl⟩
    · exact ⟨r.governor, hg, .inl ⟨SegmentList.indexOf?_inj hd hi, rfl⟩⟩
    · exact ⟨r.dependent, hd, .inr ⟨SegmentList.indexOf?_inj hg hi, rfl⟩⟩
  · rintro ⟨t, ht, hends⟩
    obtain ⟨p, hp⟩ := Option.ne_none_iff_exists'.1 (mt Pair.of?_eq_none_iff.1 hne.symm)
    rcases hends with ⟨rfl, rfl⟩ | ⟨rfl, rfl⟩
    · exact ⟨⟨r.id, i, j, p, r.isInformative⟩,
        edge?_eq_some_iff_indices.2 ⟨hi, ht, hp, rfl, rfl⟩, hp⟩
    · exact ⟨⟨r.id, j, i, p, r.isInformative⟩,
        edge?_eq_some_iff_indices.2 ⟨ht, hi, (Pair.of?_comm j i).trans hp, rfl, rfl⟩, hp⟩

namespace PairSet

/-- Opposite an index may stand, beside itself, what a relation brings together with it. -/
theorem mem_eligible_enumerate (hne : j ≠ i) :
    j ∈ (enumerate relations segments policy).1.eligible i ↔
      ∃ r ∈ relations, ∃ e, r.edge? segments = some e ∧ Pair.of? i j = some e.pair := by
  change j ∈ (ofPairs (scanRelations relations segments policy).order).eligible i ↔ _
  rw [mem_eligible_ofPairs, or_iff_right hne]
  simp only [mem_order_scanRelations, List.mem_filterMap, Pair.partner?_eq_some_iff]
  constructor
  · rintro ⟨p, ⟨e, ⟨r, hr, he⟩, rfl⟩, hp⟩
    exact ⟨r, hr, e, he, hp⟩
  · rintro ⟨r, hr, e, he, hp⟩
    exact ⟨e.pair, ⟨e, ⟨r, hr, he⟩, rfl⟩, hp⟩

/-- **Opposite a segment may stand the segments of the spans linked with its own.** -/
theorem mem_eligible_iff_linked (tags : TagSet) (hi : segments.indexOf? span = some i)
    (hne : j ≠ i) :
    j ∈ (enumerate relations segments policy).1.eligible i ↔
      ∃ t ∈ (⟨relations, tags⟩ : RelationIndex).linked span, segments.indexOf? t = some j := by
  rw [mem_eligible_enumerate hne]
  simp only [exists_edge?_iff hi hne, RelationIndex.mem_linked]
  constructor
  · rintro ⟨r, hr, t, ht, hends⟩
    exact ⟨t, ⟨r, hr, hends⟩, ht⟩
  · rintro ⟨t, ⟨r, hr, hends⟩, ht⟩
    exact ⟨r, hr, t, ht, hends⟩

/-- **Eligible partners are the linked segments.**  Where no two segments share a span, what may
stand opposite a segment beside itself is, index by index, what the spans linked with its own are
found as, its own span and the spans that are no segment left out; this is so for every list of
relations and both policies.  The linked spans are those of the table filled relation by relation,
and a link leads both ways. -/
theorem eligible_perm_linked (relations : List RelationAnnotation) {segments : SegmentList}
    (policy : DuplicatePolicy) (tags : TagSet) (h : segments.Distinct) :
    let index : RelationIndex := ⟨relations, tags⟩
    (∀ i span, segments.spanAt? i = some span →
      (((enumerate relations segments policy).1.eligible i).filter (· ≠ i)).Perm
        (((index.linked span).filter (· ≠ span)).filterMap segments.indexOf?)) ∧
      (∀ s, index.linked s = relations.foldl RelationIndex.link (fun _ => []) s) ∧
      ∀ s t, t ∈ index.linked s ↔ s ∈ index.linked t := by
  intro index
  refine ⟨fun i span hspan => ?_, fun s => (index.foldl_link s).symm,
    fun s t => RelationIndex.linked_symm⟩
  have hi : segments.indexOf? span = some i := h.indexOf?_eq hspan
  have heligible : (((enumerate relations segments policy).1.eligible i).filter (· ≠ i)).Nodup :=
    ((Candidates.pairwise_eligible _ i).imp Nat.ne_of_lt).filter _
  have hlinked : (((index.linked span).filter (· ≠ span)).filterMap segments.indexOf?).Nodup :=
    ((index.pairwise_linked span).nodup.filter _).filterMap
      fun _ _ _ ha hb => SegmentList.indexOf?_inj ha hb
  rw [List.perm_ext_iff_of_nodup heligible hlinked]
  intro j
  simp only [List.mem_filter, List.mem_filterMap, decide_eq_true_eq]
  constructor
  · rintro ⟨hj, hne⟩
    obtain ⟨t, ht, hindex⟩ := (mem_eligible_iff_linked tags hi hne).1 hj
    refine ⟨t, ⟨ht, ?_⟩, hindex⟩
    rintro rfl
    exact hne (Option.some.inj (hindex.symm.trans hi))
  · rintro ⟨t, ⟨ht, hne⟩, hindex⟩
    have hne : j ≠ i := by
      rintro rfl
      exact hne (SegmentList.indexOf?_inj hindex hi)
    exact ⟨(mem_eligible_iff_linked tags hi hne).2 ⟨t, ht, hindex⟩, hne⟩

/-- The second of three segments is linked with the other two, with itself and with a span that is
no segment; opposite it may stand the other two. -/
theorem eligible_perm_linked_relabelled :
    let index : RelationIndex := ⟨relabelled, ⟨"", []⟩⟩
    Document.threeSegments.Distinct ∧ Document.threeSegments.spanAt? 1 = some ⟨3, 5⟩ ∧
      index.linked ⟨3, 5⟩ = [⟨0, 1⟩, ⟨0, 2⟩, ⟨3, 5⟩, ⟨6, 8⟩] ∧
      (((enumerate relabelled Document.threeSegments .adjacent).1.eligible 1).filter (· ≠ 1)).Perm
        [0, 2] := by
  intro index
  have hdistinct : Document.threeSegments.Distinct := by decide
  have hspan : Document.threeSegments.spanAt? 1 = some ⟨3, 5⟩ := by decide
  exact ⟨hdistinct, hspan, by decide,
    (eligible_perm_linked relabelled .adjacent ⟨"", []⟩ hdistinct).1 1 ⟨3, 5⟩ hspan⟩

end PairSet
end PairAnnotation
