/-
# The first edge decides

Under the policy that a pair's first edge decides, a scan keeps five pieces of state: the
order of the pairs, the completed ones, the warnings, the ends of all edges so far and
those of the relation right before.  What comes out of it can be said of the list of
relations alone.  The candidates are the pairs of the edges, in the order of their first
occurrences, whatever the policy (`PairSet.candidates_enumerate`).  A pair is completed by
its first edge or by an edge that directly follows one with the same ends in the list of
all relations (`mem_completed_adjacent_iff_first`).
-/

import PairAnnotation.Proofs.PairSet.Completion
import PairAnnotation.Proofs.PairSet.Register

namespace PairAnnotation

variable {segments : SegmentList} {relations : List RelationAnnotation} {p : Pair}

/-- **One edge directly follows another one** in a list of relations, with nothing between them. -/
def Follows (relations : List RelationAnnotation) (segments : SegmentList) (e e' : Edge) : Prop :=
  ∃ r r', [r, r'] <:+: relations ∧ r.edge? segments = some e ∧ r'.edge? segments = some e'

/-- The first edge of a pair stands behind relations that are no edges of the pair. -/
theorem find?_edge_eq_some_iff {e : Edge} :
    (relations.filterMap (·.edge? segments)).find? (·.pair = p) = some e ↔
      ∃ before r after, relations = before ++ r :: after ∧ r.edge? segments = some e ∧
        e.pair = p ∧ ∀ x ∈ before.filterMap (·.edge? segments), x.pair ≠ p := by
  rw [List.find?_eq_some_iff_append]
  constructor
  · rintro ⟨hpair, before, after, hsplit, hbefore⟩
    obtain ⟨l, l', rfl, rfl, hl'⟩ := List.filterMap_eq_append_iff.1 hsplit
    obtain ⟨skipped, r, rest, rfl, hskipped, hr, -⟩ := List.filterMap_eq_cons_iff.1 hl'
    refine ⟨l ++ skipped, r, rest, by simp, hr, of_decide_eq_true hpair, ?_⟩
    intro x hx
    rw [List.filterMap_append, List.filterMap_eq_nil_iff.2 hskipped, List.append_nil] at hx
    simpa using hbefore x hx
  · rintro ⟨before, r, after, rfl, hr, hpair, hbefore⟩
    refine ⟨decide_eq_true hpair, before.filterMap (·.edge? segments),
      after.filterMap (·.edge? segments), ?_, fun x hx => by simpa using hbefore x hx⟩
    rw [List.filterMap_append, List.filterMap_cons_some hr]

/-- **What completes a pair when the first edge decides**, said of the list of relations: its first
edge says something, or some edge of it says something and directly follows an edge with the same
ends. -/
theorem mem_completed_adjacent_iff_first :
    p ∈ (scanRelations relations segments .adjacent).completed ↔
      (∃ e, (relations.filterMap (·.edge? segments)).find? (·.pair = p) = some e ∧
        e.isInformative = true) ∨
      ∃ e e', Follows relations segments e e' ∧ e.ends = e'.ends ∧ e'.pair = p ∧
        e'.isInformative = true := by
  rw [mem_completed_adjacent_iff]
  constructor
  · rintro ⟨before, r, after, e, hsplit, hr, hpair, hinformative, hfirst | hprevious⟩
    · left
      exact ⟨e, find?_edge_eq_some_iff.2 ⟨before, r, after, hsplit, hr, hpair, hfirst⟩,
        hinformative⟩
    · right
      obtain ⟨e₀, hlast, hends⟩ := Option.map_eq_some_iff.1 hprevious
      obtain ⟨r₀, hr₀, he₀⟩ := Option.bind_eq_some_iff.1 hlast
      obtain ⟨init, rfl⟩ := List.getLast?_eq_some_iff.1 hr₀
      have hfollows : Follows relations segments e₀ e :=
        ⟨r₀, r, ⟨init, after, by simp [hsplit]⟩, he₀, hr⟩
      exact ⟨e₀, e, hfollows, hends, hpair, hinformative⟩
  · rintro (⟨e, hfirst, hinformative⟩ |
      ⟨e, e', ⟨r, r', ⟨init, after, hsplit⟩, hr, hr'⟩, hends, hpair, hinformative⟩)
    · obtain ⟨before, r, after, hsplit, hr, hpair, hbefore⟩ := find?_edge_eq_some_iff.1 hfirst
      exact ⟨before, r, after, e, hsplit, hr, hpair, hinformative, .inl hbefore⟩
    · refine ⟨init ++ [r], r', after, e', by simp [← hsplit], hr', hpair, hinformative, .inr ?_⟩
      simp [hr, hends]

namespace PairSet

/-- What a pair set keeps of pairs that came in is a matter of its candidates. -/
theorem KeepsFirst.congr {pairs : List Pair} {s t : PairSet} (h : KeepsFirst pairs s)
    (heq : t.candidates = s.candidates) : KeepsFirst pairs t := by
  obtain ⟨c, completed, nodup⟩ := s
  obtain ⟨c', completed', nodup'⟩ := t
  obtain rfl : c' = c := heq
  exact ⟨h.nodup, h.mem, h.order, h.get?, h.position?, h.ascending, h.eligible⟩

/-- **The candidates are the pairs of the edges**, whatever the policy. -/
theorem candidates_enumerate (relations : List RelationAnnotation) (segments : SegmentList)
    (policy : DuplicatePolicy) :
    (enumerate relations segments policy).1.candidates =
      (ofPairs ((relations.filterMap (·.edge? segments)).map (·.pair))).candidates := by
  have horder : (scanRelations relations segments policy).order =
      firstOccurrences ((relations.filterMap (·.edge? segments)).map (·.pair)) := by
    cases policy with
    | adjacent => exact Scan.order_foldl relations
    | lastWriteWins => exact Scan.order_foldl relations
  have honce : firstOccurrences (scanRelations relations segments policy).order =
      firstOccurrences ((relations.filterMap (·.edge? segments)).map (·.pair)) := by
    rw [horder, firstOccurrences_of_nodup (nodup_firstOccurrences _)]
  simp only [enumerate, withCompleted, ofPairs, honce]

/-- **What a scan finds when the first edge decides.**  An edge is a relation whose two ends are
segments at different indices.  The candidates are the pairs of the edges, each once and in the
order of first occurrences, and the policy that the last label counts has the same ones.  A pair is
completed exactly when its first edge says something, or when some edge of it says something and
directly follows an edge with the same ends in the list of all relations. -/
theorem enumerate_adjacent (relations : List RelationAnnotation) (segments : SegmentList) :
    let edges := relations.filterMap (·.edge? segments)
    let listed := (enumerate relations segments .adjacent).1
    (∀ (r : RelationAnnotation) (e : Edge), r.edge? segments = some e ↔
      segments.indexOf? r.dependent = some e.dependent ∧
        segments.indexOf? r.governor = some e.governor ∧
        Pair.of? e.dependent e.governor = some e.pair ∧ e.relation = r.id ∧
        e.isInformative = r.isInformative) ∧
      KeepsFirst (edges.map (·.pair)) listed ∧
      listed.toList = (enumerate relations segments .lastWriteWins).1.toList ∧
      ∀ p, listed.isCompleted p = true ↔
        (∃ e, edges.find? (·.pair = p) = some e ∧ e.isInformative = true) ∨
          ∃ e e', Follows relations segments e e' ∧ e.ends = e'.ends ∧ e'.pair = p ∧
            e'.isInformative = true := by
  intro edges listed
  refine ⟨fun r e => RelationAnnotation.edge?_eq_some_iff_indices, ?_, ?_, fun p => ?_⟩
  · exact (keepsFirst_ofPairs _).congr (candidates_enumerate relations segments .adjacent)
  · have hcandidates := (candidates_enumerate relations segments .adjacent).trans
      (candidates_enumerate relations segments .lastWriteWins).symm
    exact congrArg Candidates.toList hcandidates
  · exact isCompleted_iff.trans
      (mem_completed_withCompleted.trans mem_completed_adjacent_iff_first)

end PairSet
end PairAnnotation
