/-
# Segments that are found again

A span leads to the first segment that has it.  So a segment is found again by its own
span (`SegmentList.Finds`) when no earlier one has the same span, and all are found
again when the spans of the segments are different (`SegmentList.forall_finds_iff`).
Whether they are can be told from the document (`SegmentList.distinct_load_iff`): from
the annotations of the sentence layer if it brings the segments, from its sentences
otherwise (`SegmentList.boundaries`); sentences that are split off the text never share
a span.

A relation between the spans of a pair is read as that pair when both of its segments are
found again (`SegmentList.readsBack_iff`).  Pairs that come from relations are; of all
combinations every one is exactly if all segments are (`Session.readsBack_candidatesOf_iff`).
-/

import PairAnnotation.Proofs.PairSet.LastLabels
import PairAnnotation.Proofs.Session.Segmentation
import PairAnnotation.Proofs.Text.Sentences

namespace PairAnnotation

namespace SegmentList

variable {s : SegmentList} {i j : Nat} {span : Span} {p q : Pair}

/-! ### One segment -/

/-- **A segment is found again** when its span leads to its index. -/
def Finds (s : SegmentList) (i : Nat) : Prop :=
  ∃ span, s.spanAt? i = some span ∧ s.indexOf? span = some i

/-- The span of a segment leads to that segment or to an earlier one. -/
theorem exists_indexOf?_le (h : s.spanAt? i = some span) :
    ∃ first ≤ i, s.indexOf? span = some first := by
  obtain ⟨segment, hsegment, rfl⟩ := Option.map_eq_some_iff.1 h
  obtain ⟨hi, rfl⟩ := List.getElem?_eq_some_iff.1 hsegment
  have hsome : (s.indexOf? s.segments[i].span).isSome = true := by
    rw [indexOf?, List.findIdx?_isSome, List.any_eq_true]
    exact ⟨s.segments[i], List.getElem_mem hi, beq_self_eq_true _⟩
  obtain ⟨first, hfirst⟩ := Option.isSome_iff_exists.1 hsome
  refine ⟨first, ?_, hfirst⟩
  obtain ⟨_, -, hnone⟩ := List.findIdx?_eq_some_iff_getElem.1 hfirst
  by_contra hlt
  exact hnone i (by omega) (beq_self_eq_true _)

/-- Two segments that are found again are one segment if they have the same span. -/
theorem Finds.index_eq (hi : s.Finds i) (hj : s.Finds j) (h : s.spanAt? i = s.spanAt? j) :
    i = j := by
  obtain ⟨a, ha, hia⟩ := hi
  obtain ⟨b, hb, hjb⟩ := hj
  rw [ha, hb, Option.some.injEq] at h
  rw [h, hjb] at hia
  exact (Option.some.inj hia).symm

/-- **All segments are found again exactly when no two of them share a span.** -/
theorem forall_finds_iff : (∀ i < s.length, s.Finds i) ↔ s.Distinct := by
  constructor
  · intro hall
    rw [Distinct, List.nodup_iff_injective_getElem]
    rintro ⟨i, hi⟩ ⟨j, hj⟩ heq
    rw [List.length_map] at hi hj
    have hspan : s.spanAt? i = s.spanAt? j := by
      simp only [List.getElem_map] at heq
      rw [spanAt?, spanAt?, get?, get?, List.getElem?_eq_getElem hi, List.getElem?_eq_getElem hj,
        Option.map_some, Option.map_some, heq]
    have hij : i = j := (hall i hi).index_eq (hall j hj) hspan
    simp [hij]
  · intro hdistinct i hi
    obtain ⟨span, hspan⟩ := exists_spanAt? hi
    exact ⟨span, hspan, hdistinct.indexOf?_eq hspan⟩

/-! ### One pair -/

/-- **A pair is read back** when every relation between the spans of its two segments, whichever
way it points, is read as an edge of the pair. -/
def ReadsBack (s : SegmentList) (p : Pair) : Prop :=
  ∃ low high, s.spanAt? p.low = some low ∧ s.spanAt? p.high = some high ∧
    ∀ r : RelationAnnotation, r.links low high = true ∨ r.links high low = true →
      ∃ e, r.edge? s = some e ∧ e.pair = p

open RelationAnnotation (links_iff edge?_of_links edge?_eq_some_iff_indices)

/-- **A pair is read back exactly if both of its segments are found again**, since its relations are
known by spans alone. -/
theorem readsBack_iff : s.ReadsBack p ↔ s.Finds p.low ∧ s.Finds p.high := by
  have horder := p.low_lt_high
  constructor
  · rintro ⟨low, high, hlow, hhigh, hread⟩
    obtain ⟨e, he, rfl⟩ := hread ⟨⟨0⟩, low, high, none⟩ (.inl (links_iff.2 ⟨rfl, rfl⟩))
    obtain ⟨hd, hg, hpair, -, -⟩ := edge?_eq_some_iff_indices.1 he
    rcases Pair.of?_eq_some_iff.1 hpair with ⟨hdependent, hgovernor⟩ | ⟨hdependent, hgovernor⟩
    · exact ⟨⟨low, hlow, hdependent ▸ hd⟩, ⟨high, hhigh, hgovernor ▸ hg⟩⟩
    · -- The first segment with the lower span cannot be the higher one.
      obtain ⟨first, hle, hfirst⟩ := exists_indexOf?_le hlow
      have heq : first = e.dependent := Option.some.inj (hfirst.symm.trans hd)
      omega
  · rintro ⟨⟨low, hlow, hfoundLow⟩, high, hhigh, hfoundHigh⟩
    refine ⟨low, high, hlow, hhigh, fun r hr => ?_⟩
    rcases hr with hr | hr
    · exact ⟨_, edge?_of_links hfoundLow hfoundHigh p.of?_members hr, rfl⟩
    · exact ⟨_, edge?_of_links hfoundHigh hfoundLow ((Pair.of?_comm _ _).trans p.of?_members) hr,
        rfl⟩

/-- The segments of two pairs have the same spans, whichever of them comes first. -/
def ShareSpans (s : SegmentList) (p q : Pair) : Prop :=
  (s.spanAt? p.low = s.spanAt? q.low ∧ s.spanAt? p.high = s.spanAt? q.high) ∨
    (s.spanAt? p.low = s.spanAt? q.high ∧ s.spanAt? p.high = s.spanAt? q.low)

/-- **A pair that is read back has its spans to itself** among such pairs. -/
theorem ReadsBack.eq_of_shareSpans (hp : s.ReadsBack p) (hq : s.ReadsBack q)
    (h : s.ShareSpans p q) : p = q := by
  obtain ⟨hplow, hphigh⟩ := readsBack_iff.1 hp
  obtain ⟨hqlow, hqhigh⟩ := readsBack_iff.1 hq
  have horder := p.low_lt_high
  have horder' := q.low_lt_high
  rw [Pair.ext_iff_members]
  rcases h with ⟨hlow, hhigh⟩ | ⟨hlow, hhigh⟩
  · exact ⟨hplow.index_eq hqlow hlow, hphigh.index_eq hqhigh hhigh⟩
  · have hlow := hplow.index_eq hqhigh hlow
    have hhigh := hphigh.index_eq hqlow hhigh
    omega

/-! ### The segments of a document -/

variable {d : Document} {layers : LayerConfig}

/-- **What the segments of a document are made of**: the annotations of the sentence layer if the
format allows them and there are any, and the sentences otherwise. -/
def boundaries (d : Document) (layers : LayerConfig) : List Span :=
  let layer := (d.spans.filter (·.layer == layers.sentenceLayer)).map (·.span)
  if layers.isPreAnnotatedFormat d.format = true ∧ layer ≠ [] then layer else d.sentences

/-- Ordering the annotations of a layer neither drops a span nor adds one. -/
theorem perm_layerSpans (d : Document) (layer : String) :
    ((d.layerSpans layer).map (·.span)).Perm
      ((d.spans.filter (·.layer == layer)).map (·.span)) :=
  (List.mergeSort_perm _ _).map _

/-- A document that brings its segments has them from the spans of its sentence layer. -/
theorem boundaries_of_fromLayer (h : FromLayer d layers) :
    boundaries d layers = (d.spans.filter (·.layer == layers.sentenceLayer)).map (·.span) := by
  have hperm := perm_layerSpans d layers.sentenceLayer
  refine if_pos ⟨h.1, fun hnil => h.2 ?_⟩
  rw [hnil, List.perm_nil, List.map_eq_nil_iff] at hperm
  exact hperm

/-- A document that does not bring its segments has them from its sentences. -/
theorem boundaries_of_not_fromLayer (h : ¬FromLayer d layers) :
    boundaries d layers = d.sentences := by
  have hperm := perm_layerSpans d layers.sentenceLayer
  refine if_neg fun ⟨hformat, hlayer⟩ => h ⟨hformat, fun hnil => hlayer ?_⟩
  rw [hnil, List.map_nil, List.nil_perm] at hperm
  exact hperm

/-- The spans of segments that do not come from the sentence layer. -/
theorem spans_derived (d : Document) :
    (derived d).segments.map (·.span) =
      if d.orderedSentences = [] ∧ Text.isAllBlank d.text = false then Text.sentences d.text
      else d.orderedSentences := by
  rw [derived, List.map_map]
  exact List.map_id'' (fun _ => rfl) _

/-- Sentences of a text come one after the other, so no two of them have the same span. -/
theorem pairwise_start_sentences (text : String) :
    (Text.sentences text).Pairwise fun a b => a.start < b.start := by
  have hsplits := Text.splits_sentences text
  refine hsplits.ordered.imp_of_mem fun {a b} ha _ h => ?_
  have hinside := (hsplits.inside a ha).1
  omega

/-- **The segments of a document have different spans exactly when its boundaries are
different.** -/
theorem distinct_load_iff : (load d layers).Distinct ↔ (boundaries d layers).Nodup := by
  by_cases hlayer : FromLayer d layers
  · rw [boundaries_of_fromLayer hlayer, ← (perm_layerSpans d _).nodup_iff, Distinct,
      load_of_fromLayer hlayer, List.map_map]
    rfl
  · have hperm : d.orderedSentences.Perm d.sentences := List.mergeSort_perm _ _
    rw [boundaries_of_not_fromLayer hlayer, ← hperm.nodup_iff, Distinct,
      load_of_not_fromLayer hlayer, spans_derived]
    split
    · rename_i h
      have hnodup : (Text.sentences d.text).Nodup :=
        (pairwise_start_sentences d.text).imp fun hlt heq => by simp [heq] at hlt
      simp [hnodup, h.1]
    · rfl

/-- The annotations of a layer are listed in the order of where they start. -/
theorem pairwise_start_layerSpans (d : Document) (layer : String) :
    (d.layerSpans layer).Pairwise fun a b => a.span.start ≤ b.span.start := by
  have hordered : (d.layerSpans layer).Pairwise fun a b => a.span.outerFirst b.span = true := by
    apply List.pairwise_mergeSort
    · intro a b c
      exact Span.outerFirst_trans
    · intro a b
      exact Span.outerFirst_total _ _
  refine hordered.imp fun h => ?_
  rw [Span.outerFirst_iff] at h
  omega

/-- The sentences of a document are listed in the order of where they start. -/
theorem pairwise_start_orderedSentences (d : Document) :
    d.orderedSentences.Pairwise fun a b => a.start ≤ b.start := by
  have hordered : d.orderedSentences.Pairwise fun a b => a.le b = true := by
    apply List.pairwise_mergeSort
    · intro a b c
      exact Span.le_trans
    · exact Span.le_total
  refine hordered.imp fun h => ?_
  rw [Span.le_iff] at h
  omega

/-- **Segments are in ascending order of their starts**, wherever they come from. -/
theorem pairwise_start_load (d : Document) (layers : LayerConfig) :
    (load d layers).segments.Pairwise fun a b => a.span.start ≤ b.span.start := by
  by_cases hlayer : FromLayer d layers
  · rw [load_of_fromLayer hlayer, List.pairwise_map]
    exact pairwise_start_layerSpans d _
  · have hspans : ((derived d).segments.map (·.span)).Pairwise fun a b => a.start ≤ b.start := by
      rw [spans_derived]
      split
      · exact (pairwise_start_sentences d.text).imp Nat.le_of_lt
      · exact pairwise_start_orderedSentences d
    rw [List.pairwise_map] at hspans
    rw [load_of_not_fromLayer hlayer]
    exact hspans

end SegmentList

namespace Session

open SegmentList (boundaries readsBack_iff forall_finds_iff distinct_load_iff)

/-! ### Candidates -/

/-- A pair that comes from a relation is read back. -/
theorem readsBack_enumerate {relations : List RelationAnnotation} {segments : SegmentList}
    {policy : DuplicatePolicy} {p : Pair}
    (hp : p ∈ (PairSet.enumerate relations segments policy).1.toList) : segments.ReadsBack p := by
  obtain ⟨low, high, hlow, hhigh⟩ := PairSet.exists_indexOf?_of_mem_enumerate hp
  rw [readsBack_iff]
  exact ⟨⟨low, SegmentList.spanAt?_of_indexOf? hlow, hlow⟩,
    ⟨high, SegmentList.spanAt?_of_indexOf? hhigh, hhigh⟩⟩

/-- All combinations of two or more segments are read back when the segments are found again. -/
theorem readsBack_enumerateAll_iff {relations : List RelationAnnotation} {segments : SegmentList}
    {policy : DuplicatePolicy} (h : 2 ≤ segments.length) :
    (∀ p ∈ (PairSet.enumerateAll relations segments policy).1.toList, segments.ReadsBack p) ↔
      segments.Distinct := by
  simp only [PairSet.mem_toList_enumerateAll, readsBack_iff, ← forall_finds_iff]
  constructor
  · intro hall i hi
    -- Every segment is in a pair with the first one, and the first one in a pair with the second.
    by_cases hzero : i = 0
    · subst hzero
      exact (hall ⟨0, 1, by omega⟩ h).1
    · exact (hall ⟨0, i, by omega⟩ hi).2
  · intro hall p hp
    have horder := p.low_lt_high
    exact ⟨hall _ (by omega), hall _ hp⟩

/-- **The candidates are all read back** when they come from relations or all segments are found
again. -/
theorem readsBack_candidatesOf_iff (relations : List RelationAnnotation) {segments : SegmentList}
    (policy : DuplicatePolicy) (h : 2 ≤ segments.length) :
    (∀ p ∈ (candidatesOf relations segments policy).1.toList, segments.ReadsBack p) ↔
      (candidatesOf relations segments policy).1.source = .relations ∨ segments.Distinct := by
  have hall : (∀ p ∈ (PairSet.enumerateAll relations segments policy).1.toList,
      segments.ReadsBack p) ↔
        (PairSet.enumerateAll relations segments policy).1.source = .relations ∨
          segments.Distinct := by
    rw [readsBack_enumerateAll_iff h, or_iff_right]
    exact fun hsource => nomatch hsource
  unfold candidatesOf
  split
  · exact hall
  · dsimp only
    split
    · exact hall
    · exact iff_of_true (fun p hp => readsBack_enumerate hp) (.inl rfl)

variable {σ : Type} [AnnotationStore σ]

/-- **How far segments are found again.**  The segments of any document are in ascending order of
their starts, and the span of each leads to the first segment that has it.  Each leads to its own
segment exactly when the document has no boundary twice.  Pairs that are read back do not share
their spans.  In every state of a session on the document, the relations between the spans of a
candidate are read back as that candidate, for all candidates, exactly when these come from
relations or no boundary is there twice. -/
theorem found_again_iff (d : Document) (config : Config) :
    let segments := SegmentList.load d config.layers
    segments.segments.Pairwise (fun a b => a.span.start ≤ b.span.start) ∧
      (∀ i span, segments.spanAt? i = some span →
        ∃ first ≤ i, segments.indexOf? span = some first) ∧
      ((∀ i < segments.length, segments.Finds i) ↔ (boundaries d config.layers).Nodup) ∧
      (∀ p q, segments.ReadsBack p → segments.ReadsBack q → segments.ShareSpans p q → p = q) ∧
      ∀ (store : σ) (s₀ : Session σ) (actions : List Action),
        AnnotationStore.document store = d → start store config = .ok s₀ →
        ((∀ p ∈ (s₀.run actions).pairs.toList, segments.ReadsBack p) ↔
          (s₀.run actions).pairs.source = .relations ∨ (boundaries d config.layers).Nodup) := by
  intro segments
  refine ⟨SegmentList.pairwise_start_load d config.layers,
    fun i span h => SegmentList.exists_indexOf?_le h,
    forall_finds_iff.trans distinct_load_iff, fun p q hp hq => hp.eq_of_shareSpans hq, ?_⟩
  rintro store s₀ actions rfl hstart
  have hlength : 2 ≤ segments.length := start_isOk_iff.1 ⟨s₀, hstart⟩
  obtain ⟨-, -, hsegments, -, hpairs, -⟩ := start_eq_ok hstart
  rw [hsegments] at hpairs
  have hcandidates : (s₀.run actions).pairs.candidates = (candidatesOf
      (relationsOf (AnnotationStore.document store) config.layers) segments
      config.duplicatePolicy).1.candidates :=
    (s₀.keeps_run actions).candidates.trans (congrArg (·.1.candidates) hpairs)
  rw [← distinct_load_iff, PairSet.toList, PairSet.source, hcandidates]
  exact readsBack_candidatesOf_iff _ _ hlength

open Document (threeAnnotated load_threeAnnotated start_threeAnnotated) in
/-- Whatever is done with three annotated sentences, the relations of each two of them are read
back. -/
theorem found_again_threeAnnotated :
    (boundaries (threeAnnotated [] 4) {}).Nodup ∧
    ∃ s₀, start (⟨threeAnnotated [] 4, none, {}⟩ : FileStore) {} = .ok s₀ ∧
      ∀ actions, ∀ p ∈ (s₀.run actions).pairs.toList,
        (SegmentList.load (threeAnnotated [] 4) {}).ReadsBack p := by
  have hnodup : (boundaries (threeAnnotated [] 4) {}).Nodup := by
    rw [← distinct_load_iff, load_threeAnnotated]
    decide
  obtain ⟨s₀, hstart⟩ := start_threeAnnotated [] 4
  obtain ⟨-, -, -, -, hsession⟩ := @found_again_iff FileStore _ (threeAnnotated [] 4) {}
  refine ⟨hnodup, s₀, hstart, fun actions => ?_⟩
  exact (hsession _ s₀ actions rfl hstart).2 (.inr hnodup)

end Session

/-! ### Two annotations with one span -/

namespace Document

/-- Three annotations on the sentence layer of a pre-annotated document, two of them with one
span. -/
def sharedSpan : Document :=
  { threeBare with
    spans :=
      [⟨⟨1⟩, "webanno.custom.Sentence", ⟨0, 2⟩, FeatureMap.empty⟩,
        ⟨⟨2⟩, "webanno.custom.Sentence", ⟨0, 2⟩, FeatureMap.empty⟩,
        ⟨⟨3⟩, "webanno.custom.Sentence", ⟨6, 8⟩, FeatureMap.empty⟩]
    nextId := 4 }

/-- The segments of that document are its three annotations, of which two share a span. -/
theorem load_sharedSpan : SegmentList.load sharedSpan {} =
    ⟨sharedSpan.spans.map (SegmentList.annotated sharedSpan), .preAnnotated⟩ := by
  have hordered : sharedSpan.layerSpans "webanno.custom.Sentence" = sharedSpan.spans :=
    List.mergeSort_of_pairwise (by decide)
  have hlayer : SegmentList.FromLayer sharedSpan {} := by
    refine ⟨isPreAnnotatedFormat_xmi, ?_⟩
    show sharedSpan.layerSpans "webanno.custom.Sentence" ≠ []
    rw [hordered]
    exact List.cons_ne_nil _ _
  rw [SegmentList.load_of_fromLayer hlayer]
  exact congrArg (fun spans => (⟨spans.map (SegmentList.annotated sharedSpan), .preAnnotated⟩ :
    SegmentList)) hordered

end Document

namespace Session

open Document (sharedSpan load_sharedSpan)

/-- **Two annotations with one span are two segments, and only the first is found again.**  A
session offers the second one with the third, and reads a relation between their spans as one
between the first and the third; it offers the first two with each other, and reads a relation
between their spans as one of the first with itself. -/
theorem sharedSpan_not_found_again :
    (SegmentList.load sharedSpan {}).length = 3 ∧
      (SegmentList.load sharedSpan {}).spanAt? 1 = some ⟨0, 2⟩ ∧
      (SegmentList.load sharedSpan {}).indexOf? ⟨0, 2⟩ = some 0 ∧
      ∃ s₀, start (⟨sharedSpan, none, {}⟩ : FileStore) {} = .ok s₀ ∧
        ⟨1, 2, by decide⟩ ∈ s₀.pairs.toList ∧
        (⟨⟨4⟩, ⟨0, 2⟩, ⟨6, 8⟩, some "cause"⟩ : RelationAnnotation).edge? s₀.segments =
          some ⟨⟨4⟩, 0, 2, ⟨0, 2, by decide⟩, true⟩ ∧
        ⟨0, 1, by decide⟩ ∈ s₀.pairs.toList ∧
        (⟨⟨4⟩, ⟨0, 2⟩, ⟨0, 2⟩, some "cause"⟩ : RelationAnnotation).reading s₀.segments =
          .loop 0 := by
  obtain ⟨s₀, hstart⟩ : ∃ s₀, start (⟨sharedSpan, none, {}⟩ : FileStore) {} = .ok s₀ :=
    exists_start_of_load load_sharedSpan (by decide)
  obtain ⟨-, -, hsegments, -, hpairs, -⟩ := start_eq_ok hstart
  replace hsegments : s₀.segments = _ := hsegments.trans load_sharedSpan
  have hcandidates : s₀.pairs.toList =
      [⟨0, 1, by decide⟩, ⟨0, 2, by decide⟩, ⟨1, 2, by decide⟩] := by
    rw [hsegments] at hpairs
    rw [show s₀.pairs = _ from congrArg Prod.fst hpairs]
    decide
  rw [load_sharedSpan]
  refine ⟨by decide, by decide, by decide, s₀, hstart, ?_⟩
  rw [hcandidates, hsegments]
  decide

end Session
end PairAnnotation
