/-
# Candidates of a document that is opened again

A document that brings its segments offers the pairs that carry a relation, and every
combination of segments when there is no such pair (`mem_toList_start`).  A pair that
carries a relation does so for good, whatever becomes of labels
(`Reached.relates_of_relates`), so a document that was opened with related pairs offers
them whenever it is opened again.

A document without any offers every combination until the first of its labels is
accepted, and only what has been labelled from then on.  `reopen_candidates` says
exactly when all candidates of a session are there in the next one, and
`reopen_candidates_loses` is a run after which they are not.
-/

import PairAnnotation.Proofs.Session.Segmentation

namespace PairAnnotation

namespace PairState

/-- One of the two directions carries a relation, be it an informative one or the sentinel. -/
def Related (x : PairState) : Prop := x.toLow.labels ≠ [] ∨ x.toHigh.labels ≠ []

/-- **No action takes the last relation of a pair away.** -/
theorem invariant_related (tags : TagSet) : Invariant tags Related where
  flip h := h.symm
  keep hlow hhigh _ h := by
    rw [Related, hlow.labels, hhigh.labels]
    exact h
  label _ hlow _ _ _ := .inl (hlow ▸ List.cons_ne_nil _ _)

end PairState

/-- A direction carries a label exactly if some relation points that way. -/
theorem labelsOn_ne_nil_iff {relations : List RelationAnnotation} {d g : Span} :
    labelsOn relations d g ≠ [] ↔ ∃ r ∈ relations, r.links d g = true := by
  rw [labelsOn, ne_eq, List.map_eq_nil_iff, List.filter_eq_nil_iff]
  push Not
  rfl

namespace Session

open RelationAnnotation (links)
open SegmentList (FromLayer)

section

variable {σ : Type} {s : Session σ} {p : Pair} {low high : Span}

/-- **A pair that carries a relation**, in one direction or the other. -/
def Relates (s : Session σ) (p : Pair) : Prop :=
  ∃ low high, s.segments.spanAt? p.low = some low ∧ s.segments.spanAt? p.high = some high ∧
    ∃ r ∈ s.index.edges, r.links low high = true ∨ r.links high low = true

/-- The state of a pair carries a relation exactly if one of the relations of the session links its
two spans, in either direction. -/
theorem related_pairState_iff :
    (s.pairState p low high).Related ↔
      ∃ r ∈ s.index.edges, r.links low high = true ∨ r.links high low = true := by
  rw [PairState.Related]
  simp only [pairState, DirectionState.of, labelsOn_ne_nil_iff, and_or_left, exists_or]

/-- **The pairs that a scan of the relations lists are those that carry one.** -/
theorem mem_order_iff_relates (hdistinct : s.segments.Distinct) {policy : DuplicatePolicy} :
    p ∈ (scanRelations s.index.edges s.segments policy).order ↔ s.Relates p := by
  rw [mem_order_scanRelations]
  constructor
  · rintro ⟨e, he, rfl⟩
    obtain ⟨r, hr, hedge⟩ := List.mem_filterMap.1 he
    have hhigh := RelationAnnotation.high_lt_of_edge? hedge
    obtain ⟨low, hlow⟩ := SegmentList.exists_spanAt? (Nat.lt_trans e.pair.low_lt_high hhigh)
    obtain ⟨high, hhigh⟩ := SegmentList.exists_spanAt? hhigh
    exact ⟨low, high, hlow, hhigh, r, hr, RelationAnnotation.links_of_edge?_pair
      (hdistinct.indexOf?_eq hlow) (hdistinct.indexOf?_eq hhigh) e.pair.of?_members hedge rfl⟩
  · rintro ⟨low, high, hlow, hhigh, r, hr, hlinks⟩
    have hlow := hdistinct.indexOf?_eq hlow
    have hhigh := hdistinct.indexOf?_eq hhigh
    have hedge : ∃ e, r.edge? s.segments = some e ∧ e.pair = p := by
      rcases hlinks with hlinks | hlinks
      · exact ⟨_, RelationAnnotation.edge?_of_links hlow hhigh p.of?_members hlinks, rfl⟩
      · exact ⟨_, RelationAnnotation.edge?_of_links hhigh hlow
          ((Pair.of?_comm _ _).trans p.of?_members) hlinks, rfl⟩
    obtain ⟨e, hedge, hpair⟩ := hedge
    exact ⟨e, List.mem_filterMap.2 ⟨r, hr, hedge⟩, hpair⟩

end

variable {store : FileStore} {config : Config} {s₀ s : Session FileStore} {p : Pair}

/-- **What a document that brings its segments offers**: the pairs that carry a relation, or every
combination of segments when there is none. -/
theorem mem_toList_start (hstart : start store config = .ok s)
    (hsource : s.segments.source = .preAnnotated) (hdistinct : s.segments.Distinct) :
    p ∈ s.pairs.toList ↔ s.Relates p ∨ (∀ q, ¬ s.Relates q) ∧ p.high < s.segments.length := by
  obtain ⟨-, -, -, hindex, hpairs, -⟩ := start_eq_ok hstart
  let edges := relationsOf (AnnotationStore.document store) config.layers
  let related := (PairSet.enumerate edges s.segments config.duplicatePolicy).1
  have hedges : s.index.edges = edges := congrArg RelationIndex.edges hindex
  have hrelated : ∀ q, q ∈ related.toList ↔ s.Relates q := by
    intro q
    rw [PairSet.mem_toList_enumerate, ← hedges]
    exact mem_order_iff_relates hdistinct
  have hempty : related.isEmpty = true ↔ ∀ q, ¬ s.Relates q := by
    rw [PairSet.isEmpty, beq_iff_eq, PairSet.length, ← Candidates.length_toList,
      List.length_eq_zero_iff, List.eq_nil_iff_forall_not_mem]
    exact forall_congr' fun q => not_congr (hrelated q)
  have hcandidates : s.pairs = if related.isEmpty then
      (PairSet.enumerateAll edges s.segments config.duplicatePolicy).1 else related := by
    rw [show s.pairs = _ from congrArg Prod.fst hpairs, candidatesOf, hsource]
    dsimp only
    split <;> rfl
  rw [hcandidates]
  split
  · rename_i hnone
    have hnone := hempty.1 hnone
    rw [PairSet.mem_toList_enumerateAll]
    exact ⟨fun h => .inr ⟨hnone, h⟩, fun h => h.elim (fun h => absurd h (hnone p)) (·.2)⟩
  · rename_i hsome
    rw [hrelated]
    exact ⟨.inl, fun h => h.elim id fun h => absurd (hempty.2 h.1) hsome⟩

/-- **A pair that carries a relation does so in every later state.** -/
theorem Reached.relates_of_relates (hcurrent : s₀.Current) (hdistinct : s₀.segments.Distinct)
    (hreached : s₀.Reached s) (h : s₀.Relates p) : s.Relates p := by
  obtain ⟨low, high, hlow, hhigh, hlinks⟩ := h
  have hafter := hreached.pairState (PairState.invariant_related s₀.tags) hcurrent hdistinct hlow
    hhigh (related_pairState_iff.2 hlinks)
  have hsegments := hreached.keeps.segments
  exact ⟨low, high, hsegments ▸ hlow, hsegments ▸ hhigh, related_pairState_iff.1 hafter⟩

/-- The relations that a document is opened with are those that the session before ended with. -/
theorem edges_start_again {s' : Session FileStore} (hcurrent : s₀.Current)
    (hstart : start store config = .ok s₀) (hreached : s₀.Reached s)
    (hstart' : start s.store config = .ok s') : s'.index.edges = s.index.edges := by
  obtain ⟨-, hconfig, -, -, -, -⟩ := start_eq_ok hstart
  obtain ⟨-, -, -, hindex', -, -⟩ := start_eq_ok hstart'
  rw [hindex', (hreached.current hcurrent).edges, hreached.keeps.config, hconfig]
  rfl

/-- **Which candidates a document that brings its segments has when it is opened again.**  It has
all of those that the session had exactly when the session started with related pairs, or there is
still none, or every candidate has a relation by now. -/
theorem reopen_candidates (h : store.document.WellFormed)
    (hd : config.layers.labelFeature ≠ RelationRecord.dependentFeature)
    (hg : config.layers.labelFeature ≠ RelationRecord.governorFeature)
    (hstart : start store config = .ok s₀) (hreached : s₀.Reached s)
    (hlayer : FromLayer store.document config.layers)
    (hdistinct : (SegmentList.load store.document config.layers).Distinct) :
    ∃ s', start s.store config = .ok s' ∧ s'.segments = s.segments ∧
      ((∀ p ∈ s₀.pairs.toList, p ∈ s'.pairs.toList) ↔
        (∃ p, s₀.Relates p) ∨ (∀ p, ¬ s.Relates p) ∨ ∀ p ∈ s₀.pairs.toList, s.Relates p) := by
  have hcurrent := current_start h hd hg hstart
  have hkeeps := hreached.keeps
  have hload := load_reached h hstart hreached fun _ => hlayer
  obtain ⟨s', hstart', hsegments'⟩ := exists_start_of_load_eq hstart hreached hload
  refine ⟨s', hstart', hsegments', ?_⟩
  obtain ⟨-, -, hsegments, -, -, -⟩ := start_eq_ok hstart
  have hsource : s₀.segments.source = .preAnnotated :=
    hsegments ▸ SegmentList.source_load_iff.2 hlayer
  have hdistinct₀ : s₀.segments.Distinct := hsegments ▸ hdistinct
  have hsame : s'.segments = s₀.segments := hsegments'.trans hkeeps.segments
  have hoffered : ∀ p, p ∈ s₀.pairs.toList ↔
      s₀.Relates p ∨ (∀ q, ¬ s₀.Relates q) ∧ p.high < s₀.segments.length := fun p =>
    mem_toList_start hstart hsource hdistinct₀
  have hrelates : ∀ p, s'.Relates p ↔ s.Relates p := fun p => by
    rw [Relates, Relates, hsegments', edges_start_again hcurrent hstart hreached hstart']
  have hoffered' : ∀ p, p ∈ s'.pairs.toList ↔
      s.Relates p ∨ (∀ q, ¬ s.Relates q) ∧ p.high < s₀.segments.length := fun p => by
    rw [mem_toList_start hstart' (hsame ▸ hsource) (hsame ▸ hdistinct₀), hsame]
    simp only [hrelates]
  constructor
  · intro hall
    by_cases hnone : ∀ p, ¬ s.Relates p
    · exact .inr (.inl hnone)
    · exact .inr (.inr fun p hp => ((hoffered' p).1 (hall p hp)).resolve_right fun h => hnone h.1)
  · rintro (⟨q, hq⟩ | hnone | hrelated) p hp
    · have hp := ((hoffered p).1 hp).resolve_right fun h => h.1 q hq
      exact (hoffered' p).2 (.inl (hreached.relates_of_relates hcurrent hdistinct₀ hp))
    · exact (hoffered' p).2 (.inr ⟨hnone, (sound_start hstart).high_lt p hp⟩)
    · exact (hoffered' p).2 (.inl (hrelated p hp))

open Document (threeAnnotated threeLayered load_threeAnnotated fromLayer_threeAnnotated
  start_threeAnnotated)

/-- Whatever is done with three annotated sentences that are linked already, the candidates are
there when the document is opened again. -/
theorem reopen_candidates_threeAnnotated :
    let cause := RelationRecord.relinked ⟨4⟩ "webanno.custom.SentenceRelation" "label" ⟨2⟩ ⟨1⟩
      (some "cause")
    ∃ s₀, start (⟨threeAnnotated [cause] 5, none, {}⟩ : FileStore) {} = .ok s₀ ∧
      ∀ actions, ∃ s', start (s₀.run actions).store {} = .ok s' ∧
        ∀ p ∈ s₀.pairs.toList, p ∈ s'.pairs.toList := by
  intro cause
  obtain ⟨s₀, hstart⟩ := start_threeAnnotated [cause] 5
  refine ⟨s₀, hstart, fun actions => ?_⟩
  have hload := load_threeAnnotated [cause] 5
  have hlinked : s₀.Relates ⟨0, 1, by decide⟩ := by
    obtain ⟨-, -, hsegments, hindex, -, -⟩ := start_eq_ok hstart
    replace hsegments : s₀.segments = threeLayered := hsegments.trans hload
    have hedges : s₀.index.edges = [⟨⟨4⟩, ⟨3, 5⟩, ⟨0, 2⟩, some "cause"⟩] := by
      rw [hindex]
      decide
    refine ⟨⟨0, 2⟩, ⟨3, 5⟩, hsegments ▸ rfl, hsegments ▸ rfl, ?_⟩
    rw [hedges]
    exact ⟨_, List.mem_singleton_self _, .inr (by decide)⟩
  have hdistinct : (SegmentList.load (threeAnnotated [cause] 5) {}).Distinct := by
    rw [hload]
    decide
  obtain ⟨s', hstart', -, hcandidates⟩ := reopen_candidates (by decide) (by decide) (by decide)
    hstart (reached_run s₀ actions) (fromLayer_threeAnnotated [cause] 5) hdistinct
  exact ⟨s', hstart', hcandidates.2 (.inl ⟨_, hlinked⟩)⟩

/-- The first label of three annotated sentences links the first two of them. -/
theorem select_threeAnnotated {s₀ : Session FileStore}
    (hstart : start (⟨threeAnnotated [] 4, none, {}⟩ : FileStore) {} = .ok s₀) :
    ∃ applied s id, s₀.select .leftToRight unsetName = (.ok applied, s) ∧
      s.index.edges = [⟨id, ⟨3, 5⟩, ⟨0, 2⟩, some unsetName⟩] := by
  obtain ⟨hstore, hconfig, hsegments, hindex, hpairs, hcursor⟩ := start_eq_ok hstart
  replace hsegments : s₀.segments = threeLayered := hsegments.trans (load_threeAnnotated [] 4)
  have hedges : s₀.index.edges = [] := by
    rw [hindex]
    rfl
  have htag := tag_unset_start hstart rfl
  rw [hsegments] at hpairs
  rw [show s₀.pairs = _ from congrArg Prod.fst hpairs] at hcursor
  replace hcursor : s₀.cursor = ⟨0, 1, 0, none⟩ := (Option.some.inj hcursor).symm
  have hlocate : LabelWriter.locate threeLayered 0 1 =
      .ok ⟨⟨0, 2⟩, ⟨3, 5⟩, ⟨0, 1, by decide⟩⟩ := rfl
  have happlied : s₀.applied .leftToRight Tag.unset = LabelWriter.apply {} threeLayered Tag.unset
      0 1 s₀.pairs ⟨threeAnnotated [] 4, none, {}⟩ := by
    rw [applied, hstore, hconfig, hsegments, hcursor]
    rfl
  obtain ⟨applied, pairs', store', happly⟩ := LabelWriter.apply_of_acceptsWrites
    (s := ⟨threeAnnotated [] 4, none, {}⟩) {} Tag.unset s₀.pairs (by decide) hlocate
    (FileStore.acceptsWrites_none {}) (by decide)
  have hselect := select_of_tag .leftToRight htag
  have hcurrent : s₀.Current := current_start (by decide) (by decide) (by decide) hstart
  obtain ⟨-, ⟨⟨e, herror⟩, -⟩ | ⟨place, id, hplace, -, -, hrelations⟩⟩ :=
    relations_applied hcurrent .leftToRight Tag.unset
  · rw [happlied, happly] at herror
    cases herror
  · rw [hsegments, hcursor] at hplace
    obtain rfl := Except.ok.inj (hlocate.symm.trans hplace)
    rw [hedges] at hrelations
    rw [happlied.trans happly] at hselect hrelations
    exact ⟨applied, _, id, hselect, hrelations⟩

/-- **The first label can take candidates away**, unseen until the document is opened again.  Three
annotated sentences are offered in all combinations; once the first two are linked, their pair is
the only candidate. -/
theorem reopen_candidates_loses :
    let d := threeAnnotated [] 4
    (d.WellFormed ∧ FromLayer d {} ∧ (SegmentList.load d {}).Distinct) ∧
    ∃ s₀ applied s s',
      start (⟨d, none, {}⟩ : FileStore) {} = .ok s₀ ∧
      s₀.select .leftToRight unsetName = (.ok applied, s) ∧
      start s.store {} = .ok s' ∧
      (⟨0, 2, by decide⟩ : Pair) ∈ s₀.pairs.toList ∧
      (⟨0, 2, by decide⟩ : Pair) ∉ s'.pairs.toList := by
  intro d
  have hload := load_threeAnnotated [] 4
  have hlayer := fromLayer_threeAnnotated [] 4
  have hdistinct : (SegmentList.load d {}).Distinct := hload ▸ by decide
  refine ⟨⟨by decide, hlayer, hdistinct⟩, ?_⟩
  obtain ⟨s₀, hstart⟩ := start_threeAnnotated [] 4
  obtain ⟨-, -, hsegments, hindex, -, -⟩ := start_eq_ok hstart
  replace hsegments : s₀.segments = threeLayered := hsegments.trans hload
  have hdistinct₀ : s₀.segments.Distinct := hsegments ▸ hload ▸ hdistinct
  obtain ⟨applied, s, id, hselect, hedges⟩ := select_threeAnnotated hstart
  have hreached : s₀.Reached s := by
    rw [show s = s₀.perform (.select .leftToRight unsetName) from (congrArg Prod.snd hselect).symm]
    exact .act _ .start
  have hreload := load_reached (by decide) hstart hreached fun _ => hlayer
  obtain ⟨s', hstart', hsegments'⟩ := exists_start_of_load_eq hstart hreached hreload
  have hcurrent : s₀.Current := current_start (by decide) (by decide) (by decide) hstart
  have hedges' := (edges_start_again hcurrent hstart hreached hstart').trans hedges
  have hsource : threeLayered.source = .preAnnotated := rfl
  have hsame : s'.segments = s₀.segments := hsegments'.trans hreached.keeps.segments
  refine ⟨s₀, applied, s, s', hstart, hselect, hstart', ?_, ?_⟩
  · rw [mem_toList_start hstart (hsegments ▸ hsource) hdistinct₀, hsegments]
    refine .inr ⟨?_, by decide⟩
    rintro q ⟨-, -, -, -, r, hr, -⟩
    rw [hindex] at hr
    cases hr
  · rw [mem_toList_start hstart' (hsame ▸ hsegments ▸ hsource) (hsame ▸ hdistinct₀), Relates,
      hsame, hsegments, hedges']
    rintro (⟨low, high, hlow, hhigh, r, hr, hlinks⟩ | ⟨hnone, -⟩)
    · obtain rfl : (⟨0, 2⟩ : Span) = low := Option.some.inj hlow
      obtain rfl : (⟨6, 8⟩ : Span) = high := Option.some.inj hhigh
      rw [List.mem_singleton] at hr
      subst hr
      exact absurd hlinks (by simp [links])
    · refine hnone ⟨0, 1, by decide⟩ ?_
      rw [Relates, hsame, hsegments, hedges']
      exact ⟨⟨0, 2⟩, ⟨3, 5⟩, rfl, rfl, _, List.mem_singleton_self _, .inr rfl⟩

end Session
end PairAnnotation
