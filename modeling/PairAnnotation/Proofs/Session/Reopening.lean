/-
# Sessions that are opened again

A document that gets its segments from sentence boundaries can be closed in any state of
a session and opened again with the same configuration.  The new session has the same
segments and candidates and shows the same relations (`exists_start_again`), but it
finds out anew which pairs are completed.

When the last label counts, it finds every pair completed that was so before
(`reopen_lastWriteWins`): a completed pair has a last label that says something on one
of its directions, and no action takes that away.  When the first edge decides, this
can fail, since a label moves its edge to the end of the list (`reopen_adjacent_loses`).
It holds for the pairs whose directions are firm in the document as it was opened, and
for those with a direction that is not, as long as only labels of the session completed
the pair (`reopen_adjacent`).
-/

import PairAnnotation.Proofs.Session.Completion

namespace PairAnnotation

namespace DirectionState

/-- A direction that is firm stays so while it is kept. -/
theorem Firm.keeps {x y : DirectionState} (h : x.Firm) (hkeeps : x.Keeps y) : y.Firm :=
  h.imp (fun hfirst => hkeeps.labels ▸ hfirst) hkeeps.restated

/-- A direction with one label is firm when the label says something. -/
theorem firm_of_informative {x : DirectionState} {label : Option String} (h : x.labels = [label])
    (hinformative : x.informative = true) : x.Firm := by
  refine .inl fun label' hlabel => ?_
  rw [h, List.head?_cons, Option.mem_some_iff] at hlabel
  rw [informative, h] at hinformative
  exact hlabel ▸ hinformative

end DirectionState

namespace PairState

/-- A pair is completed only if the label that counts says something on one of its directions. -/
def Supported (x : PairState) : Prop :=
  x.completed = true → x.toLow.informative = true ∨ x.toHigh.informative = true

/-- **No action takes the support of a completed pair away.** -/
theorem invariant_supported {tags : TagSet} (hnames : ∀ tag ∈ tags.tags, tag.name ≠ "") :
    Invariant tags Supported where
  flip h hcompleted := (h hcompleted).symm
  keep hlow hhigh hcompleted h hy := by
    rw [hlow.informative_eq, hhigh.informative_eq]
    exact h (hcompleted ▸ hy)
  label htag hlow hhigh hcompleted h hy := by
    rw [hcompleted, Bool.and_eq_true] at hy
    exact .inl ((DirectionState.informative_of_labels hlow (hnames _ htag)).trans hy.1)

/-- A completed pair has relations, both of its directions are firm, and so is every direction whose
last label could complete the pair. -/
structure Settled (x : PairState) : Prop where
  labels : x.completed = true → x.toLow.labels ≠ [] ∨ x.toHigh.labels ≠ []
  firm : x.completed = true → x.toLow.Firm ∧ x.toHigh.Firm
  toLow : x.toLow.informative = true → x.toLow.Firm
  toHigh : x.toHigh.informative = true → x.toHigh.Firm

/-- Each direction is firm, or has a last label that says nothing while the pair is not
completed. -/
structure Lasting (x : PairState) : Prop where
  toLow : x.toLow.Firm ∨ x.completed = false ∧ x.toLow.informative = false
  toHigh : x.toHigh.Firm ∨ x.completed = false ∧ x.toHigh.informative = false

/-- **No action unsettles a pair**, provided that no tag of the set has the empty name. -/
theorem invariant_settled {tags : TagSet} (hnames : ∀ tag ∈ tags.tags, tag.name ≠ "") :
    Invariant tags Settled where
  flip h := ⟨fun hx => (h.labels hx).symm, fun hx => (h.firm hx).symm, h.toHigh, h.toLow⟩
  keep hlow hhigh hcompleted h := by
    refine ⟨fun hy => ?_, fun hy => ?_, fun hy => ?_, fun hy => ?_⟩
    · rw [hlow.labels, hhigh.labels]
      exact h.labels (hcompleted ▸ hy)
    · exact (h.firm (hcompleted ▸ hy)).imp (·.keeps hlow) (·.keeps hhigh)
    · exact (h.toLow (hlow.informative_eq ▸ hy)).keeps hlow
    · exact (h.toHigh (hhigh.informative_eq ▸ hy)).keeps hhigh
  label htag hlow hhigh hcompleted h := by
    refine ⟨fun _ => .inl (by simp [hlow]), fun hy => ?_,
      DirectionState.firm_of_informative hlow,
      fun hy => (h.toHigh (hhigh.informative_eq ▸ hy)).keeps hhigh⟩
    rw [hcompleted, Bool.and_eq_true, Bool.or_eq_true] at hy
    obtain ⟨hset, hother⟩ := hy
    refine ⟨DirectionState.firm_of_informative hlow ?_, ?_⟩
    · exact (DirectionState.informative_of_labels hlow (hnames _ htag)).trans hset
    · exact (hother.elim (fun hx => (h.firm hx).2) h.toHigh).keeps hhigh

end PairState

/-- A relation from the first to the second of three sentences, and the sentinel on the way back. -/
def Document.causeThenUnset : List RelationRecord :=
  [.relinked ⟨3⟩ "webanno.custom.SentenceRelation" "label" ⟨2⟩ ⟨1⟩ (some "cause"),
    .relinked ⟨4⟩ "webanno.custom.SentenceRelation" "label" ⟨1⟩ ⟨2⟩ (some "unset")]

namespace Session

variable {store : FileStore} {config : Config} {s₀ s : Session FileStore}

/-- The tags to choose from depend on nothing but the tag sets of a document. -/
theorem tagSetOf_congr {d d' : Document} (layers : LayerConfig) (h : d'.tagSets = d.tagSets) :
    tagSetOf d' layers = tagSetOf d layers := by
  rw [tagSetOf, tagSetOf, Document.tagSet?, Document.tagSet?, h]

/-- Where the format brings no segments along, segments are derived from the sentences. -/
theorem source_load_of_derived {d : Document} {layers : LayerConfig}
    (h : layers.isPreAnnotatedFormat d.format = false) :
    (SegmentList.load d layers).source = .derived := by
  rw [SegmentList.load, h, if_neg (by decide)]
  rfl

/-- **A session can be started again from any of its states**, with the same segments, candidates
and relations. -/
theorem exists_start_again (hcurrent : s₀.Current) (hstart : start store config = .ok s₀)
    (hreached : s₀.Reached s)
    (hderived : config.layers.isPreAnnotatedFormat store.document.format = false) :
    ∃ s', start s.store config = .ok s' ∧ s'.segments = s.segments ∧
      s'.pairs.candidates = s.pairs.candidates ∧ s'.index = s.index := by
  obtain ⟨hstore, hconfig, hsegments, hindex, -, -⟩ := start_eq_ok hstart
  have hkeeps := hreached.keeps
  have hframe := hreached.frame hcurrent
  rw [hstore] at hframe
  have hload : SegmentList.load s.store.document config.layers = s.segments :=
    (SegmentList.load_congr hframe.format hframe.text hframe.sentences hderived).trans
      (hkeeps.segments.trans hsegments).symm
  have hsource : s₀.segments.source = .derived := by
    rw [hsegments]
    exact source_load_of_derived hderived
  have hlength : 2 ≤ (SegmentList.load s.store.document config.layers).length := by
    rw [hload, hkeeps.segments, hsegments]
    exact start_isOk_iff.1 ⟨s₀, hstart⟩
  have hagain : ∃ s', start s.store config = .ok s' := start_isOk_iff.2 hlength
  obtain ⟨s', hstart'⟩ := hagain
  obtain ⟨-, -, hsegments', hindex', -, -⟩ := start_eq_ok hstart'
  replace hsegments' : s'.segments = s.segments := hsegments'.trans hload
  have hedges : relationsOf s.store.document config.layers = s.index.edges := by
    rw [(hreached.current hcurrent).edges, hkeeps.config, hconfig]
  have htags : tagSetOf s.store.document config.layers = s.index.tags :=
    ((tagSetOf_congr config.layers hframe.tagSets).trans
      (congrArg RelationIndex.tags hindex).symm).trans hkeeps.tags.symm
  refine ⟨s', hstart', hsegments', ?_, ?_⟩
  · rw [candidates_start_of_derived hstart' (by rw [hsegments', hkeeps.segments, hsource]),
      hkeeps.candidates, candidates_start_of_derived hstart hsource, hsegments', hkeeps.segments]
  · rw [hindex']
    exact congrArg₂ RelationIndex.mk hedges htags

/-- The relations between two segments that have spans of their own. -/
theorem resolve_congr {σ : Type} {s s' : Session σ} (hsegments : s'.segments = s.segments)
    (hindex : s'.index = s.index) (left right : Nat) :
    s'.resolve left right = s.resolve left right := by
  rw [resolve, resolve, hsegments, hindex]

/-- **When the last label counts, completed work survives.**  From every state of a session its
document can be opened again; the new session has the same segments and candidates, shows the same
between any two segments, and every pair that was completed is completed in it. -/
theorem reopen_lastWriteWins (h : store.document.WellFormed)
    (hd : config.layers.labelFeature ≠ RelationRecord.dependentFeature)
    (hg : config.layers.labelFeature ≠ RelationRecord.governorFeature)
    (hstart : start store config = .ok s₀) (hreached : s₀.Reached s)
    (hpolicy : config.duplicatePolicy = .lastWriteWins)
    (hderived : config.layers.isPreAnnotatedFormat store.document.format = false)
    (hdistinct : (SegmentList.load store.document config.layers).Distinct)
    (hnames : ∀ tags,
      store.document.tagSet? config.layers.relationLayer config.layers.labelFeature = some tags →
        ∀ tag ∈ tags.tags, tag.name ≠ "") :
    ∃ s', start s.store config = .ok s' ∧ s'.segments = s.segments ∧
      s'.pairs.toList = s.pairs.toList ∧
      (∀ p, s.pairs.isCompleted p = true → s'.pairs.isCompleted p = true) ∧
      ∀ left right, s'.resolve left right = s.resolve left right := by
  have hcurrent := current_start h hd hg hstart
  have hkeeps := hreached.keeps
  have hsound := hreached.sound (sound_start hstart)
  obtain ⟨-, -, hsegments, -, -, -⟩ := start_eq_ok hstart
  obtain ⟨s', hstart', hsegments', hcandidates', hindex'⟩ :=
    exists_start_again hcurrent hstart hreached hderived
  refine ⟨s', hstart', hsegments', congrArg Candidates.toList hcandidates', fun p hp => ?_,
    resolve_congr hsegments' hindex'⟩
  obtain ⟨low, high, hlow, hhigh⟩ := hsound.exists_spans
    (hsound.mem_of_completed p (PairSet.isCompleted_iff.1 hp))
  have hdistinct₀ : s₀.segments.Distinct := hsegments ▸ hdistinct
  have hdistinct' : s'.segments.Distinct := by rwa [hsegments', hkeeps.segments]
  have hsupported : PairState.Supported (s₀.pairState p low high) := by
    intro hcompleted
    replace hcompleted := (isCompleted_start_iff hstart).1 hcompleted
    rw [hpolicy] at hcompleted
    exact (mem_completed_lastWriteWins_iff_informative
      (hdistinct₀.indexOf?_eq (hkeeps.segments ▸ hlow))
      (hdistinct₀.indexOf?_eq (hkeeps.segments ▸ hhigh))).1 hcompleted
  have hafter := hreached.pairState
    (PairState.invariant_supported (name_ne_empty_start hstart hnames)) hcurrent hdistinct₀
    (hkeeps.segments ▸ hlow) (hkeeps.segments ▸ hhigh) hsupported hp
  rw [isCompleted_start_iff hstart', hpolicy, hindex']
  exact (mem_completed_lastWriteWins_iff_informative (hdistinct'.indexOf?_eq (hsegments' ▸ hlow))
    (hdistinct'.indexOf?_eq (hsegments' ▸ hhigh))).2 hafter

/-- The last label on the way to the second of three sentences completes the first pair, and
whatever is done then, the document can be opened again with the same pairs completed. -/
theorem reopen_lastWriteWins_threeTagged :
    ∃ s₀, start (⟨Document.threeTagged Document.causeThenUnset 5, none, {}⟩ : FileStore)
        { duplicatePolicy := .lastWriteWins } = .ok s₀ ∧
      ∀ actions, ∃ s', start (s₀.run actions).store { duplicatePolicy := .lastWriteWins } = .ok s' ∧
        ∀ p, (s₀.run actions).pairs.isCompleted p = true → s'.pairs.isCompleted p = true := by
  obtain ⟨s₀, hstart⟩ := start_threeTagged Document.causeThenUnset 5 .lastWriteWins
  refine ⟨s₀, hstart, fun actions => ?_⟩
  have hload := Document.load_threeTagged Document.causeThenUnset 5
  have hderived := Document.isPreAnnotatedFormat_threeTagged Document.causeThenUnset 5
  obtain ⟨s', hstart', -, -, hcompleted, -⟩ := reopen_lastWriteWins (by decide) (by decide)
    (by decide) hstart (reached_run s₀ actions) rfl hderived (hload ▸ by decide) (by decide)
  exact ⟨s', hstart', hcompleted⟩

/-- A pair that lasts in the relations at the beginning is settled there. -/
theorem settled_start (hstart : start store config = .ok s₀) (hdistinct : s₀.segments.Distinct)
    {p : Pair} {low high : Span} (hlow : s₀.segments.spanAt? p.low = some low)
    (hhigh : s₀.segments.spanAt? p.high = some high)
    (hlasting : (s₀.pairState p low high).Lasting) : (s₀.pairState p low high).Settled where
  labels hcompleted := by
    replace hcompleted := (isCompleted_start_iff hstart).1 hcompleted
    exact labelsOn_ne_nil_of_completed (hdistinct.indexOf?_eq hlow) (hdistinct.indexOf?_eq hhigh)
      hcompleted
  firm hcompleted :=
    ⟨hlasting.toLow.resolve_right fun h => by simp [hcompleted] at h,
      hlasting.toHigh.resolve_right fun h => by simp [hcompleted] at h⟩
  toLow hinformative := hlasting.toLow.resolve_right fun h => by simp [hinformative] at h
  toHigh hinformative := hlasting.toHigh.resolve_right fun h => by simp [hinformative] at h

/-- **When the first edge decides, completed work survives where it lasts.**  From every state of a
session its document can be opened again, and a pair that is completed is so in the new session if
in the document as it was first opened each of its directions was firm, or had a last label that
says nothing while the pair was not completed. -/
theorem reopen_adjacent (h : store.document.WellFormed)
    (hd : config.layers.labelFeature ≠ RelationRecord.dependentFeature)
    (hg : config.layers.labelFeature ≠ RelationRecord.governorFeature)
    (hstart : start store config = .ok s₀) (hreached : s₀.Reached s)
    (hpolicy : config.duplicatePolicy = .adjacent)
    (hderived : config.layers.isPreAnnotatedFormat store.document.format = false)
    (hdistinct : (SegmentList.load store.document config.layers).Distinct)
    (hnames : ∀ tags,
      store.document.tagSet? config.layers.relationLayer config.layers.labelFeature = some tags →
        ∀ tag ∈ tags.tags, tag.name ≠ "") :
    ∃ s', start s.store config = .ok s' ∧
      ∀ p low high, s.segments.spanAt? p.low = some low → s.segments.spanAt? p.high = some high →
        (s₀.pairState p low high).Lasting → s.pairs.isCompleted p = true →
        s'.pairs.isCompleted p = true := by
  have hcurrent := current_start h hd hg hstart
  have hkeeps := hreached.keeps
  obtain ⟨-, -, hsegments, -, -, -⟩ := start_eq_ok hstart
  obtain ⟨s', hstart', hsegments', -, hindex'⟩ :=
    exists_start_again hcurrent hstart hreached hderived
  refine ⟨s', hstart', fun p low high hlow hhigh hlasting hp => ?_⟩
  have hdistinct₀ : s₀.segments.Distinct := hsegments ▸ hdistinct
  have hdistinct' : s'.segments.Distinct := by rwa [hsegments', hkeeps.segments]
  have hlow₀ : s₀.segments.spanAt? p.low = some low := hkeeps.segments ▸ hlow
  have hhigh₀ : s₀.segments.spanAt? p.high = some high := hkeeps.segments ▸ hhigh
  have hsettled := hreached.pairState
    (PairState.invariant_settled (name_ne_empty_start hstart hnames)) hcurrent hdistinct₀ hlow₀
    hhigh₀ (settled_start hstart hdistinct₀ hlow₀ hhigh₀ hlasting)
  rw [isCompleted_start_iff hstart', hpolicy, hindex']
  exact mem_completed_adjacent_of_firm (hdistinct'.indexOf?_eq (hsegments' ▸ hlow))
    (hdistinct'.indexOf?_eq (hsegments' ▸ hhigh)) (hsettled.labels hp) (hsettled.firm hp).1
    (hsettled.firm hp).2

/-- On the way between the first two of three sentences stands one label, which says something:
once their pair is completed it is so whenever the document is opened again. -/
theorem reopen_adjacent_threeTagged :
    ∃ s₀, start (⟨Document.threeTagged (Document.causeThenUnset.take 1) 4, none, {}⟩ : FileStore)
        { duplicatePolicy := .adjacent } = .ok s₀ ∧
      ∀ actions, ∃ s', start (s₀.run actions).store { duplicatePolicy := .adjacent } = .ok s' ∧
        ((s₀.run actions).pairs.isCompleted ⟨0, 1, by decide⟩ = true →
          s'.pairs.isCompleted ⟨0, 1, by decide⟩ = true) := by
  obtain ⟨s₀, hstart⟩ := start_threeTagged (Document.causeThenUnset.take 1) 4 .adjacent
  refine ⟨s₀, hstart, fun actions => ?_⟩
  have hload := Document.load_threeTagged (Document.causeThenUnset.take 1) 4
  obtain ⟨-, -, hsegments, hindex, -, -⟩ := start_eq_ok hstart
  replace hsegments : (s₀.run actions).segments = Document.threeSegments :=
    (keeps_run s₀ actions).segments.trans (hsegments.trans hload)
  have hedges : s₀.index.edges = [⟨⟨3⟩, ⟨3, 5⟩, ⟨0, 2⟩, some "cause"⟩] := by
    rw [hindex]
    decide
  have hfirm : ∀ {d g : Span}, (∀ label ∈ (labelsOn s₀.index.edges d g).head?,
      isInformative label = true) → (DirectionState.of s₀.index.edges d g).Firm := .inl
  have hlasting : (s₀.pairState ⟨0, 1, by decide⟩ ⟨0, 2⟩ ⟨3, 5⟩).Lasting :=
    ⟨.inl (hfirm (hedges ▸ by decide)), .inl (hfirm (hedges ▸ by decide))⟩
  have hderived := Document.isPreAnnotatedFormat_threeTagged (Document.causeThenUnset.take 1) 4
  obtain ⟨s', hstart', hcompleted⟩ := reopen_adjacent (by decide) (by decide) (by decide) hstart
    (reached_run s₀ actions) rfl hderived (hload ▸ by decide) (by decide)
  exact ⟨s', hstart', hcompleted _ _ _ (hsegments ▸ rfl) (hsegments ▸ rfl) hlasting⟩

/-- **When the first edge decides, a label can undo the completion of its pair**, unseen until the
document is opened again.  The pair is completed by its first relation; labelling that relation anew
moves it behind the sentinel of the other direction, which then comes first. -/
theorem reopen_adjacent_loses :
    let d := Document.threeTagged Document.causeThenUnset 5
    (d.WellFormed ∧ LayerConfig.isPreAnnotatedFormat {} d.format = false ∧
      (SegmentList.load d {}).Distinct ∧ ∀ tag ∈ (tagSetOf d {}).tags, tag.name ≠ "") ∧
    ∃ s₀ applied s s',
      start (⟨d, none, {}⟩ : FileStore) { duplicatePolicy := .adjacent } = .ok s₀ ∧
      s₀.select .leftToRight "cause" = (.ok applied, s) ∧
      s.pairs.isCompleted ⟨0, 1, by decide⟩ = true ∧
      start s.store { duplicatePolicy := .adjacent } = .ok s' ∧
      s'.pairs.isCompleted ⟨0, 1, by decide⟩ = false := by
  have hload := Document.load_threeTagged Document.causeThenUnset 5
  have hderived := Document.isPreAnnotatedFormat_threeTagged Document.causeThenUnset 5
  refine ⟨⟨by decide, hderived, hload ▸ by decide, by decide⟩, ?_⟩
  obtain ⟨s₀, hstart⟩ := start_threeTagged Document.causeThenUnset 5 .adjacent
  obtain ⟨-, -, hsegments, hindex, -, -⟩ := start_eq_ok hstart
  replace hsegments : s₀.segments = Document.threeSegments := hsegments.trans hload
  have hedges : s₀.index.edges =
      [⟨⟨3⟩, ⟨3, 5⟩, ⟨0, 2⟩, some "cause"⟩, ⟨⟨4⟩, ⟨0, 2⟩, ⟨3, 5⟩, some "unset"⟩] := by
    rw [hindex]
    decide
  have htag : s₀.tag "cause" = .ok ⟨"cause", none⟩ := by
    rw [tag, tags, hindex]
    rfl
  have hcompleted₀ : s₀.pairs.isCompleted ⟨0, 1, by decide⟩ = true := by
    rw [isCompleted_start_iff hstart, hedges, hsegments]
    decide
  have happlied := applied_threeSegments hstart hload ⟨"cause", none⟩
  obtain ⟨applied, pairs', store', happly⟩ := LabelWriter.apply_of_acceptsWrites
    (s := ⟨Document.threeTagged Document.causeThenUnset 5, none, {}⟩) {} ⟨"cause", none⟩ s₀.pairs
    (by decide) LabelWriter.locate_threeSegments (FileStore.acceptsWrites_none {}) (by decide)
  have hcurrent : s₀.Current := current_start (by decide) (by decide) (by decide) hstart
  have hselect := select_of_tag .leftToRight htag
  obtain ⟨-, ⟨⟨e, herror⟩, -⟩ | ⟨place, id, hplace, -, hmarked, hrelations⟩⟩ :=
    relations_applied hcurrent .leftToRight ⟨"cause", none⟩
  · rw [happlied, happly] at herror
    cases herror
  rw [hsegments, cursor_threeSegments hstart hload] at hplace
  obtain rfl := Except.ok.inj (LabelWriter.locate_threeSegments.symm.trans hplace)
  rw [happlied.trans happly] at hselect hmarked hrelations
  rw [hedges] at hrelations
  have hreached : s₀.Reached (s₀.perform (.select .leftToRight "cause")) := .act _ .start
  obtain ⟨s', hstart', hsegments', -, hindex'⟩ :=
    exists_start_again hcurrent hstart hreached hderived
  have hperform : s₀.perform (.select .leftToRight "cause") = _ := congrArg Prod.snd hselect
  rw [hperform] at hstart' hsegments' hindex'
  refine ⟨s₀, applied, _, s', hstart, hselect, ?_, hstart', ?_⟩
  · dsimp only at hmarked
    show pairs'.isCompleted _ = true
    rw [hmarked, LabelWriter.isCompleted_markAfter, hcompleted₀]
    rfl
  · have hedges' : s'.index.edges =
        [⟨⟨4⟩, ⟨0, 2⟩, ⟨3, 5⟩, some "unset"⟩, ⟨id, ⟨3, 5⟩, ⟨0, 2⟩, some "cause"⟩] := by
      rw [hindex']
      exact hrelations
    have hscan : (scanRelations s'.index.edges s'.segments .adjacent).completed = [] := by
      rw [hedges', hsegments']
      dsimp only [reindex]
      rw [hsegments]
      rfl
    rw [Bool.eq_false_iff, ne_eq, isCompleted_start_iff hstart', hscan]
    exact List.not_mem_nil

end Session
end PairAnnotation
