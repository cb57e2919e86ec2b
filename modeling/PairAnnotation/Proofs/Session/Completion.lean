/-
# When a pair is completed

A session reads once from its document which pairs are completed and then keeps book
of them label by label.  The account of a document that starts without relations never
goes wrong: a pair is completed exactly when the labels on both of its directions say
something (`isCompleted_iff_informative`), after accepted and failed labels alike.
-/

import PairAnnotation.Proofs.Session.PairStates

namespace PairAnnotation

/-- A label that is no empty name says something unless it is the sentinel. -/
theorem DirectionState.informative_of_labels {x : DirectionState} {tag : Tag}
    (h : x.labels = [some tag.name]) (hname : tag.name ≠ "") : x.informative = !tag.isUnset := by
  rw [informative, h]
  show (tag.name != "" && tag.name != unsetName) = _
  rw [bne_iff_ne.2 hname, Bool.true_and]
  rfl

namespace PairState

/-- Both directions say something exactly when the pair is completed. -/
def Balanced (x : PairState) : Prop := x.completed = (x.toLow.informative && x.toHigh.informative)

/-- **Every action keeps the account of a pair balanced**, provided that no tag of the set has the
empty name. -/
theorem invariant_balanced {tags : TagSet} (hnames : ∀ tag ∈ tags.tags, tag.name ≠ "") :
    Invariant tags Balanced where
  flip h := h.trans (Bool.and_comm _ _)
  keep hlow hhigh hcompleted h := by
    rw [Balanced, hcompleted, h, hlow.informative_eq, hhigh.informative_eq]
  label htag hlow hhigh hcompleted h := by
    have habsorb : ∀ a b : Bool, (a && b || b) = b := by decide
    rw [Balanced, hcompleted, h, hhigh.informative_eq,
      DirectionState.informative_of_labels hlow (hnames _ htag), habsorb]

end PairState

namespace Session

/-- The names that a session offers are those of the document's tag set, and the sentinel. -/
theorem name_ne_empty_start {store : FileStore} {config : Config} {s₀ : Session FileStore}
    (hstart : start store config = .ok s₀)
    (h : ∀ tags,
      store.document.tagSet? config.layers.relationLayer config.layers.labelFeature = some tags →
        ∀ tag ∈ tags.tags, tag.name ≠ "") :
    ∀ tag ∈ s₀.tags.tags, tag.name ≠ "" := by
  intro tag htag
  have hof : ∀ {tags : TagSet}, (∀ tag ∈ tags.tags, tag.name ≠ "") →
      tag ∈ tags.withSentinel.tags → tag.name ≠ "" := by
    intro tags hnames hmem
    unfold TagSet.withSentinel at hmem
    split at hmem
    · exact hnames tag hmem
    · rcases List.mem_append.1 hmem with hmem | hmem
      · exact hnames tag hmem
      · rw [List.mem_singleton.1 hmem]
        decide
  obtain ⟨-, -, -, hindex, -, -⟩ := start_eq_ok hstart
  rw [tags, hindex] at htag
  change tag ∈ (tagSetOf store.document config.layers).tags at htag
  unfold tagSetOf at htag
  cases htags :
      store.document.tagSet? config.layers.relationLayer config.layers.labelFeature with
  | none =>
    rw [htags] at htag
    exact hof (by simp) htag
  | some tags =>
    rw [htags] at htag
    exact hof (h tags htags) htag

/-- **The pairs that are completed at the beginning** are those that the scan of the relations
takes to be completed, wherever the candidates come from. -/
theorem mem_completed_candidatesOf {relations : List RelationAnnotation} {segments : SegmentList}
    {policy : DuplicatePolicy} {p : Pair} :
    p ∈ (candidatesOf relations segments policy).1.completed ↔
      p ∈ (scanRelations relations segments policy).completed := by
  unfold candidatesOf
  split
  · exact PairSet.mem_completed_withCompleted
  · dsimp only
    split <;> exact PairSet.mem_completed_withCompleted

/-- A pair is completed at the start exactly if the scan of the relations has completed it,
whichever candidates there are. -/
theorem isCompleted_start_iff {σ : Type} [AnnotationStore σ] {store : σ} {config : Config}
    {s₀ : Session σ} (hstart : start store config = .ok s₀) {p : Pair} :
    s₀.pairs.isCompleted p = true ↔
      p ∈ (scanRelations s₀.index.edges s₀.segments config.duplicatePolicy).completed := by
  obtain ⟨-, -, -, hindex, hpairs, -⟩ := start_eq_ok hstart
  rw [PairSet.isCompleted_iff, show s₀.pairs = _ from congrArg Prod.fst hpairs,
    mem_completed_candidatesOf, hindex]

/-- **Segments that come from sentence boundaries are offered in all combinations.** -/
theorem candidates_start_of_derived {σ : Type} [AnnotationStore σ] {store : σ} {config : Config}
    {s₀ : Session σ} (hstart : start store config = .ok s₀)
    (hderived : s₀.segments.source = .derived) :
    s₀.pairs.candidates = .combinations s₀.segments.length := by
  obtain ⟨-, -, -, -, hpairs, -⟩ := start_eq_ok hstart
  rw [show s₀.pairs = _ from congrArg Prod.fst hpairs, candidatesOf, hderived]
  rfl

/-- The segments of a candidate have spans, so both of its directions can be asked for. -/
theorem Sound.exists_spans {σ : Type} {s : Session σ} (h : s.Sound) {p : Pair}
    (hp : p ∈ s.pairs.toList) :
    ∃ low high, s.segments.spanAt? p.low = some low ∧ s.segments.spanAt? p.high = some high := by
  have hhigh := h.high_lt p hp
  obtain ⟨low, hlow⟩ := SegmentList.exists_spanAt? (Nat.lt_trans p.low_lt_high hhigh)
  obtain ⟨high, hhigh⟩ := SegmentList.exists_spanAt? hhigh
  exact ⟨low, high, hlow, hhigh⟩

/-- A direction says something exactly if the label that the index gives for it does. -/
theorem informative_eq_label? {σ : Type} (s : Session σ) (d g : Span) :
    (DirectionState.of s.index.edges d g).informative =
      PairAnnotation.isInformative (s.index.label? d g) :=
  s.index.informative_eq_label? d g

/-- A document without records on the layer of relations has no relations. -/
theorem relationsOf_eq_nil {d : Document} {layers : LayerConfig}
    (h : ∀ r ∈ d.relations, r.layer ≠ layers.relationLayer) : relationsOf d layers = [] := by
  have hrecords : d.relations.filter (·.layer == layers.relationLayer) = [] :=
    List.filter_eq_nil_iff.2 fun r hr => by simpa using h r hr
  rw [relationsOf, Document.relationsOn, resolveRelations, hrecords, List.filterMap_nil]

/-- **On a document that starts without relations, a candidate is completed exactly when both of its
directions carry a label that says something**, in every state of a session. -/
theorem isCompleted_iff_informative {store : FileStore} {config : Config}
    {s₀ s : Session FileStore} (h : store.document.WellFormed)
    (hd : config.layers.labelFeature ≠ RelationRecord.dependentFeature)
    (hg : config.layers.labelFeature ≠ RelationRecord.governorFeature)
    (hstart : start store config = .ok s₀) (hreached : s₀.Reached s)
    (hnone : ∀ r ∈ store.document.relations, r.layer ≠ config.layers.relationLayer)
    (hdistinct : (SegmentList.load store.document config.layers).Distinct)
    (hnames : ∀ tags,
      store.document.tagSet? config.layers.relationLayer config.layers.labelFeature = some tags →
        ∀ tag ∈ tags.tags, tag.name ≠ "") :
    ∀ p ∈ s.pairs.toList, ∃ low high, s.segments.spanAt? p.low = some low ∧
      s.segments.spanAt? p.high = some high ∧
      (s.pairs.isCompleted p = true ↔
        isInformative (s.index.label? low high) = true ∧
          isInformative (s.index.label? high low) = true) := by
  intro p hp
  have hcurrent := current_start h hd hg hstart
  have hkeeps := hreached.keeps
  obtain ⟨low, high, hlow, hhigh⟩ := (hreached.sound (sound_start hstart)).exists_spans hp
  obtain ⟨-, -, hsegments, hindex, -, -⟩ := start_eq_ok hstart
  have hedges : s₀.index.edges = [] :=
    (congrArg RelationIndex.edges hindex).trans (relationsOf_eq_nil hnone)
  have hbalanced : PairState.Balanced (s₀.pairState p low high) := by
    have hnot : s₀.pairs.isCompleted p ≠ true := by
      rw [ne_eq, isCompleted_start_iff hstart, hedges]
      intro hcompleted
      obtain ⟨e, he, -⟩ := mem_order_scanRelations.1 (order_of_completed hcompleted)
      cases he
    rw [PairState.Balanced, pairState, hedges]
    exact Bool.eq_false_iff.2 hnot
  have hafter := hreached.pairState
    (PairState.invariant_balanced (name_ne_empty_start hstart hnames)) hcurrent
    (hsegments ▸ hdistinct) (hkeeps.segments ▸ hlow) (hkeeps.segments ▸ hhigh) hbalanced
  refine ⟨low, high, hlow, hhigh, ?_⟩
  rw [show s.pairs.isCompleted p = _ from hafter, Bool.and_eq_true, ← informative_eq_label?,
    ← informative_eq_label?]
  rfl

end Session

/-- Three sentences with relations between them, and one tag to label these with. -/
def Document.threeTagged (relations : List RelationRecord) (nextId : Nat) : Document :=
  { threeSentences with
    relations
    tagSets :=
      [⟨"webanno.custom.SentenceRelation", "label", ⟨"Relations", [⟨"cause", none⟩]⟩⟩]
    nextId }

/-- The format of those documents brings no segments along, whatever relations they hold. -/
theorem Document.isPreAnnotatedFormat_threeTagged (relations : List RelationRecord) (nextId : Nat) :
    LayerConfig.isPreAnnotatedFormat {} (threeTagged relations nextId).format = false :=
  isPreAnnotatedFormat_threeSentences

/-- The segments of those documents are their sentences, whatever relations they hold. -/
theorem Document.load_threeTagged (relations : List RelationRecord) (nextId : Nat) :
    SegmentList.load (threeTagged relations nextId) {} = threeSegments :=
  (SegmentList.load_congr rfl rfl rfl isPreAnnotatedFormat_threeSentences).trans load_threeSentences

namespace Session

/-- A session on such a document starts under either policy, since there are three segments. -/
theorem start_threeTagged (relations : List RelationRecord) (nextId : Nat)
    (policy : DuplicatePolicy) :
    ∃ s₀, start (⟨Document.threeTagged relations nextId, none, {}⟩ : FileStore)
      { duplicatePolicy := policy } = .ok s₀ :=
  exists_start_of_load (Document.load_threeTagged relations nextId) (by decide)

/-- On three sentences without relations, the first two are a completed pair exactly when both
directions between them carry a label that says something, whatever is done. -/
theorem isCompleted_iff_informative_threeTagged :
    ∃ s₀, start (⟨Document.threeTagged [] 3, none, {}⟩ : FileStore) {} = .ok s₀ ∧
      ∀ actions,
        ((s₀.run actions).pairs.isCompleted ⟨0, 1, by decide⟩ = true ↔
          isInformative ((s₀.run actions).index.label? ⟨0, 2⟩ ⟨3, 5⟩) = true ∧
            isInformative ((s₀.run actions).index.label? ⟨3, 5⟩ ⟨0, 2⟩) = true) := by
  obtain ⟨s₀, hstart⟩ := start_threeTagged [] 3 .adjacent
  refine ⟨s₀, hstart, fun actions => ?_⟩
  have hload := Document.load_threeTagged [] 3
  have hsound := sound_run (sound_start hstart) actions
  have hkeeps := keeps_run s₀ actions
  obtain ⟨-, -, hsegments, -, hpairs, -⟩ := start_eq_ok hstart
  replace hsegments : (s₀.run actions).segments = Document.threeSegments :=
    hkeeps.segments.trans (hsegments.trans hload)
  have hmem : (⟨0, 1, by decide⟩ : Pair) ∈ (s₀.run actions).pairs.toList := by
    have hderived : s₀.segments.source = .derived := by
      rw [← hkeeps.segments, hsegments]
      rfl
    rw [PairSet.toList, hkeeps.candidates, candidates_start_of_derived hstart hderived,
      Candidates.mem_toList_combinations, ← hkeeps.segments, hsegments]
    decide
  obtain ⟨low, high, hlow, hhigh, hiff⟩ := isCompleted_iff_informative (by decide) (by decide)
    (by decide) hstart (reached_run s₀ actions) (by simp [Document.threeTagged])
    (hload ▸ by decide) (by decide) _ hmem
  rw [hsegments] at hlow hhigh
  cases hlow
  cases hhigh
  exact hiff

end Session
end PairAnnotation
