/-
# What holds in every state of a session

A session is sound (`Session.Sound`) when its cursor is on a candidate, the members of
every candidate are indices of segments, and only candidates are completed.  Two
segments are enough for a session to start (`start_isOk_iff`), a session starts sound
(`sound_start`), and no action changes its segments or its candidates or makes it
unsound (`sound_perform`), whatever the store does with the changes it is asked for.
So what soundness says holds after every run (`run_on_candidate`).
-/

import PairAnnotation.Session.Basic
import PairAnnotation.Proofs.Cursor
import PairAnnotation.Proofs.PairSet.Scan
import PairAnnotation.Proofs.Writer.Label

namespace PairAnnotation

namespace Session

/-- The candidates of a session are pairs of its segments, and only candidates are completed. -/
structure Offers (pairs : PairSet) (segments : SegmentList) : Prop where
  high_lt : ∀ p ∈ pairs.toList, p.high < segments.length
  mem_of_completed : ∀ p ∈ pairs.completed, p ∈ pairs.toList

open PairSet in
/-- The pairs that carry a relation are pairs of segments, and only candidates among them are
completed. -/
theorem offers_enumerate (relations : List RelationAnnotation) (segments : SegmentList)
    (policy : DuplicatePolicy) : Offers (enumerate relations segments policy).1 segments where
  high_lt _ hp := high_lt_of_mem_order (mem_toList_enumerate.1 hp)
  mem_of_completed _ hp :=
    mem_toList_enumerate.2 (order_of_completed (mem_completed_withCompleted.1 hp))

open PairSet in
/-- All pairs of segments are candidates, so the completed ones are among them. -/
theorem offers_enumerateAll (relations : List RelationAnnotation) (segments : SegmentList)
    (policy : DuplicatePolicy) : Offers (enumerateAll relations segments policy).1 segments where
  high_lt _ hp := mem_toList_enumerateAll.1 hp
  mem_of_completed _ hp :=
    mem_toList_enumerateAll.2
      (high_lt_of_mem_order (order_of_completed (mem_completed_withCompleted.1 hp)))

/-- **Whichever candidates a session has, they are pairs of its segments**, and only candidates are
completed. -/
theorem offers_candidatesOf (relations : List RelationAnnotation) (segments : SegmentList)
    (policy : DuplicatePolicy) : Offers (candidatesOf relations segments policy).1 segments := by
  unfold candidatesOf
  split
  · exact offers_enumerateAll relations segments policy
  · dsimp only
    split
    · exact offers_enumerateAll relations segments policy
    · exact offers_enumerate relations segments policy

/-- Two segments give at least one candidate, since the combinations step in when the relations give
none. -/
theorem length_candidatesOf_pos {segments : SegmentList} (relations : List RelationAnnotation)
    (policy : DuplicatePolicy) (h : 2 ≤ segments.length) :
    0 < (candidatesOf relations segments policy).1.length := by
  have hall : 0 < (PairSet.enumerateAll relations segments policy).1.length := by
    have hlast := Candidates.rowStart_last h
    change 0 < (Candidates.combinations segments.length).length
    omega
  unfold candidatesOf
  split
  · exact hall
  · dsimp only
    split
    · exact hall
    · rename_i hempty
      rw [PairSet.isEmpty, beq_iff_eq] at hempty
      exact Nat.pos_of_ne_zero hempty

/-! ### The beginning -/

variable {σ : Type} [AnnotationStore σ]

/-- What every state of a session satisfies: its pairs are of its segments, and its cursor is on a
candidate. -/
structure Sound (s : Session σ) : Prop extends Offers s.pairs s.segments where
  on : s.cursor.On s.pairs.candidates

/-- There is a cursor to start with as soon as there is a candidate. -/
theorem start?_isSome {pairs : PairSet} (h : 0 < pairs.length) : (Cursor.start? pairs).isSome := by
  rw [Cursor.start?, Option.isSome_map]
  exact Candidates.get?_isSome_iff.2 h

/-- **A session starts exactly when there are two segments**; its relations and its tags have no say
in it. -/
theorem start_isOk_iff {store : σ} {config : Config} :
    (∃ s, start store config = .ok s) ↔
      2 ≤ (SegmentList.load (AnnotationStore.document store) config.layers).length := by
  unfold start
  dsimp only
  split
  · rename_i h
    simp
    omega
  · rename_i h
    obtain ⟨cursor, hcursor⟩ := Option.isSome_iff_exists.1 (start?_isSome
      (length_candidatesOf_pos
        (relationsOf (AnnotationStore.document store) config.layers) config.duplicatePolicy
        (Nat.not_lt.1 h)))
    rw [hcursor]
    simp
    omega

/-- Where two segments or more are loaded, a session starts. -/
theorem exists_start_of_load {store : σ} {config : Config} {segments : SegmentList}
    (hload : SegmentList.load (AnnotationStore.document store) config.layers = segments)
    (h : 2 ≤ segments.length) : ∃ s, start store config = .ok s := by
  rw [start_isOk_iff, hload]
  exact h

/-- What a session that has started consists of, field by field, all of it read from the store and
the configuration. -/
theorem start_eq_ok {store : σ} {config : Config} {s : Session σ}
    (h : start store config = .ok s) :
    s.store = store ∧ s.config = config ∧
      s.segments = SegmentList.load (AnnotationStore.document store) config.layers ∧
      s.index = ⟨relationsOf (AnnotationStore.document store) config.layers,
        tagSetOf (AnnotationStore.document store) config.layers⟩ ∧
      (s.pairs, s.warnings) = candidatesOf
        (relationsOf (AnnotationStore.document store) config.layers) s.segments
        config.duplicatePolicy ∧
      Cursor.start? s.pairs = some s.cursor := by
  unfold start at h
  dsimp only at h
  split at h
  · cases h
  · split at h
    · cases h
    · rename_i cursor hcursor
      injection h with h
      subst h
      exact ⟨rfl, rfl, rfl, rfl, rfl, hcursor⟩

/-- **A session starts sound**: the cursor is on the first candidate. -/
theorem sound_start {store : σ} {config : Config} {s : Session σ}
    (h : start store config = .ok s) : s.Sound := by
  obtain ⟨-, -, -, -, hpairs, hcursor⟩ := start_eq_ok h
  have hoffers := offers_candidatesOf
    (relationsOf (AnnotationStore.document store) config.layers) s.segments config.duplicatePolicy
  rw [← hpairs] at hoffers
  exact ⟨hoffers, Cursor.on_start? hcursor⟩

/-- **Without tags of its own, a document offers the sentinel.** -/
theorem tag_unset_start {store : σ} {config : Config} {s : Session σ}
    (h : start store config = .ok s)
    (hnone : (AnnotationStore.document store).tagSet? config.layers.relationLayer
      config.layers.labelFeature = none) : s.tag unsetName = .ok Tag.unset := by
  obtain ⟨-, -, -, hindex, -, -⟩ := start_eq_ok h
  rw [tag, tags, hindex, tagSetOf, hnone]
  rfl

/-! ### One action -/

/-- Marking a candidate keeps all completed pairs candidates, whether it is marked as completed or
as incomplete. -/
theorem offers_markAfter {pairs : PairSet} {segments : SegmentList} {pair : Pair} {tag : Tag}
    {inverseInformative : Bool} (h : Offers pairs segments) (hpair : pair ∈ pairs.toList) :
    Offers (LabelWriter.markAfter pairs pair tag inverseInformative) segments := by
  unfold LabelWriter.markAfter
  split
  · refine ⟨h.high_lt, fun p hp => h.mem_of_completed p ?_⟩
    exact (PairSet.mem_completed_markIncomplete.1 hp).2
  · split
    · have htoList : (pairs.markCompleted pair).toList = pairs.toList :=
        congrArg Candidates.toList (pairs.candidates_markCompleted pair)
      refine ⟨fun p hp => h.high_lt p (htoList ▸ hp), fun p hp => ?_⟩
      rw [htoList]
      rcases PairSet.mem_completed_markCompleted.1 hp with rfl | hp
      · exact hpair
      · exact h.mem_of_completed p hp
    · exact h

/-- Marking a pair changes which pairs are completed, and no candidate. -/
theorem candidates_markAfter (pairs : PairSet) (pair : Pair) (tag : Tag)
    (inverseInformative : Bool) :
    (LabelWriter.markAfter pairs pair tag inverseInformative).candidates = pairs.candidates := by
  unfold LabelWriter.markAfter
  split
  · rfl
  · split
    · exact pairs.candidates_markCompleted pair
    · rfl

/-- A label leaves the pair set as it was, or marks the pair of its two ends. -/
theorem pairs_apply (layers : LayerConfig) (segments : SegmentList) (tag : Tag)
    (origin target : Nat) (pairs : PairSet) (store : σ) :
    (LabelWriter.apply layers segments tag origin target pairs store).2.1 = pairs ∨
      ∃ pair inverseInformative, Pair.of? origin target = some pair ∧
        (LabelWriter.apply layers segments tag origin target pairs store).2.1 =
          LabelWriter.markAfter pairs pair tag inverseInformative := by
  unfold LabelWriter.apply
  split
  · exact .inl rfl
  · rename_i place hplace
    obtain ⟨-, -, hpair⟩ := LabelWriter.locate_eq_ok.1 hplace
    dsimp only
    split
    · exact .inl rfl
    · exact .inr ⟨place.pair, _, hpair, rfl⟩

/-- The two ends of a label are the members of the pair under the cursor, whichever way it
points. -/
theorem pair_endsOf (c : Cursor) (direction : RelationDirection) :
    Pair.of? (endsOf c direction).1 (endsOf c direction).2 = c.pair? := by
  cases direction with
  | leftToRight => rfl
  | rightToLeft => exact Pair.of?_comm c.right c.left

/-- What a label of the current pair asks of the store, and what comes of it. -/
def applied (s : Session σ) (direction : RelationDirection) (tag : Tag) :
    Except EditorError AppliedRelation × PairSet × σ :=
  LabelWriter.apply s.config.layers s.segments tag (endsOf s.cursor direction).1
    (endsOf s.cursor direction).2 s.pairs s.store

/-- A label with a tag that there is goes to the store, and the relations are read anew from what
the store holds then. -/
theorem select_of_tag {s : Session σ} {tagName : String} {tag : Tag}
    (direction : RelationDirection) (h : s.tag tagName = .ok tag) :
    s.select direction tagName =
      ((s.applied direction tag).1,
        { s with
          pairs := (s.applied direction tag).2.1
          store := (s.applied direction tag).2.2 }.reindex) := by
  rw [select, h]
  rfl

/-- A label with a tag that there is not fails before anything is asked of the store. -/
theorem select_of_no_tag {s : Session σ} {tagName : String} {e : EditorError}
    (direction : RelationDirection) (h : s.tag tagName = .error e) :
    s.select direction tagName = (.error e, s) := by
  rw [select, h]

/-- A label keeps a session sound, since it marks no pair but the current one, which is a
candidate. -/
theorem sound_select {s : Session σ} (direction : RelationDirection) (tagName : String)
    (h : s.Sound) : (s.select direction tagName).2.Sound := by
  cases htag : s.tag tagName with
  | error e =>
    rw [select_of_no_tag direction htag]
    exact h
  | ok tag =>
    rw [select_of_tag direction htag]
    obtain ⟨p, hmem, hp⟩ := h.on.mem_toList
    rcases pairs_apply s.config.layers s.segments tag (endsOf s.cursor direction).1
      (endsOf s.cursor direction).2 s.pairs s.store with hpairs | ⟨pair, b, hpair, hpairs⟩
    · rw [show (s.applied direction tag).2.1 = s.pairs from hpairs]
      exact ⟨h.toOffers, h.on⟩
    · rw [pair_endsOf, hp, Option.some.injEq] at hpair
      subst hpair
      rw [show (s.applied direction tag).2.1 = _ from hpairs]
      refine ⟨offers_markAfter h.toOffers hmem, ?_⟩
      dsimp only [reindex]
      rw [candidates_markAfter]
      exact h.on

omit [AnnotationStore σ] in
/-- Setting a filter moves nothing, so the cursor stays where it is. -/
theorem sound_setFilter {s : Session σ} (tagName : Option String) (h : s.Sound) :
    (s.setFilter tagName).2.Sound := by
  cases tagName with
  | none => exact ⟨h.toOffers, h.on⟩
  | some name =>
    unfold setFilter
    dsimp only
    split
    · exact ⟨h.toOffers, h.on⟩
    · exact h

/-- **An action keeps a session sound**, also an action that is refused or finds nothing. -/
theorem sound_perform {s : Session σ} (a : Action) (h : s.Sound) : (s.perform a).Sound := by
  cases a with
  | select direction tagName => exact sound_select direction tagName h
  | moveSegment side d => exact ⟨h.toOffers, Cursor.on_moveSegment side d h.on⟩
  | movePair move =>
    refine ⟨h.toOffers, ?_⟩
    cases move with
    | next => exact Cursor.on_movePair .next s.resolvePair h.on
    | previous => exact Cursor.on_movePair .previous s.resolvePair h.on
    | nextIncomplete => exact Cursor.on_jumpToNextIncomplete s.resolvePair h.on
  | setFilter tagName => exact sound_setFilter tagName h

/-- What no action changes: the configuration, the segments, the tags, the warnings and the
candidates. -/
structure Keeps (s s' : Session σ) : Prop where
  config : s'.config = s.config
  segments : s'.segments = s.segments
  tags : s'.tags = s.tags
  warnings : s'.warnings = s.warnings
  candidates : s'.pairs.candidates = s.pairs.candidates

omit [AnnotationStore σ] in
theorem Keeps.refl (s : Session σ) : s.Keeps s := ⟨rfl, rfl, rfl, rfl, rfl⟩

omit [AnnotationStore σ] in
theorem Keeps.trans {s s' s'' : Session σ} (h : s.Keeps s') (h' : s'.Keeps s'') : s.Keeps s'' where
  config := h'.config.trans h.config
  segments := h'.segments.trans h.segments
  tags := h'.tags.trans h.tags
  warnings := h'.warnings.trans h.warnings
  candidates := h'.candidates.trans h.candidates

/-- **An action moves the cursor, marks pairs and reads relations anew**, and nothing else. -/
theorem keeps_perform (s : Session σ) (a : Action) : s.Keeps (s.perform a) := by
  cases a with
  | select direction tagName =>
    dsimp only [perform]
    cases htag : s.tag tagName with
    | error e =>
      rw [select_of_no_tag direction htag]
      exact .refl s
    | ok tag =>
      rw [select_of_tag direction htag]
      refine ⟨rfl, rfl, rfl, rfl, ?_⟩
      rcases pairs_apply s.config.layers s.segments tag (endsOf s.cursor direction).1
        (endsOf s.cursor direction).2 s.pairs s.store with hpairs | ⟨pair, b, -, hpairs⟩
      · exact congrArg PairSet.candidates hpairs
      · exact (congrArg PairSet.candidates hpairs).trans (candidates_markAfter _ _ _ _)
  | moveSegment side d => exact ⟨rfl, rfl, rfl, rfl, rfl⟩
  | movePair move => exact ⟨rfl, rfl, rfl, rfl, rfl⟩
  | setFilter tagName =>
    cases tagName with
    | none => exact ⟨rfl, rfl, rfl, rfl, rfl⟩
    | some name =>
      dsimp only [perform]
      unfold setFilter
      dsimp only
      split
      · exact ⟨rfl, rfl, rfl, rfl, rfl⟩
      · exact .refl s

/-! ### Runs -/

/-- What holds at the beginning and is kept by every action holds after every run. -/
theorem run_induction {P : Session σ → Prop} (hstep : ∀ s a, P s → P (s.perform a))
    {s : Session σ} (h : P s) (actions : List Action) : P (s.run actions) := by
  induction actions generalizing s with
  | nil => exact h
  | cons a rest ih => exact ih (hstep s a h)

/-- A sound session is sound after every run, by induction over the actions. -/
theorem sound_run {s : Session σ} (h : s.Sound) (actions : List Action) : (s.run actions).Sound :=
  run_induction (fun _ a h => sound_perform a h) h actions

/-- No run changes what no action changes, by induction over the actions. -/
theorem keeps_run (s : Session σ) (actions : List Action) : s.Keeps (s.run actions) :=
  run_induction (P := s.Keeps) (fun s a h => h.trans (keeps_perform s a)) (.refl s) actions

/-- **A session starts exactly when there are two segments, and after every run the cursor is on a
candidate.**  Its sides are two different segments, each eligible beside the other, so neither
label shows a dash; the candidates are those of the beginning; and only candidates are completed,
so that as many completed pairs as candidates are all of them. -/
theorem run_on_candidate (store : σ) (config : Config) :
    ((∃ s, start store config = .ok s) ↔
      2 ≤ (SegmentList.load (AnnotationStore.document store) config.layers).length) ∧
    ∀ s₀, start store config = .ok s₀ → ∀ actions, ∀ s, s = s₀.run actions →
      s.segments = SegmentList.load (AnnotationStore.document store) config.layers ∧
      s.cursor.left ≠ s.cursor.right ∧
      s.cursor.left < s.segments.length ∧ s.cursor.right < s.segments.length ∧
      s.cursor.pairIndex < s.pairs.length ∧
      s.pairs.get? s.cursor.pairIndex = Pair.of? s.cursor.left s.cursor.right ∧
      s.pairs.candidates = s₀.pairs.candidates ∧
      (∀ p, s.pairs.isCompleted p = true → p ∈ s.pairs.toList) ∧
      s.pairs.completedCount ≤ s.pairs.length ∧
      (s.pairs.isFullyCompleted = true ↔ ∀ p ∈ s.pairs.toList, s.pairs.isCompleted p = true) ∧
      s.cursor.right ∈ s.pairs.eligible s.cursor.left ∧
      s.cursor.left ∈ s.pairs.eligible s.cursor.right ∧
      ∀ side, '-' ∉
        (s.cursor.positionLabel side s.pairs s.segments.source s.segments.length).toList := by
  refine ⟨start_isOk_iff, ?_⟩
  rintro s₀ hstart actions s rfl
  have hsound := sound_run (sound_start hstart) actions
  have hkeeps := s₀.keeps_run actions
  have hon := hsound.on
  refine ⟨hkeeps.segments.trans (start_eq_ok hstart).2.2.1, hon.left_ne_right,
    hon.segmentOn_lt hsound.high_lt .left, hon.segmentOn_lt hsound.high_lt .right,
    hon.pairIndex_lt, hon.get?_pairIndex, hkeeps.candidates, ?_,
    PairSet.completedCount_le_length hsound.mem_of_completed,
    PairSet.isFullyCompleted_iff hsound.mem_of_completed, hon.mem_eligible .right,
    hon.mem_eligible .left, fun side => hon.not_mem_positionLabel side _ _⟩
  intro p hp
  exact hsound.mem_of_completed p (PairSet.isCompleted_iff.1 hp)

/-- Three sentences are enough, and whatever is done then, the two sides stay different ones of
them. -/
theorem run_on_threeSentences :
    ∃ s₀, start (⟨Document.threeSentences, none, {}⟩ : FileStore) {} = .ok s₀ ∧
      ∀ actions, (s₀.run actions).segments.length = 3 ∧
        (s₀.run actions).cursor.left ≠ (s₀.run actions).cursor.right := by
  obtain ⟨hstart, hrun⟩ := run_on_candidate (⟨Document.threeSentences, none, {}⟩ : FileStore) {}
  have hload : SegmentList.load Document.threeSentences {} = _ := Document.load_threeSentences
  obtain ⟨s₀, hs₀⟩ := hstart.2 (show 2 ≤ (SegmentList.load Document.threeSentences {}).length by
    rw [hload]
    decide)
  refine ⟨s₀, hs₀, fun actions => ?_⟩
  obtain ⟨hsegments, hne, -⟩ := hrun s₀ hs₀ actions _ rfl
  refine ⟨?_, hne⟩
  rw [hsegments]
  exact congrArg SegmentList.length hload

/-- A session on three sentences begins with the first two of them. -/
theorem cursor_threeSegments {store : σ} {config : Config} {s₀ : Session σ}
    (hstart : start store config = .ok s₀)
    (hload : SegmentList.load (AnnotationStore.document store) config.layers =
      Document.threeSegments) : s₀.cursor = ⟨0, 1, 0, none⟩ := by
  obtain ⟨-, -, hsegments, -, hpairs, hcursor⟩ := start_eq_ok hstart
  rw [hsegments.trans hload] at hpairs
  rw [show s₀.pairs = _ from congrArg Prod.fst hpairs] at hcursor
  exact (Option.some.inj hcursor).symm

/-- The first label of a session on three sentences is about the first two of them. -/
theorem applied_threeSegments {store : σ} {config : Config} {s₀ : Session σ}
    (hstart : start store config = .ok s₀)
    (hload : SegmentList.load (AnnotationStore.document store) config.layers =
      Document.threeSegments) (tag : Tag) :
    s₀.applied .leftToRight tag =
      LabelWriter.apply config.layers Document.threeSegments tag 0 1 s₀.pairs store := by
  obtain ⟨hstore, hconfig, hsegments, -, -, -⟩ := start_eq_ok hstart
  rw [applied, hstore, hconfig, hsegments.trans hload, cursor_threeSegments hstart hload]
  rfl

end Session
end PairAnnotation
