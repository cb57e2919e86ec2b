/-
# One pair along a session

To follow what becomes of one pair it is enough to know a small state of it: the labels
that stand on its two directions, and whether it is completed (`PairState`).  Where no
two segments have the same span, an action either leaves this state as it is or labels
one of the two directions (`step_perform`), whatever the session and its store are like
otherwise.  A property of pair states that these steps keep is one of every state that
a session comes to (`Reached.pairState`).
-/

import PairAnnotation.Proofs.Session.FailedLabel
import PairAnnotation.Proofs.Writer.Edges

namespace PairAnnotation

/-! ### Pair states -/

namespace DirectionState

open RelationAnnotation (links)

/-- A direction whose relations stay, and do not lose a neighbour that they restate. -/
structure Keeps (x y : DirectionState) : Prop where
  labels : y.labels = x.labels
  restated : x.restated → y.restated

/-- A direction that keeps its labels says as much as before. -/
theorem Keeps.informative_eq {x y : DirectionState} (h : x.Keeps y) :
    y.informative = x.informative := by
  rw [informative, h.labels]
  rfl

/-- Relations that are only rearranged between the same ends keep every direction. -/
theorem keeps_of_rearranged {relations relations' : List RelationAnnotation}
    (h : Rearranged relations relations') (d g : Span) :
    (of relations d g).Keeps (of relations' d g) :=
  ⟨h.labelsOn_eq d g, h.restated⟩

/-- Relations that are replaced leave all other directions alone, that of the same two spans the
other way round included. -/
theorem keeps_of_replace {relations : List RelationAnnotation} {e : RelationAnnotation} {d g : Span}
    (hne : ¬(d = e.dependent ∧ g = e.governor)) :
    (of relations d g).Keeps
      (of (relations.filter (!·.links e.dependent e.governor) ++ [e]) d g) where
  labels := by
    refine (labelsOn_replace ?_).trans (if_neg hne)
    simp [links]
  restated h := h.replace hne [e]

/-- Where the relations of a direction are replaced by one, its label is the only one. -/
theorem labels_of_replace (relations : List RelationAnnotation) (e : RelationAnnotation) :
    (of (relations.filter (!·.links e.dependent e.governor) ++ [e]) e.dependent e.governor).labels =
      [e.label] := by
  refine (labelsOn_replace ?_).trans (if_pos ⟨rfl, rfl⟩)
  simp [links]

end DirectionState

/-- **What a session holds of a pair**: the state of the direction to each of the two segments, and
whether the pair is completed. -/
structure PairState where
  toLow : DirectionState
  toHigh : DirectionState
  completed : Bool

namespace PairState

/-- The two directions exchanged, for statements that hold of both by symmetry. -/
def flip (x : PairState) : PairState := ⟨x.toHigh, x.toLow, x.completed⟩

/-- **What an action may do to a pair**: nothing, or label one of the two directions.  A label other
than the sentinel completes the pair when the other direction says something. -/
inductive Step (tags : TagSet) : PairState → PairState → Prop where
  | keep {x y : PairState} :
    x.toLow.Keeps y.toLow → x.toHigh.Keeps y.toHigh → y.completed = x.completed → Step tags x y
  | label {x y : PairState} {tag : Tag} :
    tag ∈ tags.tags → y.toLow.labels = [some tag.name] → x.toHigh.Keeps y.toHigh →
    y.completed = (!tag.isUnset && (x.completed || x.toHigh.informative)) → Step tags x y
  | flip {x y : PairState} : Step tags x.flip y.flip → Step tags x y

/-- **A property of pair states that no action takes away**: it does not tell the two directions
apart, and is kept by what an action does to one of them. -/
structure Invariant (tags : TagSet) (P : PairState → Prop) : Prop where
  flip {x : PairState} : P x → P x.flip
  keep {x y : PairState} : x.toLow.Keeps y.toLow → x.toHigh.Keeps y.toHigh →
    y.completed = x.completed → P x → P y
  label {x y : PairState} {tag : Tag} : tag ∈ tags.tags → y.toLow.labels = [some tag.name] →
    x.toHigh.Keeps y.toHigh →
    y.completed = (!tag.isUnset && (x.completed || x.toHigh.informative)) → P x → P y

/-- What no action takes away is kept by every step of a pair. -/
theorem Invariant.step {tags : TagSet} {P : PairState → Prop} (hP : Invariant tags P)
    {x y : PairState} (hstep : Step tags x y) (h : P x) : P y := by
  induction hstep with
  | keep hlow hhigh hcompleted => exact hP.keep hlow hhigh hcompleted h
  | label htag hlow hhigh hcompleted => exact hP.label htag hlow hhigh hcompleted h
  | flip _ ih => exact hP.flip (ih (hP.flip h))

end PairState

namespace Session

variable {s s₀ : Session FileStore} {p : Pair} {low high : Span}

/-- The state of a pair in a session, given the spans of its two segments. -/
def pairState {σ : Type} (s : Session σ) (p : Pair) (low high : Span) : PairState where
  toLow := .of s.index.edges low high
  toHigh := .of s.index.edges high low
  completed := s.pairs.isCompleted p

/-- A tag that was found by its name is one of the tags to choose from. -/
theorem mem_tags_of_tag {tagName : String} {tag : Tag} (h : s.tag tagName = .ok tag) :
    tag ∈ s.tags.tags := by
  unfold Session.tag at h
  split at h
  · rename_i tag' htag
    obtain rfl := Except.ok.inj h
    exact List.mem_of_find?_eq_some htag
  · cases h

/-! ### One action -/

section Replace

variable {s s' : Session FileStore} {tag : Tag} {i j : Nat} {origin target : Span} {pair : Pair}
variable {id : AnnotationId}

/-- **An accepted label labels a direction of its pair, and leaves every other pair alone.** -/
theorem step_of_replace (hdistinct : s.segments.Distinct)
    (hlow : s.segments.spanAt? p.low = some low) (hhigh : s.segments.spanAt? p.high = some high)
    (htag : tag ∈ s.tags.tags) (horigin : s.segments.spanAt? i = some origin)
    (htarget : s.segments.spanAt? j = some target) (hpair : Pair.of? i j = some pair)
    (hedges : s'.index.edges =
      s.index.edges.filter (!·.links target origin) ++ [⟨id, target, origin, some tag.name⟩])
    (hpairs : s'.pairs = LabelWriter.markAfter s.pairs pair tag
      (DirectionState.of s.index.edges origin target).informative) :
    PairState.Step s.tags (s.pairState p low high) (s'.pairState p low high) := by
  have hother : ∀ {d g : Span}, ¬(d = target ∧ g = origin) →
      (DirectionState.of s.index.edges d g).Keeps (.of s'.index.edges d g) := by
    intro d g hne
    rw [hedges]
    exact DirectionState.keeps_of_replace (e := ⟨id, target, origin, some tag.name⟩) hne
  have hlabels : (DirectionState.of s'.index.edges target origin).labels = [some tag.name] := by
    rw [hedges]
    exact DirectionState.labels_of_replace _ ⟨id, target, origin, some tag.name⟩
  have hcompleted := LabelWriter.isCompleted_markAfter s.pairs pair tag
    (DirectionState.of s.index.edges origin target).informative p
  rw [← hpairs] at hcompleted
  have hne : low ≠ high := by
    rintro rfl
    exact Nat.ne_of_lt p.low_lt_high (hdistinct.index_eq hlow hhigh)
  by_cases hp : p = pair
  · subst hp
    rw [if_pos rfl] at hcompleted
    rcases Pair.of?_eq_some_iff.1 hpair with ⟨rfl, rfl⟩ | ⟨rfl, rfl⟩
    · obtain rfl : low = origin := Option.some.inj (hlow.symm.trans horigin)
      obtain rfl : high = target := Option.some.inj (hhigh.symm.trans htarget)
      exact .flip (.label htag hlabels (hother fun heq => hne heq.1) hcompleted)
    · obtain rfl : high = origin := Option.some.inj (hhigh.symm.trans horigin)
      obtain rfl : low = target := Option.some.inj (hlow.symm.trans htarget)
      exact .label htag hlabels (hother fun heq => hne heq.2) hcompleted
  · -- Labels between the two spans would be labels of the pair.
    rw [if_neg hp] at hcompleted
    have hpair_ne : ∀ {d g : Span} {i' j' : Nat}, s.segments.spanAt? i' = some d →
        s.segments.spanAt? j' = some g → Pair.of? j' i' = some p →
        ¬(d = target ∧ g = origin) := by
      rintro d g i' j' hd hg hof ⟨rfl, rfl⟩
      obtain rfl := hdistinct.index_eq hd htarget
      obtain rfl := hdistinct.index_eq hg horigin
      exact hp (Option.some.inj (hof.symm.trans hpair))
    exact .keep (hother (hpair_ne hlow hhigh ((Pair.of?_comm _ _).trans p.of?_members)))
      (hother (hpair_ne hhigh hlow p.of?_members)) hcompleted

end Replace

/-- The relations of a session after a label: a refused one only rearranges them, and an accepted
one puts a single relation in the place of those on its edge. -/
theorem relations_applied (h : s.Current) (direction : RelationDirection) (tag : Tag) :
    s.store.document.SameFrame (s.applied direction tag).2.2.document ∧
      ((∃ e, (s.applied direction tag).1 = .error e) ∧ (s.applied direction tag).2.1 = s.pairs ∧
          Rearranged s.index.edges
            (relationsOf (s.applied direction tag).2.2.document s.config.layers) ∨
        ∃ place id, LabelWriter.locate s.segments (endsOf s.cursor direction).1
            (endsOf s.cursor direction).2 = .ok place ∧
          (∃ applied, (s.applied direction tag).1 = .ok applied) ∧
          (s.applied direction tag).2.1 = LabelWriter.markAfter s.pairs place.pair tag
            (DirectionState.of s.index.edges place.origin place.target).informative ∧
          relationsOf (s.applied direction tag).2.2.document s.config.layers =
            s.index.edges.filter (!·.links place.target place.origin) ++
              [⟨id, place.target, place.origin, some tag.name⟩]) := by
  rw [h.edges]
  exact LabelWriter.relations_apply h.wellFormed h.ne_dependent h.ne_governor

/-- **A label labels a direction of the pair, or leaves the pair alone.** -/
theorem step_select (h : s.Current) (hdistinct : s.segments.Distinct)
    (hlow : s.segments.spanAt? p.low = some low) (hhigh : s.segments.spanAt? p.high = some high)
    (direction : RelationDirection) (tagName : String) :
    PairState.Step s.tags (s.pairState p low high)
      ((s.select direction tagName).2.pairState p low high) := by
  cases htag : s.tag tagName with
  | error e =>
    rw [select_of_no_tag direction htag]
    exact .keep ⟨rfl, id⟩ ⟨rfl, id⟩ rfl
  | ok tag =>
    rw [select_of_tag direction htag]
    obtain ⟨-, hcases⟩ := relations_applied h direction tag
    rcases hcases with ⟨-, hpairs, hrearranged⟩ | ⟨place, id, hplace, -, hpairs, hrelations⟩
    · exact .keep (DirectionState.keeps_of_rearranged hrearranged _ _)
        (DirectionState.keeps_of_rearranged hrearranged _ _)
        (congrArg (PairSet.isCompleted · p) hpairs)
    · obtain ⟨horigin, htarget, hpair⟩ := LabelWriter.locate_eq_ok.1 hplace
      exact step_of_replace hdistinct hlow hhigh (mem_tags_of_tag htag) horigin htarget hpair
        hrelations hpairs

/-- **An action leaves a pair alone, or labels one of its directions.** -/
theorem step_perform (h : s.Current) (hdistinct : s.segments.Distinct)
    (hlow : s.segments.spanAt? p.low = some low) (hhigh : s.segments.spanAt? p.high = some high)
    (a : Action) :
    PairState.Step s.tags (s.pairState p low high) ((s.perform a).pairState p low high) := by
  have hkeep : PairState.Step s.tags (s.pairState p low high) (s.pairState p low high) :=
    .keep ⟨rfl, id⟩ ⟨rfl, id⟩ rfl
  cases a with
  | select direction tagName => exact step_select h hdistinct hlow hhigh direction tagName
  | moveSegment side d => exact hkeep
  | movePair move => exact hkeep
  | setFilter tagName =>
    cases tagName with
    | none => exact hkeep
    | some name =>
      dsimp only [perform, setFilter]
      split <;> exact hkeep

/-- **An action changes the store by a label at most.** -/
theorem store_perform {σ : Type} [AnnotationStore σ] (s : Session σ) (a : Action) :
    (s.perform a).store = s.store ∨
      ∃ direction tag, (s.perform a).store = (s.applied direction tag).2.2 := by
  cases a with
  | select direction tagName =>
    dsimp only [perform]
    cases htag : s.tag tagName with
    | error e =>
      rw [select_of_no_tag direction htag]
      exact .inl rfl
    | ok tag =>
      rw [select_of_tag direction htag]
      exact .inr ⟨direction, tag, rfl⟩
  | moveSegment side d => exact .inl rfl
  | movePair move => exact .inl rfl
  | setFilter tagName =>
    cases tagName with
    | none => exact .inl rfl
    | some name =>
      dsimp only [perform, setFilter]
      split <;> exact .inl rfl

/-- An action leaves the frame of the document as it is. -/
theorem frame_perform (h : s.Current) (a : Action) :
    s.store.document.SameFrame (s.perform a).store.document := by
  rcases s.store_perform a with hstore | ⟨direction, tag, hstore⟩
  · rw [hstore]
    exact .refl _
  · rw [hstore]
    exact (relations_applied h direction tag).1

/-! ### Every state of a session -/

/-- A run comes to states of the session, whatever its actions are. -/
theorem reached_run (s : Session FileStore) (actions : List Action) : s.Reached (s.run actions) :=
  run_induction (fun _ a h => .act a h) .start actions

namespace Reached

/-- What no action changes is in every reached state as it was at first. -/
theorem keeps (h : s₀.Reached s) : s₀.Keeps s := by
  induction h with
  | start => exact .refl _
  | act a _ ih => exact ih.trans (keeps_perform _ a)
  | elsewhere path disk _ ih => exact ih.trans ⟨rfl, rfl, rfl, rfl, rfl⟩

/-- Every state that a sound session comes to is sound, so its cursor is on a candidate. -/
theorem sound (h₀ : s₀.Sound) (h : s₀.Reached s) : s.Sound := by
  induction h with
  | start => exact h₀
  | act a _ ih => exact sound_perform a ih
  | elsewhere path disk _ ih => exact ⟨ih.toOffers, ih.on⟩

/-- In every reached state the document has the text, the sentences and the tag sets that it had at
first. -/
theorem frame (h₀ : s₀.Current) (h : s₀.Reached s) :
    s₀.store.document.SameFrame s.store.document := by
  induction h with
  | start => exact .refl _
  | act a hreached ih => exact ih.trans (frame_perform (hreached.current h₀) a)
  | elsewhere path disk _ ih => exact ih

/-- **A property of pair states that no action takes away holds in every state of a session**, if
it holds at the beginning. -/
theorem pairState {P : PairState → Prop} (hP : PairState.Invariant s₀.tags P) (h₀ : s₀.Current)
    (hdistinct : s₀.segments.Distinct) (hlow : s₀.segments.spanAt? p.low = some low)
    (hhigh : s₀.segments.spanAt? p.high = some high) (hstart : P (s₀.pairState p low high))
    (h : s₀.Reached s) : P (s.pairState p low high) := by
  induction h with
  | start => exact hstart
  | act a hreached ih =>
    have hkeeps := hreached.keeps
    have hstep := step_perform (hreached.current h₀) (hkeeps.segments ▸ hdistinct)
      (hkeeps.segments ▸ hlow) (hkeeps.segments ▸ hhigh) a
    rw [hkeeps.tags] at hstep
    exact hP.step hstep ih
  | elsewhere path disk _ ih => exact ih

end Reached
end Session
end PairAnnotation
