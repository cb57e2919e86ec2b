/-
# Labels that complete a pair

A label that is accepted puts its name on one direction of the current pair and leaves
the other one as it was; the pair is completed if it was so before, or if the other
direction says something, unless the label is the sentinel (`labels_of_select`).  The
two directions are asked different questions: of the one that is there already, whether
it says something, and of the new one, only whether it is the sentinel.  The answers
differ for one name, the empty one.  So both directions of a pair that a label completes
say something if and only if the tag has a name (`completing_label_iff`), and a tag set
with a nameless tag lets a label complete a pair of which one direction says nothing
(`nameless_label_completes`).
-/

import PairAnnotation.Proofs.Session.Reopening

namespace PairAnnotation
namespace Session

/-- **What an accepted label does to the current pair**, whose directions are those between the
spans `origin` and `target`. -/
structure Labels {σ : Type} (s s' : Session σ) (name : String) (p : Pair) (origin target : Span) :
    Prop where
  pair : Pair.of? s.cursor.left s.cursor.right = some p
  labelled : s'.index.label? target origin = some name
  inverse : s'.index.label? origin target = s.index.label? origin target
  completed : s'.pairs.isCompleted p =
    (name != unsetName &&
      (s.pairs.isCompleted p || isInformative (s.index.label? origin target)))

/-- A tag that was found by a name has this name. -/
theorem name_of_tag {σ : Type} {s : Session σ} {tagName : String} {tag : Tag}
    (h : s.tag tagName = .ok tag) : tag.name = tagName := by
  unfold Session.tag at h
  split at h
  · rename_i tag' htag
    obtain rfl := Except.ok.inj h
    exact TagSet.name_of_find? htag
  · cases h

variable {s s' : Session FileStore} {direction : RelationDirection} {tagName : String}
variable {applied : AppliedRelation}

/-- **An accepted label names one direction of the current pair and leaves the other one.** -/
theorem labels_of_select (h : s.Current) (hdistinct : s.segments.Distinct)
    (hselect : s.select direction tagName = (.ok applied, s')) :
    ∃ origin target,
      s.segments.spanAt? (endsOf s.cursor direction).1 = some origin ∧
      s.segments.spanAt? (endsOf s.cursor direction).2 = some target ∧
      s.Labels s' tagName applied.pair origin target := by
  cases htag : s.tag tagName with
  | error e =>
    rw [select_of_no_tag direction htag] at hselect
    cases hselect
  | ok tag =>
    obtain rfl := name_of_tag htag
    rw [select_of_tag direction htag] at hselect
    obtain ⟨-, ⟨⟨e, herror⟩, -⟩ | ⟨place, id, hplace, -, hpairs, hrelations⟩⟩ :=
      relations_applied h direction tag
    · rw [herror] at hselect
      cases hselect
    obtain ⟨hok, rfl⟩ := Prod.mk.inj hselect
    obtain ⟨horigin, htarget, hpair⟩ := LabelWriter.locate_eq_ok.1 hplace
    have happlied : applied.pair = place.pair :=
      congrArg AppliedRelation.pair
        (LabelWriter.applied_of_apply_ok h.wellFormed hplace (Prod.ext hok rfl))
    have hne : place.origin ≠ place.target := by
      intro heq
      rw [heq] at horigin
      rw [hdistinct.index_eq horigin htarget, Pair.of?_self] at hpair
      cases hpair
    have hlabelled := DirectionState.labels_of_replace s.index.edges
      ⟨id, place.target, place.origin, some tag.name⟩
    have hkeeps := @DirectionState.keeps_of_replace s.index.edges
      ⟨id, place.target, place.origin, some tag.name⟩ place.origin place.target
      fun heq => hne heq.1
    have hinverse := hkeeps.labels
    rw [← hrelations] at hlabelled hinverse
    rw [happlied]
    refine ⟨place.origin, place.target, horigin, htarget, ?_, ?_, ?_, ?_⟩
    · rw [← hpair, pair_endsOf]
      rfl
    · rw [RelationIndex.label?_eq]
      exact congrArg (fun labels => labels.getLast?.join) hlabelled
    · rw [RelationIndex.label?_eq, RelationIndex.label?_eq]
      exact congrArg (fun labels => labels.getLast?.join) hinverse
    · change (s.applied direction tag).2.1.isCompleted place.pair = _
      rw [hpairs, LabelWriter.isCompleted_markAfter, if_pos rfl, informative_eq_label?]
      rfl

/-- **A pair that a label completes has two directions that say something, if and only if the tag
has a name.**  In every state of a session an accepted label completes a pair that was not completed
exactly when it is not the sentinel and the other direction says something; what the label puts on
its own direction is the name of the tag, whatever that is. -/
theorem completing_label_iff {store : FileStore} {config : Config} {s₀ : Session FileStore}
    (h : store.document.WellFormed)
    (hd : config.layers.labelFeature ≠ RelationRecord.dependentFeature)
    (hg : config.layers.labelFeature ≠ RelationRecord.governorFeature)
    (hstart : start store config = .ok s₀) (hreached : s₀.Reached s)
    (hdistinct : (SegmentList.load store.document config.layers).Distinct)
    (hselect : s.select direction tagName = (.ok applied, s')) :
    ∃ origin target,
      s.segments.spanAt? (endsOf s.cursor direction).1 = some origin ∧
      s.segments.spanAt? (endsOf s.cursor direction).2 = some target ∧
      Pair.of? s.cursor.left s.cursor.right = some applied.pair ∧
      (s.pairs.isCompleted applied.pair = false →
        (s'.pairs.isCompleted applied.pair = true ↔
          tagName ≠ unsetName ∧ isInformative (s.index.label? origin target) = true) ∧
        (s'.pairs.isCompleted applied.pair = true →
          (isInformative (s'.index.label? origin target) = true ∧
              isInformative (s'.index.label? target origin) = true ↔ tagName ≠ ""))) := by
  have hcurrent := hreached.current (current_start h hd hg hstart)
  obtain ⟨-, -, hsegments, -, -, -⟩ := start_eq_ok hstart
  have hdistinct' : s.segments.Distinct := by
    rw [hreached.keeps.segments, hsegments]
    exact hdistinct
  obtain ⟨origin, target, horigin, htarget, hlabels⟩ :=
    labels_of_select hcurrent hdistinct' hselect
  refine ⟨origin, target, horigin, htarget, hlabels.pair, fun hopen => ?_⟩
  have hcompletes : s'.pairs.isCompleted applied.pair = true ↔
      tagName ≠ unsetName ∧ isInformative (s.index.label? origin target) = true := by
    rw [hlabels.completed, hopen, Bool.false_or, Bool.and_eq_true, bne_iff_ne]
  refine ⟨hcompletes, fun hcompleted => ?_⟩
  obtain ⟨hname, hinverse⟩ := hcompletes.1 hcompleted
  rw [hlabels.inverse, hlabels.labelled]
  constructor
  · rintro ⟨-, hnew⟩
    obtain ⟨name, hsome, hne, -⟩ := isInformative_iff.1 hnew
    rwa [Option.some.inj hsome]
  · exact fun hne => ⟨hinverse, isInformative_iff.2 ⟨tagName, rfl, hne, hname⟩⟩

end Session

/-! ### A tag without a name -/

/-- Three sentences with a relation each way between the first two of them, of which the second one
says something, and two tags to label relations with, of which one has no name. -/
def Document.halfLabelled : Document :=
  { threeTagged causeThenUnset.reverse 5 with
    tagSets := [⟨"webanno.custom.SentenceRelation", "label",
      ⟨"Relations", [⟨"cause", none⟩, ⟨"", none⟩]⟩⟩] }

/-- The segments of the document with a half-labelled pair are its three sentences. -/
theorem Document.load_halfLabelled : SegmentList.load halfLabelled {} = threeSegments :=
  (SegmentList.load_congr rfl rfl rfl isPreAnnotatedFormat_threeSentences).trans load_threeSentences

namespace Session

open Document (halfLabelled load_halfLabelled threeSegments)

/-- A session on the half labelled pair can label its other half. -/
theorem select_halfLabelled {tagName : String} (htag : tagName = "cause" ∨ tagName = "") :
    ∃ s₀ applied s,
      start (⟨halfLabelled, none, {}⟩ : FileStore) {} = .ok s₀ ∧
      s₀.segments = threeSegments ∧ s₀.cursor = ⟨0, 1, 0, none⟩ ∧
      s₀.tags.tags = [⟨"cause", none⟩, ⟨"", none⟩, Tag.unset] ∧
      s₀.pairs.isCompleted ⟨0, 1, by decide⟩ = false ∧
      s₀.index.label? ⟨3, 5⟩ ⟨0, 2⟩ = some "cause" ∧
      s₀.select .rightToLeft tagName = (.ok applied, s) := by
  obtain ⟨s₀, hstart⟩ : ∃ s₀, start (⟨halfLabelled, none, {}⟩ : FileStore) {} = .ok s₀ :=
    exists_start_of_load load_halfLabelled (by decide)
  obtain ⟨hstore, hconfig, hsegments, hindex, -, -⟩ := start_eq_ok hstart
  replace hsegments : s₀.segments = threeSegments := hsegments.trans load_halfLabelled
  have hcursor : s₀.cursor = ⟨0, 1, 0, none⟩ := cursor_threeSegments hstart load_halfLabelled
  have hlookup : s₀.tag tagName = .ok ⟨tagName, none⟩ := by
    rw [tag, tags, hindex]
    rcases htag with rfl | rfl <;> rfl
  have hplace : LabelWriter.locate threeSegments 1 0 =
      .ok ⟨⟨3, 5⟩, ⟨0, 2⟩, ⟨0, 1, by decide⟩⟩ := rfl
  obtain ⟨applied, pairs', happly⟩ := LabelWriter.apply_unbound {} ⟨tagName, none⟩ s₀.pairs {}
    (show halfLabelled.WellFormed by decide) hplace (by rcases htag with rfl | rfl <;> decide)
  have happlied : (s₀.applied .rightToLeft ⟨tagName, none⟩).1 = .ok applied := by
    rw [Session.applied, hstore, hconfig, hsegments, hcursor]
    exact congrArg Prod.fst happly
  have hselect := select_of_tag .rightToLeft hlookup
  rw [happlied] at hselect
  refine ⟨s₀, applied, _, hstart, hsegments, hcursor, ?_, ?_, ?_, hselect⟩
  · rw [tags, hindex]
    decide
  · rw [Bool.eq_false_iff, ne_eq, isCompleted_start_iff hstart, hindex, hsegments]
    decide
  · rw [RelationIndex.label?_eq, hindex]
    decide

/-- The second label of the half labelled pair, a tag with a name, completes it. -/
theorem completing_label_cause :
    ∃ s₀ applied s,
      start (⟨halfLabelled, none, {}⟩ : FileStore) {} = .ok s₀ ∧
      s₀.select .rightToLeft "cause" = (.ok applied, s) ∧
      s₀.pairs.isCompleted applied.pair = false ∧ s.pairs.isCompleted applied.pair = true ∧
      isInformative (s.index.label? ⟨3, 5⟩ ⟨0, 2⟩) = true ∧
      isInformative (s.index.label? ⟨0, 2⟩ ⟨3, 5⟩) = true := by
  obtain ⟨s₀, applied, s, hstart, hsegments, hcursor, -, hopen, hlabel, hselect⟩ :=
    select_halfLabelled (.inl rfl)
  obtain ⟨origin, target, horigin, htarget, hpair, hcompletes⟩ := completing_label_iff
    (by decide) (by decide) (by decide) hstart .start (load_halfLabelled ▸ by decide) hselect
  rw [hsegments, hcursor] at horigin htarget
  cases horigin
  cases htarget
  rw [hcursor] at hpair
  replace hpair : ⟨0, 1, by decide⟩ = applied.pair := Option.some.inj hpair
  rw [hpair] at hopen
  obtain ⟨hiff, hinformative⟩ := hcompletes hopen
  have hcompleted : s.pairs.isCompleted applied.pair = true :=
    hiff.2 ⟨by decide, hlabel ▸ by decide⟩
  obtain ⟨hfirst, hsecond⟩ := (hinformative hcompleted).2 (by decide)
  exact ⟨s₀, applied, s, hstart, hselect, hopen, hcompleted, hfirst, hsecond⟩

/-- **A tag without a name completes a pair of which one direction says nothing.** -/
theorem nameless_label_completes :
    (halfLabelled.WellFormed ∧ (SegmentList.load halfLabelled {}).Distinct) ∧
    ∃ s₀ applied s,
      start (⟨halfLabelled, none, {}⟩ : FileStore) {} = .ok s₀ ∧
      ⟨"", none⟩ ∈ s₀.tags.tags ∧ s₀.select .rightToLeft "" = (.ok applied, s) ∧
      s₀.pairs.isCompleted applied.pair = false ∧ s.pairs.isCompleted applied.pair = true ∧
      isInformative (s.index.label? ⟨0, 2⟩ ⟨3, 5⟩) = false := by
  refine ⟨⟨by decide, load_halfLabelled ▸ by decide⟩, ?_⟩
  obtain ⟨s₀, applied, s, hstart, hsegments, hcursor, htags, hopen, hlabel, hselect⟩ :=
    select_halfLabelled (.inr rfl)
  obtain ⟨origin, target, horigin, htarget, hlabels⟩ := labels_of_select
    (current_start (by decide) (by decide) (by decide) hstart) (hsegments ▸ by decide) hselect
  rw [hsegments, hcursor] at horigin htarget
  cases horigin
  cases htarget
  replace hlabels : s₀.Labels s "" applied.pair ⟨3, 5⟩ ⟨0, 2⟩ := hlabels
  have hpair := hlabels.pair
  rw [hcursor] at hpair
  replace hpair : ⟨0, 1, by decide⟩ = applied.pair := Option.some.inj hpair
  refine ⟨s₀, applied, s, hstart, htags ▸ by decide, hselect, hpair ▸ hopen, ?_, ?_⟩
  · rw [hlabels.completed, ← hpair, hopen, hlabel]
    rfl
  · rw [hlabels.labelled]
    rfl

end Session
end PairAnnotation
