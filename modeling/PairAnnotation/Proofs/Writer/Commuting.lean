/-
# Labels in either order

What a session shows of a document are the labels between its spans, the spans that are
annotated as segments, and which pairs are completed (`LabelView`).  What an accepted
label does to these is a function of what was shown before (`LabelView.label`), and
labels on different directions commute as such functions (`LabelView.label_comm`).

The case to look at is that of the two directions of one pair.  Whether a label
completes the pair depends on the label of the other direction at that time, and in
each order the second label finds the first one there.  Either way the pair ends up
completed exactly when neither of the two is the sentinel.
-/

import PairAnnotation.Proofs.Segments
import PairAnnotation.Proofs.Writer.Recovery

namespace PairAnnotation

/-- A label that has a name says something unless it is the sentinel. -/
theorem Tag.isInformative_name {tag : Tag} (h : tag.name ≠ "") :
    isInformative (some tag.name) = !tag.isUnset := by
  rw [isInformative, bne, beq_false_of_ne h]
  rfl

namespace LabelWriter

open Relabelling

/-! ### What is shown -/

/-- **What a session shows of a document**: the labels from one span to another, the spans that are
annotated on the sentence layer, and the pairs that are completed. -/
@[ext]
structure LabelView where
  labels : Span → Span → List (Option String)
  annotated : Span → Prop
  completed : Pair → Bool

namespace LabelView

/-- What is shown of a document and its pairs: labels, annotated spans and completed pairs. -/
def of (d : Document) (layers : LayerConfig) (pairs : PairSet) : LabelView where
  labels := d.labels layers
  annotated span := ∃ a ∈ d.spans, a.layer = layers.sentenceLayer ∧ a.span = span
  completed := pairs.isCompleted

/-- **What is shown after a label**, told from what was shown before it and from nothing else. -/
def label (x : LabelView) (tag : Tag) (place : Target) : LabelView where
  labels dependent governor :=
    if dependent = place.target ∧ governor = place.origin then [some tag.name]
    else x.labels dependent governor
  annotated span := x.annotated span ∨ span ∈ [place.origin, place.target]
  completed p :=
    if p = place.pair then
      !tag.isUnset &&
        (x.completed p || isInformative (x.labels place.origin place.target).getLast?.join)
    else x.completed p

end LabelView

/-- After a change its two ends are annotated, and no other span is that was not before. -/
theorem annotated_result {p : Relabelling} (h : p.document.WellFormed) (span : Span) :
    (∃ a ∈ p.result.2.spans, a.layer = p.layers.sentenceLayer ∧ a.span = span) ↔
      (∃ a ∈ p.document.spans, a.layer = p.layers.sentenceLayer ∧ a.span = span) ∨
        span ∈ [p.origin, p.target] := by
  rw [spans_result h]
  constructor
  · rintro ⟨a, ha, hlayer, rfl⟩
    rcases List.mem_append.1 ha with hold | hnew
    · exact .inl ⟨a, hold, hlayer, rfl⟩
    · exact .inr (span_mem_of_mem_created hnew)
  · rintro (⟨a, ha, ha'⟩ | hend)
    · exact ⟨a, List.mem_append_left _ ha, ha'⟩
    · -- Once anchored, an end has an annotation.
      have hid : ∃ id, p.anchored.idAt? p.layers.sentenceLayer span = some id := by
        rcases List.mem_pair.1 hend with rfl | rfl
        · exact ⟨_, idAt?_origin h⟩
        · exact ⟨_, idAt?_target⟩
      obtain ⟨id, hid⟩ := hid
      obtain ⟨a, ha, hlayer, hspan, -⟩ := Document.exists_of_idAt? hid
      rw [(anchored_growsBy h).spans] at ha
      exact ⟨a, ha, hlayer, hspan⟩

variable {σ : Type} [AnnotationStore σ] [LawfulStore σ]
variable {layers : LayerConfig} {segments : SegmentList} {s s' : σ} {pairs pairs' : PairSet}
variable {tag : Tag} {origin target : Nat} {applied : AppliedRelation}

/-- **An accepted label changes what is shown as it should**, and leaves the document well
formed. -/
theorem view_apply (h : (AnnotationStore.document s).WellFormed)
    (hd : layers.labelFeature ≠ RelationRecord.dependentFeature)
    (hg : layers.labelFeature ≠ RelationRecord.governorFeature)
    (happly : apply layers segments tag origin target pairs s = (.ok applied, pairs', s')) :
    ∃ place, locate segments origin target = .ok place ∧
      (AnnotationStore.document s').WellFormed ∧
      LabelView.of (AnnotationStore.document s') layers pairs' =
        (LabelView.of (AnnotationStore.document s) layers pairs).label tag place := by
  obtain ⟨place, hplace, hdocument, rfl⟩ := exists_of_apply_ok h happly
  let p : Relabelling :=
    ⟨AnnotationStore.document s, layers, tag.name, place.origin, place.target⟩
  rw [hdocument]
  refine ⟨place, hplace, result_wellFormed (p := p) h hd hg, LabelView.ext ?_ ?_ ?_⟩
  · funext dependent governor
    exact labels_result (p := p) h hd hg dependent governor
  · funext span
    exact propext (annotated_result (p := p) h span)
  · funext q
    refine (isCompleted_markAfter pairs place.pair tag _ q).trans ?_
    rw [inverseInformative_eq]
    rfl

/-! ### Two labels -/

/-- **Two labels are on different directions**: not both have the same ends, and they are about one
pair exactly when each one's origin is the other one's target. -/
structure Target.Independent (a b : Target) : Prop where
  ne : ¬(a.target = b.target ∧ a.origin = b.origin)
  pair_eq_iff : a.pair = b.pair ↔ b.origin = a.target ∧ b.target = a.origin

/-- Of two labels on different directions it does not matter which is named first. -/
theorem Target.Independent.symm {a b : Target} (h : a.Independent b) : b.Independent a where
  ne := fun ⟨htarget, horigin⟩ => h.ne ⟨htarget.symm, horigin.symm⟩
  pair_eq_iff := by
    rw [eq_comm, h.pair_eq_iff, and_comm]
    exact and_congr eq_comm eq_comm

/-- Different ordered pairs of indices are different directions, where no two segments have the
same span. -/
theorem independent_of_locate {origin' target' : Nat} {a b : Target} (hdistinct : segments.Distinct)
    (hne : (origin, target) ≠ (origin', target')) (ha : locate segments origin target = .ok a)
    (hb : locate segments origin' target' = .ok b) : a.Independent b := by
  obtain ⟨horigin, htarget, hpair⟩ := locate_eq_ok.1 ha
  obtain ⟨horigin', htarget', hpair'⟩ := locate_eq_ok.1 hb
  constructor
  · rintro ⟨hsame, hsame'⟩
    rw [hsame] at htarget
    rw [hsame'] at horigin
    exact hne (Prod.ext (hdistinct.index_eq horigin horigin') (hdistinct.index_eq htarget htarget'))
  · constructor
    · intro heq
      rw [← heq] at hpair'
      have hopposite : origin = target' ∧ target = origin' := by
        rcases Pair.of?_eq_some_iff.1 hpair with h | h <;>
          rcases Pair.of?_eq_some_iff.1 hpair' with h' | h'
        · exact absurd (Prod.ext (h.1.trans h'.1.symm) (h.2.trans h'.2.symm)) hne
        · exact ⟨h.1.trans h'.2.symm, h.2.trans h'.1.symm⟩
        · exact ⟨h.1.trans h'.2.symm, h.2.trans h'.1.symm⟩
        · exact absurd (Prod.ext (h.1.trans h'.1.symm) (h.2.trans h'.2.symm)) hne
      obtain ⟨rfl, rfl⟩ := hopposite
      exact ⟨Option.some.inj (horigin'.symm.trans htarget),
        Option.some.inj (htarget'.symm.trans horigin)⟩
    · rintro ⟨hsame, hsame'⟩
      rw [hsame] at horigin'
      rw [hsame'] at htarget'
      obtain rfl := hdistinct.index_eq horigin htarget'
      obtain rfl := hdistinct.index_eq htarget horigin'
      exact Option.some.inj (hpair.symm.trans ((Pair.of?_comm _ _).trans hpair'))

namespace LabelView

variable {a b : Target} {tag tag' : Tag}

/-- **A label completes its own pair** if it says something and the pair was completed before or the
other direction says something; the sentinel undoes it. -/
theorem completed_label_self (x : LabelView) (tag : Tag) (a : Target) :
    (x.label tag a).completed a.pair =
      (!tag.isUnset &&
        (x.completed a.pair || isInformative (x.labels a.origin a.target).getLast?.join)) :=
  if_pos rfl

/-- The completion of all other pairs is what it was before the label. -/
theorem completed_label_of_ne (x : LabelView) {p : Pair} (h : p ≠ a.pair) :
    (x.label tag a).completed p = x.completed p :=
  if_neg h

/-- **The second label on a pair finds the first one in the other direction**, and so completes the
pair exactly when neither of them is the sentinel. -/
theorem completed_label_label_of_pair_eq (x : LabelView) (h : a.Independent b)
    (hname : tag.name ≠ "") (hpair : a.pair = b.pair) :
    ((x.label tag a).label tag' b).completed b.pair = (!tag'.isUnset && !tag.isUnset) := by
  have hfirst : (x.label tag a).labels b.origin b.target = [some tag.name] :=
    if_pos (h.pair_eq_iff.1 hpair)
  rw [completed_label_self, hfirst, List.getLast?_singleton, Option.join_some,
    Tag.isInformative_name hname, ← hpair, completed_label_self]
  cases tag.isUnset <;> simp

/-- A label on another pair makes no difference to the completion that follows a label. -/
theorem completed_label_label_of_pair_ne (x : LabelView) (h : a.Independent b)
    (hpair : a.pair ≠ b.pair) :
    ((x.label tag a).label tag' b).completed b.pair = (x.label tag' b).completed b.pair := by
  have hsame : (x.label tag a).labels b.origin b.target = x.labels b.origin b.target :=
    if_neg (mt h.pair_eq_iff.2 hpair)
  rw [completed_label_self, hsame, completed_label_of_ne x hpair.symm, completed_label_self]

/-- **Labels on different directions commute**, also when both are on the same pair: each direction
has its own label, and the pair is completed in both orders or in neither. -/
theorem label_comm (x : LabelView) (h : a.Independent b) (hname : tag.name ≠ "")
    (hname' : tag'.name ≠ "") : (x.label tag a).label tag' b = (x.label tag' b).label tag a := by
  refine LabelView.ext ?_ ?_ ?_
  · funext dependent governor
    simp only [label]
    by_cases ha : dependent = a.target ∧ governor = a.origin
    · have hb : ¬(dependent = b.target ∧ governor = b.origin) := fun hb =>
        h.ne ⟨ha.1.symm.trans hb.1, ha.2.symm.trans hb.2⟩
      rw [if_pos ha, if_neg hb, if_pos ha]
    · rw [if_neg ha, if_neg ha]
  · funext span
    exact propext or_right_comm
  · funext p
    by_cases ha : p = a.pair
    · subst ha
      by_cases hpair : a.pair = b.pair
      · have hsecond : ((x.label tag a).label tag' b).completed a.pair =
            (!tag'.isUnset && !tag.isUnset) := by
          rw [hpair]
          exact x.completed_label_label_of_pair_eq h hname hpair
        rw [hsecond, x.completed_label_label_of_pair_eq h.symm hname' hpair.symm, Bool.and_comm]
      · rw [completed_label_of_ne _ hpair,
          x.completed_label_label_of_pair_ne h.symm (Ne.symm hpair)]
    · rw [completed_label_of_ne _ ha]
      by_cases hb : p = b.pair
      · subst hb
        exact x.completed_label_label_of_pair_ne h (Ne.symm ha)
      · rw [completed_label_of_ne _ hb, completed_label_of_ne _ ha, completed_label_of_ne _ hb]

end LabelView

/-- **Two labels on different directions can be made in either order.**  When both orders are
accepted they leave the same labels between any two spans, the same annotated spans, and the same
completed pairs. -/
theorem labels_commute {σ : Type} [AnnotationStore σ] [LawfulStore σ] {layers : LayerConfig}
    {segments : SegmentList} {s s₁ s₂ s₁₂ s₂₁ : σ} {pairs pairs₁ pairs₂ pairs₁₂ pairs₂₁ : PairSet}
    {tag₁ tag₂ : Tag} {origin₁ target₁ origin₂ target₂ : Nat}
    {applied₁ applied₂ applied₁₂ applied₂₁ : AppliedRelation}
    (h : (AnnotationStore.document s).WellFormed)
    (hd : layers.labelFeature ≠ RelationRecord.dependentFeature)
    (hg : layers.labelFeature ≠ RelationRecord.governorFeature) (hdistinct : segments.Distinct)
    (hname₁ : tag₁.name ≠ "") (hname₂ : tag₂.name ≠ "")
    (hne : (origin₁, target₁) ≠ (origin₂, target₂))
    (h₁ : apply layers segments tag₁ origin₁ target₁ pairs s = (.ok applied₁, pairs₁, s₁))
    (h₁₂ : apply layers segments tag₂ origin₂ target₂ pairs₁ s₁ = (.ok applied₁₂, pairs₁₂, s₁₂))
    (h₂ : apply layers segments tag₂ origin₂ target₂ pairs s = (.ok applied₂, pairs₂, s₂))
    (h₂₁ : apply layers segments tag₁ origin₁ target₁ pairs₂ s₂ =
      (.ok applied₂₁, pairs₂₁, s₂₁)) :
    let d := AnnotationStore.document s₁₂
    let d' := AnnotationStore.document s₂₁
    let index (d : Document) (tags : TagSet) : RelationIndex :=
      ⟨d.relationsOn layers.relationLayer layers.labelFeature, tags⟩
    (∀ tags dependent governor,
        (index d tags).label? dependent governor = (index d' tags).label? dependent governor) ∧
      (∀ span, (∃ a ∈ d.spans, a.layer = layers.sentenceLayer ∧ a.span = span) ↔
        ∃ a ∈ d'.spans, a.layer = layers.sentenceLayer ∧ a.span = span) ∧
      ∀ p, pairs₁₂.isCompleted p = pairs₂₁.isCompleted p := by
  intro d d' index
  -- Each order is accepted at the same two places, with the other label made first.
  obtain ⟨a, ha, hwf₁, hview₁⟩ := view_apply h hd hg h₁
  obtain ⟨b, hb, -, hview₁₂⟩ := view_apply hwf₁ hd hg h₁₂
  obtain ⟨b', hb', hwf₂, hview₂⟩ := view_apply h hd hg h₂
  obtain ⟨a', ha', -, hview₂₁⟩ := view_apply hwf₂ hd hg h₂₁
  obtain rfl : b = b' := Except.ok.inj (hb.symm.trans hb')
  obtain rfl : a = a' := Except.ok.inj (ha.symm.trans ha')
  have hview : LabelView.of d layers pairs₁₂ = LabelView.of d' layers pairs₂₁ := by
    rw [hview₁₂, hview₁, hview₂₁, hview₂]
    exact LabelView.label_comm _ (independent_of_locate hdistinct hne ha hb) hname₁ hname₂
  have hlabels : d.labels layers = d'.labels layers := congrArg LabelView.labels hview
  refine ⟨fun tags dependent governor => ?_, fun span => ?_, fun p => ?_⟩
  · exact (d.label?_relationsOn layers tags dependent governor).trans
      (hlabels ▸ (d'.label?_relationsOn layers tags dependent governor).symm)
  · exact iff_of_eq (congrFun (congrArg LabelView.annotated hview) span)
  · exact congrFun (congrArg LabelView.completed hview) p

open Document (threeSegments threeSentences threeSentences_wellFormed) in
/-- The sentinel against the other direction of a pair, made before a label on the pair and after
it. -/
theorem labels_commute_opposite :
    let contrast (pairs : PairSet) (s : FileStore) :=
      apply {} threeSegments ⟨"contrast", none⟩ 0 1 pairs s
    let unset (pairs : PairSet) (s : FileStore) := apply {} threeSegments Tag.unset 1 0 pairs s
    ∃ applied₁ pairs₁ s₁ applied₁₂ pairs₁₂ s₁₂ applied₂ pairs₂ s₂ applied₂₁ pairs₂₁ s₂₁,
      contrast (.combinations 3) ⟨threeSentences, none, {}⟩ = (.ok applied₁, pairs₁, s₁) ∧
        unset pairs₁ s₁ = (.ok applied₁₂, pairs₁₂, s₁₂) ∧
        unset (.combinations 3) ⟨threeSentences, none, {}⟩ = (.ok applied₂, pairs₂, s₂) ∧
        contrast pairs₂ s₂ = (.ok applied₂₁, pairs₂₁, s₂₁) ∧
        ∀ p, pairs₁₂.isCompleted p = pairs₂₁.isCompleted p := by
  intro contrast unset
  have hback : locate threeSegments 1 0 = .ok ⟨⟨3, 5⟩, ⟨0, 2⟩, ⟨0, 1, by decide⟩⟩ := rfl
  have hd : LayerConfig.labelFeature {} ≠ RelationRecord.dependentFeature := by decide
  have hg : LayerConfig.labelFeature {} ≠ RelationRecord.governorFeature := by decide
  have hfirst (label : String) (origin target : Span) :
      (result ⟨threeSentences, {}, label, origin, target⟩).2.WellFormed :=
    result_wellFormed threeSentences_wellFormed hd hg
  obtain ⟨_, pairs₁, h₁⟩ := apply_unbound {} ⟨"contrast", none⟩ (.combinations 3) {}
    threeSentences_wellFormed locate_threeSegments (by decide)
  obtain ⟨_, _, h₁₂⟩ := apply_unbound {} Tag.unset pairs₁ {}
    (hfirst "contrast" ⟨0, 2⟩ ⟨3, 5⟩) hback (by decide)
  obtain ⟨_, pairs₂, h₂⟩ := apply_unbound {} Tag.unset (.combinations 3) {}
    threeSentences_wellFormed hback (by decide)
  obtain ⟨_, _, h₂₁⟩ := apply_unbound {} ⟨"contrast", none⟩ pairs₂ {}
    (hfirst Tag.unset.name ⟨3, 5⟩ ⟨0, 2⟩) locate_threeSegments (by decide)
  obtain ⟨-, -, hcompleted⟩ := labels_commute threeSentences_wellFormed hd hg
    (by decide) (by decide) (by decide) (by decide) h₁ h₁₂ h₂ h₂₁
  exact ⟨_, _, _, _, _, _, _, _, _, _, _, _, h₁, h₁₂, h₂, h₂₁, hcompleted⟩

end LabelWriter
end PairAnnotation
