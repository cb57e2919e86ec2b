/-
# The same label again

To make a change a second time is to find both ends anchored, to take away the one edge
that the first time has added, and to add it anew.  So the second document is the first
one with another id on its last relation (`Relabelling.result_again`): what the label was
meant to do has been done once and for all.  Neither is there anything left to do for the
completion of the pair (`markAfter_markAfter`), since the edge in the other direction is
none of those that were replaced, and says what it said before.
-/

import PairAnnotation.Proofs.Writer.Recovery

namespace PairAnnotation

namespace Relabelling

open RelationAnnotation (links)

variable {p : Relabelling}

/-- The same change, made once more on the document that it led to. -/
def again (p : Relabelling) : Relabelling := { p with document := p.result.2 }

/-- After a change its ends are anchored where they were anchored for it. -/
theorem idAt?_result (h : p.document.WellFormed) (span : Span) :
    p.result.2.idAt? p.layers.sentenceLayer span =
      p.anchored.idAt? p.layers.sentenceLayer span := by
  rw [Document.idAt?, spans_result h, ← (anchored_growsBy h).spans]
  rfl

/-- **The second time no end needs an annotation**, since the first time left one at each of
them. -/
theorem anchored_again (h : p.document.WellFormed) :
    p.again.originId = p.originId ∧ p.again.targetId = p.targetId ∧
      p.again.anchored = p.result.2 ∧ p.again.created = [] := by
  have horigin : p.again.document.idAt? p.again.layers.sentenceLayer p.again.origin =
      some p.originId := (idAt?_result h p.origin).trans (idAt?_origin h)
  have htarget : p.again.document.idAt? p.again.layers.sentenceLayer p.again.target =
      some p.targetId := (idAt?_result h p.target).trans idAt?_target
  have hanchored : p.again.originAnchored = p.again.document := by
    rw [originAnchored, Document.anchor, horigin]
  refine ⟨?_, ?_, ?_, ?_⟩
  · rw [originId, Document.anchor, horigin]
  · rw [targetId, hanchored, Document.anchor, htarget]
  · rw [anchored, hanchored, Document.anchor, htarget]
    rfl
  · rw [created, hanchored, Document.missing, Document.missing, horigin, htarget]
    rfl

section

variable (h : p.document.WellFormed)
variable (hd : p.layers.labelFeature ≠ RelationRecord.dependentFeature)
variable (hg : p.layers.labelFeature ≠ RelationRecord.governorFeature)
include h hd hg

/-- **The second time there is one edge to replace**, the one that the first time has added. -/
theorem previous_again :
    p.again.previous = [⟨p.result.1, p.target, p.origin, some p.label⟩] := by
  change (p.result.2.relationsOn p.layers.relationLayer p.layers.labelFeature).filter
    (·.links p.target p.origin) = _
  rw [relationsOn_result h hd hg, List.filter_append, List.filter_filter]
  simp [links]

/-- Without that edge the document is what the first time has made room in. -/
theorem cleared_again :
    p.again.cleared = { p.cleared with nextId := p.result.1.val + 1 } := by
  rw [cleared, (anchored_again h).2.2.1, previous_again h hd hg]
  exact Document.without_insertRelation (cleared_wellFormed h).freshId_not_mem (some p.label)

/-- **A change that is made again gives its edge another id**, and does nothing else. -/
theorem result_again :
    p.again.result.2 =
      { p.result.2 with
        relations := p.cleared.relations ++ [{ p.newRecord with id := p.again.result.1 }]
        nextId := p.again.result.1.val + 1 } := by
  obtain ⟨horigin, htarget, -, -⟩ := anchored_again h
  have hcleared := cleared_again h hd hg
  rw [result, horigin, htarget, hcleared]
  rfl

/-- Seen as relations, the document is the same but for the id of the last one. -/
theorem relationsOn_result_again :
    p.again.result.2.relationsOn p.layers.relationLayer p.layers.labelFeature =
      (p.document.relationsOn p.layers.relationLayer p.layers.labelFeature).filter
        (!·.links p.target p.origin) ++
        [⟨p.again.result.1, p.target, p.origin, some p.label⟩] := by
  have hresult := relationsOn_result (p := p.again) (result_wellFormed h hd hg) hd hg
  have hkept : (p.result.2.relationsOn p.layers.relationLayer p.layers.labelFeature).filter
      (!·.links p.target p.origin) =
        (p.document.relationsOn p.layers.relationLayer p.layers.labelFeature).filter
          (!·.links p.target p.origin) := by
    rw [relationsOn_result h hd hg, List.filter_append, List.filter_filter]
    simp [links]
  exact hresult.trans (congrArg (· ++ _) hkept)

end

end Relabelling

namespace LabelWriter

open Relabelling

/-- **Once a label has been accounted for, the same label changes nothing.** -/
theorem markAfter_markAfter (pairs : PairSet) (pair : Pair) (tag : Tag)
    (inverseInformative : Bool) :
    markAfter (markAfter pairs pair tag inverseInformative) pair tag inverseInformative =
      markAfter pairs pair tag inverseInformative := by
  unfold markAfter
  by_cases hunset : tag.isUnset = true
  · have hgone : pair ∉ pairs.completed.erase pair := pairs.nodup_completed.not_mem_erase
    simp only [if_pos hunset, PairSet.markIncomplete, List.erase_of_not_mem hgone]
  · rw [if_neg hunset, if_neg hunset]
    by_cases hcompletes : (!pairs.isCompleted pair && inverseInformative) = true
    · have hcompleted : (pairs.markCompleted pair).isCompleted pair = true :=
        PairSet.isCompleted_iff.2 (PairSet.mem_completed_markCompleted.2 (.inl rfl))
      simp [hcompletes, hcompleted]
    · rw [if_neg hcompletes, if_neg hcompletes]

/-- A change leaves what the other direction says, when its two ends are different spans. -/
theorem inverseInformative_result {p : Relabelling} (h : p.document.WellFormed)
    (hd : p.layers.labelFeature ≠ RelationRecord.dependentFeature)
    (hg : p.layers.labelFeature ≠ RelationRecord.governorFeature) (hne : p.origin ≠ p.target) :
    inverseInformative p.result.2 p.layers p.origin p.target =
      inverseInformative p.document p.layers p.origin p.target := by
  rw [inverseInformative_eq, inverseInformative_eq, labels_result h hd hg,
    if_neg fun hsame => hne hsame.1]

variable {σ : Type} [AnnotationStore σ] [LawfulStore σ]

/-- **A label that is made again changes nothing but the id of its edge.**  It replaces the one
edge that the first time has left, creates no annotation of a span, and leaves the relations as
they were, in the same order, with another id on the last of them; the document is otherwise the
same, and so are the completed pairs and what the answer tells of them. -/
theorem apply_again {layers : LayerConfig} {segments : SegmentList} {tag : Tag}
    {origin target : Nat} {pairs pairs₁ pairs₂ : PairSet} {s s₁ s₂ : σ}
    {applied₁ applied₂ : AppliedRelation} {originSpan targetSpan : Span}
    (h : (AnnotationStore.document s).WellFormed)
    (hd : layers.labelFeature ≠ RelationRecord.dependentFeature)
    (hg : layers.labelFeature ≠ RelationRecord.governorFeature)
    (ho : segments.spanAt? origin = some originSpan)
    (ht : segments.spanAt? target = some targetSpan) (hne : originSpan ≠ targetSpan)
    (h₁ : apply layers segments tag origin target pairs s = (.ok applied₁, pairs₁, s₁))
    (h₂ : apply layers segments tag origin target pairs₁ s₁ = (.ok applied₂, pairs₂, s₂)) :
    let d₁ := AnnotationStore.document s₁
    let d₂ := AnnotationStore.document s₂
    applied₂.replaced = 1 ∧ d₂.spans = d₁.spans ∧
      (∃ others,
        d₁.relationsOn layers.relationLayer layers.labelFeature =
            others ++ [⟨applied₁.relation, targetSpan, originSpan, some tag.name⟩] ∧
          d₂.relationsOn layers.relationLayer layers.labelFeature =
            others ++ [⟨applied₂.relation, targetSpan, originSpan, some tag.name⟩]) ∧
      (∃ others record, record.id = applied₁.relation ∧ d₁.relations = others ++ [record] ∧
        d₂ =
          { d₁ with
            relations := others ++ [{ record with id := applied₂.relation }]
            nextId := applied₂.relation.val + 1 }) ∧
      pairs₂ = pairs₁ ∧ applied₂.pair = applied₁.pair ∧
      applied₂.completed = applied₁.completed := by
  intro d₁ d₂
  obtain ⟨place, hplace, hdocument₁, hpairs₁⟩ := exists_of_apply_ok h h₁
  obtain ⟨horigin, htarget, -⟩ := locate_eq_ok.1 hplace
  obtain rfl : originSpan = place.origin := Option.some.inj (ho.symm.trans horigin)
  obtain rfl : targetSpan = place.target := Option.some.inj (ht.symm.trans htarget)
  let p : Relabelling :=
    ⟨AnnotationStore.document s, layers, tag.name, place.origin, place.target⟩
  have hwf : (AnnotationStore.document s₁).WellFormed := by
    rw [hdocument₁]
    exact result_wellFormed (p := p) h hd hg
  -- The second change is the first one, made again on the document that it has left.
  obtain ⟨place', hplace', hdocument₂, hpairs₂⟩ := exists_of_apply_ok hwf h₂
  obtain rfl : place = place' := Except.ok.inj (hplace.symm.trans hplace')
  have happlied₁ := applied_of_apply_ok h hplace h₁
  have happlied₂ := applied_of_apply_ok hwf hplace h₂
  rw [hdocument₁] at hdocument₂ hpairs₂ happlied₂
  replace hdocument₁ : d₁ = p.result.2 := hdocument₁
  replace hdocument₂ : d₂ = p.again.result.2 := hdocument₂
  replace happlied₂ : applied₂ = ⟨p.again.result.1, place.pair, p.again.previous.length,
    pairs₂.isCompleted place.pair⟩ := happlied₂
  have hpairs : pairs₂ = pairs₁ := by
    rw [hpairs₂, inverseInformative_result (p := p) h hd hg hne, hpairs₁, markAfter_markAfter]
  refine ⟨?_, ?_, ⟨(p.document.relationsOn layers.relationLayer layers.labelFeature).filter
    (!·.links place.target place.origin), ?_, ?_⟩,
    ⟨p.cleared.relations, p.newRecord, ?_, ?_, ?_⟩, hpairs, ?_, ?_⟩
  · rw [happlied₂, previous_again (p := p) h hd hg]
    rfl
  · rw [hdocument₁, hdocument₂, result_again (p := p) h hd hg]
  · rw [hdocument₁, happlied₁]
    exact relationsOn_result (p := p) h hd hg
  · rw [hdocument₂, happlied₂]
    exact relationsOn_result_again (p := p) h hd hg
  · rw [happlied₁]
    exact RelationRecord.id_relinked
  · rw [hdocument₁]
    rfl
  · rw [hdocument₁, hdocument₂, happlied₂]
    exact result_again (p := p) h hd hg
  · rw [happlied₁, happlied₂]
  · rw [happlied₁, happlied₂, hpairs]

open Document (threeSegments threeSentences threeSentences_wellFormed) in
/-- The label on the first two of three sentences, replaced by another one and by that again. -/
theorem apply_again_contrast :
    let contrast (pairs : PairSet) (s : FileStore) :=
      apply {} threeSegments ⟨"contrast", none⟩ 0 1 pairs s
    ∃ applied₁ pairs₁ s₁ applied₂ pairs₂ s₂,
      contrast (.combinations 3) ⟨threeSentences, none, {}⟩ = (.ok applied₁, pairs₁, s₁) ∧
        contrast pairs₁ s₁ = (.ok applied₂, pairs₂, s₂) ∧
        applied₂.replaced = 1 ∧ s₂.document.spans = s₁.document.spans ∧ pairs₂ = pairs₁ := by
  intro contrast
  have hd : LayerConfig.labelFeature {} ≠ RelationRecord.dependentFeature := by decide
  have hg : LayerConfig.labelFeature {} ≠ RelationRecord.governorFeature := by decide
  obtain ⟨_, pairs₁, h₁⟩ := apply_unbound {} ⟨"contrast", none⟩ (.combinations 3) {}
    threeSentences_wellFormed locate_threeSegments (by decide)
  obtain ⟨_, _, h₂⟩ := apply_unbound {} ⟨"contrast", none⟩ pairs₁ {}
    (result_wellFormed (p := ⟨threeSentences, {}, "contrast", ⟨0, 2⟩, ⟨3, 5⟩⟩)
      threeSentences_wellFormed hd hg) locate_threeSegments (by decide)
  obtain ⟨hreplaced, hspans, -, -, hpairs, -⟩ :=
    apply_again threeSentences_wellFormed hd hg rfl rfl (by decide) h₁ h₂
  exact ⟨_, _, _, _, _, _, h₁, h₂, hreplaced, hspans, hpairs⟩

end LabelWriter
end PairAnnotation
