/-
# The effect of a label

On every store that keeps its contract a label that is accepted does what it is meant
to do and touches nothing else (`apply_replaces_edge`), and the completion of its pair
follows (`exists_of_apply_ok`).
-/

import PairAnnotation.Proofs.Writer.Files

namespace PairAnnotation

namespace LabelWriter

open Attempt Relabelling
open Document (threeSegments threeSentences threeSentences_wellFormed)

/-- **When a label has a place**: both indices are those of segments, and they differ. -/
theorem locate_eq_ok {segments : SegmentList} {origin target : Nat} {place : Target} :
    locate segments origin target = .ok place ↔
      segments.spanAt? origin = some place.origin ∧ segments.spanAt? target = some place.target ∧
        Pair.of? origin target = some place.pair := by
  unfold locate segmentSpan
  simp only [bind, Except.bind]
  cases segments.spanAt? origin with
  | none => simp
  | some o =>
    cases segments.spanAt? target with
    | none => simp
    | some t =>
      cases Pair.of? origin target with
      | none => simp
      | some pair =>
        obtain ⟨_, _, _⟩ := place
        simp

/-- Indices are checked before the store is asked for anything. -/
theorem locate_error_ne_persistence {segments : SegmentList} {origin target : Nat} {e : EditorError}
    (h : locate segments origin target = .error e) (step : String) (cause : StoreError) :
    e ≠ .persistence step cause := by
  rintro rfl
  unfold locate segmentSpan at h
  simp only [bind, Except.bind] at h
  cases ho : segments.spanAt? origin with
  | none => simp [ho] at h
  | some o =>
    cases ht : segments.spanAt? target with
    | none => simp [ho, ht] at h
    | some t => cases hpair : Pair.of? origin target <;> simp [ho, ht, hpair] at h

/-- The completion of a pair after a label: only the pair of the label may change, and the sentinel
always makes that one incomplete. -/
theorem isCompleted_markAfter (pairs : PairSet) (pair : Pair) (tag : Tag)
    (inverseInformative : Bool) (p : Pair) :
    (markAfter pairs pair tag inverseInformative).isCompleted p =
      if p = pair then !tag.isUnset && (pairs.isCompleted p || inverseInformative)
      else pairs.isCompleted p := by
  rw [Bool.eq_iff_iff]
  unfold markAfter
  by_cases hp : p = pair
  · subst hp
    cases htag : tag.isUnset <;> cases hcompleted : pairs.isCompleted p <;>
      cases inverseInformative <;>
      simp_all [PairSet.isCompleted_iff, PairSet.mem_completed_markIncomplete,
        PairSet.mem_completed_markCompleted]
  · rw [if_neg hp]
    split
    · simp [PairSet.isCompleted_iff, PairSet.mem_completed_markIncomplete, hp]
    · split
      · simp [PairSet.isCompleted_iff, PairSet.mem_completed_markCompleted, hp]
      · rfl

variable {σ : Type} [AnnotationStore σ]

/-- What is true of all stores is left alone by every change. -/
theorem keptByEdits_true : KeptByEdits fun _ : σ => True :=
  ⟨fun _ _ _ _ => trivial, fun _ _ _ _ _ => trivial, fun _ _ _ _ _ => trivial,
    fun _ _ _ => trivial⟩

variable [LawfulStore σ]

/-- **A label that is accepted has changed the document** as it was meant to, and the completion of
its pair has followed. -/
theorem exists_of_apply_ok {layers : LayerConfig} {segments : SegmentList} {tag : Tag}
    {origin target : Nat} {pairs pairs' : PairSet} {s s' : σ} {applied : AppliedRelation}
    (h : (AnnotationStore.document s).WellFormed)
    (happly : apply layers segments tag origin target pairs s = (.ok applied, pairs', s')) :
    ∃ place, locate segments origin target = .ok place ∧
      AnnotationStore.document s' =
        (result ⟨AnnotationStore.document s, layers, tag.name, place.origin, place.target⟩).2 ∧
      pairs' = markAfter pairs place.pair tag
        (inverseInformative (AnnotationStore.document s) layers place.origin place.target) := by
  rcases apply_cases keptByEdits_true layers segments tag origin target pairs trivial h with
    ⟨e, -, herror⟩ | ⟨place, hplace, ⟨s₁, -, haccepted, hok⟩ | ⟨e, s₁, undo, -, herror⟩⟩
  · cases herror.symm.trans happly
  · cases hok.symm.trans happly
    exact ⟨place, hplace, haccepted.document, rfl⟩
  · cases herror.symm.trans happly

/-- What the answer to an accepted label says: the new edge, its pair, how many edges it replaced
and whether the pair is completed now. -/
theorem applied_of_apply_ok {layers : LayerConfig} {segments : SegmentList} {tag : Tag}
    {origin target : Nat} {pairs pairs' : PairSet} {s s' : σ} {applied : AppliedRelation}
    {place : Target} (h : (AnnotationStore.document s).WellFormed)
    (hplace : locate segments origin target = .ok place)
    (happly : apply layers segments tag origin target pairs s = (.ok applied, pairs', s')) :
    let p : Relabelling :=
      ⟨AnnotationStore.document s, layers, tag.name, place.origin, place.target⟩
    applied = ⟨p.result.1, place.pair, p.previous.length, pairs'.isCompleted place.pair⟩ := by
  rcases apply_cases keptByEdits_true layers segments tag origin target pairs trivial h with
    ⟨e, -, herror⟩ | ⟨place', hplace', ⟨s₁, -, -, hok⟩ | ⟨e, s₁, undo, -, herror⟩⟩
  · cases herror.symm.trans happly
  · cases hplace.symm.trans hplace'
    cases hok.symm.trans happly
    rfl
  · cases herror.symm.trans happly

/-- **A label that is accepted replaces the edges between its two segments by one**, and changes
nothing else.  The edges that link the target to the origin are gone, as many as the answer says,
and the new one stands at the end; all other edges and all other records are what they were, in
the same order.  No annotation of a span is lost, and one is created for each end that had none on
the sentence layer; the text, the sentences and the tag sets stay. -/
theorem apply_replaces_edge {layers : LayerConfig} {segments : SegmentList} {tag : Tag}
    {origin target : Nat} {pairs pairs' : PairSet} {s s' : σ} {applied : AppliedRelation}
    {originSpan targetSpan : Span} (h : (AnnotationStore.document s).WellFormed)
    (hd : layers.labelFeature ≠ RelationRecord.dependentFeature)
    (hg : layers.labelFeature ≠ RelationRecord.governorFeature)
    (ho : segments.spanAt? origin = some originSpan)
    (ht : segments.spanAt? target = some targetSpan) (hne : originSpan ≠ targetSpan)
    (happly : apply layers segments tag origin target pairs s = (.ok applied, pairs', s')) :
    let d := AnnotationStore.document s
    let d' := AnnotationStore.document s'
    let edges := d.relationsOn layers.relationLayer layers.labelFeature
    d'.relationsOn layers.relationLayer layers.labelFeature =
        edges.filter (!·.links targetSpan originSpan) ++
          [⟨applied.relation, targetSpan, originSpan, some tag.name⟩] ∧
      applied.replaced = (edges.filter (·.links targetSpan originSpan)).length ∧
      (∃ record, record.id = applied.relation ∧ record.layer = layers.relationLayer ∧
        d'.relations =
          (d.relations.filter fun r => !r.onEdge d.spans layers.relationLayer
            layers.labelFeature targetSpan originSpan) ++ [record]) ∧
      (∃ created, d'.spans = d.spans ++ created ∧
        created.map (fun s => (s.layer, s.span, s.features)) =
          ([originSpan, targetSpan].filter fun span =>
            !d.spans.any fun s => s.layer == layers.sentenceLayer && s.span == span).map
            (layers.sentenceLayer, ·, FeatureMap.empty)) ∧
      d.SameFrame d' := by
  intro d d' edges
  rcases apply_cases keptByEdits_true layers segments tag origin target pairs trivial h with
    ⟨e, -, herror⟩ | ⟨place, hplace, ⟨s₁, -, haccepted, hok⟩ | ⟨e, s₁, undo, -, herror⟩⟩
  · rw [herror] at happly
    cases happly
  · obtain ⟨horigin, htarget, -⟩ := locate_eq_ok.1 hplace
    obtain rfl : originSpan = place.origin := Option.some.inj (ho.symm.trans horigin)
    obtain rfl : targetSpan = place.target := Option.some.inj (ht.symm.trans htarget)
    rw [hok] at happly
    cases happly
    let p : Relabelling := ⟨d, layers, tag.name, place.origin, place.target⟩
    have hdocument : d' = p.result.2 := haccepted.document
    rw [hdocument]
    refine ⟨relationsOn_result (p := p) h hd hg, rfl, ⟨p.newRecord, ?_, ?_, ?_⟩,
      ⟨p.created, spans_result (p := p) h, created_eq (p := p) hne⟩, frame_result (p := p) h⟩
    · exact RelationRecord.id_relinked
    · exact RelationRecord.layer_relinked
    · exact relations_result (p := p) h
  · rw [herror] at happly
    cases happly

theorem locate_threeSegments :
    locate threeSegments 0 1 = .ok ⟨⟨0, 2⟩, ⟨3, 5⟩, ⟨0, 1, by decide⟩⟩ := rfl

/-- Between the sentences stands one relation, by which the second depends on the first. -/
theorem relationsOn_threeSentences :
    threeSentences.relationsOn "webanno.custom.SentenceRelation" "label" =
      [⟨⟨3⟩, ⟨3, 5⟩, ⟨0, 2⟩, some "cause"⟩] := by decide

/-- A label on the edge that is there replaces it. -/
theorem apply_replaces_cause :
    ∃ applied pairs s',
      apply {} threeSegments ⟨"contrast", none⟩ 0 1 (.combinations 3)
        (⟨threeSentences, none, {}⟩ : FileStore) = (.ok applied, pairs, s') ∧
      applied.replaced = 1 ∧
      s'.document.relationsOn "webanno.custom.SentenceRelation" "label" =
        [⟨applied.relation, ⟨3, 5⟩, ⟨0, 2⟩, some "contrast"⟩] := by
  obtain ⟨applied, pairs, s', happly⟩ := apply_of_acceptsWrites (s := ⟨threeSentences, none, {}⟩) {}
    ⟨"contrast", none⟩ (.combinations 3) threeSentences_wellFormed locate_threeSegments
    (FileStore.acceptsWrites_none {}) (by decide)
  obtain ⟨hedges, hreplaced, -, -, -⟩ := apply_replaces_edge threeSentences_wellFormed
    (by decide) (by decide) rfl rfl (by decide) happly
  refine ⟨applied, pairs, s', happly, hreplaced.trans ?_, hedges.trans ?_⟩
  · exact congrArg (fun edges => (List.filter _ edges).length) relationsOn_threeSentences
  · exact congrArg (fun edges => List.filter _ edges ++ _) relationsOn_threeSentences

end LabelWriter
end PairAnnotation
