/-
# The relations after a label

Seen as a list of relations, a document changes in two ways only when an edge is
labelled.  A label that is accepted replaces the relations between its two ends by one
at the end of the list.  A label that fails leaves the list as it is, or takes the
relations between its two ends out and puts them back at the end, with the labels they
had and in the same order (`Rearranged`).  Either way the other relations keep their
places among each other (`relations_apply`).
-/

import PairAnnotation.Proofs.PairSet.Completion
import PairAnnotation.Proofs.Writer.Recovery

namespace PairAnnotation

/-- **Relations that have at most been put back**: those between two spans stand at the end, with
the same labels in the same order. -/
inductive Rearranged (relations : List RelationAnnotation) : List RelationAnnotation → Prop where
  | same : Rearranged relations relations
  | putBack {d g : Span} {new : List RelationAnnotation} :
    (∀ e ∈ new, e.links d g = true) → new.map (·.label) = labelsOn relations d g →
    Rearranged relations (relations.filter (!·.links d g) ++ new)

open RelationAnnotation (links_iff)

section

variable {relations relations' new : List RelationAnnotation} {d g d' g' : Span}

/-- Edges between the same ends put their labels on these two ends and on no others. -/
theorem labelsOn_of_forall_links (h : ∀ e ∈ new, e.links d' g' = true) :
    labelsOn new d g = if d = d' ∧ g = g' then new.map (·.label) else [] := by
  split
  · rename_i heq
    obtain ⟨rfl, rfl⟩ := heq
    rw [labelsOn, List.filter_eq_self.2 h]
  · rename_i hne
    rw [labelsOn, List.filter_eq_nil_iff.2 fun e he hlinks => hne ?_]
    · rfl
    · obtain ⟨rfl, rfl⟩ := links_iff.1 (h e he)
      obtain ⟨hd, hg⟩ := links_iff.1 hlinks
      exact ⟨hd.symm, hg.symm⟩

/-- Relations that are replaced leave the labels of all other directions alone. -/
theorem labelsOn_replace (h : ∀ e ∈ new, e.links d' g' = true) :
    labelsOn (relations.filter (!·.links d' g') ++ new) d g =
      if d = d' ∧ g = g' then new.map (·.label) else labelsOn relations d g := by
  rw [labelsOn_append, labelsOn_filter_not_links, labelsOn_of_forall_links h]
  split
  · exact List.nil_append _
  · exact List.append_nil _

/-- Relations that are rearranged within their ends have the same labels between any two spans. -/
theorem Rearranged.labelsOn_eq (h : Rearranged relations relations') (d g : Span) :
    labelsOn relations' d g = labelsOn relations d g := by
  cases h with
  | same => rfl
  | putBack hlinks hlabels =>
    rw [labelsOn_replace hlinks]
    split
    · rename_i heq
      obtain ⟨rfl, rfl⟩ := heq
      exact hlabels
    · rfl

/-- A direction that is restated stays so when the relations of another one are replaced. -/
theorem Restated.replace (hne : ¬(d = d' ∧ g = g')) (h : Restated relations d g)
    (new : List RelationAnnotation) :
    Restated (relations.filter (!·.links d' g') ++ new) d g := by
  obtain ⟨e, e', hpart, he, he', hinformative⟩ := h
  have hkept : ∀ {x : RelationAnnotation}, x.links d g = true → x.links d' g' = false := by
    intro x hx
    obtain ⟨rfl, rfl⟩ := links_iff.1 hx
    exact Bool.eq_false_iff.2 fun hx' => hne (links_iff.1 hx')
  have hself : [e, e'].filter (!·.links d' g') = [e, e'] :=
    List.filter_eq_self.2 (by simp [hkept he, hkept he'])
  have hfilter := hpart.filter (!·.links d' g')
  rw [hself] at hfilter
  exact ⟨e, e', hfilter.trans (List.infix_append' [] _ new), he, he', hinformative⟩

/-- Relations that are put back stand directly behind each other. -/
theorem restated_of_map_label (hlinks : ∀ e ∈ new, e.links d g = true)
    (hlabels : new.map (·.label) = labelsOn relations d g) (h : Restated relations d g)
    (before : List RelationAnnotation) : Restated (before ++ new) d g := by
  obtain ⟨e, e', hpart, he, he', hinformative⟩ := h
  have hpair : [e.label, e'.label] <:+: new.map (·.label) := by
    have hself : [e, e'].filter (·.links d g) = [e, e'] :=
      List.filter_eq_self.2 (by simp [he, he'])
    have hfilter := (hpart.filter (·.links d g)).map (·.label)
    rw [hself] at hfilter
    rw [hlabels]
    exact hfilter
  obtain ⟨first, last, hsplit⟩ := hpair
  rw [eq_comm, List.map_eq_append_iff] at hsplit
  obtain ⟨init, last', rfl, hinit, -⟩ := hsplit
  obtain ⟨first', middle, rfl, -, hmiddle⟩ := List.map_eq_append_iff.1 hinit
  obtain ⟨x, rest, rfl, -, hrest⟩ := List.map_eq_cons_iff.1 hmiddle
  obtain ⟨x', rest', rfl, hx', hnil⟩ := List.map_eq_cons_iff.1 hrest
  obtain rfl := List.map_eq_nil_iff.1 hnil
  refine ⟨x, x', ⟨before ++ first', last', by simp⟩, hlinks x (by simp), hlinks x' (by simp), ?_⟩
  show isInformative x'.label = true
  rw [hx']
  exact hinformative

/-- **What is put back is restated where it was**, and so is every other direction. -/
theorem Rearranged.restated (h : Rearranged relations relations')
    (hrestated : Restated relations d g) : Restated relations' d g := by
  cases h with
  | same => exact hrestated
  | @putBack d' g' new hlinks hlabels =>
    by_cases heq : d = d' ∧ g = g'
    · obtain ⟨rfl, rfl⟩ := heq
      exact restated_of_map_label hlinks hlabels hrestated _
    · exact hrestated.replace heq new

end

/-! ### Labels -/

namespace LabelWriter

open Relabelling

variable {layers : LayerConfig}

/-- The edges that were put back link the two spans, and have the labels that were taken away. -/
theorem rearranged_of_putBack {p : Relabelling} {d' : Document} {new : List RelationRecord}
    (h : p.document.WellFormed) (hd : p.layers.labelFeature ≠ RelationRecord.dependentFeature)
    (hg : p.layers.labelFeature ≠ RelationRecord.governorFeature) (hput : p.PutBack d' new) :
    Rearranged (p.document.relationsOn p.layers.relationLayer p.layers.labelFeature)
      (d'.relationsOn p.layers.relationLayer p.layers.labelFeature) := by
  let edges := resolveRelations new p.cleared.spans p.layers.relationLayer p.layers.labelFeature
  have hlinks : ∀ e ∈ edges, e.links p.target p.origin = true := by
    intro e he
    obtain ⟨r, hr, -, hresolve⟩ := mem_resolveRelations.1 he
    obtain ⟨i, hi, rfl⟩ := List.getElem_of_mem hr
    have hrelinked := hput.new.get hi (hput.new.length_eq ▸ hi)
    rw [List.get_eq_getElem, List.get_eq_getElem] at hrelinked
    rw [hrelinked, RelationRecord.resolve?_relinked hd hg (spanOf?_targetId h)
      (spanOf?_originId h)] at hresolve
    obtain rfl := Option.some.inj hresolve
    exact links_iff.2 ⟨rfl, rfl⟩
  have hlabels : edges.map (·.label) =
      labelsOn (p.document.relationsOn p.layers.relationLayer p.layers.labelFeature) p.target
        p.origin := by
    have hnew := labelsOn_resolveRelations_of_forall₂ hd hg (spanOf?_targetId h)
      (spanOf?_originId h) hput.new p.target p.origin
    rw [labelsOn_of_forall_links hlinks, if_pos ⟨rfl, rfl⟩, if_pos ⟨rfl, rfl⟩] at hnew
    exact hnew
  have hcleared : resolveRelations p.cleared.relations p.cleared.spans p.layers.relationLayer
      p.layers.labelFeature = _ := relationsOn_cleared h
  show Rearranged _ (resolveRelations d'.relations d'.spans _ _)
  rw [hput.relations, hput.spans, resolveRelations_append, hcleared]
  exact .putBack hlinks hlabels

/-- **The relations after a label.**  A label that fails leaves the pairs as they are and at most
puts relations back.  A label that is accepted replaces the relations between its two ends by one,
and marks their pair by what the other direction says. -/
theorem relations_apply {segments : SegmentList} {tag : Tag} {origin target : Nat} {pairs : PairSet}
    {s : FileStore} (h : s.document.WellFormed)
    (hd : layers.labelFeature ≠ RelationRecord.dependentFeature)
    (hg : layers.labelFeature ≠ RelationRecord.governorFeature) :
    let before := s.document.relationsOn layers.relationLayer layers.labelFeature
    let r := apply layers segments tag origin target pairs s
    let after := r.2.2.document.relationsOn layers.relationLayer layers.labelFeature
    s.document.SameFrame r.2.2.document ∧
      ((∃ e, r.1 = .error e) ∧ r.2.1 = pairs ∧ Rearranged before after ∨
        ∃ place id, locate segments origin target = .ok place ∧ (∃ applied, r.1 = .ok applied) ∧
          r.2.1 = markAfter pairs place.pair tag
            (isInformative (labelsOn before place.origin place.target).getLast?.join) ∧
          after = before.filter (!·.links place.target place.origin) ++
            [⟨id, place.target, place.origin, some tag.name⟩]) := by
  intro before r after
  rcases apply_inFile layers segments tag origin target pairs h with
    ⟨e, -, herror⟩ | ⟨place, hplace, ⟨s', -, hdocument, -, hok⟩ | ⟨e, s', undo, hstops, herror⟩⟩
  · have hs : r.2.2 = s := congrArg (·.2.2) herror
    refine ⟨hs ▸ .refl _, .inl ⟨⟨e, congrArg (·.1) herror⟩, congrArg (·.2.1) herror, ?_⟩⟩
    show Rearranged before (r.2.2.document.relationsOn _ _)
    rw [hs]
    exact .same
  · let p : Relabelling := ⟨s.document, layers, tag.name, place.origin, place.target⟩
    have hs : r.2.2.document = p.result.2 := (congrArg (·.2.2.document) hok).trans hdocument
    refine ⟨hs ▸ frame_result (p := p) h, .inr ⟨place, p.result.1, hplace,
      ⟨_, congrArg (·.1) hok⟩, ?_, ?_⟩⟩
    · have hinverse := inverseInformative_eq s.document layers place.origin place.target
      rw [show r.2.1 = _ from congrArg (·.2.1) hok]
      exact congrArg (markAfter pairs place.pair tag) hinverse
    · show r.2.2.document.relationsOn _ _ = _
      rw [hs]
      exact relationsOn_result (p := p) h hd hg
  · obtain ⟨d', hrollBack, hkept⟩ := rollBack_inFile h hd hg hstops
    have hs : r.2.2.document = d' := by
      rw [show r.2.2 = _ from congrArg (·.2.2) herror, hrollBack]
    have hkeeps : s.document.SameFrame d' ∧
        Rearranged before (d'.relationsOn layers.relationLayer layers.labelFeature) := by
      rcases hkept with ⟨hsame, -⟩ | ⟨-, -, -, new, hput⟩
      · refine ⟨hsame.toSameFrame, ?_⟩
        rw [Document.relationsOn, hsame.relations, hsame.spans]
        exact .same
      · exact ⟨hput.frame, rearranged_of_putBack h hd hg hput⟩
    rw [← hs] at hkeeps
    exact ⟨hkeeps.1, .inl ⟨⟨e, congrArg (·.1) herror⟩, congrArg (·.2.1) herror, hkeeps.2⟩⟩

end LabelWriter
end PairAnnotation
