/-
# Labels after a refused step

Any store may refuse any step of a label, and then the steps before it are undone.  What
the roll-back asks of the store is a list of changes (`LabelWriter.undoing`), and when
all of them are accepted the edges that had been taken away stand again, but at the end
of the list.  A store that refuses to give up an edge after it has given up others is
left with those others behind it: the labels between the two spans are the same ones in
a rotated order (`labels_rollBack`), and the last one counts.  So the edge shows the
label that it had exactly if nothing had been taken away, or the label that was taken
away last is the one that it had (`refused_step_keeps_label_iff`).  All other edges keep
their labels, and the pairs stay as they are.
-/

import PairAnnotation.Proofs.Writer.Recovery
import PairAnnotation.Store.Guarded

namespace PairAnnotation

namespace LabelWriter

variable {σ : Type}

/-! ### What a roll-back asks for -/

/-- Whether a store accepts changes, one after the other, each on the store that the ones before it
left. -/
def AllAccepted : List (Edit σ Unit) → σ → Prop
  | [], _ => True
  | e :: rest, s => (e.apply s).1 = .ok () ∧ AllAccepted rest (tryEdit e s)

/-- Changes are accepted one after the other exactly if the first ones are, and then the others on
the store that those left. -/
theorem allAccepted_append {first second : List (Edit σ Unit)} {s : σ} :
    AllAccepted (first ++ second) s ↔
      AllAccepted first s ∧ AllAccepted second (first.foldl (fun s e => tryEdit e s) s) := by
  induction first generalizing s with
  | nil => simp [AllAccepted]
  | cons e rest ih => simp only [List.cons_append, AllAccepted, List.foldl_cons, ih, and_assoc]

/-- A change without an answer that is accepted is told by the store that it leaves. -/
theorem apply_eq_of_accepted {e : Edit σ Unit} {s : σ} (h : (e.apply s).1 = .ok ()) :
    e.apply s = (.ok (), tryEdit e s) := Prod.ext h rfl

variable [AnnotationStore σ]

/-- **The changes that a roll-back asks for**, in order: the new edge is deleted, the old ones are
put back, and if there were none the created spans are deleted, the last one first. -/
def undoing (layers : LayerConfig) (undo : Undo) : List (Edit σ Unit) :=
  undo.createdRelation.toList.map AnnotationStore.delete ++
    (match undo.endpoints with
      | some (dependent, governor) => undo.removed.map (restore layers dependent governor)
      | none => []) ++
    if undo.removed.isEmpty then undo.createdSpans.reverse.map AnnotationStore.delete else []

/-- **A roll-back is a list of changes that are tried one after the other**, so it can be followed
change by change. -/
theorem rollBack_eq_foldl (layers : LayerConfig) (undo : Undo) (s : σ) :
    rollBack layers undo s = (undoing layers undo).foldl (fun s e => tryEdit e s) s := by
  obtain ⟨createdSpans, endpoints, removed, createdRelation⟩ := undo
  cases createdRelation <;> cases endpoints <;> cases removed <;>
    simp [rollBack, undoing, List.foldl_map, List.foldr_map]

/-! ### What the roll-back does when all of it is accepted -/

variable [LawfulStore σ] {s : σ} {layers : LayerConfig} {dependent governor : AnnotationId}

/-- A deletion that is accepted leaves the document without the id. -/
theorem document_tryEdit_delete {id : AnnotationId}
    (h : (Edit.apply (AnnotationStore.delete id) s).1 = .ok ()) :
    AnnotationStore.document (tryEdit (AnnotationStore.delete id) s) =
      (AnnotationStore.document s).without [id] := by
  have hdelete := (LawfulStore.delete id s _).1 () (apply_eq_of_accepted h)
  exact Document.eq_without_of_delete (eq_ok_of_map_unit hdelete)

/-- Deletions that are all accepted leave the document without all of the ids. -/
theorem document_foldl_delete {ids : List AnnotationId}
    (h : AllAccepted (ids.map AnnotationStore.delete) s) :
    AnnotationStore.document ((ids.map AnnotationStore.delete).foldl (fun s e => tryEdit e s) s) =
      (AnnotationStore.document s).without ids := by
  induction ids generalizing s with
  | nil => exact (Document.without_nil _).symm
  | cons id rest ih =>
    rw [List.map_cons, List.foldl_cons, ih h.2, document_tryEdit_delete h.1,
      Document.without_without]
    rfl

/-- **An edge that is put back has its label**, when its id is free. -/
theorem document_tryEdit_restore {label : Option String}
    (hfresh : (AnnotationStore.document s).freshId ∉ (AnnotationStore.document s).ids)
    (h : (Edit.apply (restore layers dependent governor label) s).1 = .ok ()) :
    AnnotationStore.document (tryEdit (restore layers dependent governor label) s) =
      ((AnnotationStore.document s).insertRelation layers.relationLayer dependent governor
        layers.labelFeature label).2 := by
  rcases hadd : Edit.apply (AnnotationStore.addRelation layers.relationLayer dependent governor) s
    with ⟨cause | id, s'⟩
  · rw [restore, Edit.apply_bind_of_error hadd] at h
    cases h
  · obtain ⟨rfl, hinsert⟩ := Document.eq_insertRelation_of_addRelation
      ((LawfulStore.addRelation _ _ _ s s').1 id hadd)
    rw [tryEdit, restore, Edit.apply_bind_of_ok hadd]
    rw [restore, Edit.apply_bind_of_ok hadd] at h
    cases label with
    | none => exact hinsert
    | some value =>
      have hset := eq_ok_of_map_unit
        ((LawfulStore.setFeature _ _ _ s' _).1 () (apply_eq_of_accepted h))
      rw [hinsert, Document.setFeature_insertRelation hfresh] at hset
      exact (Except.ok.inj hset).symm

/-- Where all edges are put back, the document has one new edge for each label, in their order. -/
theorem document_foldl_restore (h : (AnnotationStore.document s).WellFormed)
    (hd : layers.labelFeature ≠ RelationRecord.dependentFeature)
    (hg : layers.labelFeature ≠ RelationRecord.governorFeature)
    (hdependent : dependent.val < (AnnotationStore.document s).nextId)
    (hgovernor : governor.val < (AnnotationStore.document s).nextId)
    {labels : List (Option String)}
    (haccepted : AllAccepted (labels.map (restore layers dependent governor)) s) :
    AnnotationStore.document
        ((labels.map (restore layers dependent governor)).foldl (fun s e => tryEdit e s) s) =
      (AnnotationStore.document s).relink layers.relationLayer layers.labelFeature dependent
        governor labels := by
  induction labels generalizing s with
  | nil => rfl
  | cons label rest ih =>
    have hrestored := document_tryEdit_restore h.freshId_not_mem haccepted.1
    have hle := (AnnotationStore.document s).nextId_le_freshId
    have hnext : (AnnotationStore.document
        (tryEdit (restore layers dependent governor label) s)).nextId =
        (AnnotationStore.document s).freshId.val + 1 := by
      rw [hrestored]
      rfl
    rw [List.map_cons, List.foldl_cons, ih ?_ (by omega) (by omega) haccepted.2, hrestored]
    · rfl
    · rw [hrestored]
      exact h.insertRelation hd hg hdependent hgovernor

/-- **Where nothing had been taken away**, what was created is taken away. -/
theorem document_rollBack_of_eq_nil {undo : Undo} (hremoved : undo.removed = [])
    (haccepted : AllAccepted (undoing layers undo) s) :
    AnnotationStore.document (rollBack layers undo s) =
      ((AnnotationStore.document s).without undo.createdRelation.toList).without
        undo.createdSpans.reverse := by
  have hlist : undoing layers undo =
      (undo.createdRelation.toList.map AnnotationStore.delete : List (Edit σ Unit)) ++
        undo.createdSpans.reverse.map AnnotationStore.delete := by
    rw [undoing, hremoved]
    cases undo.endpoints <;> simp
  rw [hlist, allAccepted_append] at haccepted
  rw [rollBack_eq_foldl, hlist, List.foldl_append, document_foldl_delete haccepted.2,
    document_foldl_delete haccepted.1]

/-- **Where edges had been taken away**, they are put back, and what was created for them stays. -/
theorem document_rollBack_of_ne_nil {undo : Undo} (hremoved : undo.removed ≠ [])
    (hendpoints : undo.endpoints = some (dependent, governor))
    (h : ((AnnotationStore.document s).without undo.createdRelation.toList).WellFormed)
    (hd : layers.labelFeature ≠ RelationRecord.dependentFeature)
    (hg : layers.labelFeature ≠ RelationRecord.governorFeature)
    (hdependent : dependent.val < (AnnotationStore.document s).nextId)
    (hgovernor : governor.val < (AnnotationStore.document s).nextId)
    (haccepted : AllAccepted (undoing layers undo) s) :
    AnnotationStore.document (rollBack layers undo s) =
      ((AnnotationStore.document s).without undo.createdRelation.toList).relink
        layers.relationLayer layers.labelFeature dependent governor undo.removed := by
  have hlist : undoing layers undo =
      (undo.createdRelation.toList.map AnnotationStore.delete : List (Edit σ Unit)) ++
        undo.removed.map (restore layers dependent governor) := by
    rw [undoing, hendpoints, if_neg (by simpa using hremoved), List.append_nil]
  rw [hlist, allAccepted_append] at haccepted
  have hwithdrawn := document_foldl_delete haccepted.1
  rw [← hwithdrawn] at h ⊢
  rw [rollBack_eq_foldl, hlist, List.foldl_append]
  refine document_foldl_restore h hd hg ?_ ?_ haccepted.2
  · rw [hwithdrawn]
    exact hdependent
  · rw [hwithdrawn]
    exact hgovernor

end LabelWriter

/-! ### What is undone -/

namespace Document

variable {d d' : Document} {layer labelFeature : String}

/-- An edge is known by its id, since in a well-formed document no two records have the same one. -/
theorem WellFormed.edge_eq_of_id_eq (h : d.WellFormed) {e e' : RelationAnnotation}
    (he : e ∈ d.relationsOn layer labelFeature) (he' : e' ∈ d.relationsOn layer labelFeature)
    (hid : e.id = e'.id) : e = e' := by
  obtain ⟨r, hr, -, hresolve⟩ := mem_resolveRelations.1 he
  obtain ⟨r', hr', -, hresolve'⟩ := mem_resolveRelations.1 he'
  rw [RelationRecord.id_of_resolve? hresolve, RelationRecord.id_of_resolve? hresolve'] at hid
  rw [h.relation_eq_of_id_eq hr hr' hid] at hresolve
  exact Option.some.inj (hresolve.symm.trans hresolve')

/-- Documents with the same content have the same labels between any two spans. -/
theorem SameContent.labels_eq (h : d.SameContent d') (layers : LayerConfig) :
    d'.labels layers = d.labels layers := by
  funext dependent governor
  rw [labels, labels, relationsOn, relationsOn, h.relations, h.spans]

end Document

namespace Relabelling

open Attempt (Refused)

variable {p : Relabelling}

/-- The document in which the ends have their annotations and some edges are missing. -/
def gap (p : Relabelling) (done : List RelationAnnotation) (next : Nat) : Document :=
  { p.anchored.without (done.map (·.id)) with nextId := next }

/-- While no edge is missing yet, the document is the one in which the ends have their
annotations. -/
theorem gap_nil (next : Nat) : p.gap [] next = { p.anchored with nextId := next } := by
  rw [gap, List.map_nil, Document.without_nil]

/-- **What a change that stopped leaves behind**, once its new edge is taken away again: spans that
were created for the ends, and the first few of the old edges missing.  Some but not all of these
are missing only if the store refused to give up the next one. -/
inductive Leaves (p : Relabelling) (e : EditorError) (d : Document) (undo : Undo) : Prop where
  | anchors {created : List SpanAnnotation} : p.document.GrowsBy d created →
    undo.createdSpans = created.map (·.id) → undo.removed = [] → Leaves p e d undo
  | gap {done rest : List RelationAnnotation} {next : Nat} : p.previous = done ++ rest →
    (rest = [] ∨ ∃ cause, e = .persistence "delete previous relation" cause) →
    p.anchored.nextId ≤ next → d = p.gap done next →
    undo = { p.account with
      removed := done.map (·.label), createdRelation := undo.createdRelation } →
    Leaves p e d undo

variable {σ : Type} [AnnotationStore σ] {P : σ → Prop} {e : EditorError} {s : σ} {undo : Undo}

/-- **Wherever a change stops, it leaves no more than that.** -/
theorem StopsAt.leaves (h : p.document.WellFormed) (hstops : p.StopsAt P e s undo) :
    p.Leaves e ((AnnotationStore.document s).without undo.createdRelation.toList) undo := by
  have hfresh := (cleared_wellFormed h).freshId_not_mem
  have hwhole : p.previous = p.previous ++ [] := (List.append_nil _).symm
  have hraised : p.anchored.nextId ≤ p.cleared.freshId.val + 1 := nextId_le_withdrawn
  have hnone : ∀ {d : Document}, AnnotationStore.document s = d →
      (AnnotationStore.document s).without [] = d := fun hs => (Document.without_nil _).trans hs
  cases hstops with
  | origin _ hrefused =>
    have hgrows : p.document.GrowsBy ((AnnotationStore.document s).without []) [] := by
      rw [hnone hrefused.document]
      exact .refl h
    exact .anchors hgrows rfl rfl
  | target _ hrefused =>
    have hgrows := originAnchored_growsBy h
    rw [← hnone hrefused.document] at hgrows
    exact .anchors hgrows rfl rfl
  | delete _ hprevious hrefused =>
    exact .gap hprevious (.inr ⟨_, rfl⟩) (Nat.le_refl _) (hnone hrefused.document) rfl
  | add _ hrefused =>
    exact .gap hwhole (.inl rfl) (Nat.le_refl _) (hnone hrefused.document) rfl
  | label _ hrefused =>
    refine .gap hwhole (.inl rfl) hraised ?_ rfl
    rw [hrefused.document]
    exact Document.without_insertRelation hfresh none
  | write _ hrefused =>
    refine .gap hwhole (.inl rfl) hraised ?_ rfl
    rw [hrefused.document]
    exact Document.without_insertRelation hfresh (some p.label)

/-- A label that stopped before it took an edge away has added nothing but annotations for its ends,
and it knows their ids. -/
theorem Leaves.growsBy {d : Document} (h : p.document.WellFormed) (hleaves : p.Leaves e d undo)
    (hremoved : undo.removed = []) :
    ∃ created, p.document.GrowsBy d created ∧ undo.createdSpans = created.map (·.id) := by
  cases hleaves with
  | anchors hgrows hcreated _ => exact ⟨_, hgrows, hcreated⟩
  | gap _ _ hnext hdocument hundo =>
    rw [hundo] at hremoved
    refine ⟨p.created, ?_, by rw [hundo]; rfl⟩
    rw [hdocument, List.map_eq_nil_iff.1 hremoved, gap_nil]
    exact (anchored_growsBy h).raise hnext

/-! ### The labels in the end -/

variable {done rest : List RelationAnnotation}

open RelationAnnotation (links_iff) in
/-- **The labels when the first few of the old edges are missing.** -/
theorem labelsOn_gap (h : p.document.WellFormed) (hprevious : p.previous = done ++ rest)
    (d g : Span) :
    labelsOn ((p.anchored.relationsOn p.layers.relationLayer p.layers.labelFeature).filter
        (·.id ∉ done.map (·.id))) d g =
      if d = p.target ∧ g = p.origin then rest.map (·.label)
      else p.document.labels p.layers d g := by
  let edges := p.anchored.relationsOn p.layers.relationLayer p.layers.labelFeature
  have hedges : edges.filter (·.links p.target p.origin) = done ++ rest :=
    (previous_eq h).symm.trans hprevious
  show labelsOn (edges.filter (·.id ∉ done.map (·.id))) d g = _
  rw [labelsOn, List.filter_filter]
  split
  · rename_i heq
    obtain ⟨rfl, rfl⟩ := heq
    have hnodup := nodup_previous_ids h
    rw [hprevious, List.map_append] at hnodup
    have hdone : done.filter (·.id ∉ done.map (·.id)) = [] :=
      List.filter_eq_nil_iff.2 fun e he => by simpa using ⟨e, he, rfl⟩
    have hrest : rest.filter (·.id ∉ done.map (·.id)) = rest :=
      List.filter_eq_self.2 fun e he => decide_eq_true fun hmem =>
        (List.nodup_append.1 hnodup).2.2 _ hmem _ (List.mem_map_of_mem he) rfl
    rw [List.filter_congr fun e _ => Bool.and_comm _ _, ← List.filter_filter, hedges,
      List.filter_append, hdone, hrest, List.nil_append]
  · rename_i hne
    rw [Document.labels, labelsOn, ← (anchored_growsBy h).relationsOn_eq h]
    refine congrArg (List.map _) (List.filter_congr fun e he => ?_)
    cases hlinks : e.links d g with
    | false => rfl
    | true =>
      -- An edge with the id of one that is missing would link the two ends as well.
      have hkept : e.id ∉ done.map (·.id) := by
        intro hmem
        obtain ⟨e', he', hid⟩ := List.mem_map.1 hmem
        have hmem' : e' ∈ edges.filter (·.links p.target p.origin) :=
          hedges ▸ List.mem_append_left _ he'
        obtain ⟨hedge', hlinks'⟩ := List.mem_filter.1 hmem'
        rw [(anchored_wellFormed h).edge_eq_of_id_eq hedge' he hid] at hlinks'
        obtain ⟨rfl, rfl⟩ := links_iff.1 hlinks
        exact hne (links_iff.1 hlinks')
      rw [Bool.true_and]
      exact decide_eq_true hkept

/-- The document stays well formed while edges are missing, and the next id is no smaller. -/
theorem gap_wellFormed (h : p.document.WellFormed) {next : Nat} (hnext : p.anchored.nextId ≤ next)
    (done : List RelationAnnotation) : (p.gap done next).WellFormed :=
  ((anchored_wellFormed h).without _).raise hnext

/-- The annotations of spans are not among the old edges. -/
theorem span_id_not_mem_done (h : p.document.WellFormed) (hprevious : p.previous = done ++ rest) :
    ∀ s ∈ p.anchored.spans, s.id ∉ done.map (·.id) := by
  intro s hs hmem
  have hprevious' : s.id ∈ p.previous.map (·.id) := by
    rw [hprevious, List.map_append]
    exact List.mem_append_left _ hmem
  rw [previous_eq h] at hprevious'
  exact (anchored_wellFormed h).span_id_not_mem_edge_ids hs p.target p.origin hprevious'

/-- **The labels when edges are put back behind the ones that stayed.** -/
theorem labels_relink_gap (h : p.document.WellFormed)
    (hd : p.layers.labelFeature ≠ RelationRecord.dependentFeature)
    (hg : p.layers.labelFeature ≠ RelationRecord.governorFeature)
    (hprevious : p.previous = done ++ rest) {next : Nat} (hnext : p.anchored.nextId ≤ next)
    (labels : List (Option String)) (d g : Span) :
    ((p.gap done next).relink p.layers.relationLayer p.layers.labelFeature p.targetId p.originId
        labels).labels p.layers d g =
      if d = p.target ∧ g = p.origin then rest.map (·.label) ++ labels
      else p.document.labels p.layers d g := by
  have hanchored := anchored_wellFormed h
  have hdone := span_id_not_mem_done h hprevious
  have hspans : (p.gap done next).spans = p.anchored.spans := Document.spans_without hdone
  have hgap : (p.gap done next).relationsOn p.layers.relationLayer p.layers.labelFeature = _ :=
    Document.relationsOn_without hdone
  obtain ⟨new, hnew⟩ := Document.relink_relinkedBy (gap_wellFormed h hnext done) hd hg
    (Nat.lt_of_lt_of_le (targetId_lt h) hnext) (Nat.lt_of_lt_of_le (originId_lt h) hnext)
    p.layers.relationLayer labels
  have hlabels := labelsOn_resolveRelations_of_forall₂ hd hg
    (hanchored.spanOf?_of_idAt? idAt?_target) (hanchored.spanOf?_of_idAt? (idAt?_origin h))
    hnew.new d g
  rw [← hspans] at hlabels
  rw [Document.relationsOn] at hgap
  rw [Document.labels, Document.relationsOn, hnew.relations, hnew.spans, resolveRelations_append,
    hgap, labelsOn_append, labelsOn_gap h hprevious, hlabels]
  split
  · rfl
  · exact List.append_nil _

end Relabelling

namespace LabelWriter

open Relabelling
open Document (threeSegments threeSentences)

variable {σ : Type} [AnnotationStore σ] [LawfulStore σ] {P : σ → Prop} {p : Relabelling}
variable {e : EditorError} {s : σ} {undo : Undo}

/-- **The labels after a roll-back that is accepted**: between the two ends those that had been
taken away stand behind the others, and between any other two spans nothing has changed. -/
theorem labels_rollBack (h : p.document.WellFormed)
    (hd : p.layers.labelFeature ≠ RelationRecord.dependentFeature)
    (hg : p.layers.labelFeature ≠ RelationRecord.governorFeature)
    (hstops : p.StopsAt P e s undo) (hback : AllAccepted (undoing p.layers undo) s) :
    ∃ rest, p.document.labels p.layers p.target p.origin = undo.removed ++ rest ∧
      (undo.removed = [] ∨ rest = [] ∨ ∃ cause, e = .persistence "delete previous relation" cause) ∧
      ∀ d g, (AnnotationStore.document (rollBack p.layers undo s)).labels p.layers d g =
        if d = p.target ∧ g = p.origin then rest ++ undo.removed
        else p.document.labels p.layers d g := by
  by_cases hremoved : undo.removed = []
  · obtain ⟨created, hgrows, hcreated⟩ := (hstops.leaves h).growsBy h hremoved
    have hsame := hgrows.without_new h fun id => by rw [← hcreated, List.mem_reverse]
    rw [← document_rollBack_of_eq_nil hremoved hback] at hsame
    refine ⟨p.document.labels p.layers p.target p.origin, by rw [hremoved, List.nil_append],
      .inl hremoved, fun d g => ?_⟩
    rw [hsame.labels_eq, hremoved, List.append_nil]
    split
    · rename_i heq
      rw [heq.1, heq.2]
    · rfl
  · cases hstops.leaves h with
    | anchors _ _ hnone => exact absurd hnone hremoved
    | @gap done rest next hprevious hstopped hnext hdocument hundo =>
      have hlabels : p.document.labels p.layers p.target p.origin = p.previous.map (·.label) := rfl
      have hdone : undo.removed = done.map (·.label) := by rw [hundo]
      have hendpoints : undo.endpoints = some (p.targetId, p.originId) := by
        rw [hundo]
        rfl
      have hnextId : (AnnotationStore.document s).nextId = next :=
        congrArg Document.nextId hdocument
      refine ⟨rest.map (·.label), by rw [hlabels, hprevious, List.map_append, hdone],
        .inr (hstopped.imp_left fun hrest => by rw [hrest]; rfl), fun d g => ?_⟩
      rw [document_rollBack_of_ne_nil hremoved hendpoints ?_ hd hg ?_ ?_ hback, hdocument,
        labels_relink_gap h hd hg hprevious hnext]
      · rw [hdocument]
        exact gap_wellFormed h hnext done
      · rw [hnextId]
        exact Nat.lt_of_lt_of_le (targetId_lt h) hnext
      · rw [hnextId]
        exact Nat.lt_of_lt_of_le (originId_lt h) hnext

omit [LawfulStore σ] in
/-- A label whose change stops is rolled back: the error is handed on, and the pairs stay as they
were. -/
theorem apply_of_refused {layers : LayerConfig} {segments : SegmentList} {tag : Tag}
    {origin target : Nat} {place : Target} {s₁ : σ} (pairs : PairSet)
    (hplace : locate segments origin target = .ok place)
    (hrefused : (replaceEdge layers tag.name place.origin place.target
        (Relabelling.previous ⟨AnnotationStore.document s, layers, tag.name, place.origin,
          place.target⟩)).run.run (s, {}) = (.error e, s₁, undo)) :
    apply layers segments tag origin target pairs s =
      (.error e, pairs, rollBack layers undo s₁) := by
  let previous := ((AnnotationStore.document s).relationsOn layers.relationLayer
    layers.labelFeature).filter (·.links place.target place.origin)
  replace hrefused : (replaceEdge layers tag.name place.origin place.target previous).run.run
    (s, {}) = _ := hrefused
  rw [apply, hplace]
  dsimp only
  rw [hrefused]

/-- **After a refused step the edge shows the label that it had exactly if no edge had been taken
away, or the one taken away last has that label.**  The step may be any one that the store refuses,
as long as it accepts all of the roll-back.  The pairs are what they were, and so are the labels
between any other two spans. -/
theorem refused_step_keeps_label_iff {layers : LayerConfig} {segments : SegmentList} (tag : Tag)
    {origin target : Nat} {place : Target} {s₁ : σ} (pairs : PairSet) (tags : TagSet)
    (h : (AnnotationStore.document s).WellFormed)
    (hd : layers.labelFeature ≠ RelationRecord.dependentFeature)
    (hg : layers.labelFeature ≠ RelationRecord.governorFeature)
    (hplace : locate segments origin target = .ok place)
    (hrefused : (replaceEdge layers tag.name place.origin place.target
        (Relabelling.previous ⟨AnnotationStore.document s, layers, tag.name, place.origin,
          place.target⟩)).run.run (s, {}) = (.error e, s₁, undo))
    (hback : AllAccepted (undoing layers undo) s₁) :
    let r := apply layers segments tag origin target pairs s
    let index (s : σ) : RelationIndex :=
      ⟨(AnnotationStore.document s).relationsOn layers.relationLayer layers.labelFeature, tags⟩
    let before := (index s).label? place.target place.origin
    r.1 = .error e ∧ r.2.1 = pairs ∧
      (∀ dependent governor, ¬(dependent = place.target ∧ governor = place.origin) →
        (index r.2.2).label? dependent governor = (index s).label? dependent governor) ∧
      ((index r.2.2).label? place.target place.origin = before ↔
        undo.removed = [] ∨ undo.removed.getLast?.join = before) ∧
      ((∀ cause, e ≠ .persistence "delete previous relation" cause) →
        (index r.2.2).label? place.target place.origin = before) := by
  intro r index before
  let p : Relabelling :=
    ⟨AnnotationStore.document s, layers, tag.name, place.origin, place.target⟩
  have hstops : p.StopsAt (fun _ => True) e s₁ undo := by
    have hends := ends_replaceEdge (p := p) keptByEdits_true (s := s) rfl trivial h
    unfold Attempt.Ends at hends
    rw [hrefused] at hends
    exact hends
  have hr : r = (.error e, pairs, rollBack layers undo s₁) :=
    apply_of_refused pairs hplace hrefused
  have hshown : ∀ (s : σ) d g, (index s).label? d g =
      ((AnnotationStore.document s).labels layers d g).getLast?.join := fun s =>
    (AnnotationStore.document s).label?_relationsOn layers tags
  obtain ⟨rest, hold, hstopped, hnew⟩ := labels_rollBack (p := p) h hd hg hstops hback
  have hafter : (index r.2.2).label? place.target place.origin =
      (rest ++ undo.removed).getLast?.join := by
    rw [hshown, hr, hnew, if_pos ⟨rfl, rfl⟩]
  have hbefore : before = (undo.removed ++ rest).getLast?.join := by
    show (index s).label? place.target place.origin = _
    rw [hshown, hold]
  refine ⟨by rw [hr], by rw [hr], fun d g hne => ?_, ?_, fun hother => ?_⟩
  · rw [hshown, hshown, hr, hnew, if_neg hne]
  · rw [hafter]
    by_cases hremoved : undo.removed = []
    · simp [hbefore, hremoved]
    · rw [List.getLast?_append_of_ne_nil _ hremoved]
      simp [hremoved]
  · rw [hafter, hbefore]
    rcases hstopped with hremoved | hrest | ⟨cause, he⟩
    · rw [hremoved, List.append_nil, List.nil_append]
    · rw [hrest, List.append_nil, List.nil_append]
    · exact absurd he (hother cause)

/-! ### Two edges between two spans -/

/-- An annotation that is there is found, and neither the store nor the account of the change is
touched. -/
theorem run_ensureSpan_of_idAt? {σ : Type} [AnnotationStore σ] {s : σ} {undo : Undo}
    {layer : String} {span : Span} {id : AnnotationId}
    (h : (AnnotationStore.document s).idAt? layer span = some id) :
    (ensureSpan layer span).run.run (s, undo) = (.ok id, s, undo) := by
  have hfind := ((AnnotationStore.document s).find?_spansCoveredBy layer span).trans h
  obtain ⟨existing, hexisting, rfl⟩ := Option.map_eq_some_iff.1 hfind
  have hdocument : (Attempt.document : Attempt σ Document).run.run (s, undo) =
    (.ok (AnnotationStore.document s), s, undo) := rfl
  rw [ensureSpan, Attempt.run_bind_of_ok hdocument, hexisting]
  rfl

/-- The three sentences with a second edge between the first two of them. -/
def twiceLabelled : Document :=
  { threeSentences with
    relations :=
      [.relinked ⟨3⟩ "webanno.custom.SentenceRelation" "label" ⟨2⟩ ⟨1⟩ (some "cause"),
        .relinked ⟨4⟩ "webanno.custom.SentenceRelation" "label" ⟨2⟩ ⟨1⟩ (some "contrast")]
    nextId := 5 }

/-- The sentences with two edges between them are well formed, since the edges have different
ids. -/
theorem twiceLabelled_wellFormed : twiceLabelled.WellFormed := by decide

/-- That document in a store that refuses some calls of a method. -/
def refusing (method : StoreMethod) (l : Lock) : Guarded FileStore :=
  Guarded.lock ⟨⟨twiceLabelled, none, {}⟩, fun _ => {}⟩ method l

/-- The label that the two edges show, which is that of the last one. -/
def shownLabel (s : Guarded FileStore) : Option String :=
  RelationIndex.label?
    ⟨s.store.document.relationsOn "webanno.custom.SentenceRelation" "label", ⟨"", []⟩⟩ ⟨3, 5⟩ ⟨0, 2⟩

/-- The change that replaces the two edges by one, with the label `effect`. -/
def replaceBoth : Attempt (Guarded FileStore) AnnotationId :=
  replaceEdge {} "effect" ⟨0, 2⟩ ⟨3, 5⟩
    (Relabelling.previous ⟨twiceLabelled, {}, "effect", ⟨0, 2⟩, ⟨3, 5⟩⟩)

/-- Both ends have their annotations, so these stages ask the store for nothing that it could
refuse. -/
theorem run_ensureSpan_refusing (method : StoreMethod) (l : Lock) (undo : Undo) :
    (ensureSpan "webanno.custom.Sentence" ⟨0, 2⟩).run.run (refusing method l, undo) =
        (.ok ⟨1⟩, refusing method l, undo) ∧
      (ensureSpan "webanno.custom.Sentence" ⟨3, 5⟩).run.run (refusing method l, undo) =
        (.ok ⟨2⟩, refusing method l, undo) :=
  have horigin : twiceLabelled.idAt? "webanno.custom.Sentence" ⟨0, 2⟩ = some ⟨1⟩ := by decide
  have htarget : twiceLabelled.idAt? "webanno.custom.Sentence" ⟨3, 5⟩ = some ⟨2⟩ := by decide
  ⟨run_ensureSpan_of_idAt? horigin, run_ensureSpan_of_idAt? htarget⟩

/-- Both edges are put back when the document cannot be written. -/
theorem refused_write_keeps_contrast :
    let s := refusing .write { times := 1 }
    ∃ e s₁ undo, replaceBoth.run.run (s, {}) = (.error e, s₁, undo) ∧
      AllAccepted (undoing {} undo) s₁ ∧ undo.removed = [some "cause", some "contrast"] ∧
      shownLabel s = some "contrast" ∧
      shownLabel (apply {} threeSegments ⟨"effect", none⟩ 0 1 (.combinations 3) s).2.2 =
        some "contrast" := by
  intro s
  obtain ⟨horigin, -⟩ := run_ensureSpan_refusing .write { times := 1 } {}
  obtain ⟨-, htarget⟩ := run_ensureSpan_refusing .write { times := 1 } {}
  have hrun : ∃ e s₁ undo, replaceBoth.run.run (s, {}) = (.error e, s₁, undo) ∧
      AllAccepted (undoing {} undo) s₁ ∧ undo.removed = [some "cause", some "contrast"] := by
    rw [replaceBoth, replaceEdge, Attempt.run_bind_of_ok horigin, Attempt.run_bind_of_ok htarget]
    exact ⟨_, _, _, rfl, ⟨rfl, rfl, rfl, trivial⟩, rfl⟩
  obtain ⟨e, s₁, undo, hrefused, hback, hremoved⟩ := hrun
  have hshown : shownLabel s = some "contrast" := rfl
  obtain ⟨-, -, -, hiff, -⟩ := refused_step_keeps_label_iff (s := s) ⟨"effect", none⟩
    (.combinations 3) ⟨"", []⟩ twiceLabelled_wellFormed (by decide) (by decide)
    locate_threeSegments hrefused hback
  refine ⟨e, s₁, undo, hrefused, hback, hremoved, hshown, ?_⟩
  exact (hiff.2 (.inr (by rw [hremoved]; exact hshown.symm))).trans hshown

/-- **The last edge is refused, and the first one comes back behind it**: a well-formed document,
one refused call, a roll-back that is accepted, and another label than before. -/
theorem refused_delete_shows_cause :
    let s := refusing .delete { skip := 1, times := 1 }
    let r := apply {} threeSegments ⟨"effect", none⟩ 0 1 (.combinations 3) s
    s.store.document.WellFormed ∧
      (∃ e s₁ undo, replaceBoth.run.run (s, {}) = (.error e, s₁, undo) ∧
        AllAccepted (undoing {} undo) s₁ ∧ r = (.error e, .combinations 3, rollBack {} undo s₁)) ∧
      shownLabel s = some "contrast" ∧ shownLabel r.2.2 = some "cause" := by
  intro s r
  obtain ⟨horigin, -⟩ := run_ensureSpan_refusing .delete { skip := 1, times := 1 } {}
  obtain ⟨-, htarget⟩ := run_ensureSpan_refusing .delete { skip := 1, times := 1 } {}
  have hrun : ∃ e s₁ undo, replaceBoth.run.run (s, {}) = (.error e, s₁, undo) ∧
      AllAccepted (undoing {} undo) s₁ ∧ shownLabel (rollBack {} undo s₁) = some "cause" := by
    rw [replaceBoth, replaceEdge, Attempt.run_bind_of_ok horigin, Attempt.run_bind_of_ok htarget]
    exact ⟨_, _, _, rfl, ⟨rfl, trivial⟩, rfl⟩
  obtain ⟨e, s₁, undo, hrefused, hback, hshown⟩ := hrun
  have hr : r = (.error e, .combinations 3, rollBack {} undo s₁) :=
    apply_of_refused (.combinations 3) locate_threeSegments hrefused
  refine ⟨twiceLabelled_wellFormed, ⟨e, s₁, undo, hrefused, hback, hr⟩, rfl, ?_⟩
  rw [hr]
  exact hshown

end LabelWriter
end PairAnnotation
