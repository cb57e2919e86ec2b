/-
# Relations that point at nothing

A relation is left out when one of its ends is the id of no span.  What a session adds
takes ids that have not been given out, and what it deletes is gone, so below the next
free id nothing appears (`Document.NothingNew`): a relation that points below it stays
left out in every state (`dangling_stays`).

When a document is loaded, ids are reserved up to the greatest id of an annotation.  The
ends of relations are not looked at, so a relation can point beyond.  It waits there for
the first segments that are labelled, and then shows up as an edge that nobody has drawn
(`dangling_binds`).
-/

import PairAnnotation.Proofs.Session.Saved
import PairAnnotation.Proofs.Session.Segmentation

namespace PairAnnotation

namespace Document

/-- **Nothing new below an id**: what has a smaller id was there before. -/
structure NothingNew (n : Nat) (d d' : Document) : Prop where
  le_nextId : n ≤ d'.nextId
  spans : ∀ s ∈ d'.spans, s.id.val < n → s ∈ d.spans
  relations : ∀ r ∈ d'.relations, r.id.val < n → r ∈ d.relations

theorem NothingNew.refl (d : Document) : NothingNew d.nextId d d :=
  ⟨Nat.le_refl _, fun _ hs _ => hs, fun _ hr _ => hr⟩

/-- The fresh id stays beyond what was given out before, as long as nothing is new below it. -/
theorem NothingNew.le_freshId {n : Nat} {d d' : Document} (h : NothingNew n d d') :
    n ≤ d'.freshId.val :=
  Nat.le_trans h.le_nextId d'.nextId_le_freshId

/-- No span appears below the id, so an end that dangles there goes on dangling. -/
theorem NothingNew.spanOf?_eq_none {n : Nat} {d d' : Document} (h : NothingNew n d d')
    {id : AnnotationId} (hlt : id.val < n) (hnone : spanOf? d.spans id = none) :
    spanOf? d'.spans id = none := by
  rw [Option.eq_none_iff_forall_ne_some]
  intro span hspan
  obtain ⟨s, hs, rfl, -⟩ := exists_of_spanOf? hspan
  have hold := h.spans s hs hlt
  rw [spanOf?, Option.map_eq_none_iff, List.find?_eq_none] at hnone
  exact hnone s (List.mem_reverse.2 hold) (beq_self_eq_true _)

end Document

/-- A record with an end that points at nothing is left out. -/
theorem RelationRecord.resolve?_eq_none {r : RelationRecord} {spans : List SpanAnnotation}
    {labelFeature : String} {id : AnnotationId} (hid : id ∈ r.ends)
    (hnone : spanOf? spans id = none) : r.resolve? spans labelFeature = none := by
  unfold resolve?
  rcases mem_ends_iff.1 hid with hid | hid
  · rw [hid, Option.bind_some, hnone]
    rfl
  · rw [hid, Option.bind_some, hnone]
    cases (r.idFeature? dependentFeature).bind (spanOf? spans) <;> rfl

namespace LabelWriter

/-- **Labels bring nothing new below the ids that are free.** -/
theorem keptByLabels_nothingNew (n : Nat) (d : Document) (layers : LayerConfig)
    (segment : Span → Prop) :
    KeptByLabels layers segment (fun id => n ≤ id.val) (fun _ => True)
      (Document.NothingNew n d) where
  insertSpan {d' span} h _ _ := by
    have hfresh := h.le_freshId
    refine ⟨hfresh, Nat.le_succ_of_le hfresh, fun s hs hlt => ?_, h.relations⟩
    rcases List.mem_append.1 hs with hs | hs
    · exact h.spans s hs hlt
    · rw [List.mem_singleton.1 hs] at hlt
      exact absurd hlt (Nat.not_lt.2 hfresh)
  insertRelation {d'} dependent governor h := by
    have hfresh := h.le_freshId
    refine ⟨hfresh, Nat.le_succ_of_le hfresh, h.spans, fun r hr hlt => ?_⟩
    rcases List.mem_append.1 hr with hr | hr
    · exact h.relations r hr hlt
    · rw [List.mem_singleton.1 hr] at hlt
      exact absurd hlt (Nat.not_lt.2 hfresh)
  setFeature {d' d'' id value} h hown hset := by
    -- What is changed has an id that was given out.
    have hchanged : ∀ {id' : AnnotationId}, (id' == id) = true → id'.val < n → False :=
      fun heq hlt => Nat.not_lt.2 hown (eq_of_beq heq ▸ hlt)
    unfold Document.setFeature at hset
    split at hset
    · cases hset
      refine ⟨h.le_nextId, h.spans, fun r hr hlt => ?_⟩
      rcases Document.mem_changeFirst hr with hr | ⟨r', -, hid, rfl⟩
      · exact h.relations r hr hlt
      · exact (hchanged hid hlt).elim
    · split at hset
      · cases hset
        refine ⟨h.le_nextId, fun s hs hlt => ?_, h.relations⟩
        rcases Document.mem_changeFirst hs with hs | ⟨s', -, hid, rfl⟩
        · exact h.spans s hs hlt
        · exact (hchanged hid hlt).elim
      · cases hset
  without h _ :=
    ⟨h.le_nextId, fun s hs => h.spans s (List.mem_filter.1 hs).1,
      fun r hr => h.relations r (List.mem_filter.1 hr).1⟩
  old_of_mem _ _ := trivial

end LabelWriter

namespace Session

variable {store : FileStore} {config : Config} {s₀ s : Session FileStore}

/-- **Nothing new comes in below the next id of the beginning**, whatever a session does: all ids
that it gives out are beyond it. -/
theorem nothingNew_reached (hstart : start store config = .ok s₀) (hreached : s₀.Reached s) :
    Document.NothingNew store.document.nextId store.document s.store.document := by
  obtain ⟨rfl, -⟩ := start_eq_ok hstart
  exact hreached.kept (LabelWriter.keptByLabels_nothingNew _ _ _ _) (.refl _)

/-- **A relation that is left out stays left out**, in every state of a session on a loaded
document, if one of its ends points at nothing below the next free id.  When the layer shows a
relation with its id, that is the reading of another record of the document. -/
theorem dangling_stays {disk : Disk} {path : String} (hload : FileStore.load disk path = .ok store)
    (hstart : start store config = .ok s₀) (hreached : s₀.Reached s) {r : RelationRecord}
    (hr : r ∈ store.document.relations) {id : AnnotationId} (hid : id ∈ r.ends)
    (hnone : spanOf? store.document.spans id = none) (hlt : id.val < store.document.nextId)
    (layer labelFeature : String) :
    r.resolve? s.store.document.spans labelFeature = none ∧
      ∀ e ∈ s.store.document.relationsOn layer labelFeature, e.id = r.id →
        ∃ r' ∈ store.document.relations, r' ≠ r ∧ r'.id = r.id ∧
          r'.resolve? s.store.document.spans labelFeature = some e := by
  have hnew := nothingNew_reached hstart hreached
  have hdropped : r.resolve? s.store.document.spans labelFeature = none :=
    RelationRecord.resolve?_eq_none hid (hnew.spanOf?_eq_none hlt hnone)
  refine ⟨hdropped, fun e he heq => ?_⟩
  obtain ⟨r', hr', -, hresolve⟩ := mem_resolveRelations.1 he
  have hid' : r'.id = r.id := (RelationRecord.id_of_resolve? hresolve).symm.trans heq
  have hreserved : r.id.val < store.document.nextId := by
    obtain ⟨_, d, -, -, rfl⟩ := FileStore.load_eq_ok hload
    exact Document.id_lt_reserveIds (Document.mem_ids_of_relation hr)
  refine ⟨r', hnew.relations r' hr' (hid' ▸ hreserved), ?_, hid', hresolve⟩
  rintro rfl
  cases hdropped.symm.trans hresolve

end Session

/-! ### Three sentences with a relation that points at nothing -/

/-- Three sentences without annotations, and a relation between spans that are not there. -/
def Document.dangling (id : Nat) : Document :=
  { threeSentences with
    spans := []
    relations :=
      [.relinked ⟨id⟩ "webanno.custom.SentenceRelation" "label" ⟨2⟩ ⟨3⟩ (some "cause")]
    nextId := id + 1 }

/-- That document as it is loaded from its file, with the disk that it was read from. -/
def danglingLoaded (id : Nat) : FileStore :=
  ⟨Document.dangling id, some "doc.json", Session.onDisk (Document.dangling id)⟩

namespace Session

open Document (dangling threeSegments load_threeSentences isPreAnnotatedFormat_threeSentences)

/-- A document with a dangling relation can be stored, if its id leaves room for another one. -/
theorem storable_dangling {id : Nat} (h : id < Json.Numeral.word) : (dangling id).Storable where
  sentences := storable_threeSentences.sentences
  spans _ hs := by cases hs
  relations r hr := by
    rw [List.mem_singleton.1 hr]
    exact RelationRecord.storable_relinked (Nat.le_of_lt h) (by decide) (by decide) ..
  nextId := h

/-- The document is loaded with its dangling relation, and the next id is reserved beyond the id of
the relation alone. -/
theorem load_danglingLoaded {id : Nat} (h : id < Json.Numeral.word) :
    FileStore.load (onDisk (dangling id)) "doc.json" = .ok (danglingLoaded id) := by
  have hreserved : (dangling id).reserveIds = dangling id := by
    have hgreatest : (dangling id).greatestId = id := Nat.max_eq_right (Nat.zero_le id)
    rw [Document.reserveIds, hgreatest]
    exact congrArg (fun next => { dangling id with nextId := next }) (Nat.max_self _)
  have hload := FileStore.load_of_write (storable_dangling h) (write_onDisk (dangling id))
  rwa [hreserved] at hload

/-- The segments of that document are its three sentences, wherever its relation points. -/
theorem load_dangling (id : Nat) : SegmentList.load (dangling id) {} = threeSegments := by
  rw [← load_threeSentences]
  exact SegmentList.load_congr rfl rfl rfl isPreAnnotatedFormat_threeSentences

/-- A session on that document starts, since the relation does not count for it. -/
theorem start_danglingLoaded (id : Nat) : ∃ s₀, start (danglingLoaded id) {} = .ok s₀ :=
  exists_start_of_load (load_dangling id) (by decide)

/-- A relation with the id 4 that points at 2 and 3 never shows, whatever is labelled: the first
span that is created has the id 5. -/
theorem dangling_stays_four :
    ∃ s₀, FileStore.load (onDisk (dangling 4)) "doc.json" = .ok (danglingLoaded 4) ∧
      start (danglingLoaded 4) {} = .ok s₀ ∧
      ∀ actions, ∀ e ∈ (s₀.run actions).store.document.relationsOn
        "webanno.custom.SentenceRelation" "label", e.id ≠ ⟨4⟩ := by
  obtain ⟨s₀, hstart⟩ := start_danglingLoaded 4
  have hload := load_danglingLoaded (show 4 < Json.Numeral.word by decide)
  refine ⟨s₀, hload, hstart, fun actions e he hid => ?_⟩
  obtain ⟨-, hstays⟩ := dangling_stays hload hstart (reached_run s₀ actions)
    (List.mem_singleton_self _) (show (⟨2⟩ : AnnotationId) ∈ _ by decide) (by decide) (by decide)
    "webanno.custom.SentenceRelation" "label"
  obtain ⟨r', hr', hne, -⟩ := hstays e he hid
  exact hne (List.mem_singleton.1 hr')

/-- The first label on a relation with the id 1 that points at 2 and 3. -/
def danglingChange : Relabelling := ⟨dangling 1, {}, unsetName, ⟨0, 2⟩, ⟨3, 5⟩⟩

/-- The fresh id of that document is that of no annotation, although an end of the relation points
at it. -/
theorem freshId_danglingChange : danglingChange.cleared.freshId ∉ danglingChange.cleared.ids := by
  decide

/-- Each stage of that label gets through: the ends fit into the text, and nothing is replaced. -/
theorem not_stopsAt_danglingChange {e : EditorError} {s : FileStore} {undo : Undo} :
    ¬ danglingChange.StopsAt (danglingLoaded 1).SameFile e s undo := by
  intro hstops
  cases hstops with
  | origin _ hrefused =>
    have herror := FileStore.eq_error_of_refused hrefused
    rw [Document.addSpan, if_pos (by decide)] at herror
    cases herror
  | target _ hrefused =>
    have herror := FileStore.eq_error_of_refused hrefused
    rw [Document.addSpan, if_pos (by decide)] at herror
    cases herror
  | delete _ hprevious _ =>
    have hnil : danglingChange.previous = [] := by decide
    rw [hnil] at hprevious
    simp at hprevious
  | add _ hrefused =>
    have herror := FileStore.eq_error_of_refused hrefused
    rw [Document.addRelation_of_hasSpan _ (by decide) (by decide)] at herror
    cases herror
  | label _ hrefused =>
    have herror := FileStore.eq_error_of_map_unit (FileStore.eq_error_of_refused hrefused)
    cases (Document.setFeature_insertRelation freshId_danglingChange _ _ _ _ _).symm.trans herror
  | write _ hrefused =>
    have hwrites := acceptsWrites_onDisk (dangling 1) danglingChange.result.2
    cases hwrites.symm.trans (congrArg Prod.fst (FileStore.eq_of_write_refused hrefused).2)

/-- The document after the first label, whose ends take the ids 2 and 3. -/
theorem select_dangling {s₀ : Session FileStore}
    (hstart : start (danglingLoaded 1) {} = .ok s₀) :
    ∃ applied s, s₀.select .leftToRight unsetName = (.ok applied, s) ∧
      s.store.document = danglingChange.result.2 := by
  have hanchorable : danglingChange.Anchorable := by decide
  have hends := LabelWriter.ends_replaceEdge_of_fresh (p := danglingChange) (s := danglingLoaded 1)
    (FileStore.keptByEdits_sameFile (danglingLoaded 1)) rfl ⟨rfl, rfl⟩
    (fun _ _ => hanchorable) freshId_danglingChange
  have htag := tag_unset_start hstart rfl
  have hselect := select_of_tag .leftToRight htag
  rw [applied_threeSegments hstart (load_dangling 1) Tag.unset] at hselect
  rcases LabelWriter.apply_cases_of_ends (s := danglingLoaded 1) {} Tag.unset s₀.pairs
    LabelWriter.locate_threeSegments hends with
    ⟨_, s', _, ⟨-, -, haccepted⟩, hok⟩ | ⟨_, _, _, hstops, -⟩
  · rw [hok] at hselect
    exact ⟨_, _, hselect, haccepted.document⟩
  · exact absurd hstops not_stopsAt_danglingChange

/-- **A relation that was left out can show up as an edge that nobody has drawn.**  One with the id
1 points at 2 and 3; these are the ids that the first label gives to the annotations of its ends. -/
theorem dangling_binds :
    ∃ s₀ applied s,
      FileStore.load (onDisk (dangling 1)) "doc.json" = .ok (danglingLoaded 1) ∧
      (dangling 1).relationsOn "webanno.custom.SentenceRelation" "label" = [] ∧
      start (danglingLoaded 1) {} = .ok s₀ ∧
      s₀.select .leftToRight unsetName = (.ok applied, s) ∧
      (⟨⟨1⟩, ⟨0, 2⟩, ⟨3, 5⟩, some "cause"⟩ : RelationAnnotation) ∈
        s.store.document.relationsOn "webanno.custom.SentenceRelation" "label" := by
  obtain ⟨s₀, hstart⟩ := start_danglingLoaded 1
  obtain ⟨applied, s, hselect, hdocument⟩ := select_dangling hstart
  refine ⟨s₀, applied, s, load_danglingLoaded (by decide), by decide, hstart, hselect, ?_⟩
  rw [hdocument]
  decide

end Session
end PairAnnotation
