/-
# Failed labels

To the annotator a label that fails is as if it had not been tried.  The session reads
its relations from the document after every label, and a document that no label can
tell from the one before shows the same tags (`showsSame_select_error`).  From two
sessions that show the same a label leads to sessions that show the same
(`select_congr`), so that a label tried again, when the file can be written, does what
it would have done the first time.  Both hold in every state that a session comes to, since
no action leaves the document ill formed or the relations out of date
(`current_perform`).
-/

import PairAnnotation.Proofs.Session.Runs
import PairAnnotation.Proofs.Writer.Losses
import PairAnnotation.Proofs.Writer.Recovery
import PairAnnotation.Session.View

namespace PairAnnotation
namespace Session

/-! ### Sessions that show the same -/

section

variable {σ : Type} {s s' : Session σ}

/-- **Two sessions that show the same**: they agree in all but their stores, and in the tags between
any two spans, wherever these are read from. -/
structure ShowsSame (s s' : Session σ) : Prop where
  config : s'.config = s.config
  segments : s'.segments = s.segments
  pairs : s'.pairs = s.pairs
  cursor : s'.cursor = s.cursor
  warnings : s'.warnings = s.warnings
  tags : s'.tags = s.tags
  resolve : s'.index.resolve = s.index.resolve

namespace ShowsSame

theorem refl (s : Session σ) : s.ShowsSame s := ⟨rfl, rfl, rfl, rfl, rfl, rfl, rfl⟩

/-- Sessions that show the same know the same tags by name. -/
theorem tag_eq (h : s.ShowsSame s') : s'.tag = s.tag := by
  funext name
  rw [tag, tag, h.tags]

/-- Sessions that show the same have come equally far, since their pairs are the same. -/
theorem progress_eq (h : s.ShowsSame s') : s'.progress = s.progress :=
  congrArg Progress.ofPairs h.pairs

/-- Sessions that show the same give the same answer for every two segments, errors included. -/
theorem resolve_eq (h : s.ShowsSame s') : s'.resolve = s.resolve := by
  funext left right
  rw [Session.resolve, Session.resolve, h.segments, h.resolve]

/-- Sessions that show the same resolve every pair alike, also where a segment has no span. -/
theorem resolvePair_eq (h : s.ShowsSame s') : s'.resolvePair = s.resolvePair := by
  funext p
  rw [resolvePair, resolvePair, h.segments, h.resolve]

theorem statistics_eq (h : s.ShowsSame s') : s'.statistics = s.statistics := by
  rw [statistics, statistics, h.pairs, h.resolvePair_eq, h.progress_eq, h.tags]

/-- Sessions that show the same show the same of the current pair. -/
theorem pairView_eq (h : s.ShowsSame s') : s'.pairView = s.pairView := by
  rw [pairView, pairView, h.cursor, h.resolve_eq, h.segments, h.pairs]

/-- What is shown is the same, also where there is nothing to show. -/
theorem view?_eq (h : s.ShowsSame s') : s'.view? = s.view? := by
  rw [view?, view?, h.pairView_eq, h.progress_eq, h.config]

end ShowsSame
end

/-! ### States of a session -/

/-- **What every state of a session can rely on**: its document is well formed, no label is written
into an end of a relation, and the relations are those of the document. -/
structure Current (s : Session FileStore) : Prop where
  wellFormed : s.store.document.WellFormed
  ne_dependent : s.config.layers.labelFeature ≠ RelationRecord.dependentFeature
  ne_governor : s.config.layers.labelFeature ≠ RelationRecord.governorFeature
  edges : s.index.edges = relationsOf s.store.document s.config.layers

/-- The session with its document bound to another file, or that file on another disk. -/
def elsewhere (s : Session FileStore) (path : Option String) (disk : Disk) : Session FileStore :=
  { s with store := { s.store with path, disk } }

/-- The states that a session comes to by actions, whatever becomes of its file meanwhile. -/
inductive Reached (s₀ : Session FileStore) : Session FileStore → Prop where
  | start : Reached s₀ s₀
  | act {s : Session FileStore} (a : Action) : Reached s₀ s → Reached s₀ (s.perform a)
  | elsewhere {s : Session FileStore} (path : Option String) (disk : Disk) :
    Reached s₀ s → Reached s₀ (s.elsewhere path disk)

variable {s s' : Session FileStore} {path : Option String} {disk : Disk}

/-- A session that starts on a well-formed document can rely on what its states rely on. -/
theorem current_start {store : FileStore} {config : Config} (h : store.document.WellFormed)
    (hd : config.layers.labelFeature ≠ RelationRecord.dependentFeature)
    (hg : config.layers.labelFeature ≠ RelationRecord.governorFeature)
    (hstart : start store config = .ok s) : s.Current := by
  obtain ⟨rfl, rfl, -, hindex, -, -⟩ := start_eq_ok hstart
  exact ⟨h, hd, hg, congrArg RelationIndex.edges hindex⟩

/-- **A label leaves a session what it relies on**, whether it was accepted or rolled back. -/
theorem current_select (direction : RelationDirection) (tagName : String) (h : s.Current) :
    (s.select direction tagName).2.Current := by
  cases htag : s.tag tagName with
  | error e =>
    rw [select_of_no_tag direction htag]
    exact h
  | ok tag =>
    rw [select_of_tag direction htag]
    exact ⟨LabelWriter.wellFormed_apply h.wellFormed h.ne_dependent h.ne_governor, h.ne_dependent,
      h.ne_governor, rfl⟩

/-- **An action leaves the document well formed and the relations up to date.** -/
theorem current_perform (a : Action) (h : s.Current) : (s.perform a).Current := by
  cases a with
  | select direction tagName => exact current_select direction tagName h
  | moveSegment side d => exact ⟨h.wellFormed, h.ne_dependent, h.ne_governor, h.edges⟩
  | movePair move => exact ⟨h.wellFormed, h.ne_dependent, h.ne_governor, h.edges⟩
  | setFilter tagName =>
    cases tagName with
    | none => exact ⟨h.wellFormed, h.ne_dependent, h.ne_governor, h.edges⟩
    | some name =>
      dsimp only [perform, setFilter]
      split
      · exact ⟨h.wellFormed, h.ne_dependent, h.ne_governor, h.edges⟩
      · exact h

/-- What a session relies on has nothing to do with its file, so the file may be changed under
it. -/
theorem current_elsewhere (path : Option String) (disk : Disk) (h : s.Current) :
    (s.elsewhere path disk).Current :=
  ⟨h.wellFormed, h.ne_dependent, h.ne_governor, h.edges⟩

/-- Every state that a session comes to can rely on what the session could rely on at first. -/
theorem Reached.current {s₀ : Session FileStore} (h : s₀.Current) (hreached : s₀.Reached s) :
    s.Current := by
  induction hreached with
  | start => exact h
  | act a _ ih => exact current_perform a ih
  | elsewhere path disk _ ih => exact current_elsewhere path disk ih

/-- Sessions that show the same still do after the files of both were changed in the same way. -/
theorem ShowsSame.elsewhere (h : s.ShowsSame s') (path : Option String) (disk : Disk) :
    (s.elsewhere path disk).ShowsSame (s'.elsewhere path disk) :=
  ⟨h.config, h.segments, h.pairs, h.cursor, h.warnings, h.tags, h.resolve⟩

/-- The same labels in the documents show as the same tags. -/
theorem resolve_eq_of_labels (h : s.Current) (h' : s'.Current) (hconfig : s'.config = s.config)
    (htags : s'.tags = s.tags)
    (hlabels : ∀ dependent governor,
      s'.store.document.labels s.config.layers dependent governor =
        s.store.document.labels s.config.layers dependent governor) :
    s'.index.resolve = s.index.resolve := by
  refine RelationIndex.resolve_congr htags fun dependent governor => ?_
  rw [h'.edges, h.edges, hconfig]
  exact hlabels dependent governor

/-! ### Labels -/

/-- **A label that fails shows nothing**, and leaves a document that no label can tell from the one
before. -/
theorem showsSame_select_error {direction : RelationDirection} {tagName : String} {e : EditorError}
    (h : s.Current) (hselect : s.select direction tagName = (.error e, s')) :
    s.ShowsSame s' ∧ LabelWriter.Alike s.config.layers s.store.document s'.store.document := by
  have hcurrent : s'.Current := by
    have hcurrent := current_select direction tagName h
    rwa [hselect] at hcurrent
  cases htag : s.tag tagName with
  | error e' =>
    rw [select_of_no_tag direction htag] at hselect
    cases hselect
    exact ⟨.refl s, .refl _ _⟩
  | ok tag =>
    rw [select_of_tag direction htag] at hselect
    rcases happly : s.applied direction tag with ⟨outcome, pairs, store⟩
    rw [happly] at hselect
    obtain ⟨rfl, rfl⟩ := Prod.mk.inj hselect
    obtain ⟨hpairs, halike⟩ :=
      LabelWriter.alike_of_apply_error h.wellFormed h.ne_dependent h.ne_governor happly
    have hresolve := resolve_eq_of_labels h hcurrent rfl rfl halike.labels
    exact ⟨⟨rfl, rfl, hpairs, rfl, rfl, rfl, hresolve⟩, halike⟩

/-- **From sessions that show the same a label leads to sessions that show the same**, with the same
answer but for the id of the new edge. -/
theorem select_congr (direction : RelationDirection) (tagName : String) (h : s.Current)
    (h' : s'.Current) (hshows : s.ShowsSame s')
    (halike : LabelWriter.Alike s.config.layers s.store.document s'.store.document)
    (hwrites : FileStore.AcceptsWrites s.store.path s.store.disk)
    (hwrites' : FileStore.AcceptsWrites s'.store.path s'.store.disk) :
    LabelWriter.outcome (s'.select direction tagName).1 =
        LabelWriter.outcome (s.select direction tagName).1 ∧
      (s.select direction tagName).2.ShowsSame (s'.select direction tagName).2 := by
  have hcurrent := current_select direction tagName h
  have hcurrent' := current_select direction tagName h'
  have htag_eq : s'.tag tagName = s.tag tagName := congrFun hshows.tag_eq tagName
  cases htag : s.tag tagName with
  | error e =>
    rw [select_of_no_tag direction htag, select_of_no_tag direction (htag_eq.trans htag)]
    exact ⟨rfl, hshows⟩
  | ok tag =>
    -- Both sessions ask the same of their stores.
    have happlied : s'.applied direction tag =
        LabelWriter.apply s.config.layers s.segments tag (endsOf s.cursor direction).1
          (endsOf s.cursor direction).2 s.pairs s'.store := by
      rw [applied, hshows.config, hshows.segments, hshows.cursor, hshows.pairs]
    obtain ⟨houtcome, hpairs, hlabels⟩ := LabelWriter.apply_congr h.wellFormed h'.wellFormed
      h.ne_dependent h.ne_governor halike hwrites hwrites'
    rw [← happlied] at houtcome hpairs hlabels
    rw [select_of_tag direction htag] at hcurrent ⊢
    rw [select_of_tag direction (htag_eq.trans htag)] at hcurrent' ⊢
    have hresolve := resolve_eq_of_labels hcurrent hcurrent' hshows.config hshows.tags hlabels
    exact ⟨houtcome, hshows.config, hshows.segments, hpairs, hshows.cursor, hshows.warnings,
      hshows.tags, hresolve⟩

/-- **A label that fails is as if it had not been tried**, in every state of a session and whatever
it fails for: the session shows what it showed before, down to the tags between any two segments.
Once the file accepts writes, every label tried next, the same one again among them, has the answer
that it would have had otherwise, and leaves the same pairs completed and the same tags. -/
theorem failed_select_invisible {store : FileStore} {config : Config} {s₀ : Session FileStore}
    {direction : RelationDirection} {tagName : String} {e : EditorError}
    (h : store.document.WellFormed)
    (hd : config.layers.labelFeature ≠ RelationRecord.dependentFeature)
    (hg : config.layers.labelFeature ≠ RelationRecord.governorFeature)
    (hstart : start store config = .ok s₀) (hreached : s₀.Reached s)
    (hselect : s.select direction tagName = (.error e, s')) :
    (s'.cursor = s.cursor ∧ s'.pairs = s.pairs ∧ s'.progress = s.progress ∧
      s'.segments = s.segments ∧ s'.warnings = s.warnings ∧
      (∀ left right, s'.resolve left right = s.resolve left right) ∧
      s'.statistics = s.statistics ∧ s'.view? = s.view?) ∧
    ∀ path disk, FileStore.AcceptsWrites path disk → ∀ direction tagName,
      let first := (s.elsewhere path disk).select direction tagName
      let again := (s'.elsewhere path disk).select direction tagName
      LabelWriter.outcome again.1 = LabelWriter.outcome first.1 ∧
        again.2.pairs = first.2.pairs ∧
        ∀ left right, again.2.resolve left right = first.2.resolve left right := by
  have hcurrent := hreached.current (current_start h hd hg hstart)
  have hcurrent' : s'.Current := by
    have hcurrent' := current_select direction tagName hcurrent
    rwa [hselect] at hcurrent'
  obtain ⟨hshows, halike⟩ := showsSame_select_error hcurrent hselect
  refine ⟨⟨hshows.cursor, hshows.pairs, hshows.progress_eq, hshows.segments, hshows.warnings,
    fun left right => congrFun₂ hshows.resolve_eq left right, hshows.statistics_eq,
    hshows.view?_eq⟩, ?_⟩
  intro path disk hwrites direction tagName
  obtain ⟨houtcome, hafter⟩ := select_congr direction tagName (current_elsewhere path disk hcurrent)
    (current_elsewhere path disk hcurrent') (hshows.elsewhere path disk) halike hwrites hwrites
  exact ⟨houtcome, hafter.pairs, fun left right => congrFun₂ hafter.resolve_eq left right⟩

/-- The first label of the three sentences fails on a file that cannot be written, and nothing is
seen of it; nor is it later, in a document that is bound to no file. -/
theorem failed_select_on_unwritable :
    ∃ s₀ s', start (LabelWriter.unwritable Document.threeSentences) {} = .ok s₀ ∧
      s₀.select .leftToRight unsetName =
        (.error (.persistence "write document" (.io "missing/doc.json")), s') ∧
      s'.view? = s₀.view? ∧
      ((s'.elsewhere none {}).select .leftToRight unsetName).2.pairs =
        ((s₀.elsewhere none {}).select .leftToRight unsetName).2.pairs := by
  have hload : SegmentList.load Document.threeSentences {} = _ := Document.load_threeSentences
  have hsome : ∃ s₀, start (LabelWriter.unwritable Document.threeSentences) {} = .ok s₀ :=
    start_isOk_iff.2 (show 2 ≤ (SegmentList.load Document.threeSentences {}).length by
      rw [hload]
      decide)
  obtain ⟨s₀, hstart⟩ := hsome
  obtain ⟨hstore, hconfig, hsegments, hindex, hpairs, hcursor⟩ := start_eq_ok hstart
  replace hsegments : s₀.segments = Document.threeSegments := hsegments.trans hload
  rw [hsegments] at hpairs
  rw [show s₀.pairs = _ from congrArg Prod.fst hpairs] at hcursor
  replace hcursor : s₀.cursor = ⟨0, 1, 0, none⟩ := (Option.some.inj hcursor).symm
  have htag : s₀.tag unsetName = .ok Tag.unset := by
    rw [tag, tags, hindex]
    rfl
  have happlied : s₀.applied .leftToRight Tag.unset =
      LabelWriter.apply {} Document.threeSegments Tag.unset 0 1 s₀.pairs
        (LabelWriter.unwritable Document.threeSentences) := by
    rw [applied, hstore, hconfig, hsegments, hcursor]
    rfl
  obtain ⟨-, hfails⟩ := LabelWriter.apply_of_unwritable
    (s := LabelWriter.unwritable Document.threeSentences) {} Tag.unset s₀.pairs
    Document.threeSentences_wellFormed LabelWriter.locate_threeSegments rfl
    (LabelWriter.destination_unwritable _) (by decide)
  have hselect := select_of_tag .leftToRight htag
  rw [happlied, hfails] at hselect
  obtain ⟨⟨-, -, -, -, -, -, -, hview⟩, hafter⟩ := failed_select_invisible
    Document.threeSentences_wellFormed (by decide) (by decide) hstart .start hselect
  obtain ⟨-, hpairs', -⟩ := hafter none {} (FileStore.acceptsWrites_none _) .leftToRight unsetName
  exact ⟨s₀, _, hstart, hselect, hview, hpairs'⟩

end Session
end PairAnnotation
