/-
# Session, store and file

A session shows the relations of its store, and its store has those of its file, after
every action.  The first holds since a session reads its relations anew after each label;
the second since a label is either written, and what is written is read back, or fails and
leaves the file alone and every label where it was (`written_or_kept_perform`).  One action
keeps a file that shows what the store holds (`saved_perform`), be it written or refused
(`saved_refused`), so every run does (`ReachedOnFile.saved`).
-/

import PairAnnotation.Proofs.Session.PairStates
import PairAnnotation.Proofs.Writer.Written

namespace PairAnnotation
namespace Session

open Json (Numeral)

/-- The index of the relations of a document, as a session starts with it. -/
def indexOf (d : Document) (layers : LayerConfig) : RelationIndex :=
  ⟨relationsOf d layers, tagSetOf d layers⟩

/-- The label that an index gives for two ends is the last one that the document has for them. -/
theorem label?_indexOf (d : Document) (layers : LayerConfig) (dependent governor : Span) :
    (indexOf d layers).label? dependent governor =
      (d.labels layers dependent governor).getLast?.join :=
  d.label?_relationsOn layers _ dependent governor

variable {s s₀ : Session FileStore} {path : String}

/-- **What an action leaves in the store is written, or it leaves the file and the labels as they
were.** -/
theorem written_or_kept_perform (h : s.Current) (a : Action) :
    let store := (s.perform a).store
    s.store.document.ComesOf store.document ∧
      (FileStore.writeBack.apply { s.store with document := store.document } = (.ok (), store) ∨
        store = { s.store with document := store.document } ∧
          ∀ dependent governor, store.document.labels s.config.layers dependent governor =
            s.store.document.labels s.config.layers dependent governor) := by
  intro store
  rcases s.store_perform a with hstore | ⟨direction, tag, hstore⟩
  · rw [show store = s.store from hstore]
    exact ⟨.refl h.wellFormed, .inr ⟨rfl, fun _ _ => rfl⟩⟩
  · rw [show store = _ from hstore]
    exact LabelWriter.written_or_kept_apply h.wellFormed h.ne_dependent h.ne_governor

/-- An action keeps a file that shows what the store holds. -/
theorem saved_perform {a : Action} (h : s.Current)
    (hstorable : (s.perform a).store.document.Storable)
    (hsaved : s.store.Saved path s.config.layers) :
    (s.perform a).store.Saved path s.config.layers := by
  obtain ⟨-, hwritten | ⟨hkept, hlabels⟩⟩ := written_or_kept_perform h a
  · let d := (s.perform a).store.document
    exact FileStore.saved_of_writeBack (s := { s.store with document := d }) hsaved.bound hstorable
      hwritten
  · rw [hkept]
    exact hsaved.of_labels hlabels

/-- The session after an action during which the disk refused to write the file, and left it as it
was. -/
def performRefused (s : Session FileStore) (a : Action) (disk : Disk) : Session FileStore :=
  ((s.elsewhere s.store.path disk).perform a).elsewhere s.store.path s.store.disk

/-- **A label that the disk refuses leaves the file as it was saved**: the file is not touched, and
the document is as it was, up to ids. -/
theorem saved_refused {a : Action} {disk : Disk} (h : s.Current)
    (hrefuses : FileStore.RefusesWrites s.store.path disk)
    (hsaved : s.store.Saved path s.config.layers) :
    (s.performRefused a disk).store.Saved path s.config.layers := by
  obtain ⟨-, hwritten | ⟨-, hlabels⟩⟩ :=
    written_or_kept_perform (current_elsewhere s.store.path disk h) a
  · obtain ⟨cause, hcause⟩ := hrefuses ((s.elsewhere s.store.path disk).perform a).store.document
    cases hcause.symm.trans (congrArg Prod.fst hwritten)
  · exact hsaved.of_labels hlabels

/-- **The states that a session comes to by actions**, each of which finds its file as the one
before left it, and writes it or is refused to. -/
inductive ReachedOnFile (s₀ : Session FileStore) : Session FileStore → Prop where
  | start : ReachedOnFile s₀ s₀
  | act {s : Session FileStore} (a : Action) : ReachedOnFile s₀ s → ReachedOnFile s₀ (s.perform a)
  | refused {s : Session FileStore} (a : Action) {disk : Disk} :
    FileStore.RefusesWrites s.store.path disk → ReachedOnFile s₀ s →
    ReachedOnFile s₀ (s.performRefused a disk)

namespace ReachedOnFile

/-- A state that is reached on a file is reached, since the file only decides which labels fail. -/
theorem reached (h : s₀.ReachedOnFile s) : s₀.Reached s := by
  induction h with
  | start => exact .start
  | act a _ ih => exact .act a ih
  | refused a _ _ ih => exact .elsewhere _ _ (.act a (.elsewhere _ _ ih))

/-- **After every action the file shows what the store holds**, and the store holds nothing that its
file could not. -/
theorem saved (h₀ : s₀.Current)
    (hstorable : s₀.store.document.nextId ≤ Numeral.word → s₀.store.document.Storable)
    (htext : s₀.store.document.text.length ≤ Numeral.word)
    (hsaved : s₀.store.Saved path s₀.config.layers) (h : s₀.ReachedOnFile s)
    (hnext : s.store.document.nextId ≤ Numeral.word) :
    s.store.document.Storable ∧ s.store.Saved path s₀.config.layers := by
  induction h with
  | start => exact ⟨hstorable hnext, hsaved⟩
  | @act s a hreached ih =>
    have hcurrent := hreached.reached.current h₀
    have htext : s.store.document.text.length ≤ Numeral.word := by
      rwa [(hreached.reached.frame h₀).text]
    have hcomes := (written_or_kept_perform hcurrent a).1
    obtain ⟨hold, hsaved⟩ := ih (Nat.le_trans hcomes.nextId_le hnext)
    rw [← hreached.reached.keeps.config] at hsaved ⊢
    have hstorable := hcomes.storable hold htext hnext
    exact ⟨hstorable, saved_perform hcurrent hstorable hsaved⟩
  | @refused s a disk hrefuses hreached ih =>
    have hcurrent := hreached.reached.current h₀
    have htext : s.store.document.text.length ≤ Numeral.word := by
      rwa [(hreached.reached.frame h₀).text]
    have hcomes := (written_or_kept_perform (current_elsewhere s.store.path disk hcurrent) a).1
    obtain ⟨hold, hsaved⟩ := ih (Nat.le_trans hcomes.nextId_le hnext)
    rw [← hreached.reached.keeps.config] at hsaved ⊢
    exact ⟨hcomes.storable hold htext hnext, saved_refused hcurrent hrefuses hsaved⟩

end ReachedOnFile

/-- **Session, store and file agree** after every action on a document loaded from a file, as long
as each writing either succeeds or leaves the file as it was.  Between any two spans the session has
the label that its index would have if it was built anew, be it from the relations of the store or
from those of the file, which can be loaded.  The document is a well-formed one whose relations hold
no binary64 numbers, its labels are not written into the ends of relations, and its positions and
the ids that have been given out fit 64 bits. -/
theorem index_agrees_with_file {disk : Disk} {store : FileStore} {config : Config}
    (hload : FileStore.load disk path = .ok store) (h : store.document.WellFormed)
    (hreal : ∀ r ∈ store.document.relations, ∀ e ∈ r.features.entries, e.2.realFree = true)
    (htext : store.document.text.length ≤ Numeral.word)
    (hd : config.layers.labelFeature ≠ RelationRecord.dependentFeature)
    (hg : config.layers.labelFeature ≠ RelationRecord.governorFeature)
    (hstart : start store config = .ok s₀) (hreached : s₀.ReachedOnFile s)
    (hnext : s.store.document.nextId ≤ Numeral.word) :
    ∃ file, FileStore.load s.store.disk path = .ok file ∧
      ∀ dependent governor,
        s.index.label? dependent governor =
            (indexOf s.store.document config.layers).label? dependent governor ∧
          s.index.label? dependent governor =
            (indexOf file.document config.layers).label? dependent governor := by
  have h₀ := current_start h hd hg hstart
  have hcurrent := hreached.reached.current h₀
  have hconfig := hreached.reached.keeps.config
  obtain ⟨hstore, rfl, -⟩ := start_eq_ok hstart
  rw [← hstore] at hload hreal htext
  have hsaved := hreached.saved h₀ (FileStore.storable_load hload · hreal) htext
    (FileStore.saved_load _ hload) hnext
  obtain ⟨file, hfile, hlabels⟩ := hsaved.2.file
  refine ⟨file, hfile, fun dependent governor => ?_⟩
  have hindex : s.index.label? dependent governor =
      (s.store.document.labels s₀.config.layers dependent governor).getLast?.join := by
    rw [RelationIndex.label?_eq, hcurrent.edges, hconfig]
    rfl
  rw [label?_indexOf, label?_indexOf, hlabels, hindex]
  exact ⟨rfl, rfl⟩

/-- A disk with a document in a file, and nothing else on it. -/
def onDisk (d : Document) : Disk := Disk.put {} ⟨false, ["doc.json"]⟩ (.text d.toText)

/-- A disk with the three sentences in a file, without any relation. -/
def threeOnDisk : Disk := onDisk Document.threeSentences

/-- The three sentences as they are loaded from that file. -/
def threeLoaded : FileStore := ⟨Document.threeSentences, some "doc.json", threeOnDisk⟩

/-- The document with three sentences can be stored: its numbers are small and its labels are
texts. -/
theorem storable_threeSentences : Document.threeSentences.Storable where
  sentences := by
    unfold Span.InRange
    decide
  spans s hs := by
    rcases List.mem_pair.1 hs with rfl | rfl <;> exact ⟨by decide, by decide, by decide⟩
  relations r hr := by
    rw [List.mem_singleton.1 hr]
    exact RelationRecord.storable_relinked (by decide) (by decide) (by decide) ..
  nextId := by decide

/-- An empty disk takes the text of a document as its only file. -/
theorem write_onDisk (d : Document) : Disk.write {} "doc.json" d.toText = .ok (onDisk d) := by
  have hplace : Disk.destination {} "doc.json" = .ok ⟨false, ["doc.json"]⟩ := by decide
  rw [Disk.write, hplace, onDisk]

/-- The three sentences are loaded from their file as they were written. -/
theorem load_threeOnDisk : FileStore.load threeOnDisk "doc.json" = .ok threeLoaded :=
  FileStore.load_of_write storable_threeSentences (write_onDisk _)

/-- A file on a disk with nothing else can be written at any time. -/
theorem acceptsWrites_onDisk (d : Document) :
    FileStore.AcceptsWrites (some "doc.json") (onDisk d) := by
  intro d'
  have hplace : (onDisk d).destination "doc.json" = .ok ⟨false, ["doc.json"]⟩ := rfl
  simp only [FileStore.writeBack, Edit.apply_of, Disk.write, hplace]

/-- A session on the three sentences asks its store for a label of the first two. -/
theorem exists_start_threeSentences (store : FileStore)
    (h : store.document = Document.threeSentences) :
    ∃ s₀, start store {} = .ok s₀ ∧ (s₀.perform (.select .leftToRight unsetName)).store =
      (LabelWriter.apply {} Document.threeSegments Tag.unset 0 1 s₀.pairs store).2.2 := by
  have hload : SegmentList.load store.document {} = Document.threeSegments :=
    h ▸ Document.load_threeSentences
  obtain ⟨s₀, hstart⟩ : ∃ s₀, start store {} = .ok s₀ :=
    exists_start_of_load hload (by decide)
  refine ⟨s₀, hstart, ?_⟩
  obtain ⟨-, -, -, hindex, -, -⟩ := start_eq_ok hstart
  have htag : s₀.tag unsetName = .ok Tag.unset := by
    rw [tag, tags, hindex, show AnnotationStore.document store = _ from h]
    rfl
  dsimp only [perform]
  rw [select_of_tag .leftToRight htag]
  exact congrArg (·.2.2) (applied_threeSegments hstart hload Tag.unset)

/-- After the first label of the three sentences, loaded from their file, the session has the label
that the file has by then. -/
theorem index_agrees_with_file_threeSentences :
    ∃ s₀, FileStore.load threeOnDisk "doc.json" = .ok threeLoaded ∧
      start threeLoaded {} = .ok s₀ ∧
      ∃ file,
        FileStore.load (s₀.perform (.select .leftToRight unsetName)).store.disk "doc.json" =
          .ok file ∧
        (s₀.perform (.select .leftToRight unsetName)).index.label? ⟨3, 5⟩ ⟨0, 2⟩ =
          (indexOf file.document {}).label? ⟨3, 5⟩ ⟨0, 2⟩ := by
  obtain ⟨s₀, hstart, hstore⟩ := exists_start_threeSentences threeLoaded rfl
  refine ⟨s₀, load_threeOnDisk, hstart, ?_⟩
  have hnext : (s₀.perform (.select .leftToRight unsetName)).store.document.nextId ≤
      Numeral.word := by
    obtain ⟨applied, pairs', s', happly⟩ := LabelWriter.apply_of_acceptsWrites (s := threeLoaded)
      {} Tag.unset s₀.pairs Document.threeSentences_wellFormed LabelWriter.locate_threeSegments
      (acceptsWrites_onDisk _) (by decide)
    rw [hstore, happly, LabelWriter.document_of_apply_ok Document.threeSentences_wellFormed
      LabelWriter.locate_threeSegments happly]
    decide
  obtain ⟨file, hfile, hlabels⟩ := index_agrees_with_file load_threeOnDisk
    Document.threeSentences_wellFormed (by decide) (by decide) (by decide) (by decide) hstart
    (.act (.select .leftToRight unsetName) .start) hnext
  exact ⟨file, hfile, (hlabels _ _).2⟩

end Session
end PairAnnotation
