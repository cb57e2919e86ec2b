/-
# Documents that are saved and loaded again

What a text can hold of a document (`Document.Storable`) is read off its numbers, its
feature values and how deep it nests (`Document.InRange.storable`): only the feature
values of relations nest deeper than the records do (`Document.depth_toJson_le_iff`).
So a document that was written to a file, under its own path or another one, is loaded
from there as it was, with a next id beyond all ids in it (`FileStore.load_written`).

A document that was loaded has such a next id already, and what was read can be
written.  It comes back as it was, and writing it once more writes the same text.
-/

import PairAnnotation.Proofs.Document.Text
import PairAnnotation.Store.File

namespace PairAnnotation

open Json

/-! ### Nesting -/

namespace Json

/-- A list of trees is no deeper than a bound exactly if none of the trees is. -/
theorem depthItems_le_iff {items : List Value} {n : Nat} :
    depthItems (itemTrees items) ≤ n ↔ ∀ v ∈ items, v.tree.depth ≤ n := by
  induction items with
  | nil => simp [itemTrees, depthItems]
  | cons v items ih => rw [itemTrees, depthItems, Nat.max_le, ih, List.forall_mem_cons]

/-- A list is one level deeper than the deepest of its values. -/
theorem Value.depth_array_le_iff {items : List Value} {n : Nat} :
    (Value.array items).tree.depth ≤ n + 1 ↔ ∀ v ∈ items, v.tree.depth ≤ n := by
  rw [Value.tree, Tree.depth, Nat.add_le_add_iff_right, depthItems_le_iff]

/-- An object is one level deeper than the deepest value of its members. -/
theorem Value.depth_object_le_iff {members : List (String × Value)} {n : Nat} :
    (Value.object members).tree.depth ≤ n + 1 ↔ ∀ m ∈ members, m.2.tree.depth ≤ n := by
  rw [Value.tree, Tree.depth, Nat.add_le_add_iff_right, depthMembers_le_iff]

@[simp]
theorem Value.depth_nat (n : Nat) : (Value.nat n).tree.depth = 0 := rfl

@[simp]
theorem Value.depth_string (s : String) : (Value.string s).tree.depth = 0 := rfl

end Json

/-- Features are one level deeper than the deepest value among them. -/
theorem FeatureMap.depth_toJson_le_iff {α : Type} {write : α → Value} {m : FeatureMap α} {n : Nat} :
    (m.toJson write).tree.depth ≤ n + 1 ↔ ∀ e ∈ m.entries, (write e.2).tree.depth ≤ n := by
  rw [toJson, Value.depth_object_le_iff, List.forall_mem_map]

/-- A tag is an object of texts, so it is one level deep. -/
theorem Tag.depth_toJson (t : Tag) : t.toJson.tree.depth = 1 := by
  obtain ⟨name, description⟩ := t
  cases description <;> rfl

namespace Document

/-- **Only feature values nest deeper than the records**: six containers hold everything else, and
four of them stand around a feature value. -/
theorem depth_toJson_le_iff {d : Document} {n : Nat} :
    d.toJson.tree.depth ≤ n + 6 ↔
      ∀ r ∈ d.relations, ∀ e ∈ r.features.entries, e.2.tree.depth ≤ n + 2 := by
  simp [toJson, Span.toJson, SpanAnnotation.toJson, RelationRecord.toJson, TagSetRecord.toJson,
    TagSet.toJson, Value.depth_object_le_iff, Value.depth_array_le_iff,
    FeatureMap.depth_toJson_le_iff, Tag.depth_toJson]

/-! ### What a text can hold -/

/-- **The numbers of a document have the size of their types**: offsets and the next id are words,
and the values of features are JSON values of integers with 64 bits, members ascending by name. -/
structure InRange (d : Document) : Prop where
  sentences : ∀ s ∈ d.sentences, s.InRange
  spans : ∀ s ∈ d.spans, s.span.InRange
  features : ∀ r ∈ d.relations, ∀ e ∈ r.features.entries, e.2.Kept
  nextId : d.nextId ≤ Numeral.word

/-- The ids leave room for another one, and features of relations hold no binary64 numbers. -/
structure Plain (d : Document) : Prop where
  id_lt : ∀ id ∈ d.ids, id.val < Numeral.word
  realFree : ∀ r ∈ d.relations, ∀ e ∈ r.features.entries, e.2.realFree = true

/-- **A text holds a document whose nesting is read**: if its numbers fit 64 bits and no value is
nested too deeply, it can be stored. -/
theorem InRange.storable {d : Document} (h : d.InRange) (hplain : d.Plain)
    (hdepth : d.toJson.tree.depth ≤ Tree.depthLimit) : d.Storable where
  sentences := h.sentences
  spans s hs := ⟨Nat.le_of_lt (hplain.id_lt _ (mem_ids_of_span hs)), h.spans s hs⟩
  relations r hr :=
    { id := Nat.le_of_lt (hplain.id_lt _ (mem_ids_of_relation hr))
      features := fun e he =>
        ⟨h.features r hr e he, hplain.realFree r hr e he,
          Nat.add_le_add_right (depth_toJson_le_iff.1 hdepth r hr e he) 4⟩ }
  nextId := h.nextId

/-! ### Ids of a loaded document -/

/-- The greatest of some numbers is no less than any of them, and no less than where it started
from. -/
theorem le_foldl_max {l : List Nat} {start n : Nat} (h : n ≤ start ∨ n ∈ l) :
    n ≤ l.foldl max start := by
  induction l generalizing start with
  | nil => simpa using h
  | cons a rest ih =>
    refine ih ?_
    rcases h with h | h
    · exact .inl (Nat.le_trans h (Nat.le_max_left _ _))
    · rcases List.mem_cons.1 h with rfl | h
      · exact .inl (Nat.le_max_right _ _)
      · exact .inr h

/-- The greatest of some numbers is one of them, or what it started from. -/
theorem foldl_max_eq_or_mem (l : List Nat) (start : Nat) :
    l.foldl max start = start ∨ l.foldl max start ∈ l := by
  induction l generalizing start with
  | nil => exact .inl rfl
  | cons a rest ih =>
    rw [List.foldl_cons, List.mem_cons]
    rcases ih (max start a) with h | h
    · rw [h]
      omega
    · exact .inr (.inr h)

/-- The greatest id of an annotation, 0 if there is none. -/
structure IsGreatestId (d : Document) (n : Nat) : Prop where
  le : ∀ id ∈ d.ids, id.val ≤ n
  attained : n = 0 ∨ ∃ id ∈ d.ids, id.val = n

/-- What is computed as the greatest id is the greatest one. -/
theorem isGreatestId (d : Document) : d.IsGreatestId d.greatestId := by
  have hids : d.greatestId = (d.ids.map AnnotationId.val).foldl max 0 := by
    simp [greatestId, ids, Function.comp_def]
  rw [hids]
  constructor
  · intro id hid
    exact le_foldl_max (.inr (List.mem_map_of_mem hid))
  · exact (foldl_max_eq_or_mem _ 0).imp id List.mem_map.1

/-- The greatest id is below a bound as soon as all ids are, if the bound is not zero. -/
theorem IsGreatestId.lt {d : Document} {n bound : Nat} (h : d.IsGreatestId n) (hpos : 0 < bound)
    (hids : ∀ id ∈ d.ids, id.val < bound) : n < bound := by
  rcases h.attained with rfl | ⟨id, hid, rfl⟩
  · exact hpos
  · exact hids id hid

/-- **Ids that are reserved are beyond those of all annotations.** -/
theorem id_lt_reserveIds {d : Document} {id : AnnotationId} (h : id ∈ d.reserveIds.ids) :
    id.val < d.reserveIds.nextId :=
  Nat.lt_of_lt_of_le (Nat.lt_succ_of_le (d.isGreatestId.le id h)) (Nat.le_max_right _ _)

end Document

namespace FileStore

variable {s : FileStore} {disk : Disk} {path : String}

/-- What a store that was loaded consists of: the document that the text is the record of, with ids
reserved, and the path and the disk it was loaded from. -/
theorem load_eq_ok (h : load disk path = .ok s) :
    ∃ text d, disk.read path = .ok text ∧ Document.ofText? text = some d ∧
      s = ⟨d.reserveIds, some path, disk⟩ := by
  unfold load at h
  split at h
  · cases h
  · rename_i text htext
    split at h
    · cases h
    · rename_i d hd
      exact ⟨text, d, htext, hd, (Except.ok.inj h).symm⟩

/-- What was loaded can be written, when its ids still fit 64 bits. -/
theorem storable_load (h : load disk path = .ok s) (hnext : s.document.nextId ≤ Numeral.word)
    (hreal : ∀ r ∈ s.document.relations, ∀ e ∈ r.features.entries, e.2.realFree = true) :
    s.document.Storable := by
  obtain ⟨text, d, htext, hd, rfl⟩ := load_eq_ok h
  have hstorable := Document.storable_of_ofText? hd hreal
  exact ⟨hstorable.sentences, hstorable.spans, hstorable.relations, hnext⟩

/-- **What was written is loaded again** from where it was written, if the document can be stored;
only the next id may be raised. -/
theorem load_of_write {d : Document} {disk' : Disk} (hstorable : d.Storable)
    (h : disk.write path d.toText = .ok disk') :
    load disk' path = .ok ⟨d.reserveIds, some path, disk'⟩ := by
  rw [load, Disk.read_write h]
  dsimp only
  rw [Document.ofText?_toText hstorable]

/-- What was loaded can be written, when its ids leave room for another one. -/
theorem storable_load_of_plain (h : load disk path = .ok s) (hplain : s.document.Plain) :
    s.document.Storable := by
  refine storable_load h ?_ hplain.realFree
  obtain ⟨text, d, -, hd, rfl⟩ := load_eq_ok h
  have hnext := (Document.storable_of_ofText? hd hplain.realFree).nextId
  have hgreatest := d.isGreatestId.lt (by decide) hplain.id_lt
  exact Nat.max_le.2 ⟨hnext, hgreatest⟩

/-- A document that was loaded has ids reserved, so reserving them once more changes nothing. -/
theorem reserveIds_of_load (h : load disk path = .ok s) :
    s.document.reserveIds = s.document := by
  obtain ⟨text, d, -, -, rfl⟩ := load_eq_ok h
  have hnext : max d.reserveIds.nextId (d.greatestId + 1) = d.reserveIds.nextId :=
    Nat.max_eq_left (Nat.le_max_right _ _)
  exact congrArg (fun nextId => { d with nextId }) hnext

/-! ### Written and loaded -/

/-- The document of a store was written to a path, be it by saving it there or by writing back what
is bound there. -/
def WrittenTo (s : FileStore) (path : String) (s' : FileStore) : Prop :=
  s.save path = .ok s' ∨ s.path = some path ∧ writeBack.apply s = (.ok (), s')

/-- What was written to a path is the text of the document, on a disk that took it. -/
theorem WrittenTo.write {s' : FileStore} (h : s.WrittenTo path s') :
    s.disk.write path s.document.toText = .ok s'.disk := by
  rcases h with h | ⟨hpath, h⟩
  · unfold save at h
    split at h
    · cases h
      assumption
    · cases h
  · rw [writeBack, Edit.apply_of, hpath] at h
    dsimp only at h
    split at h
    · cases h
      assumption
    · cases h

/-- **What was written is loaded as it was**, with a next id beyond all ids: from the path it was
saved to, or from its own one when it was written back.  The ids of the document leave room for
another one, the features of its relations hold no binary64 numbers, and it does not nest deeper
than is read.  If it was loaded from a file itself, it nests no deeper, it comes back with the next
id it had, and writing it once more, here or elsewhere, writes the same text. -/
theorem load_written :
    (∀ (s s' : FileStore) (path : String), s.document.InRange → s.document.Plain →
      s.document.toJson.tree.depth ≤ Tree.depthLimit → s.WrittenTo path s' →
      ∃ greatest, s.document.IsGreatestId greatest ∧
        load s'.disk path = .ok
          ⟨{ s.document with nextId := max s.document.nextId (greatest + 1) }, some path,
            s'.disk⟩) ∧
    ∀ (disk : Disk) (source : String) (s : FileStore), load disk source = .ok s →
      s.document.Plain → ∀ (path : String) (s' : FileStore), s.WrittenTo path s' →
        s'.disk.read path = .ok s.document.toText ∧
          ∃ reloaded, load s'.disk path = .ok reloaded ∧ reloaded.document = s.document ∧
            ∀ (path' : String) (s'' : FileStore), reloaded.WrittenTo path' s'' →
              s''.disk.read path' = .ok s.document.toText := by
  constructor
  · intro s s' path hrange hplain hdepth hwritten
    exact ⟨_, s.document.isGreatestId,
      load_of_write (hrange.storable hplain hdepth) hwritten.write⟩
  · intro disk source s hload hplain path s' hwritten
    have hreserved := reserveIds_of_load hload
    refine ⟨Disk.read_write hwritten.write, _,
      load_of_write (storable_load_of_plain hload hplain) hwritten.write, hreserved,
      fun path' s'' hagain => ?_⟩
    have htext := Disk.read_write hagain.write
    rwa [hreserved] at htext

end FileStore

namespace Document

/-- A document with a span and a relation whose feature nests, and no next id of its own. -/
def annotated : Document where
  name := "annotated\n"
  format := "text"
  text := "\"A\" \x00"
  spans := [⟨⟨7⟩, "mark", ⟨0, 3⟩, FeatureMap.empty.insert "note" "\t"⟩]
  relations := [⟨⟨3⟩, "link", FeatureMap.empty.insert "values"
    (.array [.null, .object [("deep", .number (.negative 1))]])⟩]

/-- All numbers of the document with three kinds of annotations fit 64 bits, and none of its values
is too deep. -/
theorem inRange_annotated : annotated.InRange where
  sentences := by simp [annotated]
  spans s hs := by
    rw [List.mem_singleton.1 hs]
    exact ⟨by decide, by decide⟩
  features r hr e he := by
    rw [List.mem_singleton.1 hr] at he
    rw [List.mem_singleton.1 he]
    exact ⟨trivial, ⟨List.pairwise_singleton _ _, ⟨by decide, by decide⟩, trivial⟩, trivial⟩
  nextId := by decide

end Document

namespace FileStore

/-- A file of that name in the working directory, and nothing else. -/
def onlyFile (text : String) : Disk := Disk.put {} ⟨false, ["doc.json"]⟩ (.text text)

/-- The file is written over, and the disk has nothing but the new text. -/
theorem write_onlyFile (text text' : String) :
    (onlyFile text).write "doc.json" text' = .ok (onlyFile text') := by
  have hplace : (onlyFile text).destination "doc.json" = .ok ⟨false, ["doc.json"]⟩ := rfl
  rw [Disk.write, hplace]
  rfl

/-- A disk with a single file, or with none, takes the text of a document in its place. -/
theorem writtenTo_onlyFile (d : Document) (path : Option String) (disk : Disk)
    (hdisk : disk = {} ∨ ∃ text, disk = onlyFile text) :
    (⟨d, path, disk⟩ : FileStore).WrittenTo "doc.json" ⟨d, path, onlyFile d.toText⟩ := by
  left
  rcases hdisk with rfl | ⟨text, rfl⟩
  · have hplace : Disk.destination {} "doc.json" = .ok ⟨false, ["doc.json"]⟩ := by decide
    rw [save, Disk.write, hplace]
    rfl
  · rw [save, write_onlyFile]

/-- The document is saved and loaded, and then saved again. -/
theorem load_written_annotated :
    ∃ s' reloaded s'' : FileStore,
      (⟨Document.annotated, none, {}⟩ : FileStore).WrittenTo "doc.json" s' ∧
        load s'.disk "doc.json" = .ok reloaded ∧
        reloaded.document = { Document.annotated with nextId := 8 } ∧
        reloaded.WrittenTo "doc.json" s'' ∧
        s''.disk.read "doc.json" = .ok reloaded.document.toText := by
  have hplain : Document.annotated.Plain := ⟨by decide, by decide⟩
  obtain ⟨greatest, hgreatest, hload⟩ :=
    load_written.1 _ _ "doc.json" Document.inRange_annotated hplain (by decide)
      (writtenTo_onlyFile Document.annotated none {} (.inl rfl))
  have hseven : greatest = 7 := by
    have hle := hgreatest.le ⟨7⟩ (by decide)
    have hlt := hgreatest.lt (show 0 < 8 by decide) (by decide)
    simp only at hle
    omega
  subst hseven
  have hagain := writtenTo_onlyFile { Document.annotated with nextId := 8 } (some "doc.json")
    (onlyFile Document.annotated.toText) (.inr ⟨_, rfl⟩)
  obtain ⟨htext, -⟩ := load_written.2 _ _ _ hload ⟨hplain.id_lt, hplain.realFree⟩ _ _ hagain
  exact ⟨_, _, _, writtenTo_onlyFile _ _ _ (.inl rfl), hload, rfl, hagain, htext⟩

end FileStore
end PairAnnotation
