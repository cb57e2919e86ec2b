/-
# Deleting a relation

A deletion takes away everything with an id, be it a span or a relation, and never
fails on an id that a listing shows.  What it takes away is one record when no other
annotation has the id (`Document.lacksOnly_without_iff`); then every listing of
every layer goes on to show the other relations (`Document.relationsOn_without`).
A document from a file may give one id to a span and to a relation: reading it makes
sure that fresh ids are new, and lets the ids that are there be.
-/

import PairAnnotation.Proofs.Session.Saved

namespace PairAnnotation

/-! ### Lists with keys -/

section Keys

variable {α κ : Type} [DecidableEq κ] {key : α → κ} {k : κ} {l : List α}

/-- What is kept of a list when a key is removed, and the occurrences of that key, are together all
of the list. -/
theorem length_filter_key_ne (key : α → κ) (k : κ) (l : List α) :
    (l.filter fun a => key a ≠ k).length + (l.map key).count k = l.length := by
  rw [← List.countP_eq_length_filter, List.count_eq_countP, List.countP_map, Nat.add_comm,
    List.length_eq_countP_add_countP fun a => key a == k]
  simp [Function.comp_def]

/-- Removing a key that does not occur keeps everything. -/
theorem filter_key_ne_of_count_eq_zero (h : (l.map key).count k = 0) :
    l.filter (fun a => key a ≠ k) = l := by
  refine List.filter_eq_self.2 fun a ha => decide_eq_true fun hkey => ?_
  exact List.count_eq_zero.1 h (List.mem_map.2 ⟨a, ha, hkey⟩)

/-- The one element with a key is cut out of its place. -/
theorem exists_filter_key_ne {a : α} (ha : a ∈ l) (hkey : key a = k)
    (h : (l.map key).count k = 1) :
    ∃ before after, l = before ++ a :: after ∧
      l.filter (fun a => key a ≠ k) = before ++ after := by
  obtain ⟨before, after, rfl⟩ := List.append_of_mem ha
  have hcount : (before.map key).count k + ((after.map key).count k + 1) = 1 := by
    rwa [List.map_append, List.map_cons, List.count_append, hkey, List.count_cons_self] at h
  have hbefore : before.filter (fun a => key a ≠ k) = before :=
    filter_key_ne_of_count_eq_zero (by omega)
  have hafter : after.filter (fun a => key a ≠ k) = after :=
    filter_key_ne_of_count_eq_zero (by omega)
  refine ⟨before, after, rfl, ?_⟩
  rw [List.filter_append, List.filter_cons_of_neg (by simp [hkey]), hbefore, hafter]

end Keys

namespace Document

variable {d : Document} {layer labelFeature : String} {e : RelationAnnotation}

/-- **The document but for one record**, one that is listed as the edge `e`. -/
def LacksOnly (d d' : Document) (layer labelFeature : String) (e : RelationAnnotation) : Prop :=
  ∃ before record after, d.relations = before ++ record :: after ∧ record.layer = layer ∧
    record.resolve? d.spans labelFeature = some e ∧
    d' = { d with relations := before ++ after }

/-- Without a single id a document keeps the annotations that have another one. -/
theorem without_singleton (d : Document) (id : AnnotationId) :
    d.without [id] = { d with
      relations := d.relations.filter (fun r => r.id ≠ id)
      spans := d.spans.filter (fun s => s.id ≠ id) } := by
  simp only [without, List.mem_singleton, ne_eq]

/-- An id occurs as often as it occurs among spans and among relations together. -/
theorem count_ids (d : Document) (id : AnnotationId) :
    d.ids.count id = (d.spans.map (·.id)).count id + (d.relations.map (·.id)).count id :=
  List.count_append

/-- A listed edge has the id of a record on its layer, which is read as this edge. -/
theorem exists_record_of_listed (h : e ∈ d.relationsOn layer labelFeature) :
    ∃ r ∈ d.relations, r.layer = layer ∧ r.resolve? d.spans labelFeature = some e ∧
      r.id = e.id := by
  obtain ⟨r, hr, hlayer, hresolve⟩ := mem_resolveRelations.1 h
  exact ⟨r, hr, hlayer, hresolve, (RelationRecord.id_of_resolve? hresolve).symm⟩

/-- A relation that is listed has the id of a record, so it can be deleted by that id. -/
theorem id_mem_of_listed (h : e ∈ d.relationsOn layer labelFeature) : e.id ∈ d.ids := by
  obtain ⟨r, hr, -, -, hid⟩ := exists_record_of_listed h
  exact hid ▸ mem_ids_of_relation hr

/-- A listed edge keeps its id to itself when no span has it and one record has it. -/
theorem count_of_listed (h : e ∈ d.relationsOn layer labelFeature) :
    d.ids.count e.id = 1 ↔
      (d.spans.map (·.id)).count e.id = 0 ∧ (d.relations.map (·.id)).count e.id = 1 := by
  obtain ⟨r, hr, -, -, hid⟩ := exists_record_of_listed h
  have hpos : 0 < (d.relations.map (·.id)).count e.id :=
    List.count_pos_iff.2 (List.mem_map.2 ⟨r, hr, hid⟩)
  rw [count_ids]
  omega

/-- **One record is taken away, and nothing else, when its id is used once.** -/
theorem lacksOnly_without_iff (h : e ∈ d.relationsOn layer labelFeature) :
    d.LacksOnly (d.without [e.id]) layer labelFeature e ↔ d.ids.count e.id = 1 := by
  rw [count_of_listed h, without_singleton]
  constructor
  · rintro ⟨before, record, after, hrelations, -, -, heq⟩
    have hspans : d.spans.filter (fun s => s.id ≠ e.id) = d.spans := congrArg spans heq
    have hrest : d.relations.filter (fun r => r.id ≠ e.id) = before ++ after :=
      congrArg relations heq
    have hcountSpans := length_filter_key_ne (·.id) e.id d.spans
    have hcountRelations := length_filter_key_ne (·.id) e.id d.relations
    rw [hspans] at hcountSpans
    rw [hrest, hrelations, List.length_append, List.length_append, List.length_cons,
      ← hrelations] at hcountRelations
    omega
  · rintro ⟨hspans, hrelations⟩
    obtain ⟨r, hr, hlayer, hresolve, hid⟩ := exists_record_of_listed h
    obtain ⟨before, after, hcut, hrest⟩ := exists_filter_key_ne hr hid hrelations
    refine ⟨before, r, after, hcut, hlayer, hresolve, ?_⟩
    rw [hrest, filter_key_ne_of_count_eq_zero hspans]

end Document

namespace FileStore

variable {s : FileStore} {layer labelFeature : String} {e : RelationAnnotation}

/-- **A listed relation can be deleted, and one record goes when its id is used once.**  Deleting
takes away what has the id and leaves the rest in its place; this is the one record that is listed,
with every span and every other record kept, exactly when nothing else has the id, and then
no listing of any layer loses another relation. -/
theorem delete_listed (h : e ∈ s.document.relationsOn layer labelFeature) :
    ∃ d', (AnnotationStore.delete e.id).apply s = (.ok (), { s with document := d' }) ∧
      d' = s.document.without [e.id] ∧
      (s.document.LacksOnly d' layer labelFeature e ↔ s.document.ids.count e.id = 1) ∧
      (s.document.ids.count e.id = 1 → ∀ layer' labelFeature' : String,
        d'.relationsOn layer' labelFeature' =
          (s.document.relationsOn layer' labelFeature').filter (fun e' => e'.id ≠ e.id)) := by
  have hdelete : ((s.document.delete e.id).map fun d => ((), d)) =
      .ok ((), s.document.without [e.id]) := by
    rw [Document.delete_of_mem (Document.id_mem_of_listed h)]
    rfl
  refine ⟨_, apply_editing_of_ok hdelete, rfl, Document.lacksOnly_without_iff h,
    fun hcount layer' labelFeature' => ?_⟩
  have hspans : (s.document.spans.map (·.id)).count e.id = 0 :=
    ((Document.count_of_listed h).1 hcount).1
  have hother : ∀ a ∈ s.document.spans, a.id ∉ [e.id] := by
    intro a ha hid
    exact List.count_eq_zero.1 hspans (List.mem_map.2 ⟨a, ha, List.mem_singleton.1 hid⟩)
  rw [Document.relationsOn_without hother]
  simp only [List.mem_singleton, ne_eq]

/-- The relation between the first two of three sentences, deleted from the document that is read
from its file: its id is used once, and both spans stay. -/
theorem delete_listed_cause :
    load Session.threeOnDisk "doc.json" = .ok Session.threeLoaded ∧
      ∃ d', (AnnotationStore.delete ⟨3⟩).apply Session.threeLoaded =
          (.ok (), { Session.threeLoaded with document := d' }) ∧
        Document.threeSentences.LacksOnly d' "webanno.custom.SentenceRelation" "label"
          ⟨⟨3⟩, ⟨3, 5⟩, ⟨0, 2⟩, some "cause"⟩ ∧
        d'.spans = Document.threeSentences.spans ∧ d'.relations = [] := by
  have hlisted : ⟨⟨3⟩, ⟨3, 5⟩, ⟨0, 2⟩, some "cause"⟩ ∈
      Session.threeLoaded.document.relationsOn "webanno.custom.SentenceRelation" "label" := by
    decide
  obtain ⟨d', happly, rfl, honly, -⟩ := delete_listed hlisted
  exact ⟨Session.load_threeOnDisk, _, happly, honly.2 (by decide), rfl, rfl⟩

/-- The three sentences with a relation whose id is that of the first span. -/
def sharedId : Document :=
  { Document.threeSentences with
    relations :=
      [.relinked ⟨1⟩ "webanno.custom.SentenceRelation" "label" ⟨2⟩ ⟨1⟩ (some "cause")]
    nextId := 3 }

/-- That document as it is read from a file, where nothing keeps two annotations from sharing an
id. -/
def sharedIdLoaded : FileStore := ⟨sharedId, some "doc.json", Session.onDisk sharedId⟩

/-- The document in which a span and a relation share an id is loaded as it stands, since loading
asks for no more than that ids can be read. -/
theorem load_sharedId : load (Session.onDisk sharedId) "doc.json" = .ok sharedIdLoaded := by
  have hstorable : sharedId.Storable :=
    { Session.storable_threeSentences with
      relations := fun r hr => by
        rw [List.mem_singleton.1 hr]
        exact RelationRecord.storable_relinked (by decide) (by decide) (by decide) ..
      nextId := by decide }
  exact load_of_write hstorable (Session.write_onDisk _)

/-- **A relation may share its id with a span**, and then its deletion takes the span along. -/
theorem delete_sharedId_takes_span :
    load (Session.onDisk sharedId) "doc.json" = .ok sharedIdLoaded ∧
      ⟨⟨1⟩, ⟨3, 5⟩, ⟨0, 2⟩, some "cause"⟩ ∈
        sharedId.relationsOn "webanno.custom.SentenceRelation" "label" ∧
      ∃ d', (AnnotationStore.delete ⟨1⟩).apply sharedIdLoaded =
          (.ok (), { sharedIdLoaded with document := d' }) ∧
        d'.spans = [⟨⟨2⟩, "webanno.custom.Sentence", ⟨3, 5⟩, FeatureMap.empty⟩] ∧
        ¬sharedId.LacksOnly d' "webanno.custom.SentenceRelation" "label"
          ⟨⟨1⟩, ⟨3, 5⟩, ⟨0, 2⟩, some "cause"⟩ := by
  have hlisted : ⟨⟨1⟩, ⟨3, 5⟩, ⟨0, 2⟩, some "cause"⟩ ∈
      sharedId.relationsOn "webanno.custom.SentenceRelation" "label" := by decide
  refine ⟨load_sharedId, hlisted, sharedId.without [⟨1⟩], rfl, rfl, fun honly => ?_⟩
  have hcount := (Document.lacksOnly_without_iff hlisted).1 honly
  exact absurd hcount (by decide)

end FileStore
end PairAnnotation
