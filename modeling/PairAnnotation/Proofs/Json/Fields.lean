/-
# Fields that are read back

A record is written as an object, and each field is found under its name
(`Tree.fields?_tree`).  What a field holds is read back as well, be it an integer of 64
bits, a string, a list whose items are read back, or a feature map whose values are: the
entries of a map ascend, so adding them one by one makes the same map again
(`FeatureMap.ofList_entries`).
-/

import PairAnnotation.Proofs.Json.Kept

namespace PairAnnotation

open Json

/-! ### Lists and maps -/

/-- Where a function gives a result for each element of a list, it gives the list of all results. -/
theorem mapM_eq_some_map {α β : Type} {f : α → Option β} {g : α → β} {l : List α}
    (h : ∀ a ∈ l, f a = some (g a)) : l.mapM f = some (l.map g) := by
  induction l with
  | nil => rfl
  | cons a rest ih =>
    obtain ⟨ha, hrest⟩ := List.forall_mem_cons.1 h
    rw [List.mapM_cons, ha, ih hrest]
    rfl

/-- What a list was read as was read item by item. -/
theorem exists_of_mapM {α β : Type} {f : α → Option β} {l : List α} {bs : List β}
    (h : l.mapM f = some bs) : ∀ b ∈ bs, ∃ a ∈ l, f a = some b := by
  induction l generalizing bs with
  | nil =>
    cases h
    simp
  | cons a rest ih =>
    simp only [List.mapM_cons, Option.pure_def, Option.bind_eq_bind, Option.bind_eq_some_iff,
      Option.some.injEq] at h
    obtain ⟨b, hb, bs, hbs, rfl⟩ := h
    refine List.forall_mem_cons.2 ⟨⟨a, List.mem_cons_self, hb⟩, fun b' hb' => ?_⟩
    obtain ⟨a', ha', hf⟩ := ih hbs b' hb'
    exact ⟨a', List.mem_cons_of_mem _ ha', hf⟩

/-- What each item is read as can be told from the item. -/
theorem map_eq_of_mapM {α β γ : Type} {f : α → Option β} {l : List α} {bs : List β} {key : α → γ}
    {key' : β → γ} (hkey : ∀ a b, f a = some b → key' b = key a) (h : l.mapM f = some bs) :
    bs.map key' = l.map key := by
  induction l generalizing bs with
  | nil =>
    cases h
    rfl
  | cons a rest ih =>
    simp only [List.mapM_cons, Option.pure_def, Option.bind_eq_bind, Option.bind_eq_some_iff,
      Option.some.injEq] at h
    obtain ⟨b, hb, bs, hbs, rfl⟩ := h
    rw [List.map_cons, List.map_cons, hkey a b hb, ih hbs]

namespace FeatureMap

variable {α : Type}

/-- Entries that are inserted in ascending order behind smaller names stay in the order in which
they came. -/
theorem entries_foldl_insert {entries : List (String × α)} {m : FeatureMap α}
    (h : AscendingNames (m.entries ++ entries)) :
    (entries.foldl (fun m e => m.insert e.1 e.2) m).entries = m.entries ++ entries := by
  induction entries generalizing m with
  | nil => rw [List.foldl_nil, List.append_nil]
  | cons e rest ih =>
    have hcons : AscendingNames (m.entries ++ [e] ++ rest) := by
      rwa [List.append_assoc, List.singleton_append]
    have hinsert : (m.insert e.1 e.2).entries = m.entries ++ [e] :=
      insertAscending_append (List.pairwise_append.1 hcons).1
    rw [List.foldl_cons, ih (hinsert ▸ hcons), hinsert, List.append_assoc, List.singleton_append]

/-- **A map is made again from its entries**, since they stand in ascending order and none is
inserted twice. -/
theorem ofList_entries (m : FeatureMap α) : ofList m.entries = m := by
  obtain ⟨entries, ascending⟩ := m
  have h : (ofList entries).entries = entries := entries_foldl_insert (m := empty) ascending
  generalize ofList entries = m at h
  obtain ⟨_, _⟩ := m
  cases h
  rfl

/-- What stands in a map after an entry was inserted is this entry, or it stood there before. -/
theorem mem_entries_insert {m : FeatureMap α} {name : String} {value : α} {e : String × α}
    (h : e ∈ (m.insert name value).entries) : e = (name, value) ∨ e ∈ m.entries :=
  fst_mem_insertAscending h

/-- What stands in a map after several entries were inserted is one of these, or it stood there
before. -/
theorem mem_entries_foldl_insert {entries : List (String × α)} {m : FeatureMap α} {e : String × α}
    (h : e ∈ (entries.foldl (fun m e => m.insert e.1 e.2) m).entries) :
    e ∈ entries ∨ e ∈ m.entries := by
  induction entries generalizing m with
  | nil => exact .inr h
  | cons f rest ih =>
    rcases ih h with h | h
    · exact .inl (List.mem_cons_of_mem _ h)
    · rcases mem_entries_insert h with rfl | h
      · exact .inl List.mem_cons_self
      · exact .inr h

/-- A map that is made of a list of entries has no entry that is not in the list. -/
theorem mem_of_mem_ofList {entries : List (String × α)} {e : String × α}
    (h : e ∈ (ofList entries).entries) : e ∈ entries :=
  (mem_entries_foldl_insert h).resolve_right List.not_mem_nil

end FeatureMap

namespace Json

/-- The trees of a list are those of its values, one by one. -/
theorem itemTrees_eq_map (items : List Value) : itemTrees items = items.map Value.tree := by
  induction items with
  | nil => rfl
  | cons v items ih => rw [itemTrees, ih, List.map_cons]

/-- The trees of members are those of their values, each with its name. -/
theorem memberTrees_eq_map (members : List (String × Value)) :
    memberTrees members = members.map fun m => (some m.1, m.2.tree) := by
  induction members with
  | nil => rfl
  | cons m members ih => rw [memberTrees, ih, List.map_cons]

/-- What is read for the values in a list is what is read for each of them. -/
theorem itemsWritten_eq_map (items : List Value) :
    itemsWritten items = items.map Value.written := by
  induction items with
  | nil => rfl
  | cons v items ih => rw [itemsWritten, ih, List.map_cons]

/-- What is read for members is what is read for the value of each, beside its name. -/
theorem membersWritten_eq_map (members : List (String × Value)) :
    membersWritten members = members.map fun m => (some m.1, m.2.written) := by
  induction members with
  | nil => rfl
  | cons m members ih => rw [membersWritten, ih, List.map_cons]

namespace Tree

/-! ### Fields -/

/-- Where names are distinct, the members with a name are the one that a lookup finds, or none. -/
theorem filter_fst_eq {α : Type} {members : List (String × α)} (h : (members.map (·.1)).Nodup)
    (name : String) :
    members.filter (·.1 == name) = ((members.lookup name).map (name, ·)).toList := by
  induction members with
  | nil => rfl
  | cons m rest ih =>
    obtain ⟨k, v⟩ := m
    obtain ⟨hk, hrest⟩ := List.nodup_cons.1 h
    rw [lookup_cons_ite, List.filter_cons]
    by_cases heq : name = k
    · subst heq
      have hnone : rest.filter (·.1 == name) = [] := by
        refine List.filter_eq_nil_iff.2 fun m hm hname => hk ?_
        exact List.mem_map.2 ⟨m, hm, eq_of_beq hname⟩
      simp [hnone]
    · rw [if_neg heq, if_neg (by simpa using Ne.symm heq)]
      exact ih hrest

/-- A lookup does not care what is done to the values: it finds the same one, changed. -/
theorem lookup_map_snd {α β : Type} (f : α → β) (members : List (String × α)) (name : String) :
    (members.map fun m => (m.1, f m.2)).lookup name = (members.lookup name).map f := by
  induction members with
  | nil => rfl
  | cons m rest ih =>
    rw [List.map_cons, lookup_cons_ite, lookup_cons_ite, ih]
    split <;> rfl

/-- **The fields of an object whose names differ** are found under their names. -/
theorem fields?_object (names : List String) {members : List (String × Value)}
    {write : Value → Tree} (h : (members.map (·.1)).Nodup) :
    (Tree.object (members.map fun m => (some m.1, write m.2))).fields? names =
      some (names.map fun field => (members.lookup field).map write) := by
  have hnodup : ((members.map fun m => (m.1, write m.2)).map (·.1)).Nodup := by
    rwa [List.map_map]
  rw [fields?, List.mapM_map,
    mapM_eq_some_map (g := fun m => (m.1, write m.2)) (l := members) fun m _ => ?_]
  · refine mapM_eq_some_map fun field _ => ?_
    rw [filter_fst_eq hnodup, lookup_map_snd write]
    cases members.lookup field <;> rfl
  · rfl

/-- **The fields of an object are found in its tree**, each as the tree of the member with its name,
and missing members as missing. -/
theorem fields?_tree (names : List String) {members : List (String × Value)}
    (h : (members.map (·.1)).Nodup) :
    (Value.object members).tree.fields? names =
      some (names.map fun field => (members.lookup field).map Value.tree) := by
  rw [Value.tree, memberTrees_eq_map]
  exact fields?_object names h

/-- The fields of an object are found in what is read for it, as they are in its own tree. -/
theorem fields?_written (names : List String) {members : List (String × Value)}
    (h : (members.map (·.1)).Nodup) :
    (Value.object members).written.fields? names =
      some (names.map fun field => (members.lookup field).map Value.written) := by
  rw [Value.written, membersWritten_eq_map]
  exact fields?_object names h

/-- A number that fits 64 bits is read from its tree as it is. -/
theorem nat?_nat {n : Nat} (h : n ≤ Numeral.word) : (Value.nat n).tree.nat? = some n := by
  have hnumber : (Number.natural n).numeral.number? = some (.natural n) := number?_numeral h rfl
  rw [Value.nat, Value.tree, nat?, hnumber]

/-- A number that is read fits 64 bits: a greater one is refused. -/
theorem nat?_le {t : Tree} {n : Nat} (h : t.nat? = some n) : n ≤ Numeral.word := by
  unfold nat? at h
  split at h
  · split at h
    · rename_i hnumber
      cases h
      exact kept_of_number? hnumber
    · cases h
  · cases h

theorem string?_string (s : String) : (Value.string s).tree.string? = some s := rfl

/-- **A list is read back item by item**, if each item is read back from what it was written as. -/
theorem list?_array {α : Type} (read : Tree → Option α) {write : α → Value} {l : List α}
    (h : ∀ a ∈ l, read (write a).tree = some a) :
    (Value.array (l.map write)).tree.list? read = some l := by
  rw [Value.tree, itemTrees_eq_map, List.map_map, list?, List.mapM_map]
  exact (mapM_eq_some_map (g := id) h).trans (congrArg some (List.map_id l))

/-- **A feature map is read back value by value**, each under its name, if each value is read
back. -/
theorem features?_object {α : Type} {read : Tree → Option α} (write : α → Value)
    {m : FeatureMap α} (h : ∀ e ∈ m.entries, read (write e.2).tree = some e.2) :
    (Value.object (m.entries.map fun e => (e.1, write e.2))).tree.features? read = some m := by
  rw [Value.tree, memberTrees_eq_map, List.map_map, features?, List.mapM_map,
    mapM_eq_some_map (g := id) fun e he => ?_, List.map_id]
  · exact congrArg some m.ofList_entries
  · simp [h e he]

/-! ### What was read -/

/-- A number in a field that has to be there fits 64 bits. -/
theorem le_of_required? {field : Option Tree} {n : Nat} (h : required? nat? field = some n) :
    n ≤ Numeral.word := by
  obtain ⟨t, -, ht⟩ := Option.bind_eq_some_iff.1 h
  exact nat?_le ht

/-- A number in a field that may be missing fits 64 bits, and so does the zero that stands for a
missing one. -/
theorem le_of_optional? {field : Option Tree} {n : Nat} (h : optional? 0 nat? field = some n) :
    n ≤ Numeral.word := by
  cases field with
  | none =>
    cases h
    exact Nat.zero_le _
  | some t => exact nat?_le h

/-- Each item of a list that may be missing was read. -/
theorem exists_of_list? {α : Type} {read : Tree → Option α} {field : Option Tree} {l : List α}
    (h : optional? [] (list? read) field = some l) : ∀ a ∈ l, ∃ t, read t = some a := by
  intro a ha
  cases field with
  | none =>
    cases h
    cases ha
  | some t =>
    simp only [optional?] at h
    unfold list? at h
    split at h
    · obtain ⟨t, -, ht⟩ := exists_of_mapM h a ha
      exact ⟨t, ht⟩
    · cases h

/-- Each value of a feature map that may be missing was read. -/
theorem exists_of_features? {α : Type} {read : Tree → Option α} {field : Option Tree}
    {m : FeatureMap α} (h : optional? FeatureMap.empty (features? read) field = some m) :
    ∀ e ∈ m.entries, ∃ t, read t = some e.2 := by
  intro e he
  cases field with
  | none =>
    cases h
    cases he
  | some t =>
    simp only [optional?] at h
    unfold features? at h
    split at h
    · simp only [Option.bind_eq_bind, Option.bind_eq_some_iff, Option.some.injEq] at h
      obtain ⟨entries, hentries, rfl⟩ := h
      obtain ⟨⟨name, t⟩, -, ht⟩ := exists_of_mapM hentries e (FeatureMap.mem_of_mem_ofList he)
      simp only [Option.bind_eq_some_iff, Option.some.injEq] at ht
      obtain ⟨name, -, v, hv, rfl⟩ := ht
      exact ⟨t, hv⟩
    · cases h

end Tree
end Json

end PairAnnotation
