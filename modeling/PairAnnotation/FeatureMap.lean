/-
# Feature maps

An annotation carries features: named values, at most one per name, kept in the
ascending order of their names.  The order is part of the type, so two maps that
answer every look-up alike are equal, and writing one and reading it back gives
the same map whatever order the text had.
-/

namespace PairAnnotation

/-- Insert under a name into a list of ascending names, replacing what was there. -/
def insertAscending {α : Type} (name : String) (value : α) :
    List (String × α) → List (String × α)
  | [] => [(name, value)]
  | (k, v) :: rest =>
    if name < k then (name, value) :: (k, v) :: rest
    else if name = k then (name, value) :: rest
    else (k, v) :: insertAscending name value rest

/-- The names of an entry list ascend strictly, so none of them occurs twice. -/
def AscendingNames {α : Type} (entries : List (String × α)) : Prop :=
  entries.Pairwise fun a b => a.1 < b.1

instance {α : Type} (entries : List (String × α)) : Decidable (AscendingNames entries) :=
  inferInstanceAs (Decidable (List.Pairwise _ entries))

/-- What stands in the entries after one was inserted is this one, or it stood there before. -/
theorem fst_mem_insertAscending {α : Type} {name : String} {value : α}
    {entries : List (String × α)} {e : String × α} (h : e ∈ insertAscending name value entries) :
    e = (name, value) ∨ e ∈ entries := by
  induction entries with
  | nil => simpa [insertAscending] using h
  | cons kv rest ih =>
    obtain ⟨k, v⟩ := kv
    rw [insertAscending] at h
    split at h
    · simpa using h
    · split at h
      · rcases List.mem_cons.1 h with h | h
        · exact .inl h
        · exact .inr (List.mem_cons_of_mem _ h)
      · rcases List.mem_cons.1 h with h | h
        · exact .inr (h ▸ List.mem_cons_self)
        · exact (ih h).imp id (List.mem_cons_of_mem _)

/-- Inserting an entry keeps the names in ascending order, be its name a new one or not. -/
theorem ascendingNames_insertAscending {α : Type} (name : String) (value : α)
    {entries : List (String × α)} (h : AscendingNames entries) :
    AscendingNames (insertAscending name value entries) := by
  induction entries with
  | nil => simp [insertAscending, AscendingNames]
  | cons kv rest ih =>
    obtain ⟨k, v⟩ := kv
    obtain ⟨hk, hrest⟩ := List.pairwise_cons.1 h
    rw [insertAscending]
    split
    · rename_i hlt
      refine List.pairwise_cons.2 ⟨fun e he => ?_, h⟩
      rcases List.mem_cons.1 he with rfl | he
      · exact hlt
      · exact String.lt_trans hlt (hk e he)
    · split
      · rename_i heq
        exact List.pairwise_cons.2 ⟨fun e he => heq ▸ hk e he, hrest⟩
      · rename_i hnlt hne
        refine List.pairwise_cons.2 ⟨fun e he => ?_, ih hrest⟩
        rcases fst_mem_insertAscending he with rfl | he
        · have hle : k ≤ name := String.not_lt.1 hnlt
          refine Decidable.byContradiction fun hk' => hne ?_
          exact String.le_antisymm (String.not_lt.1 hk') hle
        · exact hk e he

/-- Named values in ascending order of their names, each name once. -/
structure FeatureMap (α : Type) where
  entries : List (String × α)
  ascending : AscendingNames entries
  deriving DecidableEq

namespace FeatureMap

variable {α : Type}

instance [Repr α] : Repr (FeatureMap α) := ⟨fun m n => reprPrec m.entries n⟩

/-- No feature at all, as a new annotation has none. -/
def empty : FeatureMap α := ⟨[], List.Pairwise.nil⟩

instance : Inhabited (FeatureMap α) := ⟨empty⟩

/-- Set one feature: its old value is replaced, or its name is put in its place among the others. -/
def insert (m : FeatureMap α) (name : String) (value : α) : FeatureMap α :=
  ⟨insertAscending name value m.entries, ascendingNames_insertAscending name value m.ascending⟩

/-- The value of a feature, if there is a feature of that name. -/
def get? (m : FeatureMap α) (name : String) : Option α := m.entries.lookup name

/-- From entries in any order; of entries with one name the last one counts. -/
def ofList (entries : List (String × α)) : FeatureMap α :=
  entries.foldl (fun m e => m.insert e.1 e.2) empty

end FeatureMap

/-- Looking up a name compares it with the first one and goes on if they differ. -/
theorem lookup_cons_ite {α : Type} (key k : String) (v : α) (rest : List (String × α)) :
    List.lookup key ((k, v) :: rest) = if key = k then some v else rest.lookup key := by
  rw [List.lookup_cons]
  by_cases h : key = k
  · simp [h]
  · simp [h, beq_false_of_ne h]

/-- **A name that is inserted has its new value, and all others have theirs.** -/
theorem lookup_insertAscending {α : Type} (name key : String) (value : α)
    (entries : List (String × α)) :
    (insertAscending name value entries).lookup key =
      if key = name then some value else entries.lookup key := by
  induction entries with
  | nil => rw [insertAscending, lookup_cons_ite]
  | cons kv rest ih =>
    obtain ⟨k, v⟩ := kv
    rw [insertAscending]
    split
    · rw [lookup_cons_ite]
    · split
      · rename_i heq
        subst heq
        rw [lookup_cons_ite, lookup_cons_ite]
        split <;> rfl
      · rename_i hnlt hne
        rw [lookup_cons_ite, lookup_cons_ite, ih]
        by_cases hkk : key = k
        · subst hkk
          simp [Ne.symm hne]
        · simp [hkk]

namespace FeatureMap

variable {α : Type}

theorem get?_empty (key : String) : (empty : FeatureMap α).get? key = none := rfl

/-- **Setting a feature is seen under its own name only.** -/
theorem get?_insert (m : FeatureMap α) (name key : String) (value : α) :
    (m.insert name value).get? key = if key = name then some value else m.get? key :=
  lookup_insertAscending name key value m.entries

end FeatureMap

end PairAnnotation
