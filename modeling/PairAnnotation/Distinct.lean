/-
# Lists without repetition

Lists stand for sets whose order is shown.  `firstOccurrences` keeps each element
once, where it stands first: it has the same members, no repetition, and leaves a
list without repetition as it is.  `ascending` keeps each element once, in the order
of a relation `le`.
-/

namespace PairAnnotation

/-- Each element once, at its first place; later occurrences are passed over. -/
def firstOccurrences {α : Type} [DecidableEq α] : List α → List α
  | [] => []
  | a :: rest => a :: (firstOccurrences rest).filter (· ≠ a)

/-- The first occurrences are what occurs in the list, neither more nor less. -/
theorem mem_firstOccurrences {α : Type} [DecidableEq α] {a : α} {l : List α} :
    a ∈ firstOccurrences l ↔ a ∈ l := by
  induction l with
  | nil => simp [firstOccurrences]
  | cons b rest ih =>
    by_cases h : a = b
    · simp [firstOccurrences, h]
    · simp [firstOccurrences, h, ih]

theorem nodup_firstOccurrences {α : Type} [DecidableEq α] (l : List α) :
    (firstOccurrences l).Nodup := by
  induction l with
  | nil => exact List.nodup_nil
  | cons b rest ih => exact List.nodup_cons.2 ⟨by simp, ih.filter _⟩

/-- A list in which nothing is repeated consists of first occurrences. -/
theorem firstOccurrences_of_nodup {α : Type} [DecidableEq α] {l : List α} (h : l.Nodup) :
    firstOccurrences l = l := by
  induction l with
  | nil => rfl
  | cons b rest ih =>
    obtain ⟨hb, hrest⟩ := List.nodup_cons.1 h
    rw [firstOccurrences, ih hrest, List.filter_eq_self.2]
    intro a ha
    simpa using fun h : a = b => hb (h ▸ ha)

/-- One more element comes last unless it is there already. -/
theorem firstOccurrences_append_singleton {α : Type} [DecidableEq α] (l : List α) (a : α) :
    firstOccurrences (l ++ [a]) =
      if a ∈ l then firstOccurrences l else firstOccurrences l ++ [a] := by
  induction l with
  | nil => rfl
  | cons b rest ih =>
    rw [List.cons_append, firstOccurrences, ih, firstOccurrences]
    by_cases hrest : a ∈ rest
    · simp [hrest]
    · by_cases hb : a = b
      · subst hb
        simp [hrest]
      · simp [hrest, hb]

/-- Place an element in a list ordered by `le`, unless it is there. -/
def insertDistinct {α : Type} [DecidableEq α] (le : α → α → Bool) (a : α) : List α → List α
  | [] => [a]
  | b :: rest =>
    if a = b then b :: rest
    else if le a b then a :: b :: rest
    else b :: insertDistinct le a rest

/-- Each element once, in the order of `le`, as a set that is kept sorted would list them. -/
def ascending {α : Type} [DecidableEq α] (le : α → α → Bool) (l : List α) : List α :=
  l.foldr (insertDistinct le) []

/-- An element that is inserted is in the list afterwards, and so is what was there, and nothing
else. -/
theorem mem_insertDistinct {α : Type} [DecidableEq α] {le : α → α → Bool} {a b : α} {l : List α} :
    b ∈ insertDistinct le a l ↔ b = a ∨ b ∈ l := by
  induction l with
  | nil => simp [insertDistinct]
  | cons c rest ih =>
    rw [insertDistinct]
    split
    · rename_i h
      simp [h]
    · split
      · simp
      · simp only [List.mem_cons, ih]
        exact ⟨fun h => h.elim (fun h => .inr (.inl h)) (·.imp id .inr),
          fun h => h.elim (fun h => .inr (.inl h)) (·.elim .inl (fun h => .inr (.inr h)))⟩

/-- Putting a list in order neither drops an element nor brings one in. -/
theorem mem_ascending {α : Type} [DecidableEq α] {le : α → α → Bool} {a : α} {l : List α} :
    a ∈ ascending le l ↔ a ∈ l := by
  induction l with
  | nil => simp [ascending]
  | cons b rest ih =>
    change a ∈ insertDistinct le b (ascending le rest) ↔ _
    rw [mem_insertDistinct, ih, List.mem_cons]

end PairAnnotation
