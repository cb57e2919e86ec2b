/-
# Lists without repetition, in order

The first occurrences in a list are found after a selection and a change of its elements as
well as before, if different elements stay different (`map_filter_firstOccurrences`).  A test
that tells which of two different elements comes first (`TellsOrder`) keeps a list in strict
order while elements are placed in it, so `ascending` gathers its elements in strict order.
Tables that name the neighbours of each key are filled in this way, one neighbour at a time
(`addNeighbour`).
-/

import Mathlib.Data.List.Induction
import Mathlib.Data.List.Sort
import Mathlib.Logic.Function.Basic
import PairAnnotation.Distinct
import PairAnnotation.Span

namespace PairAnnotation

/-! ### First occurrences -/

/-- First occurrences of what a list keeps of its elements, if different ones are kept as different
ones. -/
theorem map_filter_firstOccurrences {α β : Type} [DecidableEq α] [DecidableEq β] {p : α → Bool}
    {f : α → β} (hinj : ∀ a b, p a = true → p b = true → f a = f b → a = b) (l : List α) :
    ((firstOccurrences l).filter p).map f = firstOccurrences ((l.filter p).map f) := by
  induction l using List.reverseRecOn with
  | nil => rfl
  | append_singleton l a ih =>
    rw [firstOccurrences_append_singleton, List.filter_append, List.map_append]
    cases ha : p a with
    | false =>
      have hdrop : [a].filter p = [] := by simp [ha]
      rw [hdrop]
      split <;> simp [ih, ha]
    | true =>
      have hkeep : [a].filter p = [a] := by simp [ha]
      have hmem : f a ∈ (l.filter p).map f ↔ a ∈ l := by
        rw [List.mem_map]
        constructor
        · rintro ⟨b, hb, hfb⟩
          obtain ⟨hb, hpb⟩ := List.mem_filter.1 hb
          exact hinj b a hpb ha hfb ▸ hb
        · exact fun h => ⟨a, List.mem_filter.2 ⟨h, ha⟩, rfl⟩
      rw [hkeep, List.map_singleton, firstOccurrences_append_singleton, if_congr hmem rfl rfl]
      split <;> simp [ih, ha]

/-! ### Strict order -/

section Order

variable {α : Type} {le : α → α → Bool} {lt : α → α → Prop}

/-- Of two different elements, the test tells which one comes first. -/
structure TellsOrder (le : α → α → Bool) (lt : α → α → Prop) : Prop where
  trans {a b c : α} : lt a b → lt b c → lt a c
  lt_of_le {a b : α} : a ≠ b → le a b = true → lt a b
  lt_of_not_le {a b : α} : a ≠ b → ¬le a b = true → lt b a

variable [DecidableEq α]

namespace TellsOrder

/-- **An element is inserted in its place**: a list in strict order is in strict order afterwards,
and an element that was there is not doubled. -/
theorem pairwise_insertDistinct (h : TellsOrder le lt) {a : α} {l : List α}
    (hl : l.Pairwise lt) : (insertDistinct le a l).Pairwise lt := by
  induction l with
  | nil => exact List.pairwise_singleton _ _
  | cons b rest ih =>
    obtain ⟨hb, hrest⟩ := List.pairwise_cons.1 hl
    rw [insertDistinct]
    split
    · exact hl
    · rename_i hne
      split
      · rename_i hle
        have hab : lt a b := h.lt_of_le hne hle
        refine List.pairwise_cons.2 ⟨fun c hc => ?_, hl⟩
        rcases List.mem_cons.1 hc with rfl | hc
        · exact hab
        · exact h.trans hab (hb c hc)
      · rename_i hle
        refine List.pairwise_cons.2 ⟨fun c hc => ?_, ih hrest⟩
        rcases mem_insertDistinct.1 hc with rfl | hc
        · exact h.lt_of_not_le hne hle
        · exact hb c hc

/-- **What is gathered in order is in order**, by induction over what is inserted, and nothing is
there twice. -/
theorem pairwise_ascending (h : TellsOrder le lt) (l : List α) : (ascending le l).Pairwise lt := by
  induction l with
  | nil => exact List.Pairwise.nil
  | cons a rest ih => exact h.pairwise_insertDistinct ih

end TellsOrder

/-! ### Tables of neighbours -/

/-- The table with one more neighbour of a key, put in its place among those that are there. -/
def addNeighbour (le : α → α → Bool) (table : α → List α) (key neighbour : α) : α → List α :=
  Function.update table key (insertDistinct le neighbour (table key))

/-- A new neighbour is entered under its key, and the lists of all other keys stay as they are. -/
theorem mem_addNeighbour {table : α → List α} {key neighbour a b : α} :
    b ∈ addNeighbour le table key neighbour a ↔ a = key ∧ b = neighbour ∨ b ∈ table a := by
  unfold addNeighbour
  by_cases h : a = key
  · subst h
    rw [Function.update_self, mem_insertDistinct]
    simp
  · rw [Function.update_of_ne h]
    simp [h]

/-- Lists of neighbours that are in strict order are so after another neighbour was entered. -/
theorem TellsOrder.pairwise_addNeighbour (h : TellsOrder le lt) {table : α → List α}
    (key neighbour : α) (htable : ∀ a, (table a).Pairwise lt) (a : α) :
    (addNeighbour le table key neighbour a).Pairwise lt := by
  unfold addNeighbour
  by_cases ha : a = key
  · subst ha
    rw [Function.update_self]
    exact h.pairwise_insertDistinct (htable a)
  · rw [Function.update_of_ne ha]
    exact htable a

end Order

/-! ### Numbers and spans in order -/

/-- The comparison of numbers tells which of two different numbers is the smaller one. -/
theorem tellsOrder_ble : TellsOrder Nat.ble (· < ·) where
  trans := Nat.lt_trans
  lt_of_le hne hle := Nat.lt_of_le_of_ne (Nat.le_of_ble_eq_true hle) hne
  lt_of_not_le _ hle := Nat.lt_of_not_le fun hab => hle (Nat.ble_eq_true_of_le hab)

namespace Span

/-- By start, then by stop, and different: the strict order of spans. -/
def Before (s t : Span) : Prop := s.start < t.start ∨ s.start = t.start ∧ s.stop < t.stop

instance : Std.Irrefl Before where
  irrefl s h := by
    unfold Before at h
    omega

instance : Std.Antisymm Before where
  antisymm s t h h' := by
    unfold Before at h h'
    omega

/-- The comparison of spans by start and then by stop tells which of two different spans comes
before. -/
theorem tellsOrder_le : TellsOrder le Before where
  trans h h' := by
    unfold Before at *
    omega
  lt_of_le {s t} hne hle := by
    obtain ⟨a, b⟩ := s
    obtain ⟨c, d⟩ := t
    rw [le_iff] at hle
    rw [Ne, Span.mk.injEq] at hne
    unfold Before
    dsimp only at *
    omega
  lt_of_not_le {s t} _ hle := by
    rw [le_iff] at hle
    unfold Before
    omega

end Span
end PairAnnotation
