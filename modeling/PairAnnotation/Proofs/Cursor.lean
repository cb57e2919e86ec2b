/-
# Moves of the cursor

The cursor is on a candidate when the pair of its two sides is the one at its position
(`Cursor.On`).  It starts there and every move leaves it there: a move to another pair
lands on a place of a lap, a move of one side asks for the position of the new pair
and stays where it is when there is none.  On a candidate each side is among the
segments that are eligible beside the other one (`On.mem_eligible`), so its position
label always has a rank (`On.not_mem_positionLabel`).
-/

import PairAnnotation.Cursor
import PairAnnotation.Proofs.PairSet.Lap

namespace PairAnnotation
namespace Cursor

/-- The pair of the two sides is the candidate at the cursor's position. -/
def On (c : Cursor) (candidates : Candidates) : Prop :=
  ∃ p, candidates.get? c.pairIndex = some p ∧ c.pair? = some p

namespace On

variable {c : Cursor} {candidates : Candidates}

/-- A cursor on a candidate has two different segments, since a pair has two members. -/
theorem left_ne_right (h : c.On candidates) : c.left ≠ c.right := by
  obtain ⟨p, -, hp⟩ := h
  intro heq
  rw [pair?, heq, Pair.of?_self] at hp
  cases hp

/-- The position of a cursor on a candidate is one of the set, so a search can start there. -/
theorem pairIndex_lt (h : c.On candidates) : c.pairIndex < candidates.length := by
  obtain ⟨p, hp, -⟩ := h
  exact Candidates.lt_length_of_get? hp

/-- At the position of a cursor on a candidate stands the pair under the cursor. -/
theorem get?_pairIndex (h : c.On candidates) : candidates.get? c.pairIndex = c.pair? := by
  obtain ⟨p, hget, hp⟩ := h
  rw [hget, hp]

/-- The pair of the two sides is a candidate, and it is the one at the position of the cursor. -/
theorem mem_toList (h : c.On candidates) : ∃ p ∈ candidates.toList, c.pair? = some p := by
  obtain ⟨p, hget, hp⟩ := h
  exact ⟨p, Candidates.mem_toList_iff.2 ⟨_, hget⟩, hp⟩

/-- Both sides are below every bound on the candidates, such as the number of segments. -/
theorem segmentOn_lt {n : Nat} (h : c.On candidates) (hn : ∀ p ∈ candidates.toList, p.high < n)
    (side : Side) : c.segmentOn side < n := by
  obtain ⟨p, hmem, hp⟩ := h.mem_toList
  have hhigh := hn p hmem
  have hlow := p.low_lt_high
  rcases Pair.of?_eq_some_iff.1 hp with hp | hp <;> cases side <;> dsimp only [segmentOn] <;> omega

/-- **Either side is eligible beside the other one**, so a move of one side starts among its
partners. -/
theorem mem_eligible (h : c.On candidates) (side : Side) :
    c.segmentOn side ∈ candidates.eligible (c.opposite side) := by
  obtain ⟨p, hmem, hp⟩ := h.mem_toList
  cases side with
  | left => exact Candidates.mem_eligible_of_mem hmem ((Pair.of?_comm _ _).trans hp)
  | right => exact Candidates.mem_eligible_of_mem hmem hp

/-- On a candidate, the cursor is at the same position as soon as it is on the same pair. -/
theorem pairIndex_eq {c' : Cursor} (h : c.On candidates) (h' : c'.On candidates)
    (heq : c'.pair? = c.pair?) : c'.pairIndex = c.pairIndex := by
  obtain ⟨p, hget, hp⟩ := h
  obtain ⟨p', hget', hp'⟩ := h'
  rw [hp, hp', Option.some.injEq] at heq
  subst heq
  have hposition := Candidates.position?_eq_some_iff.2 hget
  rw [Candidates.position?_eq_some_iff.2 hget'] at hposition
  exact Option.some.inj hposition

end On

/-! ### A side put elsewhere -/

@[simp]
theorem segmentOn_put (c : Cursor) (side : Side) (segment position : Nat) :
    (c.put side segment position).segmentOn side = segment := by
  cases side <;> rfl

@[simp]
theorem opposite_put (c : Cursor) (side : Side) (segment position : Nat) :
    (c.put side segment position).opposite side = c.opposite side := by
  cases side <;> rfl

@[simp]
theorem filter_put (c : Cursor) (side : Side) (segment position : Nat) :
    (c.put side segment position).filter = c.filter := by
  cases side <;> rfl

/-- The pair of the two sides, told from either side. -/
theorem pair?_eq_of? (c : Cursor) (side : Side) :
    c.pair? = Pair.of? (c.segmentOn side) (c.opposite side) := by
  cases side with
  | left => rfl
  | right => exact Pair.of?_comm _ _

/-! ### Moves -/

/-- A session begins on the first candidate, read from left to right. -/
theorem on_start? {pairs : PairSet} {c : Cursor} (h : start? pairs = some c) :
    c.On pairs.candidates := by
  obtain ⟨p, hp, rfl⟩ := Option.map_eq_some_iff.1 h
  exact ⟨p, hp, Pair.of?_members p⟩

/-- **A cursor that lands on a place is on its candidate**, with the position that belongs to it. -/
theorem on_land {pairs : PairSet} {x : Place} (c : Cursor) (h : pairs.IsPlace x) :
    (c.land x).On pairs.candidates :=
  ⟨x.pair, h, Pair.of?_members x.pair⟩

/-- A move to another pair ends on a candidate: on the one that was found, or on the one it started
from. -/
theorem on_movePair {pairs : PairSet} {c : Cursor} (d : Direction)
    (resolve : Pair → ResolvedRelation) (h : c.On pairs.candidates) :
    (c.movePair d pairs resolve).2.On pairs.candidates := by
  unfold movePair
  split
  · rename_i x hx
    exact c.on_land (PairSet.isPlace_of_seek? hx).1
  · exact h

/-- A jump to an incomplete pair ends on a candidate, also if there is none to jump to. -/
theorem on_jumpToNextIncomplete {pairs : PairSet} {c : Cursor}
    (resolve : Pair → ResolvedRelation) (h : c.On pairs.candidates) :
    (c.jumpToNextIncomplete pairs resolve).2.On pairs.candidates := by
  unfold jumpToNextIncomplete
  split
  · exact h
  · split
    · rename_i x hx
      exact c.on_land (PairSet.isPlace_of_seek? hx).1
    · exact h

/-- A cursor is on a candidate when the segment that is put on one side makes one with the other
side. -/
theorem on_put {candidates : Candidates} {p : Pair} {target position : Nat} (c : Cursor)
    (side : Side) (hpair : Pair.of? target (c.opposite side) = some p)
    (hposition : candidates.position? p = some position) :
    (c.put side target position).On candidates := by
  have hget := Candidates.position?_eq_some_iff.1 hposition
  cases side with
  | left => exact ⟨p, hget, hpair⟩
  | right => exact ⟨p, hget, (Pair.of?_comm _ _).trans hpair⟩

/-- **A move among the partners of one side ends on a candidate**, since partners are the other
members of candidates. -/
theorem on_moveSegment {pairs : PairSet} {c : Cursor} (side : Side) (d : Direction)
    (h : c.On pairs.candidates) : (c.moveSegment side d pairs).2.On pairs.candidates := by
  unfold moveSegment
  dsimp only
  split
  · exact h
  · rename_i target _
    split
    · exact h
    · rename_i position hposition
      obtain ⟨p, hpair, hposition⟩ := Option.bind_eq_some_iff.1 hposition
      exact c.on_put side hpair hposition

/-! ### Labels of positions -/

/-- The position label is split at its dash, and none of the numbers in it has one. -/
theorem dash_not_mem_toDigits (n : Nat) : '-' ∉ Nat.toDigits 10 n := by
  intro h
  have hdigit := Nat.isDigit_of_mem_toDigits (by decide) (by decide) h
  exact absurd hdigit (by decide)

/-- **A cursor on a candidate shows a rank on either side**, never the dash of a segment that is
not eligible. -/
theorem On.not_mem_positionLabel {c : Cursor} {pairs : PairSet} (h : c.On pairs.candidates)
    (side : Side) (source : SegmentSource) (segmentCount : Nat) :
    '-' ∉ (c.positionLabel side pairs source segmentCount).toList := by
  cases source with
  | derived =>
    simp [positionLabel, dash_not_mem_toDigits]
  | preAnnotated =>
    have hmem : c.segmentOn side ∈ pairs.eligible (c.opposite side) := h.mem_eligible side
    obtain ⟨rank, hrank⟩ := Option.isSome_iff_exists.1 (List.isSome_idxOf?.2 hmem)
    simp [positionLabel, hrank, dash_not_mem_toDigits]

end Cursor
end PairAnnotation
