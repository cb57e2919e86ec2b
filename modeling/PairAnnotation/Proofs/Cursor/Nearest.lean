/-
# Where a move to another pair lands

A cursor on a candidate moves to the nearest candidate in a direction on which the tag
stands that is asked for (`movePair_lands_nearest`), or to the nearest one ahead that is
not completed either (`jump_lands_nearest`).  Where no candidate qualifies it stays
where it is.  The pair under the cursor is considered last, since a whole round leads
back to it.

A jump gives up at once when as many pairs are completed as there are candidates.  As
long as only candidates are completed, these counts are equal only if all of them are,
so nothing is missed.

Either move asks for the relation of a pair at most once for each candidate, and a jump
asks about pairs that are not completed only.  This is a fact about the moves with
questions that are put down (`movePairAsking`, `jumpAsking`), which otherwise are the
moves themselves.
-/

import PairAnnotation.Proofs.Cursor
import PairAnnotation.Proofs.PairSet.Search

namespace PairAnnotation

/-- Whether the tag that is asked for stands on a relation, in either direction; if none is asked
for, any relation will do. -/
def ResolvedRelation.Carries (r : ResolvedRelation) (filter : Option Tag) : Prop :=
  ∀ tag ∈ filter, r.rightToLeft = some tag ∨ r.leftToRight = some tag

instance (r : ResolvedRelation) (filter : Option Tag) : Decidable (r.Carries filter) :=
  inferInstanceAs (Decidable (∀ tag ∈ filter, r.rightToLeft = some tag ∨ r.leftToRight = some tag))

namespace Cursor

open PairSet (Nearest ahead)

variable {pairs : PairSet} {c : Cursor} {resolve : Pair → ResolvedRelation}

/-- The test that a search makes is what the filter asks for: the tag stands on one of the two
directions. -/
theorem passes_iff {filter : Option Tag} {p : Pair} :
    passes filter resolve p = true ↔ (resolve p).Carries filter := by
  cases filter with
  | none => simp [passes, ResolvedRelation.Carries]
  | some tag => simp [passes, ResolvedRelation.Carries, ResolvedRelation.contains_iff]

/-! ### Moves that put their questions down -/

/-- Whether a pair passes the filter; only a filter that is set asks for its relation. -/
def passesAsking (filter : Option Tag) (resolve : Pair → ResolvedRelation) (p : Pair) :
    Asking Bool :=
  match filter with
  | none => pure true
  | some tag => do
    let relation ← Asking.ask resolve p
    pure (relation.contains tag)

/-- The question whether a pair passes the filter asks about this pair, once at most, and gets its
answer. -/
theorem answers_passesAsking (filter : Option Tag) (resolve : Pair → ResolvedRelation) :
    Asking.Answers (passesAsking filter resolve) (passes filter resolve) := by
  intro p asked
  cases filter with
  | none => exact ⟨[], by rw [List.append_nil]; rfl, List.nil_sublist _⟩
  | some tag => exact ⟨[p], rfl, List.Sublist.refl _⟩

/-- Whether a pair is still to do; of a pair that is completed nothing more is asked. -/
def openAsking (pairs : PairSet) (filter : Option Tag) (resolve : Pair → ResolvedRelation)
    (p : Pair) : Asking Bool :=
  if pairs.isCompleted p then pure false else passesAsking filter resolve p

/-- A completed pair is passed over without a question, and every other one is asked about like in a
move. -/
theorem answers_openAsking (pairs : PairSet) (filter : Option Tag)
    (resolve : Pair → ResolvedRelation) :
    Asking.Answers (openAsking pairs filter resolve)
      fun p => !pairs.isCompleted p && passes filter resolve p := by
  intro p asked
  unfold openAsking
  dsimp only
  cases pairs.isCompleted p with
  | true => exact ⟨[], by rw [List.append_nil]; rfl, List.nil_sublist _⟩
  | false => exact answers_passesAsking filter resolve p asked

/-- Where a search has led to: the place it found, or where the cursor was. -/
def arrive (c : Cursor) : Option Place → Option Pair × Cursor
  | some place => (some place.pair, c.land place)
  | none => (c.pair?, c)

/-- The move to another pair, with its questions put down. -/
def movePairAsking (c : Cursor) (d : Direction) (pairs : PairSet)
    (resolve : Pair → ResolvedRelation) : Asking (Option Pair × Cursor) := do
  let found ← pairs.seekAsking? c.pairIndex d (passesAsking c.filter resolve)
  pure (c.arrive found)

/-- The move to the next pair that is still to do, with its questions put down. -/
def jumpAsking (c : Cursor) (pairs : PairSet) (resolve : Pair → ResolvedRelation) :
    Asking (Option Pair × Cursor) :=
  if pairs.isEmpty || pairs.isFullyCompleted then pure (c.pair?, c)
  else do
    let found ← pairs.seekAsking? c.pairIndex .next (openAsking pairs c.filter resolve)
    pure (c.arrive found)

/-- **A move is a search and an arrival**: the search asks for pairs that pass the filter. -/
theorem movePair_eq_arrive (c : Cursor) (d : Direction) (pairs : PairSet)
    (resolve : Pair → ResolvedRelation) :
    c.movePair d pairs resolve =
      c.arrive (pairs.seek? c.pairIndex d (passes c.filter resolve)) := by
  unfold movePair arrive
  cases pairs.seek? c.pairIndex d (passes c.filter resolve) <;> rfl

/-- A jump is a search for incomplete pairs that pass the filter, unless there is nothing to
search. -/
theorem jumpToNextIncomplete_eq_arrive (c : Cursor) {pairs : PairSet}
    (resolve : Pair → ResolvedRelation)
    (h : (pairs.isEmpty || pairs.isFullyCompleted) = false) :
    c.jumpToNextIncomplete pairs resolve =
      c.arrive (pairs.seek? c.pairIndex .next
        fun p => !pairs.isCompleted p && passes c.filter resolve p) := by
  rw [jumpToNextIncomplete, h]
  unfold arrive
  cases pairs.seek? c.pairIndex .next
    (fun p => !pairs.isCompleted p && passes c.filter resolve p) <;> rfl

/-- What is asked on a lap is asked once for each candidate at most. -/
theorem length_asked_le {start : Nat} {d : Direction} {asked : List Pair}
    (hstart : start < pairs.length)
    (h : asked.Sublist ((pairs.lap start d).map Place.pair)) : asked.length ≤ pairs.length := by
  have hle := h.length_le
  rwa [List.length_map, (PairSet.rounds_of_lt hstart).length] at hle

/-! ### Where the moves land -/

/-- **The outcome of a move** that is to reach the nearest candidate of a kind: it lands there, the
lower index on the left, and answers the pair; where there is none, it stays and answers the pair
it is on. -/
structure Lands (c : Cursor) (pairs : PairSet) (d : Direction) (wanted : Pair → Prop)
    (outcome : Option Pair × Cursor) : Prop where
  found (h : ∃ p ∈ pairs.toList, wanted p) :
    ∃ steps p, pairs.Nearest c.pairIndex d wanted steps p ∧ p.low < p.high ∧
      outcome = (some p, { c with
        left := p.low
        right := p.high
        pairIndex := ahead pairs.length c.pairIndex d steps })
  stays (h : ∀ p ∈ pairs.toList, ¬ wanted p) :
    ∃ p, pairs.get? c.pairIndex = some p ∧ c.pair? = some p ∧ outcome = (some p, c)

/-- A cursor that stays where it is stays on its candidate. -/
theorem On.stays (h : c.On pairs.candidates) :
    ∃ p, pairs.get? c.pairIndex = some p ∧ c.pair? = some p ∧ (c.pair?, c) = (some p, c) := by
  obtain ⟨p, hget, hp⟩ := h
  exact ⟨p, hget, hp, by rw [hp]⟩

/-- **A search that leads the cursor** lands on the nearest candidate that is wanted. -/
theorem lands_arrive (h : c.On pairs.candidates) (d : Direction) {wanted : Pair → Bool}
    {Wanted : Pair → Prop} (hwanted : ∀ p, wanted p = true ↔ Wanted p) :
    Lands c pairs d Wanted (c.arrive (pairs.seek? c.pairIndex d wanted)) := by
  obtain rfl : Wanted = (wanted · = true) := funext fun p => propext (hwanted p).symm
  constructor
  · intro hexists
    obtain ⟨steps, p, hnearest⟩ := PairSet.exists_nearest h.pairIndex_lt d hexists
    refine ⟨steps, p, hnearest, p.low_lt_high, ?_⟩
    rw [PairSet.seek?_of_nearest h.pairIndex_lt hnearest]
    rfl
  · intro hnone
    rw [PairSet.seek?_eq_none fun p hp => Bool.eq_false_iff.2 (hnone p hp)]
    exact h.stays

/-- **A move to another pair lands on the nearest candidate that carries the tag asked for**, any
candidate if none is asked for, counted in the direction of the move from the one behind the cursor
to the cursor's own.  It asks for the relations of as many pairs as there are candidates at
most. -/
theorem movePair_lands_nearest (h : c.On pairs.candidates) (d : Direction)
    (resolve : Pair → ResolvedRelation) :
    Lands c pairs d (fun p => (resolve p).Carries c.filter) (c.movePair d pairs resolve) ∧
      ahead pairs.length c.pairIndex d pairs.length = c.pairIndex ∧
      ∃ asked, (c.movePairAsking d pairs resolve).run [] = (c.movePair d pairs resolve, asked) ∧
        asked.length ≤ pairs.length := by
  refine ⟨?_, PairSet.ahead_total h.pairIndex_lt, ?_⟩
  · rw [movePair_eq_arrive]
    exact lands_arrive h d fun p => passes_iff
  · obtain ⟨asked, hrun, hasked⟩ := PairSet.run_seekAsking? (s := pairs)
      (answers_passesAsking c.filter resolve) c.pairIndex d
    refine ⟨asked, ?_, length_asked_le h.pairIndex_lt hasked⟩
    rw [movePair_eq_arrive, movePairAsking, StateT.run_bind, hrun]
    rfl

/-- Four segments, of which the first one causes the others, and a cursor on the pair of the second
and the third one. -/
def fromFirst (p : Pair) : ResolvedRelation :=
  if p.low = 0 then { leftToRight := some ⟨"cause", none⟩ } else {}

/-- A cursor on the combination of the two middle ones of four segments, with a filter. -/
def onMiddle : Cursor := ⟨1, 2, 3, some ⟨"cause", none⟩⟩

/-- That cursor is on a candidate, so searches from it are covered. -/
theorem on_onMiddle : onMiddle.On (.combinations 4) := ⟨⟨1, 2, by decide⟩, by decide, by decide⟩

/-- Forward the next cause is behind the end of the list. -/
theorem movePair_lands_on_first :
    onMiddle.On (.combinations 4) ∧
      Lands onMiddle (.combinations 4) .next (fun p => (fromFirst p).Carries onMiddle.filter)
        (onMiddle.movePair .next (.combinations 4) fromFirst) ∧
      (onMiddle.movePair .next (.combinations 4) fromFirst).2 =
        ⟨0, 1, 0, some ⟨"cause", none⟩⟩ := by
  have hon : onMiddle.On (PairSet.combinations 4).candidates := on_onMiddle
  exact ⟨hon, (movePair_lands_nearest hon .next fromFirst).1, by decide⟩

/-- **A jump lands on the nearest candidate ahead that is not completed** and carries the tag asked
for, counted from the one behind the cursor to the cursor's own.  Where there is none it stays, and
it gives up early only when every candidate is completed.  It asks for the relations of as many
pairs as there are candidates at most. -/
theorem jump_lands_nearest (h : c.On pairs.candidates)
    (hcompleted : ∀ p ∈ pairs.completed, p ∈ pairs.toList) (resolve : Pair → ResolvedRelation) :
    Lands c pairs .next (fun p => pairs.isCompleted p = false ∧ (resolve p).Carries c.filter)
        (c.jumpToNextIncomplete pairs resolve) ∧
      (pairs.isFullyCompleted = true ↔ ∀ p ∈ pairs.toList, pairs.isCompleted p = true) ∧
      ahead pairs.length c.pairIndex .next pairs.length = c.pairIndex ∧
      ∃ asked, (c.jumpAsking pairs resolve).run [] = (c.jumpToNextIncomplete pairs resolve, asked) ∧
        asked.length ≤ pairs.length := by
  have hfull := PairSet.isFullyCompleted_iff hcompleted
  have hempty : pairs.isEmpty = false := by
    have hlt : c.pairIndex < pairs.length := h.pairIndex_lt
    rw [PairSet.isEmpty, beq_eq_false_iff_ne]
    omega
  refine ⟨?_, hfull, PairSet.ahead_total h.pairIndex_lt, ?_⟩
  · cases hall : pairs.isFullyCompleted with
    | true =>
      -- Every candidate is completed, so none is wanted.
      constructor
      · rintro ⟨p, hp, hopen, -⟩
        rw [hfull.1 hall p hp] at hopen
        cases hopen
      · intro _
        rw [jumpToNextIncomplete, hall, Bool.or_true, if_pos rfl]
        exact h.stays
    | false =>
      rw [jumpToNextIncomplete_eq_arrive c resolve (by rw [hempty, hall]; rfl)]
      refine lands_arrive h .next fun p => ?_
      rw [Bool.and_eq_true, Bool.not_eq_true', passes_iff]
  · cases hall : pairs.isFullyCompleted with
    | true =>
      refine ⟨[], ?_, Nat.zero_le _⟩
      rw [jumpAsking, jumpToNextIncomplete, hall, Bool.or_true, if_pos rfl, if_pos rfl]
      rfl
    | false =>
      obtain ⟨asked, hrun, hasked⟩ := PairSet.run_seekAsking? (s := pairs)
        (answers_openAsking pairs c.filter resolve) c.pairIndex .next
      refine ⟨asked, ?_, length_asked_le h.pairIndex_lt hasked⟩
      rw [jumpToNextIncomplete_eq_arrive c resolve (by rw [hempty, hall]; rfl), jumpAsking, hempty,
        hall, Bool.or_false, if_neg Bool.false_ne_true, StateT.run_bind, hrun]
      rfl

/-- With the first pair completed, the next cause is one further on. -/
theorem jump_lands_on_second :
    let pairs := (PairSet.combinations 4).markCompleted ⟨0, 1, by decide⟩
    onMiddle.On pairs.candidates ∧ (∀ p ∈ pairs.completed, p ∈ pairs.toList) ∧
      Lands onMiddle pairs .next
        (fun p => pairs.isCompleted p = false ∧ (fromFirst p).Carries onMiddle.filter)
        (onMiddle.jumpToNextIncomplete pairs fromFirst) ∧
      (onMiddle.jumpToNextIncomplete pairs fromFirst).2 = ⟨0, 2, 1, some ⟨"cause", none⟩⟩ := by
  intro pairs
  have hcompleted : ∀ p ∈ pairs.completed, p ∈ pairs.toList := by decide
  exact ⟨on_onMiddle, hcompleted, (jump_lands_nearest on_onMiddle hcompleted fromFirst).1,
    by decide⟩

end Cursor
end PairAnnotation
