/-
# Back and forth among the pairs

Moves to another pair go round the circle of the candidates that pass the filter, in
the order of the candidates (`goesRound_stepPair`).  They leave the filter as it is, so
where the pair under the cursor passes it, as many moves back as forth lead back to
that pair, and as many moves as there are passing candidates come by each of them once
and end where they began (`stepPair_back_and_round`).
-/

import PairAnnotation.Proofs.Cursor.Nearest

namespace PairAnnotation
namespace Cursor

open PairSet (GoesRound tour turn)

variable {pairs : PairSet} {c : Cursor} {resolve : Pair → ResolvedRelation}

/-- The cursor after a move to another pair, without the answer that the move gives. -/
def stepPair (pairs : PairSet) (resolve : Pair → ResolvedRelation) (d : Direction) (c : Cursor) :
    Cursor :=
  (c.movePair d pairs resolve).2

/-- The candidates that pass a filter, in the order of the set; without a filter these are all of
them. -/
def passing (pairs : PairSet) (filter : Option Tag) (resolve : Pair → ResolvedRelation) :
    List Pair :=
  pairs.toList.filter (passes filter resolve)

/-- A pair passes the filter once, as it is a candidate once. -/
theorem nodup_passing (pairs : PairSet) (filter : Option Tag) (resolve : Pair → ResolvedRelation) :
    (passing pairs filter resolve).Nodup :=
  pairs.candidates.nodup_toList.filter _

/-- What a move may stop at are the candidates that carry the tag of the filter, or all of them
without a filter. -/
theorem mem_passing {filter : Option Tag} {p : Pair} :
    p ∈ passing pairs filter resolve ↔ p ∈ pairs.toList ∧ (resolve p).Carries filter := by
  rw [passing, List.mem_filter, passes_iff]

@[simp]
theorem filter_stepPair (d : Direction) (c : Cursor) :
    (stepPair pairs resolve d c).filter = c.filter := by
  unfold stepPair movePair
  split <;> rfl

/-- **A move leads to the neighbour among the candidates that pass the filter.** -/
theorem pair?_stepPair (h : c.On pairs.candidates) (d : Direction) {r : Nat}
    (hr : r < (passing pairs c.filter resolve).length)
    (hat : c.pair? = (passing pairs c.filter resolve)[r]?) :
    (stepPair pairs resolve d c).pair? =
      (passing pairs c.filter resolve)[turn (passing pairs c.filter resolve).length d r]? := by
  obtain ⟨p, hget, hp⟩ := h
  have hlist : pairs.toList[c.pairIndex]? = some p :=
    (Candidates.getElem?_toList pairs.candidates _).trans hget
  have hfind : (tour pairs.toList c.pairIndex d).find? (passes c.filter resolve) =
      (passing pairs c.filter resolve)[turn (passing pairs c.filter resolve).length d r]? :=
    PairSet.find?_tour d pairs.candidates.nodup_toList hlist (hat ▸ hp)
  have hturn := PairSet.turn_lt (Nat.zero_lt_of_lt hr) d r
  rw [← PairSet.pair_seek? d _ (Candidates.lt_length_of_get? hget)] at hfind
  rw [← hfind, stepPair, movePair]
  cases hseek : pairs.seek? c.pairIndex d (passes c.filter resolve) with
  | some place => exact Pair.of?_members place.pair
  | none =>
    rw [hseek, List.getElem?_eq_getElem hturn] at hfind
    cases hfind

/-- **Moves to another pair go round the candidates that pass the filter.** -/
theorem goesRound_stepPair (pairs : PairSet) (filter : Option Tag)
    (resolve : Pair → ResolvedRelation) :
    GoesRound (passing pairs filter resolve) pair?
      (fun c => c.On pairs.candidates ∧ c.filter = filter) (stepPair pairs resolve) where
  ready d c hc := ⟨on_movePair d resolve hc.1, (filter_stepPair d c).trans hc.2⟩
  neighbour d c r hc hr hat := by
    obtain ⟨hon, rfl⟩ := hc
    exact pair?_stepPair hon d hr hat

/-- **Moves back undo moves forth, and a whole round comes by every pair that passes once.**  The
cursor is on a candidate that carries the tag asked for, or no tag is asked for.  Any number of
moves in one direction and as many in the other one lead back to its position and its pair.  As many
moves in one direction as there are candidates that carry the tag come by each of them once, and
lead back too. -/
theorem stepPair_back_and_round (h : c.On pairs.candidates) (resolve : Pair → ResolvedRelation)
    (hcarries : ∀ p, c.pair? = some p → (resolve p).Carries c.filter) :
    (∀ d k,
      let back := (stepPair pairs resolve d.opposite)^[k] ((stepPair pairs resolve d)^[k] c)
      back.pairIndex = c.pairIndex ∧ back.pair? = c.pair?) ∧
    ∃ matching : List Pair, matching.Nodup ∧
      (∀ p, p ∈ matching ↔ p ∈ pairs.toList ∧ (resolve p).Carries c.filter) ∧
      ∀ d,
        ((List.range matching.length).map fun k =>
          ((stepPair pairs resolve d)^[k + 1] c).pair?).Perm (matching.map some) ∧
        let round := (stepPair pairs resolve d)^[matching.length] c
        round.pairIndex = c.pairIndex ∧ round.pair? = c.pair? := by
  have hround := goesRound_stepPair pairs c.filter resolve
  have hready : c.On pairs.candidates ∧ c.filter = c.filter := ⟨h, rfl⟩
  obtain ⟨p, hmem, hp⟩ := h.mem_toList
  obtain ⟨r, hr, hget⟩ := List.getElem_of_mem (mem_passing.2 ⟨hmem, hcarries p hp⟩)
  have hat : c.pair? = (passing pairs c.filter resolve)[r]? := by
    rw [hp, List.getElem?_eq_getElem hr, hget]
  constructor
  · intro d k
    have hback := hround.at?_back d hready hr hat k
    have hon := hround.ready_iterate d.opposite (hround.ready_iterate d hready k) k
    exact ⟨h.pairIndex_eq hon.1 hback, hback⟩
  · refine ⟨passing pairs c.filter resolve, nodup_passing _ _ _, fun p => mem_passing, fun d => ?_⟩
    have hback := hround.at?_round d hready hr hat
    have hon := hround.ready_iterate d hready (passing pairs c.filter resolve).length
    exact ⟨hround.visits_perm d hready hr hat, h.pairIndex_eq hon.1 hback, hback⟩

/-- A cursor on the pair of the first and the third one of four segments, the third one on the
left. -/
def onFirstCause : Cursor := ⟨2, 0, 1, some ⟨"cause", none⟩⟩

/-- Three pairs carry the tag; two moves forward go over the end of the list, and two moves back
lead to the pair again. -/
theorem stepPair_back_and_round_four :
    let pairs := PairSet.combinations 4
    onFirstCause.On pairs.candidates ∧
      (∀ p, onFirstCause.pair? = some p → (fromFirst p).Carries onFirstCause.filter) ∧
      (stepPair pairs fromFirst .next)^[2] onFirstCause = ⟨0, 1, 0, some ⟨"cause", none⟩⟩ ∧
      ((stepPair pairs fromFirst .previous)^[2]
        ((stepPair pairs fromFirst .next)^[2] onFirstCause)).pair? = onFirstCause.pair? := by
  intro pairs
  have hon : onFirstCause.On pairs.candidates := ⟨⟨0, 2, by decide⟩, by decide, by decide⟩
  have hcarries : ∀ p, onFirstCause.pair? = some p →
      (fromFirst p).Carries onFirstCause.filter := by
    intro p hp
    obtain rfl : (⟨0, 2, by decide⟩ : Pair) = p := Option.some.inj hp
    intro tag htag
    exact .inr htag
  exact ⟨hon, hcarries, by decide,
    ((stepPair_back_and_round hon fromFirst hcarries).1 .next 2).2⟩

end Cursor
end PairAnnotation
