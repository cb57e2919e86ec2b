/-
# One side among its partners

While one side of the cursor stays where it is, the other side moves among the segments
that are paired with it, its partners.  These are what is eligible beside the fixed side
without the fixed side itself: in ascending order, exactly the segments that make a
candidate together with it (`mem_partners`).  The search for the next greater or next
smaller number in this list finds the neighbour on the circle of the partners
(`neighbourIn?_eq_turn`), and its pair with the fixed side has a position.  So the moves
of one side go round the circle of its partners (`goesRound_stepSegment`).
-/

import PairAnnotation.Proofs.Cursor.BackAndForth

namespace PairAnnotation

namespace Cursor

open PairSet (GoesRound tour turn)

variable {pairs : PairSet} {c : Cursor}

/-! ### Partners -/

/-- The segments that one side may move among while the other one stays at `fixed`. -/
def partners (pairs : PairSet) (fixed : Nat) : List Nat :=
  (pairs.eligible fixed).filter (· ≠ fixed)

/-- The partners of a segment ascend, so each is there once. -/
theorem pairwise_partners (pairs : PairSet) (fixed : Nat) :
    (partners pairs fixed).Pairwise (· < ·) :=
  (pairs.candidates.pairwise_eligible fixed).filter _

/-- **The partners of a side** are what makes a candidate together with it. -/
theorem mem_partners {fixed i : Nat}
    (hfixed : ∃ j, ∃ p ∈ pairs.toList, Pair.of? j fixed = some p) :
    i ∈ partners pairs fixed ↔ ∃ p ∈ pairs.toList, Pair.of? i fixed = some p := by
  have heligible : i ∈ pairs.eligible fixed ↔
      i = fixed ∨ ∃ p ∈ pairs.toList, Pair.of? i fixed = some p :=
    Candidates.mem_eligible_iff hfixed
  rw [partners, List.mem_filter, heligible]
  simp only [decide_eq_true_eq]
  constructor
  · rintro ⟨rfl | h, hne⟩
    · exact absurd rfl hne
    · exact h
  · rintro ⟨p, hp, hi⟩
    refine ⟨.inr ⟨p, hp, hi⟩, ?_⟩
    rintro rfl
    simp at hi

/-! ### The neighbour in an ascending list -/

/-- Where everything is wanted, a search finds what stands first. -/
theorem find?_eq_head? {α : Type} {l : List α} {wanted : α → Bool}
    (h : ∀ a ∈ l, wanted a = true) : l.find? wanted = l.head? := by
  rw [← List.head?_filter, List.filter_eq_self.2 h]

/-- **The next greater number, or else the first one, is the neighbour behind**; the next smaller
one, or else the last one, the neighbour before. -/
theorem neighbourIn?_eq_turn {l : List Nat} (hl : l.Pairwise (· < ·)) (d : Direction)
    {rank moving : Nat} (hrank : l[rank]? = some moving) :
    neighbourIn? l moving d = l[turn l.length d rank]? := by
  obtain ⟨hlt, -⟩ := List.getElem?_eq_some_iff.1 hrank
  rw [← PairSet.head?_tour d hlt]
  obtain ⟨before, after, rfl, rfl⟩ := PairSet.exists_split hrank
  obtain ⟨-, hafter, hbefore⟩ := List.pairwise_append.1 hl
  have hgreater : ∀ a ∈ after, moving < a := (List.pairwise_cons.1 hafter).1
  have hsmaller : ∀ b ∈ before, b < moving := fun b hb => hbefore b hb moving List.mem_cons_self
  cases d with
  | next =>
    have hnone : before.find? (moving < ·) = none := by
      rw [List.find?_eq_none]
      intro b hb
      have := hsmaller b hb
      simp
      omega
    have hfirst : after.find? (moving < ·) = after.head? :=
      find?_eq_head? fun a ha => decide_eq_true (hgreater a ha)
    rw [neighbourIn?, PairSet.tour_next_append]
    simp [List.find?_append, hnone, hfirst, List.head?_append]
  | previous =>
    have hnone : after.reverse.find? (· < moving) = none := by
      rw [List.find?_eq_none]
      intro a ha
      have := hgreater a (List.mem_reverse.1 ha)
      simp
      omega
    have hlast : before.reverse.find? (· < moving) = before.reverse.head? :=
      find?_eq_head? fun b hb => decide_eq_true (hsmaller b (List.mem_reverse.1 hb))
    have hreverse : (before ++ moving :: after).reverse =
        after.reverse ++ moving :: before.reverse := by
      simp
    rw [neighbourIn?, PairSet.tour_previous_append, ← List.head?_reverse, hreverse]
    simp [List.find?_append, hnone, hlast, List.head?_append]

/-! ### Moves of one side -/

/-- The cursor after a move of one side, without the answer that the move gives. -/
def stepSegment (pairs : PairSet) (side : Side) (d : Direction) (c : Cursor) : Cursor :=
  (c.moveSegment side d pairs).2

/-- **What a move of one side does** when it leads to a segment. -/
structure SideMoves (c : Cursor) (pairs : PairSet) (side : Side) (d : Direction) (target : Nat) :
    Prop where
  /-- The search among the others that are eligible finds the segment. -/
  found : neighbourIn? ((pairs.eligible (c.opposite side)).filter (· ≠ c.opposite side))
    (c.segmentOn side) d = some target
  /-- The pair of the segment and the fixed side is a candidate, so its position is found too. -/
  located : ∃ position, (Pair.of? target (c.opposite side)).bind pairs.position? = some position ∧
    c.moveSegment side d pairs = (target, c.put side target position)
  /-- The fixed side is not landed on. -/
  ne_opposite : target ≠ c.opposite side
  /-- The side that moves is on the segment. -/
  moved : (stepSegment pairs side d c).segmentOn side = target
  opposite : (stepSegment pairs side d c).opposite side = c.opposite side
  filter : (stepSegment pairs side d c).filter = c.filter
  /-- The position is that of the pair of the two sides. -/
  on : (stepSegment pairs side d c).On pairs.candidates

/-- The pair under a cursor has the segment of either side as its one member, and the opposite one
as the other. -/
theorem On.exists_of_opposite (h : c.On pairs.candidates) (side : Side) :
    ∃ p ∈ pairs.toList, Pair.of? (c.segmentOn side) (c.opposite side) = some p := by
  obtain ⟨p, hmem, hp⟩ := h.mem_toList
  exact ⟨p, hmem, (c.pair?_eq_of? side).symm.trans hp⟩

/-- **A side moves to the neighbour among its partners**, and none of the checks on the way stops
it. -/
theorem sideMoves (h : c.On pairs.candidates) (side : Side) (d : Direction) {rank target : Nat}
    (hrank : (partners pairs (c.opposite side))[rank]? = some (c.segmentOn side))
    (htarget : (partners pairs (c.opposite side))[
      turn (partners pairs (c.opposite side)).length d rank]? = some target) :
    SideMoves c pairs side d target := by
  have hfixed : ∃ j, ∃ p ∈ pairs.toList, Pair.of? j (c.opposite side) = some p :=
    ⟨c.segmentOn side, h.exists_of_opposite side⟩
  have hmem : target ∈ partners pairs (c.opposite side) := List.mem_of_getElem? htarget
  obtain ⟨p, hp, hof⟩ := (mem_partners hfixed).1 hmem
  obtain ⟨position, hget⟩ := Candidates.mem_toList_iff.1 hp
  have hposition : pairs.position? p = some position := Candidates.position?_eq_some_iff.2 hget
  have hfound : neighbourIn? (partners pairs (c.opposite side)) (c.segmentOn side) d =
      some target :=
    (neighbourIn?_eq_turn (pairwise_partners pairs _) d hrank).trans htarget
  have hlocated : (Pair.of? target (c.opposite side)).bind pairs.position? = some position := by
    rw [hof, Option.bind_some, hposition]
  have hmove : c.moveSegment side d pairs = (target, c.put side target position) := by
    unfold partners at hfound
    simp only [moveSegment, hfound, hlocated]
  have hstep : stepSegment pairs side d c = c.put side target position := congrArg Prod.snd hmove
  exact {
    found := hfound
    located := ⟨position, hlocated, hmove⟩
    ne_opposite := by
      rintro rfl
      simp at hof
    moved := by rw [hstep, segmentOn_put]
    opposite := by rw [hstep, opposite_put]
    filter := by rw [hstep, filter_put]
    on := by
      rw [hstep]
      exact c.on_put side hof hposition }

/-- On a candidate, either side is among the partners of the other one. -/
theorem On.exists_rank (h : c.On pairs.candidates) (side : Side) :
    ∃ rank < (partners pairs (c.opposite side)).length,
      some (c.segmentOn side) = (partners pairs (c.opposite side))[rank]? := by
  have hpair := h.exists_of_opposite side
  obtain ⟨rank, hlt, hrank⟩ := List.getElem_of_mem ((mem_partners ⟨_, hpair⟩).2 hpair)
  exact ⟨rank, hlt, by rw [List.getElem?_eq_getElem hlt, hrank]⟩

/-- **Moves of one side go round its partners**, in ascending order and from the last one to the
first, while the other side stays. -/
theorem goesRound_stepSegment (pairs : PairSet) (side : Side) (fixed : Nat)
    (filter : Option Tag) :
    GoesRound (partners pairs fixed) (fun c => some (c.segmentOn side))
      (fun c => c.On pairs.candidates ∧ c.opposite side = fixed ∧ c.filter = filter)
      (stepSegment pairs side) where
  ready d c hc := by
    obtain ⟨hon, rfl, rfl⟩ := hc
    obtain ⟨rank, hlt, hrank⟩ := hon.exists_rank side
    have hturn := PairSet.turn_lt (Nat.zero_lt_of_lt hlt) d rank
    have hmoves := sideMoves hon side d hrank.symm (List.getElem?_eq_getElem hturn)
    exact ⟨hmoves.on, hmoves.opposite, hmoves.filter⟩
  neighbour d c rank hc hlt hrank := by
    obtain ⟨hon, rfl, rfl⟩ := hc
    have hturn := PairSet.turn_lt (Nat.zero_lt_of_lt hlt) d rank
    have hmoves := sideMoves hon side d hrank.symm (List.getElem?_eq_getElem hturn)
    rw [hmoves.moved, List.getElem?_eq_getElem hturn]

/-- On a candidate, a cursor is told by its two sides and its filter. -/
theorem On.eq_of_sides {candidates : Candidates} {c c' : Cursor} (h : c.On candidates)
    (h' : c'.On candidates) (side : Side) (hsegment : c'.segmentOn side = c.segmentOn side)
    (hopposite : c'.opposite side = c.opposite side) (hfilter : c'.filter = c.filter) : c' = c := by
  have hpair : c'.pair? = c.pair? := by
    rw [c'.pair?_eq_of? side, c.pair?_eq_of? side, hsegment, hopposite]
  have hposition := h.pairIndex_eq h' hpair
  obtain ⟨left, right, position, filter⟩ := c
  obtain ⟨left', right', position', filter'⟩ := c'
  cases side with
  | left => simp_all [segmentOn, opposite]
  | right => simp_all [segmentOn, opposite]

/-- **Moves of one side cycle through its partners.**  The partners of the side are, in ascending
order, the segments that make a candidate together with the other side, and the side is one of them.
A move leads it to the neighbour on the circle of its partners, and does nothing but that
(`SideMoves`).  As many moves back as forth restore the cursor, and as many moves as there are
partners come by each of them once and restore it too. -/
theorem stepSegment_cycles (h : c.On pairs.candidates) (side : Side) :
    ∃ partners : List Nat, ∃ rank,
      partners.Pairwise (· < ·) ∧
      (∀ i, i ∈ partners ↔ ∃ p ∈ pairs.toList, Pair.of? i (c.opposite side) = some p) ∧
      partners[rank]? = some (c.segmentOn side) ∧
      (∀ d, ∃ target, partners[turn partners.length d rank]? = some target ∧
        SideMoves c pairs side d target) ∧
      (∀ d k, (stepSegment pairs side d.opposite)^[k] ((stepSegment pairs side d)^[k] c) = c) ∧
      ∀ d,
        ((List.range partners.length).map fun k =>
          ((stepSegment pairs side d)^[k + 1] c).segmentOn side).Perm partners ∧
        (stepSegment pairs side d)^[partners.length] c = c := by
  obtain ⟨rank, hlt, hrank⟩ := h.exists_rank side
  have hround := goesRound_stepSegment pairs side (c.opposite side) c.filter
  have hready : c.On pairs.candidates ∧ c.opposite side = c.opposite side ∧ c.filter = c.filter :=
    ⟨h, rfl, rfl⟩
  refine ⟨partners pairs (c.opposite side), rank, pairwise_partners pairs _,
    fun i => mem_partners ⟨_, h.exists_of_opposite side⟩, hrank.symm, ?_, ?_, ?_⟩
  · intro d
    have hturn := PairSet.turn_lt (Nat.zero_lt_of_lt hlt) d rank
    have htarget := List.getElem?_eq_getElem hturn
    exact ⟨_, htarget, sideMoves h side d hrank.symm htarget⟩
  · intro d k
    have hback := hround.at?_back d hready hlt hrank k
    obtain ⟨hon, hopposite, hfilter⟩ :=
      hround.ready_iterate d.opposite (hround.ready_iterate d hready k) k
    exact h.eq_of_sides hon side (Option.some.inj hback) hopposite hfilter
  · intro d
    have hvisits := hround.visits_perm d hready hlt hrank
    have hback := hround.at?_round d hready hlt hrank
    obtain ⟨hon, hopposite, hfilter⟩ := hround.ready_iterate d hready _
    constructor
    · refine (List.map_perm_map_iff (Option.some_injective Nat)).1 ?_
      rwa [List.map_map]
    · exact h.eq_of_sides hon side (Option.some.inj hback) hopposite hfilter

/-- Four listed pairs, three of them with the segment 4, and a cursor on one of these with its
greater index on the left. -/
def listedPairs : PairSet :=
  .ofPairs [⟨1, 4, by decide⟩, ⟨0, 4, by decide⟩, ⟨2, 4, by decide⟩, ⟨0, 2, by decide⟩]

/-- A cursor that reads its pair from right to left, in a set of listed pairs. -/
def onListed : Cursor := ⟨4, 2, 2, none⟩

/-- The right side goes from the last partner of 4 on to the first one, and back to the one in the
middle. -/
theorem stepSegment_cycles_listed :
    onListed.On listedPairs.candidates ∧
      (∃ partners : List Nat, partners = [0, 1, 2] ∧
        ((List.range partners.length).map fun k =>
          ((stepSegment listedPairs .right .next)^[k + 1] onListed).segmentOn .right).Perm
            partners) ∧
      stepSegment listedPairs .right .next onListed = ⟨4, 0, 1, none⟩ ∧
      stepSegment listedPairs .right .previous onListed = ⟨4, 1, 0, none⟩ := by
  have hon : onListed.On listedPairs.candidates := ⟨⟨2, 4, by decide⟩, by decide, by decide⟩
  obtain ⟨partners, rank, hascending, hmem, -, -, -, hround⟩ := stepSegment_cycles hon .right
  have hwith : ∀ i, (∃ p ∈ listedPairs.toList, Pair.of? i 4 = some p) ↔ i ∈ [0, 1, 2] := by
    intro i
    constructor
    · rintro ⟨p, hp, hi⟩
      have hall : ∀ q ∈ listedPairs.toList, q.high = 4 ∧ q.low < 3 ∨ q.high = 2 := by decide
      have := hall p hp
      simp only [List.mem_cons, List.not_mem_nil, or_false]
      rcases Pair.of?_eq_some_iff.1 hi with h | h <;> omega
    · intro hi
      have hall : ∀ j ∈ [0, 1, 2], ∃ p ∈ listedPairs.toList, Pair.of? j 4 = some p := by decide
      exact hall i hi
  have hpartners : partners = [0, 1, 2] :=
    hascending.eq_of_mem_iff (by decide) fun i => (hmem i).trans (hwith i)
  exact ⟨hon, ⟨partners, hpartners, (hround .next).1⟩, by decide, by decide⟩

end Cursor
end PairAnnotation
