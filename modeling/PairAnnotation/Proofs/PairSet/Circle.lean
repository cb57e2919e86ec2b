/-
# Turning round a circle

The stops of a list, the last one followed by the first one, form a circle.  One turn
leads from the rank of a stop to that of its neighbour (`PairSet.turn`).  Turns in one
direction add up strides (`iterate_turn`): turning back as often leads to where they
started (`iterate_turn_opposite`), and so do as many turns as there are stops
(`iterate_turn_total`).

A tour is what the turns from a stop meet, one after the other, until they are back
(`getElem?_tour`).  It meets every stop once, and what remains of it when unwanted
stops are left out is the tour of the others, as long as the stop it started from
remains (`filter_tour`).

Any move that leads from one stop to its neighbour goes round the circle
(`GoesRound`): moves back undo moves forth, and a whole round comes by every stop once.
-/

import Mathlib.Data.List.Rotate
import Mathlib.Logic.Function.Iterate
import Mathlib.Tactic.Ring
import PairAnnotation.Proofs.PairSet.Lap

namespace PairAnnotation

/-- The other way round, by which a move is undone. -/
def Direction.opposite : Direction → Direction
  | .next => .previous
  | .previous => .next

namespace PairSet

/-! ### Turns -/

/-- How far one step goes forward, in either direction: one stop, or all but one. -/
def stride (total : Nat) : Direction → Nat
  | .next => 1
  | .previous => total - 1

variable {total i : Nat}

/-- A turn in either direction is a number of steps forward on the circle. -/
theorem turn_eq_stride (d : Direction) (h : i < total) :
    turn total d i = (i + stride total d) % total := by
  cases d with
  | next => rfl
  | previous => rw [turn, stride, Nat.add_sub_assoc (Nat.zero_lt_of_lt h)]

/-- A stride forth and one back make a whole turn. -/
theorem stride_add_opposite (d : Direction) (h : 0 < total) :
    stride total d + stride total d.opposite = total := by
  cases d <;> simp only [stride, Direction.opposite] <;> omega

/-- **Turns add up strides**: after some turns the position is so many strides ahead, counted round
the circle. -/
theorem iterate_turn (d : Direction) (h : i < total) (k : Nat) :
    (turn total d)^[k] i = (i + k * stride total d) % total := by
  induction k with
  | zero => simp [Nat.mod_eq_of_lt h]
  | succ k ih =>
    have hlt : (i + k * stride total d) % total < total := Nat.mod_lt _ (by omega)
    rw [Function.iterate_succ_apply', ih, turn_eq_stride d hlt, Nat.mod_add_mod, Nat.add_assoc,
      Nat.succ_mul]

/-- Turning from a position of the circle stays on the circle, however often it is done. -/
theorem iterate_turn_lt (d : Direction) (h : i < total) (k : Nat) :
    (turn total d)^[k] i < total := by
  rw [iterate_turn d h]
  exact Nat.mod_lt _ (by omega)

/-- **As many turns as there are stops lead back** to the stop where they started, in either
direction. -/
theorem iterate_turn_total (d : Direction) (h : i < total) : (turn total d)^[total] i = i := by
  rw [iterate_turn d h, Nat.add_mul_mod_self_left, Nat.mod_eq_of_lt h]

/-- **Turning back undoes turning forth**, however many turns there were. -/
theorem iterate_turn_opposite (d : Direction) (h : i < total) (k : Nat) :
    (turn total d.opposite)^[k] ((turn total d)^[k] i) = i := by
  have hround : k * stride total d + k * stride total d.opposite = total * k := by
    rw [← Nat.mul_add, stride_add_opposite d (by omega), Nat.mul_comm]
  rw [iterate_turn d.opposite (iterate_turn_lt d h k), iterate_turn d h, Nat.mod_add_mod,
    Nat.add_assoc, hround, Nat.add_mul_mod_self_left, Nat.mod_eq_of_lt h]

/-! ### Tours -/

section Tour

variable {α β : Type} {stops : List α} {rank : Nat}

/-- The stops of a circle as turns from the stop of a rank meet them, that stop last. -/
def tour (stops : List α) (rank : Nat) : Direction → List α
  | .next => stops.rotate (rank + 1)
  | .previous => (stops.rotate rank).reverse

/-- **A tour meets every stop once**: its stops are those of the circle in another order. -/
theorem tour_perm (stops : List α) (rank : Nat) (d : Direction) :
    (tour stops rank d).Perm stops := by
  cases d with
  | next => exact List.rotate_perm _ _
  | previous => exact (List.reverse_perm _).trans (List.rotate_perm _ _)

/-- A tour has all stops of the circle, the one where it starts included. -/
theorem length_tour (stops : List α) (rank : Nat) (d : Direction) :
    (tour stops rank d).length = stops.length :=
  (tour_perm stops rank d).length_eq

/-- A tour of images is the image of the tour, since a tour goes by positions alone. -/
theorem map_tour (f : α → β) (stops : List α) (rank : Nat) (d : Direction) :
    (tour stops rank d).map f = tour (stops.map f) rank d := by
  cases d with
  | next => exact List.map_rotate _ _ _
  | previous => simp only [tour, List.map_reverse, List.map_rotate]

/-- **A tour goes by turns**: its stops are those at the positions that turn after turn leads to. -/
theorem getElem?_tour (d : Direction) (hrank : rank < stops.length) {k : Nat}
    (hk : k < stops.length) :
    (tour stops rank d)[k]? = stops[(turn stops.length d)^[k + 1] rank]? := by
  rw [iterate_turn d hrank]
  cases d with
  | next =>
    rw [tour, List.getElem?_rotate hk, stride, Nat.mul_one, Nat.add_left_comm]
  | previous =>
    obtain ⟨w, hw⟩ := Nat.exists_eq_add_of_lt hk
    -- One step back after another is forward by what is left, up to whole turns.
    have hturns : rank + (k + 1) * (stops.length - 1) =
        stops.length - 1 - k + rank + k * stops.length := by
      rw [hw, Nat.add_sub_cancel, show k + w - k = w by omega]
      ring
    have hlength : (stops.rotate rank).length = stops.length := List.length_rotate _ _
    rw [tour, List.getElem?_reverse (by omega), hlength, List.getElem?_rotate (by omega), stride,
      hturns, Nat.add_mul_mod_self_right]

/-- The first stop of a tour is the neighbour of the stop it starts from. -/
theorem head?_tour (d : Direction) (hrank : rank < stops.length) :
    (tour stops rank d).head? = stops[turn stops.length d rank]? := by
  rw [List.head?_eq_getElem?, getElem?_tour d hrank (by omega)]
  rfl

/-- The stops before that of a rank, the stop, and those behind it. -/
theorem exists_split {x : α} (h : stops[rank]? = some x) :
    ∃ before after, stops = before ++ x :: after ∧ before.length = rank := by
  obtain ⟨hlt, rfl⟩ := List.getElem?_eq_some_iff.1 h
  exact ⟨stops.take rank, stops.drop (rank + 1), by simp, by simp; omega⟩

/-- Forward, a tour meets what is behind its start and then what is before it. -/
theorem tour_next_append (before after : List α) (x : α) :
    tour (before ++ x :: after) before.length .next = after ++ (before ++ [x]) := by
  have hsplit : before ++ x :: after = (before ++ [x]) ++ after := by simp
  have hlength : before.length + 1 = (before ++ [x]).length := by simp
  rw [tour, hsplit, hlength, List.rotate_append_length_eq]

/-- Backward, it meets what is before its start and then what is behind it, from the end. -/
theorem tour_previous_append (before after : List α) (x : α) :
    tour (before ++ x :: after) before.length .previous =
      before.reverse ++ (after.reverse ++ [x]) := by
  rw [tour, List.rotate_append_length_eq]
  simp

/-- **Leaving out unwanted stops leaves the tour of the others.** -/
theorem filter_tour {wanted : α → Bool} (d : Direction) (before after : List α) {x : α}
    (hx : wanted x = true) :
    (tour (before ++ x :: after) before.length d).filter wanted =
      tour ((before ++ x :: after).filter wanted) (before.filter wanted).length d := by
  have hsplit : (before ++ x :: after).filter wanted =
      before.filter wanted ++ x :: after.filter wanted := by
    simp [hx]
  rw [hsplit]
  cases d with
  | next => simp [tour_next_append, hx]
  | previous => simp [tour_previous_append, hx]

/-- **The first wanted stop of a tour is the neighbour among the wanted ones.** -/
theorem find?_tour {wanted : α → Bool} (d : Direction) (hnodup : stops.Nodup) {x : α} {r : Nat}
    (hrank : stops[rank]? = some x) (hr : (stops.filter wanted)[r]? = some x) :
    (tour stops rank d).find? wanted =
      (stops.filter wanted)[turn (stops.filter wanted).length d r]? := by
  obtain ⟨before, after, rfl, rfl⟩ := exists_split hrank
  have hx : wanted x = true := (List.mem_filter.1 (List.mem_of_getElem? hr)).2
  have hplace :
      ((before ++ x :: after).filter wanted)[(before.filter wanted).length]? = some x := by
    simp [hx]
  -- Without repetition, the rank of the start among the wanted stops is how many lie before it.
  obtain ⟨hlt, -⟩ := List.getElem?_eq_some_iff.1 hr
  have hrank : r = (before.filter wanted).length :=
    (List.getElem?_inj hlt (hnodup.filter _)).1 (hr.trans hplace.symm)
  rw [← List.head?_filter, filter_tour d before after hx, ← hrank, head?_tour d hlt]

end Tour

/-! ### Moves that go round -/

/-- **A move goes round a circle** when it leads from a state that is at a stop to one that is at
the neighbour of the stop. -/
structure GoesRound {α σ : Type} (stops : List α) (at? : σ → Option α) (Ready : σ → Prop)
    (move : Direction → σ → σ) : Prop where
  ready (d : Direction) {s : σ} (hs : Ready s) : Ready (move d s)
  neighbour (d : Direction) {s : σ} {r : Nat} (hs : Ready s) (hr : r < stops.length)
    (hat : at? s = stops[r]?) : at? (move d s) = stops[turn stops.length d r]?

namespace GoesRound

variable {α σ : Type} {stops : List α} {at? : σ → Option α} {Ready : σ → Prop}
  {move : Direction → σ → σ} {s : σ} {r : Nat}

/-- A move that goes round can be repeated without end, since it keeps what it needs. -/
theorem ready_iterate (h : GoesRound stops at? Ready move) (d : Direction) (hs : Ready s)
    (k : Nat) : Ready ((move d)^[k] s) := by
  induction k with
  | zero => exact hs
  | succ k ih =>
    rw [Function.iterate_succ_apply']
    exact h.ready d ih

/-- **Moves are turns**: after some moves the state is at the stop to which so many turns lead. -/
theorem at?_iterate (h : GoesRound stops at? Ready move) (d : Direction) (hs : Ready s)
    (hr : r < stops.length) (hat : at? s = stops[r]?) (k : Nat) :
    at? ((move d)^[k] s) = stops[(turn stops.length d)^[k] r]? := by
  induction k with
  | zero => exact hat
  | succ k ih =>
    rw [Function.iterate_succ_apply', Function.iterate_succ_apply']
    exact h.neighbour d (h.ready_iterate d hs k) (iterate_turn_lt d hr k) ih

/-- **Moves back undo moves forth**: after as many of either kind the state is at the stop where it
was. -/
theorem at?_back (h : GoesRound stops at? Ready move) (d : Direction) (hs : Ready s)
    (hr : r < stops.length) (hat : at? s = stops[r]?) (k : Nat) :
    at? ((move d.opposite)^[k] ((move d)^[k] s)) = at? s := by
  rw [h.at?_iterate d.opposite (h.ready_iterate d hs k) (iterate_turn_lt d hr k)
    (h.at?_iterate d hs hr hat k), iterate_turn_opposite d hr, hat]

/-- **As many moves as there are stops lead back** to the stop where they started. -/
theorem at?_round (h : GoesRound stops at? Ready move) (d : Direction) (hs : Ready s)
    (hr : r < stops.length) (hat : at? s = stops[r]?) :
    at? ((move d)^[stops.length] s) = at? s := by
  rw [h.at?_iterate d hs hr hat, iterate_turn_total d hr, hat]

/-- **On the way they come by every stop once**, since they come by the stops of a tour. -/
theorem visits_perm (h : GoesRound stops at? Ready move) (d : Direction) (hs : Ready s)
    (hr : r < stops.length) (hat : at? s = stops[r]?) :
    ((List.range stops.length).map fun k => at? ((move d)^[k + 1] s)).Perm (stops.map some) := by
  have htour : (List.range stops.length).map (fun k => at? ((move d)^[k + 1] s)) =
      (tour stops r d).map some := by
    refine List.ext_getElem (by simp [length_tour]) fun k hk _ => ?_
    rw [List.length_map, List.length_range] at hk
    rw [List.getElem_map, List.getElem_range, h.at?_iterate d hs hr hat, ← getElem?_tour d hr hk,
      List.getElem_map, List.getElem?_eq_getElem]
  rw [htour]
  exact (tour_perm stops r d).map some

/-- **From anywhere, once the first move leads to a stop**, as many moves as there are stops come by
each of them once. -/
theorem exists_visits (h : GoesRound stops at? Ready move) (d : Direction) (hs : Ready s) {x : α}
    (hx : x ∈ stops) (hfirst : at? (move d s) = some x) :
    ∃ landed : List α, landed.Perm stops ∧
      ∀ k < landed.length, at? ((move d)^[k + 1] s) = landed[k]? := by
  obtain ⟨r, hr, rfl⟩ := List.getElem_of_mem hx
  have hat : at? (move d s) = stops[r]? := by rw [hfirst, List.getElem?_eq_getElem hr]
  -- The moves go on as if they had come from the stop before that one.
  have hbefore : turn stops.length d (turn stops.length d.opposite r) = r := by
    have hback := iterate_turn_opposite d.opposite hr 1
    cases d <;> exact hback
  refine ⟨tour stops (turn stops.length d.opposite r) d, tour_perm _ _ _, fun k hk => ?_⟩
  rw [length_tour] at hk
  rw [getElem?_tour d (turn_lt (by omega) _ _) hk, Function.iterate_succ_apply,
    Function.iterate_succ_apply, hbefore]
  exact h.at?_iterate d (h.ready d hs) hr hat k

end GoesRound
end PairSet
end PairAnnotation
