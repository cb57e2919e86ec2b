/-
# Candidates in words

Positions and indices are words of 64 bits, while the definitions of pair sets count
with numbers of any size.  Here every sum, difference, product and remainder that a
pair set forms is formed step by step, and there is no result as soon as one of them
leaves the words (`Word.add?`, `Word.sub?`, `Word.mul?`, `Word.mod?`).  As long as
twice the number of candidates is a word, there always is a result, and it is the
number without bound (`Word.Fits.exact`).

Two numbers have to be watched.  The product before the halving in the position of a
pair is at most `n * (n - 1)` (`Word.rowProduct_le`), and a step backwards adds the
number of candidates to a position below it.  Everything else stays below twice `n`,
and `n` is at most `2 ^ 32` (`Word.le_of_product_lt`).  A call of the iterator over a
lap keeps it on a sound place (`Word.next_eq`), so all calls together give the lap
(`Word.take_eq`).
-/

import Mathlib.Algebra.Group.Nat.Defs
import PairAnnotation.Proofs.PairSet.Listing

namespace PairAnnotation

/-- The two members of a pair, the smaller one first. -/
def Pair.members (p : Pair) : Nat × Nat := (p.low, p.high)

/-- The position of a place and the members of its pair. -/
def Place.members (x : Place) : Nat × Nat × Nat := (x.position, x.pair.members)

namespace Word

/-! ### Words -/

/-- A sum, if it is a word of 64 bits; without a result the computation stops. -/
def add? (a b : Nat) : Option Nat := if a + b < 2 ^ 64 then some (a + b) else none

/-- A difference, if it is not below zero, which no word is. -/
def sub? (a b : Nat) : Option Nat := if b ≤ a then some (a - b) else none

/-- A product, if it is a word; it may be too great although what it is divided by later is not. -/
def mul? (a b : Nat) : Option Nat := if a * b < 2 ^ 64 then some (a * b) else none

/-- A remainder, if there is one: by zero there is none. -/
def mod? (a b : Nat) : Option Nat := if b = 0 then none else some (a % b)

section

variable {α : Type} {a b : Nat} {f : Nat → Option α}

/-- A computation goes on with the sum as long as it is a word. -/
theorem add?_bind (h : a + b < 2 ^ 64) : add? a b >>= f = f (a + b) := by
  rw [add?, if_pos h]
  rfl

/-- A computation goes on with the difference as long as it is not below zero. -/
theorem sub?_bind (h : b ≤ a) : sub? a b >>= f = f (a - b) := by
  rw [sub?, if_pos h]
  rfl

/-- A computation goes on with the product as long as it is a word. -/
theorem mul?_bind (h : a * b < 2 ^ 64) : mul? a b >>= f = f (a * b) := by
  rw [mul?, if_pos h]
  rfl

theorem mod?_eq (h : 0 < b) : mod? a b = some (a % b) := if_neg (by omega)

end

/-! ### Pair sets -/

/-- The number of candidates; one is taken from `n` as long as there is one. -/
def length : Candidates → Option Nat
  | .listed pairs _ => some pairs.length
  | .combinations n => do
    let product ← mul? n (n - 1)
    some (product / 2)

/-- The combination `rest` places behind the start of the row of `low`, among so many rows. -/
def combinationFrom (n : Nat) : (low rows rest : Nat) → Option (Option Pair)
  | _, 0, _ => some none
  | low, rows + 1, rest => do
    let width ← sub? (← sub? n low) 1
    if rest < width then
      let high ← add? (← add? low 1) rest
      some (Pair.of? low high)
    else combinationFrom n (low + 1) rows (← sub? rest width)

/-- The candidate at a position, with every number on the way formed in words. -/
def get : Candidates → Nat → Option (Option Pair)
  | .listed pairs _, position => some pairs[position]?
  | .combinations n, position => combinationFrom n 0 n position

/-- The position of a pair, with every number on the way formed in words. -/
def position : Candidates → Pair → Option (Option Nat)
  | .listed pairs _, p => some (pairs.idxOf? p)
  | .combinations n, p =>
    if n ≤ p.high then some none
    else do
      let factor ← sub? (← sub? (← mul? 2 n) p.low) 1
      let product ← mul? p.low factor
      let place ← sub? (← sub? (← add? (product / 2) p.high) p.low) 1
      some (some place)

/-- The neighbour of a position on a circle of `total` positions. -/
def turn (total : Nat) : Direction → Nat → Option Nat
  | .next, position => do mod? (← add? position 1) total
  | .previous, position => do mod? (← sub? (← add? position total) 1) total

/-- The neighbour of a combination of `n` indices, with every number on the way formed in words. -/
def stepCombination (n : Nat) : Direction → Nat × Nat → Option (Nat × Nat)
  | .next, (low, high) => do
    let beside ← add? high 1
    if beside < n then some (low, beside)
    else
      let below ← add? low 2
      if below < n then some (← add? low 1, below) else some (0, 1)
  | .previous, (low, high) => do
    if (← add? low 1) < high then some (low, ← sub? high 1)
    else if 0 < low then some (← sub? low 1, ← sub? n 1)
    else some (← sub? n 2, ← sub? n 1)

/-- **The iterator over a lap**: where it stands, the pair there, and how many places are left. -/
structure Walk where
  position : Nat
  current : Option (Nat × Nat)
  remaining : Nat

/-- The iterator before its first call, at the last position if the start is behind it. -/
def walk (c : Candidates) (start : Nat) : Option Walk := do
  let total ← length c
  let position := min start (total - 1)
  let current ← get c position
  some ⟨position, current.map Pair.members, total⟩

/-- The pair beside: among combinations from the last pair, else from the position. -/
def besidePair (c : Candidates) (d : Direction) (current : Option (Nat × Nat)) (position : Nat) :
    Option (Option (Nat × Nat)) :=
  match c, current with
  | .combinations n, some current => do some (some (← stepCombination n d current))
  | _, _ => do some ((← get c position).map Pair.members)

/-- **One call**: nothing at the end of the lap, else the place beside and the iterator there. -/
def Walk.next (c : Candidates) (d : Direction) (w : Walk) :
    Option (Option ((Nat × Nat × Nat) × Walk)) :=
  if w.remaining = 0 then some none
  else do
    let remaining ← sub? w.remaining 1
    let position ← turn (← length c) d w.position
    let beside ← besidePair c d w.current position
    some (beside.map fun pair => ((position, pair), ⟨position, some pair, remaining⟩))

/-- What a number of calls give, one after the other, as long as each of them can be computed. -/
def Walk.take (c : Candidates) (d : Direction) : (calls : Nat) → Walk →
    Option (List (Nat × Nat × Nat))
  | 0, _ => some []
  | calls + 1, w => do
    match ← w.next c d with
    | none => some []
    | some (x, w) => some (x :: (← w.take c d calls))

/-- What a number of calls give from a start on. -/
def lapTake (c : Candidates) (start : Nat) (d : Direction) (calls : Nat) :
    Option (List (Nat × Nat × Nat)) := do
  (← walk c start).take c d calls

/-! ### Bounds -/

/-- Candidates are few enough: the product that counts combinations is a word, and so is twice the
number of listed pairs. -/
def Fits : Candidates → Prop
  | .listed pairs _ => 2 * pairs.length < 2 ^ 64
  | .combinations n => n * (n - 1) < 2 ^ 64

/-- So few indices that their product fits are at most `2 ^ 32`, and all sums of a few of them fit
as well. -/
theorem le_of_product_lt {n : Nat} (h : n * (n - 1) < 2 ^ 64) : n ≤ 2 ^ 32 := by
  by_contra hn
  have : (2 ^ 32 + 1) * 2 ^ 32 ≤ n * (n - 1) := Nat.mul_le_mul (by omega) (by omega)
  omega

/-- **The product in the position of a pair** is no larger than the one in the number of pairs. -/
theorem rowProduct_le {n low : Nat} (h : low < n) :
    low * (2 * n - low - 1) ≤ n * (n - 1) := by
  obtain ⟨w, rfl⟩ := Nat.exists_eq_add_of_lt h
  rw [show 2 * (low + w + 1) - low - 1 = low + 1 + w + w by omega, Nat.add_sub_cancel]
  calc low * (low + 1 + w + w)
      = low * (low + 1 + w) + low * w := Nat.mul_add ..
    _ ≤ low * (low + 1 + w) + (low + 1 + w) * w :=
        Nat.add_le_add_left (Nat.mul_le_mul_right w (by omega)) _
    _ = (low + w + 1) * (low + w) := by
        rw [Nat.mul_comm low, ← Nat.mul_add, Nat.add_right_comm]

namespace Fits

variable {c : Candidates}

/-- Twice the number of candidates is a word, which a step backwards on their circle needs. -/
theorem two_mul_length (h : Fits c) : 2 * c.length < 2 ^ 64 := by
  cases c with
  | listed pairs _ => exact h
  | combinations n => exact Nat.lt_of_le_of_lt (Nat.mul_div_le _ _) h

theorem length (h : Fits c) : Word.length c = some c.length := by
  cases c with
  | listed pairs _ => rfl
  | combinations n => exact mul?_bind h

/-- One index more than `2 ^ 32` is too many. -/
example : Word.length (.combinations (2 ^ 32)) = some (2 ^ 31 * (2 ^ 32 - 1)) ∧
    Word.length (.combinations (2 ^ 32 + 1)) = none := by decide

end Fits

/-! ### Looking up and locating -/

/-- A combination is counted through in words as it is without bound, since no number on the way
exceeds the number of indices. -/
theorem combinationFrom_eq {n low rows : Nat} (rest : Nat) (hrows : low + rows = n)
    (hn : n ≤ 2 ^ 32) :
    combinationFrom n low rows rest = some (Candidates.combinationFrom? low (rows - 1) rest) := by
  induction rows generalizing low rest with
  | zero => rfl
  | succ rows ih =>
    have hwidth : n - low - 1 = rows := by omega
    rw [combinationFrom, sub?_bind (by omega), sub?_bind (by omega), hwidth, Nat.add_sub_cancel]
    split
    · rename_i hrest
      rw [add?_bind (by omega), add?_bind (by omega), Pair.of?_of_lt (by omega),
        Candidates.combinationFrom?_row hrest]
    · rename_i hrest
      rw [sub?_bind (by omega), ih _ (by omega)]
      -- The last row is empty, and the look-up without bound leaves it out.
      cases rows with
      | zero => rfl
      | succ rows => rw [Candidates.combinationFrom?, if_neg hrest, Nat.add_sub_cancel]

/-- The candidate at a position is found in words as it is without bound. -/
theorem Fits.get {c : Candidates} (h : Fits c) (i : Nat) : Word.get c i = some (c.get? i) := by
  cases c with
  | listed pairs _ => rfl
  | combinations n => exact combinationFrom_eq i (Nat.zero_add n) (le_of_product_lt h)

/-- The position of a pair is found in words as it is without bound; the greatest number on the way
is the product that is halved. -/
theorem Fits.position {c : Candidates} (h : Fits c) (p : Pair) :
    Word.position c p = some (c.position? p) := by
  cases c with
  | listed pairs _ => rfl
  | combinations n =>
    have hp := p.low_lt_high
    rw [Word.position, Candidates.position?]
    by_cases hhigh : p.high < n
    · have hn := le_of_product_lt h
      have hproduct := rowProduct_le (show p.low < n by omega)
      have hbound : n * (n - 1) < 2 ^ 64 := h
      rw [if_neg (by omega), if_pos hhigh, mul?_bind (by omega), sub?_bind (by omega),
        sub?_bind (by omega), mul?_bind (by omega), add?_bind (by omega), sub?_bind (by omega),
        sub?_bind (by omega), Option.some.injEq, Option.some.injEq]
      omega
    · rw [if_pos (by omega), if_neg hhigh]

/-! ### Going round -/

/-- A turn in words is the turn without bound, in both directions. -/
theorem turn_eq {total i : Nat} (d : Direction) (htotal : 2 * total < 2 ^ 64) (hi : i < total) :
    turn total d i = some (PairSet.turn total d i) := by
  cases d with
  | next =>
    rw [turn, add?_bind (by omega), mod?_eq (by omega)]
    rfl
  | previous =>
    rw [turn, add?_bind (by omega), sub?_bind (by omega), mod?_eq (by omega)]
    rfl

/-- **The neighbour of a combination is computed in words** as it is without bound, in both
directions. -/
theorem stepCombination_eq {n : Nat} {p : Pair} (d : Direction) (hn : n ≤ 2 ^ 32)
    (hp : p.high < n) :
    stepCombination n d p.members = some (PairSet.stepCombination n d p).members := by
  have hlow := p.low_lt_high
  cases d with
  | next =>
    rw [Pair.members, stepCombination, PairSet.stepCombination, add?_bind (by omega)]
    split
    · rfl
    · rw [add?_bind (by omega)]
      split
      · rw [add?_bind (by omega)]
        rfl
      · rfl
  | previous =>
    rw [Pair.members, stepCombination, PairSet.stepCombination, add?_bind (by omega)]
    split
    · rw [sub?_bind (by omega)]
      rfl
    · split
      · rename_i hpos
        rw [dif_pos ⟨hpos, by omega⟩, sub?_bind (by omega), sub?_bind (by omega)]
        rfl
      · rename_i hzero
        rw [dif_neg fun h => hzero h.1, dif_pos (by omega), sub?_bind (by omega),
          sub?_bind (by omega)]
        rfl

variable {s : PairSet} {here there : Place}

/-- **The pair beside a sound place** is computed in words, from the pair or from the position. -/
theorem besidePair_eq (h : Fits s.candidates) {d : Direction} (hplace : s.IsPlace here)
    (hthere : s.neighbour? d here = some there) (hnext : s.IsPlace there) :
    besidePair s.candidates d (some here.pair.members) there.position =
      some (some there.pair.members) := by
  obtain ⟨c, completed, nodup⟩ := s
  cases c with
  | listed pairs hnodup =>
    change (do some ((← get (.listed pairs hnodup) there.position).map Pair.members)) = _
    rw [show get _ _ = some (some there.pair) from (h.get _).trans (congrArg some hnext)]
    rfl
  | combinations n =>
    obtain rfl := Option.some.inj hthere
    have hhigh : here.pair.high < n :=
      PairSet.high_lt_of_position? (Candidates.position?_eq_some_iff.2 hplace)
    rw [besidePair, stepCombination_eq d (le_of_product_lt h) hhigh]
    rfl

/-- **One call from a sound place leads to the place beside it.** -/
theorem next_eq (h : Fits s.candidates) (d : Direction) (remaining : Nat)
    (hplace : s.IsPlace here) :
    ∃ there, s.neighbour? d here = some there ∧ s.IsPlace there ∧
      Walk.next s.candidates d ⟨here.position, some here.pair.members, remaining + 1⟩ =
        some (some (there.members, ⟨there.position, some there.pair.members, remaining⟩)) := by
  obtain ⟨there, hthere, hnext, hposition⟩ := PairSet.neighbour?_isPlace d hplace
  have hturn : turn s.candidates.length d here.position = some there.position := by
    rw [turn_eq d h.two_mul_length (Candidates.lt_length_of_get? hplace), hposition]
    rfl
  refine ⟨there, hthere, hnext, ?_⟩
  rw [Walk.next, if_neg (Nat.succ_ne_zero _), sub?_bind (Nat.le_add_left 1 remaining), h.length,
    Option.bind_eq_bind, Option.bind_some, hturn, Option.bind_some,
    besidePair_eq h hplace hthere hnext]
  rfl

/-- **Calls from a sound place give the places of the way round.** -/
theorem take_eq (h : Fits s.candidates) (d : Direction) (calls remaining : Nat)
    (hplace : s.IsPlace here) :
    Walk.take s.candidates d calls ⟨here.position, some here.pair.members, remaining⟩ =
      some ((s.placesFrom d (min calls remaining) here).map Place.members) := by
  induction calls generalizing here remaining with
  | zero =>
    rw [Nat.zero_min]
    rfl
  | succ calls ih =>
    cases remaining with
    | zero => rfl
    | succ remaining =>
      obtain ⟨there, hthere, hnext, hcall⟩ := next_eq h d remaining hplace
      rw [Walk.take, hcall, Nat.succ_min_succ, PairSet.placesFrom, hthere, Option.bind_eq_bind,
        Option.bind_some]
      dsimp only
      rw [ih remaining hnext]
      rfl

/-- The iterator starts at the place of the start, with the whole lap before it. -/
theorem walk_eq (h : Fits s.candidates) (start : Nat) :
    walk s.candidates start =
      some ⟨min start (s.length - 1), (s.get? (min start (s.length - 1))).map Pair.members,
        s.length⟩ := by
  rw [walk, h.length, Option.bind_eq_bind, Option.bind_some]
  dsimp only
  rw [h.get]
  rfl

/-- **Calls from the start on give the first places of the lap.** -/
theorem Fits.lapTake (h : Fits s.candidates) (start : Nat) (d : Direction) (calls : Nat) :
    Word.lapTake s.candidates start d calls =
      some ((s.lapTake start d calls).map Place.members) := by
  rw [Word.lapTake, walk_eq h, Option.bind_eq_bind, Option.bind_some, PairSet.lapTake,
    PairSet.placeAt?]
  cases hp : s.get? (min start (s.length - 1)) with
  | none =>
    have hlength : s.length = 0 := by
      by_contra hpos
      have : (s.get? (min start (s.length - 1))).isSome :=
        Candidates.get?_isSome_iff.2 (show _ < s.length by omega)
      rw [hp] at this
      cases this
    rw [hlength]
    cases calls <;> rfl
  | some p =>
    have hplace : s.IsPlace ⟨min start (s.length - 1), p⟩ := hp
    exact take_eq h d calls s.length hplace

/-- **A pair set computes in words what it computes without bound.** -/
structure Exact (s : PairSet) : Prop where
  length : length s.candidates = some s.length
  get (i : Nat) : get s.candidates i = some (s.get? i)
  position (p : Pair) : position s.candidates p = some (s.position? p)
  lapTake (start : Nat) (d : Direction) (calls : Nat) :
    lapTake s.candidates start d calls = some ((s.lapTake start d calls).map Place.members)

/-- **A set that fits computes in words what it computes without bound**, each operation by the
lemma about it. -/
theorem Fits.exact (h : Fits s.candidates) : Exact s where
  length := h.length
  get := h.get
  position := h.position
  lapTake := h.lapTake

end Word

namespace PairSet

/-- The pairs below a number fit once the product of the number with the one before it does. -/
theorem fits_ofPairs_below {n : Nat} (h : n * (n - 1) < 2 ^ 64) :
    Word.Fits (ofPairs (Pair.below n)).candidates := by
  change 2 * (ofPairs (Pair.below n)).length < 2 ^ 64
  rw [← (answersAlike_below n).length]
  exact Word.Fits.two_mul_length (c := .combinations n) h

/-- **Combinations on demand agree with the list of them, in words.**  As long as the product that
counts the combinations of `n` indices is a word, they give the same answers as all pairs of
indices below `n` handed over from the first to the last, and have no place for a pair with
another index.  No answer of either set, no call of an iterator over a lap and no step from a
combination to its neighbour leaves the words on the way. -/
theorem combinations_as_listed {n : Nat} (h : n * (n - 1) < 2 ^ 64) :
    AnswersAlike n (combinations n) (ofPairs (Pair.below n)) ∧
      (∀ p : Pair, n ≤ p.high → (combinations n).position? p = none) ∧
      Word.Exact (combinations n) ∧ Word.Exact (ofPairs (Pair.below n)) ∧
      ∀ (d : Direction) (p : Pair), p.high < n →
        Word.stepCombination n d p.members = some (stepCombination n d p).members := by
  have hfits : Word.Fits (combinations n).candidates := h
  refine ⟨answersAlike_below n, fun p hp => if_neg (by omega), hfits.exact,
    (fits_ofPairs_below h).exact, fun d p hp => ?_⟩
  exact Word.stepCombination_eq d (Word.le_of_product_lt h) hp

/-- Three indices, with the lap that goes back from the first pair. -/
theorem combinations_as_listed_three :
    3 * (3 - 1) < 2 ^ 64 ∧
      AnswersAlike 3 (combinations 3)
        (ofPairs [⟨0, 1, by decide⟩, ⟨0, 2, by decide⟩, ⟨1, 2, by decide⟩]) ∧
      Word.lapTake (.combinations 3) 0 .previous 4 = some [(2, 1, 2), (1, 0, 2), (0, 0, 1)] := by
  have hbound : 3 * (3 - 1) < 2 ^ 64 := by decide
  obtain ⟨halike, -, hexact, -, -⟩ := combinations_as_listed hbound
  exact ⟨hbound, halike, (hexact.lapTake 0 .previous 4).trans (by decide)⟩

end PairSet

end PairAnnotation
