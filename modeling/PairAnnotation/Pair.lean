/-
# Pairs of segment indices

An unordered pair of two different indices, kept with the smaller one first.  The
order is part of the type, so a pair is determined by its two members.
-/

namespace PairAnnotation

/-- Two different indices, the smaller one first, so that a pair of segments is one pair in either
direction. -/
structure Pair where
  low : Nat
  high : Nat
  low_lt_high : low < high
  deriving DecidableEq, Repr

namespace Pair

/-- The pair of two indices, or nothing when they are equal. -/
def of? (a b : Nat) : Option Pair :=
  if h : a < b then some ⟨a, b, h⟩ else if h : b < a then some ⟨b, a, h⟩ else none

/-- Whether an index is in the pair. -/
def contains (p : Pair) (i : Nat) : Bool := p.low == i || p.high == i

/-- The member of the pair beside `i`, if `i` is in it. -/
def partner? (p : Pair) (i : Nat) : Option Nat :=
  if p.low = i then some p.high else if p.high = i then some p.low else none

/-- A pair as it is shown: its two members in braces. -/
def text (p : Pair) : String := "\x7b" ++ toString p.low ++ "," ++ toString p.high ++ "\x7d"

theorem ext_iff_members {p q : Pair} : p = q ↔ p.low = q.low ∧ p.high = q.high := by
  cases p
  cases q
  simp

/-- A pair has no direction: two numbers make the same one in either order. -/
theorem of?_comm (a b : Nat) : of? a b = of? b a := by
  unfold of?
  by_cases h : a < b
  · have : ¬b < a := by omega
    simp [h, this]
  · by_cases h' : b < a <;> simp [h, h']

@[simp]
theorem of?_self (a : Nat) : of? a a = none := by simp [of?]

/-- Two numbers in ascending order make the pair that has them as members. -/
theorem of?_of_lt {a b : Nat} (h : a < b) : of? a b = some ⟨a, b, h⟩ := by simp [of?, h]

/-- Two numbers make no pair exactly if they are one number. -/
theorem of?_eq_none_iff {a b : Nat} : of? a b = none ↔ a = b := by
  unfold of?
  split
  · simp
    omega
  · split
    · simp
      omega
    · simp
      omega

/-- **A pair comes from its two members, in either order.** -/
theorem of?_eq_some_iff {a b : Nat} {p : Pair} :
    of? a b = some p ↔ (a = p.low ∧ b = p.high) ∨ (a = p.high ∧ b = p.low) := by
  have hp := p.low_lt_high
  unfold of?
  split
  · simp only [Option.some.injEq, ext_iff_members]
    omega
  · split
    · simp only [Option.some.injEq, ext_iff_members]
      omega
    · simp
      omega

/-- A pair is what its members make. -/
theorem of?_members (p : Pair) : of? p.low p.high = some p := of?_eq_some_iff.2 (.inl ⟨rfl, rfl⟩)

/-- One member is the partner of another number exactly if the two make the pair. -/
theorem partner?_eq_some_iff {p : Pair} {i j : Nat} : p.partner? i = some j ↔ of? i j = some p := by
  have hp := p.low_lt_high
  rw [of?_eq_some_iff]
  unfold partner?
  split
  · simp
    omega
  · split
    · simp
      omega
    · simp
      omega

end Pair

end PairAnnotation
