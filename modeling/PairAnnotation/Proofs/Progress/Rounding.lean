/-
# Rounding keeps the order

A quotient that is not greater than another one is not rounded to a greater number
(`Binary64.units_le_of_nearest`), also where the two numbers have different exponents: a
mantissa ends where that of the next exponent starts.  So what an operation gives depends on the
quotient alone (`Binary64.nearest_congr`), and a fraction of at most one is at most one after
rounding, however large its two counts are.
-/

import Mathlib.Tactic.Ring
import PairAnnotation.Binary64

namespace PairAnnotation

variable {num den num' den' : Nat}

/-! ### Rounding to a whole number -/

/-- Rounding gives no less than the whole part of a quotient. -/
theorem div_le_roundHalfEven (num den : Nat) : num / den ≤ roundHalfEven num den := by
  unfold roundHalfEven
  dsimp only
  split_ifs <;> omega

/-- Rounding gives no more than the number behind the whole part of a quotient. -/
theorem roundHalfEven_le (num den : Nat) : roundHalfEven num den ≤ num / den + 1 := by
  unfold roundHalfEven
  dsimp only
  split_ifs <;> omega

/-- The quotients without their remainders are in order when the exact ones are, here compared by
cross-multiplication. -/
theorem div_le_div_of_mul_le (hden' : 0 < den') (h : num * den' ≤ num' * den) :
    num / den ≤ num' / den' := by
  rcases Nat.eq_zero_or_pos den with rfl | hden
  · simp
  · rw [Nat.le_div_iff_mul_le hden']
    refine Nat.le_of_mul_le_mul_right ?_ hden
    calc num / den * den' * den = num / den * den * den' := by ring
      _ ≤ num * den' := Nat.mul_le_mul_right _ (Nat.div_mul_le_self num den)
      _ ≤ num' * den := h

/-- Of two quotients with the same whole part, the remainders are in order. -/
theorem mod_mul_le_of_div_eq (h : num * den' ≤ num' * den) (hdiv : num / den = num' / den') :
    num % den * den' ≤ num' % den' * den := by
  have hnum : num * den' = num / den * (den * den') + num % den * den' := by
    conv_lhs => rw [← Nat.div_add_mod' num den]
    ring
  have hnum' : num' * den = num / den * (den * den') + num' % den' * den := by
    conv_lhs => rw [← Nat.div_add_mod' num' den', ← hdiv]
    ring
  omega

/-- **Rounding to a whole number keeps the order**, halves included: of two quotients with the same
whole part the one with the larger remainder is not rounded below the other. -/
theorem roundHalfEven_mono (hden : 0 < den) (hden' : 0 < den') (h : num * den' ≤ num' * den) :
    roundHalfEven num den ≤ roundHalfEven num' den' := by
  rcases (div_le_div_of_mul_le hden' h).lt_or_eq with hlt | hdiv
  · calc roundHalfEven num den ≤ num / den + 1 := roundHalfEven_le num den
      _ ≤ num' / den' := hlt
      _ ≤ roundHalfEven num' den' := div_le_roundHalfEven num' den'
  · -- With the same whole part only the remainders count, against the halves of the divisors.
    have hmod := mod_mul_le_of_div_eq h hdiv
    have hhalf : den ≤ 2 * (num % den) → den' ≤ 2 * (num' % den') := by
      intro hle
      refine Nat.le_of_mul_le_mul_right ?_ hden
      calc den' * den = den * den' := Nat.mul_comm _ _
        _ ≤ 2 * (num % den) * den' := Nat.mul_le_mul_right _ hle
        _ ≤ 2 * (num' % den') * den := by rw [Nat.mul_assoc, Nat.mul_assoc]; omega
    have habove : den < 2 * (num % den) → den' < 2 * (num' % den') := by
      intro hlt
      refine Nat.lt_of_mul_lt_mul_right (a := den) ?_
      calc den' * den = den * den' := Nat.mul_comm _ _
        _ < 2 * (num % den) * den' := Nat.mul_lt_mul_of_pos_right hlt hden'
        _ ≤ 2 * (num' % den') * den := by rw [Nat.mul_assoc, Nat.mul_assoc]; omega
    unfold roundHalfEven
    dsimp only
    rw [hdiv]
    split_ifs <;> omega

namespace Binary64

/-! ### Exponents -/

/-- The unit is a fraction of one, so one is at least one unit. -/
theorem unitsPerOne_pos : 0 < unitsPerOne := by decide +kernel

/-- One is not so many units that its exponent would be out of reach. -/
theorem unitsPerOne_lt : unitsPerOne < 2 ^ 1075 := by decide +kernel

theorem shiftFor_mono {floor floor' : Nat} (h : floor ≤ floor') :
    shiftFor floor ≤ shiftFor floor' := by
  unfold shiftFor
  split_ifs with hzero hzero'
  · exact Nat.le_refl 0
  · exact Nat.zero_le _
  · omega
  · have hlog : Nat.log2 floor ≤ Nat.log2 floor' :=
      (Nat.le_log2 (by omega)).2 ((Nat.log2_self_le hzero).trans h)
    omega

/-- The whole units fit in a mantissa at their exponent. -/
theorem lt_pow_shiftFor (floor : Nat) : floor < 2 ^ (53 + shiftFor floor) := by
  rcases Nat.eq_zero_or_pos floor with rfl | hpos
  · exact Nat.pow_pos (by decide)
  · rw [← Nat.log2_lt hpos.ne', shiftFor, if_neg hpos.ne']
    omega

/-- A shift is only made where it is needed: at a lower exponent the 53 bits would not be enough. -/
theorem pow_shiftFor_le {floor : Nat} (h : 0 < shiftFor floor) :
    2 ^ (52 + shiftFor floor) ≤ floor := by
  unfold shiftFor at h ⊢
  split_ifs at h ⊢ with hzero
  · omega
  · rw [← Nat.le_log2 hzero]
    omega

/-! ### Rounding to a number -/

/-- The exponent for a quotient, as the size of its whole part in the smallest units demands it. -/
def shiftOf (num den : Nat) : Nat := shiftFor (num * unitsPerOne / den)

/-- The mantissa of a quotient, which may be the first one of the next exponent. -/
def mantissaOf (num den : Nat) : Nat :=
  roundHalfEven (num * unitsPerOne) (den * 2 ^ shiftOf num den)

/-- A mantissa at an exponent, carried over to the next exponent when it is one too large. -/
def carry (mantissa shift : Nat) : Binary64 :=
  if mantissa = Nat.pow 2 53 then ⟨Nat.pow 2 52, shift + 1⟩ else ⟨mantissa, shift⟩

/-- Carrying a mantissa over to the next exponent does not change what the number is worth. -/
theorem units_carry (mantissa shift : Nat) :
    (carry mantissa shift).units = mantissa * 2 ^ shift := by
  unfold carry
  split_ifs with h
  · rw [units, h]
    calc Nat.pow 2 52 * 2 ^ (shift + 1) = Nat.pow 2 52 * (2 * 2 ^ shift) := by rw [pow_succ']
      _ = Nat.pow 2 53 * 2 ^ shift := (Nat.mul_assoc _ _ _).symm
  · rfl

/-- The nearest number to a quotient is the rounded mantissa at its exponent, carried over where
that is needed, unless it is out of range. -/
theorem nearest_eq (num den : Nat) :
    nearest num den =
      if (carry (mantissaOf num den) (shiftOf num den)).shift ≤ 2045
      then some (carry (mantissaOf num den) (shiftOf num den)) else none := rfl

/-- What the nearest number is worth is the rounded mantissa at its exponent. -/
theorem units_of_nearest {x : Binary64} (h : nearest num den = some x) :
    x.units = mantissaOf num den * 2 ^ shiftOf num den := by
  rw [nearest_eq] at h
  split at h
  · rw [← Option.some.inj h, units_carry]
  · cases h

/-- **Rounding keeps the order**: a quotient that is no larger is not rounded to a larger number,
also where the two have different exponents. -/
theorem units_le_of_nearest {x x' : Binary64} (hden : 0 < den) (hden' : 0 < den')
    (h : num * den' ≤ num' * den) (hx : nearest num den = some x)
    (hx' : nearest num' den' = some x') : x.units ≤ x'.units := by
  rw [units_of_nearest hx, units_of_nearest hx']
  have hscaled : num * unitsPerOne * den' ≤ num' * unitsPerOne * den := by
    rw [Nat.mul_right_comm, Nat.mul_right_comm num']
    exact Nat.mul_le_mul_right _ h
  have hfloor := div_le_div_of_mul_le hden' hscaled
  rcases (shiftFor_mono hfloor).lt_or_eq with hlt | heq
  · -- The lower number is at most the first one of the next exponent, the upper one at least.
    have hlower : mantissaOf num den ≤ 2 ^ 53 := by
      refine (roundHalfEven_le _ _).trans (Nat.succ_le_of_lt ?_)
      rw [← Nat.div_div_eq_div_mul, Nat.div_lt_iff_lt_mul (Nat.pow_pos (by decide)), ← pow_add]
      exact lt_pow_shiftFor _
    have hupper : 2 ^ 52 ≤ mantissaOf num' den' := by
      refine le_trans ?_ (div_le_roundHalfEven _ _)
      rw [← Nat.div_div_eq_div_mul, Nat.le_div_iff_mul_le (Nat.pow_pos (by decide)), ← pow_add]
      exact pow_shiftFor_le (by omega)
    calc mantissaOf num den * 2 ^ shiftOf num den ≤ 2 ^ 53 * 2 ^ shiftOf num den :=
          Nat.mul_le_mul_right _ hlower
      _ = 2 ^ 52 * 2 ^ (shiftOf num den + 1) := by rw [pow_succ 2 (shiftOf num den)]; ring
      _ ≤ 2 ^ 52 * 2 ^ shiftOf num' den' :=
          Nat.mul_le_mul_left _ (Nat.pow_le_pow_right (by decide) hlt)
      _ ≤ mantissaOf num' den' * 2 ^ shiftOf num' den' := Nat.mul_le_mul_right _ hupper
  · have hshift : shiftOf num den = shiftOf num' den' := heq
    rw [mantissaOf, mantissaOf, hshift]
    refine Nat.mul_le_mul_right _ (roundHalfEven_mono ?_ ?_ ?_)
    · exact Nat.mul_pos hden (Nat.pow_pos (by decide))
    · exact Nat.mul_pos hden' (Nat.pow_pos (by decide))
    · rw [← Nat.mul_assoc, ← Nat.mul_assoc]
      exact Nat.mul_le_mul_right _ hscaled

/-- **What a quotient is rounded to depends on its value alone.** -/
theorem nearest_congr (hden : 0 < den) (hden' : 0 < den') (h : num * den' = num' * den) :
    nearest num den = nearest num' den' := by
  have hscaled : num * unitsPerOne * den' = num' * unitsPerOne * den := by
    rw [Nat.mul_right_comm, h, Nat.mul_right_comm]
  have hfloor : num * unitsPerOne / den = num' * unitsPerOne / den' :=
    Nat.le_antisymm (div_le_div_of_mul_le hden' hscaled.le)
      (div_le_div_of_mul_le hden hscaled.ge)
  have hshift : shiftOf num den = shiftOf num' den' := congrArg shiftFor hfloor
  have hpow : 0 < 2 ^ shiftOf num' den' := Nat.pow_pos (by decide)
  have hat : num * unitsPerOne * (den' * 2 ^ shiftOf num' den') =
      num' * unitsPerOne * (den * 2 ^ shiftOf num' den') := by
    rw [← Nat.mul_assoc, hscaled, Nat.mul_assoc]
  have hmantissa : mantissaOf num den = mantissaOf num' den' := by
    rw [mantissaOf, mantissaOf, hshift]
    exact Nat.le_antisymm
      (roundHalfEven_mono (Nat.mul_pos hden hpow) (Nat.mul_pos hden' hpow) hat.le)
      (roundHalfEven_mono (Nat.mul_pos hden' hpow) (Nat.mul_pos hden hpow) hat.ge)
  rw [nearest_eq, nearest_eq, hmantissa, hshift]

/-! ### One and whole numbers -/

/-- The number one, the quotient of every count and itself. -/
def one : Binary64 := ⟨Nat.pow 2 52, 1022⟩

/-- One is worth as many units as there are in one. -/
theorem units_one : one.units = unitsPerOne := by decide +kernel

/-- A quotient of a number by itself is rounded to one, since it is one. -/
theorem nearest_self (hden : 0 < den) : nearest den den = some one := by
  have hone : nearest den den = nearest 1 1 := nearest_congr hden (by decide) (by omega)
  rw [hone]
  decide +kernel

/-- A quotient of at most one is at most one after rounding. -/
theorem units_nearest_le_one {x : Binary64} (hden : 0 < den) (h : num ≤ den)
    (hx : nearest num den = some x) : x.units ≤ unitsPerOne := by
  rw [← units_one]
  exact units_le_of_nearest hden hden (Nat.mul_le_mul_right _ h) hx (nearest_self hden)

/-- A whole number above zero is turned into a binary64 number above zero. -/
theorem units_pos_of_ofNat? {n : Nat} {x : Binary64} (hpos : 0 < n) (hx : ofNat? n = some x) :
    0 < x.units := by
  refine Nat.lt_of_lt_of_le unitsPerOne_pos ?_
  rw [← units_one]
  exact units_le_of_nearest (by decide) (by decide) (by omega) (nearest_self Nat.one_pos) hx

/-- **A number of 64 bits has a nearest number**, so a count never fails to become a quotient. -/
theorem exists_ofNat? {n : Nat} (h : n < 2 ^ 64) : ∃ x, ofNat? n = some x := by
  have hshift : shiftOf n 1 ≤ 2044 := by
    unfold shiftOf shiftFor
    split_ifs with hzero
    · omega
    · have hunits : n * unitsPerOne / 1 < 2 ^ (64 + 1075) := by
        rw [Nat.div_one, pow_add]
        exact Nat.mul_lt_mul'' h unitsPerOne_lt
      have := (Nat.log2_lt hzero).2 hunits
      omega
  have hcarry : (carry (mantissaOf n 1) (shiftOf n 1)).shift ≤ 2045 := by
    unfold carry
    split_ifs
    · exact Nat.succ_le_succ hshift
    · exact Nat.le_succ_of_le hshift
  exact ⟨carry (mantissaOf n 1) (shiftOf n 1), by rw [ofNat?, nearest_eq, if_pos hcarry]⟩

end Binary64
end PairAnnotation
