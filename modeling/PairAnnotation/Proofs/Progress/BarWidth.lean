/-
# The width of a progress bar

A bar is filled by as many hundredths of its full width as whole percent are shown.  There are at
most 100 of them, and exactly 100 once all is completed (`Progress.percent_le`,
`Progress.percent_eq_hundred`), since rounding keeps the order.  Their product with the full width
is formed in 32 bits before it is divided, though, and the full width is any number of 32 bits.  So
there is a widest bar for which all products fit (`Progress.widest`).  A wider one has no style
once all is completed; where a bar has a style, its width is in range and grows with the percent
(`Progress.barWidth_in_range_iff`).
-/

import PairAnnotation.Progress
import PairAnnotation.Proofs.Progress.Rounding

namespace PairAnnotation

namespace Binary64

/-- The number that a fraction is multiplied with, exactly one hundred: a mantissa of 53 bits and
the exponent that goes with it. -/
def hundred : Binary64 := ⟨100 * Nat.pow 2 46, 1028⟩

/-- The number 100 is turned into a binary64 number without loss. -/
theorem ofNat?_hundred : ofNat? 100 = some hundred := by decide +kernel

/-- The hundred that fractions are multiplied with is 100 percent. -/
theorem roundToNat_hundred : hundred.roundToNat = 100 := by decide +kernel

/-- Rounding to whole percent keeps the order: a greater number is never shown as fewer percent. -/
theorem roundToNat_mono {x y : Binary64} (h : x.units ≤ y.units) :
    x.roundToNat ≤ y.roundToNat :=
  Nat.div_le_div_right (Nat.add_le_add_right (Nat.mul_le_mul_left 2 h) _)

/-- One whole is 100 percent, with nothing lost in the product. -/
theorem mul?_one_hundred : one.mul? hundred = some hundred := by decide +kernel

/-- A hundredfold of at most one is at most a hundred after rounding. -/
theorem units_mul?_hundred_le {x y : Binary64} (hx : x.units ≤ unitsPerOne)
    (hy : x.mul? hundred = some y) : y.units ≤ hundred.units := by
  have hpos : 0 < unitsPerOne * unitsPerOne := Nat.mul_pos unitsPerOne_pos unitsPerOne_pos
  refine units_le_of_nearest hpos hpos ?_ hy mul?_one_hundred
  rw [units_one]
  exact Nat.mul_le_mul_right _ (Nat.mul_le_mul_right _ hx)

end Binary64

open Binary64

namespace Progress

variable {p : Progress} {w : UInt32}

/-- **Counts as a pair set has them**: at most all is completed, and the total is a word of 64
bits. -/
structure Counted (p : Progress) : Prop where
  completed_le : p.completed ≤ p.total
  total_lt : p.total < 2 ^ 64

/-! ### Percent -/

/-- A quotient of two numbers that may be missing, if it is there, is that of the two. -/
theorem exists_of_quotient {a b : Option Binary64} {q : Binary64}
    (h : (do (← a).div? (← b)) = some q) : ∃ c t, a = some c ∧ b = some t ∧ c.div? t = some q := by
  obtain ⟨c, hc, h⟩ := Option.bind_eq_some_iff.1 h
  obtain ⟨t, ht, h⟩ := Option.bind_eq_some_iff.1 h
  exact ⟨c, t, hc, ht, h⟩

/-- **The completed fraction is at most one**, also after the two counts and their quotient were
rounded. -/
theorem units_fraction_le (h : p.completed ≤ p.total) : p.fraction.units ≤ unitsPerOne := by
  unfold fraction
  split_ifs with htotal
  · exact Nat.zero_le _
  · generalize hq : (do (← ofNat? p.completed).div? (← ofNat? p.total)) = q
    cases q with
    | none => exact Nat.zero_le _
    | some q =>
      obtain ⟨c, t, hc, ht, hq⟩ := exists_of_quotient hq
      exact units_nearest_le_one (units_pos_of_ofNat? (Nat.pos_of_ne_zero htotal) ht)
        (units_le_of_nearest Nat.one_pos Nat.one_pos (Nat.mul_le_mul_right 1 h) hc ht) hq

/-- A number that is not zero, divided by itself, is exactly one. -/
theorem quotient_self {a : Option Binary64} {t : Binary64} (h : a = some t) (hpos : 0 < t.units) :
    (do (← a).div? (← a)) = some one :=
  Option.bind_eq_some_iff.2 ⟨t, h, Option.bind_eq_some_iff.2 ⟨t, h, nearest_self hpos⟩⟩

/-- **All is exactly one**: equal counts are rounded to equal numbers, however great they are. -/
theorem fraction_eq_one (h : p.total < 2 ^ 64) (hall : p.completed = p.total) (hpos : 0 < p.total) :
    p.fraction = one := by
  obtain ⟨t, ht⟩ := exists_ofNat? h
  rw [fraction, if_neg hpos.ne', hall, quotient_self ht (units_pos_of_ofNat? hpos ht),
    Option.getD_some]

/-- The percent are the rounded hundredfold of the fraction; they would be cut off at 32 bits
only. -/
theorem toNat_percent (p : Progress) :
    p.percent.toNat =
      min (((p.fraction.mul? hundred).map (·.roundToNat)).getD 0) (percentLimit - 1) := by
  have hlimit : percentLimit - 1 < 2 ^ 32 := by decide
  unfold percent
  dsimp only
  rw [ofNat?_hundred, Option.bind_eq_bind, Option.bind_some, UInt32.toNat_ofNat_of_lt']
  exact Nat.lt_of_le_of_lt (Nat.min_le_right _ _) hlimit

/-- **At most 100 percent are completed**, since rounding keeps the order and no more than all is
completed. -/
theorem percent_le (h : p.completed ≤ p.total) : p.percent.toNat ≤ 100 := by
  rw [toNat_percent]
  refine (Nat.min_le_left _ _).trans ?_
  cases hy : p.fraction.mul? hundred with
  | none => exact Nat.zero_le _
  | some y =>
    rw [Option.map_some, Option.getD_some, ← roundToNat_hundred]
    exact roundToNat_mono (units_mul?_hundred_le (units_fraction_le h) hy)

/-- **All is 100 percent.** The quotient of a count and itself is exactly one, and so is a hundred
times it exactly a hundred. -/
theorem percent_eq_hundred (h : p.total < 2 ^ 64) (hall : p.completed = p.total)
    (hpos : 0 < p.total) : p.percent = 100 := by
  rw [← UInt32.toNat_inj, toNat_percent, fraction_eq_one h hall hpos, mul?_one_hundred,
    Option.map_some, Option.getD_some, roundToNat_hundred]
  decide

/-! ### Widths -/

/-- **A bar has a width exactly if its product fits**, and it is then as wide as it would be without
a bound on the product. -/
theorem barWidth?_eq_some_iff {v : UInt32} :
    p.barWidth? w = some v ↔
      p.percent.toNat * w.toNat < 2 ^ 32 ∧ v.toNat = p.percent.toNat * w.toNat / 100 := by
  unfold barWidth?
  split
  · rename_i hfits
    have hwidth : (p.percent * w / 100).toNat = p.percent.toNat * w.toNat / 100 := by
      rw [UInt32.toNat_div, UInt32.toNat_mul, Nat.mod_eq_of_lt hfits]
      rfl
    rw [Option.some.injEq, ← UInt32.toNat_inj, hwidth, eq_comm]
    exact (and_iff_right hfits).symm
  · rename_i hover
    exact iff_of_false (by simp) fun h => hover h.1

/-- A bar has a style exactly if its product fits. -/
theorem barStyle?_eq (p : Progress) (w : UInt32) :
    p.barStyle? w =
      if p.percent.toNat * w.toNat < 2 ^ 32
      then some ("width:" ++ toString (p.percent.toNat * w.toNat / 100) ++ "px") else none := by
  cases hwidth : p.barWidth? w with
  | some v =>
    obtain ⟨hfits, hv⟩ := barWidth?_eq_some_iff.1 hwidth
    rw [barStyle?, hwidth, Option.map_some, hv, if_pos hfits]
  | none =>
    have hover : ¬ p.percent.toNat * w.toNat < Nat.pow 2 32 := fun hfits => by
      rw [barWidth?, if_pos hfits] at hwidth
      cases hwidth
    rw [barStyle?, hwidth, Option.map_none]
    exact (if_neg hover).symm

/-- At most 100 hundredths of the full width are no more than all of it. -/
theorem width_le (h : p.completed ≤ p.total) (w : UInt32) :
    p.percent.toNat * w.toNat / 100 ≤ w.toNat :=
  calc p.percent.toNat * w.toNat / 100 ≤ 100 * w.toNat / 100 :=
        Nat.div_le_div_right (Nat.mul_le_mul_right _ (percent_le h))
    _ = w.toNat := Nat.mul_div_cancel_left _ (by decide)

/-- The widest bar that the product with 100 percent fits for. -/
def widest : UInt32 := 42949672

/-- The product of percent and full width is a number of 32 bits, whatever the counts are. -/
def NeverOverflows (w : UInt32) : Prop :=
  ∀ p : Progress, p.Counted → p.percent.toNat * w.toNat < 2 ^ 32

/-- Where a bar has a width, a bar for fewer percent has one as well, and it is no longer. -/
def Grows (w : UInt32) : Prop :=
  ∀ p q : Progress, p.percent ≤ q.percent → ∀ v, q.barWidth? w = some v →
    ∃ u, p.barWidth? w = some u ∧ u ≤ v

/-- When all is completed, the bar is full: its width is the one that was asked for. -/
def FillsUp (w : UInt32) : Prop :=
  ∀ p : Progress, p.Counted → p.completed = p.total → 0 < p.total → p.barWidth? w = some w

/-- **A bar grows with the percent**, as far as it has a width. -/
theorem grows (w : UInt32) : Grows w := by
  intro p q hpq v hv
  obtain ⟨hfits, hwidth⟩ := barWidth?_eq_some_iff.1 hv
  have hproduct : p.percent.toNat * w.toNat ≤ q.percent.toNat * w.toNat :=
    Nat.mul_le_mul_right _ hpq
  have hfits' : p.percent.toNat * w.toNat < Nat.pow 2 32 := Nat.lt_of_le_of_lt hproduct hfits
  have hu : p.barWidth? w = some (p.percent * w / 100) := if_pos hfits'
  refine ⟨_, hu, ?_⟩
  rw [UInt32.le_iff_toNat_le, (barWidth?_eq_some_iff.1 hu).2, hwidth]
  exact Nat.div_le_div_right hproduct

/-- Up to the widest bar no product overflows: 100 percent of it is below `2 ^ 32`, and more are
never shown. -/
theorem neverOverflows_of_le (h : w ≤ widest) : NeverOverflows w := by
  intro p hp
  have hw : w.toNat ≤ 42949672 := h
  calc p.percent.toNat * w.toNat ≤ 100 * 42949672 := Nat.mul_le_mul (percent_le hp.completed_le) hw
    _ < 2 ^ 32 := by decide

/-- A full bar is as long as the full width, if the product with 100 percent fits. -/
theorem NeverOverflows.fillsUp (h : NeverOverflows w) : FillsUp w := by
  intro p hp hall hpos
  refine barWidth?_eq_some_iff.2 ⟨h p hp, ?_⟩
  rw [percent_eq_hundred hp.total_lt hall hpos]
  exact (Nat.mul_div_cancel_left _ (by decide)).symm

/-- One pair, which is completed, is all that a bar has to be full for. -/
theorem counted_one : (⟨1, 1⟩ : Progress).Counted := ⟨Nat.le_refl 1, show 1 < 2 ^ 64 by decide⟩

/-- **A bar that fills up is not wider than the widest one**: the product with 100 percent fits. -/
theorem FillsUp.le_widest (h : FillsUp w) : w ≤ widest := by
  obtain ⟨hfits, -⟩ := barWidth?_eq_some_iff.1 (h ⟨1, 1⟩ counted_one rfl Nat.one_pos)
  have hpercent : (⟨1, 1⟩ : Progress).percent = 100 :=
    percent_eq_hundred counted_one.total_lt rfl Nat.one_pos
  have hfits : 100 * w.toNat < 2 ^ 32 := by rwa [hpercent] at hfits
  rw [UInt32.le_iff_toNat_le]
  change w.toNat ≤ 42949672
  omega

/-- **A bar is in range exactly if its product fits.**  For any counts at most 100 percent are
shown, and 100 when all is completed.  If their product with the full width fits in 32 bits, the bar
has so many hundredths of the full width, which is never more than all of it and grows with the
percent; otherwise it has no style.  The product fits for all counts exactly up to the widest bar,
and only up to it is a bar full once all is completed. -/
theorem barWidth_in_range_iff (w : UInt32) :
    (∀ p : Progress, p.Counted → ∃ n ≤ 100, p.percentLabel = toString n ++ "%" ∧
      (p.completed = p.total → 0 < p.total → n = 100) ∧ n * w.toNat / 100 ≤ w.toNat ∧
      p.barStyle? w =
        if n * w.toNat < 2 ^ 32
        then some ("width:" ++ toString (n * w.toNat / 100) ++ "px") else none) ∧
    Grows w ∧ (NeverOverflows w ↔ w ≤ widest) ∧ (FillsUp w ↔ w ≤ widest) := by
  refine ⟨fun p hp => ?_, grows w, ⟨fun h => h.fillsUp.le_widest, neverOverflows_of_le⟩,
    ⟨FillsUp.le_widest, fun h => (neverOverflows_of_le h).fillsUp⟩⟩
  refine ⟨p.percent.toNat, percent_le hp.completed_le, rfl, fun hall hpos => ?_,
    width_le hp.completed_le w, barStyle?_eq p w⟩
  rw [percent_eq_hundred hp.total_lt hall hpos]
  rfl

/-- One pixel more than the widest bar has, and there is no bar for all that is completed. -/
theorem full_bar_has_no_style :
    let p : Progress := ⟨1, 1⟩
    p.Counted ∧ p.percentLabel = "100%" ∧ 2 ^ 32 ≤ p.percent.toNat * (42949673 : UInt32).toNat ∧
      p.barStyle? 42949673 = none ∧ ¬ NeverOverflows 42949673 ∧ ¬ FillsUp 42949673 := by
  have hwide : ¬ (42949673 : UInt32) ≤ widest := by decide
  refine ⟨counted_one, by decide +kernel, by decide +kernel, by decide +kernel, ?_, ?_⟩
  · exact fun h => hwide h.fillsUp.le_widest
  · exact fun h => hwide h.le_widest

end Progress
end PairAnnotation
