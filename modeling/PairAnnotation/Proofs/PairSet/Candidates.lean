/-
# Candidates as a list

Candidates are counted, looked up and located without being written out.  Here each
of these answers is read off the written-out list: `Candidates.get?` is its look-up
(`getElem?_toList`), `Candidates.length` its length, `Candidates.position?` the
inverse of the look-up (`position?_eq_some_iff`), and the list never repeats a pair.

For combinations everything rests on one number.  The row of `low` starts at
`rowStart n low`, and the next row starts `n - low - 1` places later
(`rowStart_succ`); a look-up that walks down the rows keeps the sum of what it has
passed and what is left (`combinationFrom?_eq_some`).
-/

import Mathlib.Data.List.Perm.Subperm
import PairAnnotation.PairSet.Basic

namespace PairAnnotation
namespace Candidates

/-! ### Rows -/

/-- The position of the first pair of the row of `low` among the combinations of `n` indices. -/
def rowStart (n low : Nat) : Nat := low * (2 * n - low - 1) / 2

/-- No combination stands before the row of index 0. -/
theorem rowStart_zero (n : Nat) : rowStart n 0 = 0 := by simp [rowStart]

/-- The row of `low` holds `n - low - 1` pairs. -/
theorem rowStart_succ {n low : Nat} (h : low < n) :
    rowStart n (low + 1) = rowStart n low + (n - low - 1) := by
  obtain ⟨w, rfl⟩ := Nat.exists_eq_add_of_lt h
  have h₁ : 2 * (low + w + 1) - (low + 1) - 1 = low + 2 * w := by omega
  have h₂ : 2 * (low + w + 1) - low - 1 = low + 2 * w + 1 := by omega
  have h₃ : low + w + 1 - low - 1 = w := by omega
  have h₄ : (low + 1) * (low + 2 * w) = low * (low + 2 * w + 1) + 2 * w := by
    rw [Nat.add_mul, Nat.mul_add low (low + 2 * w) 1]
    omega
  rw [rowStart, rowStart, h₁, h₂, h₃, h₄, Nat.add_mul_div_left _ _ (by decide)]

/-- The row behind the last one starts where the combinations end. -/
theorem rowStart_self (n : Nat) : rowStart n n = (combinations n).length := by
  rw [rowStart, length, show 2 * n - n - 1 = n - 1 by omega]

/-- The last combination is the pair of the two greatest indices. -/
theorem rowStart_last {n : Nat} (h : 2 ≤ n) :
    rowStart n (n - 2) + 1 = (combinations n).length := by
  have h₁ := @rowStart_succ n (n - 2) (by omega)
  have h₂ := @rowStart_succ n (n - 1) (by omega)
  rw [show n - 2 + 1 = n - 1 by omega] at h₁
  rw [show n - 1 + 1 = n by omega, rowStart_self] at h₂
  omega

/-! ### Looking up -/

/-- A combination is in the first row if its distance is less than the width of that row. -/
theorem combinationFrom?_row {low width rest : Nat} (h : rest < width) :
    combinationFrom? low width rest = some ⟨low, low + 1 + rest, by omega⟩ := by
  cases width with
  | zero => omega
  | succ width => rw [combinationFrom?, if_pos h]

/-- A look-up from the first row on goes on from the row of `low`. -/
theorem combinationFrom?_rowStart {n low : Nat} (rest : Nat) (h : low < n) :
    combinationFrom? 0 (n - 1) (rowStart n low + rest) =
      combinationFrom? low (n - low - 1) rest := by
  induction low generalizing rest with
  | zero => rw [rowStart_zero, Nat.zero_add, Nat.sub_zero]
  | succ low ih =>
    have hlow : low < n := by omega
    rw [rowStart_succ hlow, Nat.add_assoc, ih _ hlow,
      show n - low - 1 = n - (low + 1) - 1 + 1 by omega, combinationFrom?, if_neg (by omega),
      Nat.add_sub_cancel_left]

/-- **What a look-up finds stands at its place**: the places passed and the places left add up to
the position of the pair. -/
theorem combinationFrom?_eq_some {low width rest : Nat} {p : Pair}
    (h : combinationFrom? low width rest = some p) :
    p.high < low + width + 1 ∧
      rowStart (low + width + 1) low + rest =
        rowStart (low + width + 1) p.low + (p.high - p.low - 1) := by
  induction width generalizing low rest with
  | zero => simp [combinationFrom?] at h
  | succ width ih =>
    rw [combinationFrom?] at h
    split at h
    · obtain rfl := Option.some.inj h
      exact ⟨by dsimp only; omega, by dsimp only; omega⟩
    · obtain ⟨hhigh, hplace⟩ := ih h
      rw [show low + 1 + width + 1 = low + (width + 1) + 1 by omega] at hhigh hplace
      rw [rowStart_succ (by omega)] at hplace
      exact ⟨hhigh, by omega⟩

/-- There are as many combinations in the rows from `low` on as the sum of their widths. -/
theorem combinationFrom?_isSome (low width rest : Nat) :
    (combinationFrom? low width rest).isSome ↔ rest < (width + 1) * width / 2 := by
  induction width generalizing low rest with
  | zero => simp [combinationFrom?]
  | succ width ih =>
    have hrow : (width + 1 + 1) * (width + 1) = (width + 1) * width + 2 * (width + 1) := by
      rw [Nat.add_mul, Nat.mul_add]
      omega
    rw [combinationFrom?, hrow, Nat.add_mul_div_left _ _ (by decide)]
    split
    · simp
      omega
    · rw [ih]
      omega

/-- The combinations in a row have the same lower index, and their upper ones follow one another
from the lower one up to the last index. -/
theorem getElem?_row (n low i : Nat) :
    (row n low)[i]? =
      if i < n - low - 1 then
        some ⟨low, low + 1 + i, Nat.lt_add_right i (Nat.lt_succ_self low)⟩
      else none := by
  unfold row
  split
  · rw [List.getElem?_map, List.getElem?_range (by assumption), Option.map_some]
  · rw [List.getElem?_eq_none (by simp; omega)]

/-- **The rows one after the other are what is counted through**: both find the same combination at
every distance. -/
theorem getElem?_rows (low width rest : Nat) :
    ((List.range' low (width + 1)).flatMap (row (low + width + 1)))[rest]? =
      combinationFrom? low width rest := by
  induction width generalizing low rest with
  | zero => simp [combinationFrom?, row]
  | succ width ih =>
    have hn : low + (width + 1) + 1 = low + 1 + width + 1 := by omega
    have hlength : (row (low + (width + 1) + 1) low).length = width + 1 := by
      simp [row]
      omega
    rw [List.range'_succ, List.flatMap_cons, List.getElem?_append, hlength, combinationFrom?]
    split
    · rw [getElem?_row, if_pos (by omega)]
    · rw [hn, ih]

/-! ### One list -/

/-- **A look-up is one in the list of all candidates.** -/
theorem getElem?_toList (c : Candidates) (i : Nat) : c.toList[i]? = c.get? i := by
  cases c with
  | listed pairs _ => rfl
  | combinations n =>
    cases n with
    | zero => simp [toList, get?, combinationFrom?]
    | succ n =>
      have := getElem?_rows 0 n i
      rw [Nat.zero_add] at this
      rw [toList, List.range_eq_range', this, get?, Nat.add_sub_cancel]

/-- There is a candidate at a position exactly if the position is below their number. -/
theorem get?_isSome_iff {c : Candidates} {i : Nat} : (c.get? i).isSome ↔ i < c.length := by
  cases c with
  | listed pairs _ => simp [get?, length]
  | combinations n =>
    rw [get?, combinationFrom?_isSome, length]
    cases n with
    | zero => simp
    | succ n => simp

/-- The position of a candidate is below their number, as that of an element in a list is. -/
theorem lt_length_of_get? {c : Candidates} {i : Nat} {p : Pair} (h : c.get? i = some p) :
    i < c.length :=
  get?_isSome_iff.1 (h ▸ rfl)

/-- **The number of candidates is the length of their list.** -/
@[simp]
theorem length_toList (c : Candidates) : c.toList.length = c.length := by
  have h (i : Nat) : i < c.toList.length ↔ i < c.length := by
    rw [← get?_isSome_iff, ← getElem?_toList]
    simp
  have h₁ := h c.length
  have h₂ := h c.toList.length
  omega

/-- **Looking up and locating are inverse**: a pair has a position exactly if it is the candidate
there. -/
theorem position?_eq_some_iff {c : Candidates} {p : Pair} {i : Nat} :
    c.position? p = some i ↔ c.get? i = some p := by
  cases c with
  | listed pairs nodup =>
    rw [position?, get?, List.idxOf?_eq_some_iff]
    constructor
    · rintro ⟨hi, hp, -⟩
      exact List.getElem?_eq_some_iff.2 ⟨hi, hp⟩
    · intro h
      obtain ⟨hi, hp⟩ := List.getElem?_eq_some_iff.1 h
      refine ⟨hi, hp, fun j hj hjp => ?_⟩
      have := (List.getElem_inj nodup).1 (hjp.trans hp.symm)
      omega
  | combinations n =>
    have hp := p.low_lt_high
    rw [position?, get?]
    constructor
    · intro h
      split at h
      · rename_i hn
        obtain rfl := Option.some.inj h
        change combinationFrom? 0 (n - 1) (rowStart n p.low + _) = _
        rw [combinationFrom?_rowStart _ (by omega), combinationFrom?_row (by omega)]
        exact congrArg some (Pair.ext_iff_members.2 ⟨rfl, by dsimp only; omega⟩)
      · cases h
    · intro h
      obtain ⟨hhigh, hplace⟩ := combinationFrom?_eq_some h
      rw [rowStart_zero] at hplace
      have hn : 0 + (n - 1) + 1 = n := by omega
      rw [hn] at hhigh hplace
      rw [if_pos hhigh, ← Nat.zero_add i, hplace]
      rfl

/-- A candidate of a set is a pair at some position of it. -/
theorem mem_toList_iff {c : Candidates} {p : Pair} :
    p ∈ c.toList ↔ ∃ i, c.get? i = some p := by
  simp only [List.mem_iff_getElem?, getElem?_toList]

/-- **All pairs of indices are combinations**, and no others: the greater index alone decides, since
the smaller one is below it. -/
theorem mem_toList_combinations {n : Nat} {p : Pair} :
    p ∈ (combinations n).toList ↔ p.high < n := by
  simp only [mem_toList_iff, ← position?_eq_some_iff, position?]
  split <;> simp [*]

/-- **No candidate is listed twice**, be the candidates a list or the combinations of some
segments. -/
theorem nodup_toList (c : Candidates) : c.toList.Nodup := by
  rw [List.nodup_iff_pairwise_ne, List.pairwise_iff_getElem]
  intro i j hi hj hij heq
  have h₁ : c.position? c.toList[i] = some i :=
    position?_eq_some_iff.2 (getElem?_toList c i ▸ List.getElem?_eq_getElem hi)
  have h₂ : c.position? c.toList[j] = some j :=
    position?_eq_some_iff.2 (getElem?_toList c j ▸ List.getElem?_eq_getElem hj)
  rw [heq, h₂] at h₁
  have := Option.some.inj h₁
  omega

/-! ### Partners -/

/-- **Opposite an index that is in some candidate** may stand the index itself and what makes a
candidate together with it. -/
theorem mem_eligible_iff {c : Candidates} {fixed i : Nat}
    (hfixed : ∃ j, ∃ p ∈ c.toList, Pair.of? j fixed = some p) :
    i ∈ c.eligible fixed ↔ i = fixed ∨ ∃ p ∈ c.toList, Pair.of? i fixed = some p := by
  cases c with
  | listed pairs nodup =>
    rw [eligible, mem_ascending, List.mem_cons, List.mem_filterMap]
    simp only [Pair.partner?_eq_some_iff, Pair.of?_comm fixed]
    rfl
  | combinations n =>
    obtain ⟨j, p, hp, hj⟩ := hfixed
    have hlow := p.low_lt_high
    have hhigh := mem_toList_combinations.1 hp
    have hlt : fixed < n := by
      rcases Pair.of?_eq_some_iff.1 hj with h | h <;> omega
    simp only [eligible, List.mem_range, mem_toList_combinations]
    constructor
    · intro hi
      by_cases hne : i = fixed
      · exact .inl hne
      · obtain ⟨q, hq⟩ := Option.ne_none_iff_exists'.1 (mt Pair.of?_eq_none_iff.1 hne)
        refine .inr ⟨q, ?_, hq⟩
        rcases Pair.of?_eq_some_iff.1 hq with h | h <;> omega
    · rintro (rfl | ⟨q, hq, hi⟩)
      · exact hlt
      · have hlow := q.low_lt_high
        rcases Pair.of?_eq_some_iff.1 hi with h | h <;> omega

/-- **Either member of a candidate may stand opposite the other.** -/
theorem mem_eligible_of_mem {c : Candidates} {p : Pair} {i j : Nat} (hp : p ∈ c.toList)
    (h : Pair.of? i j = some p) : j ∈ c.eligible i := by
  have hj : ∃ q ∈ c.toList, Pair.of? j i = some q := ⟨p, hp, (Pair.of?_comm j i).trans h⟩
  exact (mem_eligible_iff ⟨j, hj⟩).2 (.inr hj)

end Candidates

/-! ### Completion -/

namespace PairSet

variable {s : PairSet}

/-- No more pairs are completed than there are candidates, if only candidates are completed. -/
theorem completedCount_le_length (h : ∀ p ∈ s.completed, p ∈ s.toList) :
    s.completedCount ≤ s.length := by
  have := (s.nodup_completed.subperm h).length_le
  rwa [toList, Candidates.length_toList] at this

/-- **As many completed pairs as candidates means every candidate**, as long as only candidates
are completed. -/
theorem isFullyCompleted_iff (h : ∀ p ∈ s.completed, p ∈ s.toList) :
    s.isFullyCompleted = true ↔ ∀ p ∈ s.toList, s.isCompleted p = true := by
  simp only [isFullyCompleted, decide_eq_true_eq, isCompleted_iff]
  constructor
  · intro hlength p hp
    have hle : s.toList.length ≤ s.completed.length := by
      rwa [toList, Candidates.length_toList]
    exact ((s.nodup_completed.subperm h).perm_of_length_le hle).mem_iff.2 hp
  · intro hall
    have := (s.candidates.nodup_toList.subperm hall).length_le
    rwa [Candidates.length_toList] at this

end PairSet
end PairAnnotation
