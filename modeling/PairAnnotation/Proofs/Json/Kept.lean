/-
# Values that are kept

What a tree is kept as has integers of 64 bits and members in ascending order of their
names (`Value.Kept`), and its text nests no deeper than the text it came from
(`kept_of_value?`).  Such a value without binary64 numbers is read back from its own tree
(`value?_tree`): its digits stay below the greatest integer while they are gathered, and
each member goes to the end of those that are there already.
-/

import PairAnnotation.Proofs.Json.Text

namespace PairAnnotation
namespace Json

/-! ### Integers -/

namespace Numeral

theorem absorb_append {m k : Nat} {front : List Char} (h : absorb m front = (k, []))
    (back : List Char) : absorb m (front ++ back) = absorb k back := by
  induction front generalizing m with
  | nil =>
    cases h
    rfl
  | cons c front ih =>
    rw [absorb] at h
    rw [List.cons_append, absorb]
    split
    · rename_i hle
      rw [if_pos hle] at h
      exact ih h
    · rename_i hgt
      rw [if_neg hgt] at h
      cases h

theorem digit_digitChar : ∀ n < 10, digit (Nat.digitChar n) = n := by decide

/-- **The digits of an integer of 64 bits are gathered to that integer.** -/
theorem absorb_toDigits {n : Nat} (h : n ≤ word) : absorb 0 (Nat.toDigits 10 n) = (n, []) := by
  induction n using Nat.strongRecOn with
  | ind n ih =>
    by_cases hlt : n < 10
    · rw [Nat.toDigits_of_lt_base hlt, absorb, digit_digitChar n hlt, if_pos (by omega), absorb]
      simp
    · have hfront := ih (n / 10) (by omega) (by omega)
      rw [Nat.toDigits_of_base_le (by omega) (by omega), absorb_append hfront, absorb,
        digit_digitChar (n % 10) (by omega), if_pos (by omega), absorb]
      simp only [Prod.mk.injEq, and_true]
      omega

theorem absorb_le {m : Nat} (h : m ≤ word) (cs : List Char) : (absorb m cs).1 ≤ word := by
  induction cs generalizing m with
  | nil => exact h
  | cons c cs ih =>
    rw [absorb]
    split
    · rename_i hle
      exact ih hle
    · exact h

end Numeral

/-- Integers fit 64 bits, as they do in everything that was read; reals are kept as they are. -/
def Number.Kept : Number → Prop
  | .natural n => n ≤ Numeral.word
  | .negative n => 0 < n ∧ n ≤ Nat.pow 2 63
  | .real _ _ => True

theorem number?_numeral {n : Number} (h : n.Kept) (hreal : (Value.number n).realFree = true) :
    n.numeral.number? = some n := by
  cases n with
  | natural n =>
    have hdigits := Numeral.absorb_toDigits (h : n ≤ Numeral.word)
    simp [Number.numeral, Numeral.integer, Numeral.number?, hdigits]
  | negative n =>
    obtain ⟨hpos, hle⟩ : 0 < n ∧ n ≤ Nat.pow 2 63 := h
    have hword : Nat.pow 2 63 ≤ Numeral.word := by decide
    have hdigits := Numeral.absorb_toDigits (Nat.le_trans hle hword)
    have hne : n ≠ 0 := by omega
    simp only [Number.numeral, Numeral.integer, Numeral.number?, hdigits]
    rw [if_pos ⟨trivial, trivial, trivial⟩, if_pos trivial, if_neg hne, if_pos hle]
  | real isNegative x => cases hreal

theorem kept_of_real? {isNegative : Bool} {significand : Nat} {e : Int} {n : Number}
    (h : Numeral.real? isNegative significand e = some n) : n.Kept := by
  simp only [Numeral.real?, Option.bind_eq_bind, Option.bind_eq_some_iff, Option.some.injEq] at h
  obtain ⟨x, -, y, -, rfl⟩ := h
  trivial

/-- The number that a numeral is kept as has at most 64 bits. -/
theorem kept_of_number? {m : Numeral} {n : Number} (h : m.number? = some n) : n.Kept := by
  have hle := Numeral.absorb_le (Nat.zero_le Numeral.word) m.whole
  unfold Numeral.number? at h
  dsimp only at h
  split at h
  · split at h
    · split at h
      · cases h
        trivial
      · split at h
        · rename_i hne hlt
          cases h
          exact ⟨Nat.pos_of_ne_zero hne, hlt⟩
        · exact kept_of_real? h
    · cases h
      exact hle
  · split at h
    · exact kept_of_real? h
    · split at h
      · exact kept_of_real? h
      · split at h
        · cases h
        · cases h
          trivial

/-! ### Values -/

mutual

/-- Integers fit 64 bits, and members ascend strictly by their names. -/
def Value.Kept : Value → Prop
  | .number n => n.Kept
  | .array items => KeptItems items
  | .object members => AscendingNames members ∧ KeptMembers members
  | _ => True

def KeptItems : List Value → Prop
  | [] => True
  | v :: rest => v.Kept ∧ KeptItems rest

def KeptMembers : List (String × Value) → Prop
  | [] => True
  | (_, v) :: rest => v.Kept ∧ KeptMembers rest

end

theorem keptMembers_iff {members : List (String × Value)} :
    KeptMembers members ↔ ∀ m ∈ members, m.2.Kept := by
  induction members with
  | nil => simp [KeptMembers]
  | cons m members ih => rw [KeptMembers, ih, List.forall_mem_cons]

theorem depthMembers_le_iff {members : List (String × Value)} {n : Nat} :
    depthMembers (memberTrees members) ≤ n ↔ ∀ m ∈ members, m.2.tree.depth ≤ n := by
  induction members with
  | nil => simp [memberTrees, depthMembers]
  | cons m members ih => rw [memberTrees, depthMembers, Nat.max_le, ih, List.forall_mem_cons]

/-- A name beyond all others goes to the end of the entries. -/
theorem insertAscending_append {α : Type} {name : String} {value : α} {entries : List (String × α)}
    (h : AscendingNames (entries ++ [(name, value)])) :
    insertAscending name value entries = entries ++ [(name, value)] := by
  induction entries with
  | nil => rfl
  | cons e rest ih =>
    obtain ⟨hlt, hrest⟩ := List.pairwise_cons.1 h
    have hname : e.1 < name := hlt _ (List.mem_append_right _ List.mem_cons_self)
    have hne : name ≠ e.1 := by
      intro heq
      rw [heq] at hname
      exact String.lt_irrefl _ hname
    rw [insertAscending, if_neg (String.lt_asymm hname), if_neg hne, ih hrest]
    rfl

mutual

/-- **A value without binary64 numbers is read back from its tree.** -/
theorem value?_tree (v : Value) (h : v.Kept) (hreal : v.realFree = true) :
    v.tree.value? = some v := by
  match v with
  | .null => rfl
  | .bool b => rfl
  | .number n => exact congrArg (Option.map Value.number) (number?_numeral h hreal)
  | .string s => rfl
  | .array items => exact congrArg (Option.map Value.array) (itemValues?_itemTrees items h hreal)
  | .object members =>
    exact congrArg (Option.map Value.object)
      (memberValues?_memberTrees members [] h.1 h.2 hreal)

theorem itemValues?_itemTrees (items : List Value) (h : KeptItems items)
    (hreal : realFreeItems items = true) : itemValues? (itemTrees items) = some items := by
  match items with
  | [] => rfl
  | v :: items =>
    obtain ⟨hv, hitems⟩ := Bool.and_eq_true_iff.1 hreal
    rw [itemTrees, itemValues?, value?_tree v h.1 hv, itemValues?_itemTrees items h.2 hitems]
    rfl

/-- Members that go on ascending from those kept already are added behind them. -/
theorem memberValues?_memberTrees (members kept : List (String × Value))
    (hascending : AscendingNames (kept ++ members)) (h : KeptMembers members)
    (hreal : realFreeMembers members = true) :
    memberValues? (memberTrees members) kept = some (kept ++ members) := by
  match members with
  | [] => rw [memberTrees, memberValues?, List.append_nil]
  | (name, v) :: members =>
    obtain ⟨hv, hmembers⟩ := Bool.and_eq_true_iff.1 hreal
    have hkept : AscendingNames (kept ++ [(name, v)] ++ members) := by
      rwa [List.append_assoc, List.singleton_append]
    have hinsert := insertAscending_append (List.pairwise_append.1 hkept).1
    have hrest := memberValues?_memberTrees members (kept ++ [(name, v)]) hkept h.2 hmembers
    rw [memberTrees, memberValues?, value?_tree v h.1 hv]
    simp only [Option.bind_eq_bind, Option.bind_some]
    rw [hinsert, hrest, List.append_assoc, List.singleton_append]

end

mutual

/-- **What a tree is kept as is kept**, and its text nests no deeper. -/
theorem kept_of_value? (t : Tree) {v : Value} (h : t.value? = some v) :
    v.Kept ∧ v.tree.depth ≤ t.depth := by
  match t with
  | .null => cases h; exact ⟨trivial, Nat.le_refl _⟩
  | .bool b => cases h; exact ⟨trivial, Nat.le_refl _⟩
  | .number n =>
    obtain ⟨m, hm, rfl⟩ := Option.map_eq_some_iff.1 h
    exact ⟨kept_of_number? hm, Nat.le_refl _⟩
  | .string s =>
    obtain ⟨s, -, rfl⟩ := Option.map_eq_some_iff.1 h
    exact ⟨trivial, Nat.le_refl _⟩
  | .array items =>
    obtain ⟨values, hvalues, rfl⟩ := Option.map_eq_some_iff.1 h
    obtain ⟨hkept, hdepth⟩ := kept_of_itemValues? items hvalues
    exact ⟨hkept, Nat.succ_le_succ hdepth⟩
  | .object members =>
    obtain ⟨values, hvalues, rfl⟩ := Option.map_eq_some_iff.1 h
    obtain ⟨hascending, hall⟩ := kept_of_memberValues? members [] List.Pairwise.nil hvalues
      (fun m hm => absurd hm List.not_mem_nil) (n := depthMembers members) (Nat.le_refl _)
    refine ⟨⟨hascending, keptMembers_iff.2 fun m hm => (hall m hm).1⟩, ?_⟩
    exact Nat.succ_le_succ (depthMembers_le_iff.2 fun m hm => (hall m hm).2)

theorem kept_of_itemValues? (items : List Tree) {values : List Value}
    (h : itemValues? items = some values) :
    KeptItems values ∧ depthItems (itemTrees values) ≤ depthItems items := by
  match items with
  | [] => cases h; exact ⟨trivial, Nat.le_refl _⟩
  | t :: items =>
    simp only [itemValues?, Option.bind_eq_bind, Option.bind_eq_some_iff, Option.some.injEq] at h
    obtain ⟨v, hv, vs, hvs, rfl⟩ := h
    obtain ⟨hkept, hdepth⟩ := kept_of_value? t hv
    obtain ⟨hkepts, hdepths⟩ := kept_of_itemValues? items hvs
    refine ⟨⟨hkept, hkepts⟩, ?_⟩
    rw [itemTrees, depthItems, depthItems]
    omega

/-- Members that are added to kept ones keep them kept, and what is added is kept as well. -/
theorem kept_of_memberValues? (members : List (Option String × Tree)) {n : Nat}
    (kept : List (String × Value)) (hascending : AscendingNames kept)
    {values : List (String × Value)} (h : memberValues? members kept = some values)
    (hkept : ∀ m ∈ kept, m.2.Kept ∧ m.2.tree.depth ≤ n) (hn : depthMembers members ≤ n) :
    AscendingNames values ∧ ∀ m ∈ values, m.2.Kept ∧ m.2.tree.depth ≤ n := by
  match members with
  | [] =>
    cases h
    exact ⟨hascending, hkept⟩
  | (name, t) :: members =>
    simp only [memberValues?, Option.bind_eq_bind, Option.bind_eq_some_iff] at h
    obtain ⟨name, -, v, hv, hvalues⟩ := h
    rw [depthMembers] at hn
    obtain ⟨hvkept, hvdepth⟩ := kept_of_value? t hv
    refine kept_of_memberValues? members (insertAscending name v kept)
      (ascendingNames_insertAscending name v hascending) hvalues (fun m hm => ?_) (by omega)
    rcases fst_mem_insertAscending hm with rfl | hm
    · exact ⟨hvkept, Nat.le_trans hvdepth (by omega)⟩
    · exact hkept m hm

end

end Json
end PairAnnotation
