/-
# Ids of a document that is read again

A text cannot hold every document as it is: binary64 numbers are rounded, and a feature
that nests too deeply is not read at all.  But whatever the text of a document is read
as has the annotations under the ids that they had, and the next id
(`Document.ids_of_ofText?`): an integer is read as itself or not as one
(`Tree.eq_of_nat?_nat`), and the records stand in the order in which they were written.
-/

import PairAnnotation.Document.Json
import PairAnnotation.Proofs.Document.Ids
import PairAnnotation.Proofs.Json.Fields

namespace PairAnnotation

open Json

/-! ### Integers -/

namespace Json

/-- The value that the reader collects digit by digit is that of the digits in decimal. -/
theorem Numeral.absorb_eq_ofDigits {n : Nat} {cs : List Char} {m : Nat}
    (h : absorb n cs = (m, [])) : m = ofDigits n cs := by
  induction cs generalizing n with
  | nil =>
    cases h
    rfl
  | cons c cs ih =>
    rw [absorb] at h
    split at h
    · exact ih h
    · cases h

/-- A number is the value of its own digits. -/
theorem Numeral.ofDigits_toDigits (n : Nat) : ofDigits 0 (Nat.toDigits 10 n) = n := by
  have h := Nat.ofDigitChars_toDigits (b := 10) (n := n) (by decide) (by decide)
  simp only [Nat.ofDigitChars] at h
  simp only [ofDigits, digit]
  refine Eq.trans ?_ h
  congr 1
  funext n c
  rw [Nat.mul_comm]
  rfl

/-- The digits of an integer make that integer, or a binary64 number if they do not fit. -/
theorem Numeral.number?_integer {n m : Nat} (h : (integer false n).number? = some (.natural m)) :
    m = n := by
  rcases habsorb : absorb 0 (Nat.toDigits 10 n) with ⟨whole, dropped⟩
  simp only [number?, integer, habsorb] at h
  by_cases hdropped : dropped = []
  · rw [hdropped] at habsorb h
    obtain rfl : whole = m := by simpa using h
    rw [absorb_eq_ofDigits habsorb, ofDigits_toDigits]
  · simp only [hdropped, and_false, if_false] at h
    simp [real?, Option.bind_eq_some_iff] at h

/-- **An integer is read as itself**, if it is read as an integer. -/
theorem Tree.eq_of_nat?_nat {n m : Nat} (h : (Value.nat n).written.nat? = some m) : m = n := by
  have hwritten : (Value.nat n).written = .number (Numeral.integer false n) := rfl
  rw [hwritten, nat?] at h
  split at h
  · rename_i hnumber
    cases h
    exact Numeral.number?_integer hnumber
  · cases h

/-- A number in a field that has to be there is read as the one that was written. -/
theorem Tree.eq_of_required? {n m : Nat}
    (h : required? nat? (some (Value.nat n).written) = some m) : m = n := eq_of_nat?_nat h

end Json

/-! ### Records -/

/-- **A span is read with the id that it was written with**, if it is read at all. -/
theorem SpanAnnotation.id_of_ofJson? {s s' : SpanAnnotation}
    (h : ofJson? s.toJson.written = some s') : s'.id = s.id := by
  rw [ofJson?, toJson, Tree.fields?_written _ (by simp)] at h
  simp only [Option.bind_eq_bind, Option.bind_some, List.map_cons, List.map_nil, lookup_cons_ite,
    Option.bind_eq_some_iff, Option.some.injEq] at h
  obtain ⟨id, hid, layer, -, start, -, stop, -, features, -, rfl⟩ := h
  exact congrArg AnnotationId.mk (Tree.eq_of_required? hid)

/-- **A relation is read with the id that it was written with**, if it is read at all. -/
theorem RelationRecord.id_of_ofJson? {r r' : RelationRecord}
    (h : ofJson? r.toJson.written = some r') : r'.id = r.id := by
  rw [ofJson?, toJson, Tree.fields?_written _ (by simp)] at h
  simp only [Option.bind_eq_bind, Option.bind_some, List.map_cons, List.map_nil, lookup_cons_ite,
    Option.bind_eq_some_iff, Option.some.injEq] at h
  obtain ⟨id, hid, layer, -, features, -, rfl⟩ := h
  exact congrArg AnnotationId.mk (Tree.eq_of_required? hid)

/-- **Records stand in the order in which they were written**, each with its key. -/
theorem map_eq_of_list? {α κ : Type} {write : α → Value} {read? : Tree → Option α} {key : α → κ}
    (hkey : ∀ a b, read? (write a).written = some b → key b = key a) {l l' : List α}
    (h : Tree.list? read? (Value.array (l.map write)).written = some l') :
    l'.map key = l.map key := by
  rw [Value.written, itemsWritten_eq_map, List.map_map, Tree.list?, List.mapM_map] at h
  exact map_eq_of_mapM hkey h

namespace Document

/-- **What the text of a document is read as has its ids**, and its next id. -/
theorem ids_of_ofText? {d d' : Document} (h : ofText? d.toText = some d') :
    d'.ids = d.ids ∧ d'.nextId = d.nextId := by
  rw [ofText?, toText, Tree.parse_written, Option.bind_some, ofJson?, toJson,
    Tree.fields?_written _ (by simp)] at h
  simp only [Option.bind_eq_bind, Option.bind_some, List.map_cons, List.map_nil, lookup_cons_ite,
    Option.bind_eq_some_iff, Option.some.injEq] at h
  obtain ⟨name, -, format, -, text, -, sentences, -, spans, hspans, relations, hrelations, tagSets,
    -, nextId, hnext, rfl⟩ := h
  have hspans' := map_eq_of_list? (fun _ _ => SpanAnnotation.id_of_ofJson?) hspans
  have hrelations' := map_eq_of_list? (fun _ _ => RelationRecord.id_of_ofJson?) hrelations
  exact ⟨congrArg₂ (· ++ ·) hspans' hrelations', Tree.eq_of_nat?_nat hnext⟩

end Document

end PairAnnotation
