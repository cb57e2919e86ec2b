/-
# Lines as they are typed

A text without a line feed can be typed as one line: its bytes in UTF-8, and a line feed
behind them.  No other character has the byte of a line feed in it, since the bytes of a
character beyond ASCII are beyond ASCII too (`eq_or_le_of_mem_utf8EncodeChar`).  So the
line is cut where the text ends and read back as the text (`byteLines_typed`); only a
carriage return at the end of the text is lost, since it belongs to the end of the line.
-/

import Mathlib.Data.List.Basic
import PairAnnotation.Text.Line

namespace PairAnnotation
namespace Text

variable {text : String} {c : Char} {b : UInt8} {bytes rest : List UInt8}

/-- The bytes of a text in UTF-8, in the form in which the loop takes its lines. -/
def encode (text : String) : List UInt8 := text.toByteArray.data.toList

/-- A text as it is typed: its bytes, and the end of the line. -/
def typed (text : String) : List UInt8 := encode text ++ [10]

/-- A text is encoded character by character, each in its own bytes. -/
theorem encode_eq_flatMap (text : String) :
    encode text = text.toList.flatMap String.utf8EncodeChar := by
  conv_lhs => rw [← String.ofList_toList (s := text)]
  rw [encode, String.toByteArray_ofList]
  exact List.toList_data_toByteArray

/-- **What is encoded is decoded**, so every text can be typed as a line. -/
theorem decode?_encode (text : String) : decode? (encode text) = some text := by
  have hbytes : (⟨(encode text).toArray⟩ : ByteArray) = text.toByteArray := rfl
  rw [decode?, hbytes, String.fromUTF8?, dif_pos text.isValidUTF8]
  rfl

/-- **A byte of a character** is its code, or it is beyond ASCII. -/
theorem eq_or_le_of_mem_utf8EncodeChar (hb : b ∈ String.utf8EncodeChar c) :
    b.toNat = c.toNat ∨ 128 ≤ b.toNat := by
  have hor : ∀ x y : UInt8, 128 ≤ y.toNat → 128 ≤ (x ||| y).toNat := by
    intro x y hy
    rw [UInt8.toNat_or]
    exact Nat.le_trans hy Nat.right_le_or
  rcases Char.utf8Size_eq c with h | h | h | h
  · rw [String.utf8EncodeChar_eq_singleton h, List.mem_singleton] at hb
    have hc : c.val.toNat ≤ 127 := Char.utf8Size_eq_one_iff.1 h
    rw [hb, UInt32.toNat_toUInt8]
    exact .inl (Nat.mod_eq_of_lt (by omega))
  · rw [String.utf8EncodeChar_eq_cons_cons h] at hb
    refine .inr ?_
    simp only [List.mem_cons, List.not_mem_nil, or_false] at hb
    rcases hb with rfl | rfl <;> exact hor _ _ (by decide)
  · rw [String.utf8EncodeChar_eq_cons_cons_cons h] at hb
    refine .inr ?_
    simp only [List.mem_cons, List.not_mem_nil, or_false] at hb
    rcases hb with rfl | rfl | rfl <;> exact hor _ _ (by decide)
  · rw [String.utf8EncodeChar_eq_cons_cons_cons_cons h] at hb
    refine .inr ?_
    simp only [List.mem_cons, List.not_mem_nil, or_false] at hb
    rcases hb with rfl | rfl | rfl | rfl <;> exact hor _ _ (by decide)

/-- A byte that stands for an ASCII character stands for no other one. -/
theorem eq_of_mem_utf8EncodeChar {d : Char} (hb : b ∈ String.utf8EncodeChar c)
    (hd : b.toNat = d.toNat) (hascii : d.toNat < 128) : c = d := by
  rcases eq_or_le_of_mem_utf8EncodeChar hb with h | h
  · exact Char.toNat_inj.1 (h.symm.trans hd)
  · omega

/-! ### Cutting lines -/

/-- Bytes up to the next line feed go on the current line. -/
theorem linesFrom_append (h : 10 ∉ bytes) (line rest : List UInt8) :
    linesFrom line (bytes ++ rest) = linesFrom (bytes.reverse ++ line) rest := by
  induction bytes generalizing line with
  | nil => rfl
  | cons b bytes ih =>
    have hb : ¬ b = 10 := fun hb => h (by simp [hb])
    rw [List.cons_append, linesFrom.eq_def]
    dsimp only
    rw [if_neg hb, ih fun h' => h (by simp [h'])]
    simp

/-- A line with a carriage return before its line feed. -/
theorem byteLines_return (h : 10 ∉ bytes) (rest : List UInt8) :
    byteLines (bytes ++ [13] ++ 10 :: rest) = bytes :: byteLines rest := by
  have h' : 10 ∉ bytes ++ [13] := by simpa using h
  rw [byteLines, linesFrom_append h']
  simp [linesFrom, byteLines]

/-- A line without a carriage return before its line feed. -/
theorem byteLines_lineFeed (h : 10 ∉ bytes) (hreturn : bytes.getLast? ≠ some 13)
    (rest : List UInt8) : byteLines (bytes ++ 10 :: rest) = bytes :: byteLines rest := by
  have hne : ∀ line, bytes.reverse = 13 :: line → False := fun line hline =>
    hreturn (by rw [← List.head?_reverse, hline]; rfl)
  rw [byteLines, linesFrom_append h, List.append_nil, linesFrom, if_pos rfl]
  · exact congrArg (· :: byteLines rest) bytes.reverse_reverse
  · exact hne

/-- A text without line breaks has no byte of one, since the bytes of other characters are never
that byte. -/
theorem not_mem_encode (h : '\n' ∉ text.toList) : 10 ∉ encode text := by
  rw [encode_eq_flatMap, List.mem_flatMap]
  rintro ⟨c, hc, hb⟩
  exact h (eq_of_mem_utf8EncodeChar (d := '\n') hb rfl (by decide) ▸ hc)

/-- **A text without a line feed is read back as it was typed**, but for a carriage return at its
end. -/
theorem byteLines_typed (h : '\n' ∉ text.toList) (rest : List UInt8) :
    ∃ line, byteLines (typed text ++ rest) = encode line :: byteLines rest ∧
      (text.toList = line.toList ∨ text.toList = line.toList ++ ['\r']) := by
  rw [typed, List.append_assoc, List.singleton_append]
  rcases List.eq_nil_or_concat text.toList with hnil | ⟨front, c, htext⟩
  · refine ⟨text, byteLines_lineFeed (not_mem_encode h) ?_ rest, .inl rfl⟩
    simp [encode_eq_flatMap, hnil]
  · by_cases hc : c = '\r'
    · have hfront : encode text = encode (String.ofList front) ++ [13] := by
        rw [encode_eq_flatMap, encode_eq_flatMap, htext, hc, String.toList_ofList,
          List.concat_eq_append, List.flatMap_append]
        rfl
      refine ⟨String.ofList front, ?_, .inr (by simp [htext, hc])⟩
      rw [hfront]
      refine byteLines_return (not_mem_encode ?_) rest
      rw [String.toList_ofList]
      exact fun hmem => h (by simp [htext, hmem])
    · refine ⟨text, byteLines_lineFeed (not_mem_encode h) ?_ rest, .inl rfl⟩
      intro hlast
      have hmem : (13 : UInt8) ∈ String.utf8EncodeChar c := by
        rw [encode_eq_flatMap, htext, List.concat_eq_append, List.flatMap_append,
          List.flatMap_singleton, List.getLast?_append] at hlast
        rcases hutf : (String.utf8EncodeChar c).getLast? with _ | b
        · simp at hutf
        · rw [hutf] at hlast
          exact List.mem_of_getLast? (hutf.trans hlast)
      exact hc (eq_of_mem_utf8EncodeChar hmem rfl (by decide))

end Text
end PairAnnotation
