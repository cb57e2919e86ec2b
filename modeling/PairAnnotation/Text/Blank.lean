/-
# White space

The characters of Unicode's White_Space property, and the two things done with
them: cutting them off the ends of a text, and splitting a line into words.
-/

namespace PairAnnotation
namespace Text

/-- **The White_Space property**: the ASCII controls from U+0009 to U+000D, the blank, the next-line
control, and the spaces and separators beyond ASCII. -/
def isBlank (c : Char) : Bool :=
  (0x9 ≤ c.toNat && c.toNat ≤ 0xD) || c.toNat == 0x20 || c.toNat == 0x85 || c.toNat == 0xA0
    || c.toNat == 0x1680 || (0x2000 ≤ c.toNat && c.toNat ≤ 0x200A) || c.toNat == 0x2028
    || c.toNat == 0x2029 || c.toNat == 0x202F || c.toNat == 0x205F || c.toNat == 0x3000

/-- Cut white space off the front. -/
def trimStart (cs : List Char) : List Char := cs.dropWhile isBlank

/-- Cut white space off the back. -/
def trimEnd (cs : List Char) : List Char := (cs.reverse.dropWhile isBlank).reverse

/-- Cut white space off both ends. -/
def trim (cs : List Char) : List Char := trimEnd (trimStart cs)

/-- Whether there is nothing but white space, as in an empty text. -/
def isAllBlank (text : String) : Bool := text.toList.all isBlank

/-- The stretches between white space, from a text whose current word is given reversed. -/
def wordsFrom (word : List Char) : List Char → List (List Char)
  | [] => if word = [] then [] else [word.reverse]
  | c :: rest =>
    if isBlank c then
      if word = [] then wordsFrom [] rest else word.reverse :: wordsFrom [] rest
    else wordsFrom (c :: word) rest

/-- **The words of a line**: its stretches without white space. -/
def words (line : String) : List String := (wordsFrom [] line.toList).map String.ofList

/-! ### Runs of characters -/

/-- **What a run leaves**: characters of one kind are taken off a text up to the first other one. -/
theorem takeWhile_append_of_head? {p : Char → Bool} {front back : List Char}
    (hfront : ∀ c ∈ front, p c = true) (hback : ∀ c ∈ back.head?, p c = false) :
    (front ++ back).takeWhile p = front ∧ (front ++ back).dropWhile p = back := by
  rw [List.takeWhile_append_of_pos hfront, List.dropWhile_append_of_pos hfront]
  cases back with
  | nil => exact ⟨List.append_nil _, rfl⟩
  | cons c back =>
    rw [List.takeWhile_cons, List.dropWhile_cons, hback c rfl]
    exact ⟨List.append_nil _, rfl⟩

/-- What is left after a prefix was dropped does not begin with what was dropped. -/
theorem head?_dropWhile {p : Char → Bool} (cs : List Char) :
    ∀ c ∈ (cs.dropWhile p).head?, p c = false := by
  intro c hc
  have h := List.head?_dropWhile_not p cs
  rw [hc] at h
  exact h

end Text
end PairAnnotation
