/-
# Text that is written is read back

The reader takes apart what the printer puts together, value by value and whatever
follows.  A string comes back character by character (`readString_escape`), a number as
its numeral (`readNumeral_number`), as long as what follows does not go on with it, and
containers by induction on the value (`readTree_pretty`): each step takes one value off
the text and leaves the rest.  So the text of a value is read as a tree that can be told
from the value (`Tree.parse_written`).  Where no binary64 numbers are in the value, that
is the tree with its integers (`Tree.parse_prettyText`).
-/

import PairAnnotation.Proofs.Json.Numerals

namespace PairAnnotation
namespace Json

variable {rest : List Char}

/-! ### Strings -/

/-- The digit that the printer writes for a number below 16 is read as that number, so an escape
keeps the number of its character. -/
theorem hexValue?_hexDigit : ∀ n < 16, hexValue? (hexDigit n) = some n := by decide

/-- The escape of a control character is its code unit. -/
theorem codeUnit?_hexDigit {c : Char} (h : c.toNat < 32) :
    codeUnit? '0' '0' (hexDigit (c.toNat / 16)) (hexDigit (c.toNat % 16)) = some c.toNat := by
  have hzero : hexValue? '0' = some 0 := rfl
  have hhigh := hexValue?_hexDigit (c.toNat / 16) (by omega)
  have hlow := hexValue?_hexDigit (c.toNat % 16) (by omega)
  simp only [codeUnit?, hzero, hhigh, hlow, bind, Option.bind, Option.some.injEq]
  omega

/-- A code unit below the first printable character stands for that character, since no half of a
surrogate pair is that small. -/
theorem ofUnit_toNat {c : Char} (h : c.toNat < 32) : StringPart.ofUnit c.toNat = .char c := by
  rw [StringPart.ofUnit, if_neg (by omega), Char.ofNat_toNat]

/-- The escape of a single letter is read as the character it stands for. -/
theorem readParts_letter {e c : Char} (h : escapedChar? e = some c) (cs : List Char) :
    readParts ('\\' :: e :: cs) =
      (readParts cs).map fun (parts, rest) => (.char c :: parts, rest) := by
  have hu : e ≠ 'u' := by
    rintro rfl
    cases h
  rw [readParts, h]
  · cases readParts cs <;> rfl
  · rintro _ _ _ _ _ rfl
    exact absurd rfl hu

/-- **An escaped character is read as one part of the string.** -/
theorem readParts_escapeChar (c : Char) (cs : List Char) :
    readParts (escapeChar c ++ cs) =
      (readParts cs).map fun (parts, rest) => (.char c :: parts, rest) := by
  unfold escapeChar
  split
  · rename_i h
    subst h
    exact readParts_letter rfl cs
  split
  · rename_i h
    subst h
    exact readParts_letter rfl cs
  split
  · rename_i hcontrol
    iterate 5
      split
      · rename_i h
        subst h
        exact readParts_letter rfl cs
    have h : c.toNat < 32 := hcontrol
    rw [List.cons_append, List.cons_append, List.cons_append, List.cons_append, List.cons_append,
      List.cons_append, List.nil_append, readParts, codeUnit?_hexDigit h]
    simp only [Option.bind_eq_bind, Option.bind_some, ofUnit_toNat h]
    cases readParts cs <;> rfl
  · rename_i hquote hbackslash hcontrol
    rw [List.singleton_append, readParts, if_neg hcontrol]
    · cases readParts cs <;> rfl
    all_goals simp_all

/-- **An escaped text is read up to its closing quotation mark**, as the characters that were
escaped; what stands behind the mark is left as it is. -/
theorem readParts_escape (cs rest : List Char) :
    readParts (escape cs ++ '"' :: rest) = some (cs.map .char, rest) := by
  induction cs with
  | nil => rfl
  | cons c cs ih =>
    rw [escape, List.flatMap_cons, List.append_assoc, readParts_escapeChar, ← escape, ih]
    rfl

/-- Characters that are all whole join to themselves: only halves of surrogate pairs are put
together, and none of them is a character. -/
theorem joinParts_map_char (cs : List Char) : joinParts (cs.map .char) = some cs := by
  induction cs with
  | nil => rfl
  | cons c cs ih => rw [List.map_cons, joinParts, ih, Option.map_some]

/-- **A string is read back up to its closing quote.** -/
theorem readString_escape (s : String) (rest : List Char) :
    readString (escape s.toList ++ '"' :: rest) = some (some s, rest) := by
  rw [readString, readParts_escape, Option.map_some]
  dsimp only
  rw [joinParts_map_char, Option.map_some, String.ofList_toList]

/-! ### Values without binary64 numbers -/

mutual

/-- Whether no binary64 number is in a value, at whatever depth. -/
def Value.realFree : Value → Bool
  | .number (.real _ _) => false
  | .array items => realFreeItems items
  | .object members => realFreeMembers members
  | _ => true

/-- No value in a list holds a real number; with `Value.realFree` and the one for members this
follows the nesting of values. -/
def realFreeItems : List Value → Bool
  | [] => true
  | v :: rest => v.realFree && realFreeItems rest

/-- No value of a member holds a real number.  The names do not count, since they are texts. -/
def realFreeMembers : List (String × Value) → Bool
  | [] => true
  | (_, v) :: rest => v.realFree && realFreeMembers rest

end

/-- That a list holds no real number is a statement about each value in it. -/
theorem realFreeItems_iff {items : List Value} :
    realFreeItems items = true ↔ ∀ v ∈ items, v.realFree = true := by
  induction items with
  | nil => simp [realFreeItems]
  | cons v items ih => rw [realFreeItems, Bool.and_eq_true, ih, List.forall_mem_cons]

/-- That members hold no real number is a statement about the value of each member. -/
theorem realFreeMembers_iff {members : List (String × Value)} :
    realFreeMembers members = true ↔ ∀ m ∈ members, m.2.realFree = true := by
  induction members with
  | nil => simp [realFreeMembers]
  | cons m members ih => rw [realFreeMembers, Bool.and_eq_true, ih, List.forall_mem_cons]

@[simp]
theorem realFree_nat (n : Nat) : (Value.nat n).realFree = true := rfl

@[simp]
theorem realFree_string (s : String) : (Value.string s).realFree = true := rfl

/-- An object holds no real number exactly if no value of its members does. -/
theorem realFree_object {members : List (String × Value)} :
    (Value.object members).realFree = true ↔ ∀ m ∈ members, m.2.realFree = true :=
  realFreeMembers_iff

/-- A list that is written element by element holds no real number exactly if no element writes
one. -/
theorem realFree_array_map {α : Type} {write : α → Value} {l : List α} :
    (Value.array (l.map write)).realFree = true ↔ ∀ a ∈ l, (write a).realFree = true := by
  rw [Value.realFree, realFreeItems_iff, List.forall_mem_map]

/-- The numeral of an integer.  The digits of a binary64 number are not followed here, and it has
none. -/
def Number.numeral : Number → Numeral
  | .natural n => .integer false n
  | .negative n => .integer true n
  | .real isNegative _ => ⟨isNegative, [], [], none⟩

mutual

/-- The tree of the text of a value: its integers as numerals, its strings as they are, and no real
number in it. -/
def Value.tree : Value → Tree
  | .null => .null
  | .bool b => .bool b
  | .number n => .number n.numeral
  | .string s => .string (some s)
  | .array items => .array (itemTrees items)
  | .object members => .object (memberTrees members)

/-- The trees of the values in a list, in the same order; the integers in them are told by their
numerals. -/
def itemTrees : List Value → List Tree
  | [] => []
  | v :: rest => v.tree :: itemTrees rest

/-- The trees of members, each with its name, which is whole because it was never cut from a
text. -/
def memberTrees : List (String × Value) → List (Option String × Tree)
  | [] => []
  | (name, v) :: rest => (some name, v.tree) :: memberTrees rest

end

mutual

/-- The tree that the text of a value is read as, the digits of its binary64 numbers included. -/
def Value.written : Value → Tree
  | .null => .null
  | .bool b => .bool b
  | .number n => .number n.written
  | .string s => .string (some s)
  | .array items => .array (itemsWritten items)
  | .object members => .object (membersWritten members)

/-- The trees that are read for the values in a list, where real numbers come back as their shortest
numeral. -/
def itemsWritten : List Value → List Tree
  | [] => []
  | v :: rest => v.written :: itemsWritten rest

/-- The trees that are read for members, each with its name as it was written. -/
def membersWritten : List (String × Value) → List (Option String × Tree)
  | [] => []
  | (name, v) :: rest => (some name, v.written) :: membersWritten rest

end

mutual

/-- Without binary64 numbers there are no digits but those of integers. -/
theorem written_eq_tree (v : Value) (h : v.realFree = true) : v.written = v.tree := by
  match v with
  | .null => rfl
  | .bool _ => rfl
  | .number (.natural _) => rfl
  | .number (.negative _) => rfl
  | .string _ => rfl
  | .array items => exact congrArg Tree.array (itemsWritten_eq_itemTrees items h)
  | .object members => exact congrArg Tree.object (membersWritten_eq_memberTrees members h)

/-- Where no real number stands, what is read for the values in a list are their own trees. -/
theorem itemsWritten_eq_itemTrees (items : List Value) (h : realFreeItems items = true) :
    itemsWritten items = itemTrees items := by
  match items with
  | [] => rfl
  | v :: items =>
    obtain ⟨hv, hitems⟩ := Bool.and_eq_true_iff.1 h
    rw [itemsWritten, itemTrees, written_eq_tree v hv, itemsWritten_eq_itemTrees items hitems]

/-- Where no real number stands, what is read for members are their own trees. -/
theorem membersWritten_eq_memberTrees (members : List (String × Value))
    (h : realFreeMembers members = true) : membersWritten members = memberTrees members := by
  match members with
  | [] => rfl
  | (name, v) :: members =>
    obtain ⟨hv, hmembers⟩ := Bool.and_eq_true_iff.1 h
    rw [membersWritten, memberTrees, written_eq_tree v hv,
      membersWritten_eq_memberTrees members hmembers]

end

/-! ### Blanks -/

/-- A character that is not blank stops the skipping, so nothing is skipped in front of it. -/
theorem skipBlanks_of_not_blank {c : Char} (h : isBlank c = false) (cs : List Char) :
    skipBlanks (c :: cs) = c :: cs := by
  rw [skipBlanks, List.dropWhile_cons, h]
  rfl

/-- Skipping blanks twice is skipping them once: the first character that is left is not blank. -/
theorem skipBlanks_skipBlanks (cs : List Char) : skipBlanks (skipBlanks cs) = skipBlanks cs := by
  induction cs with
  | nil => rfl
  | cons c cs ih =>
    cases h : isBlank c with
    | false => rw [skipBlanks_of_not_blank h, skipBlanks_of_not_blank h]
    | true =>
      have hskip : skipBlanks (c :: cs) = skipBlanks cs := List.dropWhile_cons_of_pos h
      rw [hskip, ih]

/-- A line break with its indentation is blank throughout, so it is skipped whatever the level
is. -/
theorem skipBlanks_lineBreak (level : Nat) (cs : List Char) :
    skipBlanks (lineBreak level ++ cs) = skipBlanks cs := by
  refine List.dropWhile_append_of_pos fun c hc => ?_
  rcases List.mem_cons.1 hc with rfl | hc
  · rfl
  · rw [(List.mem_replicate.1 hc).2]
    rfl

/-- A tree may begin with blanks: the reader skips them itself, so it makes no difference if they
are skipped before. -/
theorem readTree_skipBlanks (fuel : Nat) (cs : List Char) :
    readTree fuel (skipBlanks cs) = readTree fuel cs := by
  cases fuel with
  | zero => rfl
  | succ fuel => rw [readTree, skipBlanks_skipBlanks, readTree]

/-- The values of a list may begin with blanks, since the first of them may. -/
theorem readItems_skipBlanks (fuel : Nat) (cs : List Char) :
    readItems fuel (skipBlanks cs) = readItems fuel cs := by
  cases fuel with
  | zero => rfl
  | succ fuel => rw [readItems, readTree_skipBlanks, readItems]

/-- Members may begin with blanks: the reader skips them before it looks for the name. -/
theorem readMembers_skipBlanks (fuel : Nat) (cs : List Char) :
    readMembers fuel (skipBlanks cs) = readMembers fuel cs := by
  cases fuel with
  | zero => rfl
  | succ fuel => rw [readMembers, skipBlanks_skipBlanks, readMembers]

/-- In front of a tree a line break is read over, which is what lets the printer put each value on
its own line. -/
theorem readTree_lineBreak (fuel level : Nat) (cs : List Char) :
    readTree fuel (lineBreak level ++ cs) = readTree fuel cs := by
  rw [← readTree_skipBlanks, skipBlanks_lineBreak, readTree_skipBlanks]

/-! ### Values -/

/-- The text of a number starts with a digit or a minus sign. -/
theorem exists_numeral_cons (n : Number) :
    ∃ c cs, n.text = c :: cs ∧ (c.isDigit = true ∨ c = '-') := by
  have hwhole := n.proper_written.whole.digits
  rw [n.text_written, Numeral.text]
  obtain ⟨c, cs, hcs⟩ := List.exists_cons_of_ne_nil hwhole.1
  cases n.written.isNegative with
  | true => exact ⟨_, _, rfl, .inr rfl⟩
  | false =>
    rw [hcs]
    exact ⟨c, _, rfl, .inl (hwhole.2 c (hcs ▸ List.mem_cons_self))⟩

/-- No numeral begins with a character that is neither a digit nor the minus sign, and so it is not
taken for another kind of value. -/
theorem ne_of_numeral {c d : Char} (h : c.isDigit = true ∨ c = '-') (hdigit : d.isDigit = false)
    (hminus : d ≠ '-') : c ≠ d := by
  rintro rfl
  rcases h with h | h
  · exact absurd h (by simp [hdigit])
  · exact hminus h

/-- The first character of a numeral is not blank, so nothing is skipped in front of a number. -/
theorem isBlank_of_numeral {c : Char} (h : c.isDigit = true ∨ c = '-') : isBlank c = false := by
  simp [isBlank, ne_of_numeral h]

/-- What starts with a digit or a minus sign is read as a numeral. -/
theorem readTree_numeral (fuel : Nat) {c : Char} {cs : List Char}
    (h : c.isDigit = true ∨ c = '-') :
    readTree (fuel + 1) (c :: cs) =
      (readNumeral (c :: cs)).map fun (n, rest) => (.number n, rest) := by
  rw [readTree, skipBlanks_of_not_blank (isBlank_of_numeral h)]
  split
  case h_7 => rfl
  all_goals
    rename_i heq
    exact absurd (List.cons.inj heq).1 (ne_of_numeral h rfl (by decide))

/-- **A number is read as it is written**, as long as the text behind it does not go on with the
numeral. -/
theorem readTree_number (fuel : Nat) (n : Number) (hrest : EndsNumeral rest) :
    readTree (fuel + 1) (n.text ++ rest) = some (.number n.written, rest) := by
  obtain ⟨c, cs, hcs, hc⟩ := exists_numeral_cons n
  have hread := readNumeral_number n hrest
  rw [hcs, List.cons_append] at hread
  rw [hcs, List.cons_append, readTree_numeral fuel hc, hread]
  rfl

/-- A value starts with a character that is neither blank nor the end of an array. -/
theorem exists_pretty_cons (v : Value) (level : Nat) :
    ∃ c cs, v.pretty level = c :: cs ∧ isBlank c = false ∧ c ≠ ']' := by
  cases v with
  | null => exact ⟨_, _, rfl, rfl, by decide⟩
  | bool b => cases b <;> exact ⟨_, _, rfl, rfl, by decide⟩
  | string s => exact ⟨_, _, rfl, rfl, by decide⟩
  | array items => cases items <;> exact ⟨_, _, rfl, rfl, by decide⟩
  | object members => cases members <;> exact ⟨_, _, rfl, rfl, by decide⟩
  | number n =>
    obtain ⟨c, cs, hcs, hc⟩ := exists_numeral_cons n
    exact ⟨c, cs, hcs, isBlank_of_numeral hc, ne_of_numeral hc rfl (by decide)⟩

/-- What is read behind an opening bracket: the closing one at once, or the values up to it. -/
theorem readTree_bracket (fuel : Nat) (cs : List Char) :
    readTree (fuel + 1) ('[' :: cs) =
      match skipBlanks cs with
      | ']' :: rest => some (.array [], rest)
      | rest => (readItems fuel rest).map fun (items, rest) => (.array items, rest) := rfl

/-- What is read behind an opening brace: the closing one at once, or the members up to it. -/
theorem readTree_brace (fuel : Nat) (cs : List Char) :
    readTree (fuel + 1) ('{' :: cs) =
      match skipBlanks cs with
      | '}' :: rest => some (.object [], rest)
      | rest => (readMembers fuel rest).map fun (members, rest) => (.object members, rest) := rfl

/-- A list that is not empty stands between brackets, one level deeper, with the closing bracket on
a line of its own. -/
theorem pretty_array_cons (level : Nat) (v : Value) (items : List Value) :
    (Value.array (v :: items)).pretty level =
      '[' :: (prettyItems (level + 1) (v :: items) ++ (lineBreak level ++ [']'])) :=
  congrArg (List.cons '[') (List.append_assoc _ _ _)

/-- An object that is not empty stands between braces, one level deeper, with the closing brace on a
line of its own. -/
theorem pretty_object_cons (level : Nat) (m : String × Value) (members : List (String × Value)) :
    (Value.object (m :: members)).pretty level =
      '{' :: (prettyMembers (level + 1) (m :: members) ++ (lineBreak level ++ ['}'])) :=
  congrArg (List.cons '{') (List.append_assoc _ _ _)

/-- Two values stand on a line each, and the comma behind the first is followed by everything
else. -/
theorem prettyItems_cons_cons (level : Nat) (v w : Value) (items : List Value) :
    prettyItems level (v :: w :: items) =
      lineBreak level ++ (v.pretty level ++ ',' :: prettyItems level (w :: items)) :=
  List.append_assoc _ _ _

/-- A single member stands on its line: the quoted name, a colon, a blank, and the value. -/
theorem prettyMembers_singleton (level : Nat) (name : String) (v : Value) :
    prettyMembers level [(name, v)] =
      lineBreak level ++ (quoted name ++ ':' :: ' ' :: v.pretty level) :=
  List.append_assoc _ _ _

/-- Two members stand on a line each, and the comma behind the first is followed by everything
else. -/
theorem prettyMembers_cons_cons (level : Nat) (name : String) (v : Value) (m : String × Value)
    (members : List (String × Value)) :
    prettyMembers level ((name, v) :: m :: members) =
      lineBreak level ++ (quoted name ++
        ':' :: ' ' :: (v.pretty level ++ ',' :: prettyMembers level (m :: members))) :=
  (List.append_assoc _ _ _).trans (List.append_assoc _ _ _)

/-- The text of the items of an array, the first one in front. -/
theorem exists_prettyItems_cons (level : Nat) (v : Value) (items : List Value) :
    ∃ tail, prettyItems level (v :: items) = lineBreak level ++ (v.pretty level ++ tail) := by
  cases items with
  | nil => exact ⟨[], by rw [prettyItems, List.append_nil]⟩
  | cons w items => exact ⟨_, prettyItems_cons_cons level v w items⟩

/-- The text of the members of an object, the first name in front. -/
theorem exists_prettyMembers_cons (level : Nat) (name : String) (v : Value)
    (members : List (String × Value)) :
    ∃ tail, prettyMembers level ((name, v) :: members) =
      lineBreak level ++ (quoted name ++ tail) := by
  cases members with
  | nil => exact ⟨_, prettyMembers_singleton level name v⟩
  | cons m members => exact ⟨_, prettyMembers_cons_cons level name v m members⟩

/-- An array that is not empty: its items stand after the bracket. -/
theorem readTree_array (fuel level : Nat) (v : Value) (items : List Value) (cs : List Char) :
    readTree (fuel + 1) ('[' :: (prettyItems level (v :: items) ++ cs)) =
      (readItems fuel (prettyItems level (v :: items) ++ cs)).map
        fun (items, rest) => (.array items, rest) := by
  obtain ⟨tail, htail⟩ := exists_prettyItems_cons level v items
  obtain ⟨c, front, hc, hblank, hclose⟩ := exists_pretty_cons v level
  have hskip : skipBlanks (prettyItems level (v :: items) ++ cs) = c :: (front ++ tail ++ cs) := by
    rw [htail, List.append_assoc, skipBlanks_lineBreak, hc, List.cons_append, List.cons_append,
      skipBlanks_of_not_blank hblank]
  rw [← readItems_skipBlanks, readTree_bracket, hskip]
  split
  · rename_i heq
    exact absurd (List.cons.inj heq).1 hclose
  · rfl

/-- An object that is not empty: its members stand after the brace. -/
theorem readTree_object (fuel level : Nat) (name : String) (v : Value)
    (members : List (String × Value)) (cs : List Char) :
    readTree (fuel + 1) ('{' :: (prettyMembers level ((name, v) :: members) ++ cs)) =
      (readMembers fuel (prettyMembers level ((name, v) :: members) ++ cs)).map
        fun (members, rest) => (.object members, rest) := by
  obtain ⟨tail, htail⟩ := exists_prettyMembers_cons level name v members
  rw [← readMembers_skipBlanks, readTree_brace, htail, List.append_assoc, skipBlanks_lineBreak]
  rfl

/-- A numeral ends in front of a line break, which is how the printer goes on behind it. -/
theorem endsNumeral_lineBreak (level : Nat) (cs : List Char) :
    EndsNumeral (lineBreak level ++ cs) := endsNumeral_cons (by decide)

/-- An item of an array that another one follows: it is read up to the comma, and then the others
are. -/
theorem readItems_cons {fuel : Nat} {cs cs' rest : List Char} {t : Tree} {items : List Tree}
    (h : readTree fuel cs = some (t, ',' :: cs'))
    (hitems : readItems fuel cs' = some (items, rest)) :
    readItems (fuel + 1) cs = some (t :: items, rest) := by
  rw [readItems, h, Option.bind_eq_bind, Option.bind_some]
  show (readItems fuel cs').bind _ = _
  rw [hitems]
  rfl

/-- The last item of an array, behind which the closing bracket stands on a line of its own. -/
theorem readItems_last {fuel : Nat} (below : Nat) {cs : List Char} {t : Tree}
    (h : readTree fuel cs = some (t, lineBreak below ++ ']' :: rest)) :
    readItems (fuel + 1) cs = some ([t], rest) := by
  rw [readItems, h, Option.bind_eq_bind, Option.bind_some]
  dsimp only
  rw [skipBlanks_lineBreak]
  rfl

/-- The name of a member is taken off the text before its value. -/
theorem readMembers_name (fuel level : Nat) (name : String) (cs : List Char) :
    readMembers (fuel + 1) (lineBreak level ++ (quoted name ++ ':' :: ' ' :: cs)) =
      (readTree fuel cs).bind fun (t, rest) =>
        match skipBlanks rest with
        | ',' :: rest => (readMembers fuel rest).bind fun (members, rest) =>
          some ((some name, t) :: members, rest)
        | '}' :: rest => some ([(some name, t)], rest)
        | _ => none := by
  have hskip : skipBlanks (lineBreak level ++ (quoted name ++ ':' :: ' ' :: cs)) =
      '"' :: (escape name.toList ++ '"' :: ':' :: ' ' :: cs) := by
    rw [skipBlanks_lineBreak, quoted, List.append_assoc, List.cons_append,
      skipBlanks_of_not_blank (by decide)]
    rfl
  rw [readMembers, hskip]
  show (readString _).bind _ = _
  rw [readString_escape]
  show (readTree fuel (' ' :: cs)).bind _ = _
  rw [← readTree_skipBlanks]
  show (readTree fuel (skipBlanks cs)).bind _ = _
  rw [readTree_skipBlanks]
  rfl

/-- A member of an object that another one follows: it is read up to the comma, and then the others
are. -/
theorem readMembers_cons {fuel level : Nat} {name : String} {cs cs' rest : List Char} {t : Tree}
    {members : List (Option String × Tree)} (h : readTree fuel cs = some (t, ',' :: cs'))
    (hmembers : readMembers fuel cs' = some (members, rest)) :
    readMembers (fuel + 1) (lineBreak level ++ (quoted name ++ ':' :: ' ' :: cs)) =
      some ((some name, t) :: members, rest) := by
  rw [readMembers_name, h, Option.bind_some]
  show (readMembers fuel cs').bind _ = _
  rw [hmembers]
  rfl

/-- The last member of an object, behind which the closing brace stands on a line of its own. -/
theorem readMembers_last {fuel level : Nat} (below : Nat) {name : String} {cs : List Char}
    {t : Tree}
    (h : readTree fuel cs = some (t, lineBreak below ++ '}' :: rest)) :
    readMembers (fuel + 1) (lineBreak level ++ (quoted name ++ ':' :: ' ' :: cs)) =
      some ([(some name, t)], rest) := by
  rw [readMembers_name, h, Option.bind_some]
  dsimp only
  rw [skipBlanks_lineBreak]
  rfl

/-- A line break is at least the character that breaks the line, whatever its level is. -/
theorem length_lineBreak_pos (level : Nat) : 0 < (lineBreak level).length := Nat.succ_pos _

/-- No value is written as nothing, so fuel for its characters is fuel for itself. -/
theorem length_pretty_pos (v : Value) (level : Nat) :
    0 < (v.pretty level).length := by
  obtain ⟨c, cs, hcs, -, -⟩ := exists_pretty_cons v level
  rw [hcs]
  exact Nat.succ_pos _

/-- The values of a list that is not empty are written with one character at least. -/
theorem length_prettyItems_pos (level : Nat) (v : Value) (items : List Value) :
    0 < (prettyItems level (v :: items)).length := by
  obtain ⟨tail, htail⟩ := exists_prettyItems_cons level v items
  rw [htail]
  exact Nat.succ_pos _

/-- Members, if there is one, are written with one character at least. -/
theorem length_prettyMembers_pos (level : Nat) (name : String) (v : Value)
    (members : List (String × Value)) :
    0 < (prettyMembers level ((name, v) :: members)).length := by
  obtain ⟨tail, htail⟩ := exists_prettyMembers_cons level name v members
  rw [htail]
  exact Nat.succ_pos _

mutual

/-- **A value is read back off the front of a text**, as long as nothing that follows goes on with
its last numeral. -/
theorem readTree_pretty (v : Value) (level : Nat) {fuel : Nat}
    (hfuel : 2 * (v.pretty level).length ≤ fuel) {rest : List Char} (hrest : EndsNumeral rest) :
    readTree fuel (v.pretty level ++ rest) = some (v.written, rest) := by
  have hpos := length_pretty_pos v level
  match fuel, v with
  | 0, _ => omega
  | fuel + 1, .null => rfl
  | fuel + 1, .bool true => rfl
  | fuel + 1, .bool false => rfl
  | fuel + 1, .number n => exact readTree_number fuel n hrest
  | fuel + 1, .string s =>
    show (readString (escape s.toList ++ ['"'] ++ rest)).map _ = _
    rw [List.append_assoc, List.singleton_append, readString_escape]
    rfl
  | fuel + 1, .array [] => rfl
  | fuel + 1, .object [] => rfl
  | fuel + 1, .array (v :: items) =>
    rw [pretty_array_cons, List.length_cons, List.length_append] at hfuel
    rw [pretty_array_cons, List.cons_append, List.append_assoc, List.append_assoc,
      readTree_array fuel (level + 1), List.singleton_append,
      readItems_pretty v items (level + 1) level (by omega) rest]
    rfl
  | fuel + 1, .object ((name, v) :: members) =>
    rw [pretty_object_cons, List.length_cons, List.length_append] at hfuel
    rw [pretty_object_cons, List.cons_append, List.append_assoc, List.append_assoc,
      readTree_object fuel (level + 1), List.singleton_append,
      readMembers_pretty name v members (level + 1) level (by omega) rest]
    rfl
termination_by structural fuel

/-- The items of an array are read back up to its end. -/
theorem readItems_pretty (v : Value) (items : List Value) (level below : Nat) {fuel : Nat}
    (hfuel : 2 * (prettyItems level (v :: items)).length ≤ fuel) (rest : List Char) :
    readItems fuel (prettyItems level (v :: items) ++ (lineBreak below ++ ']' :: rest)) =
      some (itemsWritten (v :: items), rest) := by
  have hpos := length_prettyItems_pos level v items
  have hbreak := length_lineBreak_pos level
  match fuel, items with
  | 0, _ => omega
  | fuel + 1, [] =>
    rw [prettyItems, List.length_append] at hfuel
    rw [prettyItems, List.append_assoc]
    refine readItems_last below ?_
    rw [readTree_lineBreak]
    exact readTree_pretty v level (by omega) (endsNumeral_lineBreak below _)
  | fuel + 1, w :: items =>
    rw [prettyItems_cons_cons, List.length_append, List.length_append, List.length_cons] at hfuel
    rw [prettyItems_cons_cons, List.append_assoc, List.append_assoc, List.cons_append]
    refine readItems_cons ?_ (readItems_pretty w items level below (by omega) rest)
    rw [readTree_lineBreak]
    exact readTree_pretty v level (by omega) (endsNumeral_cons (by decide))
termination_by structural fuel

/-- The members of an object are read back up to its end. -/
theorem readMembers_pretty (name : String) (v : Value) (members : List (String × Value))
    (level below : Nat) {fuel : Nat}
    (hfuel : 2 * (prettyMembers level ((name, v) :: members)).length ≤ fuel) (rest : List Char) :
    readMembers fuel
        (prettyMembers level ((name, v) :: members) ++ (lineBreak below ++ '}' :: rest)) =
      some (membersWritten ((name, v) :: members), rest) := by
  have hpos := length_prettyMembers_pos level name v members
  match fuel, members with
  | 0, _ => omega
  | fuel + 1, [] =>
    rw [prettyMembers_singleton, List.length_append, List.length_append, List.length_cons,
      List.length_cons] at hfuel
    rw [prettyMembers_singleton, List.append_assoc, List.append_assoc, List.cons_append,
      List.cons_append]
    refine readMembers_last below ?_
    exact readTree_pretty v level (by omega) (endsNumeral_lineBreak below _)
  | fuel + 1, (next, w) :: members =>
    rw [prettyMembers_cons_cons, List.length_append, List.length_append, List.length_cons,
      List.length_cons, List.length_append, List.length_cons] at hfuel
    rw [prettyMembers_cons_cons, List.append_assoc, List.append_assoc, List.cons_append,
      List.cons_append, List.append_assoc, List.cons_append]
    refine readMembers_cons ?_
      (readMembers_pretty next w members level below (by omega) rest)
    exact readTree_pretty v level (by omega) (endsNumeral_cons (by decide))
termination_by structural fuel

end

/-- **The text of a value is read as a tree.** -/
theorem Tree.parse_written (v : Value) : Tree.parse v.prettyText = some v.written := by
  have hread : readTree (2 * (v.pretty 0).length + 2) (v.pretty 0 ++ []) = some (v.written, []) :=
    readTree_pretty v 0 (by omega) (fun c hc => by cases hc)
  rw [List.append_nil] at hread
  rw [Tree.parse, Value.prettyText, String.toList_ofList, hread]
  rfl

/-- **The text of a value without binary64 numbers is read as its tree.** -/
theorem Tree.parse_prettyText {v : Value} (h : v.realFree = true) :
    Tree.parse v.prettyText = some v.tree := by
  rw [Tree.parse_written, written_eq_tree v h]

end Json
end PairAnnotation
