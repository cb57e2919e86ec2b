/-
# Lower case

Full Unicode lower-casing without a locale.  Every character is mapped by itself,
with two exceptions: the dotted capital I becomes two characters, and a capital
sigma at the end of a word becomes the final small sigma.  A sigma ends a word when
a cased letter comes before it and none comes after it, characters that case
ignores left out on both sides.
-/

import PairAnnotation.Text.LowerCase.Table

namespace PairAnnotation
namespace Text

/-- Whether a character lies in one of some ranges. -/
def inRanges (ranges : Array (Nat × Nat)) (c : Char) : Bool :=
  ranges.any fun (first, last) => first ≤ c.toNat && c.toNat ≤ last

/-- Whether a character is an upper-case, a lower-case or a title-case letter. -/
def isCased (c : Char) : Bool := inRanges casedRanges c

/-- Whether a character is passed over when the letters around another one are looked at. -/
def isCaseIgnorable (c : Char) : Bool := inRanges caseIgnorableRanges c

/-- Whether a run holds a character. -/
def CaseRun.contains (r : CaseRun) (c : Char) : Bool :=
  r.first ≤ c.toNat && c.toNat ≤ r.last && (c.toNat - r.first) % r.step == 0

/-- The lower-case form of one character that stands alone, which may be two characters. -/
def lowerChar (c : Char) : List Char :=
  if c.toNat = 0x130 then ['i', Char.ofNat 0x307]
  else
    match lowerCaseRuns.find? (·.contains c) with
    | some r => [Char.ofNat ((c.toNat : Int) + r.offset).toNat]
    | none => [c]

/-- Whether the first character that case does not ignore is cased. -/
def startsCased (cs : List Char) : Bool :=
  match cs.dropWhile isCaseIgnorable with
  | c :: _ => isCased c
  | [] => false

/-- The lower-case form of a text whose part already read is given reversed. -/
def lowerFrom (before : List Char) : List Char → List Char
  | [] => []
  | c :: rest =>
    let lowered :=
      if c = 'Σ' then if startsCased before && !startsCased rest then ['ς'] else ['σ']
      else lowerChar c
    lowered ++ lowerFrom (c :: before) rest

/-- **The lower-case form of a text**, where a final sigma has a form of its own. -/
def lowerCase (text : String) : String := String.ofList (lowerFrom [] text.toList)

/-- Whether `part` occurs in a list, as a stretch of it. -/
def occursIn (part : List Char) : List Char → Bool
  | [] => part.isEmpty
  | c :: rest => part.isPrefixOf (c :: rest) || occursIn part rest

end Text
end PairAnnotation
