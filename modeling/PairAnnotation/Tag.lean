/-
# Tags, tag sets and labels

A tag is a name the annotator may choose, with an optional description; two tags
are the same only when both agree.  A *label* is the name found on a relation: it
need not belong to any tag set and may be missing.  The name `unset` is the
sentinel for "looked at, no relation", and a label is *informative* when it is
neither missing, nor empty, nor the sentinel.
-/

namespace PairAnnotation

/-- The name that marks a direction as having no relation. -/
def unsetName : String := "unset"

/-- **A label says something** when it is present, not empty and not the sentinel. -/
def isInformative : Option String → Bool
  | none => false
  | some name => name != "" && name != unsetName

/-- One choice of a tag set: a name, and what it means, if that is told. -/
structure Tag where
  name : String
  description : Option String := none
  deriving DecidableEq, Repr, Inhabited

namespace Tag

/-- The sentinel as a tag, which stands for a direction without relation. -/
def unset : Tag := { name := unsetName }

/-- A tag is the sentinel by its name alone, whatever its description is. -/
def isUnset (t : Tag) : Bool := t.name == unsetName

end Tag

/-- The tags that may label a relation, in the order they are offered. -/
structure TagSet where
  name : String
  tags : List Tag
  deriving DecidableEq, Repr, Inhabited

namespace TagSet

/-- The first tag of that name, which is the one that counts. -/
def find? (s : TagSet) (name : String) : Option Tag := s.tags.find? (·.name == name)

/-- The tag set with the sentinel at its end, unless a tag of that name is there already. -/
def withSentinel (s : TagSet) : TagSet :=
  if (s.find? unsetName).isSome then s else { s with tags := s.tags ++ [Tag.unset] }

/-- A tag that is found by a name has this name. -/
theorem name_of_find? {s : TagSet} {name : String} {t : Tag} (h : s.find? name = some t) :
    t.name = name := by
  simpa using List.find?_some h

end TagSet

/-- A label says something exactly if it is there, is not empty, and is not the sentinel. -/
theorem isInformative_iff {label : Option String} :
    isInformative label = true ↔ ∃ name, label = some name ∧ name ≠ "" ∧ name ≠ unsetName := by
  cases label <;> simp [isInformative]

end PairAnnotation
