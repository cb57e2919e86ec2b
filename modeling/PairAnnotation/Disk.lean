/-
# A disk

The files a program works on, as a value.  A path is a list of names, from the root
or from the working directory.  A name in a text is followed part by part: what is
not there ends the way, and so does going on from a file.  A file is read where the
way ends, and written into the directory where the way without its last part ends.
What was written is read back (`Disk.read_write`).  Contents are text, or bytes that
are no UTF-8 text.
-/

namespace PairAnnotation

/-- Where a file or directory is.  A directory above the working directory is a number of names
`..`, and no other path has such a name. -/
structure DiskPath where
  isAbsolute : Bool
  names : List String
  deriving DecidableEq, Repr, Inhabited

namespace DiskPath

/-- The name of the directory above, as a part of a path. -/
def up : String := ".."

/-- The name of the directory itself, as a part of a path. -/
def here : String := "."

/-- Whether this is the root, the working directory, or a directory above that one. -/
def isBase (p : DiskPath) : Bool := p.names.all (· == up)

/-- The directory that a path stands in; that of the root is the root. -/
def parent (p : DiskPath) : DiskPath :=
  if p.isBase && !p.isAbsolute then { p with names := up :: p.names }
  else { p with names := p.names.dropLast }

/-- What has a name in a directory, whether there is anything of that name or not. -/
def child (p : DiskPath) (name : String) : DiskPath := { p with names := p.names ++ [name] }

/-- Where a part of a text leads to from a directory; a blank part leads nowhere else. -/
def step (p : DiskPath) (part : String) : DiskPath :=
  if part = "" ∨ part = here then p else if part = up then p.parent else p.child part

/-- The parts of a text between slashes, from characters whose current part is given reversed. -/
def partsFrom (part : List Char) : List Char → List String
  | [] => [String.ofList part.reverse]
  | '/' :: rest => String.ofList part.reverse :: partsFrom [] rest
  | c :: rest => partsFrom (c :: part) rest

/-- The parts of a text between slashes, of which some may be blank. -/
def parts (text : String) : List String := partsFrom [] text.toList

/-- Where the way along a text starts: at the root when it starts with a slash. -/
def origin (text : String) : DiskPath := ⟨text.toList.head? = some '/', []⟩

/-- The places on the way along a text, when every part leads on. -/
def stations (text : String) : List DiskPath :=
  (List.range ((parts text).length + 1)).map fun k => ((parts text).take k).foldl step (origin text)

/-- Where the way along a text ends, when every part leads on. -/
def ofText (text : String) : DiskPath := (parts text).foldl step (origin text)

end DiskPath

/-- What a file holds: a text, or bytes that are none. -/
inductive FileContent where
  | text (content : String)
  | notText
  deriving DecidableEq, Repr, Inhabited

/-- Why a file could not be read or written, as the system tells it. -/
inductive DiskError where
  | notFound
  | notDirectory
  | isDirectory
  | nameTooLong
  /-- A name with a null character. -/
  | nullInName
  | notText
  deriving DecidableEq, Repr, Inhabited

/-- The wording of the system for what went wrong, with its number where it has one. -/
def DiskError.message : DiskError → String
  | .notFound => "No such file or directory (os error 2)"
  | .notDirectory => "Not a directory (os error 20)"
  | .isDirectory => "Is a directory (os error 21)"
  | .nameTooLong => "File name too long (os error 36)"
  | .nullInName => "file name contained an unexpected NUL byte"
  | .notText => "stream did not contain valid UTF-8"

/-- Files by path, the one written last at the end, and the directories beside the bases. -/
structure Disk where
  files : List (DiskPath × FileContent) := []
  directories : List DiskPath := []
  deriving DecidableEq, Repr, Inhabited

namespace Disk

/-- How many bytes one name of a path may have. -/
def maxNameBytes : Nat := 255

/-- How many bytes a whole path may have, the closing null of the system not counted. -/
def maxPathBytes : Nat := 4095

/-- Whether a path is a directory; a base always is. -/
def isDirectory (d : Disk) (p : DiskPath) : Bool := p.isBase || d.directories.contains p

/-- What the file at a path holds, if there is a file. -/
def content? (d : Disk) (p : DiskPath) : Option FileContent := d.files.lookup p

/-- Whether there is a file or a directory at a path. -/
def holds (d : Disk) (p : DiskPath) : Bool := d.isDirectory p || (d.content? p).isSome

/-! ### Ways -/

/-- Go on from a place along one part of a text. -/
def step (d : Disk) (p : DiskPath) (part : String) : Except DiskError DiskPath :=
  if !d.isDirectory p then .error .notDirectory
  else if maxNameBytes < part.utf8ByteSize then .error .nameTooLong
  else if d.holds (p.step part) then .ok (p.step part)
  else .error .notFound

/-- Go along several parts, as far as each of them leads on; the first one that does not is the
error. -/
def walk (d : Disk) (p : DiskPath) : List String → Except DiskError DiskPath
  | [] => .ok p
  | part :: rest =>
    match d.step p part with
    | .ok q => d.walk q rest
    | .error e => .error e

/-- What is wrong with a text before a way along it is even started. -/
def flaw? (name : String) : Option DiskError :=
  if name.toList.contains '\x00' then some .nullInName
  else if name = "" then some .notFound
  else if maxPathBytes < name.utf8ByteSize then some .nameTooLong
  else none

/-- What a text names on the disk: the place to which its parts lead, which has to be there. -/
def locate (d : Disk) (name : String) : Except DiskError DiskPath :=
  match flaw? name with
  | some e => .error e
  | none => d.walk (.origin name) (DiskPath.parts name)

/-- Whether there is a file or a directory of that name. -/
def existsAt (d : Disk) (name : String) : Bool := (d.locate name).isOk

/-- Parts without the blank ones that slashes leave at the end. -/
def dropSlashes (parts : List String) : List String := (parts.reverse.dropWhile (· == "")).reverse

/-- The place of a file with this last part in a directory.  A directory is no such place, and
neither is what a slash follows. -/
def placeIn (d : Disk) (directory : DiskPath) (last : String) (slashFollows : Bool) :
    Except DiskError DiskPath :=
  if !d.isDirectory directory then .error .notDirectory
  else if slashFollows || last == DiskPath.here || last == DiskPath.up then .error .isDirectory
  else if maxNameBytes < last.utf8ByteSize then .error .nameTooLong
  else if d.isDirectory (directory.child last) then .error .isDirectory
  else .ok (directory.child last)

/-- Where a file of that name would be written.  The directory has to be there, the file does
not. -/
def destination (d : Disk) (name : String) : Except DiskError DiskPath :=
  match flaw? name with
  | some e => .error e
  | none =>
    let parts := DiskPath.parts name
    let stem := dropSlashes parts
    match stem.getLast? with
    | none => .error .isDirectory
    | some last =>
      match d.walk (.origin name) stem.dropLast with
      | .error e => .error e
      | .ok directory => d.placeIn directory last (stem.length < parts.length)

/-! ### Files -/

/-- The text of the file at a path; a directory has none, and neither have bytes that are no
text. -/
def textAt (d : Disk) (p : DiskPath) : Except DiskError String :=
  if d.isDirectory p then .error .isDirectory
  else
    match d.content? p with
    | some (.text content) => .ok content
    | some .notText => .error .notText
    | none => .error .notFound

/-- **The text of a file** that is found by its name, or why there is none. -/
def read (d : Disk) (name : String) : Except DiskError String :=
  match d.locate name with
  | .ok p => d.textAt p
  | .error e => .error e

/-- The disk with a file at a path, in place of the one there. -/
def put (d : Disk) (p : DiskPath) (content : FileContent) : Disk :=
  { d with files := d.files.filter (·.1 ≠ p) ++ [(p, content)] }

/-- **The disk after a file was written**: what stood at its place is replaced, or nothing is
changed at all. -/
def write (d : Disk) (name text : String) : Except DiskError Disk :=
  match d.destination name with
  | .ok p => .ok (d.put p (.text text))
  | .error e => .error e

/-- The disk without some files; what is not there cannot be missed. -/
def removeFiles (d : Disk) (gone : List DiskPath) : Disk :=
  { d with files := d.files.filter fun f => !gone.contains f.1 }

/-! ### Written and read -/

/-- What is put in place of the old entry of a path is found there, and what stands at all other
paths is found as before. -/
theorem lookup_filter_append {p q : DiskPath} {content : FileContent}
    (files : List (DiskPath × FileContent)) :
    (files.filter (·.1 ≠ p) ++ [(p, content)]).lookup q =
      if q = p then some content else files.lookup q := by
  induction files with
  | nil =>
    by_cases h : q = p
    · simp [h]
    · simp [List.lookup_cons, h, beq_false_of_ne h]
  | cons f rest ih =>
    obtain ⟨r, old⟩ := f
    by_cases hr : r = p
    · subst hr
      rw [List.filter_cons_of_neg (by simp), ih]
      by_cases hq : q = r
      · simp [hq]
      · simp [hq, List.lookup_cons, beq_false_of_ne hq]
    · rw [List.filter_cons_of_pos (by simpa using hr), List.cons_append]
      by_cases hq : q = r
      · subst hq
        simp [hr]
      · rw [List.lookup_cons, List.lookup_cons, beq_false_of_ne hq, ih]

/-- Putting a file changes the content at its path only. -/
theorem content?_put (d : Disk) (p q : DiskPath) (content : FileContent) :
    (d.put p content).content? q = if q = p then some content else d.content? q :=
  lookup_filter_append d.files

@[simp]
theorem isDirectory_put (d : Disk) (p q : DiskPath) (content : FileContent) :
    (d.put p content).isDirectory q = d.isDirectory q := rfl

/-- What a disk holds it still holds after a file was put on it. -/
theorem holds_put {d : Disk} {p q : DiskPath} {content : FileContent} (h : d.holds q = true) :
    (d.put p content).holds q = true := by
  simp only [holds, isDirectory_put, content?_put, Bool.or_eq_true] at h ⊢
  split
  · exact .inr rfl
  · exact h

/-- A step that leads somewhere still leads there after a file was put on the disk. -/
theorem step_put {d : Disk} {p q r : DiskPath} {part : String} {content : FileContent}
    (h : d.step q part = .ok r) : (d.put p content).step q part = .ok r := by
  unfold step at h ⊢
  rw [isDirectory_put]
  split at h
  · cases h
  · split at h
    · cases h
    · split at h
      · rename_i hdir hlong hholds
        rw [if_neg hdir, if_neg hlong, if_pos (holds_put hholds)]
        exact h
      · cases h

/-- A walk that arrives still arrives after a file was put on the disk, by induction over its
steps. -/
theorem walk_put {d : Disk} {p q r : DiskPath} {parts : List String} {content : FileContent}
    (h : d.walk q parts = .ok r) : (d.put p content).walk q parts = .ok r := by
  induction parts generalizing q with
  | nil => exact h
  | cons part rest ih =>
    rw [walk] at h ⊢
    split at h
    · rename_i s hs
      rw [step_put hs]
      exact ih h
    · cases h

/-- A walk may be cut in two: once the front part has arrived, the back part goes on from there. -/
theorem walk_append {d : Disk} {q r : DiskPath} {front back : List String}
    (h : d.walk q front = .ok r) : d.walk q (front ++ back) = d.walk r back := by
  induction front generalizing q with
  | nil =>
    injection h with h
    rw [h, List.nil_append]
  | cons part rest ih =>
    rw [List.cons_append, walk]
    rw [walk] at h
    split at h
    · exact ih h
    · cases h

/-- The slashes that are dropped stood at the end. -/
theorem dropSlashes_append (parts : List String) : ∃ blank, dropSlashes parts ++ blank = parts :=
  ⟨(parts.reverse.takeWhile (· == "")).reverse, by
    rw [dropSlashes, ← List.reverse_append, List.takeWhile_append_dropWhile, List.reverse_reverse]⟩

/-- Where the parts are no fewer without slashes at the end, there were none. -/
theorem dropSlashes_eq_self {parts : List String} (h : ¬(dropSlashes parts).length < parts.length) :
    dropSlashes parts = parts := by
  obtain ⟨blank, hb⟩ := dropSlashes_append parts
  have hlen := congrArg List.length hb
  rw [List.length_append] at hlen
  have : blank = [] := List.length_eq_zero_iff.1 (by omega)
  rwa [this, List.append_nil] at hb

/-- What is left when the slashes at the end are dropped does not end in a slash. -/
theorem last_dropSlashes_ne_blank {parts : List String} {last : String}
    (h : (dropSlashes parts).getLast? = some last) : last ≠ "" := by
  rw [dropSlashes, List.getLast?_reverse] at h
  have := List.head?_dropWhile_not (· == "") parts.reverse
  rw [h] at this
  simpa using this

/-- A place for a file is a child of a directory, and its name is a plain one. -/
theorem placeIn_eq_ok {d : Disk} {directory p : DiskPath} {last : String} {slashFollows : Bool}
    (h : d.placeIn directory last slashFollows = .ok p) :
    d.isDirectory directory = true ∧ slashFollows = false ∧ last ≠ DiskPath.here ∧
      last ≠ DiskPath.up ∧ ¬maxNameBytes < last.utf8ByteSize ∧ d.isDirectory p = false ∧
      p = directory.child last := by
  unfold placeIn at h
  split at h
  · cases h
  · split at h
    · cases h
    · split at h
      · cases h
      · split at h
        · cases h
        · rename_i hdir hplain hlong hfile
          injection h with h
          subst h
          simp only [Bool.or_eq_true, beq_iff_eq, not_or] at hplain
          exact ⟨by simpa using hdir, by simpa using hplain.1.1, hplain.1.2, hplain.2, hlong,
            by simpa using hfile, rfl⟩

/-- **What was written is read back** under the same name, whatever else is on the disk. -/
theorem read_write {d d' : Disk} {name text : String} (h : d.write name text = .ok d') :
    d'.read name = .ok text := by
  unfold write at h
  split at h
  · rename_i p hp
    injection h with h
    subst h
    unfold destination at hp
    split at hp
    · cases hp
    · rename_i hflaw
      dsimp only at hp
      split at hp
      · cases hp
      · rename_i last hlast
        split at hp
        · cases hp
        · rename_i directory hwalk
          obtain ⟨hdir, hslash, hhere, hup, hlong, hfile, hchild⟩ := placeIn_eq_ok hp
          have hstem := dropSlashes_eq_self (by simpa using hslash)
          have hblank := last_dropSlashes_ne_blank hlast
          rw [hstem] at hlast hwalk
          have hparts : (DiskPath.parts name).dropLast ++ [last] = DiskPath.parts name := by
            obtain ⟨front, hfront⟩ := List.getLast?_eq_some_iff.1 hlast
            rw [hfront, List.dropLast_concat]
          have hstep : directory.step last = p := by
            rw [hchild, DiskPath.step, if_neg (by simp [hblank, hhere]), if_neg hup]
          have hcontent : (d.put p (.text text)).content? p = some (.text text) := by
            rw [content?_put, if_pos rfl]
          have hlocate : (d.put p (.text text)).locate name = .ok p := by
            rw [locate, hflaw, ← hparts]
            dsimp only
            rw [walk_append (walk_put hwalk), walk, step, isDirectory_put, hdir, hstep, holds,
              hcontent]
            simp [hlong, walk]
          rw [read, hlocate]
          dsimp only
          rw [textAt, isDirectory_put, hfile, hcontent]
          rfl
  · cases h

end Disk

end PairAnnotation
