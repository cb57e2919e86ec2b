/-
# TOML trees

A TOML text is a tree of tables.  A table may come into being in four ways, and how it
did decides how it may be extended: by its own header, as the parent of a header,
through a dotted key, or as an inline value, which is closed at once.  Every change
here either gives the changed entries or refuses, when a key would be defined twice
or a value extended.
-/

namespace PairAnnotation
namespace Toml

/-- How a table came into being, on which depends what may still be entered in it. -/
inductive TableKind where
  /-- By its own header, or as the table of the whole text. -/
  | explicit
  /-- As a parent in a header. -/
  | implicit
  /-- As a parent in a dotted key. -/
  | dotted
  /-- As an inline value. -/
  | inline
  deriving DecidableEq, Repr, Inhabited

/-- A part of a TOML tree.  Numbers with a fraction and points in time are kept as written. -/
inductive Node where
  | string (s : String)
  | integer (n : Int)
  | boolean (b : Bool)
  | float (text : List Char)
  | dateTime (text : List Char)
  | array (items : List Node)
  | table (kind : TableKind) (entries : List (String × Node))
  /-- The tables of headers in double brackets. -/
  | tables (items : List (List (String × Node)))
  deriving Repr, Inhabited

/-- The entries of a table, in the order of their definition. -/
abbrev Entries : Type := List (String × Node)

namespace Entries

/-- Put another node in place of the one under a key. -/
def replace (key : String) (node : Node) : Entries → Entries
  | [] => []
  | (k, old) :: rest => if k = key then (k, node) :: rest else (k, old) :: replace key node rest

/-- **Change the table at a path**, creating the tables on the way.  By a dotted key no table can be
reached that a header or an inline value defines. -/
def update (byDots : Bool) (change : TableKind → Entries → Option Entries) :
    List String → TableKind → Entries → Option Entries
  | [], kind, entries => change kind entries
  | key :: path, _, entries =>
    match entries.lookup key with
    | none => do
      let kind := if byDots then TableKind.dotted else .implicit
      let inner ← update byDots change path kind []
      some (entries ++ [(key, .table kind inner)])
    | some (.table kind inner) =>
      if kind = .inline ∨ (byDots ∧ kind = .explicit) then none
      else do
        let inner ← update byDots change path kind inner
        some (replace key (.table kind inner) entries)
    | some (.tables items) => do
      let last ← items.getLast?
      let last ← update byDots change path .explicit last
      some (replace key (.tables (items.dropLast ++ [last])) entries)
    | some _ => none

/-- Define a key that is not defined yet, behind all others; defining it twice is an error. -/
def define (key : String) (node : Node) (entries : Entries) : Option Entries :=
  if (entries.lookup key).isSome then none else some (entries ++ [(key, node)])

/-- **Assign a value** to a dotted key, given by its parents and its last part.  The table of the
last part must be one that dotted keys made, unless the key has no dot. -/
def assign (parents : List String) (key : String) (node : Node) (kind : TableKind)
    (entries : Entries) : Option Entries :=
  update true
    (fun kind entries =>
      if (kind = .dotted) ↔ (parents = []) then none else define key node entries)
    parents kind entries

/-- **Open the table of a header.**  A parent of earlier headers may get a header of its own. -/
def openTable (parents : List String) (key : String) (entries : Entries) : Option Entries :=
  update false
    (fun _ entries =>
      match entries.lookup key with
      | none => some (entries ++ [(key, .table .explicit [])])
      | some (.table .implicit inner) => some (replace key (.table .explicit inner) entries)
      | some _ => none)
    parents .explicit entries

/-- **Open one more table** of a header in double brackets. -/
def openTables (parents : List String) (key : String) (entries : Entries) : Option Entries :=
  update false
    (fun _ entries =>
      match entries.lookup key with
      | none => some (entries ++ [(key, .tables [[]])])
      | some (.tables items) => some (replace key (.tables (items ++ [[]])) entries)
      | some _ => none)
    parents .explicit entries

end Entries

end Toml
end PairAnnotation
