/-
# Configuration files

The configuration as TOML.  Whatever is missing in a file has its default, and what
is not known is ignored.
-/

import PairAnnotation.Config
import PairAnnotation.Disk
import PairAnnotation.Toml.Printer
import PairAnnotation.Toml.Reader

namespace PairAnnotation

open Toml (Node Entries)

/-- Why a configuration could not be read or written: the disk refuses, or the text is no
configuration. -/
inductive ConfigError where
  | unreadable (cause : DiskError)
  | malformed
  | unwritable (cause : DiskError)
  deriving DecidableEq, Repr, Inhabited

namespace ConfigError

/-- What went wrong, without the cause that the disk or the parser gives. -/
def summary : ConfigError → String
  | .unreadable _ => "Failed to read config file"
  | .malformed => "Failed to parse config file"
  | .unwritable _ => "Failed to write config file"

/-- What went wrong, and what the system says about it. -/
def message (e : ConfigError) : String :=
  match e with
  | .unreadable cause | .unwritable cause => e.summary ++ ": " ++ cause.message
  | .malformed => e.summary

end ConfigError

/-! ### Reading -/

namespace Toml.Node

/-- The text that a node holds, if it holds one. -/
def string? : Node → Option String
  | .string s => some s
  | _ => none

/-- The items of an array, which the tables of double brackets are as well. -/
def items? : Node → Option (List Node)
  | .array items => some items
  | .tables items => some (items.map (.table .explicit))
  | _ => none

/-- **The fields of a record**, each present or not: the entries of a table, or the items of an
array in order.  A point in time has none of them. -/
def fields? (names : List String) (node : Node) : Option (List (Option Node)) :=
  match node with
  | .table _ entries => some (names.map fun name => entries.lookup name)
  | .dateTime _ => some (names.map fun _ => none)
  | node => (node.items?).map fun items => (List.range names.length).map (items[·]?)

/-- Whether there is nothing in a node, neither an item nor a key. -/
def isEmpty : Node → Bool
  | .table _ entries => entries.isEmpty
  | node => node.items? matches some []

/-- A field, or its default when it is missing; a field that is there and cannot be read is an
error. -/
def field? {α : Type} (default : α) (read : Node → Option α) : Option Node → Option α
  | none => some default
  | some node => read node

end Toml.Node

/-- A policy: its name, or a table with nothing under that one name. -/
def DuplicatePolicy.ofToml? : Node → Option DuplicatePolicy
  | .string name => ofName? name
  | .table _ [(name, node)] => if node.isEmpty then ofName? name else none
  | _ => none

/-- The layers that a node describes.  Keys that are missing have their defaults, and a key with a
value of another kind is an error. -/
def LayerConfig.ofToml? (node : Node) : Option LayerConfig := do
  let default : LayerConfig := {}
  match ← node.fields?
      ["sentence_layer", "relation_layer", "label_feature", "pre_annotated_formats"] with
  | [sentenceLayer, relationLayer, labelFeature, formats] =>
    let sentenceLayer ← Node.field? default.sentenceLayer Node.string? sentenceLayer
    let relationLayer ← Node.field? default.relationLayer Node.string? relationLayer
    let labelFeature ← Node.field? default.labelFeature Node.string? labelFeature
    let preAnnotatedFormats ← Node.field? default.preAnnotatedFormats
      (fun node => do (← node.items?).mapM Node.string?) formats
    some { sentenceLayer, relationLayer, labelFeature, preAnnotatedFormats }
  | _ => none

/-- A width in pixels, which is any integer of 32 bits that is not negative. -/
def widthOfToml? : Node → Option UInt32
  | .integer n => if 0 ≤ n ∧ n < Int.pow 2 32 then some (UInt32.ofNat n.toNat) else none
  | _ => none

/-- The one field of a record, or its default when the record does not have it; other keys are
passed over. -/
def onlyField? {α : Type} (name : String) (default : α) (read : Node → Option α) (node : Node) :
    Option α := do
  match ← node.fields? [name] with
  | [field] => Node.field? default read field
  | _ => none

namespace Config

/-- The configuration that entries are, table by table; a table that is missing has its defaults
throughout. -/
def ofToml? (entries : Entries) : Option Config := do
  let layers ← Node.field? {} LayerConfig.ofToml? (entries.lookup "layers")
  let duplicatePolicy ← Node.field? .adjacent
    (onlyField? "duplicate_policy" .adjacent DuplicatePolicy.ofToml?) (entries.lookup "navigation")
  let barWidth ← Node.field? 200 (onlyField? "bar_width_px" 200 widthOfToml?)
    (entries.lookup "progress")
  some { layers, duplicatePolicy, barWidth }

/-- **The configuration that a text is**, if it follows the grammar and its values are of their
kinds. -/
def ofText? (text : String) : Option Config := (Toml.parse text).bind ofToml?

/-! ### Writing -/

/-- **The text of a configuration**: its three tables, each with all of its keys, so nothing is left
to defaults. -/
def toText (c : Config) : String :=
  String.ofList (
    Toml.header "layers"
      ++ Toml.assignment "sentence_layer" (Toml.quoted c.layers.sentenceLayer)
      ++ Toml.assignment "relation_layer" (Toml.quoted c.layers.relationLayer)
      ++ Toml.assignment "label_feature" (Toml.quoted c.layers.labelFeature)
      ++ Toml.assignment "pre_annotated_formats" (Toml.stringArray c.layers.preAnnotatedFormats)
      ++ ['\n']
      ++ Toml.header "navigation"
      ++ Toml.assignment "duplicate_policy" (Toml.quoted c.duplicatePolicy.name)
      ++ ['\n']
      ++ Toml.header "progress"
      ++ Toml.assignment "bar_width_px" (Nat.toDigits 10 c.barWidth.toNat))

/-! ### Files -/

/-- Read the configuration in a file; it fails if the file cannot be read, or if its text is no
configuration. -/
def load (disk : Disk) (path : String) : Except ConfigError Config :=
  match disk.read path with
  | .error cause => .error (.unreadable cause)
  | .ok text =>
    match ofText? text with
    | some c => .ok c
    | none => .error .malformed

/-- Write the configuration to a file, in place of what the file held. -/
def save (c : Config) (disk : Disk) (path : String) : Except ConfigError Disk :=
  match disk.write path c.toText with
  | .ok disk => .ok disk
  | .error cause => .error (.unwritable cause)

/-- **The configuration of a run**: that of a file, if one is named, or else the default, with what
the environment overrides. -/
def ofRun (disk : Disk) (overrides : Overrides) : Option String → Except ConfigError Config
  | none => .ok (overrides.apply {})
  | some path => (load disk path).map overrides.apply

end Config

end PairAnnotation
