/-
# Configurations as JSON

The same parts under the same names as in a configuration file.  Every part that is
missing has its default.
-/

import PairAnnotation.Config
import PairAnnotation.Json.Printer
import PairAnnotation.Json.Tree

namespace PairAnnotation

open Json

/-! ### Writing -/

/-- The record of the layers, each field under its own name. -/
def LayerConfig.toJson (c : LayerConfig) : Value :=
  .object [("sentence_layer", .string c.sentenceLayer), ("relation_layer", .string c.relationLayer),
    ("label_feature", .string c.labelFeature),
    ("pre_annotated_formats", .array (c.preAnnotatedFormats.map .string))]

/-- The record of a configuration, in the same three parts as its text. -/
def Config.toJson (c : Config) : Value :=
  .object [("layers", c.layers.toJson),
    ("navigation", .object [("duplicate_policy", .string c.duplicatePolicy.name)]),
    ("progress", .object [("bar_width_px", .nat c.barWidth.toNat)])]

/-! ### Reading -/

/-- The layers that a tree is the record of.  Fields that are missing have their defaults, all
others have to be of their kind. -/
def LayerConfig.ofJson? (t : Tree) : Option LayerConfig := do
  let default : LayerConfig := {}
  match ← t.fields?
      ["sentence_layer", "relation_layer", "label_feature", "pre_annotated_formats"] with
  | [sentenceLayer, relationLayer, labelFeature, formats] =>
    let sentenceLayer ← Tree.optional? default.sentenceLayer Tree.string? sentenceLayer
    let relationLayer ← Tree.optional? default.relationLayer Tree.string? relationLayer
    let labelFeature ← Tree.optional? default.labelFeature Tree.string? labelFeature
    let preAnnotatedFormats ←
      Tree.optional? default.preAnnotatedFormats (Tree.list? Tree.string?) formats
    some { sentenceLayer, relationLayer, labelFeature, preAnnotatedFormats }
  | _ => none

/-- The one field of a record, or its default when the record does not have it. -/
def Json.Tree.onlyField? {α : Type} (name : String) (default : α) (read : Tree → Option α)
    (t : Tree) : Option α := do
  match ← t.fields? [name] with
  | [field] => optional? default read field
  | _ => none

/-- An integer of 32 bits, as a width has to be one. -/
def Json.Tree.word32? (t : Tree) : Option UInt32 :=
  t.nat?.bind fun n => if n < Nat.pow 2 32 then some (UInt32.ofNat n) else none

/-- The configuration that a tree is the record of, with defaults for whatever is missing. -/
def Config.ofJson? (t : Tree) : Option Config := do
  match ← t.fields? ["layers", "navigation", "progress"] with
  | [layers, navigation, progress] =>
    let layers ← Tree.optional? {} LayerConfig.ofJson? layers
    let duplicatePolicy ← Tree.optional? .adjacent
      (Tree.onlyField? "duplicate_policy" .adjacent (·.string?.bind DuplicatePolicy.ofName?))
      navigation
    let barWidth ← Tree.optional? 200 (Tree.onlyField? "bar_width_px" 200 Tree.word32?) progress
    some { layers, duplicatePolicy, barWidth }
  | _ => none

end PairAnnotation
