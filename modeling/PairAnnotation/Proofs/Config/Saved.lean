/-
# A configuration that is saved is loaded again

A configuration is written as three tables (`Config.tableTexts`), with names and keys that need no
quotes and a text for each value.  All values have texts that are read back, whatever characters
are in the strings, so the tables are read back from the text, and the configuration from the
tables (`Config.ofText?_toText`).  A file that was written holds its text, so what is loaded from
it is what was saved (`Config.load_save`).
-/

import PairAnnotation.Config.File
import PairAnnotation.Proofs.Json.Fields
import PairAnnotation.Proofs.Toml.Tables

namespace PairAnnotation

open Toml

namespace Config

/-! ### Tables -/

/-- The table of the layers: three names, and the list of the formats that may bring their
segments. -/
def layersText (c : LayerConfig) : TableText :=
  ⟨"layers", [.string "sentence_layer" c.sentenceLayer, .string "relation_layer" c.relationLayer,
    .string "label_feature" c.labelFeature, .strings "pre_annotated_formats" c.preAnnotatedFormats]⟩

/-- The table of the policy for repeated edges, with the name of the policy as its only field. -/
def navigationText (p : DuplicatePolicy) : TableText :=
  ⟨"navigation", [.string "duplicate_policy" p.name]⟩

/-- The table of the full width of the progress bar. -/
def progressText (w : UInt32) : TableText := ⟨"progress", [.nat "bar_width_px" w.toNat]⟩

/-- **The tables that a configuration is written as**, with the texts of their values. -/
def tableTexts (c : Config) : List TableText :=
  [layersText c.layers, navigationText c.duplicatePolicy, progressText c.barWidth]

/-- A configuration is written as its three tables, one after the other. -/
theorem toText_eq (c : Config) : c.toText = String.ofList (tablesText c.tableTexts) := by
  simp [toText, tableTexts, layersText, navigationText, progressText, tablesText, TableText.lines,
    FieldText.line, FieldText.string, FieldText.strings, FieldText.nat]

/-- The table of layers is proper: its keys are bare, and it holds texts and lists of texts. -/
theorem proper_layersText (c : LayerConfig) : (layersText c).Proper where
  name := (by decide : IsBareKey "layers")
  fields := by
    simp only [layersText, List.forall_mem_cons, List.not_mem_nil, false_implies, implies_true,
      and_true]
    exact ⟨.string (by decide) _, .string (by decide) _, .string (by decide) _,
      .strings (by decide) _⟩
  nodup := (by decide :
    ["sentence_layer", "relation_layer", "label_feature", "pre_annotated_formats"].Nodup)

/-- The table of navigation is proper: it holds the name of a policy. -/
theorem proper_navigationText (p : DuplicatePolicy) : (navigationText p).Proper where
  name := (by decide : IsBareKey "navigation")
  fields := List.forall_mem_singleton.2 (.string (by decide) _)
  nodup := (by decide : ["duplicate_policy"].Nodup)

/-- The table of progress is proper, since a width of 32 bits fits into an integer of the format. -/
theorem proper_progressText (w : UInt32) : (progressText w).Proper where
  name := (by decide : IsBareKey "progress")
  fields := List.forall_mem_singleton.2 (.nat (by decide) (w.toNat_lt.trans (by decide)))
  nodup := (by decide : ["bar_width_px"].Nodup)

/-- **The text of a configuration is parsed to its three tables**, with the values that they were
written from. -/
theorem parse_toText (c : Config) : parse c.toText = some (c.tableTexts.map (·.entry)) := by
  rw [toText_eq]
  refine parse_tablesText ?_ (by decide : ["layers", "navigation", "progress"].Nodup)
  simp only [tableTexts, List.forall_mem_cons, List.not_mem_nil, false_implies, implies_true,
    and_true]
  exact ⟨proper_layersText _, proper_navigationText _, proper_progressText _⟩

/-! ### Values -/

/-- A list of texts is read text by text. -/
theorem mapM_string? (items : List String) :
    (items.map Node.string).mapM Node.string? = some items := by
  rw [List.mapM_map]
  exact (mapM_eq_some_map (g := id) fun _ _ => rfl).trans (congrArg some (List.map_id items))

theorem field?_some {α : Type} (default : α) (read : Node → Option α) (node : Node) :
    Node.field? default read (some node) = read node := rfl

/-- The one field of a table is read, if the table has nothing else. -/
theorem onlyField?_table {α : Type} (name : String) (default : α) (read : Node → Option α)
    (node : Node) : onlyField? name default read (.table .explicit [(name, node)]) = read node := by
  simp [onlyField?, Node.fields?, Node.field?]

/-- The layers are read from their table as they were written, with nothing left to defaults. -/
theorem ofToml?_layersText (c : LayerConfig) :
    LayerConfig.ofToml? (layersText c).entry.2 = some c := by
  have hentry : (layersText c).entry.2 = .table .explicit [
      ("sentence_layer", .string c.sentenceLayer), ("relation_layer", .string c.relationLayer),
      ("label_feature", .string c.labelFeature),
      ("pre_annotated_formats", .array (c.preAnnotatedFormats.map .string))] := rfl
  rw [hentry]
  simp only [LayerConfig.ofToml?, Node.fields?, List.map_cons, List.map_nil, List.lookup_cons]
  simp [Node.field?, Node.string?, Node.items?, -List.mapM_map, mapM_string?]

/-- The policy is read from its table by its name. -/
theorem ofToml?_navigationText (p : DuplicatePolicy) :
    onlyField? "duplicate_policy" .adjacent DuplicatePolicy.ofToml? (navigationText p).entry.2 =
      some p :=
  (onlyField?_table _ _ _ _).trans p.ofName?_name

/-- The width of the bar is read from its table as it was written. -/
theorem ofToml?_progressText (w : UInt32) :
    onlyField? "bar_width_px" 200 widthOfToml? (progressText w).entry.2 = some w := by
  have hlt : (w.toNat : Int) < Int.pow 2 32 := Int.ofNat_lt.2 w.toNat_lt
  refine (onlyField?_table _ _ _ _).trans ?_
  rw [FieldText.nat, widthOfToml?, if_pos ⟨Int.natCast_nonneg _, hlt⟩, Int.toNat_natCast,
    UInt32.ofNat_toNat]

/-- **The configuration is read back from its tables**, each of them by its name, and no default is
used. -/
theorem ofToml?_tableTexts (c : Config) : ofToml? (c.tableTexts.map (·.entry)) = some c := by
  have hentries : c.tableTexts.map (·.entry) = [("layers", (layersText c.layers).entry.2),
      ("navigation", (navigationText c.duplicatePolicy).entry.2),
      ("progress", (progressText c.barWidth).entry.2)] := rfl
  rw [hentries, ofToml?]
  simp only [List.lookup_cons, String.reduceBEq]
  rw [field?_some, field?_some, field?_some, ofToml?_layersText, ofToml?_navigationText,
    ofToml?_progressText]
  rfl

/-- **The configuration is read back from its text**, since the text is parsed to its tables. -/
theorem ofText?_toText (c : Config) : ofText? c.toText = some c := by
  rw [ofText?, parse_toText, Option.bind_some, ofToml?_tableTexts]

/-! ### Files -/

/-- **A configuration that is saved is loaded again.**  Whatever strings, formats, policy and width
it has, its text is read as the configuration itself.  So either it is saved and then loaded from
the file, or the disk has no place for a file of this name, and the error says so. -/
theorem load_save (c : Config) (d : Disk) (path : String) :
    ofText? c.toText = some c ∧
      ((∃ d', c.save d path = .ok d' ∧ load d' path = .ok c) ∨
        ∃ cause, d.destination path = .error cause ∧
          c.save d path = .error (.unwritable cause)) := by
  refine ⟨c.ofText?_toText, ?_⟩
  cases hplace : d.destination path with
  | error cause => exact .inr ⟨cause, rfl, by rw [save, Disk.write, hplace]⟩
  | ok p =>
    have hwrite : d.write path c.toText = .ok (d.put p (.text c.toText)) := by
      rw [Disk.write, hplace]
    refine .inl ⟨d.put p (.text c.toText), by rw [save, hwrite], ?_⟩
    rw [load, Disk.read_write hwrite]
    dsimp only
    rw [ofText?_toText]

end Config
end PairAnnotation
