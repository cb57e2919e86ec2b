/-
# Configuration

The layers and features a session works with, how repeated edges of old documents
are read, and how wide the progress bar is.  Every part has a default, and three of
them can be overridden by the environment.
-/

import PairAnnotation.Text.LowerCase

namespace PairAnnotation

/-- How several edges between two segments are folded when pairs are collected. -/
inductive DuplicatePolicy where
  /-- The first edge of a pair decides, except that a placeholder directly followed by a real edge
  for the same two ends counts as completed. -/
  | adjacent
  /-- Edges with the same two ends are one edge, and the last label counts. -/
  | lastWriteWins
  deriving DecidableEq, Repr, Inhabited

namespace DuplicatePolicy

/-- The name of a policy, as it is written in configurations. -/
def name : DuplicatePolicy → String
  | .adjacent => "adjacent"
  | .lastWriteWins => "last_write_wins"

/-- A policy by its exact name, as configurations are read; other spellings are refused there. -/
def ofName? (name : String) : Option DuplicatePolicy :=
  if name = "adjacent" then some .adjacent
  else if name = "last_write_wins" then some .lastWriteWins
  else none

/-- A policy by one of its spellings, in any case; whatever is none of them is the first policy. -/
def ofText (text : String) : DuplicatePolicy :=
  if ["last_write_wins", "last-write-wins", "lww"].contains (Text.lowerCase text)
  then .lastWriteWins else .adjacent

/-- A policy is found again by its name, which is what is written for it. -/
theorem ofName?_name (p : DuplicatePolicy) : ofName? p.name = some p := by
  cases p <;> rfl

end DuplicatePolicy

/-- Where segments, relations and labels are found in a document. -/
structure LayerConfig where
  /-- The span layer with the segments of a pre-annotated document. -/
  sentenceLayer : String := "webanno.custom.Sentence"
  /-- The layer whose relations link two segments. -/
  relationLayer : String := "webanno.custom.SentenceRelation"
  /-- The feature of the relation layer with the name of the tag. -/
  labelFeature : String := "label"
  /-- Formats of documents that may carry their segments. -/
  preAnnotatedFormats : List String := ["xmi"]
  deriving DecidableEq, Repr, Inhabited

/-- Whether a format names one of the pre-annotated formats somewhere in it, in any case. -/
def LayerConfig.isPreAnnotatedFormat (c : LayerConfig) (format : String) : Bool :=
  let format := (Text.lowerCase format).toList
  c.preAnnotatedFormats.any fun f => Text.occursIn (Text.lowerCase f).toList format

/-- The configuration of a session: where things are in a document, how edges of one pair are
folded, and how wide the bar is. -/
structure Config where
  layers : LayerConfig := {}
  duplicatePolicy : DuplicatePolicy := .adjacent
  /-- The full width of the progress bar, in pixels. -/
  barWidth : UInt32 := 200
  deriving DecidableEq, Repr, Inhabited

/-- The values that the environment may set: two of the layers, and the policy. -/
structure Overrides where
  sentenceLayer : Option String := none
  relationLayer : Option String := none
  duplicatePolicy : Option String := none
  deriving DecidableEq, Repr, Inhabited

namespace Overrides

/-- Overrides as a look-up of environment variables gives them; a variable that is not set overrides
nothing. -/
def ofEnvironment (look : String → Option String) : Overrides where
  sentenceLayer := look "RELATION_EDITOR_SENTENCE_LAYER"
  relationLayer := look "RELATION_EDITOR_RELATION_LAYER"
  duplicatePolicy := look "RELATION_EDITOR_DUPLICATE_POLICY"

/-- The configuration with every value that is overridden replaced.  A policy may be spelled in
several ways here, and a misspelled one is the first policy. -/
def apply (o : Overrides) (c : Config) : Config where
  layers :=
    { c.layers with
      sentenceLayer := o.sentenceLayer.getD c.layers.sentenceLayer
      relationLayer := o.relationLayer.getD c.layers.relationLayer }
  duplicatePolicy := (o.duplicatePolicy.map DuplicatePolicy.ofText).getD c.duplicatePolicy
  barWidth := c.barWidth

end Overrides

end PairAnnotation
