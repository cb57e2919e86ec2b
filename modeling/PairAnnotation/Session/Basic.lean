/-
# Sessions

A session is one annotator's work on one document: the segments and the candidate
pairs, both fixed when the session starts, the relations by their ends, and the
cursor.  A label goes through the store first; the session changes only when the
store has taken it.  Everything that can be done to a session is an `Action`, so
the states that a session can reach are the results of `Session.run`.
-/

import PairAnnotation.Cursor
import PairAnnotation.PairSet.Scan
import PairAnnotation.Progress
import PairAnnotation.Writer

namespace PairAnnotation

/-- The two directions between the left and the right segment. -/
inductive RelationDirection where
  /-- The edge that points at the right segment. -/
  | leftToRight
  /-- The edge that points at the left segment. -/
  | rightToLeft
  deriving DecidableEq, Repr, Inhabited

/-- The ways to another pair: on, back, and on to an incomplete one. -/
inductive PairMove where
  | next
  | previous
  | nextIncomplete
  deriving DecidableEq, Repr, Inhabited

/-- **The state of a session** over a store.  Segments and candidates are fixed from the start, and
the index is what was last read from the store. -/
structure Session (σ : Type) where
  store : σ
  config : Config
  segments : SegmentList
  index : RelationIndex
  pairs : PairSet
  cursor : Cursor
  warnings : List IntegrityWarning

namespace Session

variable {σ : Type} [AnnotationStore σ]

/-- The tag set to choose from, which always has the sentinel.  Where the document has none, it is
named after the feature. -/
def tagSetOf (d : Document) (layers : LayerConfig) : TagSet :=
  ((d.tagSet? layers.relationLayer layers.labelFeature).getD ⟨layers.labelFeature, []⟩).withSentinel

/-- The relations that a session is about, those of its layer with both ends resolved. -/
def relationsOf (d : Document) (layers : LayerConfig) : List RelationAnnotation :=
  d.relationsOn layers.relationLayer layers.labelFeature

/-- The pairs to work through.  A pre-annotated document offers the pairs that carry a relation,
unless there is none. -/
def candidatesOf (relations : List RelationAnnotation) (segments : SegmentList)
    (policy : DuplicatePolicy) : PairSet × List IntegrityWarning :=
  match segments.source with
  | .derived => PairSet.enumerateAll relations segments policy
  | .preAnnotated =>
    let (pairs, warnings) := PairSet.enumerate relations segments policy
    if pairs.isEmpty then ((PairSet.enumerateAll relations segments policy).1, warnings)
    else (pairs, warnings)

/-- **Start a session**: there must be two segments and a candidate. -/
def start (store : σ) (config : Config) : Except EditorError (Session σ) :=
  let d := AnnotationStore.document store
  let segments := SegmentList.load d config.layers
  if segments.length < 2 then
    .error (.documentLoad ("document '" ++ d.name ++ "' has " ++ toString segments.length
      ++ " segment(s), at least two are needed"))
  else
    let relations := relationsOf d config.layers
    let (pairs, warnings) := candidatesOf relations segments config.duplicatePolicy
    match Cursor.start? pairs with
    | none => .error (.documentLoad "no candidate pairs")
    | some cursor =>
      .ok
        { store
          config
          segments
          index := ⟨relations, tagSetOf d config.layers⟩
          pairs
          cursor
          warnings }

/-! ### Questions -/

/-- The tags to choose from, the sentinel among them. -/
def tags (s : Session σ) : TagSet := s.index.tags

/-- A tag by its name, or the error that there is none. -/
def tag (s : Session σ) (name : String) : Except EditorError Tag :=
  match s.tags.find? name with
  | some tag => .ok tag
  | none => .error (.unknownTag name)

/-- What stands on a pair, with its smaller index on the left. -/
def resolvePair (s : Session σ) (p : Pair) : ResolvedRelation :=
  match s.segments.spanAt? p.low, s.segments.spanAt? p.high with
  | some low, some high => s.index.resolve low high
  | _, _ => {}

/-- What stands between two segments, which need not be a candidate; an index that is none is an
error. -/
def resolve (s : Session σ) (left right : Nat) : Except EditorError ResolvedRelation := do
  let leftSpan ← LabelWriter.segmentSpan s.segments left
  let rightSpan ← LabelWriter.segmentSpan s.segments right
  pure (s.index.resolve leftSpan rightSpan)

/-- How far the session has come: the completed pairs among its candidates. -/
def progress (s : Session σ) : Progress := .ofPairs s.pairs

/-! ### Actions -/

/-- Read the relations of the store again, and leave the tags as they are. -/
def reindex (s : Session σ) : Session σ :=
  { s with
    index := { s.index with
      edges := relationsOf (AnnotationStore.document s.store) s.config.layers } }

/-- Origin and target of the edge in a direction between the segments under the cursor. -/
def endsOf (c : Cursor) : RelationDirection → Nat × Nat
  | .leftToRight => (c.left, c.right)
  | .rightToLeft => (c.right, c.left)

/-- **Label the current pair** in one direction.  The store is asked first, and the relations are
read again whether it has taken the label or not. -/
def select (s : Session σ) (direction : RelationDirection) (tagName : String) :
    Except EditorError AppliedRelation × Session σ :=
  match s.tag tagName with
  | .error e => (.error e, s)
  | .ok tag =>
    let (origin, target) := endsOf s.cursor direction
    let (outcome, pairs, store) :=
      LabelWriter.apply s.config.layers s.segments tag origin target s.pairs s.store
    (outcome, { s with pairs, store }.reindex)

/-- Move one side among the segments paired with the other one. -/
def moveSegment (s : Session σ) (side : Side) (d : Direction) : Nat × Session σ :=
  let (segment, cursor) := s.cursor.moveSegment side d s.pairs
  (segment, { s with cursor })

/-- Move to another pair, and tell which pair is the current one then. -/
def movePair (s : Session σ) (move : PairMove) : Option Pair × Session σ :=
  let (pair, cursor) := match move with
    | .next => s.cursor.movePair .next s.pairs s.resolvePair
    | .previous => s.cursor.movePair .previous s.pairs s.resolvePair
    | .nextIncomplete => s.cursor.jumpToNextIncomplete s.pairs s.resolvePair
  (pair, { s with cursor })

/-- Restrict the moves to pairs that carry a tag, or lift the restriction. -/
def setFilter (s : Session σ) : Option String → Except EditorError Unit × Session σ
  | none => (.ok (), { s with cursor := { s.cursor with filter := none } })
  | some name =>
    match s.tag name with
    | .ok tag => (.ok (), { s with cursor := { s.cursor with filter := some tag } })
    | .error e => (.error e, s)

end Session

/-- What an annotator can do: label, move, and restrict the moves. -/
inductive Action where
  | select (direction : RelationDirection) (tagName : String)
  | moveSegment (side : Side) (direction : Direction)
  | movePair (move : PairMove)
  | setFilter (tagName : Option String)
  deriving DecidableEq, Repr

namespace Session

variable {σ : Type} [AnnotationStore σ]

/-- The session after an action, whether it succeeded or not. -/
def perform (s : Session σ) : Action → Session σ
  | .select direction tagName => (s.select direction tagName).2
  | .moveSegment side direction => (s.moveSegment side direction).2
  | .movePair move => (s.movePair move).2
  | .setFilter tagName => (s.setFilter tagName).2

/-- The session after a number of actions, one after the other, whatever becomes of each. -/
def run (s : Session σ) (actions : List Action) : Session σ := actions.foldl perform s

end Session

end PairAnnotation
