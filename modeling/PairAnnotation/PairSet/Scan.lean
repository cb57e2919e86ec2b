/-
# Pairs out of relations

The relations of a document are read once, in order, to find the pairs that carry a
relation and those among them that count as completed.  What does not fit, an end
that is no segment or an edge that is there already, gives a warning and is never
fatal.  How repeated edges are folded is a matter of the `DuplicatePolicy`.
-/

import PairAnnotation.Config
import PairAnnotation.PairSet.Basic
import PairAnnotation.Segment

namespace PairAnnotation

/-- Something odd about a relation, which is reported when a session starts and does not keep it
from starting. -/
inductive IntegrityWarning where
  | unknownEndpoint (relation : AnnotationId)
  | selfRelation (relation : AnnotationId) (segment : Nat)
  | legacyPlaceholder (relation : AnnotationId) (pair : Pair)
  | duplicateEdge (relation : AnnotationId) (dependent governor : Nat)
  deriving DecidableEq, Repr

namespace IntegrityWarning

/-- The wording of a warning, as it is shown when a document is opened. -/
def message : IntegrityWarning → String
  | unknownEndpoint relation =>
    "relation " ++ relation.text ++ " points at a span that is not a segment"
  | selfRelation relation segment =>
    "relation " ++ relation.text ++ " connects segment " ++ toString segment ++ " with itself"
  | legacyPlaceholder relation pair =>
    "relation " ++ relation.text ++ " follows an unset placeholder for pair " ++ pair.text
  | duplicateEdge relation dependent governor =>
    "relation " ++ relation.text ++ " repeats edge " ++ toString dependent ++ " <- "
      ++ toString governor

end IntegrityWarning

/-- A relation with both ends on segments of different indices. -/
structure Edge where
  relation : AnnotationId
  dependent : Nat
  governor : Nat
  pair : Pair
  isInformative : Bool
  deriving DecidableEq, Repr

namespace Edge

/-- The two ends in order, the dependent one first; the edge back has them the other way round. -/
def ends (e : Edge) : Nat × Nat := (e.dependent, e.governor)

end Edge

/-- What a relation is among the segments of a document. -/
inductive RelationReading where
  /-- An end is no segment. -/
  | stray
  /-- Both ends are the same segment. -/
  | loop (segment : Nat)
  | edge (e : Edge)
  deriving DecidableEq, Repr

/-- Read a relation among segments: both ends are looked up by their spans. -/
def RelationAnnotation.reading (segments : SegmentList) (r : RelationAnnotation) :
    RelationReading :=
  match segments.indexOf? r.dependent, segments.indexOf? r.governor with
  | some dependent, some governor =>
    match Pair.of? dependent governor with
    | none => .loop dependent
    | some pair => .edge ⟨r.id, dependent, governor, pair, r.isInformative⟩
  | _, _ => .stray

/-- The edge that a relation is, if both of its ends are segments, and different ones. -/
def RelationAnnotation.edge? (segments : SegmentList) (r : RelationAnnotation) : Option Edge :=
  match r.reading segments with
  | .edge e => some e
  | _ => none

/-- What is known after a number of relations, all that the next relation is judged by. -/
structure Scan where
  /-- Pairs in the order of their first edges. -/
  order : List Pair := []
  completed : List Pair := []
  warnings : List IntegrityWarning := []
  /-- The ends of all edges so far. -/
  ends : List (Nat × Nat) := []
  /-- The ends of the relation right before, if it is an edge. -/
  previous : Option (Nat × Nat) := none

namespace Scan

/-- A relation that is no edge only leaves a warning. -/
def skip (s : Scan) (w : IntegrityWarning) : Scan :=
  { s with warnings := s.warnings ++ [w], previous := none }

/-- The scan with an edge entered: its pair is listed, unless it is already, and its ends are the
previous ones now. -/
def enter (s : Scan) (e : Edge) : Scan :=
  { s with
    order := if s.order.contains e.pair then s.order else s.order ++ [e.pair]
    ends := s.ends ++ [e.ends]
    previous := some e.ends }

/-- An edge whose ends are those of an earlier edge leaves a warning. -/
def noteRepetition (s : Scan) (e : Edge) : Scan :=
  if s.ends.contains e.ends then
    { s with warnings := s.warnings ++ [.duplicateEdge e.relation e.dependent e.governor] }
  else s

/-- **The first edge of a pair decides on its completion**; after it, only an informative edge that
directly follows an edge with the same ends completes the pair. -/
def addAdjacent (s : Scan) (e : Edge) : Scan :=
  if !s.order.contains e.pair then
    { s.enter e with completed := if e.isInformative then s.completed ++ [e.pair] else s.completed }
  else if e.isInformative && !s.completed.contains e.pair && s.previous == some e.ends then
    { s.enter e with
      completed := s.completed ++ [e.pair]
      warnings := s.warnings ++ [.legacyPlaceholder e.relation e.pair] }
  else (s.noteRepetition e).enter e

/-- Read one more relation: it is passed over with a warning, or it is an edge, which the policy
treats. -/
def add (policy : DuplicatePolicy) (segments : SegmentList) (s : Scan) (r : RelationAnnotation) :
    Scan :=
  match r.reading segments with
  | .stray => s.skip (.unknownEndpoint r.id)
  | .loop segment => s.skip (.selfRelation r.id segment)
  | .edge e =>
    match policy with
    | .adjacent => s.addAdjacent e
    | .lastWriteWins => (s.noteRepetition e).enter e

end Scan

/-- The edges that no later edge with the same ends replaces. -/
def lastEdges : List Edge → List Edge
  | [] => []
  | e :: rest => if rest.any (·.ends == e.ends) then lastEdges rest else e :: lastEdges rest

/-- **Read all relations.**  When the last label counts, a pair is completed by any edge that stands
last for its ends and is informative. -/
def scanRelations (relations : List RelationAnnotation) (segments : SegmentList)
    (policy : DuplicatePolicy) : Scan :=
  let scan := relations.foldl (Scan.add policy segments) {}
  match policy with
  | .adjacent => scan
  | .lastWriteWins =>
    let last := lastEdges (relations.filterMap (·.edge? segments))
    { scan with completed := (last.filter (·.isInformative)).map (·.pair) }

namespace PairSet

/-- The pairs that carry a relation, in the order of their first edges, with the warnings of the
scan. -/
def enumerate (relations : List RelationAnnotation) (segments : SegmentList)
    (policy : DuplicatePolicy) : PairSet × List IntegrityWarning :=
  let scan := scanRelations relations segments policy
  ((ofPairs scan.order).withCompleted scan.completed, scan.warnings)

/-- Every combination of segments, completed where relations complete it, with the same warnings. -/
def enumerateAll (relations : List RelationAnnotation) (segments : SegmentList)
    (policy : DuplicatePolicy) : PairSet × List IntegrityWarning :=
  let scan := scanRelations relations segments policy
  ((combinations segments.length).withCompleted scan.completed, scan.warnings)

end PairSet

end PairAnnotation
