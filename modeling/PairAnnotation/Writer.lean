/-
# Writing a label

To label the edge from an origin to a target segment is to take away every edge that
stands there, add one edge with the new label, and write the document.  The spans of
both ends are created when the sentence layer lacks them.  When the store refuses a
step, what was done before is undone, as far as the store lets it, and nothing has
changed for the session.  When every step went through, the completion of the pair
follows: the sentinel clears it, and any other tag completes it if the inverse edge
says something.
-/

import PairAnnotation.Config
import PairAnnotation.Error
import PairAnnotation.PairSet.Basic
import PairAnnotation.Segment
import PairAnnotation.Store.Basic

namespace PairAnnotation

/-- What a successful change did, as it is reported to the annotator. -/
structure AppliedRelation where
  relation : AnnotationId
  pair : Pair
  /-- The number of edges that were there before. -/
  replaced : Nat
  /-- Whether the pair is completed now. -/
  completed : Bool
  deriving DecidableEq, Repr

/-- What has been done so far and would have to be undone. -/
structure Undo where
  createdSpans : List AnnotationId := []
  /-- Dependent and governor, once both are known. -/
  endpoints : Option (AnnotationId × AnnotationId) := none
  /-- The labels of the edges that were taken away. -/
  removed : List (Option String) := []
  createdRelation : Option AnnotationId := none
  deriving DecidableEq, Repr, Inhabited

/-- The steps of a change: an answer or an error, with the store and the account so far. -/
abbrev Attempt (σ α : Type) : Type := ExceptT EditorError (StateM (σ × Undo)) α

namespace Attempt

variable {σ α : Type}

/-- One change of the store; a refusal is reported under the name of the step. -/
def step (name : String) (e : Edit σ α) : Attempt σ α :=
  ExceptT.mk fun (s, undo) =>
    match e.apply s with
    | (.ok a, s) => (.ok a, (s, undo))
    | (.error cause, s) => (.error (.persistence name cause), (s, undo))

/-- Note what was done, so that it can be undone. -/
def note (f : Undo → Undo) : Attempt σ Unit := ExceptT.mk fun (s, undo) => (.ok (), (s, f undo))

/-- The document as it is now, with what the attempt has done so far. -/
def document [AnnotationStore σ] : Attempt σ Document :=
  ExceptT.mk fun (s, undo) => (.ok (AnnotationStore.document s), (s, undo))

end Attempt

namespace LabelWriter

variable {σ : Type} [AnnotationStore σ]

/-- The annotation of a layer with exactly this span, created if there is none. -/
def ensureSpan (layer : String) (span : Span) : Attempt σ AnnotationId := do
  let d ← Attempt.document
  match (d.spansCoveredBy layer span).find? (·.span == span) with
  | some existing => pure existing.id
  | none =>
    let id ← Attempt.step "create span annotation" (AnnotationStore.addSpan layer span)
    Attempt.note fun u => { u with createdSpans := u.createdSpans ++ [id] }
    pure id

/-- Take relations away, one after the other, and note the label of each, up to the first that the
store refuses. -/
def removeAll : List RelationAnnotation → Attempt σ Unit
  | [] => pure ()
  | old :: rest => do
    Attempt.step "delete previous relation" (AnnotationStore.delete old.id)
    Attempt.note fun u => { u with removed := u.removed ++ [old.label] }
    removeAll rest

/-- Replace the edges from `origin` to `target` by one with a label, and write the document. -/
def replaceEdge (layers : LayerConfig) (label : String) (origin target : Span)
    (previous : List RelationAnnotation) : Attempt σ AnnotationId := do
  let originId ← ensureSpan layers.sentenceLayer origin
  let targetId ← ensureSpan layers.sentenceLayer target
  Attempt.note fun u => { u with endpoints := some (targetId, originId) }
  removeAll previous
  let relation ← Attempt.step "create relation annotation"
    (AnnotationStore.addRelation layers.relationLayer targetId originId)
  Attempt.note fun u => { u with createdRelation := some relation }
  Attempt.step "set relation label"
    (AnnotationStore.setFeature relation layers.labelFeature label)
  Attempt.step "write document" AnnotationStore.write
  pure relation

/-! ### Undoing -/

/-- The store after a change, whether it was accepted or not. -/
def tryEdit {α : Type} (e : Edit σ α) (s : σ) : σ := (e.apply s).2

/-- A new edge with the label of one that was taken away. -/
def restore (layers : LayerConfig) (dependent governor : AnnotationId) (label : Option String) :
    Edit σ Unit := do
  let id ← AnnotationStore.addRelation layers.relationLayer dependent governor
  match label with
  | some label => AnnotationStore.setFeature id layers.labelFeature label
  | none => pure ()

/-- **Undo what was done**, each part as far as the store lets it.  Spans stay when edges were put
back, since those edges point at them. -/
def rollBack (layers : LayerConfig) (undo : Undo) (s : σ) : σ :=
  let s := match undo.createdRelation with
    | some relation => tryEdit (AnnotationStore.delete relation) s
    | none => s
  let s := match undo.endpoints with
    | some (dependent, governor) =>
      undo.removed.foldl (fun s label => tryEdit (restore layers dependent governor label) s) s
    | none => s
  if undo.removed.isEmpty then
    undo.createdSpans.reverse.foldl (fun s id => tryEdit (AnnotationStore.delete id) s) s
  else s

/-! ### The whole change -/

/-- The completion of a pair after its edge was labelled. -/
def markAfter (pairs : PairSet) (pair : Pair) (tag : Tag) (inverseInformative : Bool) : PairSet :=
  if tag.isUnset then pairs.markIncomplete pair
  else if !pairs.isCompleted pair && inverseInformative then pairs.markCompleted pair
  else pairs

/-- The span of a segment, or the error that there is none. -/
def segmentSpan (segments : SegmentList) (index : Nat) : Except EditorError Span :=
  match segments.spanAt? index with
  | some span => .ok span
  | none => .error (.segmentOutOfRange index segments.length)

/-- What a label is about: the spans of its two ends, and their pair. -/
structure Target where
  origin : Span
  target : Span
  pair : Pair

/-- Check the two indices: both have to be those of segments, the first one is checked first, and
they must differ. -/
def locate (segments : SegmentList) (origin target : Nat) : Except EditorError Target := do
  let originSpan ← segmentSpan segments origin
  let targetSpan ← segmentSpan segments target
  match Pair.of? origin target with
  | some pair => .ok ⟨originSpan, targetSpan, pair⟩
  | none => .error (.general ("cannot relate segment " ++ toString origin ++ " to itself"))

/-- **Label the edge from `origin` to `target`.**  All edges that point that way are replaced by a
new one; if a step of that is refused, what was done is rolled back and the error is handed on. -/
def apply (layers : LayerConfig) (segments : SegmentList) (tag : Tag) (origin target : Nat)
    (pairs : PairSet) (s : σ) : Except EditorError AppliedRelation × PairSet × σ :=
  match locate segments origin target with
  | .error e => (.error e, pairs, s)
  | .ok place =>
    let relations :=
      (AnnotationStore.document s).relationsOn layers.relationLayer layers.labelFeature
    let inverseInformative := match relations.reverse.find? (·.links place.origin place.target) with
      | some r => r.isInformative
      | none => false
    let previous := relations.filter (·.links place.target place.origin)
    match (replaceEdge layers tag.name place.origin place.target previous).run.run (s, {}) with
    | (.error e, (s, undo)) => (.error e, pairs, rollBack layers undo s)
    | (.ok relation, (s, _)) =>
      let pairs := markAfter pairs place.pair tag inverseInformative
      (.ok ⟨relation, place.pair, previous.length, pairs.isCompleted place.pair⟩, pairs, s)

end LabelWriter

end PairAnnotation
