/-
# Projects as JSON

The text form of a project and the file it is kept in.
-/

import PairAnnotation.Disk
import PairAnnotation.Error
import PairAnnotation.Json.Tree
import PairAnnotation.Project.Completion

namespace PairAnnotation

open Json

/-- The record of a source document: its name and when it was added. -/
def SourceDocument.toJson (s : SourceDocument) : Value :=
  .object [("name", .string s.name), ("added_at", .string s.addedAt.text)]

/-- The record of an annotation document: its name and user, the state, and when that was
recorded. -/
def AnnotationDocument.toJson (a : AnnotationDocument) : Value :=
  .object [("name", .string a.name), ("user", .string a.user), ("state", .string a.state.name),
    ("updated", .string a.updated.text)]

/-- The record of the counts in the heading, each under its own name. -/
def ProjectStats.toJson (s : ProjectStats) : Value :=
  .object [("total_documents", .nat s.totalDocuments),
    ("annotation_documents", .nat s.annotationDocuments), ("finished", .nat s.finished),
    ("in_progress", .nat s.inProgress), ("new", .nat s.new), ("ignored", .nat s.ignored)]

/-- The record of a row of the table: the document, and the users in the two states that count. -/
def DocumentCompletion.toJson (r : DocumentCompletion) : Value :=
  .object [("document", .string r.document), ("finished", .array (r.finished.map .string)),
    ("in_progress", .array (r.inProgress.map .string))]

/-- A state: its name, or an object with nothing under that name. -/
def WorkState.ofJson? : Tree → Option WorkState
  | .string name => name.bind ofName?
  | .object [(name, .null)] => name.bind ofName?
  | _ => none

/-- The time that a tree is the text of, with any offset that a time may have. -/
def Timestamp.ofJson? (t : Tree) : Option Timestamp := t.string?.bind ofText?

/-- The source document that a tree is the record of; all fields have to be there. -/
def SourceDocument.ofJson? (t : Tree) : Option SourceDocument := do
  match ← t.fields? ["name", "added_at"] with
  | [name, addedAt] =>
    let name ← Tree.required? Tree.string? name
    let addedAt ← Tree.required? Timestamp.ofJson? addedAt
    some ⟨name, addedAt⟩
  | _ => none

/-- The annotation document that a tree is the record of; all fields have to be there, and the state
has to be one. -/
def AnnotationDocument.ofJson? (t : Tree) : Option AnnotationDocument := do
  match ← t.fields? ["name", "user", "state", "updated"] with
  | [name, user, state, updated] =>
    let name ← Tree.required? Tree.string? name
    let user ← Tree.required? Tree.string? user
    let state ← Tree.required? WorkState.ofJson? state
    let updated ← Tree.required? Timestamp.ofJson? updated
    some ⟨name, user, state, updated⟩
  | _ => none

namespace Project

/-- The record of a project, its documents in the order in which they were added. -/
def toJson (p : Project) : Value :=
  .object [("id", .string p.id.text), ("name", .string p.name),
    ("description", .ofOption .string p.description),
    ("created_at", .string p.createdAt.text), ("updated_at", .string p.updatedAt.text),
    ("source_documents", .array (p.sources.map SourceDocument.toJson)),
    ("annotation_documents", .array (p.annotations.map AnnotationDocument.toJson))]

/-- The project that a tree is the record of; only the description may be missing. -/
def ofJson? (t : Tree) : Option Project := do
  match ← t.fields? ["id", "name", "description", "created_at", "updated_at", "source_documents",
      "annotation_documents"] with
  | [id, name, description, createdAt, updatedAt, sources, annotations] =>
    let id ← Tree.required? (fun t => t.string?.bind Uuid.ofText?) id
    let name ← Tree.required? Tree.string? name
    let description ← Tree.optional? none (Tree.orNull? Tree.string?) description
    let createdAt ← Tree.required? Timestamp.ofJson? createdAt
    let updatedAt ← Tree.required? Timestamp.ofJson? updatedAt
    let sources ← Tree.required? (Tree.list? SourceDocument.ofJson?) sources
    let annotations ← Tree.required? (Tree.list? AnnotationDocument.ofJson?) annotations
    some { id, name, description, createdAt, updatedAt, sources, annotations }
  | _ => none

/-- The text of a project, written over several lines. -/
def toText (p : Project) : String := p.toJson.prettyText

/-- **Write a project to a file**, or report the file that could not be written. -/
def save (p : Project) (disk : Disk) (path : String) : Except EditorError Disk :=
  match disk.write path p.toText with
  | .ok disk => .ok disk
  | .error _ => .error (.fileIO path)

/-- **Read a project from a file**, or report why there is none in it. -/
def load (disk : Disk) (path : String) : Except EditorError Project :=
  match disk.read path with
  | .error _ => .error (.fileIO path)
  | .ok text =>
    match (Tree.parse text).bind ofJson? with
    | some p => .ok p
    | none => .error (.documentLoad ("invalid project file " ++ path))

end Project

end PairAnnotation
