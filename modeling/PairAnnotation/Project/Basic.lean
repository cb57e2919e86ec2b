/-
# Projects

A project names its source documents and keeps, for every document and user, how far
that user is with it.  A user's annotation document belongs to the source document
of the same name.
-/

import PairAnnotation.Timestamp
import PairAnnotation.Uuid

namespace PairAnnotation

/-- How far a user is with a document; a state is recorded, never computed. -/
inductive WorkState where
  | new
  | inProgress
  | finished
  | ignore
  deriving DecidableEq, Repr, Inhabited

namespace WorkState

/-- The name of a state, as it is written in project files. -/
def name : WorkState → String
  | .new => "new"
  | .inProgress => "in_progress"
  | .finished => "finished"
  | .ignore => "ignore"

/-- A state by its exact name; other spellings are refused. -/
def ofName? (name : String) : Option WorkState :=
  [new, inProgress, finished, ignore].find? (·.name == name)

/-- A state is found again by its name, which is what is written for it. -/
theorem ofName?_name (s : WorkState) : ofName? s.name = some s := by
  cases s <;> rfl

end WorkState

/-- A document that is to be annotated, known by its name alone. -/
structure SourceDocument where
  name : String
  addedAt : Timestamp
  deriving DecidableEq, Repr, Inhabited

/-- One user's work on a document, which is matched to its source document by name. -/
structure AnnotationDocument where
  name : String
  user : String
  state : WorkState
  updated : Timestamp
  deriving DecidableEq, Repr, Inhabited

/-- Source documents and the work of all users on them. -/
structure Project where
  id : Uuid
  name : String
  description : Option String := none
  createdAt : Timestamp
  updatedAt : Timestamp
  sources : List SourceDocument := []
  annotations : List AnnotationDocument := []
  deriving DecidableEq, Repr, Inhabited

/-- How many documents there are, and how many annotation documents in each state. -/
structure ProjectStats where
  totalDocuments : Nat
  annotationDocuments : Nat
  finished : Nat
  inProgress : Nat
  new : Nat
  ignored : Nat
  deriving DecidableEq, Repr, Inhabited

namespace Project

/-- A project without documents, made and updated at one time. -/
def create (id : Uuid) (name : String) (now : Timestamp) : Project where
  id := id
  name := name
  createdAt := now
  updatedAt := now

/-- The source document of a name, the first one if there are several. -/
def source? (p : Project) (name : String) : Option SourceDocument :=
  p.sources.find? (·.name == name)

/-- **Add a source document**, unless there is one of that name; answers whether it was added. -/
def addSource (p : Project) (name : String) (now : Timestamp) : Bool × Project :=
  if (p.source? name).isSome then (false, p)
  else (true, { p with sources := p.sources ++ [⟨name, now⟩], updatedAt := now })

/-- Enter the state of a user in the first annotation document of that document and user, or in a
new one at the end. -/
def enterState (document user : String) (state : WorkState) (now : Timestamp) :
    List AnnotationDocument → List AnnotationDocument
  | [] => [⟨document, user, state, now⟩]
  | a :: rest =>
    if a.name = document ∧ a.user = user then { a with state, updated := now } :: rest
    else a :: enterState document user state now rest

/-- **Record how far a user is** with a document: the state is replaced, or entered if there was
none, and the project was updated then. -/
def record (p : Project) (document user : String) (state : WorkState) (now : Timestamp) :
    Project :=
  { p with
    annotations := enterState document user state now p.annotations
    updatedAt := now }

/-- The annotation documents of a source document, one for each user who has one. -/
def annotationsFor (p : Project) (document : String) : List AnnotationDocument :=
  p.annotations.filter (·.name == document)

/-- The users whose work on a document is in a state. -/
def usersIn (p : Project) (document : String) (state : WorkState) : List String :=
  ((p.annotationsFor document).filter (·.state == state)).map (·.user)

/-- The number of annotation documents in a state, whether their source document was added or
not. -/
def count (p : Project) (state : WorkState) : Nat := p.annotations.countP (·.state == state)

/-- **What the heading counts**: source documents, annotation documents, and how many of the latter
are in each state. -/
def stats (p : Project) : ProjectStats where
  totalDocuments := p.sources.length
  annotationDocuments := p.annotations.length
  finished := p.count .finished
  inProgress := p.count .inProgress
  new := p.count .new
  ignored := p.count .ignore

end Project

end PairAnnotation
