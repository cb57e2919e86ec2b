/-
# Completion tables

Which users have finished each document of a project and which are still at work on
it, one row a document in the order of the project, and the table in plain text.
-/

import PairAnnotation.Project.Basic
import PairAnnotation.Text.Column

namespace PairAnnotation

/-- A row: the users that are done with a document, and those that are at it. -/
structure DocumentCompletion where
  document : String
  finished : List String
  inProgress : List String
  deriving DecidableEq, Repr, Inhabited

/-- Whether nobody has worked on the document: no user has finished it, and none is at it. -/
def DocumentCompletion.isUntouched (r : DocumentCompletion) : Bool :=
  r.finished.isEmpty && r.inProgress.isEmpty

/-- **The completion table of a project**: a row for each source document, with the users who have
finished it and those who are at it. -/
def Project.completionTable (p : Project) : List DocumentCompletion :=
  p.sources.map fun s => ⟨s.name, p.usersIn s.name .finished, p.usersIn s.name .inProgress⟩

namespace CompletionTable

/-- Users side by side with commas in between, a dash for none. -/
def usersText (users : List String) : String :=
  if users.isEmpty then "-" else ", ".intercalate users

/-- A line of three cells, the first one of a given width. -/
def line (width : Nat) (document finished inProgress : String) : String :=
  Text.padRight width document ++ "  " ++ Text.padRight 24 finished ++ "  " ++ inProgress ++ "\n"

/-- The width of the first column: that of the longest name, the heading included. -/
def documentWidth (rows : List DocumentCompletion) : Nat :=
  rows.foldl (fun w r => max w r.document.length) "Document".length

/-- **The table in plain text**, a line for its heading and one for each row, in columns. -/
def render (rows : List DocumentCompletion) : String :=
  let width := documentWidth rows
  line width "Document" "Finished" "In progress"
    ++ String.join (rows.map fun r =>
      line width r.document (usersText r.finished) (usersText r.inProgress))

end CompletionTable

end PairAnnotation
