/-
# Errors of the editor

What can go wrong while a document is loaded, navigated and labelled, each with two
wordings: one for a log and one for the annotator.  A failure that leaves the
session usable is *recoverable*; the action may be tried again.
-/

import PairAnnotation.Document.Basic

namespace PairAnnotation

/-- Why the editor could not do what it was asked. -/
inductive EditorError where
  /-- There is no document to edit. -/
  | documentLoad (message : String)
  /-- The store refused a step of a change. -/
  | persistence (step : String) (cause : StoreError)
  /-- The configuration makes no sense. -/
  | configuration (message : String)
  /-- A file could not be read or written. -/
  | fileIO (path : String)
  /-- No tag of the tag set has this name. -/
  | unknownTag (name : String)
  /-- There is no segment of this index. -/
  | segmentOutOfRange (index length : Nat)
  /-- Anything else. -/
  | general (message : String)
  deriving DecidableEq, Repr, Inhabited

namespace EditorError

/-- The wording for a log, by the kind of the error.  The cause of a refused step is not repeated
there. -/
def message : EditorError → String
  | .documentLoad message => "Document could not be loaded: " ++ message
  | .persistence step _ => "Annotation could not be persisted: " ++ step
  | .configuration message => "Configuration error: " ++ message
  | .fileIO path => "File I/O error: " ++ path
  | .unknownTag name => "Unknown tag: " ++ name
  | .segmentOutOfRange index length =>
    "Segment index " ++ toString index ++ " out of range (" ++ toString length ++ " segments)"
  | .general message => "General error: " ++ message

/-- Whether the session can go on after the error, or has lost what it works on. -/
def isRecoverable : EditorError → Bool
  | .documentLoad _ | .configuration _ | .fileIO _ => false
  | .persistence .. | .unknownTag _ | .segmentOutOfRange .. | .general _ => true

/-- The wording for the annotator, who is told the cause of a refused step, and is sent to the logs
where nothing can be done. -/
def userMessage : EditorError → String
  | .documentLoad message => "Unable to load data: " ++ message
  | .persistence step cause =>
    "Unable to " ++ step ++ ": " ++ cause.message ++ ". Please try again."
  | .unknownTag name => "The tag '" ++ name ++ "' is not part of the relation tagset."
  | .configuration message => "Configuration problem: " ++ message
  | .fileIO _ | .segmentOutOfRange .. | .general _ =>
    "Something went wrong. Check the logs for details."

end EditorError

end PairAnnotation
