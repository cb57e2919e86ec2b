/-
# The edit loop

The session in a terminal: the view of the current pair, then one command a line,
each answered in text.  Blank lines are passed over.  The loop ends with the input,
with the command to quit, at a line that is no text, or where there is no view to show.
-/

import PairAnnotation.EditCommand
import PairAnnotation.Session.View
import PairAnnotation.Text.Column
import PairAnnotation.Text.Line

namespace PairAnnotation

/-- The view as text: segments, labels, completion, progress and warnings, line by line. -/
def EditorView.render (v : EditorView) : String :=
  let name (tag : Option Tag) := (tag.map (·.name)).getD "-"
  let filter := (v.filter.map ("  filter: " ++ ·.name)).getD ""
  let source := (v.leftMetadata.url.map fun url => "  source: " ++ url ++ "\n").getD ""
  "pair " ++ toString (v.pairIndex + 1) ++ "/" ++ toString v.pairCount
    ++ "  done " ++ v.progressLabel ++ " (" ++ v.progress.countLabel ++ ")" ++ filter ++ "\n"
    ++ "L " ++ v.leftPosition ++ " " ++ v.leftText ++ "\n"
    ++ "R " ++ v.rightPosition ++ " " ++ v.rightText ++ "\n"
    ++ "  left: " ++ name v.leftRelation ++ "  right: " ++ name v.rightRelation ++ "\n"
    ++ source

/-- The statistics as text: a line for the whole and a line for each tag. -/
def StatisticsView.render (v : StatisticsView) : String :=
  "completed " ++ v.progress.countLabel ++ " (" ++ v.progress.percentLabel ++ ")\n"
    ++ String.join (v.perTag.map fun t =>
      Text.padRight 20 t.tag.name ++ " " ++ toString t.pairs ++ "\n")

/-- How a loop ends.  Where a pair has no view, its bar has no style, and the loop breaks off. -/
inductive EditLoop.Ending where
  /-- The input is over, or the command was to quit. -/
  | over
  /-- A line is no text. -/
  | notText
  /-- The session has no view to show. -/
  | noView
  deriving DecidableEq, Repr

/-- What a line does: it is answered, and the loop goes on with a session unless it ends. -/
structure Turn (σ : Type) where
  output : String
  session : Session σ
  ending : Option EditLoop.Ending := none

namespace EditLoop

variable {σ : Type} [AnnotationStore σ]

/-- The wording of a failed action, if it failed, and nothing if it did not. -/
def complaint {α : Type} : Except EditorError α → String
  | .ok _ => ""
  | .error e => e.userMessage ++ "\n"

/-- The view of a session as text, or nothing where there is no view. -/
def screen (s : Session σ) : String := (s.view?.map (·.render)).getD ""

/-- The answer to an action: a message, if there is one, and the view afterwards.  The loop ends
behind the message where there is no view. -/
def showing (message : String) (s : Session σ) : Turn σ :=
  ⟨message ++ screen s, s, if s.view?.isNone then some .noView else none⟩

/-- What a command does: to the session, to the output, and to the loop. -/
def obey (s : Session σ) : EditCommand → Turn σ
  | .quit => ⟨"", s, some .over⟩
  | .help => ⟨EditCommand.helpText ++ "\n", s, none⟩
  | .stats => ⟨s.statistics.render, s, none⟩
  | .pair move =>
    let (pair, s) := s.movePair move
    showing (if pair.isNone then "no matching pair\n" else "") s
  | .segment side direction => showing "" (s.moveSegment side direction).2
  | .relation direction tagName =>
    let (outcome, s) := s.select direction tagName
    showing (complaint outcome) s
  | .filter tagName =>
    let (outcome, s) := s.setFilter tagName
    showing (complaint outcome) s

/-- **What a line of input does.**  A line that is no command is complained about and changes
nothing. -/
def answer (s : Session σ) (line : String) : Turn σ :=
  if Text.isAllBlank line then ⟨"", s, none⟩
  else
    match EditCommand.parse line with
    | .error e => ⟨e.message ++ "\n", s, none⟩
    | .ok command => obey s command

/-- What a loop leaves: the session, everything that it wrote, and how it ended. -/
structure Transcript (σ : Type) where
  output : String
  session : Session σ
  ending : Ending

/-- The loop over the lines that are left, with what was written so far; a line that is no text ends
it. -/
def follow (output : String) (s : Session σ) : List (List UInt8) → Transcript σ
  | [] => ⟨output, s, .over⟩
  | bytes :: rest =>
    match Text.decode? bytes with
    | none => ⟨output, s, .notText⟩
    | some line =>
      let turn := answer s line
      match turn.ending with
      | some ending => ⟨output ++ turn.output, turn.session, ending⟩
      | none => follow (output ++ turn.output) turn.session rest

/-- The loop behind a turn: it goes over the lines that are left, unless the turn ended it. -/
def resume (output : String) (turn : Turn σ) (lines : List (List UInt8)) : Transcript σ :=
  match turn.ending with
  | some ending => ⟨output ++ turn.output, turn.session, ending⟩
  | none => follow (output ++ turn.output) turn.session lines

/-- **The whole loop** over an input, which starts with the view of the session. -/
def run (s : Session σ) (input : List UInt8) : Transcript σ :=
  resume "" (showing "" s) (Text.byteLines input)

end EditLoop

end PairAnnotation
