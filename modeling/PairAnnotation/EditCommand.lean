/-
# Commands of the edit loop

One line of input is one command: a word, and for some commands a tag name after it.
The words of a tag name are joined by single blanks.
-/

import PairAnnotation.Session.Basic
import PairAnnotation.Text.Blank

namespace PairAnnotation

/-- A line of input as a command, with the tag name if it needs one. -/
inductive EditCommand where
  | pair (move : PairMove)
  | segment (side : Side) (direction : Direction)
  | relation (direction : RelationDirection) (tagName : String)
  | filter (tagName : Option String)
  | stats
  | help
  | quit
  deriving DecidableEq, Repr

/-- Why a line is no command: it has no words, the first one is no command, or a tag name is
missing. -/
inductive CommandError where
  | empty
  | tagMissing (command : String)
  | unknown (command : String)
  deriving DecidableEq, Repr

/-- The wording of a refused line, as the annotator reads it. -/
def CommandError.message : CommandError → String
  | .empty => "empty command"
  | .tagMissing command => "'" ++ command ++ "' needs a tag name"
  | .unknown command => "unknown command '" ++ command ++ "', type h for help"

namespace EditCommand

/-- The tag name that some words form, with single blanks between them, however they were spaced. -/
def tagName? (words : List String) : Option String :=
  if words.isEmpty then none else some (" ".intercalate words)

/-- A label for the edge in a direction, which needs a tag name. -/
def labelling (command : String) (direction : RelationDirection) (words : List String) :
    Except CommandError EditCommand :=
  match tagName? words with
  | some name => .ok (.relation direction name)
  | none => .error (.tagMissing command)

/-- **The command of a line.**  The first word tells which it is; commands without a tag name ignore
the words behind it. -/
def parse (line : String) : Except CommandError EditCommand :=
  match Text.words line with
  | [] => .error .empty
  | head :: rest =>
    match head with
    | "n" => .ok (.pair .next)
    | "p" => .ok (.pair .previous)
    | "i" => .ok (.pair .nextIncomplete)
    | "ln" => .ok (.segment .left .next)
    | "lp" => .ok (.segment .left .previous)
    | "rn" => .ok (.segment .right .next)
    | "rp" => .ok (.segment .right .previous)
    | "l" => labelling head .rightToLeft rest
    | "r" => labelling head .leftToRight rest
    | "f" => .ok (.filter (tagName? rest))
    | "s" => .ok .stats
    | "h" | "?" | "help" => .ok .help
    | "q" | "quit" => .ok .quit
    | other => .error (.unknown other)

/-- The table of commands, one on a line, as it is shown when help is asked for. -/
def helpText : String :=
  "n / p        next / previous pair\n" ++
  "i            next incomplete pair\n" ++
  "ln / lp      next / previous left segment\n" ++
  "rn / rp      next / previous right segment\n" ++
  "l <tag>      set the relation pointing at the left segment\n" ++
  "r <tag>      set the relation pointing at the right segment\n" ++
  "f [tag]      filter pairs by tag, or clear the filter\n" ++
  "s            tag statistics\n" ++
  "q            quit"

end EditCommand

end PairAnnotation
