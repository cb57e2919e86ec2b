/-
# The program

What the program does on a disk: it reads its command line, carries out one command,
and leaves an exit code, text on its two outputs, and the disk.  It ends with 0 when
the command succeeded, with 1 when it failed, with 2 when the command line makes no
sense, and with 101 when there was no view to show.
-/

import PairAnnotation.CommandLine
import PairAnnotation.Config.File
import PairAnnotation.EditLoop
import PairAnnotation.LogFiles
import PairAnnotation.Project.Json
import PairAnnotation.Store.File

namespace PairAnnotation

/-- What the program is given: environment variables, its input, and the disk. -/
structure Surroundings where
  environment : String → Option String := fun _ => none
  input : List UInt8 := []
  disk : Disk := {}

/-- What the program leaves: exit code, what it has printed, and the disk. -/
structure Outcome where
  exitCode : Nat := 0
  output : String := ""
  /-- What goes to the other output, message by message. -/
  messages : List String := []
  disk : Disk

namespace Program

/-- A failure in the wording in which the program ends with it. -/
abbrev Failure : Type := String

/-- The program fails: it reports why, and it leaves the disk as it is by then. -/
def failed (e : Failure) (disk : Disk) : Outcome :=
  { exitCode := 1, messages := ["Error: " ++ e], disk }

/-- The configuration of a run, from the file that is named and from the environment. -/
def configuration (s : Surroundings) (path : Option String) : Except Failure Config :=
  (Config.ofRun s.disk (Overrides.ofEnvironment s.environment) path).mapError
    fun _ => "loading config " ++ path.getD ""

/-- A session on the document in a file, or the first reason why there is none: the configuration,
the file, or too few segments. -/
def openSession (s : Surroundings) (config : Option String) (document : String) :
    Except Failure (Session FileStore) := do
  let config ← configuration s config
  let store ← (FileStore.load s.disk document).mapError EditorError.message
  (Session.start store config).mapError EditorError.message

/-- The warnings of a session, each on a line of the other output. -/
def warnings {σ : Type} (s : Session σ) : List String := s.warnings.map ("warning: " ++ ·.message)

/-- What the program says when a line of its input is no text. -/
def notText : Failure := DiskError.notText.message

/-- The exit code of an edit session that ended in a certain way. -/
def exitCode : EditLoop.Ending → Nat
  | .over => 0
  | .notText => 1
  | .noView => 101

/-- Edit a document, a command a line.  The document is written where it was read, by the session
itself. -/
def edit (s : Surroundings) (config : Option String) (document : String) : Outcome :=
  match openSession s config document with
  | .error e => failed e s.disk
  | .ok session =>
    let transcript := EditLoop.run session s.input
    { exitCode := exitCode transcript.ending
      output := transcript.output
      messages := warnings session
        ++ if transcript.ending = .notText then ["Error: " ++ notText] else []
      disk := transcript.session.store.disk }

/-- Show the statistics of a document, as a table or as JSON. -/
def stats (s : Surroundings) (config : Option String) (document : String) (json : Bool) :
    Outcome :=
  match openSession s config document with
  | .error e => failed e s.disk
  | .ok session =>
    let view := session.statistics
    { output := if json then view.toJson.prettyText ++ "\n" else view.render
      disk := s.disk }

/-- Show how far a project is: a heading with the counts, and the completion table. -/
def monitor (s : Surroundings) (project : String) : Outcome :=
  match Project.load s.disk project with
  | .error e => failed e.message s.disk
  | .ok p =>
    let stats := p.stats
    { output := p.name ++ ": " ++ toString stats.totalDocuments ++ " documents, "
        ++ toString stats.finished ++ " finished, " ++ toString stats.inProgress
        ++ " in progress\n" ++ CompletionTable.render p.completionTable
      disk := s.disk }

/-- Write the default configuration to a new file; a file that is there already is left alone. -/
def initConfig (s : Surroundings) (path : String) : Outcome :=
  if s.disk.existsAt path then failed (path ++ " already exists") s.disk
  else
    match Config.save {} s.disk path with
    | .error e => failed e.message s.disk
    | .ok disk => { output := "Wrote default configuration to " ++ path ++ "\n", disk }

/-- What comes of a command line that starts no command.  Asking for help is no failure. -/
def refuse (e : UsageError) (disk : Disk) : Outcome :=
  match e with
  | .helpRequested => { output := CommandLine.usageText, disk }
  | .versionRequested => { output := CommandLine.versionText, disk }
  | _ => { exitCode := 2, disk }

/-- Carry out a command, once old log files have been removed. -/
def perform (s : Surroundings) (i : Invocation) : Outcome :=
  let s := { s with disk := (LogFiles.cleanUp i.logging s.disk).2 }
  match i.command with
  | .edit document => edit s i.config document
  | .stats document json => stats s i.config document json
  | .monitor project => monitor s project
  | .initConfig path => initConfig s path

/-- **The whole program**: the arguments are read, and a command is carried out or refused. -/
def run (arguments : List String) (s : Surroundings) : Outcome :=
  match CommandLine.parse arguments with
  | .error e => refuse e s.disk
  | .ok i => perform s i

end Program

end PairAnnotation
