/-
# The command line

A command line names one of four commands with its file, and options that may stand
before or after the command.  An option takes the next argument or what follows an
equals sign; after `--` everything is a file name.  Arguments are read from the left,
and an option is only complete, and only checked, when the next one begins or the
arguments of its command end.  Of an option that is given before and after the
command the second one counts.
-/

import PairAnnotation.LogFiles

namespace PairAnnotation

/-- What the program is to do: one of four commands, with the file that it is about. -/
inductive Command where
  | edit (document : String)
  | stats (document : String) (json : Bool)
  | monitor (project : String)
  | initConfig (path : String)
  deriving DecidableEq, Repr, Inhabited

/-- A command line that makes sense: the command, and what the options say about configuration and
log. -/
structure Invocation where
  config : Option String
  logging : Logging
  command : Command
  deriving DecidableEq, Repr, Inhabited

/-- Why a command line starts no command.  Asking for help or for the version is one of the reasons,
though not a mistake. -/
inductive UsageError where
  | helpRequested
  | versionRequested
  /-- There is not a single argument. -/
  | nothingGiven
  /-- There are options and no command. -/
  | commandMissing
  | fileMissing
  | unknownCommand
  | unknownArgument
  /-- An option has no value, or a file has an empty name. -/
  | invalidValue
  | repeatedOption
  /-- A flag has a value. -/
  | unexpectedValue
  deriving DecidableEq, Repr, Inhabited

namespace CommandLine

/-- What the program is called, and its version, on the line that the option for it prints. -/
def versionText : String := "relation-editor 0.3.0\n"

/-- How the program is used, as it is printed when help is asked for, whatever it is asked about. -/
def usageText : String :=
  "Annotate relations between pairs of text segments\n\n" ++
  "Usage: relation-editor [OPTIONS] <COMMAND>\n\n" ++
  "Commands:\n" ++
  "  edit         Interactive editing session over a JSON document\n" ++
  "  stats        Print progress and per-tag counts\n" ++
  "  monitor      Print which users finished each document of a project\n" ++
  "  init-config  Write the default configuration\n" ++
  "  help         Print this message or the help of the given subcommand(s)\n\n" ++
  "Options:\n" ++
  "      --config <CONFIG>        TOML configuration file\n" ++
  "      --log-level <LOG_LEVEL>  [default: warn]\n" ++
  "      --log-dir <LOG_DIR>      Also write daily log files to this directory\n" ++
  "  -h, --help                   Print help\n" ++
  "  -V, --version                Print version\n"

/-- What takes a value: one of the three options, or the file of the command. -/
inductive Slot where
  | config
  | logLevel
  | logDirectory
  | file
  deriving DecidableEq, Repr

/-- Whether the value is a file name, which must not be empty. -/
def Slot.isPath (s : Slot) : Bool := s ≠ .logLevel

/-- The option of a name; all other names are flags or mistakes. -/
def Slot.ofOption? : String → Option Slot
  | "config" => some .config
  | "log-level" => some .logLevel
  | "log-dir" => some .logDirectory
  | _ => none

/-- The four commands, without their files, as the first word that is no option names them. -/
inductive CommandName where
  | edit
  | stats
  | monitor
  | initConfig
  deriving DecidableEq, Repr

/-- The subcommand that a word names; every other word in its place is an error. -/
def CommandName.ofText? : String → Option CommandName
  | "edit" => some .edit
  | "stats" => some .stats
  | "monitor" => some .monitor
  | "init-config" => some .initConfig
  | _ => none

/-- An argument by its form alone, before it is known whether an option waits for it. -/
inductive Token where
  /-- Two hyphens alone. -/
  | separator
  /-- A name after two hyphens, and what follows an equals sign. -/
  | long (name : String) (value : Option String)
  /-- What follows one hyphen. -/
  | short (first : Char)
  | word
  deriving DecidableEq, Repr

/-- What an argument is taken for: options begin with dashes, and everything else is a value or a
subcommand. -/
def Token.ofText (text : String) : Token :=
  match text.toList with
  | ['-', '-'] => .separator
  | '-' :: '-' :: rest =>
    let name := String.ofList (rest.takeWhile (· ≠ '='))
    match rest.dropWhile (· ≠ '=') with
    | [] => .long name none
    | _ :: value => .long name (some (String.ofList value))
  | '-' :: c :: _ => .short c
  | _ => .word

/-- Which flags are known where: before the command, after it, or after the command that knows
one more flag. -/
inductive Scope where
  | before
  | after
  | afterStats
  deriving DecidableEq, Repr

/-- What was read so far on one side of the command. -/
structure Level where
  scope : Scope
  values : List (Slot × String) := []
  json : Bool := false
  /-- What was begun last; an option may still wait for its value. -/
  pending : Option (Slot × Option String) := none
  /-- Whether `--` was read. -/
  onlyWords : Bool := false
  deriving DecidableEq, Repr

namespace Level

/-- Enter the value of a slot, which takes one value at most; a path must not be empty. -/
def enter (l : Level) (slot : Slot) (value : String) : Except UsageError Level :=
  if (l.values.lookup slot).isSome then .error .repeatedOption
  else if slot.isPath && value == "" then .error .invalidValue
  else .ok { l with values := l.values ++ [(slot, value)] }

/-- Complete what was begun last: enter its value, or report that none has come. -/
def complete (l : Level) : Except UsageError Level :=
  match l.pending with
  | none => .ok l
  | some (_, none) => .error .invalidValue
  | some (slot, some value) => { l with pending := none }.enter slot value

/-- A flag without value: the two that ask for something end the reading, and the one left is
kept. -/
def flag (l : Level) (name : String) : Except UsageError Level := do
  let l ← l.complete
  if name = "help" then .error .helpRequested
  else if name = "version" then .error .versionRequested
  else if l.json then .error .repeatedOption
  else .ok { l with json := true }

/-- Whether there is a flag of this name here, since not every flag is known before and after every
command. -/
def hasFlag (l : Level) (name : String) : Bool :=
  name == "help" || (name == "version" && l.scope == .before)
    || (name == "json" && l.scope == .afterStats)

/-- A name after two hyphens: an option with its value or waiting for it, or a flag, which takes no
value. -/
def long (l : Level) (name : String) (value : Option String) : Except UsageError Level :=
  match Slot.ofOption? name, value with
  | some slot, some value => do (← l.complete).enter slot value
  | some slot, none => do
    let l ← l.complete
    .ok { l with pending := some (slot, none) }
  | none, value =>
    if !l.hasFlag name then .error .unknownArgument
    else if value.isSome then .error .unexpectedValue
    else l.flag name

/-- A letter after one hyphen: the short forms of two flags, and no option has one. -/
def short (l : Level) (c : Char) : Except UsageError Level :=
  if c = 'h' then l.flag "help"
  else if c = 'V' && l.scope == .before then l.flag "version"
  else .error .unknownArgument

/-- The option that waits for its value, unless only words are left. -/
def waiting? (l : Level) : Option Slot :=
  if l.onlyWords then none
  else
    match l.pending with
    | some (slot, none) => some slot
    | _ => none

/-- Whether the file of the command was read, be it entered already or not. -/
def hasFile (l : Level) : Bool :=
  (l.values.lookup .file).isSome || l.pending.any (·.1 == .file)

/-- A word that is no value of an option: the file of the command. -/
def file (l : Level) (word : String) : Except UsageError Level :=
  if l.hasFile then .error .unknownArgument
  else do
    let l ← l.complete
    .ok { l with pending := some (.file, some word) }

/-- One argument: an option, a flag, the value that an option waits for, or a word, which is left to
`word`. -/
def read (l : Level) (word : Level → Except UsageError Level) (argument : String) :
    Except UsageError Level :=
  if l.onlyWords then word l
  else
    match Token.ofText argument with
    | .separator => .ok { l with onlyWords := true }
    | .long name value => l.long name value
    | .short c => l.short c
    | .word =>
      match l.waiting? with
      | some slot => .ok { l with pending := some (slot, some argument) }
      | none => word l

end Level

/-- The arguments after a command, which must name a file among them. -/
def readAfter (l : Level) (arguments : List String) : Except UsageError Level := do
  let l ← arguments.foldlM (fun l argument => l.read (·.file argument) argument) l
  let l ← l.complete
  if (l.values.lookup .file).isNone then .error .fileMissing else .ok l

/-- Whether there is a command of this name, help on commands included. -/
def isCommand (word : String) : Bool := (CommandName.ofText? word).isSome || word == "help"

/-- Help on a command, or on all of them; asking for help on what is no command is a mistake. -/
def help : List String → UsageError
  | [] => .helpRequested
  | [word] => if isCommand word then .helpRequested else .unknownCommand
  | _ => .unknownCommand

/-- The arguments from the first one: the level before the command, and the command with the level
after it. -/
def readBefore (l : Level) : List String → Except UsageError (Level × CommandName × Level)
  | [] => do
    let l ← l.complete
    .error (if l.values.isEmpty then .nothingGiven else .commandMissing)
  | argument :: rest =>
    let isName := !l.onlyWords && l.waiting?.isNone
    match CommandName.ofText? argument with
    | some name =>
      if isName then do
        let after ← readAfter { scope := if name = .stats then .afterStats else .after } rest
        .ok (← l.complete, name, after)
      else do
        readBefore (← l.read (fun _ => .error .unknownArgument) argument) rest
    | none =>
      if isName && argument == "help" then .error (help rest)
      else do
        let refusal := if argument = "help" then UsageError.unknownArgument else .unknownCommand
        readBefore (← l.read (fun _ => .error refusal) argument) rest

/-- The command of a name and a file.  Only the statistics care whether JSON was asked for. -/
def CommandName.command (name : CommandName) (file : String) (json : Bool) : Command :=
  match name with
  | .edit => .edit file
  | .stats => .stats file json
  | .monitor => .monitor file
  | .initConfig => .initConfig file

/-- **What a command line asks for.**  An option may stand before the command or after it, and the
one after it counts. -/
def parse (arguments : List String) : Except UsageError Invocation := do
  let (before, name, after) ← readBefore { scope := .before } arguments
  let value (slot : Slot) := (after.values.lookup slot).or (before.values.lookup slot)
  let logging : Logging := {}
  .ok
    { config := value .config
      logging :=
        { logging with
          level := (value .logLevel).getD logging.level
          directory := (value .logDirectory).getD logging.directory
          toFiles := (value .logDirectory).isSome }
      command := name.command ((after.values.lookup .file).getD "") after.json }

end CommandLine

end PairAnnotation
