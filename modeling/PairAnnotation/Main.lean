/-
# Running the program

The outer layer: it copies the files that a command line names into a `Disk`, runs
the program on that, and brings what has changed back to the real disk.  An edit
session is carried on line by line, and every line is only answered when the real
disk has taken the document; when it has not, the line is done again on a disk that
takes nothing.
-/

import PairAnnotation.Program

namespace PairAnnotation
namespace Main

/-- What stands under a name on the real disk, as far as the program looks at it. -/
inductive Found where
  | nothing
  | directory
  | file (content : FileContent)

/-- The code by which the system says that a file name is that of a directory. -/
def isDirectoryCode : UInt32 := 21

/-- What is found on the disk under a name: a file with its bytes, a directory, or nothing. -/
def find (name : String) : IO Found := do
  try
    let bytes ← IO.FS.readBinFile name
    pure <| match String.fromUTF8? bytes with
      | some text => .file (.text text)
      | none => .file .notText
  catch
    | .inappropriateType _ code _ =>
      pure (if code = isDirectoryCode then .directory else .nothing)
    | _ => pure .nothing

/-- A path as the system takes it, from the root or from the working directory. -/
def pathText (p : DiskPath) : String :=
  (if p.isAbsolute then "/" else "./") ++ "/".intercalate p.names

/-- A disk with what stands at some paths of the real one, so that a run can look at it. -/
def copyPaths (paths : List DiskPath) : IO Disk :=
  paths.foldlM (fun (d : Disk) p => do
    match ← find (pathText p) with
    | .nothing => pure d
    | .directory => pure { d with directories := d.directories ++ [p] }
    | .file content => pure { d with files := d.files ++ [(p, content)] }) {}

/-- A disk with what stands on the ways along some names. -/
def copy (names : List String) : IO Disk :=
  copyPaths (firstOccurrences ((names.flatMap DiskPath.stations).filter (!·.isBase)))

/-- Write the files that a disk holds otherwise than another one; answers what went wrong. -/
def writeChanges (old new : Disk) : IO (Option IO.Error) := do
  for (p, content) in new.files do
    if old.content? p ≠ some content then
      if let .text text := content then
        try IO.FS.writeFile (pathText p) text
        catch e => return some e
  return none

/-- The disk on which nothing can be written under a name. -/
def refusing (name : String) (d : Disk) : Disk :=
  { d with directories := DiskPath.ofText name :: d.directories }

/-- Answer one line of an edit session, with the real disk following. -/
def answer (document : String) (s : Session FileStore) (line : String) :
    IO (Turn FileStore) := do
  let turn := EditLoop.answer s line
  match ← writeChanges s.store.disk turn.session.store.disk with
  | none => pure turn
  | some _ =>
    let disk := s.store.disk
    let turn := EditLoop.answer { s with store := { s.store with disk := refusing document disk } }
      line
    let session := { turn.session with store := { turn.session.store with disk } }
    pure { turn with session }

/-- The edit loop; answers the exit code. -/
partial def loop (document : String) (s : Session FileStore) : IO UInt32 := do
  let input ← IO.getStdin
  let output ← IO.getStdout
  let read : Except IO.Error String ← try Except.ok <$> input.getLine catch e => pure (.error e)
  match read.map fun line => Text.byteLines line.toUTF8.toList with
  | .error _ =>
    IO.eprintln ("Error: " ++ Program.notText)
    pure 1
  | .ok [] => pure 0
  | .ok (bytes :: _) =>
    let turn ← answer document s ((Text.decode? bytes).getD "")
    output.putStr turn.output
    output.flush
    match turn.ending with
    | some ending => pure (UInt32.ofNat (Program.exitCode ending))
    | none => loop document turn.session

/-- An edit session: what it writes is shown as it goes, and the document is written as the session
writes it. -/
def edit (s : Surroundings) (config : Option String) (document : String) : IO UInt32 := do
  match Program.openSession s config document with
  | .error e =>
    IO.eprintln ("Error: " ++ e)
    pure 1
  | .ok session =>
    (Program.warnings session).forM IO.eprintln
    let turn := EditLoop.showing "" session
    IO.print turn.output
    (← IO.getStdout).flush
    match turn.ending with
    | some ending => pure (UInt32.ofNat (Program.exitCode ending))
    | none => loop document session

/-- Every other command: what it prints is shown, and what it writes is copied to the real disk. -/
def carryOut (s : Surroundings) (outcome : Outcome) : IO UInt32 := do
  match ← writeChanges s.disk outcome.disk with
  | some e =>
    IO.eprintln ("Error: " ++ (ConfigError.unwritable .notFound).summary ++ ": " ++ toString e)
    pure 1
  | none =>
    IO.print outcome.output
    outcome.messages.forM IO.eprintln
    pure (UInt32.ofNat outcome.exitCode)

/-- The file of a command, which is needed of the disk besides the configuration. -/
def fileOf : Command → String
  | .edit document | .stats document _ => document
  | .monitor project => project
  | .initConfig path => path

/-- The values of the environment variables that the program looks at. -/
def environment : IO (String → Option String) := do
  let names := ["RELATION_EDITOR_SENTENCE_LAYER", "RELATION_EDITOR_RELATION_LAYER",
    "RELATION_EDITOR_DUPLICATE_POLICY"]
  let values ← names.mapM fun name => do pure (name, ← IO.getEnv name)
  pure fun name => (values.lookup name).join

/-- Run the program on its arguments: what it needs of the disk is read, and what it leaves there is
written. -/
def run (arguments : List String) : IO UInt32 := do
  match CommandLine.parse arguments with
  | .error e =>
    let outcome := Program.refuse e {}
    IO.print outcome.output
    if outcome.exitCode ≠ 0 then IO.eprint CommandLine.usageText
    pure (UInt32.ofNat outcome.exitCode)
  | .ok i =>
    let disk ← copy (fileOf i.command :: i.config.toList)
    let s : Surroundings := { environment := ← environment, disk }
    match i.command with
    | .edit document => edit s i.config document
    | _ => carryOut s (Program.perform s i)

end Main
end PairAnnotation

/-- The program, started with its arguments; its result is the exit code. -/
def main (arguments : List String) : IO UInt32 := PairAnnotation.Main.run arguments
