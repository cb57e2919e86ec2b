/-
# Old log files

Of the entries of a log directory whose names say that they are logs, the newest
ones are kept and the others removed.  A directory among them takes a place but is
never removed.
-/

import PairAnnotation.Disk
import PairAnnotation.Text.LowerCase

namespace PairAnnotation

/-- Where log messages go, and how many of the files are kept. -/
structure Logging where
  level : String := "warn"
  directory : String := "logs"
  toFiles : Bool := false
  asJson : Bool := false
  /-- How many log files are kept. -/
  keptFiles : Nat := 10
  deriving DecidableEq, Repr, Inhabited

namespace Disk

/-- The files and directories in a directory by path, the oldest first: files in the order in which
they were written, and after them the directories. -/
def entriesOf (d : Disk) (directory : DiskPath) : List DiskPath :=
  (d.files.map (·.1) ++ d.directories).filter fun p => p.parent = directory ∧ p.names ≠ []

end Disk

namespace LogFiles

/-- Whether a file name says that the file is a log. -/
def isLog (p : DiskPath) : Bool :=
  (p.names.getLast?.map fun name => Text.occursIn ".log".toList name.toList).getD false

/-- The entries beyond the newest `kept` ones, among those whose names say that they are logs. -/
def stale (kept : Nat) (d : Disk) (directory : DiskPath) : List DiskPath :=
  (((d.entriesOf directory).filter isLog).reverse).drop kept

/-- **Remove old log files** if log messages go to files and their directory is there; answers how
many were removed. -/
def cleanUp (logging : Logging) (d : Disk) : Nat × Disk :=
  match d.locate logging.directory with
  | .error _ => (0, d)
  | .ok directory =>
    if logging.toFiles && d.isDirectory directory then
      let gone := (stale logging.keptFiles d directory).filter fun p => (d.content? p).isSome
      (gone.length, d.removeFiles gone)
    else (0, d)

end LogFiles

end PairAnnotation
