/-
# SpecEngine.Record.Store -- the records on the disk

Both records are kept in one directory below the project root, which is made when it is missing, and
each is replaced as a whole. Reading tells a record that was never written from one that cannot be
accessed and from one that is damaged. A status record that is no text counts as damaged, a
directory in its place too; a failures record that is no text cannot be accessed.
-/

import SpecEngine.Disk
import SpecEngine.Record.Failures
import SpecEngine.Record.Status

namespace SpecEngine.Record

/-- Why a record is not written or read. -/
inductive StoreFault where
  | access (path : String) (cause : DiskFault)
  | damaged (path : String)
  deriving DecidableEq, Repr

/-- The text of a fault, where it is not that of a JSON reader. -/
def StoreFault.text? : StoreFault → Option String
  | .access path cause => some ("failed to access " ++ path ++ ": " ++ cause.text)
  | .damaged _ => none

/-- The directory of the records. -/
def stateDirectory (projectRoot : String) : String := Disk.join projectRoot ".steprun"

/-- The path of the status record. -/
def statusPath (projectRoot : String) : String :=
  Disk.join (stateDirectory projectRoot) "executionStatus.json"

/-- The path of the failures record. -/
def failuresPath (projectRoot : String) : String :=
  Disk.join (stateDirectory projectRoot) "failures.json"

/-- Writes a file into the directory of the records; `blamed` is the path named when the directory
cannot be made. -/
def writeRecord (disk : Disk) (projectRoot path blamed text : String) : Except StoreFault Disk := do
  let made ← (disk.createDirs (stateDirectory projectRoot)).mapError (.access blamed)
  (made.write path text).mapError (.access path)

/-- Writes the status record. -/
def Status.write (status : Status) (disk : Disk) (projectRoot : String) : Except StoreFault Disk :=
  writeRecord disk projectRoot (statusPath projectRoot) (statusPath projectRoot) status.fileText

/-- Writes the failures record. -/
def Failures.write (failures : Failures) (disk : Disk) (projectRoot : String) :
    Except StoreFault Disk :=
  writeRecord disk projectRoot (failuresPath projectRoot) (stateDirectory projectRoot)
    failures.fileText

/-- Reads the status record; nothing if none was written. -/
def Status.read (disk : Disk) (projectRoot : String) : Except StoreFault (Option Status) :=
  let path := statusPath projectRoot
  match disk.readText path with
  | .error .notFound => .ok none
  | .error .isDirectory | .error .notText => .error (.damaged path)
  | .error cause => .error (.access path cause)
  | .ok text =>
    match Status.ofFileText text with
    | some status => .ok (some status)
    | none => .error (.damaged path)

/-- Reads the failures record; an empty one if none was written. -/
def Failures.read (disk : Disk) (projectRoot : String) : Except StoreFault Failures :=
  let path := failuresPath projectRoot
  match disk.readText path with
  | .error .notFound => .ok {}
  | .error cause => .error (.access path cause)
  | .ok text =>
    match Failures.ofFileText text with
    | some failures => .ok failures
    | none => .error (.damaged path)

/-- Writes both records of a run; the disk comes with a fault that stopped this. -/
def writeRun (disk : Disk) (projectRoot : String) (result : Result.SuiteResult) :
    Disk × Option StoreFault :=
  match (Status.ofSuite result).write disk projectRoot with
  | .error fault => (disk, some fault)
  | .ok disk =>
    match (Failures.ofSuite result).write disk projectRoot with
    | .error fault => (disk, some fault)
    | .ok disk => (disk, none)

end SpecEngine.Record
