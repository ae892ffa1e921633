/-
# SpecEngine.Main -- the program

The outermost layer: it reads the files that the command names into a disk value, takes the
variables from the environment, carries the command out, and then prints the lines, stores the
records that changed and gives the exit code. It decides nothing. What it does not do is start
programs: every runner fails to start, so that `run` and `validate` end where they need their first
runner, while `status` and `env` are complete.
-/

import SpecEngine.CommandLine.Run

namespace SpecEngine

open CommandLine (Invocation)

/-- The disk with the content of a file, if the file can be read. -/
def readInto (disk : Disk) (path : String) : IO Disk := do
  match ← (IO.FS.readBinFile path).toBaseIO with
  | .ok bytes => return disk.layOut path (.file bytes)
  | .error _ => return disk

/-- The files of a command line as a disk whose top directory is the current one. -/
def readDisk (args : List String) : IO Disk := do
  match Invocation.parse args with
  | .error _ => return { root := "." }
  | .ok invocation => invocation.command.files.foldlM readInto { root := "." }

/-- The variables of the environment that the program knows. -/
def readEnvironment : IO Config.Lookup := do
  let values ← Config.variableNames.mapM fun name => do
    return (name, ← IO.getEnv (Config.variableStart ++ name))
  return fun name => (values.lookup name).join

/-- A fleet none of whose runners starts. -/
def emptyFleet : Runner.Fleet Empty where
  alive := nofun
  answer := nofun
  kill := nofun
  start _ := .error (.startup "programs are not started here")

/-- Stores a file that changed, in a directory that is made when it is missing. -/
def store (before after : Disk) (directory path : String) : IO Unit := do
  match after.readBytes path with
  | .error _ => return
  | .ok bytes =>
    if (before.readBytes path).toOption.map ByteArray.toList = some bytes.toList then return
    IO.FS.createDirAll directory
    IO.FS.writeBinFile path bytes

/-- Stores the records below a project root that changed. -/
def storeRecords (before after : Disk) (root : String) : IO Unit := do
  store before after (Record.stateDirectory root) (Record.statusPath root)
  store before after (Record.stateDirectory root) (Record.failuresPath root)

/-- What is said about a command that stopped. -/
def complaint (stop : CommandLine.Stop) : Option String :=
  match stop with
  | .usage fault => if fault.exitCode = 0 then none else some fault.name
  | .overflow => some "the failure counters on record overflow"
  | .brokenDown => some "the run broke down"
  | _ => some (stop.text?.getD "the record is damaged")

end SpecEngine

open SpecEngine in
/-- Runs the program. -/
def main (args : List String) : IO UInt32 := do
  let disk ← readDisk args
  let environment ← readEnvironment
  let world : CommandLine.World Empty :=
    { disk := disk, environment := environment, runners := fun _ _ => emptyFleet }
  let ending := CommandLine.carryOut world args
  for text in ending.printed do IO.println text
  match CommandLine.Invocation.parse args with
  | .ok invocation => invocation.command.projectRoot?.toList.forM (storeRecords disk ending.disk)
  | .error _ => pure ()
  match ending.verdict with
  | .error stop => (complaint stop).toList.forM fun text => IO.eprintln ("Error: " ++ text)
  | .ok _ => pure ()
  return ending.exitCode.toUInt32
