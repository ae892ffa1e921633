/-
# SpecEngine.Disk -- the project directory as a value

The directory tree that a run reads and writes is a value: named files and directories below one top
directory. Paths are texts as the system takes them, resolved one component at a time, so that a
path through a file, to a directory or to nothing fails for the cause that the system gives. Nothing
is known of what lies outside the top directory except that it exists. The invariant that every
parent of an entry is a directory is kept by `put` and `makeDirs`, the only operations that add
entries.
-/

import SpecEngine.Text.Basic

namespace SpecEngine

/-- Why an access to the disk fails. -/
inductive DiskFault where
  | notFound | exists | notDirectory | isDirectory | nameTooLong
  /-- The path holds a zero character. -/
  | zeroInPath
  /-- The bytes are no text. -/
  | notText
  deriving DecidableEq, Repr

/-- The system's text for a fault. -/
def DiskFault.text : DiskFault → String
  | .notFound => "No such file or directory (os error 2)"
  | .exists => "File exists (os error 17)"
  | .notDirectory => "Not a directory (os error 20)"
  | .isDirectory => "Is a directory (os error 21)"
  | .nameTooLong => "File name too long (os error 36)"
  | .zeroInPath => "file name contained an unexpected NUL byte"
  | .notText => "stream did not contain valid UTF-8"

/-- A file with its bytes, or a directory. -/
inductive Node where
  | file (bytes : ByteArray)
  | dir

/-- A place below the top directory: the names on the way to it. A way that begins by leaving the
top directory leads outside. -/
abbrev Place := List String

/-- The tree below a top directory. -/
structure Disk where
  /-- The name under which programs know the top directory. -/
  root : String
  entries : List (Place × Node) := []

namespace Disk

/-- What is at a place. -/
def node? (d : Disk) (place : Place) : Option Node :=
  if place.all (· == "..") then some .dir
  else (d.entries.find? (·.1 == place)).map (·.2)

/-- The place one component further on. -/
def enter (d : Disk) (place : Place) (name : String) : Except DiskFault Place :=
  match d.node? place with
  | none => .error .notFound
  | some (.file _) => .error .notDirectory
  | some .dir =>
    if name = "." || name.isEmpty then .ok place
    else if name = ".." then
      .ok (if place.all (· == "..") then ".." :: place else place.dropLast)
    else if name.utf8ByteSize > 255 then .error .nameTooLong
    else .ok (place ++ [name])

/-- The names of a path below the top directory, or outside it. -/
def names (d : Disk) (path : String) : List String :=
  if path = d.root then []
  else if path.startsWith (d.root ++ "/") then
    Text.fields '/' (String.ofList (path.toList.drop (d.root.length + 1)))
  else if path.startsWith "/" then ".." :: Text.fields '/' path
  else Text.fields '/' path

/-- The place that a path leads to, whether or not anything is there. -/
def locate (d : Disk) (path : String) : Except DiskFault Place :=
  if path.toList.contains '\x00' then .error .zeroInPath
  else if path.isEmpty then .error .notFound
  else if path.utf8ByteSize > 4095 then .error .nameTooLong
  else (d.names path).foldlM d.enter []

/-- The bytes of a file. -/
def readBytes (d : Disk) (path : String) : Except DiskFault ByteArray := do
  match d.node? (← d.locate path) with
  | none => .error .notFound
  | some .dir => .error .isDirectory
  | some (.file bytes) => .ok bytes

/-- The text of a file. -/
def readText (d : Disk) (path : String) : Except DiskFault String := do
  match String.fromUTF8? (← d.readBytes path) with
  | some s => .ok s
  | none => .error .notText

/-- Whether a path leads to a file. -/
def isFile (d : Disk) (path : String) : Bool :=
  match d.readBytes path with
  | .ok _ => true
  | .error _ => false

/-- The disk with a node at a place, instead of what was there. -/
def put (d : Disk) (place : Place) (node : Node) : Disk :=
  { d with entries := (place, node) :: d.entries.filter fun e => e.1 != place }

/-- The disk without what is at a place or below it. -/
def remove (d : Disk) (place : Place) : Disk :=
  { d with entries := d.entries.filter fun e => !place.isPrefixOf e.1 }

/-- Makes the directories from a place down a list of names. -/
def makeDirs (d : Disk) (place : Place) : List String → Except DiskFault Disk
  | [] => .ok d
  | name :: rest => do
    let place ← d.enter place name
    match d.node? place with
    | some .dir => d.makeDirs place rest
    | none => (d.put place .dir).makeDirs place rest
    | some (.file _) => .error (if rest.isEmpty then .exists else .notDirectory)

/-- Makes a directory with all its parents, if it is not there. -/
def createDirs (d : Disk) (path : String) : Except DiskFault Disk := d.makeDirs [] (d.names path)

/-- Replaces the content of a file, which need not exist; its directory has to. -/
def write (d : Disk) (path : String) (text : String) : Except DiskFault Disk := do
  let place ← d.locate path
  match d.node? place with
  | some .dir => .error .isDirectory
  | _ => .ok (d.put place (.file text.toUTF8))

/-- The path of a name in a directory. -/
def join (dir name : String) : String :=
  if name.startsWith "/" then name
  else if dir.isEmpty || dir.endsWith "/" then dir ++ name
  else dir ++ "/" ++ name

/-- Lays out a node at a path, with all the directories above it. -/
def layOut (d : Disk) (path : String) (node : Node) : Disk :=
  let names := (d.names path).filter fun name => !name.isEmpty && name != "."
  let made := match d.makeDirs [] names.dropLast with
    | .ok made => made
    | .error _ => d
  match names.getLast?, names.dropLast.foldlM made.enter [] with
  | some name, .ok place => made.put (place ++ [name]) node
  | _, _ => made

end Disk

end SpecEngine
