/-
# SpecEngine.Runner.StandIn -- processes that stand in for runners

Four processes whose whole behaviour is known, so that runs over processes can be computed: one that
follows a script, one with prepared output for each request, one that echoes its input and one that
has ended already. The first two end when they are asked to. `launch` starts the process of a
program's name, and fails as the system does for other names.
-/

import SpecEngine.Disk
import SpecEngine.Runner.Command
import SpecEngine.Runner.Process
import SpecEngine.Runner.Script

namespace SpecEngine.Runner

/-- A piece of prepared output. -/
inductive Written where
  /-- A line, in which placeholders stand for parts of the request. -/
  | line (template : String)
  | bytes (bs : List UInt8)
  /-- The process ends. -/
  | ending
  deriving DecidableEq, Repr

/-- A process with known behaviour. -/
inductive StandIn where
  | ended
  | echo
  /-- Prepared output, a list for each request. -/
  | prepared (stream : Nat) (replies : List (List Written))
  /-- It keeps the envelopes it received, the latest first. -/
  | scripted (stream : Nat) (rehearsal : Rehearsal) (received : List Envelope) (living : Bool)

namespace StandIn

/-- A text with every occurrence of a placeholder replaced. -/
def replaceAll (placeholder value : String) (template : String) : String :=
  template.replace placeholder value

/-- The line for a template and the request it answers. -/
def fill (stream : Nat) (request : String) (template : String) : String :=
  let id := ((Envelope.ofLine request).map (·.id.toNat)).getD 0
  replaceAll "$ID" (Text.Decimal.text id) <|
  replaceAll "$NEXT" (Text.Decimal.text (id + 1)) <|
  replaceAll "$PREV" (Text.Decimal.text (id - 1)) <|
  replaceAll "$STREAM" (Text.Decimal.text stream) <|
  replaceAll "$REQUEST" request template

/-- The bytes of a line with its line break. -/
def lineBytes (line : String) : List UInt8 := Text.toUtf8 (line ++ "\n")

/-- The output for a request, and whether the process goes on after it. -/
def output (stream : Nat) (request : String) : List Written → List UInt8 × Bool
  | [] => ([], true)
  | .ending :: _ => ([], false)
  | .bytes bs :: rest =>
    let (more, goesOn) := output stream request rest
    (bs ++ more, goesOn)
  | .line template :: rest =>
    let (more, goesOn) := output stream request rest
    (lineBytes (fill stream request template) ++ more, goesOn)

/-- Whether a line asks a process to end. -/
def asksToEnd (line : String) : Bool :=
  match Envelope.ofLine line with
  | some ⟨_, .killRequest⟩ => true
  | _ => false

/-- What a scripted process writes for an envelope: nothing if its cue is an error. -/
def scriptedOutput (e : Envelope) (cue : Cue) : List UInt8 :=
  match cue.answer e.message with
  | .ok m => lineBytes (Envelope.line ⟨e.id, m⟩)
  | .error _ => []

/-- Whether a process lives. -/
def alive : StandIn → Bool
  | .ended => false
  | .echo | .prepared .. => true
  | .scripted _ _ _ living => living

/-- What a process writes when a line arrives. -/
def receive (p : StandIn) (line : String) : List UInt8 × StandIn :=
  match p with
  | .ended => ([], .ended)
  | .echo => (lineBytes line, .echo)
  | .prepared stream replies =>
    if asksToEnd line then ([], .ended)
    else match replies with
      | [] => ([], .prepared stream [])
      | items :: rest =>
        let (bytes, goesOn) := output stream line items
        (bytes, if goesOn then .prepared stream rest else .ended)
  | .scripted stream rehearsal received living =>
    match Envelope.ofLine line with
    | none => ([], p)
    | some e =>
      if e.message = .killRequest then ([], .scripted stream rehearsal (e :: received) false)
      else
        let (cue, rehearsal) := rehearsal.next e.message
        (scriptedOutput e (cue.getD {}), .scripted stream rehearsal (e :: received) living)

/-- The processes as peers. -/
def peer : Peer StandIn := ⟨alive, receive⟩

/-- The envelopes that a process received, with its stream. -/
def journal : StandIn → List (Nat × Envelope)
  | .scripted stream _ received _ => received.reverse.map fun e => (stream, e)
  | _ => []

end StandIn

/-! ## Starting -/

/-- Programs by name, each with the process that it starts for a stream. -/
abbrev Programs := List (String × (Nat → StandIn))

/-- The programs of the system whose processes are known. -/
def systemPrograms : Programs := [("cat", fun _ => .echo), ("true", fun _ => .ended)]

/-- The system's text about a file that may not be executed. -/
def notExecutableText : String := "Permission denied (os error 13)"

/-- Why a program does not start, if its name is not known. -/
def missingText (disk : Disk) (directory program : String) : String :=
  if program.toList.contains '/' then
    match disk.locate (Disk.join directory program) with
    | .error fault => fault.text
    | .ok place => if (disk.node? place).isSome then notExecutableText else DiskFault.notFound.text
  else DiskFault.notFound.text

/-- Why no process can be started in a directory. -/
def directoryFault? (disk : Disk) (directory : String) : Option DiskFault :=
  match disk.locate directory with
  | .error fault => some fault
  | .ok place =>
    match disk.node? place with
    | some .dir => none
    | some (.file _) => some .notDirectory
    | none => some .notFound

/-- Starts the process of a command. -/
def launch (programs : Programs) (disk : Disk) (command : Command) (stream : Nat) :
    Except ProtocolError StandIn :=
  let directory := command.directory.getD "."
  let fail (reason : String) : Except ProtocolError StandIn :=
    .error (.startup (command.program ++ ": " ++ reason))
  match directoryFault? disk directory with
  | some fault => fail fault.text
  | none =>
    match programs.lookup command.program with
    | some start => .ok (start stream)
    | none => fail (missingText disk directory command.program)

end SpecEngine.Runner
