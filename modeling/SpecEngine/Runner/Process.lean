/-
# SpecEngine.Runner.Process -- runners that are processes

A process is spoken to through two pipes, one line for each envelope. Requests are numbered from one
and an answer carries the number of its request, so that answers to requests that were given up are
recognised: lines with smaller numbers and blank lines are passed over. A line with a greater
number, one that is no envelope and one that is no text end the round trip, and are gone. If nothing
is left to read, a living process has let the time run out, and a dead one cannot be reached.

The process is known by what it writes when a line arrives. What it writes late, after a round trip
was given up, is the same to the reader as what it writes in front of its next output.
-/

import SpecEngine.Runner.Behavior
import SpecEngine.Text.Utf8

namespace SpecEngine.Runner

variable {π : Type}

/-- What a process does. -/
structure Peer (π : Type) where
  alive : π → Bool
  /-- What it writes when a line arrives. -/
  receive : π → String → List UInt8 × π

/-! ## What is left to read -/

/-- What a process wrote and nobody read: complete lines with their line breaks, and a beginning. -/
structure Inbox where
  lines : List (List UInt8) := []
  beginning : List UInt8 := []
  deriving DecidableEq, Repr

/-- Cuts bytes after their line breaks. -/
def cutLines : List UInt8 → List (List UInt8) × List UInt8
  | [] => ([], [])
  | b :: rest =>
    let (lines, beginning) := cutLines rest
    if b = 10 then ([b] :: lines, beginning)
    else match lines with
      | [] => ([], b :: beginning)
      | line :: lines => ((b :: line) :: lines, beginning)

namespace Inbox

/-- Adds what was written. -/
def append (inbox : Inbox) (bytes : List UInt8) : Inbox :=
  let (lines, beginning) := cutLines (inbox.beginning ++ bytes)
  ⟨inbox.lines ++ lines, beginning⟩

/-- Ends the output: a beginning counts as a line. -/
def finish (inbox : Inbox) : Inbox :=
  if inbox.beginning.isEmpty then inbox else ⟨inbox.lines ++ [inbox.beginning], []⟩

end Inbox

/-! ## Answers -/

/-- The text about a line that is no envelope. -/
def noEnvelopeText : String := "line is no message"

/-- What a line means for the request of a number; nothing if it is passed over. -/
def lineAnswer? (id : UInt64) (line : List UInt8) : Option (Except ProtocolError Message) :=
  match Text.ofUtf8 line with
  | .error fault => some (.error (.io fault.message))
  | .ok s =>
    let s := Text.trim s
    if s.isEmpty then none
    else match Envelope.ofLine s with
      | none => some (.error (.malformed noEnvelopeText))
      | some e =>
        if e.id < id then none
        else if e.id = id then some (.ok e.message)
        else some (.error (.malformed ("response id " ++ Text.Decimal.text e.id.toNat ++
          " does not match request " ++ Text.Decimal.text id.toNat)))

/-- The answer to the request of a number, if the lines hold one, and the lines after it. -/
def findAnswer (id : UInt64) :
    List (List UInt8) → Option (Except ProtocolError Message) × List (List UInt8)
  | [] => (none, [])
  | line :: rest =>
    match lineAnswer? id line with
    | some answer => (some answer, rest)
    | none => findAnswer id rest

/-! ## Connections -/

/-- A connection to a process. -/
structure Connection (π : Type) where
  process : π
  timeoutMs : Nat
  inbox : Inbox := {}
  nextId : UInt64 := 1
  /-- The process was told to end, and ended. -/
  killed : Bool := false

namespace Connection

/-- Whether the process lives. -/
def alive (peer : Peer π) (c : Connection π) : Bool := !c.killed && peer.alive c.process

/-- Writes a message as the next request. -/
def send (peer : Peer π) (c : Connection π) (m : Message) : Connection π :=
  let (written, process) := peer.receive c.process (Envelope.line ⟨c.nextId, m⟩)
  let inbox := c.inbox.append written
  { c with
    process := process
    inbox := if peer.alive process then inbox else inbox.finish
    nextId := c.nextId + 1 }

/-- Makes a round trip. -/
def answer (peer : Peer π) (c : Connection π) (m : Message) :
    Except ProtocolError Message × Connection π :=
  if c.alive peer then
    let sent := c.send peer m
    let (answer?, lines) := findAnswer c.nextId sent.inbox.lines
    let after := { sent with inbox := { sent.inbox with lines := lines } }
    match answer? with
    | some answer => (answer, after)
    | none => (.error (if after.alive peer then .timeout c.timeoutMs else .unreachable), after)
  else (.error .unreachable, c)

/-- Asks a living process to end, and ends it. -/
def kill (peer : Peer π) (c : Connection π) : Except ProtocolError Unit × Connection π :=
  (.ok (), if c.alive peer then { c.send peer .killRequest with killed := true } else c)

end Connection

/-- Processes as runners. -/
def Peer.behavior (peer : Peer π) : Behavior (Connection π) where
  alive := Connection.alive peer
  answer := Connection.answer peer
  kill := Connection.kill peer

/-- Runners that are processes; `launch` starts the one of a stream. -/
def Peer.fleet (peer : Peer π) (timeoutMs : Nat) (launch : Nat → Except ProtocolError π) :
    Fleet (Connection π) :=
  { peer.behavior with
    start := fun stream => (launch stream).map fun process =>
      { process := process, timeoutMs := timeoutMs } }

end SpecEngine.Runner
