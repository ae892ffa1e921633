/-
# SpecEngine.Runner.Script -- runners that follow a script

A script says how a runner behaves without executing anything, to rehearse a run. Cues are looked up
by a message's kind and what it is about, and the n-th use of an entry takes its n-th cue, the last
of which repeats. A message without a cue is answered as by a runner for which everything passes. A
scripted runner remembers every message that it heard alive.
-/

import SpecEngine.Runner.Behavior

namespace SpecEngine.Runner

/-- What a scripted runner does with a message. -/
structure Cue where
  /-- The round trip fails. -/
  error : Option ProtocolError := none
  reply : Option Message := none
  report : Option Report := none
  /-- The runner is dead from now on. -/
  dies : Bool := false
  /-- The task that serves the stream breaks down. -/
  breaks : Bool := false
  deriving Repr

/-- A runner's script: cues by step text, by announcement and by the text of a validated step. -/
structure Script where
  steps : List (String × List Cue) := []
  hooks : List (String × List Cue) := []
  validations : List (String × List Cue) := []
  startErrors : List (Nat × ProtocolError) := []
  killErrors : List (Nat × ProtocolError) := []
  deriving Repr

/-- What a message is about: a stream, a heading or a step. -/
def Message.detail? : Message → Option String
  | .executionStarting stream _ | .executionEnding stream => some (Text.Decimal.text stream.toNat)
  | .specStarting _ heading _ | .specEnding _ heading _
  | .scenarioStarting _ heading _ | .scenarioEnding _ heading _ => some heading
  | .stepStarting stepText | .stepEnding stepText => some stepText
  | .executeStep stepText _ | .validateRequest stepText => some stepText
  | .statusResponse _ | .validateResponse .. | .killRequest => none

/-- The entry for an announcement: the one for what it is about, else the one for its kind. -/
def Script.hookEntry? (script : Script) (m : Message) : Option (String × List Cue) :=
  let special := m.detail?.bind fun detail =>
    script.hooks.find? (·.1 == m.kind ++ "/" ++ detail)
  special.or (script.hooks.find? (·.1 == m.kind))

/-- The entry for a message. -/
def Script.entry? (script : Script) (m : Message) : Option (String × List Cue) :=
  match m with
  | .executeStep stepText _ => script.steps.find? (·.1 == stepText)
  | .validateRequest stepText => script.validations.find? (·.1 == stepText)
  | m => script.hookEntry? m

/-- The answer of a runner for which everything passes. -/
def passingAnswer : Message → Message
  | .validateRequest _ => .validateResponse true none none
  | _ => .statusResponse {}

/-- What a cue answers to a message. -/
def Cue.answer (cue : Cue) (m : Message) : Except ProtocolError Message :=
  match cue.error, cue.reply, cue.report with
  | some e, _, _ => .error e
  | none, some reply, _ => .ok reply
  | none, none, some report => .ok (.statusResponse report)
  | none, none, none => if cue.dies then .error .unreachable else .ok (passingAnswer m)

/-! ## Following a script -/

/-- A place in a script: the uses of its entries, each with the kind of message. -/
structure Rehearsal where
  script : Script
  uses : List (String × String) := []

/-- The cue for the next message, and the place after it. -/
def Rehearsal.next (r : Rehearsal) (m : Message) : Option Cue × Rehearsal :=
  match r.script.entry? m with
  | none => (none, r)
  | some (key, cues) =>
    let used := r.uses.count (m.kind, key)
    (cues[used]?.or cues.getLast?, { r with uses := (m.kind, key) :: r.uses })

/-- A scripted runner. -/
structure Scripted where
  stream : Nat
  rehearsal : Rehearsal
  alive : Bool := true
  /-- The messages heard, the latest first. -/
  heard : List Message := []
  /-- How many messages it was offered, alive or dead. -/
  offered : Nat := 0
  /-- The number of the message at which its task broke down. -/
  brokenAt : Option Nat := none

namespace Scripted

/-- The runner after a message that it heard, with the cue for it. -/
def follow (s : Scripted) (m : Message) (cue : Cue) : Except ProtocolError Message × Scripted :=
  if cue.breaks then (.error .unreachable, { s with alive := false, brokenAt := some s.offered })
  else (cue.answer m, { s with alive := s.alive && !cue.dies })

/-- Answers a message. -/
def answer (s : Scripted) (m : Message) : Except ProtocolError Message × Scripted :=
  let s := { s with offered := s.offered + 1 }
  if s.alive then
    let (cue, rehearsal) := s.rehearsal.next m
    { s with rehearsal := rehearsal, heard := m :: s.heard }.follow m (cue.getD {})
  else (.error .unreachable, s)

/-- Ends the runner. -/
def kill (s : Scripted) : Except ProtocolError Unit × Scripted :=
  (match s.rehearsal.script.killErrors.lookup s.stream with
    | some e => .error e
    | none => .ok (), { s with alive := false })

end Scripted

/-- Scripted runners, all with the same script. -/
def Script.fleet (script : Script) : Fleet Scripted where
  alive := Scripted.alive
  answer := Scripted.answer
  kill := Scripted.kill
  start := fun stream =>
    match script.startErrors.lookup stream with
    | some e => .error e
    | none => .ok { stream := stream, rehearsal := { script := script } }
  brokenAt := Scripted.brokenAt

end SpecEngine.Runner
