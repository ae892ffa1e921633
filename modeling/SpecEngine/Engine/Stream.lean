/-
# SpecEngine.Engine.Stream -- the life of a stream

A stream starts its runner, tells it that the execution starts, runs the specifications it takes one
after the other, tells the runner that the execution ends, if it still lives, and kills it. When the
opening announcement fails the stream takes no specification and there is no closing one; the runner
is killed all the same. Specifications that were assigned to a stream which cannot run any are
skipped for the reason of its failure.

A `Worker` is a stream between its opening and its closing. What it leaves behind is a `StreamRun`:
an outcome, unless the stream's task broke down, and all that happened.
-/

import SpecEngine.Engine.Spec
import SpecEngine.Result.Merge
import SpecEngine.Runner.Behavior

namespace SpecEngine.Engine

open Item (Specification)
open Result (SpecResult Failure StreamOutcome)
open Runner (Behavior Fleet Message ProtocolError)
open Event (Announcement)

variable {σ : Type}

/-- A specification with its position in the collection. -/
abbrev Placed := Nat × Specification

/-! ## Opening -/

/-- A stream with a runner, between opening and closing. -/
structure Worker (σ : Type) where
  session : Session σ
  /-- The failure of the opening announcement. -/
  refusal : Option Failure := none
  /-- Results with the positions of their specifications. -/
  results : List (Nat × SpecResult) := []

/-- Tells the runner that the execution starts. -/
def openWorker (b : Behavior σ) (plan : Plan) (stream : Nat) (runner : σ) : Worker σ :=
  let (answer, session) :=
    offer b (.executionStarting (.ofNat stream) plan.args) { stream := stream, runner := runner }
  let before := Runner.reportOf answer
  { session := session
    refusal := if before.failed then some (.ofReport before "before suite hook failed") else none }

/-! ## Work -/

/-- A specification that is left out, with its position. -/
def leftOut (reason : String) (item : Placed) : Nat × SpecResult :=
  (item.1, .notExecuted item.2 reason [])

namespace Worker

/-- Whether the stream may take another specification. -/
def isReady (w : Worker σ) : Bool := w.refusal.isNone && !w.session.aborted

/-- Runs a specification. -/
def take (w : Worker σ) (b : Behavior σ) (plan : Plan) (item : Placed) : Worker σ :=
  let (result, session) := announcedSpec b plan item.2 w.session
  { w with session := session, results := w.results ++ [(item.1, result)] }

/-- Runs the specifications that were assigned to the stream. -/
def takeAssigned (w : Worker σ) (b : Behavior σ) (plan : Plan) (items : List Placed) : Worker σ :=
  match w.refusal with
  | some failure => { w with results := items.map (leftOut failure.message) }
  | none => items.foldl (fun w item => w.take b plan item) w

end Worker

/-! ## Closing -/

/-- Tells a living runner that the execution ends, and gives the failure of that. -/
def announceEnd (b : Behavior σ) : Activity σ (Option Failure) := do
  let session ← get
  if b.alive session.runner then do
    let after := Runner.reportOf (← offer b (.executionEnding (.ofNat session.stream)))
    pure (if after.failed then some (.ofReport after "after suite hook failed") else none)
  else pure none

/-- Kills the runner; whether that succeeds makes no difference. -/
def killRunner (b : Behavior σ) : Activity σ Unit := modify fun s =>
  { s with runner := (b.kill s.runner).2, trace := s.trace.push .killed }

/-- What happened up to the offer of a number, counted from one. -/
def upToOffer : Nat → List Occurrence → List Occurrence
  | 0, _ => []
  | _ + 1, [] => []
  | count + 1, .offered m :: rest => .offered m :: upToOffer count rest
  | count + 1, o :: rest => o :: upToOffer (count + 1) rest

/-- What a stream leaves behind. -/
structure StreamRun (σ : Type) where
  /-- What it hands in; nothing if its task broke down. -/
  outcome : Option StreamOutcome
  /-- The runner in its last state, if it started. -/
  runner : Option σ := none
  aborted : Bool := false
  trace : List Occurrence := []

namespace Worker

/-- Ends the stream. -/
def close (w : Worker σ) (b : Behavior σ) : StreamRun σ :=
  let (failure, session) := match w.refusal with
    | some failure => (some failure, w.session)
    | none => announceEnd b w.session
  let ((), session) := killRunner b session
  { outcome := some ⟨session.stream, w.results, failure⟩
    runner := some session.runner
    aborted := session.aborted
    trace := session.trace.toList }

/-- Ends the stream; if its task broke down, nothing counts that came after. -/
def finish (w : Worker σ) (fleet : Fleet σ) : StreamRun σ :=
  let run := w.close fleet.toBehavior
  match run.runner.bind fleet.brokenAt with
  | none => run
  | some count => { run with outcome := none, trace := upToOffer count run.trace }

end Worker

namespace StreamRun

/-- A stream whose runner did not start, with the specifications that were assigned to it. -/
def unstarted (stream : Nat) (items : List Placed) (e : ProtocolError) : StreamRun σ where
  outcome := some { stream := stream, results := items.map (leftOut e.text) }

/-- The messages that the runner was offered, in order. -/
def offers (r : StreamRun σ) : List Message :=
  r.trace.filterMap fun
    | .offered m => some m
    | _ => none

/-- The events that were announced, in order. -/
def events (r : StreamRun σ) : List Announcement :=
  r.trace.filterMap fun
    | .announced e => some e
    | _ => none

/-- How often the runner was killed. -/
def kills (r : StreamRun σ) : Nat :=
  r.trace.countP fun
    | .killed => true
    | _ => false

end StreamRun

/-- Runs a stream with the specifications that are assigned to it. -/
def runAssigned (fleet : Fleet σ) (plan : Plan) (stream : Nat) (items : List Placed) :
    StreamRun σ :=
  match fleet.start stream with
  | .error e => .unstarted stream items e
  | .ok runner =>
    let worker := openWorker fleet.toBehavior plan stream runner
    (worker.takeAssigned fleet.toBehavior plan items).finish fleet

end SpecEngine.Engine
