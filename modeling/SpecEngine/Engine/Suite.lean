/-
# SpecEngine.Engine.Suite -- runs on one or several streams

A run is sequential, on one stream, or parallel. Parallel streams share out the specifications
before they start, or claim them one by one from a queue. Streams have nothing in common but the
queue, so a parallel run is determined by the order in which they claim: `order` names for each
claim which of the streams that are ready makes it. Whatever the streams report, specifications that
no stream reports are added as not executed, so none is lost.

Parallel streams have tasks of their own, and a run outlives any that breaks down. A sequential run
has no task but the caller's: if that breaks down, nothing comes back and no end is announced.

The events of a run are listed stream by stream, in the order of the streams.
-/

import SpecEngine.Engine.Distribution
import SpecEngine.Engine.Stream
import SpecEngine.Event.Bus

namespace SpecEngine.Engine

open Result (SpecResult SuiteResult StreamOutcome)
open Runner (Behavior Fleet ProtocolError)
open Event (Announcement Bus)

variable {σ : Type}

/-! ## Claims -/

/-- A stream after its opening: a worker, or the error that kept its runner from starting. -/
abbrev Opened (σ : Type) := Except ProtocolError (Worker σ)

namespace Opened

/-- Opens a stream. -/
def start (fleet : Fleet σ) (plan : Plan) (stream : Nat) : Opened σ :=
  (fleet.start stream).map (openWorker fleet.toBehavior plan stream)

/-- Whether the stream may take another specification. -/
def isReady : Opened σ → Bool
  | .ok w => w.isReady
  | .error _ => false

/-- Runs a specification. -/
def take (b : Behavior σ) (plan : Plan) (item : Placed) : Opened σ → Opened σ :=
  Except.map fun w => w.take b plan item

/-- Ends the stream of a number. -/
def finish (fleet : Fleet σ) (stream : Nat) : Opened σ → StreamRun σ
  | .ok w => w.finish fleet
  | .error e => .unstarted stream [] e

end Opened

/-- The numbers of the streams that are ready for another specification. -/
def readyStreams (opened : List (Opened σ)) : List Nat :=
  (List.range opened.length).filter fun i => (opened[i]?.map Opened.isReady).getD false

/-- The stream that makes a claim, if any is ready. -/
def claimant (order : Nat → Nat) (claim : Nat) (opened : List (Opened σ)) : Option Nat :=
  let ready := readyStreams opened
  ready[order claim % ready.length]?

/-- Lets streams claim specifications until none waits or no stream is ready; `claim` counts the
claims made before. -/
def distribute (b : Behavior σ) (plan : Plan) (order : Nat → Nat) (claim : Nat)
    (queue : Queue Placed) (opened : List (Opened σ)) : List (Opened σ) :=
  match claimant order claim opened with
  | none => opened
  | some i =>
    match h : queue.claim with
    | none => opened
    | some (item, rest) =>
      distribute b plan order (claim + 1) rest (opened.modify i (Opened.take b plan item))
termination_by queue.remaining
decreasing_by
  have := Queue.remaining_of_claim h
  omega

/-! ## Streams of a run -/

/-- Runs the whole collection on one stream. -/
def runSequential (fleet : Fleet σ) (plan : Plan) : List (StreamRun σ) :=
  [runAssigned fleet plan 0 plan.indexed]

/-- Runs contiguous groups on as many streams; a stream without specifications is not started. -/
def runEager (fleet : Fleet σ) (plan : Plan) : List (StreamRun σ) :=
  (partition plan.indexed plan.streamCount).zipIdx.filterMap fun (items, stream) =>
    if items.isEmpty then none else some (runAssigned fleet plan stream items)

/-- Runs streams that claim specifications from a queue. -/
def runLazy (fleet : Fleet σ) (plan : Plan) (order : Nat → Nat) : List (StreamRun σ) :=
  let opened := (List.range plan.streamCount).map (Opened.start fleet plan)
  let done := distribute fleet.toBehavior plan order 0 ⟨plan.indexed⟩ opened
  done.zipIdx.map fun (o, stream) => o.finish fleet stream

/-- The streams of a run. -/
def runStreams (fleet : Fleet σ) (plan : Plan) (order : Nat → Nat) : List (StreamRun σ) :=
  if plan.settings.parallel then
    match plan.settings.strategy with
    | .eager => runEager fleet plan
    | .lazy => runLazy fleet plan order
  else runSequential fleet plan

/-! ## The result -/

/-- The reason of specifications that no stream reports. -/
def unreportedReason : String := "not executed"

/-- The specifications that no outcome reports, as an outcome after all others. -/
def unreported (plan : Plan) (outcomes : List StreamOutcome) : StreamOutcome :=
  let reported := outcomes.flatMap fun o => o.results.map (·.1)
  { stream := Text.Decimal.limit64 - 1
    results := (plan.indexed.filter fun item => !reported.contains item.1).map
      (leftOut unreportedReason) }

/-- The outcomes of streams, with one more if a specification is reported by none of them. -/
def completed (plan : Plan) (streams : List (StreamRun σ)) : List StreamOutcome :=
  let outcomes := streams.filterMap (·.outcome)
  let missing := unreported plan outcomes
  if missing.results.isEmpty then outcomes else outcomes ++ [missing]

/-- A run: its streams and its result. -/
structure SuiteRun (σ : Type) where
  streams : List (StreamRun σ)
  result : SuiteResult

/-- The streams of a plan that is run, and the result that they come to. Whoever wants the result
gets it from `execute`. -/
def runSuite (fleet : Fleet σ) (plan : Plan) (order : Nat → Nat) : SuiteRun σ :=
  let streams := runStreams fleet plan order
  { streams := streams, result := Result.merge (completed plan streams) 0 }

/-- Whether the caller's own task breaks down, which serves the stream of a sequential run. -/
def SuiteRun.breaksDown (run : SuiteRun σ) (plan : Plan) : Bool :=
  !plan.settings.parallel && run.streams.any (·.outcome.isNone)

/-- Runs a plan to its end; there is no run to speak of if the caller's task breaks down. -/
def execute (fleet : Fleet σ) (plan : Plan) (order : Nat → Nat) : Option (SuiteRun σ) :=
  let run := runSuite fleet plan order
  if run.breaksDown plan then none else some run

/-- The events of a run. -/
def SuiteRun.events (run : SuiteRun σ) : List Announcement :=
  { topic := .suiteStart, subject := .suite } ::
    (run.streams.flatMap StreamRun.events ++
      [{ topic := .suiteEnd, subject := .suite, outcome := some (.suite run.result) }])

/-- What plugins are told at the end of a run. -/
inductive PluginCall where
  | suite (specs : Nat) (failed : Bool)
  | kill
  deriving DecidableEq, Repr

/-- The calls that a plugin gets. -/
def SuiteRun.pluginCalls (run : SuiteRun σ) : List PluginCall :=
  [.suite run.result.specs.length run.result.failed, .kill]

/-- Runs a plan and announces it on a bus, unless the bus belongs to another run or the caller's
task breaks down. -/
def runOn (bus : Bus) (fleet : Fleet σ) (plan : Plan) (order : Nat → Nat) :
    Option (Bus × SuiteRun σ) := do
  let bus ← bus.own?
  let run ← execute fleet plan order
  some (bus.notifyAll run.events, run)

end SpecEngine.Engine
