/-
# SpecEngine.Engine.Step -- running steps and concepts

A step is run in three round trips: an announcement, the step itself, a closing announcement. Its
result comes with what it means for the steps after it. The remaining steps of the scenario must not
run after a failure, unless the runner calls it recoverable, nor after a request to skip; they are
then reported as not executed, without a message or an event. A concept is run as its parts are and
passes on what they mean for what follows, so nesting makes no difference to the runner.

A failed round trip of the step itself is the cause of the whole scenario's failure, not only of the
step's, and is passed on as such. A failing closing announcement turns a passed or skipped step into
a failed one, but leaves a failure as it is.
-/

import SpecEngine.Engine.Session

namespace SpecEngine.Engine

open Item (Step StepItem)
open Result (StepResult Failure Status)
open Runner (Behavior ProtocolError Report statusOf)
open Event (Subject)

variable {σ : Type}

/-- The result of an item and what it means for the items after it. -/
structure Executed where
  result : StepResult
  /-- The remaining items must not run. -/
  halt : Bool
  skipRequested : Bool := false
  /-- A failed round trip, which is the scenario's own failure. -/
  cause : Option Failure := none
  deriving Repr

/-- An item that ended by itself; a failure halts what follows. -/
def Executed.finished (result : StepResult) : Executed :=
  { result := result, halt := result.status = .failed }

/-- The results of consecutive items and what they mean together. -/
structure StepsOutcome where
  results : List StepResult := []
  failure : Option Failure := none
  skipRequested : Bool := false
  halted : Bool := false
  deriving Repr

namespace StepsOutcome

/-- An item's result in front of what came of the items after it. -/
def cons (e : Executed) (rest : StepsOutcome) : StepsOutcome where
  results := e.result :: rest.results
  failure := e.cause.or rest.failure
  skipRequested := e.skipRequested || rest.skipRequested
  halted := e.halt || rest.halted

/-- The outcome when no item after this one runs. -/
def last (e : Executed) (remaining : List StepItem) : StepsOutcome :=
  cons e { results := StepResult.allNotExecuted remaining }

/-- Whether an item failed or a round trip did. -/
def failed (o : StepsOutcome) : Bool :=
  o.failure.isSome || o.results.any fun r => r.status = .failed

/-- The status that the items have together. -/
def status (o : StepsOutcome) : Status :=
  if o.failed then .failed else if o.skipRequested then .skipped else .passed

end StepsOutcome

/-! ## Single steps -/

/-- A step whose own round trip failed. -/
def brokenStep (step : Step) (e : ProtocolError) : Executed :=
  let failure : Failure := { message := e.text }
  { Executed.finished (.failed step 0 failure) with cause := some failure }

/-- What a runner's report on a step means. -/
def judge (step : Step) (report : Report) : Executed :=
  if report.failed then
    { Executed.finished (.failed step report.executionTimeMs (.ofReport report "step failed")) with
      halt := !report.recoverable }
  else if report.skipScenario then
    { result := .skipped step report.executionTimeMs, halt := true, skipRequested := true }
  else .finished (.passed step report.executionTimeMs)

/-- What is left of it after the closing announcement. -/
def afterHook (step : Step) (report after : Report) : Executed :=
  let executed := judge step report
  if after.failed && executed.result.status != .failed then
    .finished (.failed step report.executionTimeMs (.ofReport after "after step hook failed"))
  else executed

/-- Runs a step, for a table row or for none. -/
def runStep (b : Behavior σ) (plan : Plan) (row : Option Table.Row) (step : Step) :
    Activity σ Executed := do
  match plan.resolver.parameters row step.args with
  | .error fault => pure (.finished (.failed step 0 { message := fault.text }))
  | .ok parameters =>
    let before ← hook b (.stepStarting step.text)
    if before.failed then
      pure (.finished (.failed step 0 (.ofReport before "before step hook failed")))
    else
      match statusOf (← offer b (.executeStep step.text parameters)) with
      | .error e => do
        noticeDeath b
        pure (brokenStep step e)
      | .ok report => do
        let after ← hook b (.stepEnding step.text)
        pure (afterHook step report after)

/-- Runs a step and announces it. -/
def announcedStep (b : Behavior σ) (plan : Plan) (fileName : String) (row : Option Table.Row)
    (step : Step) : Activity σ Executed := do
  announce .stepStart (.ofStep fileName step)
  let e ← runStep b plan row step
  announce .stepEnd (.ofStep fileName step) (some (.step e.result))
  pure e

/-! ## Items -/

/-- What the parts of a concept mean for the concept. -/
def conceptOf (text : String) (line : UInt64) (parts : StepsOutcome) : Executed where
  result := .concept text line parts.status 0 parts.results
  halt := parts.halted
  skipRequested := parts.skipRequested
  cause := parts.failure

mutual
/-- Runs a step or a concept. -/
def runItem (b : Behavior σ) (plan : Plan) (fileName : String) (row : Option Table.Row) :
    StepItem → Activity σ Executed
  | .step s => announcedStep b plan fileName row s
  | .concept text line steps => do
    announce .conceptStart (.concept fileName text line)
    let parts ← runItems b plan fileName row steps
    let e := conceptOf text line parts
    announce .conceptEnd (.concept fileName text line) (some (.step e.result))
    pure e
/-- Runs items in order until one of them halts. -/
def runItems (b : Behavior σ) (plan : Plan) (fileName : String) (row : Option Table.Row) :
    List StepItem → Activity σ StepsOutcome
  | [] => pure {}
  | item :: rest => do
    let e ← runItem b plan fileName row item
    if e.halt then pure (.last e rest)
    else do
      let outcome ← runItems b plan fileName row rest
      pure (.cons e outcome)
end

end SpecEngine.Engine
