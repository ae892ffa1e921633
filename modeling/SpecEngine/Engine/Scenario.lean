/-
# SpecEngine.Engine.Scenario -- attempts and retries

An attempt runs the steps of a scenario between two announcements to the runner. The closing one is
always made; when it fails the attempt has failed. A failed attempt is repeated as long as the
configuration allows it for the scenario's tags and the runner lives, and the last attempt counts.
Listeners see one start and one end however many attempts there were.
-/

import SpecEngine.Engine.Step

namespace SpecEngine.Engine

open Item (Scenario Specification)
open Result (StepResult ScenarioResult Failure Status)
open Runner (Behavior Report)
open Event (Subject)

variable {σ : Type}

/-- The reason of scenarios that are left out when the runner is dead. -/
def deadReason : String := "runner for this stream is no longer alive"

/-- The result of an attempt, from its items and the closing announcement. -/
def attemptResult (sc : Scenario) (row : Option Table.Row) (steps : List StepResult)
    (failure : Option Failure) (status : Status) (after : Report) : ScenarioResult :=
  let status := if after.failed then .failed else status
  let failure := if after.failed then
    failure.or (some (.ofReport after "after scenario hook failed")) else failure
  { ScenarioResult.ofRun sc (row.map (·.index)) status 0 steps with
    failure := failure
    skipReason := if status = .skipped then some "skipped at the runner's request" else none }

/-- Makes one attempt. -/
def attempt (b : Behavior σ) (plan : Plan) (spec : Specification) (sc : Scenario)
    (row : Option Table.Row) : Activity σ ScenarioResult := do
  let tags := spec.scenarioTags sc
  let before ← hook b (.scenarioStarting spec.fileName sc.heading tags)
  if before.failed then do
    let after ← hook b (.scenarioEnding spec.fileName sc.heading tags)
    pure (attemptResult sc row (StepResult.allNotExecuted sc.steps)
      (some (.ofReport before "before scenario hook failed")) .failed after)
  else do
    let outcome ← runItems b plan spec.fileName row sc.steps
    let after ← hook b (.scenarioEnding spec.fileName sc.heading tags)
    pure (attemptResult sc row outcome.results outcome.failure outcome.status after)

/-- Makes the attempt of a number and, if need be, up to so many more. -/
def attempts (b : Behavior σ) (plan : Plan) (spec : Specification) (sc : Scenario)
    (row : Option Table.Row) (number : Nat) : Nat → Activity σ ScenarioResult
  | 0 => do
    let r ← attempt b plan spec sc row
    pure { r with attempts := number }
  | more + 1 => do
    let r ← attempt b plan spec sc row
    if r.status != .failed || (← isAborted) then pure { r with attempts := number }
    else attempts b plan spec sc row (number + 1) more

/-- How often a scenario is attempted at most. -/
def attemptLimit (plan : Plan) (spec : Specification) (sc : Scenario) : Nat :=
  if plan.settings.allowsRetry (spec.scenarioTags sc) then plan.settings.maxAttempts else 1

/-- Leaves a scenario out and announces it. -/
def skipScenario (spec : Specification) (sc : Scenario) (row : Option Table.Row) (reason : String) :
    Activity σ ScenarioResult := do
  let subject := Subject.ofScenario spec sc (row.map (·.index))
  let result := ScenarioResult.notExecuted sc (row.map (·.index)) reason
  announce .scenarioStart subject
  announce .scenarioEnd subject (some (.scenario result))
  pure result

/-- Runs a scenario, for a table row or for none. -/
def runScenario (b : Behavior σ) (plan : Plan) (spec : Specification) (sc : Scenario)
    (row : Option Table.Row) : Activity σ ScenarioResult := do
  if (plan.buildErrors.ofScenario spec sc).isSome then
    skipScenario spec sc row "scenario has build errors"
  else if ← isAborted then skipScenario spec sc row deadReason
  else do
    let subject := Subject.ofScenario spec sc (row.map (·.index))
    announce .scenarioStart subject
    let result ← attempts b plan spec sc row 1 (attemptLimit plan spec sc - 1)
    announce .scenarioEnd subject (some (.scenario result))
    pure result

end SpecEngine.Engine
