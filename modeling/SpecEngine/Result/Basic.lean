/-
# SpecEngine.Result.Basic -- results of steps, scenarios and specifications

Every item that is taken up leaves a result, also one that never ran: it is then skipped, all the
way down. The counters of a specification's result are computed from its scenarios when it is built.

* A concept's result is failed or not by what its parts came to; its failure is the first one among
  its direct parts, and only a failed concept shows one.
* A specification has failed when a scenario failed or there is a failure of its own. It is skipped
  when it has not failed, has scenarios, and all are skipped, or when it was never taken up.
-/

import SpecEngine.Item.BuildErrors
import SpecEngine.Runner.Message

namespace SpecEngine.Result

open Item (Step StepItem Scenario Specification ParseError)

/-- How an item ended. -/
inductive Status where
  | passed | failed | skipped
  deriving DecidableEq, Repr, Inhabited

namespace Status

/-- The symbol of a status in printed lines. -/
def symbol : Status → String
  | .passed => "✓"
  | .failed => "✗"
  | .skipped => "○"

/-- The word of a status in printed lines. -/
def label : Status → String
  | .passed => "PASS"
  | .failed => "FAIL"
  | .skipped => "SKIP"

/-- The word of a status in records. -/
def word : Status → String
  | .passed => "passed"
  | .failed => "failed"
  | .skipped => "skipped"

end Status

/-- Why an item failed. -/
structure Failure where
  message : String
  stackTrace : Option String := none
  screenshot : Option String := none
  deriving DecidableEq, Repr, Inhabited

/-- The failure that a report tells of; the fallback is its message if the report has none. -/
def Failure.ofReport (report : Runner.Report) (fallback : String) : Failure where
  message := match report.errorMessage with
    | some m => if m.isEmpty then fallback else m
    | none => fallback
  stackTrace := report.stackTrace
  screenshot := report.screenshot

/-! ## Steps -/

/-- The result of a step, or of a concept with the results of its parts. -/
structure StepResult where
  text : String
  line : UInt64
  status : Status
  durationMs : UInt64
  failure : Option Failure
  nested : List StepResult
  isConcept : Bool
  deriving Repr, Inhabited

namespace StepResult

/-- A step that passed. -/
def passed (step : Step) (durationMs : UInt64) : StepResult :=
  ⟨step.text, step.line, .passed, durationMs, none, [], false⟩

/-- A step that failed. -/
def failed (step : Step) (durationMs : UInt64) (failure : Failure) : StepResult :=
  ⟨step.text, step.line, .failed, durationMs, some failure, [], false⟩

/-- A step that was skipped. -/
def skipped (step : Step) (durationMs : UInt64 := 0) : StepResult :=
  ⟨step.text, step.line, .skipped, durationMs, none, [], false⟩

/-- A concept with the results of its parts. -/
def concept (text : String) (line : UInt64) (status : Status) (durationMs : UInt64)
    (nested : List StepResult) : StepResult where
  text := text
  line := line
  status := status
  durationMs := durationMs
  failure := if status = .failed then nested.findSome? (·.failure) else none
  nested := nested
  isConcept := true

mutual
/-- The result of an item that was not executed. -/
def notExecuted : StepItem → StepResult
  | .step s => skipped s
  | .concept text line steps => concept text line .skipped 0 (allNotExecuted steps)
/-- The results of items that were not executed. -/
def allNotExecuted : List StepItem → List StepResult
  | [] => []
  | item :: rest => notExecuted item :: allNotExecuted rest
end

mutual
/-- The results of plain steps below a result, depth first. -/
def leaves : StepResult → List StepResult
  | r@⟨_, _, _, _, _, nested, isConcept⟩ => if isConcept then allLeaves nested else [r]
/-- The results of plain steps below a list of results, depth first. -/
def allLeaves : List StepResult → List StepResult
  | [] => []
  | r :: rest => leaves r ++ allLeaves rest
end

end StepResult

/-! ## Scenarios -/

/-- The result of a scenario for one table row: that of its last attempt. -/
structure ScenarioResult where
  heading : String
  line : UInt64
  tags : List String
  tableRow : Option Nat
  status : Status
  durationMs : UInt64
  steps : List StepResult
  /-- The failure of a hook or of a round trip, rather than of a step. -/
  failure : Option Failure
  skipReason : Option String
  attempts : Nat
  deriving Repr, Inhabited

namespace ScenarioResult

/-- The result of one attempt. -/
def ofRun (sc : Scenario) (tableRow : Option Nat) (status : Status) (durationMs : UInt64)
    (steps : List StepResult) : ScenarioResult where
  heading := sc.heading
  line := sc.line
  tags := sc.tags
  tableRow := tableRow
  status := status
  durationMs := durationMs
  steps := steps
  failure := none
  skipReason := none
  attempts := 1

/-- The result of a scenario that was not executed. -/
def notExecuted (sc : Scenario) (tableRow : Option Nat) (reason : String) : ScenarioResult :=
  { ofRun sc tableRow .skipped 0 (StepResult.allNotExecuted sc.steps) with
    skipReason := some reason }

/-- The message of the scenario's own failure, else of the first failure among its items. -/
def failureMessage (r : ScenarioResult) : Option String :=
  (r.failure.or (r.steps.findSome? (·.failure))).map (·.message)

end ScenarioResult

/-! ## Specifications -/

/-- The result of a specification. -/
structure SpecResult where
  heading : String
  fileName : String
  scenarios : List ScenarioResult
  scenarioCount : Nat
  failedCount : Nat
  skippedCount : Nat
  failed : Bool
  skipped : Bool
  durationMs : UInt64
  /-- The failure of a hook or of the data table. -/
  failure : Option Failure
  errors : List ParseError
  deriving Repr, Inhabited

namespace SpecResult

/-- The number of scenarios of a status. -/
def countStatus (status : Status) (scenarios : List ScenarioResult) : Nat :=
  scenarios.countP fun r => r.status = status

/-- The result of a specification that was taken up. -/
def ofRun (spec : Specification) (scenarios : List ScenarioResult) (failure : Option Failure)
    (durationMs : UInt64) : SpecResult :=
  let failedCount := countStatus .failed scenarios
  let skippedCount := countStatus .skipped scenarios
  let failed := failedCount > 0 || failure.isSome
  { heading := spec.heading
    fileName := spec.fileName
    scenarios := scenarios
    scenarioCount := scenarios.length
    failedCount := failedCount
    skippedCount := skippedCount
    failed := failed
    skipped := !failed && scenarios.length > 0 && skippedCount == scenarios.length
    durationMs := durationMs
    failure := failure
    errors := [] }

/-- The result of a specification that was never taken up: every scenario is skipped. -/
def notExecuted (spec : Specification) (reason : String) (errors : List ParseError) : SpecResult :=
  { ofRun spec (spec.scenarios.map fun sc => .notExecuted sc none reason) none 0 with
    skipped := true
    errors := errors }

/-- The status of a specification. -/
def status (r : SpecResult) : Status :=
  if r.failed then .failed else if r.skipped then .skipped else .passed

/-- The one-line account of a specification in the log. -/
def text (r : SpecResult) : String :=
  r.status.symbol ++ " " ++ r.heading ++ " [" ++ Text.Decimal.text r.durationMs.toNat ++ "ms] - " ++
    Text.Decimal.text r.scenarioCount ++ " scenarios, " ++ Text.Decimal.text r.failedCount ++
    " failed, " ++ Text.Decimal.text r.skippedCount ++ " skipped"

end SpecResult

/-! ## Suites -/

/-- The result of a run. -/
structure SuiteResult where
  specs : List SpecResult
  failedCount : Nat
  skippedCount : Nat
  failed : Bool
  executionTimeMs : Nat
  /-- The failure of a hook that brackets a stream. -/
  failure : Option Failure
  deriving Repr, Inhabited

namespace SuiteResult

/-- The result of a run over the results of its specifications. -/
def ofSpecs (specs : List SpecResult) (executionTimeMs : Nat) (failure : Option Failure) :
    SuiteResult :=
  let failedCount := specs.countP (·.failed)
  { specs := specs
    failedCount := failedCount
    skippedCount := specs.countP fun r => r.skipped && !r.failed
    failed := failedCount > 0 || failure.isSome
    executionTimeMs := executionTimeMs
    failure := failure }

/-- The sum of what the specifications count. -/
def total (r : SuiteResult) (count : SpecResult → Nat) : Nat :=
  r.specs.foldr (fun spec n => count spec + n) 0

/-- The number of scenario results. -/
def scenarioCount (r : SuiteResult) : Nat := r.total (·.scenarioCount)

/-- The number of failed scenario results. -/
def scenarioFailedCount (r : SuiteResult) : Nat := r.total (·.failedCount)

/-- The number of skipped scenario results. -/
def scenarioSkippedCount (r : SuiteResult) : Nat := r.total (·.skippedCount)

end SuiteResult

end SpecEngine.Result
