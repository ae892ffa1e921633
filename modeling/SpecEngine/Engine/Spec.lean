/-
# SpecEngine.Engine.Spec -- running specifications

A specification is left out when it has build errors of its own or when the runner is dead.
Otherwise its scenarios run between two announcements, the closing one of which is always made. When
the opening one fails, or the data table cannot be resolved, every scenario is skipped and the
specification has failed for that reason. A scenario that uses the table runs once for each selected
row.
-/

import SpecEngine.Engine.Scenario

namespace SpecEngine.Engine

open Item (Scenario Specification)
open Result (ScenarioResult SpecResult Failure)
open Runner (Behavior)
open Event (Subject)

variable {σ : Type}

/-- The rows of a table that are selected. -/
def selectedRows (plan : Plan) (rows : List Table.Row) : List Table.Row :=
  rows.filter fun row =>
    (plan.settings.rows.map fun selected => selected.contains row.index).getD true

/-- Runs a scenario for each of some rows. -/
def runRows (b : Behavior σ) (plan : Plan) (spec : Specification) (sc : Scenario) :
    List Table.Row → Activity σ (List ScenarioResult)
  | [] => pure []
  | row :: rest => do
    let r ← runScenario b plan spec sc (some row)
    let rs ← runRows b plan spec sc rest
    pure (r :: rs)

/-- Runs a scenario as often as the table says; `rows` is absent if there is no table. -/
def runForTable (b : Behavior σ) (plan : Plan) (spec : Specification)
    (rows : Option (List Table.Row)) (sc : Scenario) : Activity σ (List ScenarioResult) := do
  match rows, sc.usesTable with
  | some [], true => pure [← skipScenario spec sc none "no data table rows selected"]
  | some rows, true => runRows b plan spec sc rows
  | _, _ => pure [← runScenario b plan spec sc none]

/-- Runs scenarios in order. -/
def runScenarios (b : Behavior σ) (plan : Plan) (spec : Specification)
    (rows : Option (List Table.Row)) : List Scenario → Activity σ (List ScenarioResult)
  | [] => pure []
  | sc :: rest => do
    let rs ← runForTable b plan spec rows sc
    let more ← runScenarios b plan spec rows rest
    pure (rs ++ more)

/-- The results when no scenario of a specification is run. -/
def allSkipped (spec : Specification) (reason : String) : List ScenarioResult :=
  spec.scenarios.map fun sc => .notExecuted sc none reason

/-- The rows that drive a specification's scenarios; absent if it has no table. -/
def drivingRows (plan : Plan) (spec : Specification) :
    Except Special.Fault (Option (List Table.Row)) :=
  match spec.dataTable with
  | none => .ok none
  | some t => (plan.resolver.rows t).map fun rows => some (selectedRows plan rows)

/-- Runs the scenarios of a specification whose opening announcement passed. -/
def runBody (b : Behavior σ) (plan : Plan) (spec : Specification) :
    Activity σ (List ScenarioResult × Option Failure) := do
  match drivingRows plan spec with
  | .error fault =>
    pure (allSkipped spec fault.text, some { message := fault.text })
  | .ok rows => pure (← runScenarios b plan spec rows spec.scenarios, none)

/-- Runs a specification that is not left out. -/
def takeUp (b : Behavior σ) (plan : Plan) (spec : Specification) : Activity σ SpecResult := do
  let before ← hook b (.specStarting spec.fileName spec.heading spec.tags)
  let (scenarios, failure) ←
    if before.failed then
      pure (allSkipped spec "before spec hook failed",
        some (Failure.ofReport before "before spec hook failed"))
    else runBody b plan spec
  let after ← hook b (.specEnding spec.fileName spec.heading spec.tags)
  let failure := if after.failed then
    failure.or (some (.ofReport after "after spec hook failed")) else failure
  pure (.ofRun spec scenarios failure 0)

/-- Runs a specification or leaves it out. -/
def runSpec (b : Behavior σ) (plan : Plan) (spec : Specification) : Activity σ SpecResult := do
  match plan.buildErrors.ofSpec spec with
  | some errors => pure (.notExecuted spec "specification has build errors" errors)
  | none =>
    if ← isAborted then pure (.notExecuted spec deadReason [])
    else takeUp b plan spec

/-- Runs a specification and announces it. -/
def announcedSpec (b : Behavior σ) (plan : Plan) (spec : Specification) :
    Activity σ SpecResult := do
  announce .specStart (.ofSpec spec)
  let r ← runSpec b plan spec
  announce .specEnd (.ofSpec spec) (some (.spec r))
  pure r

end SpecEngine.Engine
