/-
# SpecEngine.Engine.Validation -- asking a runner about steps

Before a run every distinct step text is sent to a runner once, in ascending order, to ask whether
it can execute such a step. A step that is not called valid becomes a build error of every scenario
that uses it, one for each use.
-/

import SpecEngine.Engine.Session

namespace SpecEngine.Engine

open Item (Step Scenario Specification Collection BuildErrors ParseError)
open Runner (Behavior Message ProtocolError StepFault)

variable {σ : Type}

/-! ## Texts -/

/-- The steps of a collection, in order. -/
def allSteps (specs : Collection) : List Step :=
  specs.flatMap fun spec => spec.scenarios.flatMap Scenario.flatSteps

/-- The list without an item that equals the one before it. -/
def withoutRepeats : List String → List String
  | [] => []
  | [s] => [s]
  | s :: t :: rest => if s = t then withoutRepeats (t :: rest) else s :: withoutRepeats (t :: rest)

/-- The distinct step texts of a collection in ascending order. -/
def stepTexts (specs : Collection) : List String :=
  withoutRepeats (((allSteps specs).map (·.text)).mergeSort fun s t => s ≤ t)

/-! ## Answers -/

/-- What a runner says against a step. -/
def complaint (fault : Option StepFault) (message : Option String) : String :=
  let kind := match fault with
    | some .duplicate => "Duplicate step implementation"
    | some .notFound | none => "Step implementation not found"
  match message with
  | some m => if m.isEmpty then kind else kind ++ ": " ++ m
  | none => kind

/-- Why a step is not called valid by an answer; nothing if it is. -/
def objection? : Except ProtocolError Message → Option String
  | .ok (.validateResponse true _ _) => none
  | .ok (.validateResponse false fault message) => some (complaint fault message)
  | .ok m => some ("unexpected " ++ m.kind ++ " from runner")
  | .error e => some ("could not validate step: " ++ e.text)

/-- Asks about texts one after the other; gives those that are not called valid, with the reasons.
-/
def objections (b : Behavior σ) : List String → Activity σ (List (String × String))
  | [] => pure []
  | text :: rest => do
    let answer ← offer b (.validateRequest text)
    let others ← objections b rest
    pure (match objection? answer with
      | some reason => (text, reason) :: others
      | none => others)

/-! ## Build errors -/

/-- The errors of a scenario's steps, filed under the scenario. -/
def stepErrors (reasons : List (String × String)) (spec : Specification) (sc : Scenario) :
    List (Item.Subject × ParseError) :=
  sc.flatSteps.filterMap fun step =>
    (reasons.lookup step.text).map fun reason =>
      (.scenario spec.fileName sc.line,
        { fileName := spec.fileName, lineNo := step.line, message := reason
          lineText := step.text })

/-- The build errors for objections to steps of a collection. -/
def errorsOf (reasons : List (String × String)) (specs : Collection) : BuildErrors where
  log := specs.flatMap fun spec => spec.scenarios.flatMap (stepErrors reasons spec)

/-- Validates the steps of a collection. -/
def validateSteps (b : Behavior σ) (specs : Collection) : Activity σ BuildErrors := do
  let reasons ← objections b (stepTexts specs)
  pure (errorsOf reasons specs)

end SpecEngine.Engine
