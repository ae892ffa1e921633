/-
# SpecEngine.Result.Merge -- one result out of those of several streams

Each stream hands in the results of the specifications it took, with their positions in the
collection, and perhaps the failure of one of the hooks that bracket it. Merging orders by stream
and within a stream by position, so nothing depends on which stream came first; of several hook
failures the one of the lowest stream is kept.
-/

import SpecEngine.Result.Basic

namespace SpecEngine.Result

/-- What one stream hands in. -/
structure StreamOutcome where
  stream : Nat
  /-- Results with their positions in the collection. -/
  results : List (Nat × SpecResult) := []
  hookFailure : Option Failure := none
  deriving Repr, Inhabited

namespace StreamOutcome

/-- The results in the order of their positions. -/
def ordered (o : StreamOutcome) : List SpecResult :=
  (o.results.mergeSort fun a b => a.1 ≤ b.1).map (·.2)

end StreamOutcome

/-- The result of a run made of several streams. -/
def merge (outcomes : List StreamOutcome) (executionTimeMs : Nat) : SuiteResult :=
  let outcomes := outcomes.mergeSort fun a b => a.stream ≤ b.stream
  .ofSpecs (outcomes.flatMap StreamOutcome.ordered) executionTimeMs
    (outcomes.findSome? (·.hookFailure))

/-! ## Verdicts -/

/-- How a run ends for its caller. -/
inductive Verdict where
  | success
  | executionFailed
  | parseFailed
  | validationFailed
  deriving DecidableEq, Repr

namespace Verdict

/-- The exit code of a verdict. -/
def code : Verdict → Nat
  | .success => 0
  | .executionFailed => 1
  | .parseFailed => 2
  | .validationFailed => 3

/-- The name and exit code of a verdict. -/
def text (v : Verdict) : String :=
  (match v with
    | .success => "Success"
    | .executionFailed => "ExecutionFailed"
    | .parseFailed => "ParseFailed"
    | .validationFailed => "ValidationFailed") ++ " (" ++ Text.Decimal.text v.code ++ ")"

end Verdict

/-- The verdict on a run; a failed parse stage outweighs failures. -/
def verdict (result : SuiteResult) (parsedCleanly : Bool) : Verdict :=
  if !parsedCleanly then .parseFailed
  else if result.failed then .executionFailed
  else .success

/-- The result of a run that found nothing to execute. -/
def SuiteResult.nothing : SuiteResult := .ofSpecs [] 0 none

end SpecEngine.Result
