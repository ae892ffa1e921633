/-
# SpecEngine.Result.Json -- results as JSON values

The written form of results. A step's result leaves out its nested results when there are none;
every other field is always written.
-/

import SpecEngine.Result.Basic

namespace SpecEngine.Result

open Json (Shape Value)

/-- A failure as a JSON value. -/
def Failure.toJson (f : Failure) : Value := .object [
  ("message", .string f.message), ("stack_trace", .ofOption .string f.stackTrace),
  ("screenshot", .ofOption .string f.screenshot)]

/-- The shape of a failure. -/
def Failure.shape : Shape Failure := .record ["message", "stack_trace", "screenshot"] fun
  | [message, stackTrace, screenshot] => do
    some {
      message := ← message.required .string
      stackTrace := ← stackTrace.optional .string
      screenshot := ← screenshot.optional .string }
  | _ => none

/-- A status as a JSON value. -/
def Status.toJson (s : Status) : Value := .string s.word

/-- The shape of a status. -/
def Status.shape : Shape Status :=
  .name [(Status.word .passed, .passed), (Status.word .failed, .failed),
    (Status.word .skipped, .skipped)]

mutual
/-- A step's result as a JSON value. -/
def StepResult.toJson : StepResult → Value
  | ⟨text, line, status, durationMs, failure, nested, isConcept⟩ => .object (
    [("text", .string text), ("line", .natural line.toNat), ("status", status.toJson),
      ("duration_ms", .natural durationMs.toNat), ("failure", .ofOption Failure.toJson failure)] ++
    (match nested with
      | [] => []
      | r :: rest => [("nested", .array (r.toJson :: stepsToJson rest))]) ++
    [("is_concept", .bool isConcept)])
/-- Steps' results as JSON values. -/
def stepsToJson : List StepResult → List Value
  | [] => []
  | r :: rest => r.toJson :: stepsToJson rest
end

/-- The shape of a step's result, with results nested to a given depth. -/
def StepResult.shapeTo : Nat → Shape StepResult
  | 0 => fun _ _ => none
  | depth + 1 =>
    .record ["text", "line", "status", "duration_ms", "failure", "nested", "is_concept"] fun
    | [text, line, status, durationMs, failure, nested, isConcept] => do
      some {
        text := ← text.required .string
        line := ← line.required .word
        status := ← status.required Status.shape
        durationMs := ← durationMs.required .word
        failure := ← failure.optional Failure.shape
        nested := ← nested.orElse (.list (shapeTo depth)) []
        isConcept := ← isConcept.orElse .bool false }
    | _ => none

/-- The shape of a step's result. -/
def StepResult.shape : Shape StepResult := shapeTo 128

/-- A scenario's result as a JSON value. -/
def ScenarioResult.toJson (r : ScenarioResult) : Value := .object [
  ("heading", .string r.heading), ("line", .natural r.line.toNat), ("tags", .strings r.tags),
  ("table_row", .ofOption .natural r.tableRow), ("status", r.status.toJson),
  ("duration_ms", .natural r.durationMs.toNat), ("steps", .array (stepsToJson r.steps)),
  ("failure", .ofOption Failure.toJson r.failure),
  ("skip_reason", .ofOption .string r.skipReason), ("attempts", .natural r.attempts)]

/-- The shape of a scenario's result. -/
def ScenarioResult.shape : Shape ScenarioResult :=
  .record ["heading", "line", "tags", "table_row", "status", "duration_ms", "steps", "failure",
    "skip_reason", "attempts"] fun
  | [heading, line, tags, tableRow, status, durationMs, steps, failure, skipReason, attempts] => do
    some {
      heading := ← heading.required .string
      line := ← line.required .word
      tags := ← tags.required .strings
      tableRow := ← tableRow.optional .nat64
      status := ← status.required Status.shape
      durationMs := ← durationMs.required .word
      steps := ← steps.required (.list StepResult.shape)
      failure := ← failure.optional Failure.shape
      skipReason := ← skipReason.optional .string
      attempts := ← attempts.required (.below Text.Decimal.limit32) }
  | _ => none

/-- A specification's result as a JSON value. -/
def SpecResult.toJson (r : SpecResult) : Value := .object [
  ("heading", .string r.heading), ("file_name", .string r.fileName),
  ("scenarios", .array (r.scenarios.map ScenarioResult.toJson)),
  ("scenario_count", .natural r.scenarioCount), ("scenario_failed_count", .natural r.failedCount),
  ("scenario_skipped_count", .natural r.skippedCount), ("failed", .bool r.failed),
  ("skipped", .bool r.skipped), ("duration_ms", .natural r.durationMs.toNat),
  ("failure", .ofOption Failure.toJson r.failure),
  ("errors", .array (r.errors.map Item.ParseError.toJson))]

/-- The shape of a specification's result. -/
def SpecResult.shape : Shape SpecResult :=
  .record ["heading", "file_name", "scenarios", "scenario_count", "scenario_failed_count",
    "scenario_skipped_count", "failed", "skipped", "duration_ms", "failure", "errors"] fun
  | [heading, fileName, scenarios, count, failedCount, skippedCount, failed, skipped, durationMs,
      failure, errors] => do
    some {
      heading := ← heading.required .string
      fileName := ← fileName.required .string
      scenarios := ← scenarios.required (.list ScenarioResult.shape)
      scenarioCount := ← count.required .nat64
      failedCount := ← failedCount.required .nat64
      skippedCount := ← skippedCount.required .nat64
      failed := ← failed.required .bool
      skipped := ← skipped.required .bool
      durationMs := ← durationMs.required .word
      failure := ← failure.optional Failure.shape
      errors := ← errors.required (.list Item.ParseError.shape) }
  | _ => none

end SpecEngine.Result
