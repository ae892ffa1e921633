/-
# SpecEngine.Record.Status -- the record of the last run

Eight counters sum up a run. Skipped items do not count as executed. They are 64-bit numbers, in
memory as in the file, and the file is one object without blanks. `summaryLines` is the account of a
run that is printed at its end.

Whether the run failed is told by the sum of the two failure counters. The sum is checked: if 64
bits cannot hold it, whoever asks for it stops there. The counters of a run that took place are far
too small for that, but a record may have any.
-/

import SpecEngine.Result.Merge
import SpecEngine.Report.Duration

namespace SpecEngine.Record

open Json (Shape Value)
open Result (SuiteResult Verdict)

/-- The counters of a run. -/
structure Status where
  kind : String
  specsExecuted : UInt64
  specsPassed : UInt64
  specsFailed : UInt64
  specsSkipped : UInt64
  scenariosExecuted : UInt64
  scenariosPassed : UInt64
  scenariosFailed : UInt64
  scenariosSkipped : UInt64
  deriving DecidableEq, Repr

namespace Status

/-- The counters of a result. -/
def ofSuite (result : SuiteResult) : Status :=
  let specsExecuted := result.specs.length - result.skippedCount
  let scenariosExecuted := result.scenarioCount - result.scenarioSkippedCount
  { kind := "out"
    specsExecuted := .ofNat specsExecuted
    specsPassed := .ofNat (specsExecuted - result.failedCount)
    specsFailed := .ofNat result.failedCount
    specsSkipped := .ofNat result.skippedCount
    scenariosExecuted := .ofNat scenariosExecuted
    scenariosPassed := .ofNat (scenariosExecuted - result.scenarioFailedCount)
    scenariosFailed := .ofNat result.scenarioFailedCount
    scenariosSkipped := .ofNat result.scenarioSkippedCount }

/-- The two failure counters together. -/
def failures (s : Status) : Nat := s.specsFailed.toNat + s.scenariosFailed.toNat

/-- Whether 64 bits cannot hold the sum of the failure counters. -/
def overflows (s : Status) : Bool := Text.Decimal.limit64 ≤ s.failures

/-- Whether the record tells of failures, where the sum does not overflow. -/
def tellsFailure (s : Status) : Bool := s.failures > 0

/-- The verdict on the recorded run, where the sum does not overflow. -/
def verdict (s : Status) : Verdict := if s.tellsFailure then .executionFailed else .success

/-- One line of four counters. -/
def countLine (name : String) (executed passed failed skipped : UInt64) : String :=
  let text (n : UInt64) := Text.Decimal.text n.toNat
  name ++ ":\t" ++ text executed ++ " executed\t" ++ text passed ++ " passed\t" ++
    text failed ++ " failed\t" ++ text skipped ++ " skipped"

/-- The line about specifications. -/
def specLine (s : Status) : String :=
  countLine "Specifications" s.specsExecuted s.specsPassed s.specsFailed s.specsSkipped

/-- The line about scenarios. -/
def scenarioLine (s : Status) : String :=
  countLine "Scenarios" s.scenariosExecuted s.scenariosPassed s.scenariosFailed s.scenariosSkipped

/-- The account of a run with its duration. -/
def summaryLines (s : Status) (executionTimeMs : Nat) : List String :=
  [s.specLine, s.scenarioLine, "", "Total time taken: " ++ Report.durationText executionTimeMs]

/-! ## Written form -/

/-- The record as a JSON value. -/
def toJson (s : Status) : Value := .object [
  ("type", .string s.kind),
  ("specsExecuted", .natural s.specsExecuted.toNat), ("specsPassed", .natural s.specsPassed.toNat),
  ("specsFailed", .natural s.specsFailed.toNat), ("specsSkipped", .natural s.specsSkipped.toNat),
  ("sceExecuted", .natural s.scenariosExecuted.toNat),
  ("scePassed", .natural s.scenariosPassed.toNat),
  ("sceFailed", .natural s.scenariosFailed.toNat),
  ("sceSkipped", .natural s.scenariosSkipped.toNat)]

/-- The shape of the record. -/
def shape : Shape Status :=
  .record ["type", "specsExecuted", "specsPassed", "specsFailed", "specsSkipped", "sceExecuted",
    "scePassed", "sceFailed", "sceSkipped"] fun
  | [kind, specsExecuted, specsPassed, specsFailed, specsSkipped, executed, passed, failed,
      skipped] => do
    some {
      kind := ← kind.required .string
      specsExecuted := ← specsExecuted.required .word
      specsPassed := ← specsPassed.required .word
      specsFailed := ← specsFailed.required .word
      specsSkipped := ← specsSkipped.required .word
      scenariosExecuted := ← executed.required .word
      scenariosPassed := ← passed.required .word
      scenariosFailed := ← failed.required .word
      scenariosSkipped := ← skipped.required .word }
  | _ => none

/-- The text of the file. -/
def fileText (s : Status) : String := s.toJson.compact

/-- Reads the text of the file. -/
def ofFileText (s : String) : Option Status := Json.readText shape s

end Status

end SpecEngine.Record
