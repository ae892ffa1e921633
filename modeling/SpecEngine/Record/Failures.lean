/-
# SpecEngine.Record.Failures -- what failed in the last run

A scenario is recorded by its file and line, once, where it first failed. With the record a later
run can be restricted to these scenarios. The file is indented, one field on a line.
-/

import SpecEngine.Result.Basic

namespace SpecEngine.Record

open Json (Shape Value)
open Item (Collection)

/-- A scenario that failed. -/
structure FailedScenario where
  fileName : String
  line : UInt64
  deriving DecidableEq, Repr

/-- The scenarios that failed in a run. -/
structure Failures where
  scenarios : List FailedScenario := []
  deriving DecidableEq, Repr, Inhabited

/-- The list without what already stands earlier in it. -/
def firstOccurrences {α : Type} [DecidableEq α] (seen : List α) : List α → List α
  | [] => []
  | a :: rest =>
    if a ∈ seen then firstOccurrences seen rest else a :: firstOccurrences (a :: seen) rest

namespace Failures

/-- The scenarios with a failed result, in the order in which they first failed. -/
def ofSuite (result : Result.SuiteResult) : Failures where
  scenarios := firstOccurrences [] (result.specs.flatMap fun spec =>
    (spec.scenarios.filter fun sc => sc.status = .failed).map fun sc => ⟨spec.fileName, sc.line⟩)

/-- Whether nothing failed. -/
def isEmpty (f : Failures) : Bool := f.scenarios.isEmpty

/-- The collection restricted to the recorded scenarios. -/
def restrict (f : Failures) (specs : Collection) : Collection :=
  specs.restrict fun spec sc => f.scenarios.contains ⟨spec.fileName, sc.line⟩

/-! ## Written form -/

/-- The record as a JSON value. -/
def toJson (f : Failures) : Value := .object [("scenarios", .array (f.scenarios.map fun sc =>
  .object [("fileName", .string sc.fileName), ("line", .natural sc.line.toNat)]))]

/-- The shape of the record. -/
def shape : Shape Failures := .record ["scenarios"] fun
  | [scenarios] => do
    some ⟨← scenarios.required (.list (.record ["fileName", "line"] fun
      | [fileName, line] => do some ⟨← fileName.required .string, ← line.required .word⟩
      | _ => none))⟩
  | _ => none

/-- The text of the file. -/
def fileText (f : Failures) : String := f.toJson.pretty

/-- Reads the text of the file. -/
def ofFileText (s : String) : Option Failures := Json.readText shape s

end Failures

end SpecEngine.Record
