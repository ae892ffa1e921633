/-
# SpecEngine.Item.Spec -- scenarios, specifications and collections

A specification holds scenarios and may hold a data table that drives those of them which use a
column. The tags of a scenario are its specification's tags followed by its own. A collection is a
list of specifications; restricting it keeps the order, drops the scenarios that are not wanted, and
drops a specification that is left without scenarios.
-/

import SpecEngine.Item.Step
import SpecEngine.Tag.Expr

namespace SpecEngine.Item

open Json (Shape Value)

/-- A scenario. -/
structure Scenario where
  heading : String
  line : UInt64 := 0
  tags : List String := []
  steps : List StepItem
  deriving Repr

/-- The plain steps of a scenario, in order. -/
def Scenario.flatSteps (sc : Scenario) : List Step := StepItem.flattenAll sc.steps

/-- Whether a step refers to a column of the data table. -/
def Scenario.usesTable (sc : Scenario) : Bool := StepItem.anyUsesRow sc.steps

/-- A specification. -/
structure Specification where
  heading : String
  fileName : String
  tags : List String := []
  dataTable : Option Table.Data := none
  scenarios : List Scenario
  deriving Repr

namespace Specification

/-- The specification's tags followed by the scenario's own. -/
def scenarioTags (spec : Specification) (sc : Scenario) : List String := spec.tags ++ sc.tags

/-- Heading and file, as a specification is named in texts. -/
def name (spec : Specification) : String := spec.heading ++ " (" ++ spec.fileName ++ ")"

/-- The specification with the scenarios that are wanted, if there are any. -/
def restrict (spec : Specification) (wanted : Scenario → Bool) : Option Specification :=
  match spec.scenarios.filter wanted with
  | [] => none
  | scenarios => some { spec with scenarios := scenarios }

end Specification

/-- A list of specifications in the order in which they run. -/
abbrev Collection := List Specification

/-- The collection with the scenarios that are wanted. -/
def Collection.restrict (specs : Collection)
    (wanted : Specification → Scenario → Bool) : Collection :=
  specs.filterMap fun spec => spec.restrict (wanted spec)

/-- The scenarios whose tags satisfy an expression. -/
def Collection.selectTags (specs : Collection) (selector : Tag.Selector) : Collection :=
  specs.restrict fun spec sc => selector.selects (spec.scenarioTags sc)

/-- An argument of a run: a name with values. -/
structure RunArg where
  name : String
  value : List String
  deriving DecidableEq, Repr

/-- Reads `name=v1,v2`; the name may not be blank. -/
def RunArg.parse (s : String) : Option RunArg := do
  let (name, value) ← Text.cutAt '=' s.toList
  let name := Text.trimChars name
  if name.isEmpty then none
  else some ⟨String.ofList name, (Text.splitOn ',' value).map (String.ofList ∘ Text.trimChars)⟩

/-! ## Written form -/

/-- A scenario as a JSON value. -/
def Scenario.toJson (sc : Scenario) : Value := .object [
  ("heading", .string sc.heading), ("line", .natural sc.line.toNat), ("tags", .strings sc.tags),
  ("steps", .array (itemsToJson sc.steps))]

/-- A specification as a JSON value. -/
def Specification.toJson (spec : Specification) : Value := .object [
  ("heading", .string spec.heading), ("file_name", .string spec.fileName),
  ("tags", .strings spec.tags), ("data_table", .ofOption Table.Data.toJson spec.dataTable),
  ("scenarios", .array (spec.scenarios.map Scenario.toJson))]

/-- A run argument as a JSON value. -/
def RunArg.toJson (a : RunArg) : Value :=
  .object [("name", .string a.name), ("value", .strings a.value)]

/-- The shape of a scenario. -/
def Scenario.shape : Shape Scenario := .record ["heading", "line", "tags", "steps"] fun
  | [heading, line, tags, steps] => do
    some {
      heading := ← heading.required .string
      line := ← line.orElse .word 0
      tags := ← tags.orElse .strings []
      steps := ← steps.required (.list StepItem.shape) }
  | _ => none

/-- The shape of a specification. -/
def Specification.shape : Shape Specification :=
  .record ["heading", "file_name", "tags", "data_table", "scenarios"] fun
  | [heading, fileName, tags, dataTable, scenarios] => do
    some {
      heading := ← heading.required .string
      fileName := ← fileName.required .string
      tags := ← tags.orElse .strings []
      dataTable := ← dataTable.orElse (.option Table.Data.shape) none
      scenarios := ← scenarios.required (.list Scenario.shape) }
  | _ => none

/-- The shape of a run argument. -/
def RunArg.shape : Shape RunArg := .record ["name", "value"] fun
  | [name, value] => do some ⟨← name.required .string, ← value.required .strings⟩
  | _ => none

end SpecEngine.Item
