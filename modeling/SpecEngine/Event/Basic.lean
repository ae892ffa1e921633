/-
# SpecEngine.Event.Basic -- what a run announces

Every item that is taken up is announced when it starts and when it ends, the end together with its
result. An event names its item and the stream on which it happened.
-/

import SpecEngine.Result.Basic

namespace SpecEngine.Event

open Result (StepResult ScenarioResult SpecResult SuiteResult)

/-- What an event is about. -/
inductive Topic where
  | suiteStart | suiteEnd
  | specStart | specEnd
  | scenarioStart | scenarioEnd
  | stepStart | stepEnd
  | conceptStart | conceptEnd
  deriving DecidableEq, Repr

namespace Topic

/-- Every topic. -/
def all : List Topic :=
  [.suiteStart, .suiteEnd, .specStart, .specEnd, .scenarioStart, .scenarioEnd, .stepStart, .stepEnd,
    .conceptStart, .conceptEnd]

/-- The name of a topic. -/
def name : Topic → String
  | .suiteStart => "SuiteStart"
  | .suiteEnd => "SuiteEnd"
  | .specStart => "SpecStart"
  | .specEnd => "SpecEnd"
  | .scenarioStart => "ScenarioStart"
  | .scenarioEnd => "ScenarioEnd"
  | .stepStart => "StepStart"
  | .stepEnd => "StepEnd"
  | .conceptStart => "ConceptStart"
  | .conceptEnd => "ConceptEnd"

/-- The topic of a name. -/
def ofName? (name : String) : Option Topic := all.find? fun t => t.name == name

/-- Whether events of the topic carry a result. -/
def isEnd : Topic → Bool
  | .suiteEnd | .specEnd | .scenarioEnd | .stepEnd | .conceptEnd => true
  | _ => false

end Topic

/-- The item that an event names. -/
inductive Subject where
  | suite
  | specification (fileName heading : String)
  | scenario (fileName heading : String) (line : UInt64) (tableRow : Option Nat)
  | step (fileName text : String) (line : UInt64)
  | concept (fileName text : String) (line : UInt64)
  deriving DecidableEq, Repr

namespace Subject

/-- The subject for a specification. -/
def ofSpec (spec : Item.Specification) : Subject := .specification spec.fileName spec.heading

/-- The subject for a scenario and a table row. -/
def ofScenario (spec : Item.Specification) (sc : Item.Scenario) (row : Option Nat) : Subject :=
  .scenario spec.fileName sc.heading sc.line row

/-- The subject for a step. -/
def ofStep (fileName : String) (step : Item.Step) : Subject := .step fileName step.text step.line

/-- A subject as a JSON value. -/
def toJson : Subject → Json.Value
  | .suite => .object [("kind", .string "suite")]
  | .specification fileName heading => .object [("kind", .string "specification"),
      ("file_name", .string fileName), ("heading", .string heading)]
  | .scenario fileName heading line row => .object [("kind", .string "scenario"),
      ("file_name", .string fileName), ("heading", .string heading),
      ("line", .natural line.toNat), ("table_row", .ofOption .natural row)]
  | .step fileName text line => .object [("kind", .string "step"),
      ("file_name", .string fileName), ("text", .string text), ("line", .natural line.toNat)]
  | .concept fileName text line => .object [("kind", .string "concept"),
      ("file_name", .string fileName), ("text", .string text), ("line", .natural line.toNat)]

end Subject

/-- The result that an end carries. -/
inductive Outcome where
  | step (r : StepResult)
  | scenario (r : ScenarioResult)
  | spec (r : SpecResult)
  | suite (r : SuiteResult)
  deriving Repr

/-- An event with its result, if it ends something. -/
structure Announcement where
  topic : Topic
  subject : Subject
  outcome : Option Outcome := none
  stream : Nat := 0
  deriving Repr

end SpecEngine.Event
