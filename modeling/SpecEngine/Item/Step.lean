/-
# SpecEngine.Item.Step -- steps and concepts

A step is a text with arguments. A concept is a named group of steps that is written as one step;
its parts may be concepts again. `flatten` reads an item as the plain steps that it stands for, in
the order in which they run.
-/

import SpecEngine.Table.Data

namespace SpecEngine.Item

open Json (Shape Value)

/-- An argument as it is written in a specification. -/
inductive Arg where
  /-- A literal value. -/
  | static (value : String)
  /-- The cell of the current table row under this header. -/
  | dynamic (column : String)
  /-- A `kind:value` token, resolved by the kind. -/
  | special (token : String)
  /-- An inline table. -/
  | table (t : Table.Data)
  deriving DecidableEq, Repr

/-- A step as it is handed to a runner. -/
structure Step where
  text : String
  line : UInt64 := 0
  args : List Arg := []
  deriving DecidableEq, Repr

/-- A step, or a concept with its own items. -/
inductive StepItem where
  | step (s : Step)
  | concept (text : String) (line : UInt64) (steps : List StepItem)
  deriving Repr

namespace StepItem

/-- The text of a step or concept. -/
def text : StepItem → String
  | .step s => s.text
  | .concept text _ _ => text

/-- The line of a step or concept. -/
def line : StepItem → UInt64
  | .step s => s.line
  | .concept _ line _ => line

mutual
/-- The plain steps of an item, in order. -/
def flatten : StepItem → List Step
  | .step s => [s]
  | .concept _ _ steps => flattenAll steps
/-- The plain steps of a list of items, in order. -/
def flattenAll : List StepItem → List Step
  | [] => []
  | item :: rest => item.flatten ++ flattenAll rest
end

end StepItem

/-- Whether an argument refers to a table column. -/
def Arg.isDynamic : Arg → Bool
  | .dynamic _ => true
  | _ => false

/-- Whether an argument of a step refers to a table column. -/
def Step.usesRow (s : Step) : Bool := s.args.any Arg.isDynamic

namespace StepItem

mutual
/-- Whether a step of the item refers to a table column. -/
def usesRow : StepItem → Bool
  | .step s => s.usesRow
  | .concept _ _ steps => anyUsesRow steps
/-- Whether a step of one of the items refers to a table column. -/
def anyUsesRow : List StepItem → Bool
  | [] => false
  | item :: rest => item.usesRow || anyUsesRow rest
end

end StepItem

/-! ## Written form -/

/-- An argument as a JSON value. -/
def Arg.toJson : Arg → Value
  | .static v => .object [("type", .string "static"), ("value", .string v)]
  | .dynamic v => .object [("type", .string "dynamic"), ("value", .string v)]
  | .special v => .object [("type", .string "special"), ("value", .string v)]
  | .table t => .object [("type", .string "table"), ("value", t.toJson)]

/-- The shape of an argument: its type stands beside its value. -/
def Arg.shape : Shape Arg := .beside "type" "value" [
  ("static", fun scope v => (Shape.string scope v).map .static),
  ("dynamic", fun scope v => (Shape.string scope v).map .dynamic),
  ("special", fun scope v => (Shape.string scope v).map .special),
  ("table", fun scope v => (Table.Data.shape scope v).map .table)]

/-- The shape of a step without its tag. -/
def Step.shape : Shape Step := .record ["text", "line", "args"] fun
  | [text, line, args] => do
    some {
      text := ← text.required .string
      line := ← line.orElse .word 0
      args := ← args.orElse (.list Arg.shape) [] }
  | _ => none

mutual
/-- An item as a JSON value. -/
def StepItem.toJson : StepItem → Value
  | .step s => .object [("kind", .string "step"), ("text", .string s.text),
      ("line", .natural s.line.toNat), ("args", .array (s.args.map Arg.toJson))]
  | .concept text line steps => .object [("kind", .string "concept"), ("text", .string text),
      ("line", .natural line.toNat), ("steps", .array (itemsToJson steps))]
/-- Items as JSON values. -/
def itemsToJson : List StepItem → List Value
  | [] => []
  | item :: rest => item.toJson :: itemsToJson rest
end

/-- The shape of an item, with concepts nested to a given depth. Each level of concepts opens two
containers, so no readable value nests deeper than the container limit. -/
def StepItem.shapeTo : Nat → Shape StepItem
  | 0 => fun _ _ => none
  | depth + 1 => .tagged "kind" [
    ("step", fun scope v => (Step.shape scope v).map .step),
    ("concept", .record ["text", "line", "steps"] fun
      | [text, line, steps] => do
        some (.concept (← text.required .string) (← line.orElse .word 0)
          (← steps.required (.list (shapeTo depth))))
      | _ => none)]

/-- The shape of an item, told by its kind. -/
def StepItem.shape : Shape StepItem := shapeTo 128

end SpecEngine.Item
