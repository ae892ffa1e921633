/-
# SpecEngine.Engine.Plan -- everything a run needs

A plan is made once, from a validated configuration. It holds the collection after tag filtering,
and it is refused when a selected row is missing from a table that drives a scenario. Its resolver
reads special arguments by kinds, unless it is given another one. The number of streams never
exceeds the number of specifications.
-/

import SpecEngine.Config.Basic
import SpecEngine.Config.Manifest
import SpecEngine.Item.BuildErrors
import SpecEngine.Special.Arguments

namespace SpecEngine.Engine

open Item (Collection BuildErrors RunArg Specification)
open Config (Settings Manifest)

/-- Everything a run needs apart from its runners. -/
structure Plan where
  manifest : Manifest
  specs : Collection
  settings : Settings
  resolver : Special.Resolver := ({} : Special.Kinds).resolver
  buildErrors : BuildErrors := {}
  args : List RunArg := []

/-- The fault of a specification whose table lacks a selected row. -/
def rowFault (last : Nat) (spec : Specification) : Option Config.Fault :=
  match spec.dataTable with
  | none => none
  | some t =>
    if spec.scenarios.any (·.usesTable) && t.rowCount ≤ last then
      some (.rowOutOfRange spec.fileName (last + 1) t.rowCount)
    else none

/-- The first fault of a row selection in a collection. -/
def rowFault? (settings : Settings) (specs : Collection) : Option Config.Fault :=
  (settings.rows.bind Table.Rows.last?).bind fun last => specs.findSome? (rowFault last)

namespace Plan

/-- Makes a plan. -/
def make (manifest : Manifest) (specs : Collection) (settings : Settings) (kinds : Special.Kinds) :
    Except Config.Fault Plan := do
  settings.validate
  let specs := match settings.tags with
    | some selector => specs.selectTags selector
    | none => specs
  match rowFault? settings specs with
  | some fault => .error fault
  | none =>
    .ok { manifest := manifest, specs := specs, settings := settings, resolver := kinds.resolver }

/-- The number of streams that are started. -/
def streamCount (plan : Plan) : Nat :=
  if plan.settings.parallel then max (min plan.settings.streams plan.specs.length) 1 else 1

/-- The specifications with their positions. -/
def indexed (plan : Plan) : List (Nat × Specification) :=
  plan.specs.zipIdx.map fun (spec, i) => (i, spec)

/-- The plan as a debugging text. -/
def debugText (plan : Plan) : String :=
  "ExecutionInfo \x7b manifest: " ++ plan.manifest.debugText ++
    ", specs: " ++ Text.Decimal.text plan.specs.length ++
    ", parallel: " ++ (if plan.settings.parallel then "true" else "false") ++
    ", streams: " ++ Text.Decimal.text plan.streamCount ++
    ", strategy: " ++ (match plan.settings.strategy with
      | .eager => "Eager"
      | .lazy => "Lazy") ++ " \x7d"

end Plan

end SpecEngine.Engine
