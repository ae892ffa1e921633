/-
# SpecEngine.Report.Console -- the lines printed while a run goes on

A specification, a scenario and a failed step each have a line, perhaps followed by indented lines
that say why. With colours, the symbol and word of a status stand in the status's colour, and the
first line of the summary is red when the run failed.
-/

import SpecEngine.Event.Basic
import SpecEngine.Record.Status

namespace SpecEngine.Report

open Result (Status StepResult ScenarioResult SpecResult)

/-- How lines are printed. -/
structure Style where
  colors : Bool
  /-- Lines start with the number of their stream. -/
  showStream : Bool
  deriving DecidableEq, Repr

/-- The escape sequence that a colour begins with. -/
def colorOf : Status → String
  | .passed => "\x1b[32m"
  | .failed => "\x1b[31m"
  | .skipped => "\x1b[33m"

/-- The escape sequence that ends a colour. -/
def colorEnd : String := "\x1b[0m"

namespace Style

/-- The symbol and word of a status. -/
def label (style : Style) (status : Status) : String :=
  let text := status.symbol ++ " " ++ status.label
  if style.colors then colorOf status ++ text ++ colorEnd else text

/-- What stands before the lines of a stream. -/
def streamMark (style : Style) (stream : Nat) : String :=
  if style.showStream then "[stream " ++ Text.Decimal.text (stream + 1) ++ "] " else ""

/-- A duration in brackets. -/
def time (ms : UInt64) : String := "[" ++ Text.Decimal.text ms.toNat ++ "ms]"

/-- The lines of a specification. -/
def specLine (style : Style) (r : SpecResult) : String :=
  style.label r.status ++ " " ++ r.heading ++ " (" ++ r.fileName ++ ") " ++ time r.durationMs ++
    (match r.failure with
      | some f => "\n    " ++ f.message
      | none => "") ++
    String.join (r.errors.map fun e => "\n    " ++ e.text)

/-- The lines of a scenario. -/
def scenarioLine (style : Style) (r : ScenarioResult) : String :=
  "  " ++ style.label r.status ++ " " ++ r.heading ++
    (match r.tableRow with
      | some row => " (row " ++ Text.Decimal.text (row + 1) ++ ")"
      | none => "") ++
    " " ++ time r.durationMs ++
    (if r.attempts > 1 then " after " ++ Text.Decimal.text r.attempts ++ " attempts" else "") ++
    (match r.failure, r.skipReason with
      | some f, _ => "\n      " ++ f.message
      | none, some reason => if r.status = .skipped then "\n      " ++ reason else ""
      | none, none => "")

/-- The line of a step; only failed steps that are no concepts have one. -/
def stepLine? (style : Style) (r : StepResult) : Option String :=
  if r.status = .failed && !r.isConcept then
    some ("    " ++ style.label r.status ++ " " ++ Text.Decimal.text r.line.toNat ++ ":" ++
      r.text ++ " " ++ (r.failure.map (·.message)).getD "")
  else none

/-- What is printed for an event: the lines of its result, in the name of its stream. -/
def eventText? (style : Style) (e : Event.Announcement) : Option String :=
  let text := match e.topic, e.outcome with
    | .specEnd, some (.spec r) => some (style.specLine r)
    | .scenarioEnd, some (.scenario r) => some (style.scenarioLine r)
    | .stepEnd, some (.step r) => style.stepLine? r
    | _, _ => none
  text.map fun text => style.streamMark e.stream ++ text

/-- The account of a run, where the sum of the failure counters does not overflow. -/
def summary (style : Style) (status : Record.Status) (executionTimeMs : Nat) : String :=
  Text.join "\n" (match status.summaryLines executionTimeMs with
    | first :: rest =>
      (if style.colors && status.tellsFailure then colorOf .failed ++ first ++ colorEnd else first)
        :: rest
    | [] => [])

/-- The account of a run. With colours it depends on the sum of the failure counters, and there is
none if that overflows. -/
def summary? (style : Style) (status : Record.Status) (executionTimeMs : Nat) : Option String :=
  if style.colors && status.overflows then none else some (style.summary status executionTimeMs)

end Style

end SpecEngine.Report
