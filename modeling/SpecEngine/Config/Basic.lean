/-
# SpecEngine.Config.Basic -- the configuration of a run

One record holds everything that a run can be told. It is put together from defaults, the project's
configuration file, the environment and the command line, each of which may replace single fields.
By default there are as many streams as processors. The record also knows which scenarios may be
attempted more than once.
-/

import SpecEngine.Item.Spec
import SpecEngine.Table.Rows

namespace SpecEngine.Config

open Json (Shape Value)

/-- How specifications are handed to parallel streams. -/
inductive Strategy where
  /-- In contiguous groups, before the streams start. -/
  | eager
  /-- One by one, whenever a stream is ready for the next. -/
  | lazy
  deriving DecidableEq, Repr, Inhabited

/-- The word for a strategy. -/
def Strategy.word : Strategy → String
  | .eager => "eager"
  | .lazy => "lazy"

/-- Why a configuration is refused. -/
inductive Fault where
  | invalidStreamCount
  | invalidRows (e : Table.InvalidRows)
  | invalidTags (e : Tag.Invalid)
  | unknownStrategy (word : String)
  /-- A selected row, counted from one, that a table does not have. -/
  | rowOutOfRange (spec : String) (row available : Nat)
  deriving DecidableEq, Repr

/-- The text of a fault. -/
def Fault.text : Fault → String
  | .invalidStreamCount => "number of streams must be at least 1"
  | .invalidRows e => "invalid table rows '" ++ e.source ++ "': " ++ e.fault.message
  | .invalidTags e => "invalid tag expression '" ++ e.source ++ "': " ++ e.fault.message
  | .unknownStrategy word =>
    "unknown distribution strategy '" ++ word ++ "' (expected eager or lazy)"
  | .rowOutOfRange spec row available =>
    "table row " ++ Text.Decimal.text row ++ " is out of range for " ++ spec ++ ", which has " ++
      Text.Decimal.text available ++ " rows"

/-- Reads the word for a strategy; case and outer blanks do not matter. -/
def Strategy.parse (s : String) : Except Fault Strategy :=
  let word := Text.lower (Text.trim s)
  if word = "eager" then .ok .eager
  else if word = "lazy" then .ok .lazy
  else .error (.unknownStrategy word)

/-- Reads a tag expression. -/
def readTags (s : String) : Except Fault Tag.Selector :=
  (Tag.Selector.parse s).mapError .invalidTags

/-- Reads a selection of rows. -/
def readRows (s : String) : Except Fault Table.Rows := (Table.Rows.parse s).mapError .invalidRows

/-- The configuration of a run. -/
structure Settings where
  projectRoot : String := "."
  parallel : Bool := false
  /-- One, where the number of processors is not known. -/
  streams : Nat := 1
  strategy : Strategy := .eager
  /-- How often a failing scenario is attempted at most. -/
  maxAttempts : Nat := 1
  /-- Only these scenarios are attempted again. -/
  retryOnly : Option Tag.Selector := none
  /-- Only these scenarios are run. -/
  tags : Option Tag.Selector := none
  /-- Only these rows of data tables are run. -/
  rows : Option Table.Rows := none
  runnerTimeoutMs : Nat := 30000
  runnerCommand : Option String := none
  runnerMultithreaded : Bool := false
  deriving DecidableEq, Repr, Inhabited

namespace Settings

/-- The defaults on a machine with so many processors; where their number is not known it is one. -/
def initial (processors : Nat) : Settings := { streams := max processors 1 }

/-- Refuses a configuration without streams. -/
def validate (c : Settings) : Except Fault Unit :=
  if c.streams = 0 then .error .invalidStreamCount else .ok ()

/-- Whether a scenario with these tags may be attempted more than once. -/
def allowsRetry (c : Settings) (tags : List String) : Bool :=
  c.maxAttempts > 1 && (c.retryOnly.map fun s => s.selects tags).getD true

/-! ## Written form -/

/-- The configuration as a JSON value. -/
def toJson (c : Settings) : Value := .object [
  ("project_root", .string c.projectRoot), ("parallel", .bool c.parallel),
  ("number_of_streams", .natural c.streams), ("strategy", .string c.strategy.word),
  ("max_retries_count", .natural c.maxAttempts),
  ("retry_only_tags", .ofOption (fun s => .string s.source) c.retryOnly),
  ("tags_to_filter", .ofOption (fun s => .string s.source) c.tags),
  ("table_rows", .ofOption (fun r => .string r.text) c.rows),
  ("runner_timeout_ms", .natural c.runnerTimeoutMs),
  ("runner_command", .ofOption .string c.runnerCommand),
  ("runner_multithreaded", .bool c.runnerMultithreaded)]

/-- The names of the fields. -/
def fieldNames : List String :=
  ["project_root", "parallel", "number_of_streams", "strategy", "max_retries_count",
    "retry_only_tags", "tags_to_filter", "table_rows", "runner_timeout_ms", "runner_command",
    "runner_multithreaded"]

/-- The shape of a tag expression. -/
def tagsShape : Shape Tag.Selector := .parsed fun s => (Tag.Selector.parse s).toOption

/-- The shape of a selection of rows. -/
def rowsShape : Shape Table.Rows := .parsed fun s => (Table.Rows.parse s).toOption

/-- The shape of a strategy: its exact word. -/
def strategyShape : Shape Strategy :=
  .name [(Strategy.word .eager, .eager), (Strategy.word .lazy, .lazy)]

/-- The shape of a configuration; every field may be left out and is then taken from `d`. -/
def shape (d : Settings := {}) : Shape Settings := .record fieldNames fun
  | [projectRoot, parallel, streams, strategy, maxAttempts, retryOnly, tags, rows, timeout, command,
      multithreaded] => do
    some {
      projectRoot := ← projectRoot.orElse .string d.projectRoot
      parallel := ← parallel.orElse .bool d.parallel
      streams := ← streams.orElse .nat64 d.streams
      strategy := ← strategy.orElse strategyShape d.strategy
      maxAttempts := ← maxAttempts.orElse (.below Text.Decimal.limit32) d.maxAttempts
      retryOnly := ← retryOnly.orElse (.option tagsShape) d.retryOnly
      tags := ← tags.orElse (.option tagsShape) d.tags
      rows := ← rows.orElse (.option rowsShape) d.rows
      runnerTimeoutMs := ← timeout.orElse .nat64 d.runnerTimeoutMs
      runnerCommand := ← command.orElse (.option .string) d.runnerCommand
      runnerMultithreaded := ← multithreaded.orElse .bool d.runnerMultithreaded }
  | _ => none

end Settings

end SpecEngine.Config
