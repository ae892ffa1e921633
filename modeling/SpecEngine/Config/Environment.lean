/-
# SpecEngine.Config.Environment -- what the environment overrides

Ten variables override fields of the configuration or set the log level. A blank value counts as no
value. Numbers that cannot be read count as no value too; expressions, rows and the strategy are
kept as texts and read when they are applied, one after the other, up to the first that is faulty.
-/

import SpecEngine.Config.Basic

namespace SpecEngine.Config

/-- A reading of variables by their names without the common beginning. -/
abbrev Lookup := String → Option String

/-- Overrides of the configuration. -/
structure Overrides where
  parallel : Option Bool := none
  streams : Option Nat := none
  strategy : Option String := none
  maxAttempts : Option Nat := none
  retryOnly : Option String := none
  tags : Option String := none
  rows : Option String := none
  runner : Option String := none
  runnerTimeoutMs : Option Nat := none
  logLevel : Option String := none
  deriving DecidableEq, Repr

/-- The beginning of every variable's name. -/
def variableStart : String := "STEPRUN_"

/-- The variables by their names without the common beginning. -/
def variableNames : List String :=
  ["PARALLEL", "STREAMS", "STRATEGY", "MAX_RETRIES_COUNT", "RETRY_ONLY", "TAGS", "TABLE_ROWS",
    "RUNNER", "RUNNER_TIMEOUT_MS", "LOG_LEVEL"]

/-- The lookup of an environment given as names with values; of two values the first counts. -/
def lookupIn (pairs : List (String × String)) : Lookup := fun name =>
  (pairs.find? (·.1 == variableStart ++ name)).map (·.2)

/-- The value of a variable that is not blank. -/
def nonBlank (lookup : Lookup) (name : String) : Option String :=
  (lookup name).filter fun v => !Text.isBlankText v

/-- The value of a variable that is a number below a limit. -/
def number (lookup : Lookup) (limit : Nat) (name : String) : Option Nat :=
  (nonBlank lookup name).bind fun v =>
    Text.Decimal.readBelow limit (Text.trimChars v.toList)

/-- The words that switch something on. -/
def onWords : List String := ["1", "true", "yes", "on", "enabled"]

/-- The value of a variable that switches something on or off. -/
def switch (lookup : Lookup) (name : String) : Option Bool :=
  (nonBlank lookup name).map fun v => onWords.contains (Text.lower v)

namespace Overrides

/-- The overrides of an environment. -/
def ofEnvironment (lookup : Lookup) : Overrides where
  parallel := switch lookup "PARALLEL"
  streams := number lookup Text.Decimal.limit64 "STREAMS"
  strategy := nonBlank lookup "STRATEGY"
  maxAttempts := number lookup Text.Decimal.limit32 "MAX_RETRIES_COUNT"
  retryOnly := nonBlank lookup "RETRY_ONLY"
  tags := nonBlank lookup "TAGS"
  rows := nonBlank lookup "TABLE_ROWS"
  runner := nonBlank lookup "RUNNER"
  runnerTimeoutMs := number lookup Text.Decimal.limit64 "RUNNER_TIMEOUT_MS"
  logLevel := nonBlank lookup "LOG_LEVEL"

/-- Whether anything is overridden. -/
def any (o : Overrides) : Bool :=
  o.parallel.isSome || o.streams.isSome || o.strategy.isSome || o.maxAttempts.isSome ||
    o.retryOnly.isSome || o.tags.isSome || o.rows.isSome || o.runner.isSome ||
    o.runnerTimeoutMs.isSome || o.logLevel.isSome

end Overrides

/-! ## Applying overrides -/

/-- A configuration on the way to another, with the fault that stopped it. -/
abbrev Change := Settings × Option Fault

/-- A change that never fails. -/
def Change.set {α : Type} (value : Option α) (put : Settings → α → Settings) (c : Change) :
    Change :=
  match c.2, value with
  | none, some v => (put c.1 v, none)
  | _, _ => c

/-- A change by a text that has to be read; a faulty text stops this and all later changes. -/
def Change.read {α : Type} (value : Option String) (parse : String → Except Fault α)
    (put : Settings → α → Settings) (c : Change) : Change :=
  match c.2, value with
  | none, some v =>
    match parse v with
    | .ok a => (put c.1 a, none)
    | .error e => (c.1, some e)
  | _, _ => c

/-- Applies overrides in order. The fault, if there is one, comes with what was applied before. -/
def Settings.override (c : Settings) (o : Overrides) : Change :=
  Change.set o.runnerTimeoutMs (fun c v => { c with runnerTimeoutMs := v }) <|
  Change.set o.runner (fun c v => { c with runnerCommand := some v }) <|
  Change.read o.rows readRows (fun c v => { c with rows := some v }) <|
  Change.read o.tags readTags (fun c v => { c with tags := some v }) <|
  Change.read o.retryOnly readTags (fun c v => { c with retryOnly := some v }) <|
  Change.set o.maxAttempts (fun c v => { c with maxAttempts := v }) <|
  Change.read o.strategy Strategy.parse (fun c v => { c with strategy := v }) <|
  Change.set o.streams (fun c v => { c with streams := v }) <|
  Change.set o.parallel (fun c v => { c with parallel := v }) (c, none)

/-- The help on the variables, line by line. -/
def environmentHelp : List String := [
  "Environment Variables:",
  "",
  "  STEPRUN_PARALLEL           Run specifications in parallel (true/false)",
  "  STEPRUN_STREAMS            Number of parallel streams",
  "  STEPRUN_STRATEGY           Distribution strategy (eager, lazy)",
  "  STEPRUN_MAX_RETRIES_COUNT  Attempts per failing scenario",
  "  STEPRUN_RETRY_ONLY         Tag expression scoping retries",
  "  STEPRUN_TAGS               Tag expression selecting scenarios",
  "  STEPRUN_TABLE_ROWS         Data table rows to run (e.g. 1,3-5)",
  "  STEPRUN_RUNNER             Runner command line",
  "  STEPRUN_RUNNER_TIMEOUT_MS  Runner response timeout",
  "  STEPRUN_LOG_LEVEL          Log level (trace, debug, info, warn, error)"]

end SpecEngine.Config
