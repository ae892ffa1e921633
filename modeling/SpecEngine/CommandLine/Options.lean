/-
# SpecEngine.CommandLine.Options -- the commands and their options

The four commands with their options as typed records, and what the options of `run` and `validate`
change in the configuration. Two options hold for every command and may stand before or after its
name; where both places name a log level, the one after the name counts.
-/

import SpecEngine.CommandLine.Grammar
import SpecEngine.Config.Environment
import SpecEngine.Config.LogLevel

namespace SpecEngine.CommandLine

open Config (Settings Strategy Change LogLevel)
open Item (RunArg)

/-- Options of the commands that talk to a runner. -/
structure ProjectOptions where
  projectRoot : String := "."
  runner : Option String := none
  runnerTimeout : Option Nat := none
  deriving DecidableEq, Repr

/-- Options of `run`. -/
structure RunOptions where
  tree : String
  project : ProjectOptions := {}
  parallel : Bool := false
  streams : Option Nat := none
  strategy : Option Strategy := none
  tags : Option String := none
  maxAttempts : Option Nat := none
  retryOnly : Option String := none
  rows : Option String := none
  failed : Bool := false
  args : List RunArg := []
  deriving DecidableEq, Repr

/-- A command. -/
inductive Command where
  | run (o : RunOptions)
  | validate (tree : String) (o : ProjectOptions)
  | status (projectRoot : String) (json : Bool)
  | environment
  deriving DecidableEq, Repr

/-- A command with the options that hold for every command. -/
structure Invocation where
  command : Command
  verbose : Bool
  logLevel : Option LogLevel
  deriving DecidableEq, Repr

/-! ## Values -/

/-- Reads a 32-bit number, which may be a zero with a minus sign. -/
def readCount (s : String) : Option Nat :=
  match s.toList with
  | '-' :: cs => (Text.Decimal.read cs).filter (· == 0)
  | cs => Text.Decimal.readBelow Text.Decimal.limit32 cs

/-- Reads a 64-bit number. -/
def readNumber (s : String) : Option Nat := Text.Decimal.readBelow Text.Decimal.limit64 s.toList

/-- Refuses values that a reading does not take. -/
def needs {α : Type} (read : String → Option α) (v : String) : Option Fault :=
  if (read v).isSome then none else some .badValue

/-- Takes any text. -/
def anyText : Action := .value fun _ => none

/-- Takes a path, which may not be empty. -/
def path : Action := .value fun v => if v.isEmpty then some .missingValue else none

/-! ## Levels -/

/-- The options that hold for every command. -/
def globalOptions : List Opt := [
  { name := "verbose", short := some 'v' },
  { name := "log-level", action := .value (needs fun v => (LogLevel.parse v).toOption) },
  { name := "help", short := some 'h', action := .help }]

/-- The options of the commands that talk to a runner. -/
def projectOptions : List Opt := [
  { name := "project-root", action := path },
  { name := "runner", action := anyText },
  { name := "runner-timeout", action := .value (needs readNumber) }]

/-- The item tree of a run. -/
def treeArgument : Opt := { name := "tree", action := path }

/-- The level before the command's name. -/
def topLevel : Level where
  options := globalOptions ++ [{ name := "version", short := some 'V', action := .version }]
  subcommands := ["run", "validate", "status", "env", "help"]

/-- The level of a command. -/
def levelOf (command : String) : Level :=
  if command = "run" then
    { positional := some treeArgument
      options := globalOptions ++ projectOptions ++ [
        { name := "parallel", short := some 'p' },
        { name := "streams", short := some 'n', action := .value (needs readNumber) },
        { name := "strategy", action := .value (needs fun v => (Strategy.parse v).toOption) },
        { name := "tags", action := anyText },
        { name := "max-retries-count", action := .value (needs readCount) },
        { name := "retry-only", action := anyText },
        { name := "table-rows", action := anyText },
        { name := "failed" },
        { name := "env", action := .value (needs RunArg.parse), repeats := true }] }
  else if command = "validate" then
    { positional := some treeArgument, options := globalOptions ++ projectOptions }
  else if command = "status" then
    { options := globalOptions ++ [{ name := "project-root", action := path }, { name := "json" }] }
  else { options := globalOptions }

/-! ## Commands -/

/-- The project options of a level that was read. -/
def projectOf (p : Progress) : ProjectOptions where
  projectRoot := (p.value? "project-root").getD "."
  runner := p.value? "runner"
  runnerTimeout := (p.value? "runner-timeout").bind readNumber

/-- The command of a level that was read. -/
def commandOf (name : String) (p : Progress) : Except Fault Command :=
  if name = "run" then
    match p.value? "tree" with
    | none => .error .missingArgument
    | some tree => .ok (.run {
        tree := tree
        project := projectOf p
        parallel := p.has "parallel"
        streams := (p.value? "streams").bind readNumber
        strategy := (p.value? "strategy").bind fun v => (Strategy.parse v).toOption
        tags := p.value? "tags"
        maxAttempts := (p.value? "max-retries-count").bind readCount
        retryOnly := p.value? "retry-only"
        rows := p.value? "table-rows"
        failed := p.has "failed"
        args := (p.values "env").filterMap RunArg.parse })
  else if name = "validate" then
    match p.value? "tree" with
    | none => .error .missingArgument
    | some tree => .ok (.validate tree (projectOf p))
  else if name = "status" then
    .ok (.status ((p.value? "project-root").getD ".") (p.has "json"))
  else .ok .environment

/-- Asks for the help of a command; only the names of commands may follow. -/
def helpFor : List String → Fault
  | [] => .help
  | [name] => if topLevel.subcommands.contains name then .help else .unknownSubcommand
  | _ => .unknownSubcommand

/-- Reads a command line without the program's name. -/
def Invocation.parse (args : List String) : Except Fault Invocation := do
  match ← readLevel topLevel {} args with
  | (p, none) =>
    let p ← p.settle
    .error (if p.given.isEmpty then .helpForNothing else .missingSubcommand)
  | (top, some (name, rest)) =>
    if name = "help" then .error (helpFor rest)
    else do
      let (sub, _) ← readLevel (levelOf name) {} rest
      let sub ← sub.settle
      let command ← commandOf name sub
      let top ← top.settle
      let level := (sub.value? "log-level").or (top.value? "log-level")
      .ok {
        command := command
        verbose := top.has "verbose" || sub.has "verbose"
        logLevel := level.bind fun v => (LogLevel.parse v).toOption }

/-! ## What options change -/

/-- Applies the project options. -/
def ProjectOptions.apply (o : ProjectOptions) (c : Settings) : Settings :=
  { c with
    runnerCommand := o.runner.or c.runnerCommand
    runnerTimeoutMs := o.runnerTimeout.getD c.runnerTimeoutMs }

/-- Applies the options of `run` in order; a faulty text stops what comes after it. -/
def RunOptions.apply (o : RunOptions) (c : Settings) : Change :=
  Change.read o.rows Config.readRows (fun c v => { c with rows := some v }) <|
  Change.read o.retryOnly Config.readTags (fun c v => { c with retryOnly := some v }) <|
  Change.set o.maxAttempts (fun c v => { c with maxAttempts := v }) <|
  Change.read o.tags Config.readTags (fun c v => { c with tags := some v }) <|
  Change.set o.strategy (fun c v => { c with strategy := v }) <|
  Change.set o.streams (fun c v => { c with streams := v }) <|
  Change.set (if o.parallel then some true else none) (fun c v => { c with parallel := v })
    (o.project.apply c, none)

end SpecEngine.CommandLine
