/-
# SpecEngine.CommandLine.Grammar -- options, values and positionals

The grammar of one level of a command line, whatever the options are. An argument that begins with
two hyphens is a long option, one that begins with a single hyphen a cluster of short ones; a value
may be attached or follow as the next argument, but an argument that looks like an option is never
the value of the option before it. After a lone `--` every argument is a positional.

A value that follows is examined late: when the next option, positional or the end of the level is
reached. So of two faults the one that is reached first is reported, and an unknown option is
reported before the faulty value in front of it.
-/

import SpecEngine.Text.Basic

namespace SpecEngine.CommandLine

/-- Why a command line is not carried out. -/
inductive Fault where
  | missingArgument
  | missingSubcommand
  | unknownSubcommand
  | unknownArgument
  | badValue
  | missingValue
  | tooManyValues
  | repeated
  /-- Help is asked for. -/
  | help
  /-- The version is asked for. -/
  | version
  /-- Nothing is asked for, and help is given. -/
  | helpForNothing
  deriving DecidableEq, Repr

/-- The name of a fault's kind. -/
def Fault.name : Fault → String
  | .missingArgument => "MissingRequiredArgument"
  | .missingSubcommand => "MissingSubcommand"
  | .unknownSubcommand => "InvalidSubcommand"
  | .unknownArgument => "UnknownArgument"
  | .badValue => "ValueValidation"
  | .missingValue => "InvalidValue"
  | .tooManyValues => "TooManyValues"
  | .repeated => "ArgumentConflict"
  | .help => "DisplayHelp"
  | .version => "DisplayVersion"
  | .helpForNothing => "DisplayHelpOnMissingArgumentOrSubcommand"

/-- The exit code of a command line that is not carried out: help and version are no failure when
they are asked for. -/
def Fault.exitCode : Fault → Nat
  | .help | .version => 0
  | _ => 2

/-- What an option does. -/
inductive Action where
  | flag
  /-- It takes one value, and may refuse it. -/
  | value (refuses : String → Option Fault)
  | help
  | version

/-- An option, or a positional, which has no short form. -/
structure Opt where
  name : String
  short : Option Char := none
  action : Action := .flag
  repeats : Bool := false

/-- The options and positionals of one level. -/
structure Level where
  options : List Opt
  positional : Option Opt := none
  subcommands : List String := []

/-- How far a level is read. -/
structure Progress where
  /-- Accepted options with their values, in order; a flag's value is empty. -/
  given : List (String × String) := []
  /-- An option or positional whose values are not examined yet. -/
  pending : Option (Opt × List String) := none
  /-- The pending option still waits for its value. -/
  waiting : Bool := false
  positionalTaken : Bool := false
  /-- A lone `--` was seen. -/
  positionalsOnly : Bool := false

namespace Progress

/-- Whether an option was given. -/
def has (p : Progress) (name : String) : Bool := p.given.any (·.1 == name)

/-- The values of an option. -/
def values (p : Progress) (name : String) : List String :=
  (p.given.filter (·.1 == name)).map (·.2)

/-- The value of an option. -/
def value? (p : Progress) (name : String) : Option String := (p.values name).head?

/-- Accepts an option with its values. -/
def accept (p : Progress) (o : Opt) (values : List String) : Except Fault Progress :=
  match o.action with
  | .help => .error .help
  | .version => .error .version
  | .flag =>
    if p.has o.name then .error .repeated else .ok { p with given := p.given ++ [(o.name, "")] }
  | .value refuses =>
    if values.isEmpty then .error .missingValue
    else if !o.repeats && p.has o.name then .error .repeated
    else match values.findSome? refuses with
      | some fault => .error fault
      | none => .ok { p with given := p.given ++ values.map fun v => (o.name, v) }

/-- Examines what is pending. -/
def settle (p : Progress) : Except Fault Progress :=
  match p.pending with
  | none => .ok p
  | some (o, values) => { p with pending := none, waiting := false }.accept o values

/-- Takes an option without values, or with an attached one. -/
def take (p : Progress) (o : Opt) (values : List String) : Except Fault Progress := do
  (← p.settle).accept o values

/-- Takes an option whose value follows. -/
def await (p : Progress) (o : Opt) : Except Fault Progress := do
  .ok { ← p.settle with pending := some (o, []), waiting := true }

end Progress

/-! ## Single arguments -/

/-- A long option with its attached value, if there is one. -/
def takeLong (level : Level) (p : Progress) (body : List Char) : Except Fault Progress :=
  let (name, attached) := match Text.cutAt '=' body with
    | some (name, value) => (String.ofList name, some (String.ofList value))
    | none => (String.ofList body, none)
  match level.options.find? (·.name == name) with
  | none => .error .unknownArgument
  | some o =>
    match o.action, attached with
    | .value _, some v => p.take o [v]
    | .value _, none => p.await o
    | _, some _ => .error .tooManyValues
    | _, none => p.take o []

/-- A cluster of short options; the first that takes a value takes the rest of the cluster. -/
def takeShort (level : Level) (p : Progress) : List Char → Except Fault Progress
  | [] => .ok p
  | c :: rest =>
    match level.options.find? (·.short == some c) with
    | none => .error .unknownArgument
    | some o =>
      match o.action with
      | .value _ =>
        match rest with
        | [] => p.await o
        | '=' :: value => p.take o [String.ofList value]
        | value => p.take o [String.ofList value]
      | _ => do takeShort level (← p.take o []) rest

/-- A positional, or an argument that nothing takes. -/
def takePositional (level : Level) (p : Progress) (arg : String) : Except Fault Progress :=
  match level.positional with
  | some o =>
    if p.positionalTaken then .error .unknownArgument
    else do
      .ok { ← p.settle with pending := some (o, [arg]), waiting := false, positionalTaken := true }
  | none =>
    if level.subcommands.isEmpty then .error .unknownArgument
    else if p.positionalsOnly && level.subcommands.contains arg then .error .unknownArgument
    else .error .unknownSubcommand

/-! ## A level -/

/-- Reads a level up to a subcommand or its end. -/
def readLevel (level : Level) (p : Progress) :
    List String → Except Fault (Progress × Option (String × List String))
  | [] => .ok (p, none)
  | arg :: rest => do
    if p.positionalsOnly then readLevel level (← takePositional level p arg) rest
    else if !p.waiting && level.subcommands.contains arg then .ok (p, some (arg, rest))
    else match arg.toList with
      | ['-', '-'] => readLevel level { p with positionalsOnly := true } rest
      | '-' :: '-' :: body => readLevel level (← takeLong level p body) rest
      | '-' :: c :: body => readLevel level (← takeShort level p (c :: body)) rest
      | _ =>
        match p.waiting, p.pending with
        | true, some (o, values) =>
          readLevel level { p with pending := some (o, values ++ [arg]), waiting := false } rest
        | _, _ => readLevel level (← takePositional level p arg) rest

end SpecEngine.CommandLine
