/-
# SpecEngine.Config.LogLevel -- how much is logged

The five levels and their words. A level is asked for on the command line, or by its being verbose,
or in the environment, in this order; a word in the environment that is no level is passed over.
-/

import SpecEngine.Text.Basic
import SpecEngine.Text.Lower

namespace SpecEngine.Config

/-- A level of logging. -/
inductive LogLevel where
  | trace | debug | info | warn | error
  deriving DecidableEq, Repr, Inhabited

namespace LogLevel

/-- The name of a level. -/
def name : LogLevel → String
  | .trace => "Trace"
  | .debug => "Debug"
  | .info => "Info"
  | .warn => "Warn"
  | .error => "Error"

/-- The name of a level as log lines show it. -/
def mark : LogLevel → String
  | .trace => "TRACE"
  | .debug => "DEBUG"
  | .info => "INFO"
  | .warn => "WARN"
  | .error => "ERROR"

/-- Reads the word for a level; a word that is none comes back in small letters. -/
def parse (s : String) : Except String LogLevel :=
  let word := Text.lower (Text.trim s)
  if word = "trace" then .ok .trace
  else if word = "debug" then .ok .debug
  else if word = "info" then .ok .info
  else if word = "warn" || word = "warning" then .ok .warn
  else if word = "error" then .ok .error
  else .error word

/-- The text about a word that is no level. -/
def unknownText (word : String) : String := "unknown log level '" ++ word ++ "'"

/-- The level in effect. -/
def effective (asked : Option LogLevel) (verbose : Bool) (environment : Option String) : LogLevel :=
  match asked with
  | some level => level
  | none =>
    if verbose then .debug
    else ((environment.bind fun word => (parse word).toOption)).getD .info

end LogLevel

end SpecEngine.Config
