/-
# SpecEngine.Runner.Command -- the command that starts a runner

A command line is cut at its blanks; nothing quotes a blank. The first piece is the program, and a
line of blanks only is no command.
-/

import SpecEngine.Text.Basic
import SpecEngine.Json.Value

namespace SpecEngine.Runner

/-- A program with its arguments and the directory in which it is started. -/
structure Command where
  program : String
  args : List String := []
  directory : Option String := none
  deriving DecidableEq, Repr

namespace Command

/-- Reads a command line. -/
def parse (line : String) : Option Command :=
  match (Text.words line.toList).map String.ofList with
  | [] => none
  | program :: args => some { program := program, args := args }

/-- The command started in a directory. -/
def inDirectory (c : Command) (directory : String) : Command :=
  { c with directory := some directory }

/-- A command as a JSON value. -/
def toJson (c : Command) : Json.Value := .object [
  ("program", .string c.program), ("args", .strings c.args),
  ("working_dir", .ofOption .string c.directory)]

end Command

end SpecEngine.Runner
