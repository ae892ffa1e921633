/-
# SpecEngine.Special.Arguments -- from arguments to parameters

A resolver gives the rows of data tables and says what special arguments stand for. A run may be
given any; the one that it has otherwise reads tables as they are and special arguments by kinds.

A special argument is a `kind:value` token. Kinds are registered under names that are compared in
small letters; of two of the same name the later one counts. `file` and `table` are there from the
start: the text of a file, and a table out of a file of comma-separated text, both by a path from
the project root. The arguments of a step are resolved in order, and the first that cannot be
resolved is the step's fault.
-/

import SpecEngine.Disk
import SpecEngine.Table.Csv
import SpecEngine.Runner.Message

namespace SpecEngine.Special

open Item (Arg)
open Runner (Parameter)

/-- What a special argument stands for. -/
inductive Meaning where
  | text (s : String)
  | table (t : Table.Data)
  deriving DecidableEq, Repr

/-- How a kind resolves a value; a failure is its reason. -/
abbrev Kind := String → Except String Meaning

/-- The registered kinds, the latest first. -/
structure Kinds where
  registered : List (String × Kind) := []

/-- Why an argument has no value. -/
inductive Fault where
  /-- The token has no colon, or a kind that is not registered. -/
  | unknownKind (token : String)
  | invalid (token reason : String)
  | unknownColumn (column : String)
  | malformedTable (fault : Table.WidthFault)
  deriving DecidableEq, Repr

/-- The text of a fault. -/
def Fault.text : Fault → String
  | .unknownKind token => "Resolver not found for special param <" ++ token ++ ">"
  | .invalid token reason => "Invalid special param <" ++ token ++ ">: " ++ reason
  | .unknownColumn column =>
    "Dynamic param <" ++ column ++ "> could not be resolved, no matching table column"
  | .malformedTable f =>
    "Malformed table at row " ++ Text.Decimal.text f.row ++ ": expected " ++
      Text.Decimal.text f.expected ++ " cells, found " ++ Text.Decimal.text f.found

/-- What gives the rows of data tables and the meaning of special arguments. -/
structure Resolver where
  /-- The rows of a table, each with its position in the table, or why there are none. -/
  rows : Table.Data → Except Fault (List Table.Row)
  meaning : String → Except Fault Meaning

namespace Resolver

/-- The parameter that an argument stands for. -/
def parameter (resolver : Resolver) (row : Option Table.Row) : Arg → Except Fault Parameter
  | .static value => .ok (.static value value)
  | .dynamic column =>
    match row.bind (·.get? column) with
    | some value => .ok (.static column value)
    | none => .error (.unknownColumn column)
  | .special token =>
    (resolver.meaning token).map fun
      | .text value => .special token value
      | .table t => .table token t
  | .table t => .ok (.table "table" t)

/-- The parameters of a step. -/
def parameters (resolver : Resolver) (row : Option Table.Row) :
    List Arg → Except Fault (List Parameter)
  | [] => .ok []
  | arg :: rest => do
    let p ← resolver.parameter row arg
    let ps ← resolver.parameters row rest
    .ok (p :: ps)

end Resolver

namespace Kinds

/-- Registers a kind. -/
def register (kinds : Kinds) (name : String) (kind : Kind) : Kinds :=
  ⟨(Text.lower name, kind) :: kinds.registered⟩

/-- The kind of a name in small letters. -/
def find? (kinds : Kinds) (name : String) : Option Kind :=
  (kinds.registered.find? (·.1 == name)).map (·.2)

/-- The kinds that are there from the start, for a project root on a disk. -/
def builtIn (disk : Disk) (projectRoot : String) : Kinds :=
  let file (value : String) : Except String String :=
    (disk.readText (Disk.join projectRoot value)).mapError DiskFault.text
  let table (value : String) : Except String Meaning := do
    ((Table.Data.ofCsv (← file value)).mapError Table.CsvFault.text).map .table
  (({} : Kinds).register "file" fun value => (file value).map .text).register "table" table

/-- Resolves a token. -/
def resolve (kinds : Kinds) (token : String) : Except Fault Meaning :=
  match Text.cutAt ':' token.toList with
  | none => .error (.unknownKind token)
  | some (name, value) =>
    match kinds.find? (Text.lower (String.ofList (Text.trimChars name))) with
    | none => .error (.unknownKind token)
    | some kind => (kind (String.ofList (Text.trimChars value))).mapError (.invalid token)

/-- The resolver that reads tables as they are and tokens by their kinds. -/
def resolver (kinds : Kinds) : Resolver where
  rows t := t.resolve.mapError .malformedTable
  meaning := kinds.resolve

/-- The parameters of a step whose special arguments are read by kinds. -/
def parameters (kinds : Kinds) : Option Table.Row → List Arg → Except Fault (List Parameter) :=
  kinds.resolver.parameters

end Kinds

end SpecEngine.Special
