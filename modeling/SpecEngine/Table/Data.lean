/-
# SpecEngine.Table.Data -- data tables

A data table has headers and rows of cells. Nothing makes its rows as wide as its headers: a column
of a ragged table has empty cells where a row is too short. Before a table drives scenarios its rows
are resolved, which refuses the first row of another width; a resolved row gives a cell by its
header, and where a header repeats the last cell counts.
-/

import SpecEngine.Json.Shape

namespace SpecEngine.Table

/-- Headers and rows of cells. -/
structure Data where
  headers : List String
  rows : List (List String) := []
  deriving DecidableEq, Repr, Inhabited

/-- The number of rows. -/
def Data.rowCount (t : Data) : Nat := t.rows.length

/-- Whether the table has no columns. -/
def Data.isEmpty (t : Data) : Bool := t.headers.isEmpty

/-- The cells of the first column with a header, top to bottom. -/
def Data.column? (t : Data) (header : String) : Option (List String) :=
  (t.headers.findIdx? (· == header)).map fun i => t.rows.map fun row => row.getD i ""

/-- A row whose cells are known by their headers. -/
structure Row where
  /-- The position in the table, counted from zero. -/
  index : Nat
  cells : List (String × String)
  deriving DecidableEq, Repr

/-- The cell under a header; the last one if the header repeats. -/
def Row.get? (row : Row) (header : String) : Option String :=
  (row.cells.reverse.find? (·.1 == header)).map (·.2)

/-- A row of another width than the headers. -/
structure WidthFault where
  /-- The number of the row, counted from one. -/
  row : Nat
  expected : Nat
  found : Nat
  deriving DecidableEq, Repr

/-- Resolves rows that start at a position. -/
def resolveRows (headers : List String) : Nat → List (List String) → Except WidthFault (List Row)
  | _, [] => .ok []
  | index, cells :: rest =>
    if cells.length = headers.length then do
      let rows ← resolveRows headers (index + 1) rest
      .ok (⟨index, headers.zip cells⟩ :: rows)
    else .error ⟨index + 1, headers.length, cells.length⟩

/-- The rows of a table with their cells by header. -/
def Data.resolve (t : Data) : Except WidthFault (List Row) := resolveRows t.headers 0 t.rows

/-! ## Written form -/

/-- A table as a JSON value. -/
def Data.toJson (t : Data) : Json.Value :=
  .object [("headers", .strings t.headers), ("rows", .array (t.rows.map .strings))]

/-- The shape of a table; rows may be left out. -/
def Data.shape : Json.Shape Data := .record ["headers", "rows"] fun
  | [headers, rows] => do
    some { headers := ← headers.required .strings, rows := ← rows.orElse (.list .strings) [] }
  | _ => none

end SpecEngine.Table
