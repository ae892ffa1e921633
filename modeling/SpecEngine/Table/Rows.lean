/-
# SpecEngine.Table.Rows -- selections of table rows

A selection is written as row numbers and ranges, counted from one (`1,3-5`), and held as ascending
ranges of positions counted from zero with a gap between neighbours. That form is canonical: two
texts give the same ranges exactly when they select the same rows. A row number is below 2^64, so
positions are below 2^64 - 1 and the successor of an end is still a 64-bit number.
-/

import SpecEngine.Text.Basic
import SpecEngine.Text.Decimal

namespace SpecEngine.Table

/-- Why a text selects no rows. -/
inductive RowFault where
  | emptyPart
  | notANumber (text : String)
  | zero
  | descending (first last : Nat)
  deriving DecidableEq, Repr

/-- The text of a fault. -/
def RowFault.message : RowFault → String
  | .emptyPart => "empty row selection"
  | .notANumber text => "'" ++ text ++ "' is not a row number"
  | .zero => "row numbers start at 1"
  | .descending first last =>
    "range " ++ Text.Decimal.text first ++ "-" ++ Text.Decimal.text last ++ " is descending"

/-- Selected rows: ranges of positions, both ends included. -/
structure Rows where
  ranges : List (Nat × Nat)
  deriving DecidableEq, Repr

/-- A text that selects no rows. -/
structure InvalidRows where
  source : String
  fault : RowFault
  deriving DecidableEq, Repr

/-! ## Reading -/

/-- Reads a row number. -/
def readRow (cs : List Char) : Except RowFault Nat :=
  match Text.Decimal.readBelow Text.Decimal.limit64 (Text.trimChars cs) with
  | none => .error (.notANumber (String.ofList (Text.trimChars cs)))
  | some 0 => .error .zero
  | some n => .ok n

/-- Reads a row number or a range, as positions. -/
def readPart (cs : List Char) : Except RowFault (Nat × Nat) :=
  let part := Text.trimChars cs
  if part.isEmpty then .error .emptyPart
  else match Text.cutAt '-' part with
    | some (first, last) => do
      let first ← readRow first
      let last ← readRow last
      if last < first then .error (.descending first last) else .ok (first - 1, last - 1)
    | none => do
      let row ← readRow part
      .ok (row - 1, row - 1)

/-- The order in which ranges are merged: by start, then by end. -/
def rangeLe (a b : Nat × Nat) : Bool := a.1 < b.1 || (a.1 == b.1 && a.2 ≤ b.2)

/-- Joins neighbours that overlap or touch, in a list ordered by start. -/
def joinRanges : List (Nat × Nat) → List (Nat × Nat)
  | [] => []
  | [r] => [r]
  | a :: b :: rest =>
    if b.1 ≤ a.2 + 1 then joinRanges ((a.1, max a.2 b.2) :: rest) else a :: joinRanges (b :: rest)
termination_by rs => rs.length

/-- Reads a selection. -/
def Rows.parse (source : String) : Except InvalidRows Rows :=
  match (Text.splitOn ',' source.toList).mapM readPart with
  | .ok parts => .ok ⟨joinRanges (parts.mergeSort rangeLe)⟩
  | .error fault => .error ⟨source, fault⟩

/-! ## Use -/

/-- Whether a position is selected. -/
def Rows.contains (rows : Rows) (index : Nat) : Bool :=
  rows.ranges.any fun r => r.1 ≤ index && index ≤ r.2

/-- The last selected position. -/
def Rows.last? (rows : Rows) : Option Nat := rows.ranges.getLast?.map (·.2)

/-- The selected positions in order. -/
def Rows.toList (rows : Rows) : List Nat :=
  rows.ranges.flatMap fun r => List.range' r.1 (r.2 + 1 - r.1)

/-- The first positions of a list of ranges, up to a number, without listing the others. -/
def firstOf : Nat → List (Nat × Nat) → List Nat
  | _, [] => []
  | count, r :: rest =>
    let size := min count (r.2 + 1 - r.1)
    List.range' r.1 size ++ firstOf (count - size) rest

/-- The first selected positions, up to a number. -/
def Rows.first (rows : Rows) (count : Nat) : List Nat := firstOf count rows.ranges

/-- The text of a range. -/
def rangeText (r : Nat × Nat) : String :=
  if r.1 = r.2 then Text.Decimal.text (r.1 + 1)
  else Text.Decimal.text (r.1 + 1) ++ "-" ++ Text.Decimal.text (r.2 + 1)

/-- The canonical text of a selection. -/
def Rows.text (rows : Rows) : String := Text.join "," (rows.ranges.map rangeText)

end SpecEngine.Table
