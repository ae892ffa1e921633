/-
# SpecEngine.Table.Csv -- tables out of comma-separated text

The first record gives the headers. Fields are separated by commas and records end with a line feed
or a carriage return; records that are empty lines are passed over. A field that begins with a quote
runs to its closing quote, in which two quotes stand for one; what follows the closing quote belongs
to the field. Fields lose their outer blanks, quoted or not, and the text a byte order mark at its
start.

Every record must have as many fields as the headers. A fault tells where the reader stood before
the record: the record's number, the line and the byte. A carriage return ends a record by itself,
so the line feed after it counts as the beginning of what comes next.
-/

import SpecEngine.Table.Data
import SpecEngine.Text.Basic

namespace SpecEngine.Table

/-- What the reader of a record is inside of. -/
inductive CsvState where
  /-- At the start of a record. -/
  | record
  /-- At the start of a record, after a carriage return. -/
  | afterReturn
  /-- At the start of a field. -/
  | field
  | plain
  | quoted
  /-- After a quote inside a quoted field. -/
  | quote
  deriving DecidableEq, Repr

/-- Where the reader stands. -/
structure CsvPosition where
  record : Nat := 0
  line : Nat := 1
  byte : Nat := 0
  deriving DecidableEq, Repr

/-- A record with the position before it. -/
structure CsvRecord where
  start : CsvPosition
  fields : List String
  deriving DecidableEq, Repr

/-- A reader in the middle of a text; the current field and the fields before it are in reverse. -/
structure CsvReader where
  state : CsvState := .record
  here : CsvPosition := {}
  start : CsvPosition := {}
  field : List Char := []
  fields : List String := []
  records : List CsvRecord := []

namespace CsvReader

/-- Ends the current field. -/
def endField (r : CsvReader) : CsvReader :=
  { r with
    state := .field
    field := []
    fields := String.ofList (Text.trimChars r.field.reverse) :: r.fields }

/-- Ends the current record after the character that closes it. -/
def endRecord (r : CsvReader) (next : CsvState) : CsvReader :=
  let r := r.endField
  let here := { r.here with record := r.here.record + 1 }
  { r with
    state := next
    here := here
    start := here
    fields := []
    records := ⟨r.start, r.fields.reverse⟩ :: r.records }

/-- Takes a character outside quotes. -/
def takeOpen (r : CsvReader) (c : Char) : CsvReader :=
  if c = ',' then r.endField
  else if c = '\r' then r.endRecord .afterReturn
  else if c = '\n' then r.endRecord .record
  else { r with state := .plain, field := c :: r.field }

/-- Takes a character at the start of a field. -/
def takeFirst (r : CsvReader) (c : Char) : CsvReader :=
  if c = '"' then { r with state := .quoted } else r.takeOpen c

/-- Takes one character. -/
def take (r : CsvReader) (c : Char) : CsvReader :=
  let r := { r with here := { r.here with
    line := if c = '\n' then r.here.line + 1 else r.here.line
    byte := r.here.byte + c.utf8Size } }
  match r.state with
  | .record => if c = '\r' || c = '\n' then r else r.takeFirst c
  | .afterReturn =>
    if c = '\n' || c = '\r' then { r with state := .record } else r.takeFirst c
  | .field => r.takeFirst c
  | .plain => r.takeOpen c
  | .quoted => if c = '"' then { r with state := .quote } else { r with field := c :: r.field }
  | .quote => if c = '"' then { r with state := .quoted, field := c :: r.field } else r.takeOpen c

/-- Ends the text. -/
def finish (r : CsvReader) : List CsvRecord :=
  match r.state with
  | .record | .afterReturn => r.records.reverse
  | _ => (r.endRecord .record).records.reverse

end CsvReader

/-- The records of a text. -/
def csvRecords (cs : List Char) : List CsvRecord :=
  let bomSize := (Char.ofNat 0xFEFF).utf8Size
  match cs with
  | c :: rest =>
    if c = Char.ofNat 0xFEFF then
      (rest.foldl CsvReader.take { here := { byte := bomSize } }).finish
    else (cs.foldl CsvReader.take {}).finish
  | [] => []

/-- A record with another number of fields than the headers. -/
structure CsvFault where
  start : CsvPosition
  found : Nat
  expected : Nat
  deriving DecidableEq, Repr

/-- The text of a fault. -/
def CsvFault.text (f : CsvFault) : String :=
  let number := Text.Decimal.text
  "CSV error: record " ++ number f.start.record ++ " (line: " ++ number f.start.line ++
    ", byte: " ++ number f.start.byte ++ "): found record with " ++ number f.found ++
    " fields, but the previous record has " ++ number f.expected ++ " fields"

/-- The rows that records hold, if every record has the expected number of fields. -/
def csvRows (expected : Nat) : List CsvRecord → Except CsvFault (List (List String))
  | [] => .ok []
  | r :: rest =>
    if r.fields.length = expected then (csvRows expected rest).map (r.fields :: ·)
    else .error ⟨r.start, r.fields.length, expected⟩

/-- The table that a text spells; a blank text spells the empty table. -/
def Data.ofCsv (s : String) : Except CsvFault Data :=
  if Text.isBlankText s then .ok ⟨[], []⟩
  else match csvRecords s.toList with
    | [] => .ok ⟨[], []⟩
    | header :: rest => (csvRows header.fields.length rest).map (⟨header.fields, ·⟩)

end SpecEngine.Table
