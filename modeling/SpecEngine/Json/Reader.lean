/-
# SpecEngine.Json.Reader -- reading JSON texts

`parse` accepts the texts of the JSON grammar and nothing else: blanks are the four of the grammar,
numbers have no superfluous zeros, and nothing may follow the value. What it accepts is kept as it
is; whether names repeat, containers nest too deeply or numbers are out of range is for the reader
of a shape to decide. The reader of values counts down a fuel that starts at the length of the text,
which every call shortens, so the fuel of `parse` never runs out.
-/

import SpecEngine.Json.Value

namespace SpecEngine.Json

/-- The blanks of the JSON grammar. -/
def isSpace (c : Char) : Bool := c == ' ' || c == '\n' || c == '\t' || c == '\r'

/-- The text after its leading blanks. -/
def skipSpace (cs : List Char) : List Char := cs.dropWhile isSpace

/-! ## Strings -/

/-- A character of a string, or half of a surrogate pair. -/
inductive Piece where
  | char (c : Char)
  | half (unit : Nat)

/-- The value of a hexadecimal digit. -/
def hexValue? (c : Char) : Option Nat :=
  let n := c.toNat
  if 48 ≤ n && n ≤ 57 then some (n - 48)
  else if 65 ≤ n && n ≤ 70 then some (n - 55)
  else if 97 ≤ n && n ≤ 102 then some (n - 87)
  else none

/-- The piece that four hexadecimal digits name. -/
def hexPiece? (a b c d : Char) : Option Piece := do
  let n := (((← hexValue? a) * 16 + (← hexValue? b)) * 16 + (← hexValue? c)) * 16 + (← hexValue? d)
  if 0xD800 ≤ n && n < 0xE000 then some (.half n) else some (.char (Char.ofNat n))

/-- The character that a one-letter escape names. -/
def shortEscape? (c : Char) : Option Char :=
  match c with
  | '"' => some '"'
  | '\\' => some '\\'
  | '/' => some '/'
  | 'b' => some '\x08'
  | 'f' => some '\x0c'
  | 'n' => some '\n'
  | 'r' => some '\r'
  | 't' => some '\t'
  | _ => none

/-- Reads the pieces of a string up to its closing quote, after the opening one. -/
def readPieces : List Char → Option (List Piece × List Char)
  | [] => none
  | '"' :: rest => some ([], rest)
  | '\\' :: 'u' :: a :: b :: c :: d :: rest => do
    let piece ← hexPiece? a b c d
    let (pieces, rest) ← readPieces rest
    some (piece :: pieces, rest)
  | '\\' :: c :: rest => do
    let c ← shortEscape? c
    let (pieces, rest) ← readPieces rest
    some (.char c :: pieces, rest)
  | c :: rest =>
    if c.toNat < 0x20 || c = '\\' then none
    else do
      let (pieces, rest) ← readPieces rest
      some (.char c :: pieces, rest)

/-- The characters that the pieces spell, if every half meets its other half. -/
def joinPieces : List Piece → Option (List Char)
  | [] => some []
  | .char c :: rest => (joinPieces rest).map (c :: ·)
  | .half high :: .half low :: rest =>
    if high < 0xDC00 && 0xDC00 ≤ low then
      (joinPieces rest).map (Char.ofNat (0x10000 + (high - 0xD800) * 0x400 + (low - 0xDC00)) :: ·)
    else none
  | .half _ :: _ => none

/-! ## Numbers -/

/-- Whether a character is an ASCII digit. -/
def isDigit (c : Char) : Bool := (Text.Decimal.value? c).isSome

/-- Reads a whole number without superfluous zeros. -/
def readWhole (cs : List Char) : Option (List Char × List Char) :=
  match cs with
  | '0' :: rest => if (rest.head?.map isDigit).getD false then none else some (['0'], rest)
  | _ =>
    let ds := cs.takeWhile isDigit
    if ds.isEmpty then none else some (ds, cs.dropWhile isDigit)

/-- Reads a point and the digits after it, if there is a point. -/
def readFraction (cs : List Char) : Option (List Char × List Char) :=
  match cs with
  | '.' :: rest =>
    let ds := rest.takeWhile isDigit
    if ds.isEmpty then none else some ('.' :: ds, rest.dropWhile isDigit)
  | _ => some ([], cs)

/-- Reads an exponent, if there is one. -/
def readExponent (cs : List Char) : Option (List Char × List Char) :=
  let (mark, rest) : List Char × List Char :=
    match cs with
    | 'e' :: '+' :: rest | 'E' :: '+' :: rest => (['e', '+'], rest)
    | 'e' :: '-' :: rest | 'E' :: '-' :: rest => (['e', '-'], rest)
    | 'e' :: rest | 'E' :: rest => (['e'], rest)
    | _ => ([], cs)
  if mark.isEmpty then some ([], cs)
  else
    let ds := rest.takeWhile isDigit
    if ds.isEmpty then none else some (mark ++ ds, rest.dropWhile isDigit)

/-- Reads a number. -/
def readNumber (cs : List Char) : Option (Value × List Char) := do
  let (sign, rest) : List Char × List Char :=
    match cs with
    | '-' :: rest => (['-'], rest)
    | _ => ([], cs)
  let (whole, rest) ← readWhole rest
  let (fraction, rest) ← readFraction rest
  let (exponent, rest) ← readExponent rest
  if sign.isEmpty && fraction.isEmpty && exponent.isEmpty then
    some (.natural (← Text.Decimal.read whole), rest)
  else some (.number (String.ofList (sign ++ whole ++ fraction ++ exponent)), rest)

/-! ## Values -/

/-- Takes a fixed text off the front. -/
def expect : List Char → List Char → Option (List Char)
  | [], rest => some rest
  | c :: cs, d :: rest => if c = d then expect cs rest else none
  | _ :: _, [] => none

/-- Reads the name of a member and its colon, after the opening quote. -/
def readName (cs : List Char) : Option (String × List Char) := do
  let (pieces, rest) ← readPieces cs
  let name ← joinPieces pieces
  match skipSpace rest with
  | ':' :: rest => some (String.ofList name, rest)
  | _ => none

mutual
/-- Reads one value and the blanks before it. -/
def readValue : Nat → List Char → Option (Value × List Char)
  | 0, _ => none
  | fuel + 1, cs =>
    match skipSpace cs with
    | 'n' :: rest => (expect ['u', 'l', 'l'] rest).map fun r => (.null, r)
    | 't' :: rest => (expect ['r', 'u', 'e'] rest).map fun r => (.bool true, r)
    | 'f' :: rest => (expect ['a', 'l', 's', 'e'] rest).map fun r => (.bool false, r)
    | '"' :: rest => do
      let (pieces, rest) ← readPieces rest
      match joinPieces pieces with
      | some cs => some (.string (String.ofList cs), rest)
      | none => some (.unpaired, rest)
    | '[' :: rest =>
      match skipSpace rest with
      | ']' :: rest => some (.array [], rest)
      | rest => (readItems fuel rest).map fun (items, r) => (.array items, r)
    | '\x7b' :: rest =>
      match skipSpace rest with
      | '\x7d' :: rest => some (.object [], rest)
      | rest => (readMembers fuel rest).map fun (members, r) => (.object members, r)
    | rest => readNumber rest
/-- Reads one or more items and the end of their array. -/
def readItems : Nat → List Char → Option (List Value × List Char)
  | 0, _ => none
  | fuel + 1, cs => do
    let (v, rest) ← readValue fuel cs
    match skipSpace rest with
    | ',' :: rest => (readItems fuel rest).map fun (items, r) => (v :: items, r)
    | ']' :: rest => some ([v], rest)
    | _ => none
/-- Reads one or more members and the end of their object. -/
def readMembers : Nat → List Char → Option (List (String × Value) × List Char)
  | 0, _ => none
  | fuel + 1, cs =>
    match skipSpace cs with
    | '"' :: rest => do
      let (name, rest) ← readName rest
      let (v, rest) ← readValue fuel rest
      match skipSpace rest with
      | ',' :: rest => (readMembers fuel rest).map fun (members, r) => ((name, v) :: members, r)
      | '\x7d' :: rest => some ([(name, v)], rest)
      | _ => none
    | _ => none
end

/-- Reads a text that holds one value and nothing else. -/
def parse (cs : List Char) : Option Value := do
  let (v, rest) ← readValue (cs.length + 1) cs
  if (skipSpace rest).isEmpty then some v else none

/-- Reads a text that holds one value and nothing else. -/
def ofText (s : String) : Option Value := parse s.toList

end SpecEngine.Json
