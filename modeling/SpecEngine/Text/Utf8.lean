/-
# SpecEngine.Text.Utf8 -- texts out of bytes

Bytes are a text when they follow the UTF-8 syntax. Where they do not, `utf8Fault?` tells the first
place: either a sequence that no continuation can make valid, with the number of its bytes that were
still acceptable, or a sequence that the end of the bytes cuts off.
-/

import SpecEngine.Text.Decimal

namespace SpecEngine.Text

/-- Why bytes are no text. -/
inductive Utf8Fault where
  | invalid (length index : Nat)
  | incomplete (index : Nat)
  deriving DecidableEq, Repr

/-- The text of a fault. -/
def Utf8Fault.message : Utf8Fault → String
  | .invalid length index =>
    "invalid utf-8 sequence of " ++ Decimal.text length ++ " bytes from index " ++
      Decimal.text index
  | .incomplete index => "incomplete utf-8 byte sequence from index " ++ Decimal.text index

/-- Whether a byte lies between two others. -/
def between (first last b : UInt8) : Bool := first ≤ b && b ≤ last

/-- Whether a byte continues a sequence. -/
def continues (b : UInt8) : Bool := between 0x80 0xBF b

/-- Whether a byte may follow the first one of a sequence of three bytes. -/
def secondOfThree (first b : UInt8) : Bool :=
  if first = 0xE0 then between 0xA0 0xBF b
  else if first = 0xED then between 0x80 0x9F b
  else continues b

/-- Whether a byte may follow the first one of a sequence of four bytes. -/
def secondOfFour (first b : UInt8) : Bool :=
  if first = 0xF0 then between 0x90 0xBF b
  else if first = 0xF4 then between 0x80 0x8F b
  else continues b

/-- The first fault of bytes that begin at an index. -/
def utf8FaultFrom (index : Nat) : List UInt8 → Option Utf8Fault
  | [] => none
  | b :: rest =>
    if b < 0x80 then utf8FaultFrom (index + 1) rest
    else if between 0xC2 0xDF b then
      match rest with
      | [] => some (.incomplete index)
      | c :: rest => if continues c then utf8FaultFrom (index + 2) rest else some (.invalid 1 index)
    else if between 0xE0 0xEF b then
      match rest with
      | [] => some (.incomplete index)
      | c :: rest =>
        if !secondOfThree b c then some (.invalid 1 index)
        else match rest with
          | [] => some (.incomplete index)
          | d :: rest =>
            if continues d then utf8FaultFrom (index + 3) rest else some (.invalid 2 index)
    else if between 0xF0 0xF4 b then
      match rest with
      | [] => some (.incomplete index)
      | c :: rest =>
        if !secondOfFour b c then some (.invalid 1 index)
        else match rest with
          | [] => some (.incomplete index)
          | d :: rest =>
            if !continues d then some (.invalid 2 index)
            else match rest with
              | [] => some (.incomplete index)
              | e :: rest =>
                if continues e then utf8FaultFrom (index + 4) rest else some (.invalid 3 index)
    else some (.invalid 1 index)

/-- The first fault of bytes. -/
def utf8Fault? (bytes : List UInt8) : Option Utf8Fault := utf8FaultFrom 0 bytes

/-- The text that bytes spell. -/
def ofUtf8 (bytes : List UInt8) : Except Utf8Fault String :=
  match String.fromUTF8? ⟨bytes.toArray⟩ with
  | some s => .ok s
  | none => .error ((utf8Fault? bytes).getD (.invalid 1 0))

/-- The bytes that spell a text. -/
def toUtf8 (s : String) : List UInt8 := s.toUTF8.toList

end SpecEngine.Text
