/-
# SpecEngine.Json.Value -- JSON values and their two written forms

A value keeps what is read from a text as far as a record can tell the difference: members stay in
order and may repeat a name, and a number that is more than digits keeps its literal. `render` is
the form without any blanks, which also serves as one line of the wire; `renderPretty` puts every
item on a line of its own, indented by two spaces. Both write the shortest escapes: only quotes,
backslashes and control characters are escaped.
-/

import SpecEngine.Text.Decimal

namespace SpecEngine.Json

/-- A JSON value. -/
inductive Value where
  | null
  | bool (b : Bool)
  /-- A number written with digits only. -/
  | natural (n : Nat)
  /-- Any other number, as it is written. -/
  | number (literal : String)
  | string (s : String)
  /-- A string that names half of a surrogate pair, and so no text. -/
  | unpaired
  | array (items : List Value)
  | object (members : List (String × Value))
  deriving Repr, Inhabited

namespace Value

/-- An array of texts. -/
def strings (ss : List String) : Value := .array (ss.map .string)

/-- A value that may be missing, written as null. -/
def ofOption {α : Type} (encode : α → Value) : Option α → Value
  | none => .null
  | some a => encode a

/-- The member of a name; the first one counts. -/
def member? (name : String) : Value → Option Value
  | .object members => (members.find? (·.1 == name)).map (·.2)
  | _ => none

end Value

/-! ## Strings -/

/-- The hexadecimal digit for a number below sixteen, in small letters. -/
def hexDigit (n : Nat) : Char := if n < 10 then Char.ofNat (48 + n) else Char.ofNat (87 + n)

/-- How a character is written inside a string. -/
def escape (c : Char) : List Char :=
  if c = '"' then ['\\', '"']
  else if c = '\\' then ['\\', '\\']
  else if c = '\n' then ['\\', 'n']
  else if c = '\t' then ['\\', 't']
  else if c = '\r' then ['\\', 'r']
  else if c = '\x08' then ['\\', 'b']
  else if c = '\x0c' then ['\\', 'f']
  else if c.toNat < 0x20 then
    ['\\', 'u', '0', '0', hexDigit (c.toNat / 16), hexDigit (c.toNat % 16)]
  else [c]

/-- A text in quotes. -/
def quoted (s : String) : List Char := '"' :: (s.toList.flatMap escape ++ ['"'])

/-! ## Compact form -/

mutual
/-- The form without blanks. -/
def render : Value → List Char
  | .null => ['n', 'u', 'l', 'l']
  | .bool true => ['t', 'r', 'u', 'e']
  | .bool false => ['f', 'a', 'l', 's', 'e']
  | .natural n => Text.Decimal.digits n
  | .number literal => literal.toList
  | .string s => quoted s
  | .unpaired => ['"', '"']
  | .array items => '[' :: renderItems items
  | .object members => '\x7b' :: renderMembers members
/-- The items of an array and its end. -/
def renderItems : List Value → List Char
  | [] => [']']
  | [v] => render v ++ [']']
  | v :: w :: rest => render v ++ ',' :: renderItems (w :: rest)
/-- The members of an object and its end. -/
def renderMembers : List (String × Value) → List Char
  | [] => ['\x7d']
  | [(name, v)] => quoted name ++ ':' :: (render v ++ ['\x7d'])
  | (name, v) :: m :: rest => quoted name ++ ':' :: (render v ++ ',' :: renderMembers (m :: rest))
end

/-- The compact form as a text. -/
def Value.compact (v : Value) : String := String.ofList (render v)

/-! ## Indented form -/

/-- A line break and the indentation of a level. -/
def newLine (level : Nat) : List Char := '\n' :: List.replicate (2 * level) ' '

mutual
/-- The form with one item on a line, for a value that stands at an indentation level. -/
def renderPretty (level : Nat) : Value → List Char
  | .array [] => ['[', ']']
  | .array (v :: items) => '[' :: (newLine (level + 1) ++ renderPrettyItems level (v :: items))
  | .object [] => ['\x7b', '\x7d']
  | .object (m :: members) =>
    '\x7b' :: (newLine (level + 1) ++ renderPrettyMembers level (m :: members))
  | v => render v
/-- The items of an array that stands at a level, and its end. -/
def renderPrettyItems (level : Nat) : List Value → List Char
  | [] => newLine level ++ [']']
  | [v] => renderPretty (level + 1) v ++ newLine level ++ [']']
  | v :: w :: rest =>
    renderPretty (level + 1) v ++
      ',' :: (newLine (level + 1) ++ renderPrettyItems level (w :: rest))
/-- The members of an object that stands at a level, and its end. -/
def renderPrettyMembers (level : Nat) : List (String × Value) → List Char
  | [] => newLine level ++ ['\x7d']
  | [(name, v)] =>
    quoted name ++ ':' :: ' ' :: (renderPretty (level + 1) v ++ newLine level ++ ['\x7d'])
  | (name, v) :: m :: rest =>
    quoted name ++ ':' :: ' ' :: (renderPretty (level + 1) v ++
      ',' :: (newLine (level + 1) ++ renderPrettyMembers level (m :: rest)))
end

/-- The indented form as a text. -/
def Value.pretty (v : Value) : String := String.ofList (renderPretty 0 v)

end SpecEngine.Json
