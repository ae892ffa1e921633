/-
# SpecEngine.Json.Shape -- reading records out of JSON values

A shape reads a value as a record, a choice or a list, and says nothing about why it fails. The
rules are those of the formats this library reads:

* a record may be written as an object or, with its fields in order, as an array; members of other
  names are passed over, a field's name that comes twice is a fault;
* a field may be required, optional (absent or null) or have a default (only when absent);
* a choice between records is told by a tag among the members, so such a value is held as a whole
  before it is read. A value that is held must nest within the depth limit, and its strings and
  numbers must be in range even where nobody looks at them;
* at most 127 containers may be open at once.
-/

import SpecEngine.Json.Reader

namespace SpecEngine.Json

/-- Where a value stands: how many containers may still be opened, and whether it is part of a value
that is held as a whole. -/
structure Scope where
  depth : Nat
  held : Bool

/-- A reading of values. -/
abbrev Shape (α : Type) := Scope → Value → Option α

/-- The scope of a whole text. -/
def Scope.top : Scope := ⟨127, false⟩

/-- The scope inside a container. -/
def Scope.enter? (scope : Scope) : Option Scope :=
  if scope.held then some scope
  else if scope.depth = 0 then none else some { scope with depth := scope.depth - 1 }

/-! ## Plain values -/

/-- A truth value. -/
def Shape.bool : Shape Bool
  | _, .bool b => some b
  | _, _ => none

/-- A text. -/
def Shape.string : Shape String
  | _, .string s => some s
  | _, _ => none

/-- A natural number below a limit. -/
def Shape.below (limit : Nat) : Shape Nat
  | _, .natural n => if n < limit then some n else none
  | _, _ => none

/-- A natural number of 64 bits. -/
def Shape.nat64 : Shape Nat := .below Text.Decimal.limit64

/-- A word of 64 bits. -/
def Shape.word : Shape UInt64 := fun scope v => (Shape.nat64 scope v).map UInt64.ofNat

/-- A text that has to be read further. -/
def Shape.parsed {α : Type} (read : String → Option α) : Shape α :=
  fun scope v => (Shape.string scope v).bind read

/-- A value that may be null. -/
def Shape.option {α : Type} (shape : Shape α) : Shape (Option α)
  | _, .null => some none
  | scope, v => (shape scope v).map some

/-- A list. -/
def Shape.list {α : Type} (shape : Shape α) : Shape (List α)
  | scope, .array items => do items.mapM (shape (← scope.enter?))
  | _, _ => none

/-- A list of texts. -/
def Shape.strings : Shape (List String) := .list .string

/-- One of several names, as a string or as the only member of an object, with null. -/
def Shape.name {α : Type} (names : List (String × α)) : Shape α
  | _, .string s => (names.find? (·.1 == s)).map (·.2)
  | scope, .object [(s, .null)] => do
    let _ ← scope.enter?
    (names.find? (·.1 == s)).map (·.2)
  | ⟨_, true⟩, .object [(s, .object [])] => (names.find? (·.1 == s)).map (·.2)
  | _, _ => none

/-! ## Records -/

/-- What a record holds for one of its fields. -/
inductive Slot where
  | value (scope : Scope) (v : Value)
  /-- The object has no member of this name. -/
  | absent
  /-- The array ends before this field. -/
  | cutOff

/-- The slot of a name; none if the name comes twice. -/
def slotOf (scope : Scope) (members : List (String × Value)) (name : String) : Option Slot :=
  match members.filter (·.1 == name) with
  | [] => some .absent
  | [(_, v)] => some (.value scope v)
  | _ => none

/-- The slots of the fields when the values come in order. -/
def slotsInOrder (scope : Scope) : List String → List Value → Option (List Slot)
  | [], [] => some []
  | [], _ :: _ => none
  | _ :: names, [] => (slotsInOrder scope names []).map (.cutOff :: ·)
  | _ :: names, v :: vs => (slotsInOrder scope names vs).map (.value scope v :: ·)

/-- A record with fields of the given names. -/
def Shape.record {α : Type} (names : List String) (build : List Slot → Option α) : Shape α
  | scope, .object members => do
    let scope ← scope.enter?
    build (← names.mapM (slotOf scope members))
  | scope, .array items => do
    let scope ← scope.enter?
    build (← slotsInOrder scope names items)
  | _, _ => none

/-- A field that must be there. -/
def Slot.required {α : Type} (shape : Shape α) : Slot → Option α
  | .value scope v => shape scope v
  | _ => none

/-- A field that may be null, and absent from an object. -/
def Slot.optional {α : Type} (shape : Shape α) : Slot → Option (Option α)
  | .value scope v => Shape.option shape scope v
  | .absent => some none
  | .cutOff => none

/-- A field with a default. -/
def Slot.orElse {α : Type} (shape : Shape α) (default : α) : Slot → Option α
  | .value scope v => shape scope v
  | _ => some default

/-! ## Choices -/

/-- The least number that is no finite double: 2^1024 less half a unit of the greatest double. -/
def doubleLimit : Nat := Nat.pow 2 1024 - Nat.pow 2 970

/-- Whether a literal's number is finite as a double. -/
def inRange (literal : String) : Bool :=
  let cs := literal.toList.filter (· != '-')
  let mantissa := cs.takeWhile fun c => c != 'e' && c != 'E'
  let places := ((mantissa.dropWhile (· != '.')).drop 1).length
  let value := (Text.Decimal.read (mantissa.filter isDigit)).getD 0
  let exponentText := (literal.toList.dropWhile fun c => c != 'e' && c != 'E').drop 1
  let exponent := (Text.Decimal.read (exponentText.filter isDigit)).getD 0
  if value = 0 || exponentText.head? = some '-' then true
  else if exponent > 400 + places then false
  else value * Nat.pow 10 exponent < doubleLimit * Nat.pow 10 places

mutual
/-- Whether a value can be held with so many containers left to open. -/
def Value.fits : Nat → Value → Bool
  | _, .null | _, .bool _ | _, .string _ => true
  | _, .unpaired => false
  | _, .natural n => n < doubleLimit
  | _, .number literal => inRange literal
  | 0, .array _ | 0, .object _ => false
  | depth + 1, .array items => itemsFit depth items
  | depth + 1, .object members => membersFit depth members
/-- Whether every item can be held. -/
def itemsFit : Nat → List Value → Bool
  | _, [] => true
  | depth, v :: rest => v.fits depth && itemsFit depth rest
/-- Whether every member can be held. -/
def membersFit : Nat → List (String × Value) → Bool
  | _, [] => true
  | depth, (_, v) :: rest => v.fits depth && membersFit depth rest
end

/-- The scope inside a value that is held as a whole. -/
def Scope.hold? (scope : Scope) (v : Value) : Option Scope :=
  if scope.held then some scope
  else if v.fits scope.depth then some { scope with held := true } else none

/-- The name that a tag's value gives; a held value may give its position instead. -/
def tagName (scope : Scope) (names : List String) : Value → Option String
  | .string s => some s
  | .natural n => if scope.held then names[n]? else none
  | _ => none

/-- A choice told by a tag that stands among the fields of the chosen record. -/
def Shape.tagged {α : Type} (tag : String) (choices : List (String × Shape α)) : Shape α
  | scope, v => do
    let inner ← scope.hold? v
    let (tagValue, rest) ← match v with
      | .object members =>
        match members.filter (·.1 == tag) with
        | [(_, t)] => some (t, Value.object (members.filter (·.1 != tag)))
        | _ => none
      | .array (t :: rest) => some (t, .array rest)
      | _ => none
    let name ← tagName scope (choices.map (·.1)) tagValue
    let (_, shape) ← choices.find? (·.1 == name)
    shape inner rest

/-- A choice told by a tag that stands beside the chosen value. -/
def Shape.beside {α : Type} (tag content : String) (choices : List (String × Shape α)) : Shape α :=
  fun scope v =>
    match v with
    | .object members => do
      let scope ← scope.enter?
      let (t, c) ← match members.filter fun m => m.1 == tag || m.1 == content with
        | [m, n] =>
          if m.1 == tag && n.1 == content then some (m.2, n.2)
          else if m.1 == content && n.1 == tag then some (n.2, m.2) else none
        | _ => none
      let tagFirst := ((members.find? fun m => m.1 == tag || m.1 == content).map (·.1)) == some tag
      let name ← tagName scope (choices.map (·.1)) t
      let (_, shape) ← choices.find? (·.1 == name)
      if tagFirst then shape scope c else shape (← scope.hold? c) c
    | .array [t, c] => do
      let scope ← scope.enter?
      let name ← tagName scope (choices.map (·.1)) t
      let (_, shape) ← choices.find? (·.1 == name)
      shape scope c
    | _ => none

/-! ## Texts -/

/-- Reads a text by a shape. -/
def readText {α : Type} (shape : Shape α) (s : String) : Option α := do
  shape .top (← ofText s)

end SpecEngine.Json
