/-
# SpecEngine.Yaml.Scheme -- reading nodes as values

What a node may be read as. Texts take any scalar, whatever it looks like; numbers and Booleans have
to be written plainly, in the spellings of the core schema; a plain scalar that is empty or spells
null is no value where there may be none. A map's known keys may not repeat, its other keys do not
matter.
-/

import SpecEngine.Yaml.Document

namespace SpecEngine.Yaml

/-- A reading of nodes. -/
abbrev Scheme (α : Type) := Node → Option α

namespace Scheme

/-- Any scalar as a text. -/
def string : Scheme String
  | .scalar _ _ text => some text
  | _ => none

/-- A text that has to be read further. -/
def parsed {α : Type} (read : String → Option α) : Scheme α := fun n => (string n).bind read

/-- A plain Boolean. -/
def bool : Scheme Bool
  | .scalar true _ text =>
    if ["true", "True", "TRUE"].contains text then some true
    else if ["false", "False", "FALSE"].contains text then some false
    else none
  | _ => none

/-- The number that digits of a base spell. -/
def inBase (base : Nat) (cs : List Char) : Option Nat :=
  if cs.isEmpty then none
  else cs.foldlM (fun n c => do
    let d ← Json.hexValue? c
    if d < base then some (n * base + d) else none) 0

/-- The natural number that a plain scalar spells: in decimal digits without superfluous zeros, or
in another base with its mark; a plus sign may stand in front. -/
def natural? (text : String) : Option Nat :=
  let cs := match text.toList with
    | '+' :: rest => rest
    | cs => cs
  match cs with
  | '0' :: 'x' :: ds => inBase 16 ds
  | '0' :: 'o' :: ds => inBase 8 ds
  | '0' :: 'b' :: ds => inBase 2 ds
  | '0' :: _ :: _ => none
  | ds => inBase 10 ds

/-- A plain natural number below a limit. -/
def below (limit : Nat) : Scheme Nat
  | .scalar true _ text => (natural? text).filter (· < limit)
  | _ => none

/-- Whether a plain text spells null. -/
def spellsNull (text : String) : Bool := ["null", "Null", "NULL", "~"].contains text

/-- A node that may be no value. -/
def option {α : Type} (scheme : Scheme α) : Scheme (Option α)
  | .scalar true (some "!!null") text => if spellsNull text then some none else none
  | .scalar true none text =>
    if text.isEmpty || spellsNull text then some none
    else (scheme (.scalar true none text)).map some
  | n => (scheme n).map some

/-- The name of a tag that is a document's own. -/
def localTag? (tag : String) : Option String :=
  if tag.startsWith "!!" || tag.startsWith "!<" then none
  else some (String.ofList (tag.toList.drop 1))

/-- One of several words, as a scalar or as the tag of an empty one. -/
def name {α : Type} (words : List (String × α)) : Scheme α
  | .scalar plain tag text =>
    match tag.bind localTag? with
    | none => words.lookup text
    | some tag => if plain && (text.isEmpty || spellsNull text) then words.lookup tag else none
  | _ => none

end Scheme

/-- The entries of a map with their keys as texts. -/
def Node.entries? : Node → Option (List (String × Node))
  | .map entries => entries.mapM fun (k, v) => (Scheme.string k).map fun k => (k, v)
  | _ => none

/-- Reads the entry of a key, which may be missing but may not repeat. -/
def entryOr {α : Type} (entries : List (String × Node)) (key : String) (scheme : Scheme α)
    (default : α) : Option α :=
  match entries.filter (·.1 == key) with
  | [] => some default
  | [(_, v)] => scheme v
  | _ => none

end SpecEngine.Yaml
