/-
# SpecEngine.Tag.Token -- the symbols of a tag expression

A tag expression is cut at its operator characters. The comma is another spelling of `&`. What
stands between two operators is one tag, trimmed and in small letters, so a tag may hold blanks
inside; pieces of blanks only are no symbols at all. No text fails to be cut.
-/

import SpecEngine.Text.Basic
import SpecEngine.Text.Lower

namespace SpecEngine.Tag

/-- Operators and parentheses. -/
inductive Operator where
  | and | or | not | opening | closing
  deriving DecidableEq, Repr

/-- The name of an operator in messages. -/
def Operator.name : Operator → String
  | .and => "And"
  | .or => "Or"
  | .not => "Not"
  | .opening => "Open"
  | .closing => "Close"

/-- A symbol of a tag expression. -/
inductive Token where
  | op (o : Operator)
  | tag (name : String)
  deriving DecidableEq, Repr

/-- The operator that a character spells. -/
def operator? (c : Char) : Option Operator :=
  match c with
  | '&' | ',' => some .and
  | '|' => some .or
  | '!' => some .not
  | '(' => some .opening
  | ')' => some .closing
  | _ => none

/-- The form in which tags are compared: trimmed and in small letters. -/
def normal (tag : String) : String := Text.lower (Text.trim tag)

/-- The tag spelt by the characters between two operators, if they are not all blank. -/
def tagOf (cs : List Char) : List Token :=
  if cs.all Text.isBlank then [] else [.tag (normal (String.ofList cs))]

/-- Cuts up a text; `piece` holds the characters since the last operator, the latest first. -/
def tokensFrom (piece : List Char) : List Char → List Token
  | [] => tagOf piece.reverse
  | c :: cs =>
    match operator? c with
    | some o => tagOf piece.reverse ++ .op o :: tokensFrom [] cs
    | none => tokensFrom (c :: piece) cs

/-- The symbols of a text. -/
def tokens (cs : List Char) : List Token := tokensFrom [] cs

end SpecEngine.Tag
