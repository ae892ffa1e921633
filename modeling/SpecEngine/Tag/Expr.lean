/-
# SpecEngine.Tag.Expr -- tag expressions

The Boolean language in which scenarios are selected by their tags. `|` binds loosest, then `&`,
then `!`; both binary operators nest to the left. An expression is evaluated over a set of normal
tags.

`Selector` is what the rest of the library holds: an expression together with the text it was
written as. Reading keeps the text without its outer blanks, and a fault names the text as it was
given.
-/

import SpecEngine.Tag.Token

namespace SpecEngine.Tag

/-- A Boolean combination of tags. -/
inductive Expr where
  | tag (name : String)
  | not (e : Expr)
  | and (l r : Expr)
  | or (l r : Expr)
  deriving DecidableEq, Repr

/-- The truth value of an expression over a set of tags. -/
def Expr.eval (has : String → Bool) : Expr → Bool
  | .tag name => has name
  | .not e => !e.eval has
  | .and l r => l.eval has && r.eval has
  | .or l r => l.eval has || r.eval has

/-! ## Reading -/

/-- Why a text is no tag expression. -/
inductive Fault where
  /-- There is no symbol at all. -/
  | empty
  /-- The symbols end where a tag is expected. -/
  | ended
  /-- An operator stands where a tag is expected. -/
  | unexpected (o : Operator)
  /-- Something other than a closing parenthesis follows a group. -/
  | unclosed
  /-- Something follows the whole expression. -/
  | trailing
  deriving DecidableEq, Repr

/-- The text of a fault. -/
def Fault.message : Fault → String
  | .empty => "expression is empty"
  | .ended => "unexpected end of expression"
  | .unexpected o => "unexpected " ++ o.name
  | .unclosed => "missing closing parenthesis"
  | .trailing => "unexpected trailing input"

/-- What reading a part of an expression gives: the part and the symbols after it. -/
abbrev Reading := Except Fault (Expr × List Token)

mutual
/-- Reads terms joined by `|`. -/
def readOr : Nat → List Token → Reading
  | 0, _ => .error .ended
  | fuel + 1, ts => do
    let (e, rest) ← readAnd fuel ts
    readOrRest fuel e rest
/-- Goes on after a term for as long as a `|` follows. -/
def readOrRest : Nat → Expr → List Token → Reading
  | 0, _, _ => .error .ended
  | fuel + 1, l, .op .or :: ts => do
    let (r, rest) ← readAnd fuel ts
    readOrRest fuel (.or l r) rest
  | _ + 1, l, ts => .ok (l, ts)
/-- Reads factors joined by `&`. -/
def readAnd : Nat → List Token → Reading
  | 0, _ => .error .ended
  | fuel + 1, ts => do
    let (e, rest) ← readUnary fuel ts
    readAndRest fuel e rest
/-- Goes on after a factor for as long as a `&` follows. -/
def readAndRest : Nat → Expr → List Token → Reading
  | 0, _, _ => .error .ended
  | fuel + 1, l, .op .and :: ts => do
    let (r, rest) ← readUnary fuel ts
    readAndRest fuel (.and l r) rest
  | _ + 1, l, ts => .ok (l, ts)
/-- Reads a tag, a negation or a group. -/
def readUnary : Nat → List Token → Reading
  | 0, _ => .error .ended
  | fuel + 1, .op .not :: ts => do
    let (e, rest) ← readUnary fuel ts
    .ok (.not e, rest)
  | fuel + 1, .op .opening :: ts => do
    match ← readOr fuel ts with
    | (e, .op .closing :: rest) => .ok (e, rest)
    | _ => .error .unclosed
  | _ + 1, .tag name :: ts => .ok (.tag name, ts)
  | _ + 1, .op o :: _ => .error (.unexpected o)
  | _ + 1, [] => .error .ended
end

/-- Reads a whole list of symbols. Between two symbols taken no more than four calls nest, which is
what the fuel allows for. -/
def Expr.ofTokens (ts : List Token) : Except Fault Expr :=
  if ts.isEmpty then .error .empty
  else do
    match ← readOr (4 * ts.length + 4) ts with
    | (e, []) => .ok e
    | _ => .error .trailing

/-! ## Selectors -/

/-- A tag expression and its text. -/
structure Selector where
  source : String
  root : Expr
  deriving DecidableEq, Repr

/-- A text that is no tag expression. -/
structure Invalid where
  source : String
  fault : Fault
  deriving DecidableEq, Repr

/-- Reads a tag expression. -/
def Selector.parse (source : String) : Except Invalid Selector :=
  match Expr.ofTokens (tokens source.toList) with
  | .ok root => .ok ⟨Text.trim source, root⟩
  | .error fault => .error ⟨source, fault⟩

/-- Whether a list of tags satisfies the expression; case and outer blanks do not matter. -/
def Selector.selects (s : Selector) (tags : List String) : Bool :=
  let normals := tags.map normal
  s.root.eval fun name => normals.contains name

end SpecEngine.Tag
