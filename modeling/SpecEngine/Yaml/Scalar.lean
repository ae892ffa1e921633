/-
# SpecEngine.Yaml.Scalar -- nodes and quoted scalars

Configuration files may be written in YAML. A node is a scalar, a list or a map; a scalar keeps its
text, its tag and whether it was written plainly, since that decides what it may be read as. A node
may get a name, and an alias stands for the node of its name. Quoted scalars may run over several
lines: blanks around a line break are folded into one blank, and further breaks are kept. Escaped
characters are never folded.
-/

import SpecEngine.Json.Reader

namespace SpecEngine.Yaml

/-- A node of a document. -/
inductive Node where
  | scalar (plain : Bool) (tag : Option String) (text : String)
  | list (items : List Node)
  | map (entries : List (Node × Node))
  /-- A node with a name. -/
  | named (name : String) (node : Node)
  /-- The node of a name. -/
  | alias (name : String)
  deriving Repr, Inhabited

/-- The scalar that stands where nothing is written. -/
def Node.nothing : Node := .scalar true none ""

/-! ## Characters -/

/-- Blanks inside a line. -/
def isSpace (c : Char) : Bool := c == ' ' || c == '\t'

/-- Blanks and line breaks. -/
def isGap (c : Char) : Bool := isSpace c || c == '\n'

/-- The single quote. -/
def apostrophe : Char := Char.ofNat 39

/-- Characters with which no plain scalar begins. -/
def isIndicator (c : Char) : Bool :=
  [',', '[', ']', '\x7b', '\x7d', '#', '&', '*', '!', '|', '>', '"', '%', '@', apostrophe,
    Char.ofNat 96].contains c

/-- Whether what follows a character ends a word. -/
def endsWord (rest : List Char) : Bool := (rest.head?.map isGap).getD true

/-- Whether a plain scalar can begin here. -/
def beginsPlain : List Char → Bool
  | [] => false
  | c :: rest =>
    if c = '-' || c = '?' || c = ':' then !endsWord rest else !isIndicator c && !isGap c

/-- Characters that a document may hold. -/
def isPrintable (c : Char) : Bool :=
  let n := c.toNat
  n == 9 || n == 10 || n == 13 || (0x20 ≤ n && n ≤ 0x7E) || n == 0x85 ||
    (0xA0 ≤ n && n != 0xFEFF && n != 0xFFFE && n != 0xFFFF)

/-! ## Folding -/

/-- A character of a scalar. -/
inductive Piece where
  | raw (c : Char)
  /-- An escaped character. -/
  | fixed (c : Char)
  /-- An escaped line break, which goes away together with the blanks after it. -/
  | joint
  deriving Repr

/-- What blanks and breaks between words are folded into. -/
def foldGap (gap : List Char) : List Char :=
  match gap.count '\n' with
  | 0 => gap
  | 1 => [' ']
  | more + 2 => List.replicate (more + 1) '\n'

/-- Folds pieces; `gap` holds the blanks since the last word, the latest first. -/
def fold (skip : Bool) (gap : List Char) : List Piece → List Char
  | [] => foldGap gap.reverse
  | .raw c :: rest =>
    if isGap c then fold skip (if skip then gap else c :: gap) rest
    else foldGap gap.reverse ++ c :: fold false [] rest
  | .fixed c :: rest => foldGap gap.reverse ++ c :: fold false [] rest
  | .joint :: rest => foldGap gap.reverse ++ fold true [] rest

/-- The text of pieces. -/
def foldText (pieces : List Piece) : String := String.ofList (fold false [] pieces)

/-! ## Quoted scalars -/

/-- The character that a one-letter escape names. -/
def shortEscape? (c : Char) : Option Char :=
  [('0', 0x0), ('a', 0x7), ('b', 0x8), ('t', 0x9), ('\t', 0x9), ('n', 0xA), ('v', 0xB), ('f', 0xC),
    ('r', 0xD), ('e', 0x1B), (' ', 0x20), ('"', 0x22), ('/', 0x2F), ('\\', 0x5C), ('N', 0x85),
    ('_', 0xA0), ('L', 0x2028), ('P', 0x2029)].lookup c |>.map Char.ofNat

/-- The character that hexadecimal digits name. -/
def hexChar? (ds : List Char) : Option Char := do
  let n ← ds.foldlM (fun n d => (Json.hexValue? d).map (n * 16 + ·)) 0
  if n < 0xD800 || (0xE000 ≤ n && n < 0x110000) then some (Char.ofNat n) else none

/-- Reads a scalar in double quotes after the opening quote. -/
def readDouble : List Char → Option (List Piece × List Char)
  | [] => none
  | '"' :: rest => some ([], rest)
  | '\\' :: '\n' :: rest => (readDouble rest).map fun (ps, r) => (.joint :: ps, r)
  | '\\' :: 'x' :: a :: b :: rest => do
    let c ← hexChar? [a, b]
    (readDouble rest).map fun (ps, r) => (.fixed c :: ps, r)
  | '\\' :: 'u' :: a :: b :: c :: d :: rest => do
    let c ← hexChar? [a, b, c, d]
    (readDouble rest).map fun (ps, r) => (.fixed c :: ps, r)
  | '\\' :: 'U' :: a :: b :: c :: d :: e :: f :: g :: h :: rest => do
    let c ← hexChar? [a, b, c, d, e, f, g, h]
    (readDouble rest).map fun (ps, r) => (.fixed c :: ps, r)
  | '\\' :: c :: rest => do
    let c ← shortEscape? c
    (readDouble rest).map fun (ps, r) => (.fixed c :: ps, r)
  | c :: rest => (readDouble rest).map fun (ps, r) => (.raw c :: ps, r)

/-- Reads a scalar in single quotes after the opening quote; two quotes stand for one. -/
def readSingle : List Char → Option (List Piece × List Char)
  | [] => none
  | c :: rest =>
    if c = apostrophe then
      match rest with
      | [] => some ([], [])
      | d :: more =>
        if d = apostrophe then (readSingle more).map fun (ps, r) => (.fixed apostrophe :: ps, r)
        else some ([], d :: more)
    else (readSingle rest).map fun (ps, r) => (.raw c :: ps, r)

/-- Reads a quoted scalar, if there is one. -/
def readQuoted : List Char → Option (Node × List Char)
  | '"' :: rest => (readDouble rest).map fun (ps, r) => (.scalar false none (foldText ps), r)
  | c :: rest =>
    if c = apostrophe then
      (readSingle rest).map fun (ps, r) => (.scalar false none (foldText ps), r)
    else none
  | [] => none

/-- Whether a quoted scalar begins here. -/
def beginsQuoted (cs : List Char) : Bool := cs.head? == some '"' || cs.head? == some apostrophe

/-! ## Properties -/

/-- What stands in front of a node. -/
structure Properties where
  tag : Option String := none
  name : Option String := none
  deriving DecidableEq, Repr

/-- Characters of names. -/
def isNameChar (c : Char) : Bool := c.isAlphanum || c == '_' || c == '-'

/-- Characters that may follow a name directly. -/
def endsName (c : Char) : Bool :=
  isGap c || ['?', ':', ',', ']', '\x7d', '%', '@', Char.ofNat 96].contains c

/-- Reads a name. -/
def readName (cs : List Char) : Option (String × List Char) :=
  let rest := cs.dropWhile isNameChar
  if rest.length = cs.length || !(rest.head?.map endsName).getD true then none
  else some (String.ofList (cs.takeWhile isNameChar), rest)

/-- Reads one property, if there is one; neither may stand twice. -/
def readProperty (p : Properties) : List Char → Option (Properties × List Char)
  | '!' :: rest =>
    if p.tag.isSome then none
    else some ({ p with tag := some (String.ofList ('!' :: rest.takeWhile (!isGap ·))) },
      rest.dropWhile (!isGap ·))
  | '&' :: rest => do
    if p.name.isSome then none
    let (name, rest) ← readName rest
    some ({ p with name := some name }, rest)
  | cs => some (p, cs)

/-- Reads the properties in front of a node; `skip` passes over what may stand between them. -/
def readProperties (skip : List Char → List Char) (cs : List Char) :
    Option (Properties × List Char) := do
  let (p, rest) ← readProperty {} cs
  let (p, rest) ← readProperty p (skip rest)
  some (p, skip rest)

/-- A node with properties; only scalars keep their tags. -/
def Node.withProperties (p : Properties) (n : Node) : Node :=
  let tagged := match n, p.tag with
    | .scalar plain _ text, some tag => .scalar plain (some tag) text
    | n, _ => n
  match p.name with
  | some name => .named name tagged
  | none => tagged

end SpecEngine.Yaml
