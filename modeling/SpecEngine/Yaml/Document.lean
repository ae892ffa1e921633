/-
# SpecEngine.Yaml.Document -- documents laid out by indentation

Outside brackets the indentation of lines says what belongs to what. A document is cut into lines,
and a node is read from the lines that are indented deeply enough. Read are nested lists and maps,
plain, quoted and block scalars, comments, tags, named nodes and their aliases, and one document
with its markers; several documents in one text are refused.
-/

import SpecEngine.Text.Basic
import SpecEngine.Yaml.Flow

namespace SpecEngine.Yaml

/-! ## Lines -/

/-- A line: how far it is indented, and what stands there. -/
structure Line where
  indent : Nat
  text : List Char
  deriving Repr

/-- A line of characters. -/
def Line.of (cs : List Char) : Line :=
  ⟨(cs.takeWhile (· == ' ')).length, cs.dropWhile (· == ' ')⟩

/-- Whether nothing but a comment stands here. -/
def isVoid (cs : List Char) : Bool :=
  match cs.dropWhile isSpace with
  | [] => true
  | c :: _ => c == '#'

/-- The characters with every line break written as a line feed. -/
def unifyBreaks : List Char → List Char
  | [] => []
  | '\r' :: '\n' :: rest => '\n' :: unifyBreaks rest
  | '\r' :: rest => '\n' :: unifyBreaks rest
  | c :: rest => c :: unifyBreaks rest

/-- The lines of characters. -/
def linesOf (cs : List Char) : List Line := (Text.splitOn '\n' cs).map Line.of

/-- The characters of lines. -/
def charsOf (lines : List Line) : List Char :=
  (lines.map fun l => '\n' :: (List.replicate l.indent ' ' ++ l.text)).flatten

/-- The lines after those that hold nothing. -/
def skipVoid (lines : List Line) : List Line := lines.dropWhile fun l => isVoid l.text

/-! ## Scalars on lines -/

/-- Reads a plain scalar up to the end of its line, a comment or a colon that ends a word. -/
def readPlainLine (afterGap : Bool) : List Char → List Char × List Char
  | [] => ([], [])
  | c :: rest =>
    if (c = '#' && afterGap) || (c = ':' && endsWord rest) then ([], c :: rest)
    else
      let (text, rest) := readPlainLine (isSpace c) rest
      (c :: text, rest)

/-- The continuation of a plain scalar on lines that are indented so far. -/
def readPlainMore (min : Nat) : List Line → Option (List Char × List Line)
  | [] => some ([], [])
  | l :: rest =>
    if l.text.all isSpace then do
      let (more, lines) ← readPlainMore min rest
      some (if more.isEmpty then ([], l :: rest) else ('\n' :: more, lines))
    else if l.indent < min || l.text.head? == some '#' then some ([], l :: rest)
    else match readPlainLine false l.text with
      | (text, []) => do
        let (more, lines) ← readPlainMore min rest
        some ('\n' :: (text ++ more), lines)
      | (text, '#' :: _) => some ('\n' :: text, rest)
      | _ => none

/-- Reads a plain scalar that may go on on further lines. -/
def readPlain (min : Nat) (cs : List Char) (rest : List Line) : Option (Node × List Line) :=
  match readPlainLine false cs with
  | (text, []) => do
    let (more, lines) ← readPlainMore min rest
    some (plainNode ((text ++ more).map .raw), lines)
  | (text, '#' :: _) => some (plainNode (text.map .raw), rest)
  | _ => none

/-- The lines after a node that ends in the middle of a line: nothing but a comment may follow it.
-/
def afterNode (cs : List Char) : Option (List Line) :=
  let rest := cs.dropWhile isSpace
  match rest with
  | [] => some []
  | '\n' :: rest => some (linesOf rest)
  | '#' :: _ =>
    if rest.length = cs.length then none
    else match rest.dropWhile (· != '\n') with
      | [] => some []
      | _ :: rest => some (linesOf rest)
  | _ => none

/-! ## Block scalars -/

/-- How a block scalar is read. -/
structure Header where
  folded : Bool
  /-- The indentation beyond the parent's, if it is given. -/
  indent : Option Nat := none
  /-- What becomes of the line breaks at the end: all kept, or all but the first removed, or all. -/
  keep : Option Bool := none

/-- Reads the header of a block scalar after its first character. -/
def readHeader (h : Header) : List Char → Option Header
  | [] => some h
  | c :: rest =>
    if c = '+' && h.keep.isNone then readHeader { h with keep := some true } rest
    else if c = '-' && h.keep.isNone then readHeader { h with keep := some false } rest
    else match Text.Decimal.value? c with
      | some n =>
        if n = 0 || h.indent.isSome then none else readHeader { h with indent := some n } rest
      | none => if isSpace c && isVoid rest then some h else none

/-- Takes the lines of a block scalar without the common indentation. -/
def takeBlock (indent : Nat) : List Line → List (List Char) × List Line
  | [] => ([], [])
  | l :: rest =>
    if l.text.isEmpty || indent ≤ l.indent then
      let (lines, rest) := takeBlock indent rest
      ((List.replicate (l.indent - indent) ' ' ++ l.text) :: lines, rest)
    else ([], l :: rest)

/-- Whether a line begins with a blank. -/
def isSpaced (cs : List Char) : Bool := (cs.head?.map isSpace).getD false

/-- Joins the lines of a folded scalar: the break between two lines of text becomes a blank, or goes
away before empty lines, unless one of the two begins with a blank. -/
def joinFolded : List (List Char) → List Char
  | [] => []
  | [line] => line
  | line :: next :: rest =>
    let more := joinFolded (next :: rest)
    let nextText := ((next :: rest).find? fun cs => !cs.isEmpty).getD []
    if line.isEmpty then '\n' :: more
    else if isSpaced line || isSpaced nextText then line ++ '\n' :: more
    else if next.isEmpty then line ++ more
    else line ++ ' ' :: more

/-- Joins the lines of a literal scalar. -/
def joinLiteral : List (List Char) → List Char
  | [] => []
  | [line] => line
  | line :: rest => line ++ '\n' :: joinLiteral rest

/-- The least indentation of a block scalar's lines, if its header does not say it: that of the
first line of text, or of a longer empty line before it. -/
def blockIndent (lines : List Line) : Nat :=
  let empty := lines.takeWhile fun l => l.text.isEmpty
  let first := (lines.drop empty.length).head?
  ((empty ++ first.toList).map (·.indent)).foldl max 0

/-- Reads a block scalar below a node at an indentation. The last line of a text has no break. -/
def readBlockScalar (parent : Nat) (h : Header) (rest : List Line) : Node × List Line :=
  let indent := match h.indent with
    | some n => parent + n
    | none => max (blockIndent rest) (parent + 1)
  let (lines, rest) := takeBlock indent rest
  let body := (lines.reverse.dropWhile List.isEmpty).reverse
  let breaks := if rest.isEmpty then lines.length - 1 else lines.length
  let ending := if body.isEmpty then breaks else breaks - (body.length - 1)
  let kept := match h.keep with
    | some false => 0
    | some true => ending
    | none => if body.isEmpty then 0 else min ending 1
  let text := if h.folded then joinFolded body else joinLiteral body
  (.scalar false none (String.ofList (text ++ List.replicate kept '\n')), rest)

/-! ## Nodes -/

/-- Reads a node that begins in a line, has no properties and is neither a list nor a map laid out
by indentation. -/
def readInline (min : Nat) (cs : List Char) (rest : List Line) : Option (Node × List Line) :=
  match cs with
  | '|' :: header =>
    (readHeader { folded := false } header).map fun h => readBlockScalar (min - 1) h rest
  | '>' :: header =>
    (readHeader { folded := true } header).map fun h => readBlockScalar (min - 1) h rest
  | '[' :: _ | '\x7b' :: _ => do
    let all := cs ++ charsOf rest
    let (n, after) ← readFlow (4 * all.length + 4) all
    some (n, ← afterNode after)
  | '*' :: name => do
    let (name, after) ← readName name
    some (.alias name, ← afterNode (after ++ charsOf rest))
  | _ =>
    if beginsQuoted cs then do
      let (n, after) ← readQuoted (cs ++ charsOf rest)
      some (n, ← afterNode after)
    else if beginsPlain cs then readPlain min cs rest
    else none

/-- Splits a line into a key and what follows its colon. -/
def splitKey (cs : List Char) : Option (Node × List Char) := do
  let (p, cs) ← readProperties (·.dropWhile isSpace) cs
  let (key, rest) ← match cs with
    | '*' :: name => if p = {} then (readName name).map fun (name, r) => (.alias name, r) else none
    | _ =>
      if beginsQuoted cs then readQuoted cs
      else if beginsPlain cs then
        let (text, rest) := readPlainLine false cs
        some (plainNode (text.map .raw), rest)
      else none
  match rest.dropWhile isSpace with
  | ':' :: rest => if endsWord rest then some (key.withProperties p, rest) else none
  | _ => none

/-- Whether a mark stands here as a word. -/
def beginsMark (mark : Char) : List Char → Bool
  | c :: rest => c == mark && endsWord rest
  | [] => false

/-- The lines of a node that begins after a mark in a column. -/
def afterMark (col : Nat) (cs : List Char) (rest : List Line) : List Line :=
  let after := cs.drop 1
  let spaces := (after.takeWhile (· == ' ')).length
  if isVoid after then rest else ⟨col + 1 + spaces, after.dropWhile (· == ' ')⟩ :: rest

mutual
/-- Reads a node from lines that are indented so far; `col` is the column where the items of a list
may stand nevertheless. -/
def readNode : Nat → Nat → Option Nat → List Line → Option (Node × List Line)
  | 0, _, _, _ => none
  | fuel + 1, min, col, lines =>
    match skipVoid lines with
    | [] => some (.nothing, [])
    | l :: rest =>
      if col = some l.indent && beginsMark '-' l.text then
        (readItems fuel l.indent (l :: rest)).map fun (items, r) => (.list items, r)
      else if l.indent < min then some (.nothing, l :: rest)
      else if beginsMark '-' l.text then
        (readItems fuel l.indent (l :: rest)).map fun (items, r) => (.list items, r)
      else if beginsMark '?' l.text || (splitKey l.text).isSome then
        (readEntries fuel l.indent (l :: rest)).map fun (entries, r) => (.map entries, r)
      else readContent fuel min col l.text rest
/-- Reads a node that begins in a line, with its properties; if nothing else stands in the line, the
node itself follows on the lines below. -/
def readContent : Nat → Nat → Option Nat → List Char → List Line → Option (Node × List Line)
  | 0, _, _, _, _ => none
  | fuel + 1, min, col, cs, rest => do
    let (p, after) ← readProperties (·.dropWhile isSpace) cs
    if isVoid after then
      (readNode fuel min col rest).map fun (n, r) => (n.withProperties p, r)
    else if p != {} && after.head? == some '*' then none
    else (readInline min after rest).map fun (n, r) => (n.withProperties p, r)
/-- Reads the items of a list at an indentation. -/
def readItems : Nat → Nat → List Line → Option (List Node × List Line)
  | 0, _, _ => none
  | fuel + 1, col, lines =>
    match skipVoid lines with
    | [] => some ([], [])
    | l :: rest =>
      if col < l.indent then none
      else if l.indent < col || !beginsMark '-' l.text then some ([], l :: rest)
      else do
        let (item, rest) ← readNode fuel (col + 1) none (afterMark col l.text rest)
        let (items, rest) ← readItems fuel col rest
        some (item :: items, rest)
/-- Reads the entries of a map at an indentation. -/
def readEntries : Nat → Nat → List Line → Option (List (Node × Node) × List Line)
  | 0, _, _ => none
  | fuel + 1, col, lines =>
    match skipVoid lines with
    | [] => some ([], [])
    | l :: rest =>
      if col < l.indent then none
      else if l.indent < col then some ([], l :: rest)
      else do
        let (entry, rest) ←
          if beginsMark '?' l.text then readExplicit fuel col (afterMark col l.text rest)
          else do
            let (key, after) ← splitKey l.text
            let (value, rest) ←
              if isVoid after then readNode fuel (col + 1) (some col) rest
              else readContent fuel (col + 1) (some col) (after.dropWhile isSpace) rest
            some ((key, value), rest)
        let (entries, rest) ← readEntries fuel col rest
        some (entry :: entries, rest)
/-- Reads an entry whose key and value follow marks. -/
def readExplicit : Nat → Nat → List Line → Option ((Node × Node) × List Line)
  | 0, _, _ => none
  | fuel + 1, col, lines => do
    let (key, rest) ← readNode fuel (col + 1) (some col) lines
    match skipVoid rest with
    | [] => some ((key, .nothing), [])
    | l :: rest =>
      if l.indent = col && beginsMark ':' l.text then
        (readNode fuel (col + 1) (some col) (afterMark col l.text rest)).map fun (value, r) =>
          ((key, value), r)
      else some ((key, .nothing), l :: rest)
end

/-! ## Names -/

/-- The nodes of names, the latest first. -/
abbrev Names := List (String × Node)

mutual
/-- A node with the nodes of their names instead of aliases; a name counts from the end of its node
on. -/
def Node.resolve (names : Names) : Node → Option (Node × Names)
  | .scalar plain tag text => some (.scalar plain tag text, names)
  | .list items => (resolveItems names items).map fun (items, names) => (.list items, names)
  | .map entries =>
    (resolveEntries names entries).map fun (entries, names) => (.map entries, names)
  | .named name n => (n.resolve names).map fun (n, names) => (n, (name, n) :: names)
  | .alias name => (names.lookup name).map fun n => (n, names)
/-- Resolves the items of a list. -/
def resolveItems (names : Names) : List Node → Option (List Node × Names)
  | [] => some ([], names)
  | n :: rest => do
    let (n, names) ← n.resolve names
    let (rest, names) ← resolveItems names rest
    some (n :: rest, names)
/-- Resolves the entries of a map. -/
def resolveEntries (names : Names) : List (Node × Node) → Option (List (Node × Node) × Names)
  | [] => some ([], names)
  | (k, v) :: rest => do
    let (k, names) ← k.resolve names
    let (v, names) ← v.resolve names
    let (rest, names) ← resolveEntries names rest
    some ((k, v) :: rest, names)
end

/-! ## Documents -/

/-- What follows a document marker on its line; none if the line is no such marker. -/
def afterMarker? (marker : List Char) (l : Line) : Option (List Char) :=
  if l.indent = 0 && marker.isPrefixOf l.text && endsWord (l.text.drop 3) then some (l.text.drop 3)
  else none

/-- The marker before a document. -/
def startMarker : List Char := ['-', '-', '-']

/-- The marker after a document. -/
def endMarker : List Char := ['.', '.', '.']

/-- Whether a line holds nothing, or only the marker after a document. -/
def isEnding (l : Line) : Bool := ((afterMarker? endMarker l).getD l.text |> isVoid)

/-- The lines of a document up to its end; none if another document follows. -/
def documentLines : List Line → Option (List Line)
  | [] => some []
  | l :: rest =>
    if (afterMarker? startMarker l).isSome then none
    else match afterMarker? endMarker l with
      | some after => if isVoid after && rest.all isEnding then some [⟨0, []⟩] else none
      | none => (documentLines rest).map (l :: ·)

/-- The node of what was read, if only lines without content were left. -/
def wholeNode : Option (Node × List Line) → Option Node
  | some (n, rest) =>
    if rest.all fun l => isVoid l.text then (n.resolve []).map (·.1) else none
  | none => none

/-- More than the number of calls that lines can nest. -/
def fuelFor (lines : List Line) : Nat :=
  lines.foldr (fun l fuel => 8 * l.text.length + 32 + fuel) 8

/-- Reads the node after the marker of its document. -/
def readMarked (after : List Char) (lines : List Line) : Option Node :=
  if isVoid after then wholeNode (readNode (fuelFor lines) 0 none lines)
  else
    let fuel := fuelFor lines + 8 * after.length
    wholeNode (readContent fuel 0 none (after.dropWhile isSpace) lines)

/-- Reads a text: the document's node, nothing if the text holds no document, and a failure if the
text is malformed. -/
def parse (s : String) : Option (Option Node) :=
  let cs := match s.toList with
    | c :: rest => if c = Char.ofNat 0xFEFF then rest else c :: rest
    | [] => []
  if !cs.all isPrintable then none
  else
    let lines := skipVoid (linesOf (unifyBreaks cs))
    let body := lines.dropWhile fun l => l.indent = 0 && l.text.head? == some '%'
    match skipVoid body with
    | [] => if lines.isEmpty then some none else none
    | l :: rest =>
      match afterMarker? startMarker l with
      | some after => do
        some (some (← readMarked after (← documentLines rest)))
      | none => if body.length < lines.length then none else do
        let lines ← documentLines (l :: rest)
        if lines.all fun l => isVoid l.text then none
        else some (some (← wholeNode (readNode (fuelFor lines) 0 none lines)))

end SpecEngine.Yaml
