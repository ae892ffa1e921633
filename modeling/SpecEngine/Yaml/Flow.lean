/-
# SpecEngine.Yaml.Flow -- lists and maps in brackets

Inside brackets a document does not depend on its lines: items are separated by commas, and a value
follows its key after a colon. A plain scalar ends where a bracket or a comma stands, where a colon
ends a word, and before a comment. The readers count down a fuel that no text uses up, because every
call takes a character or returns.
-/

import SpecEngine.Yaml.Scalar

namespace SpecEngine.Yaml

/-- The text after blanks, line breaks and comments. -/
def skipGaps (inComment : Bool) : List Char → List Char
  | [] => []
  | c :: rest =>
    if c = '\n' then skipGaps false rest
    else if inComment || isSpace c then skipGaps inComment rest
    else if c = '#' then skipGaps true rest
    else c :: rest

/-- Characters that structure lists and maps in brackets. -/
def isBracket (c : Char) : Bool := [',', '[', ']', '\x7b', '\x7d'].contains c

/-- Reads a plain scalar inside brackets; none if a colon stands where none may. -/
def readPlainFlow (afterGap : Bool) : List Char → Option (List Piece × List Char)
  | [] => some ([], [])
  | c :: rest =>
    if isBracket c || (c = '#' && afterGap) then some ([], c :: rest)
    else if c = ':' && endsWord rest then some ([], c :: rest)
    else if c = ':' && (rest.head?.map fun d => isBracket d || d == '?').getD false then none
    else (readPlainFlow (isGap c) rest).map fun (ps, r) => (.raw c :: ps, r)

/-- The plain scalar of pieces, without the blanks at its end. -/
def plainNode (pieces : List Piece) : Node :=
  let text := fold false [] pieces
  .scalar true none (String.ofList (text.reverse.dropWhile isGap).reverse)

/-- Whether an item inside brackets is over here. -/
def endsFlow (cs : List Char) : Bool :=
  (cs.head?.map fun c => c == ',' || c == ']' || c == '\x7d').getD false

mutual
/-- Reads a node inside brackets. -/
def readFlow : Nat → List Char → Option (Node × List Char)
  | 0, _ => none
  | fuel + 1, cs => do
    let (p, cs) ← readProperties (skipGaps false) cs
    if p != {} && (endsFlow cs || cs.head? == some ':') then
      some (Node.nothing.withProperties p, cs)
    else match cs with
      | '*' :: rest =>
        if p = {} then (readName rest).map fun (name, r) => (.alias name, r) else none
      | '[' :: rest =>
        (readFlowItems fuel (skipGaps false rest)).map fun (items, r) =>
          (Node.withProperties p (.list items), r)
      | '\x7b' :: rest =>
        (readFlowEntries fuel (skipGaps false rest)).map fun (entries, r) =>
          (Node.withProperties p (.map entries), r)
      | _ =>
        if beginsQuoted cs then (readQuoted cs).map fun (n, r) => (n.withProperties p, r)
        else if beginsPlain cs && cs.head? != some ':' then
          (readPlainFlow false cs).map fun (ps, r) => ((plainNode ps).withProperties p, r)
        else none
/-- Reads a node and, if a colon follows, the node that belongs to it. A question mark makes a key
of what follows it. -/
def readFlowPair : Nat → List Char → Option (Node × Option Node × List Char)
  | 0, _ => none
  | fuel + 1, cs => do
    let explicit := cs.head? == some '?' && endsWord (cs.drop 1)
    let cs := if explicit then skipGaps false (cs.drop 1) else cs
    let (key, rest) ←
      if explicit && (endsFlow cs || cs.head? == some ':') then some (.nothing, cs)
      else readFlow fuel cs
    match skipGaps false rest with
    | ':' :: rest =>
      let rest := skipGaps false rest
      if endsFlow rest then some (key, some .nothing, rest)
      else (readFlow fuel rest).map fun (v, r) => (key, some v, r)
    | rest => some (key, if explicit then some .nothing else none, rest)
/-- Reads the items of a list and its end. -/
def readFlowItems : Nat → List Char → Option (List Node × List Char)
  | 0, _ => none
  | fuel + 1, cs =>
    match cs with
    | ']' :: rest => some ([], rest)
    | _ => do
      let (key, value, rest) ← readFlowPair fuel cs
      let item := match value with
        | some v => .map [(key, v)]
        | none => key
      match skipGaps false rest with
      | ']' :: rest => some ([item], rest)
      | ',' :: rest =>
        (readFlowItems fuel (skipGaps false rest)).map fun (items, r) => (item :: items, r)
      | _ => none
/-- Reads the entries of a map and its end. -/
def readFlowEntries : Nat → List Char → Option (List (Node × Node) × List Char)
  | 0, _ => none
  | fuel + 1, cs =>
    match cs with
    | '\x7d' :: rest => some ([], rest)
    | _ => do
      let (key, value, rest) ← readFlowPair fuel cs
      let entry := (key, value.getD .nothing)
      match skipGaps false rest with
      | '\x7d' :: rest => some ([entry], rest)
      | ',' :: rest =>
        (readFlowEntries fuel (skipGaps false rest)).map fun (entries, r) => (entry :: entries, r)
      | _ => none
end

end SpecEngine.Yaml
