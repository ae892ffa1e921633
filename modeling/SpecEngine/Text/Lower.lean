/-
# SpecEngine.Text.Lower -- small letters

The small-letter form of a text in the sense of the Unicode standard: every character is replaced by
its full lower-case mapping. Two characters are special. The capital dotted I has a small form of
two characters, and a capital sigma becomes the final sigma where a word ends.
-/

import SpecEngine.Text.CaseTable

namespace SpecEngine.Text

/-- Whether a number lies in one of the ranges. -/
def inRanges (ranges : List (Nat × Nat)) (n : Nat) : Bool :=
  ranges.any fun (first, last) => first ≤ n && n ≤ last

/-- Letters with case that end a run of ignorable characters. -/
def isCased (c : Char) : Bool := inRanges casedRanges c.toNat

/-- Characters passed over when a word's end is looked for. -/
def isIgnorable (c : Char) : Bool := inRanges ignorableRanges c.toNat

/-- The small form of a single character, final sigma aside. -/
def lowerChar (c : Char) : List Char :=
  let n := c.toNat
  if n < 0x80 then [c.toLower]
  else if n = 0x130 then ['i', Char.ofNat 0x307]
  else match smallRuns.find? fun r => r.first ≤ n && n ≤ r.last && (n - r.first) % r.step == 0 with
    | some r => [Char.ofNat ((n : Int) + r.shift).toNat]
    | none => [c]

/-- Whether the first character that is not ignorable has case. -/
def meetsCased (cs : List Char) : Bool :=
  match cs.dropWhile isIgnorable with
  | [] => false
  | c :: _ => isCased c

/-- The small form of a text; `before` holds the characters already passed, the nearest first. -/
def lowerFrom (before : List Char) : List Char → List Char
  | [] => []
  | c :: cs =>
    (if c = 'Σ' then if meetsCased before && !meetsCased cs then ['ς'] else ['σ'] else lowerChar c)
      ++ lowerFrom (c :: before) cs

/-- The small form of a list of characters. -/
def lowerChars (cs : List Char) : List Char := lowerFrom [] cs

/-- The small form of a text. -/
def lower (s : String) : String := String.ofList (lowerChars s.toList)

end SpecEngine.Text
