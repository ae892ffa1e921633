/-
# SpecEngine.Text.Basic -- blanks, trimming and cutting

Texts are cut up as lists of characters. A blank is a character with the Unicode property
`White_Space`; trimming removes blanks from both ends and nothing else. The splitting functions keep
every character that is not a separator, and keep empty parts.
-/

namespace SpecEngine.Text

/-! ## Blanks -/

/-- The characters with the Unicode property `White_Space`. -/
def isBlank (c : Char) : Bool :=
  let n := c.toNat
  (9 ≤ n && n ≤ 13) || n == 0x20 || n == 0x85 || n == 0xA0 || n == 0x1680 ||
    (0x2000 ≤ n && n ≤ 0x200A) || n == 0x2028 || n == 0x2029 || n == 0x202F || n == 0x205F ||
    n == 0x3000

/-- Removes blanks from the end. -/
def trimEnd (cs : List Char) : List Char := (cs.reverse.dropWhile isBlank).reverse

/-- Removes blanks from both ends. -/
def trimChars (cs : List Char) : List Char := trimEnd (cs.dropWhile isBlank)

/-- Removes blanks from both ends of a text. -/
def trim (s : String) : String := String.ofList (trimChars s.toList)

/-- A text without any character that is not blank. -/
def isBlankText (s : String) : Bool := s.toList.all isBlank

/-! ## Cutting -/

/-- The parts between the separators; there is one part more than there are separators. -/
def splitOn (sep : Char) : List Char → List (List Char)
  | [] => [[]]
  | c :: cs =>
    if c = sep then [] :: splitOn sep cs
    else match splitOn sep cs with
      | [] => [[c]]
      | part :: parts => (c :: part) :: parts

/-- What stands before and after the first separator. -/
def cutAt (sep : Char) : List Char → Option (List Char × List Char)
  | [] => none
  | c :: cs =>
    if c = sep then some ([], cs)
    else (cutAt sep cs).map fun (before, after) => (c :: before, after)

/-- The longest pieces without a blank. -/
def words (cs : List Char) : List (List Char) :=
  go [] cs
where
  /-- Collects the current piece in reverse. -/
  go (word : List Char) : List Char → List (List Char)
    | [] => if word.isEmpty then [] else [word.reverse]
    | c :: rest =>
      if isBlank c then
        if word.isEmpty then go [] rest else word.reverse :: go [] rest
      else go (c :: word) rest

/-- The parts of a text between separators, as texts. -/
def fields (sep : Char) (s : String) : List String := (splitOn sep s.toList).map String.ofList

/-- Joins texts with a separator between neighbours. -/
def join (sep : String) : List String → String
  | [] => ""
  | [s] => s
  | s :: t :: rest => s ++ sep ++ join sep (t :: rest)

/-- Lines of an output text: a final line break ends the last line. -/
def outputLines (s : String) : List String :=
  match (splitOn '\n' s.toList).reverse with
  | [] :: lines => (lines.reverse).map String.ofList
  | lines => (lines.reverse).map String.ofList

end SpecEngine.Text
