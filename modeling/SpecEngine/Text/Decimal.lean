/-
# SpecEngine.Text.Decimal -- whole numbers in decimal notation

Writing and reading of natural numbers. A number is written with the fewest digits. Read are one or
more of the ten ASCII digits, leading zeros included; `readBelow` also takes one plus sign in front
and refuses numbers that reach a limit, as the fixed-width types of the formats do.
-/

namespace SpecEngine.Text.Decimal

/-- The digit for a number below ten. -/
def digit (n : Nat) : Char := Char.ofNat (48 + n)

/-- The decimal digits of a number, the most significant first. -/
def digits (n : Nat) : List Char :=
  if n < 10 then [digit n] else digits (n / 10) ++ [digit (n % 10)]
termination_by n

/-- The decimal text of a number. -/
def text (n : Nat) : String := String.ofList (digits n)

/-- The decimal text of a number with zeros in front up to a width. -/
def padded (width n : Nat) : String :=
  let ds := digits n
  String.ofList (List.replicate (width - ds.length) '0' ++ ds)

/-- The value of an ASCII digit. -/
def value? (c : Char) : Option Nat :=
  if 48 ≤ c.toNat && c.toNat ≤ 57 then some (c.toNat - 48) else none

/-- Reads digits up to the end, starting with the value of those already read. -/
def readFrom (acc : Nat) : List Char → Option Nat
  | [] => some acc
  | c :: cs => do readFrom (acc * 10 + (← value? c)) cs

/-- Reads one or more digits and nothing else. -/
def read (cs : List Char) : Option Nat := if cs.isEmpty then none else readFrom 0 cs

/-- Reads a number below a limit; a plus sign may stand in front. -/
def readBelow (limit : Nat) (cs : List Char) : Option Nat := do
  let n ← read (match cs with
    | '+' :: rest => rest
    | cs => cs)
  if n < limit then some n else none

/-- One more than the greatest 64-bit number. -/
def limit64 : Nat := 18446744073709551616

/-- One more than the greatest 32-bit number. -/
def limit32 : Nat := 4294967296

end SpecEngine.Text.Decimal
