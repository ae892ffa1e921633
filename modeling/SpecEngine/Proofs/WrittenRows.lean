/-
# SpecEngine.Proofs.WrittenRows -- a selection of rows selects what is written

A selection is written as parts with commas between them, and a part as a row number or as two with
a dash between them, the second not below the first. A row number is a numeral from one up to the
greatest 64-bit number, which may have a plus sign in front; there may be blanks around it. The
texts of this form are the ones that are read, and the rows that are selected are those that a part
covers, whatever the order of the parts and however they overlap.

A part is trimmed before it is cut at its dash, and both sides are trimmed again. No blank is a
dash, so this comes to cutting first and trimming the sides.
-/
import Mathlib.Data.Nat.Digits.Defs
import SpecEngine.Proofs.RowSelection

/-! ## Numerals -/

namespace SpecEngine.Text.Decimal

/-- The value of digits, the most significant first. -/
def positional (ds : List Char) : Nat :=
  Nat.ofDigits 10 (ds.reverse.map fun c => c.toNat - '0'.toNat)

theorem positional_nil : positional [] = 0 := rfl

theorem positional_cons (c : Char) (ds : List Char) :
    positional (c :: ds) = (c.toNat - '0'.toNat) * 10 ^ ds.length + positional ds := by
  rw [positional, List.reverse_cons, List.map_append, List.map_singleton, Nat.ofDigits_append,
    Nat.ofDigits_singleton, List.length_map, List.length_reverse, Nat.mul_comm, Nat.add_comm,
    positional]

/-- Digits, and the number that they stand for. -/
structure IsNumeral (ds : List Char) (n : Nat) : Prop where
  nonempty : ds ≠ []
  digits : ∀ c ∈ ds, c.isDigit = true
  value : positional ds = n

theorem isDigit_iff {c : Char} : c.isDigit = true ↔ 48 ≤ c.toNat ∧ c.toNat ≤ 57 := by
  simp only [Char.isDigit, Bool.and_eq_true, decide_eq_true_eq, ge_iff_le, UInt32.le_iff_toNat_le]
  rfl

theorem value?_eq (c : Char) :
    value? c = if c.isDigit then some (c.toNat - '0'.toNat) else none := by
  have hcode : (48 ≤ c.toNat && c.toNat ≤ 57) = c.isDigit := by
    rw [Bool.eq_iff_iff, isDigit_iff]
    simp
  rw [value?, hcode]
  rfl

theorem readFrom_eq_some_iff {acc n : Nat} {cs : List Char} :
    readFrom acc cs = some n ↔
      (∀ c ∈ cs, c.isDigit = true) ∧ acc * 10 ^ cs.length + positional cs = n := by
  induction cs generalizing acc with
  | nil => simp [readFrom, positional_nil]
  | cons c cs ih =>
    rw [readFrom, value?_eq, List.forall_mem_cons]
    cases hc : c.isDigit with
    | false => simp
    | true =>
      have hvalue : (acc * 10 + (c.toNat - '0'.toNat)) * 10 ^ cs.length + positional cs =
          acc * 10 ^ (c :: cs).length + positional (c :: cs) := by
        rw [positional_cons, List.length_cons, pow_succ]
        ring
      rw [if_pos rfl, Option.bind_eq_bind, Option.bind_some, ih, hvalue, eq_self_iff_true, true_and]

/-- Read are the numerals. -/
theorem read_eq_some_iff {cs : List Char} {n : Nat} : read cs = some n ↔ IsNumeral cs n := by
  rw [read]
  split
  next hempty =>
    refine iff_of_false (by simp) fun h => h.nonempty (List.isEmpty_iff.mp hempty)
  next hne =>
    rw [readFrom_eq_some_iff, Nat.zero_mul, Nat.zero_add]
    constructor
    · rintro ⟨hdigits, hvalue⟩
      exact ⟨by simpa using hne, hdigits, hvalue⟩
    · rintro ⟨-, hdigits, hvalue⟩
      exact ⟨hdigits, hvalue⟩

/-- A text that is no sign or a plus sign. -/
def IsSign (cs : List Char) : Prop := cs = [] ∨ cs = ['+']

/-- A number below a limit is read of its numerals, with or without a plus sign. -/
theorem readBelow_eq_some_iff {limit n : Nat} {cs : List Char} :
    readBelow limit cs = some n ↔
      n < limit ∧ ∃ sign ds, cs = sign ++ ds ∧ IsSign sign ∧ IsNumeral ds n := by
  have hread (ds : List Char) :
      ((read ds).bind fun m => if m < limit then some m else none) = some n ↔
        n < limit ∧ IsNumeral ds n := by
    simp only [Option.bind_eq_some_iff, Option.ite_none_right_eq_some, Option.some.injEq,
      read_eq_some_iff]
    constructor
    · rintro ⟨m, hm, hlt, rfl⟩
      exact ⟨hlt, hm⟩
    · rintro ⟨hlt, hn⟩
      exact ⟨n, hn, hlt, rfl⟩
  unfold readBelow
  rw [Option.bind_eq_bind, hread]
  refine and_congr_right fun _ => ?_
  constructor
  · intro h
    split at h
    next rest => exact ⟨['+'], rest, rfl, .inr rfl, h⟩
    next => exact ⟨[], cs, rfl, .inl rfl, h⟩
  · rintro ⟨sign, ds, rfl, rfl | rfl, h⟩
    · rw [List.nil_append]
      split
      next rest =>
        -- a plus sign is no digit
        have hplus := h.digits '+' List.mem_cons_self
        cases hplus
      next => exact h
    · exact h

end SpecEngine.Text.Decimal

namespace SpecEngine.Table

open Text (AllBlank isBlank trimChars trimEnd)
open Text.Decimal (IsNumeral IsSign)

/-! ## The written form -/

/-- A row number as it may be written. -/
inductive RowText : List Char → Nat → Prop
  | mk {before sign ds after n} : AllBlank before → IsSign sign → IsNumeral ds n → 1 ≤ n →
      n < 2 ^ 64 → AllBlank after → RowText (before ++ (sign ++ ds) ++ after) n

/-- A part of a selection as it may be written, with the first and the last row that it covers. -/
inductive PartText : List Char → Nat × Nat → Prop
  | row {cs n} : RowText cs n → PartText cs (n, n)
  | range {cs ds n m} : RowText cs n → RowText ds m → n ≤ m → PartText (cs ++ '-' :: ds) (n, m)

/-- The text between commas spells these parts. -/
def SelectionText (source : String) (parts : List (Nat × Nat)) : Prop :=
  List.Forall₂ PartText (source.toList.splitOnP (· == ',')) parts

/-! ## Row numbers -/

/-- A signed numeral has nothing to trim. -/
theorem trimChars_numeral {sign ds : List Char} {n : Nat} (hsign : IsSign sign)
    (hds : IsNumeral ds n) : trimChars (sign ++ ds) = sign ++ ds := by
  refine Text.trimChars_of_forall fun c hc => ?_
  rcases List.mem_append.mp hc with hc | hc
  · rcases hsign with rfl | rfl
    · cases hc
    · obtain rfl := List.mem_singleton.mp hc
      rfl
  · exact Text.isBlank_of_digit (Text.Decimal.isDigit_iff.mp (hds.digits c hc))

/-- Read as row numbers are the texts of row numbers. -/
theorem readRow_eq_ok_iff {cs : List Char} {n : Nat} : readRow cs = .ok n ↔ RowText cs n := by
  constructor
  · intro h
    have hbounds := readRow_bounds h
    have hread : Text.Decimal.readBelow Text.Decimal.limit64 (trimChars cs) = some n := by
      unfold readRow at h
      split at h
      next => cases h
      next => cases h
      next m _ hm =>
        cases h
        exact hm
    obtain ⟨-, sign, ds, htrim, hsign, hds⟩ := Text.Decimal.readBelow_eq_some_iff.mp hread
    obtain ⟨before, after, hbefore, hafter, hcs⟩ := Text.trimChars_spec cs
    rw [hcs, htrim]
    exact .mk hbefore hsign hds hbounds.1 hbounds.2 hafter
  · rintro ⟨hbefore, hsign, hds, hpos, hlt, hafter⟩
    have hread : Text.Decimal.readBelow Text.Decimal.limit64 _ = some n :=
      Text.Decimal.readBelow_eq_some_iff.mpr ⟨hlt, _, _, rfl, hsign, hds⟩
    rw [readRow, Text.trimChars_padded hbefore hafter, trimChars_numeral hsign hds, hread]
    split
    next h => cases h
    next h => cases h; cases hpos
    next h => cases h; rfl

/-- Blanks in front of a row number, and behind it, make no difference. -/
theorem readRow_trimmed {cs ds : List Char} (h : trimChars cs = trimChars ds) :
    readRow cs = readRow ds := by
  rw [readRow, h, readRow]

theorem RowText.pos {cs : List Char} {n : Nat} (h : RowText cs n) : 1 ≤ n := by
  obtain ⟨-, -, -, hpos, -, -⟩ := h
  exact hpos

theorem RowText.dash_notMem {cs : List Char} {n : Nat} (h : RowText cs n) : '-' ∉ cs := by
  obtain ⟨hbefore, hsign, hds, -, -, hafter⟩ := h
  intro hdash
  rcases List.mem_append.mp hdash with hdash | hdash
  · rcases List.mem_append.mp hdash with hdash | hdash
    · cases hbefore _ hdash
    · rcases List.mem_append.mp hdash with hdash | hdash
      · rcases hsign with rfl | rfl <;> simp at hdash
      · cases hds.digits _ hdash
  · cases hafter _ hdash

/-! ## Parts -/

/-- A part without a dash is read as a row number. -/
theorem readPart_row {cs : List Char} (h : '-' ∉ cs) {r : Nat × Nat} :
    readPart cs = .ok r ↔ ∃ n, readRow cs = .ok n ∧ r = (n - 1, n - 1) := by
  have hcut := Text.cutAt_eq_none (mt Text.mem_of_mem_trimChars h)
  have hrow : readRow (trimChars cs) = readRow cs := readRow_trimmed (Text.trimChars_idem cs)
  unfold readPart
  dsimp only
  split
  next hempty =>
    -- nothing is left of a blank text, and nothing is no numeral
    have hblank : readRow (trimChars cs) = .error (.notANumber "") := by
      rw [List.isEmpty_iff.mp hempty]
      rfl
    rw [← hrow, hblank]
    simp
  next =>
    rw [hcut, hrow]
    cases readRow cs with
    | error fault => simp [bind, Except.bind]
    | ok n => simp [bind, Except.bind, eq_comm]

/-- A part with a dash is read as the row numbers on both sides of its first one. -/
theorem readPart_range {cs : List Char} (h : '-' ∉ cs) (ds : List Char) {r : Nat × Nat} :
    readPart (cs ++ '-' :: ds) = .ok r ↔
      ∃ n m, readRow cs = .ok n ∧ readRow ds = .ok m ∧ n ≤ m ∧ r = (n - 1, m - 1) := by
  have hfront : '-' ∉ cs.dropWhile isBlank := fun hdash =>
    h ((List.dropWhile_suffix isBlank).subset hdash)
  have htrim : trimChars (cs ++ '-' :: ds) = cs.dropWhile isBlank ++ '-' :: trimEnd ds :=
    Text.trimChars_append_cons rfl cs ds
  have hne : (cs.dropWhile isBlank ++ '-' :: trimEnd ds).isEmpty = false := by simp
  rw [readPart, htrim]
  simp only [hne, Bool.false_eq_true, if_false, Text.cutAt_append_cons hfront,
    readRow_trimmed (Text.trimChars_dropWhile cs), readRow_trimmed (Text.trimChars_trimEnd ds)]
  cases readRow cs with
  | error fault => simp [bind, Except.bind]
  | ok n =>
    cases readRow ds with
    | error fault => simp [bind, Except.bind]
    | ok m =>
      by_cases hle : n ≤ m
      · simp [bind, Except.bind, hle, Nat.not_lt.mpr hle, eq_comm]
      · simp [bind, Except.bind, hle, Nat.lt_of_not_le hle]

/-- A part that is read is the text of what is read; positions are counted from zero. -/
theorem partText_of_readPart {cs : List Char} {r : Nat × Nat} (h : readPart cs = .ok r) :
    PartText cs (r.1 + 1, r.2 + 1) := by
  by_cases hdash : '-' ∈ cs
  · obtain ⟨first, last, rfl, hfirst⟩ := List.eq_append_cons_of_mem hdash
    obtain ⟨n, m, hn, hm, hle, rfl⟩ := (readPart_range hfirst last).mp h
    have hpos := (readRow_bounds hn).1
    have hpart := PartText.range (readRow_eq_ok_iff.mp hn) (readRow_eq_ok_iff.mp hm) hle
    rwa [Nat.sub_add_cancel hpos, Nat.sub_add_cancel (Nat.le_trans hpos hle)]
  · obtain ⟨n, hn, rfl⟩ := (readPart_row hdash).mp h
    have hpart := PartText.row (readRow_eq_ok_iff.mp hn)
    rwa [Nat.sub_add_cancel (readRow_bounds hn).1]

theorem PartText.read {cs : List Char} {part : Nat × Nat} (h : PartText cs part) :
    readPart cs = .ok (part.1 - 1, part.2 - 1) := by
  cases h with
  | row hrow =>
    exact (readPart_row hrow.dash_notMem).mpr ⟨_, readRow_eq_ok_iff.mpr hrow, rfl⟩
  | range hfirst hlast hle =>
    exact (readPart_range hfirst.dash_notMem _).mpr
      ⟨_, _, readRow_eq_ok_iff.mpr hfirst, readRow_eq_ok_iff.mpr hlast, hle, rfl⟩

/-- Row numbers are counted from one. -/
theorem PartText.pos {cs : List Char} {part : Nat × Nat} (h : PartText cs part) :
    1 ≤ part.1 ∧ 1 ≤ part.2 := by
  cases h with
  | row hrow => exact ⟨hrow.pos, hrow.pos⟩
  | range hfirst hlast _ => exact ⟨hfirst.pos, hlast.pos⟩

/-! ## Selections -/

/-- The texts of selections are read part by part. -/
theorem SelectionText.parse {source : String} {parts : List (Nat × Nat)}
    (h : SelectionText source parts) :
    Rows.parse source = .ok ⟨mergedRanges (parts.map fun part => (part.1 - 1, part.2 - 1))⟩ := by
  refine parse_of_parts ?_
  rw [mapM_eq_ok_iff, Text.splitOn_eq_splitOnP, List.forall₂_map_right_iff]
  exact h.imp fun _ _ => PartText.read

theorem selectionText_of_readParts {source : String} {ranges : List (Nat × Nat)}
    (h : (Text.splitOn ',' source.toList).mapM readPart = .ok ranges) :
    SelectionText source (ranges.map fun r => (r.1 + 1, r.2 + 1)) := by
  rw [mapM_eq_ok_iff, Text.splitOn_eq_splitOnP] at h
  exact List.forall₂_map_right_iff.mpr (h.imp fun _ _ => partText_of_readPart)

theorem parts_pos {texts : List (List Char)} {parts : List (Nat × Nat)}
    (h : List.Forall₂ PartText texts parts) : ∀ part ∈ parts, 1 ≤ part.1 ∧ 1 ≤ part.2 := by
  induction h with
  | nil => simp
  | cons hpart _ ih => exact List.forall_mem_cons.mpr ⟨hpart.pos, ih⟩

/-- What is read of a selection covers the rows that its parts cover. -/
theorem SelectionText.contains_iff {source : String} {parts : List (Nat × Nat)} {rows : Rows}
    (h : SelectionText source parts) (hrows : Rows.parse source = .ok rows) (i : Nat) :
    rows.contains i = true ↔ ∃ part ∈ parts, part.1 ≤ i + 1 ∧ i + 1 ≤ part.2 := by
  obtain rfl : _ = rows := Except.ok.inj (h.parse.symm.trans hrows)
  have hpart : ∀ part ∈ parts,
      (part.1 - 1 ≤ i ∧ i ≤ part.2 - 1 ↔ part.1 ≤ i + 1 ∧ i + 1 ≤ part.2) := by
    intro part hmem
    have hpos := parts_pos h part hmem
    omega
  rw [Table.contains_iff, covers_mergedRanges]
  simp only [Covers, List.mem_map, exists_exists_and_eq_and]
  exact exists_congr fun part => and_congr_right (hpart part)

/-- A selection selects what is written. The texts that are read are those whose parts between
commas are row numbers and ranges. Selected are the rows that one of the parts covers, they are
listed in ascending order, and the greatest of them is the last. -/
theorem selects_written (source : String) :
    ((∃ rows, Rows.parse source = .ok rows) ↔ ∃ parts, SelectionText source parts) ∧
      ∀ rows parts, Rows.parse source = .ok rows → SelectionText source parts →
        (∀ i, rows.contains i = true ↔ ∃ part ∈ parts, part.1 ≤ i + 1 ∧ i + 1 ≤ part.2) ∧
          (∀ i, i ∈ rows.toList ↔ rows.contains i = true) ∧
          rows.toList.Pairwise (· < ·) ∧
          ∃ last, rows.last? = some last ∧ IsGreatest {i | rows.contains i = true} last := by
  refine ⟨⟨fun ⟨rows, h⟩ => ?_, fun ⟨parts, h⟩ => ⟨_, h.parse⟩⟩, ?_⟩
  · obtain ⟨ranges, hranges, -⟩ := parse_eq_ok h
    exact ⟨_, selectionText_of_readParts (mapM_eq_ok_iff.mpr hranges)⟩
  intro rows parts hrows hparts
  have hproper := parse_proper hrows
  exact ⟨hparts.contains_iff hrows, fun i => mem_toList, toList_ascending hproper.toCanonical,
    hproper.last?_isGreatest⟩

/-- Overlapping parts in no order, with blanks, a plus sign and zeros in front. -/
theorem selects_written_overlapping :
    SelectionText " 3 - 0005 ,+1,4-6" [(3, 5), (1, 1), (4, 6)] ∧
      Rows.parse " 3 - 0005 ,+1,4-6" = .ok ⟨[(0, 0), (2, 5)]⟩ ∧
      (∀ i, (Rows.mk [(0, 0), (2, 5)]).contains i = true ↔
        ∃ part ∈ [(3, 5), (1, 1), (4, 6)], part.1 ≤ i + 1 ∧ i + 1 ≤ part.2) ∧
      (Rows.mk [(0, 0), (2, 5)]).last? = some 5 ∧
      IsGreatest {i | (Rows.mk [(0, 0), (2, 5)]).contains i = true} 5 := by
  have hparts : (Text.splitOn ',' " 3 - 0005 ,+1,4-6".toList).mapM readPart =
      .ok [(2, 4), (0, 0), (3, 5)] := by
    decide +kernel
  have hrows : Rows.parse " 3 - 0005 ,+1,4-6" = .ok ⟨[(0, 0), (2, 5)]⟩ := by
    rw [parse_of_parts hparts]
    simp [mergedRanges, List.mergeSort, rangeLe, joinRanges]
  have htext : SelectionText " 3 - 0005 ,+1,4-6" [(3, 5), (1, 1), (4, 6)] :=
    selectionText_of_readParts hparts
  obtain ⟨hcontains, -, -, last, hlast, hgreatest⟩ :=
    (selects_written " 3 - 0005 ,+1,4-6").2 _ _ hrows htext
  obtain rfl : 5 = last := Option.some.inj hlast
  exact ⟨htext, hrows, hcontains, rfl, hgreatest⟩

end SpecEngine.Table
