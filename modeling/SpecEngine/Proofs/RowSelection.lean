/-
# SpecEngine.Proofs.RowSelection -- the canonical form of row selections

A selection that was read is held as ranges that ascend, with an unselected row between neighbours.
There is one such list of ranges for a set of rows, so two texts give the same ranges exactly when
they select the same rows, and the text that is written of ranges is read as these ranges.

All of this is carried by what sorting and joining do to the rows that ranges cover, which is
nothing. Where a range begins, where it ends and that there is one at all are facts about covered
rows.

Row numbers are 64-bit numbers, counted from one; positions are counted from zero. The computations
are stated a second time in arithmetic that gives up where a sum needs more than 64 bits or a
difference is below zero. It never gives up: the last row is number 2^64 - 1, its position is one
less, and one more than that is all that is ever asked for.
-/
import SpecEngine.Engine.Plan
import SpecEngine.Proofs.Decimals
import SpecEngine.Proofs.Readings
import Mathlib.Order.Bounds.Defs

namespace SpecEngine.Table

/-! ## Rows that ranges cover -/

/-- The row at a position lies in one of the ranges. -/
def Covers (ranges : List (Nat × Nat)) (i : Nat) : Prop := ∃ r ∈ ranges, r.1 ≤ i ∧ i ≤ r.2

/-- No range ends before it begins. -/
def Ordered (ranges : List (Nat × Nat)) : Prop := ∀ r ∈ ranges, r.1 ≤ r.2

theorem contains_iff {rows : Rows} {i : Nat} : rows.contains i = true ↔ Covers rows.ranges i := by
  simp [Rows.contains, Covers]

theorem covers_nil {i : Nat} : ¬Covers [] i := by simp [Covers]

theorem covers_cons {r : Nat × Nat} {rest : List (Nat × Nat)} {i : Nat} :
    Covers (r :: rest) i ↔ (r.1 ≤ i ∧ i ≤ r.2) ∨ Covers rest i := by
  simp [Covers]

/-- A range covers its first row. -/
theorem Ordered.covers_first {ranges : List (Nat × Nat)} (h : Ordered ranges) {r : Nat × Nat}
    (hr : r ∈ ranges) : Covers ranges r.1 := ⟨r, hr, Nat.le_refl _, h r hr⟩

/-- A range covers its last row. -/
theorem Ordered.covers_last {ranges : List (Nat × Nat)} (h : Ordered ranges) {r : Nat × Nat}
    (hr : r ∈ ranges) : Covers ranges r.2 := ⟨r, hr, h r hr, Nat.le_refl _⟩

/-! ## The canonical form -/

/-- Ranges that ascend, with an uncovered row between neighbours. -/
structure Canonical (ranges : List (Nat × Nat)) : Prop where
  ordered : Ordered ranges
  apart : ranges.Pairwise fun a b => a.2 + 1 < b.1

theorem Canonical.tail {r : Nat × Nat} {rest : List (Nat × Nat)} (h : Canonical (r :: rest)) :
    Canonical rest :=
  ⟨fun a ha => h.ordered a (List.mem_cons_of_mem r ha), h.apart.of_cons⟩

/-- What the other ranges cover lies behind the first one and the row after it. -/
theorem Canonical.behind {r : Nat × Nat} {rest : List (Nat × Nat)} (h : Canonical (r :: rest))
    {i : Nat} (hi : Covers rest i) : r.2 + 1 < i := by
  obtain ⟨a, ha, hle, -⟩ := hi
  have hapart := List.rel_of_pairwise_cons h.apart ha
  omega

/-- Nothing in front of the first range is covered. -/
theorem Canonical.first_le {r : Nat × Nat} {rest : List (Nat × Nat)} (h : Canonical (r :: rest))
    {i : Nat} (hi : Covers (r :: rest) i) : r.1 ≤ i := by
  have hr := h.ordered r List.mem_cons_self
  rcases covers_cons.mp hi with hi | hi
  · exact hi.1
  · have hbehind := h.behind hi
    omega

/-- The first range goes as far as rows are covered without a gap. -/
theorem Canonical.last_le {a b : Nat × Nat} {as bs : List (Nat × Nat)} (hb : Canonical (b :: bs))
    (hfirst : a.1 = b.1) (h : ∀ i, Covers (a :: as) i → Covers (b :: bs) i) : a.2 ≤ b.2 := by
  by_contra hlt
  have hbefore := hb.ordered b List.mem_cons_self
  have hgap : Covers (a :: as) (b.2 + 1) := covers_cons.mpr (.inl ⟨by omega, by omega⟩)
  rcases covers_cons.mp (h _ hgap) with hin | hlater
  · omega
  · have hbehind := hb.behind hlater
    omega

/-- Ranges in canonical form are determined by the rows that they cover. -/
theorem Canonical.ext {as bs : List (Nat × Nat)} (ha : Canonical as) (hb : Canonical bs)
    (h : ∀ i, Covers as i ↔ Covers bs i) : as = bs := by
  induction as generalizing bs with
  | nil =>
    cases bs with
    | nil => rfl
    | cons b bs => exact absurd ((h b.1).mpr (hb.ordered.covers_first List.mem_cons_self)) covers_nil
  | cons a as ih =>
    cases bs with
    | nil => exact absurd ((h a.1).mp (ha.ordered.covers_first List.mem_cons_self)) covers_nil
    | cons b bs =>
      have hfirst : a.1 = b.1 := by
        have hab := ha.first_le ((h b.1).mpr (hb.ordered.covers_first List.mem_cons_self))
        have hba := hb.first_le ((h a.1).mp (ha.ordered.covers_first List.mem_cons_self))
        omega
      have hlast : a.2 = b.2 :=
        Nat.le_antisymm (hb.last_le hfirst fun i => (h i).mp)
          (ha.last_le hfirst.symm fun i => (h i).mpr)
      obtain rfl : a = b := Prod.ext hfirst hlast
      -- the ranges behind the first one cover what it does not
      have hrest : ∀ i, Covers as i ↔ Covers bs i := by
        intro i
        have hcover := h i
        rw [covers_cons, covers_cons] at hcover
        constructor
        · intro hi
          have hbehind := ha.behind hi
          exact (hcover.mp (.inr hi)).resolve_left (by omega)
        · intro hi
          have hbehind := hb.behind hi
          exact (hcover.mpr (.inr hi)).resolve_left (by omega)
      rw [ih ha.tail hb.tail hrest]

/-! ## Joining -/

/-- The ranges are in the order of their beginnings. -/
def Ascending (ranges : List (Nat × Nat)) : Prop := ranges.Pairwise fun a b => a.1 ≤ b.1

theorem rangeLe_trans (a b c : Nat × Nat) (hab : rangeLe a b = true) (hbc : rangeLe b c = true) :
    rangeLe a c = true := by
  simp only [rangeLe, Bool.or_eq_true, Bool.and_eq_true, decide_eq_true_eq, beq_iff_eq] at *
  omega

theorem rangeLe_total (a b : Nat × Nat) : (rangeLe a b || rangeLe b a) = true := by
  simp only [rangeLe, Bool.or_eq_true, Bool.and_eq_true, decide_eq_true_eq, beq_iff_eq]
  omega

theorem mergeSort_ascending (ranges : List (Nat × Nat)) : Ascending (ranges.mergeSort rangeLe) := by
  refine (List.pairwise_mergeSort rangeLe_trans rangeLe_total ranges).imp fun {a b} hle => ?_
  simp only [rangeLe, Bool.or_eq_true, Bool.and_eq_true, decide_eq_true_eq, beq_iff_eq] at hle
  omega

theorem covers_mergeSort {ranges : List (Nat × Nat)} {i : Nat} :
    Covers (ranges.mergeSort rangeLe) i ↔ Covers ranges i := by
  simp only [Covers, List.mem_mergeSort]

theorem Ascending.joined {a b : Nat × Nat} {rest : List (Nat × Nat)}
    (h : Ascending (a :: b :: rest)) : Ascending ((a.1, max a.2 b.2) :: rest) := by
  obtain ⟨hfirst, hrest⟩ := List.pairwise_cons.mp h
  exact .cons (fun c hc => hfirst c (List.mem_cons_of_mem b hc)) hrest.of_cons

theorem Ordered.joined {a b : Nat × Nat} {rest : List (Nat × Nat)} (h : Ordered (a :: b :: rest)) :
    Ordered ((a.1, max a.2 b.2) :: rest) := by
  obtain ⟨ha, hrest⟩ := List.forall_mem_cons.mp h
  refine List.forall_mem_cons.mpr ⟨?_, (List.forall_mem_cons.mp hrest).2⟩
  exact Nat.le_trans ha (Nat.le_max_left _ _)

/-- Joining ranges leaves covered what was covered. -/
theorem covers_joinRanges {ranges : List (Nat × Nat)} (h : Ascending ranges) (i : Nat) :
    Covers (joinRanges ranges) i ↔ Covers ranges i := by
  fun_induction joinRanges ranges with
  | case1 => rfl
  | case2 r => rfl
  | case3 a b rest htouch ih =>
    have hle : a.1 ≤ b.1 := List.rel_of_pairwise_cons h List.mem_cons_self
    rw [ih h.joined, covers_cons, covers_cons, covers_cons, ← or_assoc]
    refine or_congr_left ?_
    omega
  | case4 a b rest _ ih =>
    rw [covers_cons, ih h.of_cons, ← covers_cons]

theorem joinRanges_ordered {ranges : List (Nat × Nat)} (h : Ordered ranges) :
    Ordered (joinRanges ranges) := by
  fun_induction joinRanges ranges with
  | case1 => exact h
  | case2 r => exact h
  | case3 a b rest _ ih => exact ih h.joined
  | case4 a b rest _ ih =>
    obtain ⟨ha, hrest⟩ := List.forall_mem_cons.mp h
    exact List.forall_mem_cons.mpr ⟨ha, ih hrest⟩

/-- Joining brings ranges into canonical form. -/
theorem joinRanges_canonical {ranges : List (Nat × Nat)} (hascending : Ascending ranges)
    (hordered : Ordered ranges) : Canonical (joinRanges ranges) := by
  refine ⟨joinRanges_ordered hordered, ?_⟩
  fun_induction joinRanges ranges with
  | case1 => exact .nil
  | case2 r => exact List.pairwise_singleton _ r
  | case3 a b rest _ ih => exact ih hascending.joined hordered.joined
  | case4 a b rest hgap ih =>
    have hrest : Ordered (b :: rest) := (List.forall_mem_cons.mp hordered).2
    refine .cons (fun r hr => ?_) (ih hascending.of_cons hrest)
    -- the first row of what was joined is covered by a range that does not begin before `b`
    obtain ⟨c, hc, hle, -⟩ := (covers_joinRanges hascending.of_cons _).mp
      ((joinRanges_ordered hrest).covers_first hr)
    have hbc : b.1 ≤ c.1 := by
      rcases List.mem_cons.mp hc with rfl | hc
      · exact Nat.le_refl _
      · exact List.rel_of_pairwise_cons hascending.of_cons hc
    omega

/-- The ranges that are held of the parts of a text. -/
def mergedRanges (parts : List (Nat × Nat)) : List (Nat × Nat) :=
  joinRanges (parts.mergeSort rangeLe)

theorem covers_mergedRanges {parts : List (Nat × Nat)} {i : Nat} :
    Covers (mergedRanges parts) i ↔ Covers parts i := by
  rw [mergedRanges, covers_joinRanges (mergeSort_ascending parts), covers_mergeSort]

theorem mergedRanges_canonical {parts : List (Nat × Nat)} (h : Ordered parts) :
    Canonical (mergedRanges parts) :=
  joinRanges_canonical (mergeSort_ascending parts) fun r hr => h r (List.mem_mergeSort.mp hr)

/-- Ranges in canonical form stay as they are. -/
theorem mergedRanges_of_canonical {ranges : List (Nat × Nat)} (h : Canonical ranges) :
    mergedRanges ranges = ranges :=
  (mergedRanges_canonical h.ordered).ext h fun _ => covers_mergedRanges

/-! ## Reading -/

/-- A row number that was read is at least one and a 64-bit number. -/
theorem readRow_bounds {cs : List Char} {n : Nat} (h : readRow cs = .ok n) :
    0 < n ∧ n < Text.Decimal.limit64 := by
  unfold readRow at h
  split at h
  next => cases h
  next => cases h
  next n' hpos hread =>
    cases h
    refine ⟨Nat.pos_of_ne_zero hpos, ?_⟩
    obtain ⟨m, -, hm⟩ := Option.bind_eq_some_iff.mp hread
    split at hm
    next hlt =>
      cases hm
      exact hlt
    next => cases hm

/-- A range of 64-bit row numbers, as positions. -/
structure Fits (r : Nat × Nat) : Prop where
  le : r.1 ≤ r.2
  lt : r.2 + 1 < Text.Decimal.limit64

/-- The row numbers of a part that was read. -/
theorem readPart_fits {cs : List Char} {r : Nat × Nat} (h : readPart cs = .ok r) : Fits r := by
  unfold readPart at h
  dsimp only at h
  split at h
  next => cases h
  next =>
    split at h
    next first last _ =>
      obtain ⟨n, hn, h⟩ := bind_eq_ok h
      obtain ⟨m, hm, h⟩ := bind_eq_ok h
      have hfirst := readRow_bounds hn
      have hlast := readRow_bounds hm
      split at h
      next => cases h
      next hle =>
        cases h
        exact ⟨by dsimp only; omega, by dsimp only; omega⟩
    next =>
      obtain ⟨n, hn, h⟩ := bind_eq_ok h
      have hrow := readRow_bounds hn
      cases h
      exact ⟨Nat.le_refl _, by dsimp only; omega⟩

theorem parse_of_parts {source : String} {parts : List (Nat × Nat)}
    (h : (Text.splitOn ',' source.toList).mapM readPart = .ok parts) :
    Rows.parse source = .ok ⟨mergedRanges parts⟩ := by
  rw [Rows.parse, h]
  rfl

/-- A selection that is read is merged from the ranges of the parts of its text. -/
theorem parse_eq_ok {source : String} {rows : Rows} (h : Rows.parse source = .ok rows) :
    ∃ parts, List.Forall₂ (fun cs r => readPart cs = .ok r) (Text.splitOn ',' source.toList) parts ∧
      rows.ranges = mergedRanges parts := by
  unfold Rows.parse at h
  split at h
  next parts hparts =>
    cases h
    exact ⟨parts, mapM_eq_ok_iff.mp hparts, rfl⟩
  next => cases h

theorem parts_fit {texts : List (List Char)} {parts : List (Nat × Nat)}
    (h : List.Forall₂ (fun cs r => readPart cs = .ok r) texts parts) : ∀ r ∈ parts, Fits r := by
  induction h with
  | nil => simp
  | cons hpart _ ih => exact List.forall_mem_cons.mpr ⟨readPart_fits hpart, ih⟩

/-- The ranges of a selection that was read. -/
structure Rows.Proper (rows : Rows) : Prop extends Canonical rows.ranges where
  nonempty : rows.ranges ≠ []
  fits : ∀ r ∈ rows.ranges, Fits r

theorem parse_proper {source : String} {rows : Rows} (h : Rows.parse source = .ok rows) :
    rows.Proper := by
  obtain ⟨parts, hparts, hranges⟩ := parse_eq_ok h
  have hfit := parts_fit hparts
  have hordered : Ordered parts := fun r hr => (hfit r hr).le
  have hcanonical : Canonical rows.ranges := hranges ▸ mergedRanges_canonical hordered
  refine ⟨hcanonical, fun hempty => ?_, fun r hr => ⟨hcanonical.ordered r hr, ?_⟩⟩
  · -- the text has a part, whose first row is covered
    obtain ⟨cs, rest, htexts⟩ := List.exists_cons_of_ne_nil (Text.splitOn_ne_nil ',' source.toList)
    rw [htexts] at hparts
    obtain ⟨r, more, -, -, rfl⟩ := List.forall₂_cons_left_iff.mp hparts
    have hfirst := covers_mergedRanges.mpr (hordered.covers_first List.mem_cons_self)
    rw [← hranges, hempty] at hfirst
    exact covers_nil hfirst
  · obtain ⟨a, ha, -, hle⟩ := covers_mergedRanges.mp (hranges ▸ hcanonical.ordered.covers_last hr)
    have := (hfit a ha).lt
    omega

/-! ## Writing -/

theorem isBlank_of_mem_digits {n : Nat} {c : Char} (h : c ∈ Text.Decimal.digits n) :
    Text.isBlank c = false := Text.isBlank_of_digit (Text.Decimal.toNat_of_mem_digits h)

theorem readRow_digits {n : Nat} (hpos : 0 < n) (hlt : n < Text.Decimal.limit64) :
    readRow (Text.Decimal.digits n) = .ok n := by
  rw [readRow, Text.trimChars_of_forall fun c => isBlank_of_mem_digits,
    Text.Decimal.readBelow_digits hlt]
  split
  next h => cases h
  next h => cases h; cases hpos
  next h => cases h; rfl

theorem rangeText_toList (r : Nat × Nat) :
    (rangeText r).toList = if r.1 = r.2 then Text.Decimal.digits (r.1 + 1)
      else Text.Decimal.digits (r.1 + 1) ++ '-' :: Text.Decimal.digits (r.2 + 1) := by
  rw [rangeText]
  split <;> simp [Text.Decimal.text]

/-- The text of a range holds digits and dashes only. -/
theorem mem_rangeText {r : Nat × Nat} {c : Char} (h : c ∈ (rangeText r).toList) :
    c = '-' ∨ ∃ n, c ∈ Text.Decimal.digits n := by
  rw [rangeText_toList] at h
  split at h
  next => exact .inr ⟨_, h⟩
  next =>
    rcases List.mem_append.mp h with h | h
    · exact .inr ⟨_, h⟩
    · exact (List.mem_cons.mp h).imp id fun h => ⟨_, h⟩

theorem comma_notMem_rangeText (r : Nat × Nat) : ',' ∉ (rangeText r).toList := by
  intro h
  rcases mem_rangeText h with h | ⟨n, h⟩
  · cases h
  · exact Text.Decimal.notMem_digits rfl n h

theorem trimChars_rangeText (r : Nat × Nat) :
    Text.trimChars (rangeText r).toList = (rangeText r).toList := by
  refine Text.trimChars_of_forall fun c hc => ?_
  rcases mem_rangeText hc with rfl | ⟨n, h⟩
  · rfl
  · exact isBlank_of_mem_digits h

/-- What is written of a range is read as this range. -/
theorem readPart_rangeText {r : Nat × Nat} (h : Fits r) : readPart (rangeText r).toList = .ok r := by
  have hfirst : readRow (Text.Decimal.digits (r.1 + 1)) = .ok (r.1 + 1) :=
    readRow_digits (Nat.succ_pos _) (by have := h.le; have := h.lt; omega)
  have hlast : readRow (Text.Decimal.digits (r.2 + 1)) = .ok (r.2 + 1) :=
    readRow_digits (Nat.succ_pos _) h.lt
  have hdash : ∀ n, '-' ∉ Text.Decimal.digits n := Text.Decimal.notMem_digits rfl
  rw [readPart, trimChars_rangeText, rangeText_toList]
  by_cases hone : r.1 = r.2
  · rw [if_pos hone, Text.cutAt_eq_none (hdash _)]
    have hne : (Text.Decimal.digits (r.1 + 1)).isEmpty = false := by
      simp [Text.Decimal.digits_ne_nil]
    simp only [hne, hfirst]
    show Except.ok (r.1, r.1) = Except.ok r
    exact congrArg Except.ok (Prod.ext rfl hone)
  · rw [if_neg hone, Text.cutAt_append_cons (hdash _)]
    have hne : (Text.Decimal.digits (r.1 + 1) ++ '-' :: Text.Decimal.digits (r.2 + 1)).isEmpty =
        false := by simp
    simp only [hne, hfirst, hlast]
    show (if r.2 + 1 < r.1 + 1 then _ else Except.ok (r.1, r.2)) = Except.ok r
    rw [if_neg (by have := h.le; omega)]

/-- The text of a selection that was read is read as this selection. -/
theorem Rows.Proper.parse_text {rows : Rows} (h : rows.Proper) :
    Rows.parse rows.text = .ok rows := by
  have hparts : Text.splitOn ',' rows.text.toList =
      rows.ranges.map fun r => (rangeText r).toList := by
    have hcomma : ∀ s ∈ rows.ranges.map rangeText, ',' ∉ s.toList := by
      intro s hs
      obtain ⟨r, -, rfl⟩ := List.mem_map.mp hs
      exact comma_notMem_rangeText r
    have hne : rows.ranges.map rangeText ≠ [] := mt List.map_eq_nil_iff.mp h.nonempty
    rw [Rows.text, show "," = String.singleton ',' from rfl, Text.splitOn_join hne hcomma,
      List.map_map]
    rfl
  have hread : (Text.splitOn ',' rows.text.toList).mapM readPart = .ok rows.ranges := by
    rw [mapM_eq_ok_iff, hparts, List.forall₂_map_left_iff, List.forall₂_same]
    exact fun r hr => readPart_rangeText (h.fits r hr)
  rw [parse_of_parts hread, mergedRanges_of_canonical h.toCanonical]

/-! ## Selected rows -/

theorem mem_toList {rows : Rows} {i : Nat} : i ∈ rows.toList ↔ rows.contains i = true := by
  rw [contains_iff, Rows.toList, List.mem_flatMap]
  refine exists_congr fun r => and_congr_right fun _ => ?_
  rw [List.mem_range'_1]
  omega

/-- The selected rows are listed in ascending order, each once. -/
theorem toList_ascending {rows : Rows} (h : Canonical rows.ranges) :
    rows.toList.Pairwise (· < ·) := by
  rw [Rows.toList, List.pairwise_flatMap]
  refine ⟨fun r _ => List.pairwise_lt_range', h.apart.imp fun {a b} hapart i hi j hj => ?_⟩
  rw [List.mem_range'_1] at hi hj
  omega

/-- The last row is the greatest that is selected, and there is one. -/
theorem Rows.Proper.last?_isGreatest {rows : Rows} (h : rows.Proper) :
    ∃ last, rows.last? = some last ∧ IsGreatest {i | rows.contains i = true} last := by
  obtain ⟨before, r, hranges⟩ := (List.eq_nil_or_concat' rows.ranges).resolve_left h.nonempty
  have hr : r ∈ rows.ranges := hranges ▸ List.mem_append_right before List.mem_cons_self
  refine ⟨r.2, by simp [Rows.last?, hranges], contains_iff.mpr (h.ordered.covers_last hr), ?_⟩
  intro i hi
  obtain ⟨a, ha, -, hle⟩ := contains_iff.mp hi
  have hapart := h.apart
  rw [hranges] at ha hapart
  rcases List.mem_append.mp ha with ha | ha
  · have hgap := (List.pairwise_append.mp hapart).2.2 a ha r List.mem_cons_self
    have hle' := h.ordered r hr
    omega
  · obtain rfl := List.mem_singleton.mp ha
    exact hle

/-! ## 64-bit arithmetic -/

/-- The sum of two numbers, if it has 64 bits. -/
def add64 (a b : Nat) : Option Nat :=
  if a + b < Text.Decimal.limit64 then some (a + b) else none

/-- The difference of two numbers, if it is not below zero. -/
def sub64 (a b : Nat) : Option Nat := if b ≤ a then some (a - b) else none

theorem add64_eq {a b : Nat} (h : a + b < Text.Decimal.limit64) : add64 a b = some (a + b) :=
  if_pos h

theorem sub64_eq {a b : Nat} (h : b ≤ a) : sub64 a b = some (a - b) := if_pos h

/-- Reads a row number or a range in 64-bit arithmetic. -/
def readPart64 (cs : List Char) : Option (Except RowFault (Nat × Nat)) :=
  let part := Text.trimChars cs
  if part.isEmpty then some (.error .emptyPart)
  else match Text.cutAt '-' part with
    | some (first, last) =>
      match readRow first, readRow last with
      | .error fault, _ => some (.error fault)
      | .ok _, .error fault => some (.error fault)
      | .ok first, .ok last =>
        if last < first then some (.error (.descending first last))
        else do some (.ok (← sub64 first 1, ← sub64 last 1))
    | none =>
      match readRow part with
      | .error fault => some (.error fault)
      | .ok row => do some (.ok (← sub64 row 1, ← sub64 row 1))

/-- Reads parts in order, up to the first that is at fault. -/
def readParts64 : List (List Char) → Option (Except RowFault (List (Nat × Nat)))
  | [] => some (.ok [])
  | cs :: rest => do
    match ← readPart64 cs with
    | .error fault => some (.error fault)
    | .ok r => do some ((← readParts64 rest).map (r :: ·))

/-- Joins neighbours that overlap or touch in 64-bit arithmetic. -/
def joinRanges64 : List (Nat × Nat) → Option (List (Nat × Nat))
  | [] => some []
  | [r] => some [r]
  | a :: b :: rest => do
    if b.1 ≤ (← add64 a.2 1) then joinRanges64 ((a.1, max a.2 b.2) :: rest)
    else some (a :: (← joinRanges64 (b :: rest)))
termination_by rs => rs.length

/-- Reads a selection in 64-bit arithmetic. -/
def Rows.parse64 (source : String) : Option (Except InvalidRows Rows) := do
  match ← readParts64 (Text.splitOn ',' source.toList) with
  | .error fault => some (.error ⟨source, fault⟩)
  | .ok parts => do some (.ok ⟨← joinRanges64 (parts.mergeSort rangeLe)⟩)

/-- The text of a range in 64-bit arithmetic. -/
def rangeText64 (r : Nat × Nat) : Option String := do
  let first := Text.Decimal.text (← add64 r.1 1)
  if r.1 = r.2 then some first else some (first ++ "-" ++ Text.Decimal.text (← add64 r.2 1))

/-- The canonical text of a selection in 64-bit arithmetic. -/
def Rows.text64 (rows : Rows) : Option String := do
  some (Text.join "," (← rows.ranges.mapM rangeText64))

theorem readPart64_eq (cs : List Char) : readPart64 cs = some (readPart cs) := by
  unfold readPart64 readPart
  dsimp only
  split
  next => rfl
  next =>
    cases Text.cutAt '-' (Text.trimChars cs) with
    | none =>
      cases hrow : readRow (Text.trimChars cs) with
      | error fault => rfl
      | ok row =>
        dsimp only
        rw [sub64_eq (readRow_bounds hrow).1]
        rfl
    | some cut =>
      obtain ⟨first, last⟩ := cut
      dsimp only
      cases hfirst : readRow first with
      | error fault => rfl
      | ok n =>
        cases hlast : readRow last with
        | error fault => rfl
        | ok m =>
          dsimp only
          rw [sub64_eq (readRow_bounds hfirst).1, sub64_eq (readRow_bounds hlast).1]
          show (if m < n then _ else _) = some (if m < n then _ else _)
          split <;> rfl

theorem readParts64_eq (texts : List (List Char)) :
    readParts64 texts = some (texts.mapM readPart) := by
  induction texts with
  | nil => rfl
  | cons cs rest ih =>
    rw [readParts64, readPart64_eq, List.mapM_cons, Option.bind_eq_bind, Option.bind_some]
    cases readPart cs with
    | error fault => rfl
    | ok r =>
      rw [ih]
      cases rest.mapM readPart <;> rfl

/-- Joining asks for the row after the end of a range, of which no row number is in the way. -/
theorem joinRanges64_eq {ranges : List (Nat × Nat)}
    (h : ∀ r ∈ ranges, r.2 + 1 < Text.Decimal.limit64) :
    joinRanges64 ranges = some (joinRanges ranges) := by
  fun_induction joinRanges ranges with
  | case1 => rw [joinRanges64]
  | case2 r => rw [joinRanges64]
  | case3 a b rest htouch ih =>
    obtain ⟨ha, hrest⟩ := List.forall_mem_cons.mp h
    obtain ⟨hb, hrest⟩ := List.forall_mem_cons.mp hrest
    rw [joinRanges64, add64_eq ha, Option.bind_eq_bind, Option.bind_some, if_pos htouch]
    refine ih (List.forall_mem_cons.mpr ⟨?_, hrest⟩)
    dsimp only
    omega
  | case4 a b rest hgap ih =>
    obtain ⟨ha, hrest⟩ := List.forall_mem_cons.mp h
    rw [joinRanges64, add64_eq ha, Option.bind_eq_bind, Option.bind_some, if_neg hgap, ih hrest]
    rfl

theorem parse64_eq (source : String) : Rows.parse64 source = some (Rows.parse source) := by
  rw [Rows.parse64, readParts64_eq, Option.bind_eq_bind, Option.bind_some, Rows.parse]
  cases hparts : (Text.splitOn ',' source.toList).mapM readPart with
  | error fault => rfl
  | ok parts =>
    have hfit := parts_fit (mapM_eq_ok_iff.mp hparts)
    dsimp only
    rw [joinRanges64_eq fun r hr => (hfit r (List.mem_mergeSort.mp hr)).lt]
    rfl

theorem rangeText64_eq {r : Nat × Nat} (h : Fits r) : rangeText64 r = some (rangeText r) := by
  have hfirst : r.1 + 1 < Text.Decimal.limit64 := Nat.lt_of_le_of_lt (Nat.succ_le_succ h.le) h.lt
  rw [rangeText64, add64_eq hfirst, add64_eq h.lt, rangeText]
  show (if r.1 = r.2 then _ else _) = some (if r.1 = r.2 then _ else _)
  split <;> rfl

theorem rangeTexts64_eq {ranges : List (Nat × Nat)} (h : ∀ r ∈ ranges, Fits r) :
    ranges.mapM rangeText64 = some (ranges.map rangeText) := by
  induction ranges with
  | nil => rfl
  | cons r rest ih =>
    obtain ⟨hr, hrest⟩ := List.forall_mem_cons.mp h
    rw [List.mapM_cons, rangeText64_eq hr, ih hrest]
    rfl

theorem Rows.Proper.text64_eq {rows : Rows} (h : rows.Proper) : rows.text64 = some rows.text := by
  rw [Rows.text64, rangeTexts64_eq h.fits]
  rfl

end SpecEngine.Table

namespace SpecEngine.Engine

open Table (Rows Canonical add64 add64_eq)
open Item (Specification)

/-! ## Reporting a missing row -/

/-- The fault of a specification whose table lacks a selected row, in 64-bit arithmetic. -/
def rowFault64 (last : Nat) (spec : Specification) : Option (Option Config.Fault) :=
  match spec.dataTable with
  | none => some none
  | some t =>
    if spec.scenarios.any (·.usesTable) && t.rowCount ≤ last then do
      some (some (.rowOutOfRange spec.fileName (← add64 last 1) t.rowCount))
    else some none

theorem rowFault64_eq {last : Nat} (h : last + 1 < Text.Decimal.limit64) (spec : Specification) :
    rowFault64 last spec = some (rowFault last spec) := by
  unfold rowFault64 rowFault
  cases spec.dataTable with
  | none => rfl
  | some t =>
    dsimp only
    rw [add64_eq h]
    split <;> rfl

/-- Row selections have a canonical form. The ranges of a selection that was read ascend with an
unselected row between neighbours, its text is read as this selection, and two selections that were
read are equal when they select the same rows. Reading any text, writing what was read and reporting
that its last row is missing can be done in 64-bit arithmetic. -/
theorem selections_canonical {source other : String} {rows rows' : Rows}
    (h : Rows.parse source = .ok rows) (h' : Rows.parse other = .ok rows') :
    Canonical rows.ranges ∧
      Rows.parse rows.text = .ok rows ∧
      (rows = rows' ↔ ∀ i, rows.contains i = rows'.contains i) ∧
      (∀ text, Rows.parse64 text = some (Rows.parse text)) ∧
      rows.text64 = some rows.text ∧
      ∀ last spec, rows.last? = some last → rowFault64 last spec = some (rowFault last spec) := by
  have hproper := Table.parse_proper h
  have hproper' := Table.parse_proper h'
  refine ⟨hproper.toCanonical, hproper.parse_text, ⟨fun heq _ => heq ▸ rfl, fun hsame => ?_⟩,
    Table.parse64_eq, hproper.text64_eq, fun last spec hlast => ?_⟩
  · have hcovers : ∀ i, Table.Covers rows.ranges i ↔ Table.Covers rows'.ranges i := fun i => by
      rw [← Table.contains_iff, ← Table.contains_iff, hsame]
    have hranges := hproper.toCanonical.ext hproper'.toCanonical hcovers
    exact congrArg Rows.mk hranges
  · obtain ⟨r, hr, rfl⟩ := Option.map_eq_some_iff.mp hlast
    exact rowFault64_eq (hproper.fits r (List.mem_of_getLast? hr)).lt spec

/-- Two texts of the same rows, up to the last one that has a number. -/
theorem last_row_canonical :
    Rows.parse "4-6,3-5, 1,18446744073709551615" =
        .ok ⟨[(0, 0), (2, 5), (18446744073709551614, 18446744073709551614)]⟩ ∧
      Canonical [(0, 0), (2, 5), (18446744073709551614, 18446744073709551614)] ∧
      Rows.parse64 "4-6,3-5, 1,18446744073709551615" =
        Rows.parse64 "1-1,3-6 , 18446744073709551615" := by
  have hparts : (Text.splitOn ',' "4-6,3-5, 1,18446744073709551615".toList).mapM Table.readPart =
      .ok [(3, 5), (2, 4), (0, 0), (18446744073709551614, 18446744073709551614)] := by
    decide +kernel
  have hparts' : (Text.splitOn ',' "1-1,3-6 , 18446744073709551615".toList).mapM Table.readPart =
      .ok [(0, 0), (2, 5), (18446744073709551614, 18446744073709551614)] := by
    decide +kernel
  have h : Rows.parse "4-6,3-5, 1,18446744073709551615" =
      .ok ⟨[(0, 0), (2, 5), (18446744073709551614, 18446744073709551614)]⟩ := by
    rw [Table.parse_of_parts hparts]
    simp [Table.mergedRanges, List.mergeSort, Table.rangeLe, Table.joinRanges]
  have h' : Rows.parse "1-1,3-6 , 18446744073709551615" =
      .ok ⟨[(0, 0), (2, 5), (18446744073709551614, 18446744073709551614)]⟩ := by
    rw [Table.parse_of_parts hparts']
    simp [Table.mergedRanges, List.mergeSort, Table.rangeLe, Table.joinRanges]
  obtain ⟨hcanonical, -, -, hread, -, -⟩ := selections_canonical h h'
  exact ⟨h, hcanonical, by rw [hread, hread, h, h']⟩

end SpecEngine.Engine
