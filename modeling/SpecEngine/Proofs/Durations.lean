/-
# SpecEngine.Proofs.Durations -- printed durations, and reading them back

A duration is printed in one of three forms, and the form shows the unit: milliseconds end with
their unit and have no point, the other two have three places behind a point, and minutes stand in
front of two digits of seconds. So the exact count of milliseconds is read back from the text, and
no two durations are printed alike.

The middle form is that of a fraction of seconds with three places. It is the same text if the
fraction is first put into a binary one and only then rounded to three places: what binary fractions
lose is much less than half a millisecond, so the nearest thousandth is the count itself. Above a
minute nothing is rounded.
-/
import Mathlib.Algebra.Order.Round
import Mathlib.Data.Int.Log
import Mathlib.Data.Rat.Floor
import Mathlib.Tactic.Linarith
import Mathlib.Tactic.NormNum
import Mathlib.Tactic.Positivity
import SpecEngine.Proofs.Decimals
import SpecEngine.Proofs.Readings
import SpecEngine.Report.Duration

namespace SpecEngine.Report

open Text.Decimal (digit digits padded text)

/-! ## The three forms -/

/-- The text of a duration: milliseconds below a second, seconds with three places below a minute,
otherwise minutes, two digits of seconds and three places. -/
inductive Printed : List Char → Nat → Prop
  | milliseconds {ms : Nat} : ms < 1000 → Printed (digits ms ++ ['m', 's']) ms
  | seconds {ms s a b c : Nat} : 0 < s → s < 60 → a < 10 → b < 10 → c < 10 →
      ms = 1000 * s + (100 * a + 10 * b + c) →
      Printed (digits s ++ '.' :: digit a :: digit b :: digit c :: ['s']) ms
  | minutes {ms m s t a b c : Nat} : 0 < m → s < 6 → t < 10 → a < 10 → b < 10 → c < 10 →
      ms = 1000 * (60 * m + (10 * s + t)) + (100 * a + 10 * b + c) →
      Printed (digits m ++ 'm' :: digit s :: digit t :: '.' ::
        digit a :: digit b :: digit c :: ['s']) ms

theorem printed_durationText (ms : Nat) : Printed (durationText ms).toList ms := by
  have hplaces := Text.Decimal.padded_three (Nat.mod_lt ms (by decide : 0 < 1000))
  rw [durationText]
  split_ifs with hsecond hminute
  · have htext : (text ms ++ "ms").toList = digits ms ++ ['m', 's'] := by
      simp [Text.Decimal.text]
    rw [htext]
    exact .milliseconds (by omega)
  · have htext : (text (ms / 1000) ++ "." ++ padded 3 (ms % 1000) ++ "s").toList =
        digits (ms / 1000) ++ '.' :: ((padded 3 (ms % 1000)).toList ++ ['s']) := by
      simp [Text.Decimal.text]
    rw [htext, hplaces]
    exact .seconds (by omega) hminute (by omega) (by omega) (by omega) (by omega)
  · have hseconds := Text.Decimal.padded_two (n := ms / 1000 % 60) (by omega)
    have htext : (text (ms / 1000 / 60) ++ "m" ++ padded 2 (ms / 1000 % 60) ++ "." ++
        padded 3 (ms % 1000) ++ "s").toList =
        digits (ms / 1000 / 60) ++ 'm' :: ((padded 2 (ms / 1000 % 60)).toList ++
          '.' :: ((padded 3 (ms % 1000)).toList ++ ['s'])) := by
      simp [Text.Decimal.text]
    rw [htext, hseconds, hplaces]
    exact .minutes (by omega) (by omega) (by omega) (by omega) (by omega) (by omega) (by omega)

/-! ## Reading a duration back -/

/-- Reads a number with the given number of digits. -/
def readFixed (width : Nat) (cs : List Char) : Option Nat :=
  if cs.length = width then Text.Decimal.read cs else none

/-- Reads whole seconds, or minutes and two digits of seconds. -/
def readSeconds (cs : List Char) : Option Nat :=
  match Text.cutAt 'm' cs with
  | none => Text.Decimal.read cs
  | some (minutes, seconds) => do
    let m ← Text.Decimal.read minutes
    let s ← readFixed 2 seconds
    some (60 * m + s)

/-- Reads the milliseconds of a printed duration. -/
def readDuration (cs : List Char) : Option Nat :=
  match Text.cutAt '.' cs with
  | none =>
    match Text.cutAt 'm' cs with
    | some (ms, ['s']) => Text.Decimal.read ms
    | _ => none
  | some (whole, places) =>
    match Text.cutAt 's' places with
    | some (places, []) => do
      let seconds ← readSeconds whole
      let thousandths ← readFixed 3 places
      some (1000 * seconds + thousandths)
    | _ => none

theorem read_two {a b : Nat} (ha : a < 10) (hb : b < 10) :
    readFixed 2 [digit a, digit b] = some (10 * a + b) := by
  simp [readFixed, Text.Decimal.read, Text.Decimal.readFrom, Text.Decimal.value?_digit, ha, hb,
    Nat.mul_comm]

theorem read_three {a b c : Nat} (ha : a < 10) (hb : b < 10) (hc : c < 10) :
    readFixed 3 [digit a, digit b, digit c] = some (100 * a + 10 * b + c) := by
  simp [readFixed, Text.Decimal.read, Text.Decimal.readFrom, Text.Decimal.value?_digit, ha, hb, hc]
  omega

/-- The three places are read up to the unit behind them. -/
theorem readDuration_places {whole : List Char} {a b c seconds : Nat} (ha : a < 10) (hb : b < 10)
    (hc : c < 10) (hpoint : '.' ∉ whole) (hseconds : readSeconds whole = some seconds) :
    readDuration (whole ++ '.' :: digit a :: digit b :: digit c :: ['s']) =
      some (1000 * seconds + (100 * a + 10 * b + c)) := by
  have hunit : 's' ∉ [digit a, digit b, digit c] := by
    simp only [List.mem_cons, List.not_mem_nil, or_false, not_or]
    exact ⟨Text.Decimal.digit_ne ha rfl, Text.Decimal.digit_ne hb rfl,
      Text.Decimal.digit_ne hc rfl⟩
  have hplaces : Text.cutAt 's' (digit a :: digit b :: digit c :: ['s']) =
      some ([digit a, digit b, digit c], []) := Text.cutAt_append_cons hunit []
  rw [readDuration, Text.cutAt_append_cons hpoint]
  simp only [hplaces, hseconds, read_three ha hb hc, Option.bind_eq_bind, Option.bind_some]

theorem readSeconds_digits (s : Nat) : readSeconds (digits s) = some s := by
  have hminutes : 'm' ∉ digits s := Text.Decimal.notMem_digits rfl s
  rw [readSeconds, Text.cutAt_eq_none hminutes]
  exact Text.Decimal.read_digits s

theorem readSeconds_minutes (m : Nat) {s t : Nat} (hs : s < 10) (ht : t < 10) :
    readSeconds (digits m ++ 'm' :: [digit s, digit t]) = some (60 * m + (10 * s + t)) := by
  have hminutes : 'm' ∉ digits m := Text.Decimal.notMem_digits rfl m
  rw [readSeconds, Text.cutAt_append_cons hminutes]
  simp only [Text.Decimal.read_digits, read_two hs ht, Option.bind_eq_bind, Option.bind_some]

/-- What is printed in one of the three forms is read as the milliseconds that it stands for. -/
theorem Printed.read {cs : List Char} {ms : Nat} (h : Printed cs ms) :
    readDuration cs = some ms := by
  cases h with
  | milliseconds h =>
    have hpoint : '.' ∉ digits ms ++ ['m', 's'] := by
      simp [Text.Decimal.notMem_digits (c := '.') rfl]
    have hunit : Text.cutAt 'm' (digits ms ++ ['m', 's']) = some (digits ms, ['s']) :=
      Text.cutAt_append_cons (Text.Decimal.notMem_digits rfl ms) ['s']
    rw [readDuration, Text.cutAt_eq_none hpoint]
    simp only [hunit, Text.Decimal.read_digits]
  | @seconds _ s a b c _ _ ha hb hc hms =>
    have hpoint : '.' ∉ digits s := Text.Decimal.notMem_digits rfl s
    rw [hms]
    exact readDuration_places ha hb hc hpoint (readSeconds_digits s)
  | @minutes _ m s t a b c _ hs ht ha hb hc hms =>
    have hless : s < 10 := by omega
    have hpoint : '.' ∉ digits m ++ 'm' :: [digit s, digit t] := by
      simp only [List.mem_append, List.mem_cons, List.not_mem_nil, or_false, not_or]
      exact ⟨Text.Decimal.notMem_digits rfl m, by decide, Text.Decimal.digit_ne hless rfl,
        Text.Decimal.digit_ne ht rfl⟩
    have hread := readDuration_places ha hb hc hpoint (readSeconds_minutes m hless ht)
    rw [hms]
    simpa using hread

/-! ## Seconds as binary fractions -/

/-- Of zero and of numbers from 1/1024 up to 1024 the rounding keeps 53 binary places: it is off by
half of the last one at most. -/
def Accurate (rounding : ℚ → ℚ) : Prop :=
  ∀ x, x = 0 ∨ 1 / 2 ^ 10 ≤ |x| ∧ |x| ≤ 2 ^ 10 → |rounding x - x| ≤ |x| / 2 ^ 53

/-- A duration as a binary fraction of seconds. The nanoseconds below a second are divided and
rounded, then added to the whole seconds and rounded again. -/
def binarySeconds (rounding : ℚ → ℚ) (ms : Nat) : ℚ :=
  rounding ((ms / 1000 : Nat) + rounding ((ms % 1000 * 1000000 : Nat) / 1000000000))

/-- What is kept of a number of moderate size is off by little. -/
theorem Accurate.error_le {rounding : ℚ → ℚ} (h : Accurate rounding) {x bound : ℚ}
    (hx : x = 0 ∨ 1 / 2 ^ 10 ≤ x) (hbound : x ≤ bound) (hmost : bound ≤ 2 ^ 10) :
    |rounding x - x| ≤ bound / 2 ^ 53 := by
  have hnonneg : 0 ≤ x := by
    rcases hx with rfl | hleast
    · exact le_rfl
    · exact le_trans (by norm_num) hleast
  have hsize : x = 0 ∨ 1 / 2 ^ 10 ≤ |x| ∧ |x| ≤ 2 ^ 10 := by
    rw [abs_of_nonneg hnonneg]
    exact hx.imp_right fun hleast => ⟨hleast, hbound.trans hmost⟩
  refine (h x hsize).trans (div_le_div_of_nonneg_right ?_ (by positivity))
  rwa [abs_of_nonneg hnonneg]

/-- The fraction of a second that is divided has thousandths. -/
theorem fraction_eq (ms : Nat) :
    ((ms % 1000 * 1000000 : Nat) : ℚ) / 1000000000 = (ms % 1000 : Nat) / 1000 := by
  push_cast
  ring

theorem fraction_le_one (ms : Nat) : ((ms % 1000 : Nat) : ℚ) / 1000 ≤ 1 := by
  have hless : ms % 1000 ≤ 1000 := by omega
  rw [div_le_one (by norm_num)]
  exact_mod_cast hless

/-- No thousandth is so small that rounding would lose more of it than its share. -/
theorem fraction_moderate (ms : Nat) :
    ((ms % 1000 : Nat) : ℚ) / 1000 = 0 ∨ 1 / 2 ^ 10 ≤ ((ms % 1000 : Nat) : ℚ) / 1000 := by
  rcases Nat.eq_zero_or_pos (ms % 1000) with hzero | hpos
  · exact .inl (by rw [hzero, Nat.cast_zero, zero_div])
  · have hone : (1 : ℚ) ≤ (ms % 1000 : Nat) := by exact_mod_cast hpos
    exact .inr (by linarith)

theorem seconds_add_fraction (ms : Nat) :
    (ms : ℚ) = 1000 * ((ms / 1000 : Nat) + (ms % 1000 : Nat) / 1000) := by
  have hdivided : (ms : ℚ) = 1000 * (ms / 1000 : Nat) + (ms % 1000 : Nat) := by
    exact_mod_cast (Nat.div_add_mod ms 1000).symm
  rw [hdivided]
  ring

/-- Between a second and a minute the fraction is off by less than half a millisecond. -/
theorem binarySeconds_close {rounding : ℚ → ℚ} (h : Accurate rounding) {ms : Nat}
    (hfrom : 1000 ≤ ms) (hto : ms < 60000) : |1000 * binarySeconds rounding ms - ms| < 1 / 2 := by
  have hparts := seconds_add_fraction ms
  have hleast := fraction_moderate ms
  have hmost := fraction_le_one ms
  have hseconds : (1 : ℚ) ≤ (ms / 1000 : Nat) ∧ ((ms / 1000 : Nat) : ℚ) ≤ 60 := by
    have hbounds : 1 ≤ ms / 1000 ∧ ms / 1000 ≤ 60 := by omega
    exact_mod_cast hbounds
  have hnonneg : (0 : ℚ) ≤ (ms % 1000 : Nat) / 1000 := by positivity
  rw [binarySeconds, fraction_eq]
  generalize ((ms / 1000 : Nat) : ℚ) = s at *
  generalize ((ms % 1000 : Nat) : ℚ) / 1000 = f at *
  -- the sum is rounded once more, and by then it has already been off by a little
  obtain ⟨hbelow, habove⟩ := abs_le.mp (h.error_le hleast hmost (by norm_num))
  have hsum : 1 / 2 ^ 10 ≤ s + rounding f := by linarith
  have hsum' : s + rounding f ≤ 62 := by linarith
  obtain ⟨hbelow', habove'⟩ := abs_le.mp (h.error_le (.inr hsum) hsum' (by norm_num))
  rw [hparts, abs_lt]
  constructor <;> linarith

/-- The nearest whole number is the one that is off by less than a half. -/
theorem nearest_iff {x : ℚ} {m : Nat} (h : |x - m| < 1 / 2) (n : Nat) :
    |x - n| ≤ 1 / 2 ↔ n = m := by
  constructor
  · intro hn
    obtain ⟨hbelow, habove⟩ := abs_lt.mp h
    obtain ⟨hbelow', habove'⟩ := abs_le.mp hn
    have hless : (n : ℚ) < m + 1 := by linarith
    have hmore : (m : ℚ) < n + 1 := by linarith
    have hupper : n < m + 1 := by exact_mod_cast hless
    have hlower : m < n + 1 := by exact_mod_cast hmore
    omega
  · rintro rfl
    exact h.le

/-- A number of thousandths with three places. -/
def threePlaces (n : Nat) : String := text (n / 1000) ++ "." ++ padded 3 (n % 1000)

theorem durationText_seconds {ms : Nat} (hfrom : 1000 ≤ ms) (hto : ms < 60000) :
    durationText ms = threePlaces ms ++ "s" := by
  have hsome : ms / 1000 ≠ 0 := by omega
  have hless : ms / 1000 < 60 := by omega
  rw [durationText, if_neg hsome, if_pos hless, threePlaces]

/-- A duration is printed in the form of its unit, and the text is read back as the milliseconds it
was printed from. So two durations are printed alike only if they are equal. Between a second and a
minute the text is that of the nearest thousandth, even if seconds are calculated as binary
fractions. -/
theorem durations_printed_exactly (ms : Nat) :
    Printed (durationText ms).toList ms ∧ readDuration (durationText ms).toList = some ms ∧
    (∀ ms', durationText ms' = durationText ms ↔ ms' = ms) ∧
    (1000 ≤ ms → ms < 60000 → durationText ms = threePlaces ms ++ "s" ∧
      ∀ rounding, Accurate rounding → ∀ n : Nat,
        |1000 * binarySeconds rounding ms - n| ≤ 1 / 2 ↔ n = ms) := by
  have hread (ms : Nat) : readDuration (durationText ms).toList = some ms :=
    (printed_durationText ms).read
  refine ⟨printed_durationText ms, hread ms, fun ms' => ⟨fun hsame => ?_, congrArg durationText⟩,
    fun hfrom hto => ⟨durationText_seconds hfrom hto, fun rounding haccurate => ?_⟩⟩
  · have hboth := hread ms'
    rw [hsame, hread ms] at hboth
    exact (Option.some.inj hboth).symm
  · exact nearest_iff (binarySeconds_close haccurate hfrom hto)

/-- Rounds to 53 binary places. -/
def toBinary (x : ℚ) : ℚ :=
  round (x * 2 ^ (52 - Int.log 2 |x|)) / 2 ^ (52 - Int.log 2 |x|)

theorem accurate_toBinary : Accurate toBinary := by
  intro x _
  by_cases hx : x = 0
  · simp [hx, toBinary]
  have hlog : (2 : ℚ) ^ Int.log 2 |x| ≤ |x| := by
    exact_mod_cast Int.zpow_log_le_self (b := 2) (by decide) (abs_pos.mpr hx)
  rw [toBinary]
  generalize Int.log 2 |x| = e at hlog
  have hscale : (0 : ℚ) < 2 ^ (52 - e) := zpow_pos two_pos _
  have hhalf : |(round (x * 2 ^ (52 - e)) : ℚ) - x * 2 ^ (52 - e)| ≤ 1 / 2 := by
    rw [abs_sub_comm]
    exact abs_sub_round _
  have hplace : 1 / 2 / (2 : ℚ) ^ (52 - e) = 2 ^ e / 2 ^ 53 := by
    rw [zpow_sub₀ two_ne_zero]
    field_simp
  calc |(round (x * 2 ^ (52 - e)) : ℚ) / 2 ^ (52 - e) - x|
      = |(round (x * 2 ^ (52 - e)) : ℚ) - x * 2 ^ (52 - e)| / 2 ^ (52 - e) := by
        rw [← abs_of_pos hscale, ← abs_div, abs_of_pos hscale, sub_div,
          mul_div_cancel_right₀ x hscale.ne']
    _ ≤ 1 / 2 / 2 ^ (52 - e) := div_le_div_of_nonneg_right hhalf hscale.le
    _ = 2 ^ e / 2 ^ 53 := hplace
    _ ≤ |x| / 2 ^ 53 := div_le_div_of_nonneg_right hlog (by positivity)

/-- A millisecond before a full minute: rounding does not carry into the minute. -/
theorem last_millisecond_printed :
    durationText 59999 = "59.999s" ∧ readDuration "59.999s".toList = some 59999 ∧
      ∀ n : Nat, |1000 * binarySeconds toBinary 59999 - n| ≤ 1 / 2 ↔ n = 59999 := by
  obtain ⟨-, hread, -, hseconds⟩ := durations_printed_exactly 59999
  obtain ⟨htext, hnearest⟩ := hseconds (by decide) (by decide)
  have hplaces : threePlaces 59999 ++ "s" = "59.999s" := by decide +kernel
  rw [htext, hplaces] at hread
  exact ⟨htext.trans hplaces, hread, hnearest toBinary accurate_toBinary⟩

end SpecEngine.Report
