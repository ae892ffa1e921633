/-
# SpecEngine.Proofs.Decimals -- numbers come back from their digits

The digits of a number are read as that number. Every character of them is a digit, and only zero
is written with a zero in front. A number that is short enough for a width is written with the
digits of each place.
-/
import SpecEngine.Text.Decimal

namespace SpecEngine.Text.Decimal

/-- What the digit of a number below ten counts for. -/
theorem value?_digit : ∀ n < 10, value? (digit n) = some n := by decide

theorem digit_ne {n : Nat} (hn : n < 10) {c : Char} (hc : value? c = none) : c ≠ digit n := by
  rintro rfl
  rw [value?_digit n hn] at hc
  cases hc

theorem digit_ne_zero : ∀ n < 10, digit n = '0' → n = 0 := by decide

theorem readFrom_append (acc : Nat) (cs ds : List Char) :
    readFrom acc (cs ++ ds) = (readFrom acc cs).bind fun n => readFrom n ds := by
  induction cs generalizing acc with
  | nil => rfl
  | cons c cs ih =>
    simp only [List.cons_append, readFrom]
    cases value? c with
    | none => rfl
    | some d => exact ih (acc * 10 + d)

theorem digits_zero : digits 0 = ['0'] := by
  rw [digits]
  rfl

theorem digits_of_lt {n : Nat} (h : n < 10) : digits n = [digit n] := by
  rw [digits, if_pos h]

theorem digits_ne_nil (n : Nat) : digits n ≠ [] := by
  unfold digits
  split <;> simp

theorem readFrom_digits (n : Nat) : readFrom 0 (digits n) = some n := by
  fun_induction digits n with
  | case1 n h => simp [readFrom, value?_digit n h]
  | case2 n h ih =>
    have hlast : n % 10 < 10 := Nat.mod_lt n (by decide)
    rw [readFrom_append, ih]
    simp only [Option.bind_some, readFrom, value?_digit _ hlast]
    show some (n / 10 * 10 + n % 10) = some n
    rw [Nat.div_add_mod']

theorem read_digits (n : Nat) : read (digits n) = some n := by
  have hdigits : (digits n).isEmpty = false := by simp [digits_ne_nil]
  rw [read, hdigits]
  exact readFrom_digits n

theorem isSome_value?_of_mem_digits {n : Nat} {c : Char} (h : c ∈ digits n) :
    (value? c).isSome = true := by
  fun_induction digits n with
  | case1 n hn =>
    obtain rfl := List.mem_singleton.mp h
    rw [value?_digit n hn]
    rfl
  | case2 n hn ih =>
    rcases List.mem_append.mp h with h | h
    · exact ih h
    · obtain rfl := List.mem_singleton.mp h
      rw [value?_digit _ (Nat.mod_lt n (by decide))]
      rfl

/-- The codes of the characters of a number. -/
theorem toNat_of_mem_digits {n : Nat} {c : Char} (h : c ∈ digits n) :
    48 ≤ c.toNat ∧ c.toNat ≤ 57 := by
  have hvalue := isSome_value?_of_mem_digits h
  unfold value? at hvalue
  split at hvalue
  next hcode => simpa using hcode
  next => cases hvalue

/-- A character that is no digit is not written. -/
theorem notMem_digits {c : Char} (h : value? c = none) (n : Nat) : c ∉ digits n := by
  intro hc
  have hvalue := isSome_value?_of_mem_digits hc
  rw [h] at hvalue
  cases hvalue

/-- A number below a limit is read from its digits. -/
theorem readBelow_digits {limit n : Nat} (h : n < limit) :
    readBelow limit (digits n) = some n := by
  have hplus : ∀ rest, digits n ≠ '+' :: rest := fun rest hdigits =>
    notMem_digits (c := '+') rfl n (hdigits ▸ List.mem_cons_self)
  rw [readBelow, read_digits, Option.bind_eq_bind, Option.bind_some, if_pos h]
  exact hplus

/-- Only zero is written with a zero in front. -/
theorem eq_zero_of_digits_head {n : Nat} (h : (digits n).head? = some '0') : n = 0 := by
  fun_induction digits n with
  | case1 n hn => exact digit_ne_zero n hn (Option.some.inj h)
  | case2 n hn ih =>
    obtain ⟨c, cs, hcs⟩ := List.exists_cons_of_ne_nil (digits_ne_nil (n / 10))
    rw [hcs] at h ih
    have hquotient : n / 10 = 0 := ih h
    omega

theorem padded_one {n : Nat} (h : n < 10) : (padded 1 n).toList = [digit n] := by
  rw [padded, String.toList_ofList, digits_of_lt h]
  rfl

/-- The last digit stands behind the others, which fill the rest of the width. -/
theorem padded_succ (width n : Nat) (h : 0 < width) :
    (padded (width + 1) n).toList = (padded width (n / 10)).toList ++ [digit (n % 10)] := by
  simp only [padded, String.toList_ofList]
  by_cases hn : n < 10
  · obtain ⟨rest, rfl⟩ := Nat.exists_eq_succ_of_ne_zero (Nat.ne_of_gt h)
    rw [digits_of_lt hn, Nat.div_eq_of_lt hn, Nat.mod_eq_of_lt hn, digits_zero]
    simp [List.replicate_succ']
  · rw [digits, if_neg hn, List.length_append, List.length_singleton, Nat.add_sub_add_right,
      List.append_assoc]

theorem padded_two {n : Nat} (h : n < 100) :
    (padded 2 n).toList = [digit (n / 10), digit (n % 10)] := by
  rw [padded_succ 1 n Nat.one_pos, padded_one (by omega)]
  rfl

theorem padded_three {n : Nat} (h : n < 1000) :
    (padded 3 n).toList = [digit (n / 100), digit (n / 10 % 10), digit (n % 10)] := by
  rw [padded_succ 2 n Nat.two_pos, padded_two (by omega), Nat.div_div_eq_div_mul]
  rfl

end SpecEngine.Text.Decimal
