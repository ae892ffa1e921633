/-
# SpecEngine.Proofs.Readings -- trimmed texts, texts in parts and readings that fail

What readers of texts share. Trimming takes blanks from the ends: it leaves nothing of a blank text,
takes nothing from a text that has no blanks, and around a character that is no blank it goes on at
both sides. A text is split at separators part by part, so parts that are joined by a separator
which none of them holds are split again. A reading in stages succeeds when every stage does.
-/
import Mathlib.Data.List.Basic
import Mathlib.Data.List.DropRight
import Mathlib.Data.List.Forall2
import Mathlib.Data.List.TakeWhile
import SpecEngine.Text.Basic

namespace SpecEngine

/-! ## Stages that may fail -/

/-- A stage that succeeds passes its value on. -/
theorem bind_eq_ok {ε α β : Type} {x : Except ε α} {f : α → Except ε β} {b : β}
    (h : (x >>= f) = .ok b) : ∃ a, x = .ok a ∧ f a = .ok b := by
  cases x with
  | error e => cases h
  | ok a => exact ⟨a, rfl, h⟩

/-- Reading the members of a list succeeds when each of them is read. -/
theorem mapM_eq_ok_iff {ε α β : Type} {f : α → Except ε β} {as : List α} {bs : List β} :
    as.mapM f = .ok bs ↔ List.Forall₂ (fun a b => f a = .ok b) as bs := by
  induction as generalizing bs with
  | nil =>
    rw [List.mapM_nil, List.forall₂_nil_left_iff]
    constructor
    · intro h
      exact (Except.ok.inj h).symm
    · rintro rfl
      rfl
  | cons a as ih =>
    rw [List.mapM_cons]
    constructor
    · intro h
      obtain ⟨b, hb, h⟩ := bind_eq_ok h
      obtain ⟨rest, hrest, h⟩ := bind_eq_ok h
      cases h
      exact .cons hb (ih.mp hrest)
    · rintro (_ | ⟨hb, hrest⟩)
      rw [hb, ih.mpr hrest]
      rfl

theorem mapError_eq_ok {ε ε' α : Type} {x : Except ε α} {f : ε → ε'} {a : α}
    (h : x.mapError f = .ok a) : x = .ok a := by
  cases x with
  | error e => cases h
  | ok a' => exact congrArg Except.ok (Except.ok.inj h)

end SpecEngine

namespace SpecEngine.Text

/-! ## Trimming -/

theorem trimEnd_eq_nil_iff {cs : List Char} : trimEnd cs = [] ↔ ∀ c ∈ cs, isBlank c = true := by
  simp only [trimEnd, List.reverse_eq_nil_iff, List.dropWhile_eq_nil_iff, List.mem_reverse]

theorem trimChars_eq_nil_iff {cs : List Char} :
    trimChars cs = [] ↔ cs.all isBlank = true := by
  rw [trimChars, trimEnd_eq_nil_iff, List.all_eq_true]
  induction cs with
  | nil => rfl
  | cons c rest ih =>
    by_cases hc : isBlank c = true
    · rw [List.dropWhile_cons_of_pos hc, ih, List.forall_mem_cons, and_iff_right hc]
    · rw [List.dropWhile_cons_of_neg hc]

theorem dropWhile_of_forall {cs : List Char} (h : ∀ c ∈ cs, isBlank c = false) :
    cs.dropWhile isBlank = cs := by
  cases cs with
  | nil => rfl
  | cons c rest =>
    have hc := h c List.mem_cons_self
    rw [List.dropWhile_cons_of_neg (by simp [hc])]

/-- Nothing is taken from a text without blanks. -/
theorem trimChars_of_forall {cs : List Char} (h : ∀ c ∈ cs, isBlank c = false) :
    trimChars cs = cs := by
  have hreverse : ∀ c ∈ cs.reverse, isBlank c = false := fun c hc => h c (List.mem_reverse.mp hc)
  rw [trimChars, dropWhile_of_forall h, trimEnd, dropWhile_of_forall hreverse, List.reverse_reverse]

/-- No digit is a blank. -/
theorem isBlank_of_digit {c : Char} (h : 48 ≤ c.toNat ∧ c.toNat ≤ 57) : isBlank c = false := by
  simp only [isBlank, Bool.or_eq_false_iff, Bool.and_eq_false_iff, decide_eq_false_iff_not,
    beq_eq_false_iff_ne]
  omega

/-- All characters are blanks. -/
def AllBlank (cs : List Char) : Prop := ∀ c ∈ cs, isBlank c = true

/-- Trimming takes blanks only, and from the ends only. -/
theorem trimChars_spec (cs : List Char) :
    ∃ before after, AllBlank before ∧ AllBlank after ∧ cs = before ++ trimChars cs ++ after := by
  have hfront := List.takeWhile_append_dropWhile (p := isBlank) (l := cs)
  have hback := List.takeWhile_append_dropWhile (p := isBlank) (l := (cs.dropWhile isBlank).reverse)
  refine ⟨cs.takeWhile isBlank, ((cs.dropWhile isBlank).reverse.takeWhile isBlank).reverse,
    fun c hc => List.mem_takeWhile_imp hc,
    fun c hc => List.mem_takeWhile_imp (List.mem_reverse.mp hc), ?_⟩
  rw [List.append_assoc, trimChars, trimEnd, ← List.reverse_append, hback, List.reverse_reverse,
    hfront]

theorem mem_of_mem_trimChars {cs : List Char} {c : Char} (h : c ∈ trimChars cs) : c ∈ cs := by
  obtain ⟨before, after, -, -, hcs⟩ := trimChars_spec cs
  rw [hcs]
  exact List.mem_append_left _ (List.mem_append_right _ h)

theorem trimEnd_append_blank {after : List Char} (h : AllBlank after) (cs : List Char) :
    trimEnd (cs ++ after) = trimEnd cs := by
  have hreverse : ∀ c ∈ after.reverse, isBlank c = true := fun c hc => h c (List.mem_reverse.mp hc)
  rw [trimEnd, List.reverse_append, List.dropWhile_append_of_pos hreverse, trimEnd]

/-- Blanks around a text are trimmed away. -/
theorem trimChars_padded {before after : List Char} (hbefore : AllBlank before)
    (hafter : AllBlank after) (cs : List Char) :
    trimChars (before ++ cs ++ after) = trimChars cs := by
  rw [trimChars, List.append_assoc, List.dropWhile_append_of_pos hbefore, List.dropWhile_append,
    trimChars]
  split
  next hempty =>
    rw [List.isEmpty_iff.mp hempty, List.dropWhile_eq_nil_iff.mpr hafter]
  next => exact trimEnd_append_blank hafter _

/-- Trimming both sides of a character that is no blank trims the whole. -/
theorem trimChars_append_cons {c : Char} (hc : isBlank c = false) (cs ds : List Char) :
    trimChars (cs ++ c :: ds) = cs.dropWhile isBlank ++ c :: trimEnd ds := by
  have hcut (cs ds : List Char) :
      (cs ++ c :: ds).dropWhile isBlank = cs.dropWhile isBlank ++ c :: ds := by
    rw [List.dropWhile_append, List.dropWhile_cons_of_neg (by simp [hc])]
    split
    next hempty => rw [List.isEmpty_iff.mp hempty, List.nil_append]
    next => rfl
  rw [trimChars, hcut, trimEnd, List.reverse_append, List.reverse_cons, List.append_assoc,
    List.singleton_append, hcut, List.reverse_append, List.reverse_cons, List.reverse_reverse,
    List.append_assoc, List.singleton_append, trimEnd]

theorem trimChars_dropWhile (cs : List Char) :
    trimChars (cs.dropWhile isBlank) = trimChars cs := by
  rw [trimChars, List.dropWhile_idempotent, trimChars]

theorem trimChars_trimEnd (cs : List Char) : trimChars (trimEnd cs) = trimChars cs := by
  have hblank : AllBlank (cs.reverse.takeWhile isBlank).reverse :=
    fun c hc => List.mem_takeWhile_imp (List.mem_reverse.mp hc)
  have hcs : cs = trimEnd cs ++ (cs.reverse.takeWhile isBlank).reverse := by
    rw [trimEnd, ← List.reverse_append, List.takeWhile_append_dropWhile, List.reverse_reverse]
  have hnothing : AllBlank [] := by simp [AllBlank]
  conv_rhs => rw [hcs]
  exact (trimChars_padded hnothing hblank (trimEnd cs)).symm

theorem trimChars_idem (cs : List Char) : trimChars (trimChars cs) = trimChars cs := by
  show trimChars (trimEnd (cs.dropWhile isBlank)) = trimChars cs
  rw [trimChars_trimEnd, trimChars_dropWhile]

theorem trim_idem (s : String) : trim (trim s) = trim s := by
  rw [trim, trim, String.toList_ofList, trimChars_idem]

/-! ## Splitting -/

theorem splitOn_eq_splitOnP (sep : Char) (cs : List Char) :
    splitOn sep cs = cs.splitOnP (· == sep) := by
  induction cs with
  | nil => rfl
  | cons c rest ih =>
    rw [splitOn, ih, List.splitOnP_cons_eq_if_modifyHead]
    by_cases hc : c = sep
    · simp [hc]
    · cases hparts : rest.splitOnP (· == sep) with
      | nil => exact absurd hparts (List.splitOnP_ne_nil _ _)
      | cons part parts => simp [hc]

theorem splitOn_ne_nil (sep : Char) (cs : List Char) : splitOn sep cs ≠ [] := by
  rw [splitOn_eq_splitOnP]
  exact List.splitOnP_ne_nil _ _

/-- What follows a separator is split on its own. -/
theorem splitOn_append_cons (sep : Char) (cs ds : List Char) :
    splitOn sep (cs ++ sep :: ds) = splitOn sep cs ++ splitOn sep ds := by
  simp only [splitOn_eq_splitOnP]
  exact List.splitOnP_append_cons cs ds (beq_self_eq_true sep)

theorem splitOn_singleton {sep : Char} {cs : List Char} (h : sep ∉ cs) : splitOn sep cs = [cs] := by
  rw [splitOn_eq_splitOnP]
  refine List.splitOnP_eq_singleton fun c hc => ?_
  rw [beq_eq_false_iff_ne]
  rintro rfl
  exact h hc

/-- Texts that are joined by a separator which none of them holds are the parts of the whole. -/
theorem splitOn_join {sep : Char} {texts : List String} (hne : texts ≠ [])
    (h : ∀ s ∈ texts, sep ∉ s.toList) :
    splitOn sep (join (String.singleton sep) texts).toList = texts.map String.toList := by
  induction texts with
  | nil => exact absurd rfl hne
  | cons s rest ih =>
    obtain ⟨hs, hrest⟩ := List.forall_mem_cons.mp h
    cases rest with
    | nil => rw [join, splitOn_singleton hs, List.map_singleton]
    | cons t more =>
      have htext : (join (String.singleton sep) (s :: t :: more)).toList =
          s.toList ++ sep :: (join (String.singleton sep) (t :: more)).toList := by
        simp [join]
      rw [htext, splitOn_append_cons, splitOn_singleton hs, ih (List.cons_ne_nil t more) hrest]
      rfl

/-- A text is cut at the first separator. -/
theorem cutAt_append_cons {sep : Char} {cs : List Char} (h : sep ∉ cs) (ds : List Char) :
    cutAt sep (cs ++ sep :: ds) = some (cs, ds) := by
  induction cs with
  | nil => simp [cutAt]
  | cons c cs ih =>
    obtain ⟨hc, hcs⟩ := not_or.mp (mt List.mem_cons.mpr h)
    rw [List.cons_append, cutAt, if_neg (Ne.symm hc), ih hcs]
    rfl

theorem cutAt_eq_none {sep : Char} {cs : List Char} (h : sep ∉ cs) : cutAt sep cs = none := by
  induction cs with
  | nil => rfl
  | cons c cs ih =>
    obtain ⟨hc, hcs⟩ := not_or.mp (mt List.mem_cons.mpr h)
    rw [cutAt, if_neg (Ne.symm hc), ih hcs]
    rfl

end SpecEngine.Text
