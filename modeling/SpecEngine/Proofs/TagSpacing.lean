/-
# SpecEngine.Proofs.TagSpacing -- stored tag expressions, and blanks around their symbols

Blanks count inside a tag and nowhere else. At an end of a text and next to an operator or a
parenthesis any number of them may be put in or taken out: the text is read as the same tree, or
refused for the same reason. The text that a tag expression is stored as has lost the blanks at its
ends, so it is read as the same expression again.

An operator parts the symbols of a text: they are those of what stands before it and of what stands
behind it. A place next to an operator is therefore an end of one of these two texts, and all comes
down to blanks at the ends of a text, which trimming takes off the piece that they belong to.
-/
import Mathlib.Logic.Relation
import SpecEngine.Proofs.Padding

namespace SpecEngine.Tag

open Relation (EqvGen)
open Text (AllBlank)

variable {before blanks after : List Char} {s s' : String}

/-! ## Places for blanks -/

/-- Blanks aside, the text begins with an operator or is at its end. -/
inductive BeginsLoose : List Char → Prop
  | blank {cs} : AllBlank cs → BeginsLoose cs
  | operator {cs c o rest} : AllBlank cs → operator? c = some o → BeginsLoose (cs ++ c :: rest)

/-- Blanks aside, the text ends with an operator or is at its beginning. -/
inductive EndsLoose : List Char → Prop
  | blank {cs} : AllBlank cs → EndsLoose cs
  | operator {rest c o cs} : operator? c = some o → AllBlank cs → EndsLoose (rest ++ c :: cs)

/-- The second text is the first one with blanks put in at an end or next to an operator. -/
def SpacedOut (s s' : String) : Prop :=
  ∃ before blanks after, (EndsLoose before ∨ BeginsLoose after) ∧ AllBlank blanks ∧
    s.toList = before ++ after ∧ s'.toList = before ++ blanks ++ after

/-! ## The symbols of a text that is spaced out -/

theorem tokens_append_blank (h : AllBlank blanks) (cs : List Char) :
    tokens (cs ++ blanks) = tokens cs := by
  simpa using tokens_padded Text.AllBlank.nil h cs

theorem tokens_blank_append (h : AllBlank blanks) (cs : List Char) :
    tokens (blanks ++ cs) = tokens cs := by
  simpa using tokens_padded h Text.AllBlank.nil cs

/-- Blanks in front of an operator are at the end of what it parts from the rest. -/
theorem BeginsLoose.tokens_eq (h : BeginsLoose after) (hblanks : AllBlank blanks)
    (before : List Char) : tokens (before ++ blanks ++ after) = tokens (before ++ after) := by
  cases h with
  | blank hafter =>
    rw [tokens_append_blank hafter, tokens_append_blank hblanks, tokens_append_blank hafter]
  | operator hcs ho =>
    rw [← List.append_assoc, tokens_operator ho, tokens_append_blank hcs,
      tokens_append_blank hblanks, ← List.append_assoc, tokens_operator ho,
      tokens_append_blank hcs]

/-- Blanks behind an operator are at the beginning of what it parts from the rest. -/
theorem EndsLoose.tokens_eq (h : EndsLoose before) (hblanks : AllBlank blanks)
    (after : List Char) : tokens (before ++ blanks ++ after) = tokens (before ++ after) := by
  cases h with
  | blank hbefore =>
    rw [List.append_assoc, tokens_blank_append hbefore, tokens_blank_append hblanks,
      tokens_blank_append hbefore]
  | operator ho hcs =>
    rw [List.append_assoc, List.append_assoc, List.cons_append, tokens_operator ho,
      tokens_blank_append hcs, tokens_blank_append hblanks, List.append_assoc, List.cons_append,
      tokens_operator ho, tokens_blank_append hcs]

theorem SpacedOut.tokens_eq (h : SpacedOut s s') : tokens s'.toList = tokens s.toList := by
  obtain ⟨before, blanks, after, hloose, hblanks, hs, hs'⟩ := h
  rw [hs, hs']
  rcases hloose with hends | hbegins
  · exact hends.tokens_eq hblanks after
  · exact hbegins.tokens_eq hblanks before

/-- However often blanks are put in and taken out, the symbols stay the same. -/
theorem tokens_respaced (h : EqvGen SpacedOut s s') : tokens s'.toList = tokens s.toList := by
  induction h with
  | rel _ _ hstep => exact hstep.tokens_eq
  | refl _ => rfl
  | symm _ _ _ ih => exact ih.symm
  | trans _ _ _ _ _ ih ih' => exact ih'.trans ih

/-- Trimming takes out the blanks at both ends. -/
theorem trim_spacedOut (s : String) : EqvGen SpacedOut (Text.trim s) s := by
  obtain ⟨front, back, hfront, hback, hs⟩ := Text.trimChars_spec s.toList
  have hopened : SpacedOut (Text.trim s) (String.ofList (front ++ Text.trimChars s.toList)) :=
    ⟨[], front, Text.trimChars s.toList, .inl (.blank Text.AllBlank.nil), hfront,
      by simp [Text.trim], by simp⟩
  have hclosed : SpacedOut (String.ofList (front ++ Text.trimChars s.toList)) s :=
    ⟨front ++ Text.trimChars s.toList, back, [], .inr (.blank Text.AllBlank.nil), hback, by simp,
      by simpa using hs⟩
  exact .trans _ _ _ (.rel _ _ hopened) (.rel _ _ hclosed)

/-! ## What is read -/

/-- The tree that a text is read as, or the reason why there is none. -/
def outcome (source : String) : Except Fault Expr :=
  ((Selector.parse source).map (·.root)).mapError (·.fault)

theorem outcome_eq (source : String) : outcome source = Expr.ofTokens (tokens source.toList) := by
  rw [outcome, Selector.parse]
  cases Expr.ofTokens (tokens source.toList) <;> rfl

theorem parse_eq_ok_iff {source : String} {selector : Selector} :
    Selector.parse source = .ok selector ↔
      outcome source = .ok selector.root ∧ selector.source = Text.trim source := by
  obtain ⟨text, root⟩ := selector
  rw [outcome_eq, Selector.parse]
  cases Expr.ofTokens (tokens source.toList) with
  | error fault => simp
  | ok root' => simp [and_comm, eq_comm (a := text)]

theorem outcome_respaced (h : EqvGen SpacedOut s s') : outcome s' = outcome s := by
  rw [outcome_eq, outcome_eq, tokens_respaced h]

/-- The text of a tag expression is read as the same tag expression again. And every text, accepted
or not, keeps its tree or the reason why it is refused, whatever blanks are put in or taken out at
its ends and next to its operators and parentheses. -/
theorem stored_and_respaced_read_alike (source : String) :
    (∀ selector, Selector.parse source = .ok selector →
      Selector.parse selector.source = .ok selector) ∧
    ∀ respaced, EqvGen SpacedOut source respaced → outcome respaced = outcome source := by
  refine ⟨fun selector hread => ?_, fun respaced => outcome_respaced⟩
  obtain ⟨hroot, hsource⟩ := parse_eq_ok_iff.mp hread
  rw [parse_eq_ok_iff, hsource, Text.trim_idem]
  exact ⟨(outcome_respaced (trim_spacedOut source)).symm.trans hroot, rfl⟩

/-- Inside a tag a blank counts. -/
example : outcome "smoke test" ≠ outcome "smoketest" := by decide +kernel

/-- A blank at the end is taken out, a tab and a blank are put in around an operator, and the two
words of a tag stay apart. -/
theorem two_words_respaced :
    let selector : Selector :=
      ⟨"Smoke Test&!slow", .and (.tag "smoke test") (.not (.tag "slow"))⟩
    Selector.parse "Smoke Test&!slow " = .ok selector ∧
      Selector.parse selector.source = .ok selector ∧
      EqvGen SpacedOut "Smoke Test&!slow " "Smoke Test\t& !slow" ∧
      outcome "Smoke Test\t& !slow" = outcome "Smoke Test&!slow " := by
  intro selector
  have hblank : AllBlank [' '] := by simp [AllBlank, Text.isBlank]
  have htab : AllBlank ['\t'] := by simp [AllBlank, Text.isBlank]
  have hread : Selector.parse "Smoke Test&!slow " = .ok selector := by decide +kernel
  have hend : SpacedOut "Smoke Test&!slow" "Smoke Test&!slow " :=
    ⟨"Smoke Test&!slow".toList, [' '], [], .inr (.blank Text.AllBlank.nil), hblank, by simp,
      by simp⟩
  have hbegins : BeginsLoose ([] ++ '&' :: "!slow".toList) := .operator Text.AllBlank.nil rfl
  have hends : EndsLoose ("Smoke Test\t".toList ++ '&' :: []) := .operator rfl Text.AllBlank.nil
  have hfront : SpacedOut "Smoke Test&!slow" "Smoke Test\t&!slow" :=
    ⟨"Smoke Test".toList, ['\t'], _, .inr hbegins, htab, by simp, by simp⟩
  have hback : SpacedOut "Smoke Test\t&!slow" "Smoke Test\t& !slow" :=
    ⟨_, [' '], "!slow".toList, .inl hends, hblank, by simp, by simp⟩
  have hspaced : EqvGen SpacedOut "Smoke Test&!slow " "Smoke Test\t& !slow" :=
    .trans _ _ _ (.symm _ _ (.rel _ _ hend)) (.trans _ _ _ (.rel _ _ hfront) (.rel _ _ hback))
  obtain ⟨hstored, hrespaced⟩ := stored_and_respaced_read_alike "Smoke Test&!slow "
  exact ⟨hread, hstored selector hread, hspaced, hrespaced _ hspaced⟩

end SpecEngine.Tag
