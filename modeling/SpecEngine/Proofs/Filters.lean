/-
# SpecEngine.Proofs.Filters -- filters of a collection compose

A collection is narrowed by a tag expression or by a record of failures. Either way a test of a
scenario within its specification decides what is kept, and neither test looks at the other
scenarios of the specification. So it makes no difference to the one filter what the other has left
out: two filters in a row keep what satisfies both tests (`restrict_restrict`), also where a
specification is left without scenarios in between or had none to begin with.
-/
import SpecEngine.Proofs.Restriction
import SpecEngine.Proofs.TagMeaning
import SpecEngine.Record.Failures

namespace SpecEngine.Item

open Tag (Selector Means)
open Record (Failures)

/-! ## Two restrictions -/

/-- Whether a scenario is wanted does not depend on the scenarios of its specification. -/
def IgnoresOthers (wanted : Specification → Scenario → Bool) : Prop :=
  ∀ (spec : Specification) (scenarios : List Scenario) (sc : Scenario),
    wanted { spec with scenarios := scenarios } sc = wanted spec sc

section

variable {wanted wanted' : Specification → Scenario → Bool}

theorem restrict_nil {spec : Specification} {wanted : Scenario → Bool}
    (h : spec.scenarios.filter wanted = []) : spec.restrict wanted = none := by
  rw [Specification.restrict, h]

theorem restrict_cons {spec : Specification} {wanted : Scenario → Bool} {first : Scenario}
    {rest : List Scenario} (h : spec.scenarios.filter wanted = first :: rest) :
    spec.restrict wanted = some { spec with scenarios := first :: rest } := by
  rw [Specification.restrict, h]

/-- Restricting what is left of a specification is restricting it to what satisfies both tests. -/
theorem restrict_bind_restrict (h : IgnoresOthers wanted') (spec : Specification) :
    (spec.restrict (wanted spec)).bind (fun kept => kept.restrict (wanted' kept)) =
      spec.restrict fun sc => wanted' spec sc && wanted spec sc := by
  have hboth := List.filter_filter (p := wanted' spec) (q := wanted spec) (l := spec.scenarios)
  cases hkept : spec.scenarios.filter (wanted spec) with
  | nil =>
    rw [hkept, List.filter_nil] at hboth
    rw [restrict_nil hkept, restrict_nil hboth.symm, Option.bind_none]
  | cons first rest =>
    have hsame : wanted' { spec with scenarios := first :: rest } = wanted' spec :=
      funext fun sc => h spec (first :: rest) sc
    rw [hkept] at hboth
    rw [restrict_cons hkept, Option.bind_some, hsame]
    cases hleft : (first :: rest).filter (wanted' spec) with
    | nil => rw [restrict_nil hleft, restrict_nil (hboth.symm.trans hleft)]
    | cons first' rest' => rw [restrict_cons hleft, restrict_cons (hboth.symm.trans hleft)]

/-- Two restrictions in a row keep what satisfies both tests. -/
theorem restrict_restrict (h : IgnoresOthers wanted') (specs : Collection) :
    (specs.restrict wanted).restrict wanted' =
      specs.restrict fun spec sc => wanted' spec sc && wanted spec sc := by
  rw [Collection.restrict, Collection.restrict, List.filterMap_filterMap, Collection.restrict]
  exact List.filterMap_congr fun spec _ => restrict_bind_restrict h spec

/-- Restrictions may be made in either order. -/
theorem restrict_comm (h : IgnoresOthers wanted) (h' : IgnoresOthers wanted')
    (specs : Collection) :
    (specs.restrict wanted).restrict wanted' = (specs.restrict wanted').restrict wanted := by
  rw [restrict_restrict h', restrict_restrict h]
  simp only [Bool.and_comm]

/-- A restriction that is made again leaves nothing more out. -/
theorem restrict_idem (h : IgnoresOthers wanted) (specs : Collection) :
    (specs.restrict wanted).restrict wanted = specs.restrict wanted := by
  rw [restrict_restrict h]
  simp only [Bool.and_self]

end

/-! ## Tags and failures -/

theorem selectTags_ignoresOthers (selector : Selector) :
    IgnoresOthers fun spec sc => selector.selects (spec.scenarioTags sc) := fun _ _ _ => rfl

theorem failures_ignoresOthers (record : Failures) :
    IgnoresOthers fun spec sc => record.scenarios.contains ⟨spec.fileName, sc.line⟩ :=
  fun _ _ _ => rfl

/-- Two expressions in parentheses with `&` between them mean both. -/
theorem means_both {s t : String} {a b : Selector} (hs : Selector.parse s = .ok a)
    (ht : Selector.parse t = .ok b) :
    Means ("(" ++ s ++ ")&(" ++ t ++ ")")
      fun tags => a.selects tags = true ∧ b.selects tags = true :=
  Tag.means_pair (c := '&') rfl hs ht (by simp)

/-- Selecting by an expression that means both of two is selecting by one after the other. -/
theorem selectTags_selectTags {a b both : Selector}
    (h : ∀ tags, both.selects tags = true ↔ a.selects tags = true ∧ b.selects tags = true)
    (specs : Collection) :
    (specs.selectTags a).selectTags b = specs.selectTags both := by
  have hboth : ∀ tags, (b.selects tags && a.selects tags) = both.selects tags := fun tags => by
    rw [Bool.eq_iff_iff, Bool.and_eq_true, h tags, and_comm]
  rw [Collection.selectTags, Collection.selectTags,
    restrict_restrict (selectTags_ignoresOthers b)]
  simp only [hboth]
  rfl

/-- Filters compose. Selecting by a tag expression leaves an excerpt of the collection, which has
those scenarios whose tags, the specification's and their own, satisfy the expression. Selecting by
two expressions, in either order, is selecting by both in parentheses with `&` between them,
whichever comes first. Selecting by tags may be done before or after restricting to failures, and
doing either twice is doing it once. -/
theorem filters_compose (specs : Collection) (record : Failures) :
    (∀ selector, ∃ places : Places, specs.Excerpt (specs.selectTags selector) places ∧
        ∀ i j, places.Has i j ↔ ∃ spec sc, specs[i]? = some spec ∧
          spec.scenarios[j]? = some sc ∧ selector.selects (spec.tags ++ sc.tags) = true) ∧
      (∀ (s t : String) (a b : Selector), Selector.parse s = .ok a → Selector.parse t = .ok b →
        ∃ both both', Selector.parse ("(" ++ s ++ ")&(" ++ t ++ ")") = .ok both ∧
          Selector.parse ("(" ++ t ++ ")&(" ++ s ++ ")") = .ok both' ∧
          (specs.selectTags a).selectTags b = specs.selectTags both ∧
          (specs.selectTags b).selectTags a = specs.selectTags both ∧
          specs.selectTags both' = specs.selectTags both) ∧
      (∀ selector, record.restrict (specs.selectTags selector) =
        (record.restrict specs).selectTags selector) ∧
      (∀ selector, (specs.selectTags selector).selectTags selector = specs.selectTags selector) ∧
      record.restrict (record.restrict specs) = record.restrict specs := by
  refine ⟨fun selector => ?_, fun s t a b hs ht => ?_, fun selector => ?_, fun selector => ?_, ?_⟩
  · exact ⟨_, restrict_excerpt specs _, fun i j => has_wantedPlaces⟩
  · obtain ⟨both, hboth, hmeans⟩ := means_both hs ht
    obtain ⟨both', hboth', hmeans'⟩ := means_both ht hs
    have hab := selectTags_selectTags hmeans specs
    have hba := selectTags_selectTags hmeans' specs
    have hcomm : (specs.selectTags a).selectTags b = (specs.selectTags b).selectTags a :=
      restrict_comm (selectTags_ignoresOthers a) (selectTags_ignoresOthers b) specs
    exact ⟨both, both', hboth, hboth', hab, hcomm ▸ hab, hba ▸ hcomm ▸ hab⟩
  · exact restrict_comm (selectTags_ignoresOthers selector) (failures_ignoresOthers record) specs
  · exact restrict_idem (selectTags_ignoresOthers selector) specs
  · exact restrict_idem (failures_ignoresOthers record) specs

/-- Two specifications of one file, the first with a tag that its scenarios inherit and with two
scenarios that share a line, the second without scenarios. -/
def inheritedTags : Collection := [
  { heading := "First", fileName := "one.spec", tags := ["Smoke"]
    scenarios := [
      { heading := "quick", line := 3, steps := [] },
      { heading := "slow", line := 3, tags := [" SLOW "], steps := [] },
      { heading := "last", line := 8, steps := [] }] },
  { heading := "Second", fileName := "one.spec", tags := ["smoke"], scenarios := [] }]

/-- Of the scenarios recorded at line 3 the one that is not slow is left, in whichever order they
are filtered. -/
theorem inheritedTags_filtered :
    let record : Failures := ⟨[⟨"one.spec", 3⟩]⟩
    let smoke : Selector := ⟨"smoke", .tag "smoke"⟩
    let notSlow : Selector := ⟨"!slow", .not (.tag "slow")⟩
    Selector.parse "smoke" = .ok smoke ∧ Selector.parse "!slow" = .ok notSlow ∧
      (∃ both, Selector.parse ("(" ++ "smoke" ++ ")&(" ++ "!slow" ++ ")") = .ok both ∧
        (inheritedTags.selectTags smoke).selectTags notSlow = inheritedTags.selectTags both) ∧
      record.restrict (inheritedTags.selectTags notSlow) =
        (record.restrict inheritedTags).selectTags notSlow ∧
      ((record.restrict (inheritedTags.selectTags notSlow)).map fun spec =>
        spec.scenarios.map (·.heading)) = [["quick"]] := by
  intro record smoke notSlow
  have hsmoke : Selector.parse "smoke" = .ok smoke := by decide +kernel
  have hnotSlow : Selector.parse "!slow" = .ok notSlow := by decide +kernel
  obtain ⟨-, hboth, hcomm, -, -⟩ := filters_compose inheritedTags record
  obtain ⟨both, -, hparse, -, hselect, -, -⟩ := hboth _ _ _ _ hsmoke hnotSlow
  exact ⟨hsmoke, hnotSlow, ⟨both, hparse, hselect⟩, hcomm notSlow, by decide +kernel⟩

end SpecEngine.Item
