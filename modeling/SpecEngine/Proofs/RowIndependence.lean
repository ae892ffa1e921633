/-
# SpecEngine.Proofs.RowIndependence -- scenarios that no row can change

A scenario is said to use its data table by a look through its nested items. What can depend on the
row when it runs are the parameters of its plain steps, and of those only the ones that refer to a
column. The two see the same steps, so a scenario that does not use the table runs for one row as it
does for any other and for none, whatever the runner is: it leaves the very same session behind, and
its result differs in the row that it names. That is why such a scenario is run once and not once
for each row.
-/
import SpecEngine.Proofs.Concepts

/-! ## Parameters -/

namespace SpecEngine.Special.Resolver

open Item (Arg)

variable {resolver : Resolver}

/-- Only a reference to a column reads the row. -/
theorem parameter_eq_of_not_isDynamic {arg : Arg} (h : arg.isDynamic = false)
    (row row' : Option Table.Row) : resolver.parameter row arg = resolver.parameter row' arg := by
  cases arg with
  | dynamic column => cases h
  | static value => rfl
  | special token => rfl
  | table t => rfl

theorem parameters_eq_of_not_isDynamic {args : List Arg} (h : ∀ arg ∈ args, arg.isDynamic = false)
    (row row' : Option Table.Row) :
    resolver.parameters row args = resolver.parameters row' args := by
  induction args with
  | nil => rfl
  | cons arg rest ih =>
    obtain ⟨harg, hrest⟩ := List.forall_mem_cons.mp h
    rw [parameters, parameters, parameter_eq_of_not_isDynamic harg row row', ih hrest]

end SpecEngine.Special.Resolver

/-! ## Steps that refer to a column -/

namespace SpecEngine.Item

theorem Arg.isDynamic_iff {arg : Arg} : arg.isDynamic = true ↔ ∃ column, arg = .dynamic column := by
  cases arg <;> simp [isDynamic]

theorem Step.usesRow_iff {step : Step} :
    step.usesRow = true ↔ ∃ column, Arg.dynamic column ∈ step.args := by
  simp only [usesRow, List.any_eq_true, Arg.isDynamic_iff]
  constructor
  · rintro ⟨_, hmem, column, rfl⟩
    exact ⟨column, hmem⟩
  · rintro ⟨column, hmem⟩
    exact ⟨_, hmem, column, rfl⟩

namespace StepItem

mutual

/-- The look through an item sees its plain steps. -/
theorem usesRow_eq : ∀ item : StepItem, item.usesRow = item.flatten.any Step.usesRow
  | .step s => by
    rw [StepItem.usesRow, flatten, List.any_cons, List.any_nil, Bool.or_false]
  | .concept text line steps => by
    rw [usesRow, flatten, anyUsesRow_eq steps]

theorem anyUsesRow_eq : ∀ items : List StepItem,
    anyUsesRow items = (flattenAll items).any Step.usesRow
  | [] => rfl
  | item :: rest => by
    rw [anyUsesRow, flattenAll, List.any_append, usesRow_eq item, anyUsesRow_eq rest]

end

end StepItem

theorem Scenario.usesTable_iff {sc : Scenario} :
    sc.usesTable = true ↔ ∃ step ∈ sc.flatSteps, ∃ column, Arg.dynamic column ∈ step.args := by
  simp only [usesTable, StepItem.anyUsesRow_eq, List.any_eq_true, Step.usesRow_iff, flatSteps]

end SpecEngine.Item

namespace SpecEngine.Result

/-- The result, as one for another table row or for none. -/
def ScenarioResult.forRow (r : ScenarioResult) (row : Option Table.Row) : ScenarioResult :=
  { r with tableRow := row.map (·.index) }

end SpecEngine.Result

namespace SpecEngine.Engine

open Item (Arg Step StepItem Scenario Specification)
open Runner (Behavior)
open Event (Topic Subject Outcome)

variable {σ : Type} (b : Behavior σ) (plan : Plan)

/-! ## Steps and items -/

theorem runStep_eq_of_not_usesRow {step : Step} (h : step.usesRow = false)
    (row row' : Option Table.Row) : runStep b plan row step = runStep b plan row' step := by
  have hargs : ∀ arg ∈ step.args, arg.isDynamic = false := by simpa [Step.usesRow] using h
  rw [runStep, Special.Resolver.parameters_eq_of_not_isDynamic hargs row row', runStep]

mutual

theorem runItem_eq_of_not_usesRow (fileName : String) (row row' : Option Table.Row) :
    ∀ item : StepItem, item.usesRow = false →
      runItem b plan fileName row item = runItem b plan fileName row' item
  | .step step, h => by
    rw [StepItem.usesRow] at h
    rw [runItem, runItem, announcedStep, announcedStep,
      runStep_eq_of_not_usesRow b plan h row row']
  | .concept text line steps, h => by
    rw [StepItem.usesRow] at h
    rw [runItem, runItem, runItems_eq_of_not_usesRow fileName row row' steps h]

theorem runItems_eq_of_not_usesRow (fileName : String) (row row' : Option Table.Row) :
    ∀ items : List StepItem, StepItem.anyUsesRow items = false →
      runItems b plan fileName row items = runItems b plan fileName row' items
  | [], _ => by rw [runItems, runItems]
  | item :: rest, h => by
    rw [StepItem.anyUsesRow, Bool.or_eq_false_iff] at h
    rw [runItems, runItems, runItem_eq_of_not_usesRow fileName row row' item h.1,
      runItems_eq_of_not_usesRow fileName row row' rest h.2]

end

/-! ## Scenarios -/

/-- An attempt is the last one, or the others go on from the session that it leaves. -/
theorem attempts_succ_run (spec : Specification) (sc : Scenario) (row : Option Table.Row)
    (number more : Nat) (s : Session σ) :
    attempts b plan spec sc row number (more + 1) s =
      if (attempt b plan spec sc row s).1.status != .failed ||
          (attempt b plan spec sc row s).2.aborted then
        ({ (attempt b plan spec sc row s).1 with attempts := number },
          (attempt b plan spec sc row s).2)
      else attempts b plan spec sc row (number + 1) more (attempt b plan spec sc row s).2 := by
  rw [attempts]
  simp only [bind_run, ite_run, pure_run]
  rfl

/-- Sessions stay alike when each of them announces something of its own. -/
theorem Session.Alike.announcedApart {s t : Session σ} (h : s.Alike t) (topic : Topic)
    (subject subject' : Subject) (outcome outcome' : Option Outcome) :
    (announce topic subject outcome s).2.Alike (announce topic subject' outcome' t).2 := by
  refine ⟨h.stream, h.runner, h.aborted, ?_⟩
  rw [announce_offers, announce_offers, h.offers]

section

variable {sc : Scenario} (h : sc.usesTable = false) (spec : Specification)
variable (row row' : Option Table.Row) (s : Session σ)
include h

theorem attempt_forRow :
    attempt b plan spec sc row' s =
      ((attempt b plan spec sc row s).1.forRow row', (attempt b plan spec sc row s).2) := by
  have hitems := runItems_eq_of_not_usesRow b plan spec.fileName row' row sc.steps h
  simp only [attempt, hitems, bind_run, ite_run, pure_run]
  split <;> rfl

theorem attempts_forRow (number more : Nat) :
    attempts b plan spec sc row' number more s =
      ((attempts b plan spec sc row number more s).1.forRow row',
        (attempts b plan spec sc row number more s).2) := by
  induction more generalizing number s with
  | zero =>
    simp only [attempts, bind_run, pure_run, attempt_forRow b plan h spec row row' s]
    rfl
  | succ more ih =>
    rw [attempts_succ_run, attempts_succ_run, attempt_forRow b plan h spec row row' s]
    -- whether another attempt is made is read off the status and the session
    show (if (attempt b plan spec sc row s).1.status != .failed ||
      (attempt b plan spec sc row s).2.aborted then _ else _) = _
    split
    · rfl
    · exact ih _ _

theorem runScenario_forRow :
    (runScenario b plan spec sc row' s).1 = (runScenario b plan spec sc row s).1.forRow row' ∧
      (runScenario b plan spec sc row s).2.Alike (runScenario b plan spec sc row' s).2 := by
  have hstarted := (Session.Alike.refl s).announcedApart .scenarioStart
    (.ofScenario spec sc (row.map (·.index))) (.ofScenario spec sc (row'.map (·.index))) none none
  simp only [runScenario, isAborted_bind_run, ite_run]
  split
  · exact ⟨rfl, hstarted.announcedApart ..⟩
  · split
    · exact ⟨rfl, hstarted.announcedApart ..⟩
    · -- the announcements name the row; what happens between them is the same
      have hattempts : Coupled Session.Alike Eq
          (attempts b plan spec sc row 1 (attemptLimit plan spec sc - 1))
          (attempts b plan spec sc row 1 (attemptLimit plan spec sc - 1)) :=
        (Session.Alike.lockstep b).attempts (.refl plan) sc 1 _
      obtain ⟨hresult, hsession⟩ := hattempts hstarted
      simp only [bind_run, pure_run, attempts_forRow b plan h spec row row']
      exact ⟨by rw [hresult], hsession.announcedApart ..⟩

end

/-- A scenario uses its data table exactly when one of its plain steps, however deeply nested, has
an argument that refers to a column. If it does not use the table, the row it runs for makes no
difference: an attempt for another row or for none leaves the same session behind, with the same
messages to the runner, and gives the same result but for the row that it names. The same holds of
the scenario with all its attempts, whose announcements name the row as well. -/
theorem rows_make_no_difference (spec : Specification) (sc : Scenario) :
    (sc.usesTable = true ↔ ∃ step ∈ sc.flatSteps, ∃ column, Arg.dynamic column ∈ step.args) ∧
      (sc.usesTable = false → ∀ (row row' : Option Table.Row) (s : Session σ),
        (attempt b plan spec sc row' s).1 = (attempt b plan spec sc row s).1.forRow row' ∧
          (attempt b plan spec sc row' s).2 = (attempt b plan spec sc row s).2 ∧
          (runScenario b plan spec sc row' s).1 =
            (runScenario b plan spec sc row s).1.forRow row' ∧
          (runScenario b plan spec sc row s).2.Alike (runScenario b plan spec sc row' s).2) := by
  refine ⟨Scenario.usesTable_iff, fun h row row' s => ?_⟩
  rw [attempt_forRow b plan h spec row row' s]
  exact ⟨rfl, rfl, runScenario_forRow b plan h spec row row' s⟩

/-! ### A runner that answers by turns -/

/-- A runner that reports a recoverable failure at every second message. -/
def fickleRunner : Behavior Nat where
  alive _ := true
  answer turn _ :=
    (.ok (.statusResponse { failed := turn % 2 = 1, recoverable := true }), turn + 1)
  kill turn := (.ok (), turn)

/-- A scenario with a nested step whose arguments are a text and a table of its own. -/
def tablelessScenario : Scenario where
  heading := "greeting"
  steps := [
    .step { text := "open the door" },
    .concept "welcome" 3 [
      .step { text := "greet", args := [.static "Ann", .table { headers := ["name"] }] }]]

/-- A specification of the scenario. -/
def tablelessSpec : Specification :=
  { heading := "door", fileName := "specs/door.spec", scenarios := [tablelessScenario] }

/-- A plan for the specification. -/
def tablelessPlan : Plan :=
  { manifest := { language := "python" }, specs := [tablelessSpec], settings := {} }

/-- The scenario fails for a row as it fails for none. -/
theorem greeting_ignores_row :
    tablelessScenario.usesTable = false ∧
      (attempt fickleRunner tablelessPlan tablelessSpec tablelessScenario none
        { stream := 0, runner := 0 }).1.status = .failed ∧
      (attempt fickleRunner tablelessPlan tablelessSpec tablelessScenario
          (some ⟨4, [("name", "Bob")]⟩) { stream := 0, runner := 0 }).1 =
        (attempt fickleRunner tablelessPlan tablelessSpec tablelessScenario none
          { stream := 0, runner := 0 }).1.forRow (some ⟨4, [("name", "Bob")]⟩) := by
  have htable : tablelessScenario.usesTable = false := by decide +kernel
  have hfailed : (attempt fickleRunner tablelessPlan tablelessSpec tablelessScenario none
      { stream := 0, runner := 0 }).1.status = .failed := by decide +kernel
  obtain ⟨-, hrows⟩ :=
    rows_make_no_difference fickleRunner tablelessPlan tablelessSpec tablelessScenario
  exact ⟨htable, hfailed, (hrows htable none _ _).1⟩

end SpecEngine.Engine
