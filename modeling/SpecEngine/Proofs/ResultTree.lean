/-
# SpecEngine.Proofs.ResultTree -- results mirror items

The results of a specification have the form of the specification. An outline keeps of a tree of
items, or of a tree of results, its texts, lines and nesting and whether a node is a concept.
Whatever happens to a scenario, its result has the scenario's heading, line and tags, and the
outline of its steps is that of the scenario's items.

A scenario is reported once, with one exception: when its specification is carried out and has a
table that drives the scenario, it is reported once for each selected row, and a single time, as
skipped, when no row is selected. The rows are those that the plan's resolver lists, in its order.
By what a resolver promises these are the rows of the table, so the order ascends; one that left
rows out would be followed all the same, row by row.
-/
import SpecEngine.Engine.Spec
import SpecEngine.Proofs.Activity
import SpecEngine.Proofs.ListedRows
import Mathlib.Data.List.Forall2

/-! ## Outlines -/

namespace SpecEngine.Item

/-- What stays of an item or a result when only its form counts. -/
inductive Outline where
  | node (text : String) (line : UInt64) (isConcept : Bool) (parts : List Outline)

namespace StepItem

mutual
/-- The outline of an item. -/
def outline : StepItem → Outline
  | .step s => .node s.text s.line false []
  | .concept text line steps => .node text line true (outlines steps)
/-- The outlines of items. -/
def outlines : List StepItem → List Outline
  | [] => []
  | item :: rest => outline item :: outlines rest
end

end StepItem

end SpecEngine.Item

namespace SpecEngine.Result

open Item (Outline Step StepItem Scenario)

namespace StepResult

mutual
/-- The outline of a result. -/
def outline : StepResult → Outline
  | ⟨text, line, _, _, _, nested, isConcept⟩ => .node text line isConcept (outlines nested)
/-- The outlines of results. -/
def outlines : List StepResult → List Outline
  | [] => []
  | r :: rest => outline r :: outlines rest
end

/-- The result is one of a plain step. -/
structure Reports (r : StepResult) (step : Step) : Prop where
  text : r.text = step.text
  line : r.line = step.line
  nested : r.nested = []
  isConcept : r.isConcept = false

theorem passed_reports (step : Step) (ms : UInt64) : (passed step ms).Reports step :=
  ⟨rfl, rfl, rfl, rfl⟩

theorem failed_reports (step : Step) (ms : UInt64) (failure : Failure) :
    (failed step ms failure).Reports step := ⟨rfl, rfl, rfl, rfl⟩

theorem skipped_reports (step : Step) (ms : UInt64) : (skipped step ms).Reports step :=
  ⟨rfl, rfl, rfl, rfl⟩

theorem Reports.outline_eq {r : StepResult} {step : Step} (h : r.Reports step) :
    r.outline = (StepItem.step step).outline := by
  obtain ⟨text, line, status, ms, failure, nested, isConcept⟩ := r
  obtain ⟨rfl, rfl, rfl, rfl⟩ := h
  rfl

theorem concept_outline (text : String) (line : UInt64) (status : Status) (ms : UInt64)
    (nested : List StepResult) :
    (concept text line status ms nested).outline = .node text line true (outlines nested) := rfl

mutual

theorem notExecuted_outline : ∀ item : StepItem, (notExecuted item).outline = item.outline
  | .step s => (skipped_reports s 0).outline_eq
  | .concept text line steps => by
    rw [notExecuted, concept_outline, allNotExecuted_outlines steps, StepItem.outline]

theorem allNotExecuted_outlines :
    ∀ items : List StepItem, outlines (allNotExecuted items) = StepItem.outlines items
  | [] => rfl
  | item :: rest => by
    rw [allNotExecuted, outlines, notExecuted_outline item, allNotExecuted_outlines rest,
      StepItem.outlines]

end

end StepResult

/-- The result is one of the scenario, for the table row at a position or for none. -/
structure ScenarioResult.Mirrors (r : ScenarioResult) (sc : Scenario) (row : Option Nat) :
    Prop where
  heading : r.heading = sc.heading
  line : r.line = sc.line
  tags : r.tags = sc.tags
  tableRow : r.tableRow = row
  steps : StepResult.outlines r.steps = StepItem.outlines sc.steps

theorem ScenarioResult.notExecuted_mirrors (sc : Scenario) (row : Option Nat) (reason : String) :
    (notExecuted sc row reason).Mirrors sc row :=
  ⟨rfl, rfl, rfl, rfl, StepResult.allNotExecuted_outlines sc.steps⟩

/-- Results name the rows of what they answer to. -/
theorem tableRows_eq {α : Type} {row : α → Option Nat} {items : List α} {rs : List ScenarioResult}
    (h : List.Forall₂ (fun item r => r.tableRow = row item) items rs) :
    rs.map (·.tableRow) = items.map row := by
  induction h with
  | nil => rfl
  | cons hfirst _ ih => rw [List.map_cons, List.map_cons, ih, hfirst]

end SpecEngine.Result

namespace SpecEngine.Engine

open Item (Step StepItem Scenario Specification)
open Result (StepResult ScenarioResult SpecResult Failure Status)
open Runner (Behavior Report)

variable {σ : Type} (b : Behavior σ) (plan : Plan)

/-! ## Steps and concepts -/

theorem judge_reports (step : Step) (report : Report) :
    (judge step report).result.Reports step := by
  unfold judge
  split
  · exact StepResult.failed_reports ..
  · split
    · exact StepResult.skipped_reports ..
    · exact StepResult.passed_reports ..

theorem afterHook_reports (step : Step) (report after : Report) :
    (afterHook step report after).result.Reports step := by
  unfold afterHook
  dsimp only
  split
  · exact StepResult.failed_reports ..
  · exact judge_reports step report

theorem runStep_reports (row : Option Table.Row) (step : Step) (s : Session σ) :
    (runStep b plan row step s).1.result.Reports step := by
  unfold runStep
  cases plan.resolver.parameters row step.args with
  | error fault => exact StepResult.failed_reports ..
  | ok parameters =>
    simp only [bind_run, ite_run]
    split
    · exact StepResult.failed_reports ..
    · cases Runner.statusOf _ with
      | error e => exact StepResult.failed_reports ..
      | ok report => exact afterHook_reports step ..

mutual

theorem runItem_outline (fileName : String) (row : Option Table.Row) :
    ∀ (item : StepItem) (s : Session σ),
      (runItem b plan fileName row item s).1.result.outline = item.outline
  | .step step, s => by
    rw [runItem]
    exact (runStep_reports b plan row step _).outline_eq
  | .concept text line steps, s => by
    simp only [runItem, bind_run, pure_run]
    rw [conceptOf, StepResult.concept_outline, runItems_outlines fileName row steps,
      StepItem.outline]

theorem runItems_outlines (fileName : String) (row : Option Table.Row) :
    ∀ (items : List StepItem) (s : Session σ),
      StepResult.outlines (runItems b plan fileName row items s).1.results
        = StepItem.outlines items
  | [], s => rfl
  | item :: rest, s => by
    have hitem := runItem_outline fileName row item s
    simp only [runItems, bind_run, ite_run, pure_run, StepItem.outlines]
    split
    · -- the item halted, so the others are reported as not executed
      rw [StepsOutcome.last, StepsOutcome.cons, StepResult.outlines, hitem,
        StepResult.allNotExecuted_outlines]
    · rw [StepsOutcome.cons, StepResult.outlines, hitem, runItems_outlines fileName row rest]

end

/-! ## Scenarios -/

theorem attemptResult_mirrors (sc : Scenario) (row : Option Table.Row) {steps : List StepResult}
    (failure : Option Failure) (status : Status) (after : Report)
    (h : StepResult.outlines steps = StepItem.outlines sc.steps) :
    (attemptResult sc row steps failure status after).Mirrors sc (row.map (·.index)) :=
  ⟨rfl, rfl, rfl, rfl, h⟩

theorem attempt_mirrors (spec : Specification) (sc : Scenario) (row : Option Table.Row)
    (s : Session σ) : (attempt b plan spec sc row s).1.Mirrors sc (row.map (·.index)) := by
  simp only [attempt, bind_run, ite_run]
  split
  · exact attemptResult_mirrors sc row _ _ _ (StepResult.allNotExecuted_outlines sc.steps)
  · exact attemptResult_mirrors sc row _ _ _ (runItems_outlines b plan _ row sc.steps _)

theorem attempts_mirrors (spec : Specification) (sc : Scenario) (row : Option Table.Row)
    (number more : Nat) (s : Session σ) :
    (attempts b plan spec sc row number more s).1.Mirrors sc (row.map (·.index)) := by
  induction more generalizing number s with
  | zero =>
    have h := attempt_mirrors b plan spec sc row s
    exact ⟨h.heading, h.line, h.tags, h.tableRow, h.steps⟩
  | succ more ih =>
    simp only [attempts, bind_run, ite_run]
    split
    · have h := attempt_mirrors b plan spec sc row s
      exact ⟨h.heading, h.line, h.tags, h.tableRow, h.steps⟩
    · exact ih _ _

theorem runScenario_mirrors (spec : Specification) (sc : Scenario) (row : Option Table.Row)
    (s : Session σ) : (runScenario b plan spec sc row s).1.Mirrors sc (row.map (·.index)) := by
  simp only [runScenario, bind_run, ite_run]
  split
  · exact ScenarioResult.notExecuted_mirrors ..
  · split
    · exact ScenarioResult.notExecuted_mirrors ..
    · exact attempts_mirrors b plan spec sc row _ _ _

theorem runRows_mirrors (spec : Specification) (sc : Scenario) (rows : List Table.Row)
    (s : Session σ) :
    List.Forall₂ (fun row r => r.Mirrors sc (some row.index)) rows
      (runRows b plan spec sc rows s).1 := by
  induction rows generalizing s with
  | nil => exact .nil
  | cons row rest ih => exact .cons (runScenario_mirrors b plan spec sc (some row) s) (ih _)

/-! ## Rows -/

/-- Whether the row at a position is selected. -/
def Plan.selectsRow (plan : Plan) (index : Nat) : Bool :=
  (plan.settings.rows.map fun selected => selected.contains index).getD true

/-- The positions of the selected rows of a table, in the order in which they are listed. -/
def Plan.selectedPositions (plan : Plan) (t : Table.Data) : List Nat :=
  (plan.resolver.positions t).filter plan.selectsRow

/-- The table that drives a scenario: its specification's, if a step refers to a column. -/
def drivingTable (spec : Specification) (sc : Scenario) : Option Table.Data :=
  if sc.usesTable then spec.dataTable else none

theorem drivingTable_eq_some {spec : Specification} {sc : Scenario} {t : Table.Data} :
    drivingTable spec sc = some t ↔ sc.usesTable = true ∧ spec.dataTable = some t := by
  rw [drivingTable]
  cases sc.usesTable <;> simp

theorem selectedRows_positions {t : Table.Data} {rows : List Table.Row}
    (h : plan.resolver.rows t = .ok rows) :
    (selectedRows plan rows).map (·.index) = plan.selectedPositions t := by
  rw [Plan.selectedPositions, Special.Resolver.positions_ok h, List.filter_map]
  rfl

/-- The rows of the specification's table, if it has one, can be listed. -/
def Resolvable (spec : Specification) : Prop :=
  ∀ t, spec.dataTable = some t → ∃ rows, plan.resolver.rows t = .ok rows

/-- Every row of the specification's table, if it has one, is as wide as the headers. -/
def Rectangular (spec : Specification) : Prop :=
  ∀ t, spec.dataTable = some t → ∀ row ∈ t.rows, row.length = t.headers.length

/-- With a resolver by kinds, that is all that is asked of a table. -/
theorem resolvable_iff_rectangular {plan : Plan} {kinds : Special.Kinds}
    (h : plan.resolver = kinds.resolver) (spec : Specification) :
    Resolvable plan spec ↔ Rectangular spec := by
  unfold Resolvable Rectangular
  simp only [h, kinds.lists_iff]

/-- A specification that gets past its own checks in a session: it has no build errors, the session
is not aborted, the opening announcement passes, and its table can be resolved. -/
structure CarriedOut (spec : Specification) (s : Session σ) : Prop where
  noErrors : plan.buildErrors.ofSpec spec = none
  notAborted : s.aborted = false
  opened : (Runner.reportOf
    (b.answer s.runner (.specStarting spec.fileName spec.heading spec.tags)).1).failed = false
  resolvable : Resolvable plan spec

/-- How the results of one scenario answer to it, for a specification that is carried out or not. -/
inductive ReportedFor (spec : Specification) (carriedOut : Prop) (sc : Scenario) :
    List ScenarioResult → Prop
  /-- No table drives the scenario, or its specification is not carried out. -/
  | once {r} : (carriedOut → drivingTable spec sc = none) → r.Mirrors sc none →
      ReportedFor spec carriedOut sc [r]
  /-- One result for each selected row. -/
  | perRow {t rs} : carriedOut → drivingTable spec sc = some t → plan.selectedPositions t ≠ [] →
      List.Forall₂ (fun row r => r.Mirrors sc (some row)) (plan.selectedPositions t) rs →
      ReportedFor spec carriedOut sc rs
  /-- No row is selected. -/
  | withoutRows {t r} : carriedOut → drivingTable spec sc = some t →
      plan.selectedPositions t = [] → r.Mirrors sc none → r.status = .skipped →
      ReportedFor spec carriedOut sc [r]

/-- The results are those of the scenarios, one block after the other. -/
def InBlocks (spec : Specification) (carriedOut : Prop) (scenarios : List Scenario)
    (rs : List ScenarioResult) : Prop :=
  ∃ blocks : List (List ScenarioResult), rs = blocks.flatten ∧
    List.Forall₂ (ReportedFor plan spec carriedOut) scenarios blocks

theorem allSkipped_inBlocks (spec : Specification) (reason : String) {carriedOut : Prop}
    (h : ¬carriedOut) : InBlocks plan spec carriedOut spec.scenarios (allSkipped spec reason) := by
  refine ⟨spec.scenarios.map fun sc => [.notExecuted sc none reason], ?_, ?_⟩
  · rw [allSkipped]
    induction spec.scenarios with
    | nil => rfl
    | cons sc rest ih =>
      rw [List.map_cons, ih, List.map_cons, List.flatten_cons, List.singleton_append]
  · rw [List.forall₂_map_right_iff, List.forall₂_same]
    intro sc _
    exact .once (fun hc => absurd hc h) (ScenarioResult.notExecuted_mirrors sc none reason)

theorem drivingRows_ok {spec : Specification} {rows : Option (List Table.Row)}
    (h : drivingRows plan spec = .ok rows) :
    Resolvable plan spec ∧ ((spec.dataTable = none ∧ rows = none) ∨
      ∃ t selected, spec.dataTable = some t ∧ rows = some selected ∧
        selected.map (·.index) = plan.selectedPositions t) := by
  rw [drivingRows] at h
  split at h
  next hnone =>
    rw [Except.ok.injEq] at h
    exact ⟨by simp [Resolvable, hnone], .inl ⟨hnone, h.symm⟩⟩
  next t ht =>
    cases hlisted : plan.resolver.rows t with
    | error fault => simp [hlisted, Except.map] at h
    | ok listed =>
      simp only [hlisted, Except.map, Except.ok.injEq] at h
      have hpositions := selectedRows_positions plan hlisted
      refine ⟨?_, .inr ⟨t, selectedRows plan listed, ht, h.symm, hpositions⟩⟩
      intro t' ht'
      obtain rfl : t = t' := Option.some.inj (ht.symm.trans ht')
      exact ⟨listed, hlisted⟩

theorem drivingRows_error {spec : Specification} {fault : Special.Fault}
    (h : drivingRows plan spec = .error fault) : ¬Resolvable plan spec := by
  intro hresolvable
  rw [drivingRows] at h
  split at h
  next => cases h
  next t ht =>
    obtain ⟨listed, hlisted⟩ := hresolvable t ht
    simp [hlisted, Except.map] at h

theorem runForTable_reported {spec : Specification} {rows : Option (List Table.Row)}
    {carriedOut : Prop} (hc : carriedOut) (h : drivingRows plan spec = .ok rows) (sc : Scenario)
    (s : Session σ) :
    ReportedFor plan spec carriedOut sc (runForTable b plan spec rows sc s).1 := by
  rcases (drivingRows_ok plan h).2 with ⟨hnone, rfl⟩ | ⟨t, selected, ht, rfl, hpos⟩
  · have hdrive : drivingTable spec sc = none := by simp [drivingTable, hnone]
    exact .once (fun _ => hdrive) (runScenario_mirrors b plan spec sc none s)
  · unfold runForTable
    cases huse : sc.usesTable with
    | false =>
      have hdrive : drivingTable spec sc = none := by simp [drivingTable, huse]
      cases selected <;>
        exact .once (fun _ => hdrive) (runScenario_mirrors b plan spec sc none s)
    | true =>
      have hdrive : drivingTable spec sc = some t := drivingTable_eq_some.mpr ⟨huse, ht⟩
      cases selected with
      | nil =>
        exact .withoutRows hc hdrive hpos.symm (ScenarioResult.notExecuted_mirrors sc none _) rfl
      | cons first rest =>
        have hne : plan.selectedPositions t ≠ [] := by simp [← hpos]
        refine .perRow hc hdrive hne ?_
        rw [← hpos, List.forall₂_map_left_iff]
        exact runRows_mirrors b plan spec sc (first :: rest) s

theorem runScenarios_inBlocks {spec : Specification} {rows : Option (List Table.Row)}
    {carriedOut : Prop} (hc : carriedOut) (h : drivingRows plan spec = .ok rows)
    (scenarios : List Scenario) (s : Session σ) :
    InBlocks plan spec carriedOut scenarios (runScenarios b plan spec rows scenarios s).1 := by
  induction scenarios generalizing s with
  | nil => exact ⟨[], rfl, .nil⟩
  | cons sc rest ih =>
    obtain ⟨blocks, heq, hblocks⟩ := ih (runForTable b plan spec rows sc s).2
    refine ⟨(runForTable b plan spec rows sc s).1 :: blocks, ?_, ?_⟩
    · rw [List.flatten_cons, ← heq]
      rfl
    · exact .cons (runForTable_reported b plan hc h sc s) hblocks

theorem runBody_inBlocks {spec : Specification} {carriedOut : Prop}
    (hc : carriedOut ↔ Resolvable plan spec) (s : Session σ) :
    InBlocks plan spec carriedOut spec.scenarios (runBody b plan spec s).1.1 := by
  rw [runBody]
  cases hrows : drivingRows plan spec with
  | error fault =>
    exact allSkipped_inBlocks plan spec _ fun h => drivingRows_error plan hrows (hc.mp h)
  | ok rows =>
    exact runScenarios_inBlocks b plan (hc.mpr (drivingRows_ok plan hrows).1) hrows _ s

theorem takeUp_inBlocks {spec : Specification} {s : Session σ}
    (noErrors : plan.buildErrors.ofSpec spec = none) (notAborted : s.aborted = false) :
    InBlocks plan spec (CarriedOut b plan spec s) spec.scenarios
      (takeUp b plan spec s).1.scenarios := by
  simp only [takeUp, bind_run, ite_run, hook_report]
  split
  next hfailed =>
    refine allSkipped_inBlocks plan spec _ fun h => ?_
    rw [h.opened] at hfailed
    cases hfailed
  next hpassed =>
    refine runBody_inBlocks b plan ⟨CarriedOut.resolvable, fun hres => ?_⟩ _
    exact ⟨noErrors, notAborted, by simpa using hpassed, hres⟩

theorem runSpec_inBlocks (spec : Specification) (s : Session σ) :
    InBlocks plan spec (CarriedOut b plan spec s) spec.scenarios
      (runSpec b plan spec s).1.scenarios := by
  rw [runSpec]
  cases herr : plan.buildErrors.ofSpec spec with
  | some errors =>
    refine allSkipped_inBlocks plan spec _ fun h => ?_
    rw [h.noErrors] at herr
    cases herr
  | none =>
    simp only [isAborted_bind_run, ite_run]
    split
    next haborted =>
      refine allSkipped_inBlocks plan spec _ fun h => ?_
      rw [h.notAborted] at haborted
      cases haborted
    next halive => exact takeUp_inBlocks b plan herr (by simpa using halive)

theorem runSpec_named (spec : Specification) (s : Session σ) :
    (runSpec b plan spec s).1.heading = spec.heading ∧
      (runSpec b plan spec s).1.fileName = spec.fileName := by
  rw [runSpec]
  cases plan.buildErrors.ofSpec spec with
  | some errors => exact ⟨rfl, rfl⟩
  | none =>
    simp only [isAborted_bind_run, ite_run]
    split
    · exact ⟨rfl, rfl⟩
    · simp only [takeUp, bind_run, ite_run]
      split <;> exact ⟨rfl, rfl⟩

theorem announcedSpec_inBlocks (spec : Specification) (s : Session σ) :
    InBlocks plan spec (CarriedOut b plan spec s) spec.scenarios
      (announcedSpec b plan spec s).1.scenarios := by
  have hblocks := runSpec_inBlocks b plan spec (announce .specStart (.ofSpec spec) none s).2
  have hsame : CarriedOut b plan spec (announce .specStart (.ofSpec spec) none s).2 ↔
      CarriedOut b plan spec s :=
    ⟨fun h => ⟨h.1, h.2, h.3, h.4⟩, fun h => ⟨h.1, h.2, h.3, h.4⟩⟩
  rw [propext hsame] at hblocks
  exact hblocks

end SpecEngine.Engine
