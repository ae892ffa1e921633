/-
# SpecEngine.Proofs.Rerun -- running again what failed

The failures record of a run lists the file and line of every scenario with a failed result, once,
in the order in which they first failed. Restricting the collection of the run to the record takes
from it every scenario that failed, in any row of its table. What else it takes has the file and
line of a scenario that failed, so it takes nothing else if no two scenarios of the collection share
them.

A result belongs to the scenario at a place of the collection. The places of its specification are
those of the run's entries, and the results of one specification come in one block per scenario.
-/
import Mathlib.Data.List.Flatten
import SpecEngine.Proofs.Counters
import SpecEngine.Proofs.Isolation
import SpecEngine.Proofs.Restriction
import SpecEngine.Record.Failures

/-! ## First occurrences -/

namespace SpecEngine.Record

open Result (SuiteResult ScenarioResult SpecResult)

section

variable {α : Type} [DecidableEq α] {a : α} {seen l : List α}

theorem mem_firstOccurrences : a ∈ firstOccurrences seen l ↔ a ∈ l ∧ a ∉ seen := by
  induction l generalizing seen with
  | nil => simp [firstOccurrences]
  | cons first rest ih =>
    rw [firstOccurrences]
    split
    next hseen =>
      rw [ih, List.mem_cons]
      refine and_congr_left fun hunseen => ⟨.inr, fun h => h.resolve_left ?_⟩
      rintro rfl
      exact hunseen hseen
    next hunseen =>
      rw [List.mem_cons, ih, List.mem_cons, List.mem_cons, not_or]
      constructor
      · rintro (rfl | ⟨hrest, -, hold⟩)
        · exact ⟨.inl rfl, hunseen⟩
        · exact ⟨.inr hrest, hold⟩
      · rintro ⟨rfl | hrest, hold⟩
        · exact .inl rfl
        · by_cases hfirst : a = first
          · exact .inl hfirst
          · exact .inr ⟨hrest, hfirst, hold⟩

/-- First occurrences come in the order in which they stand in the list. -/
theorem firstOccurrences_ordered (seen l : List α) :
    (firstOccurrences seen l).Pairwise fun a b => l.idxOf a < l.idxOf b := by
  induction l generalizing seen with
  | nil => exact .nil
  | cons first rest ih =>
    -- what is not the first element stands one further in the longer list
    have hlater : ∀ {seen' : List α}, first ∈ seen' →
        (firstOccurrences seen' rest).Pairwise
          fun a b => (first :: rest).idxOf a < (first :: rest).idxOf b := by
      intro seen' hseen
      refine (ih seen').imp_of_mem fun {a b} ha hb hlt => ?_
      have hne : ∀ {c}, c ∈ firstOccurrences seen' rest → first ≠ c := by
        rintro c hc rfl
        exact (mem_firstOccurrences.mp hc).2 hseen
      rw [List.idxOf_cons_ne _ (hne ha), List.idxOf_cons_ne _ (hne hb)]
      exact Nat.succ_lt_succ hlt
    rw [firstOccurrences]
    split
    next hseen => exact hlater hseen
    next hunseen =>
      refine .cons (fun b hb => ?_) (hlater List.mem_cons_self)
      have hne : first ≠ b := by
        rintro rfl
        exact (mem_firstOccurrences.mp hb).2 List.mem_cons_self
      rw [List.idxOf_cons_self, List.idxOf_cons_ne _ hne]
      exact Nat.succ_pos _

end

/-! ## The record -/

/-- The files and lines of the failed scenario results of a run, in the order of the results. -/
def failedKeys (result : SuiteResult) : List FailedScenario :=
  result.specs.flatMap fun spec =>
    (spec.scenarios.filter fun sc => sc.status = .failed).map fun sc => ⟨spec.fileName, sc.line⟩

theorem ofSuite_scenarios (result : SuiteResult) :
    (Failures.ofSuite result).scenarios = firstOccurrences [] (failedKeys result) := rfl

theorem mem_failedKeys {result : SuiteResult} {key : FailedScenario} :
    key ∈ failedKeys result ↔
      ∃ spec ∈ result.specs, ∃ sc ∈ spec.scenarios,
        sc.status = .failed ∧ key = ⟨spec.fileName, sc.line⟩ := by
  simp only [failedKeys, List.mem_flatMap, List.mem_map, List.mem_filter, decide_eq_true_eq]
  refine exists_congr fun spec => and_congr_right fun _ => exists_congr fun sc => ?_
  rw [and_assoc, eq_comm (a := key)]

/-- A record that lists the scenarios with a failed result once each, in the order in which they
first failed, and that is empty exactly if none is counted as failed. -/
structure Failures.Lists (record : Failures) (result : SuiteResult) : Prop where
  mem_iff : ∀ key, key ∈ record.scenarios ↔
    ∃ spec ∈ result.specs, ∃ sc ∈ spec.scenarios,
      sc.status = .failed ∧ key = ⟨spec.fileName, sc.line⟩
  once : record.scenarios.Nodup
  ordered : record.scenarios.Pairwise fun a b =>
    (failedKeys result).idxOf a < (failedKeys result).idxOf b
  isEmpty_iff : record.isEmpty = true ↔ result.scenarioFailedCount = 0
  /-- The same of the counter in the status record, which holds 64 bits. -/
  isEmpty_iff_status : result.scenarioFailedCount < UInt64.size →
    (record.isEmpty = true ↔ (Status.ofSuite result).scenariosFailed = 0)

theorem ofSuite_isEmpty_iff {result : SuiteResult} (h : result.Tallied) :
    (Failures.ofSuite result).isEmpty = true ↔ result.scenarioFailedCount = 0 := by
  have hnil : (Failures.ofSuite result).scenarios = [] ↔ failedKeys result = [] := by
    simp only [List.eq_nil_iff_forall_not_mem, ofSuite_scenarios, mem_firstOccurrences,
      List.not_mem_nil, not_false_eq_true, and_true]
  have hcount : result.scenarioFailedCount = 0 ↔
      ∀ sc ∈ result.scenarios, sc.status ≠ .failed := by
    rw [h.scenarioFailedCount, SpecResult.countStatus, List.countP_eq_zero]
    simp only [decide_eq_true_eq]
  rw [Failures.isEmpty, List.isEmpty_iff, hnil, hcount, List.eq_nil_iff_forall_not_mem]
  simp only [SuiteResult.scenarios, List.mem_flatMap]
  constructor
  · rintro hnone sc ⟨spec, hspec, hsc⟩ hfailed
    exact hnone _ (mem_failedKeys.mpr ⟨spec, hspec, sc, hsc, hfailed, rfl⟩)
  · rintro hnone key hkey
    obtain ⟨spec, hspec, sc, hsc, hfailed, -⟩ := mem_failedKeys.mp hkey
    exact hnone sc ⟨spec, hspec, hsc⟩ hfailed

/-- The failures record of a result whose counters tally lists its failures. -/
theorem ofSuite_lists {result : SuiteResult} (h : result.Tallied) :
    (Failures.ofSuite result).Lists result where
  mem_iff key := by
    rw [ofSuite_scenarios, mem_firstOccurrences, ← mem_failedKeys]
    exact and_iff_left List.not_mem_nil
  once := by
    refine (firstOccurrences_ordered [] (failedKeys result)).imp fun {a b} hlt => ?_
    rintro rfl
    exact Nat.lt_irrefl _ hlt
  ordered := firstOccurrences_ordered [] (failedKeys result)
  isEmpty_iff := ofSuite_isEmpty_iff h
  isEmpty_iff_status hbound := by
    rw [ofSuite_isEmpty_iff h, ← UInt64.toNat_inj, Status.ofSuite, Status.toNat_ofNat hbound]
    rfl

end SpecEngine.Record

namespace SpecEngine.Engine

open Item (Specification Scenario Collection Places)
open Record (FailedScenario Failures)
open Result (ScenarioResult SpecResult)
open Runner (Behavior Fleet)

variable {σ : Type}

/-! ## Places of results -/

/-- The result is one of the scenario at a position of the specification at a position: one of the
block that answers to this scenario in the specification's result. -/
def SuiteRun.ResultAt (run : SuiteRun σ) (plan : Plan) (i j : Nat) (sc : ScenarioResult) : Prop :=
  ∃ spec r carriedOut blocks block, plan.specs[i]? = some spec ∧ (i, r) ∈ run.entries plan ∧
    r.scenarios = blocks.flatten ∧
    List.Forall₂ (ReportedFor plan spec carriedOut) spec.scenarios blocks ∧
    blocks[j]? = some block ∧ sc ∈ block

/-- The scenario at a place has failed, in one of its rows if a table drives it. -/
def SuiteRun.FailedAt (run : SuiteRun σ) (plan : Plan) (i j : Nat) : Prop :=
  ∃ sc, run.ResultAt plan i j sc ∧ sc.status = .failed

theorem ReportedFor.line_eq {plan : Plan} {spec : Specification} {carriedOut : Prop}
    {sc : Scenario} {rs : List ScenarioResult} (h : ReportedFor plan spec carriedOut sc rs)
    {r : ScenarioResult} (hr : r ∈ rs) : r.line = sc.line := by
  cases h with
  | once _ hmirrors =>
    obtain rfl := List.mem_singleton.mp hr
    exact hmirrors.line
  | perRow _ _ _ hrows =>
    obtain ⟨row, -, hmirrors⟩ := forall₂_mem_right hrows hr
    exact hmirrors.line
  | withoutRows _ _ _ hmirrors =>
    obtain rfl := List.mem_singleton.mp hr
    exact hmirrors.line

theorem AccountFor.inBlocks {b : Behavior σ} {plan : Plan} {spec : Specification} {r : SpecResult}
    (h : AccountFor b plan spec r) :
    ∃ carriedOut, InBlocks plan spec carriedOut spec.scenarios r.scenarios := by
  cases h with
  | run s => exact ⟨_, announcedSpec_inBlocks b plan spec s⟩
  | leftOut reason => exact ⟨False, allSkipped_inBlocks plan spec reason not_false⟩

section

variable {fleet : Fleet σ} {plan : Plan} {order : Nat → Nat}

/-- The scenario at the place of a result has its line, in a specification with its file. -/
theorem SuiteRun.ResultAt.named {i j : Nat} {sc : ScenarioResult}
    (h : (runSuite fleet plan order).ResultAt plan i j sc) :
    ∃ spec scenario, plan.specs[i]? = some spec ∧ spec.scenarios[j]? = some scenario ∧
      scenario.line = sc.line ∧
      ∃ r ∈ (runSuite fleet plan order).result.specs,
        sc ∈ r.scenarios ∧ r.fileName = spec.fileName := by
  obtain ⟨spec, r, carriedOut, blocks, block, hspec, hentry, hscenarios, hblocks, hblock, hsc⟩ := h
  have henumerates := runSuite_enumerates fleet plan order
  obtain ⟨spec', hspec', haccount⟩ := henumerates.accounted _ hentry
  obtain rfl := Option.some.inj (hspec.symm.trans hspec')
  obtain ⟨hj, hget⟩ := List.getElem?_eq_some_iff.mp hblock
  have hj' : j < spec.scenarios.length := hblocks.length_eq ▸ hj
  have hreported := hblocks.get hj' hj
  rw [List.get_eq_getElem, List.get_eq_getElem, hget] at hreported
  refine ⟨spec, spec.scenarios[j], hspec, List.getElem?_eq_getElem hj',
    (hreported.line_eq hsc).symm, r, ?_, ?_, haccount.named.2⟩
  · rw [← henumerates.results_eq]
    exact List.mem_map_of_mem hentry
  · rw [hscenarios]
    exact List.mem_flatten_of_mem (List.mem_of_getElem? hblock) hsc

/-- Every scenario result of a run is one of the scenario at some place. -/
theorem exists_resultAt {r : SpecResult} (hr : r ∈ (runSuite fleet plan order).result.specs)
    {sc : ScenarioResult} (hsc : sc ∈ r.scenarios) :
    ∃ i j spec scenario, (runSuite fleet plan order).ResultAt plan i j sc ∧
      plan.specs[i]? = some spec ∧ spec.scenarios[j]? = some scenario ∧
      r.fileName = spec.fileName ∧ sc.line = scenario.line := by
  have henumerates := runSuite_enumerates fleet plan order
  rw [← henumerates.results_eq] at hr
  obtain ⟨⟨i, r⟩, hentry, rfl⟩ := List.mem_map.mp hr
  obtain ⟨spec, hspec, haccount⟩ := henumerates.accounted _ hentry
  obtain ⟨carriedOut, blocks, hscenarios, hblocks⟩ := haccount.inBlocks
  rw [hscenarios] at hsc
  obtain ⟨block, hblock, hsc⟩ := List.mem_flatten.mp hsc
  obtain ⟨j, hj, rfl⟩ := List.getElem_of_mem hblock
  have hj' : j < spec.scenarios.length := hblocks.length_eq ▸ hj
  refine ⟨i, j, spec, spec.scenarios[j], ?_, hspec, List.getElem?_eq_getElem hj',
    haccount.named.2, ?_⟩
  · exact ⟨spec, r, carriedOut, blocks, _, hspec, hentry, hscenarios, hblocks,
      List.getElem?_eq_getElem hj, hsc⟩
  · exact (hblocks.get hj' hj).line_eq hsc

end

/-! ## The rerun -/

/-- The files and lines of the scenarios of a collection. -/
def scenarioKeys (specs : Collection) : List FailedScenario :=
  specs.flatMap fun spec => spec.scenarios.map fun sc => ⟨spec.fileName, sc.line⟩

/-- If no two scenarios share file and line, these name a place. -/
theorem place_of_key {specs : Collection} (h : (scenarioKeys specs).Nodup) {i j i' j' : Nat}
    {spec spec' : Specification} {sc sc' : Scenario} (hspec : specs[i]? = some spec)
    (hsc : spec.scenarios[j]? = some sc) (hspec' : specs[i']? = some spec')
    (hsc' : spec'.scenarios[j']? = some sc')
    (hkey : (⟨spec.fileName, sc.line⟩ : FailedScenario) = ⟨spec'.fileName, sc'.line⟩) :
    i = i' ∧ j = j' := by
  obtain ⟨hwithin, hacross⟩ := List.nodup_flatMap.mp h
  have hmem := List.mem_map_of_mem (f := fun sc : Scenario => FailedScenario.mk spec.fileName sc.line)
    (List.mem_of_getElem? hsc)
  have hmem' := List.mem_map_of_mem
    (f := fun sc : Scenario => FailedScenario.mk spec'.fileName sc.line)
    (List.mem_of_getElem? hsc')
  obtain ⟨hi, rfl⟩ := List.getElem?_eq_some_iff.mp hspec
  obtain ⟨hi', rfl⟩ := List.getElem?_eq_some_iff.mp hspec'
  rcases Nat.lt_trichotomy i i' with hlt | rfl | hgt
  · exact absurd (hkey ▸ hmem') (List.pairwise_iff_getElem.mp hacross i i' hi hi' hlt hmem)
  · refine ⟨rfl, ?_⟩
    have hkeys := hwithin _ (List.getElem_mem hi)
    have hj := congrArg (Option.map fun sc : Scenario =>
      FailedScenario.mk specs[i].fileName sc.line) hsc
    have hj' := congrArg (Option.map fun sc : Scenario =>
      FailedScenario.mk specs[i].fileName sc.line) hsc'
    rw [← List.getElem?_map] at hj hj'
    refine (List.getElem?_inj ?_ hkeys).mp ?_
    · exact (List.getElem?_eq_some_iff.mp hj).1
    · rw [hj, hj']
      exact congrArg some hkey
  · exact absurd (hkey ▸ hmem) (List.pairwise_iff_getElem.mp hacross i' i hi' hi hgt hmem')

/-- The failures record of a run selects what failed. It lists every scenario with a failed result
once, in the order of the failures. Restricting the collection of the run to it leaves an excerpt,
which has every scenario that failed and only scenarios that are recorded; these are the ones that
failed if file and line tell the scenarios of the collection apart. -/
theorem rerun_selects_failures (fleet : Fleet σ) (plan : Plan) (order : Nat → Nat) :
    let run := runSuite fleet plan order
    let record := Failures.ofSuite run.result
    record.Lists run.result ∧
      ∃ places : Places, plan.specs.Excerpt (record.restrict plan.specs) places ∧
        (∀ i j, run.FailedAt plan i j → places.Has i j) ∧
        (∀ i j, places.Has i j ↔ ∃ spec sc, plan.specs[i]? = some spec ∧
          spec.scenarios[j]? = some sc ∧ ⟨spec.fileName, sc.line⟩ ∈ record.scenarios) ∧
        ((scenarioKeys plan.specs).Nodup → ∀ i j, places.Has i j → run.FailedAt plan i j) := by
  intro run record
  have hlists : record.Lists run.result :=
    Record.ofSuite_lists (runSuite_tallied fleet plan order)
  have hplaces : ∀ i j, (plan.specs.wantedPlaces fun spec sc =>
      record.scenarios.contains ⟨spec.fileName, sc.line⟩).Has i j ↔
      ∃ spec sc, plan.specs[i]? = some spec ∧ spec.scenarios[j]? = some sc ∧
        ⟨spec.fileName, sc.line⟩ ∈ record.scenarios := by
    intro i j
    simp only [Item.has_wantedPlaces, List.contains_iff_mem]
  refine ⟨hlists, _, Item.restrict_excerpt plan.specs _, ?_, hplaces, ?_⟩
  · rintro i j ⟨sc, hat, hfailed⟩
    obtain ⟨spec, scenario, hspec, hscenario, hline, r, hr, hsc, hfile⟩ := hat.named
    refine (hplaces i j).mpr ⟨spec, scenario, hspec, hscenario, (hlists.mem_iff _).mpr ?_⟩
    exact ⟨r, hr, sc, hsc, hfailed, by rw [hline, hfile]⟩
  · intro hunique i j hhas
    obtain ⟨spec, scenario, hspec, hscenario, hkey⟩ := (hplaces i j).mp hhas
    obtain ⟨r, hr, sc, hsc, hfailed, hkey⟩ := (hlists.mem_iff _).mp hkey
    obtain ⟨i', j', spec', scenario', hat, hspec', hscenario', hfile, hline⟩ :=
      exists_resultAt hr hsc
    rw [hfile, hline] at hkey
    obtain ⟨rfl, rfl⟩ := place_of_key hunique hspec hscenario hspec' hscenario' hkey
    exact ⟨sc, hat, hfailed⟩

/-- Two specifications in files of their own, of which the runner dies in the first: what is run
again is what failed. -/
theorem dying_fleet_rerun :
    (scenarioKeys twoSpecs.specs).Nodup ∧
      ∃ places : Places, twoSpecs.specs.Excerpt ((Failures.ofSuite
          (runSuite dyingFleet twoSpecs id).result).restrict twoSpecs.specs) places ∧
        ∀ i j, places.Has i j ↔ (runSuite dyingFleet twoSpecs id).FailedAt twoSpecs i j := by
  have hunique : (scenarioKeys twoSpecs.specs).Nodup := by decide +kernel
  obtain ⟨-, places, hexcerpt, hfailed, -, hkept⟩ := rerun_selects_failures dyingFleet twoSpecs id
  exact ⟨hunique, places, hexcerpt, fun i j => ⟨hkept hunique i j, hfailed i j⟩⟩

end SpecEngine.Engine
