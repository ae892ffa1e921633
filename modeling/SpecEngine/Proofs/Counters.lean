/-
# SpecEngine.Proofs.Counters -- the counters of a run conserve its items

A run is summed up three times: each specification counts its scenarios when its result is built,
the suite counts its specifications when the results are merged, and the record of the run subtracts
one counter from another. The subtractions stop at zero, so an item that was counted twice would go
unnoticed. None is. A failed specification never counts as skipped, a scenario has one status, and a
specification with a failed scenario has failed, whichever way its result was built.

The record holds 64-bit numbers. Read as such they always add up; read as numbers they do so as long
as the items themselves can be counted with 64 bits, which is more than any memory holds.
-/
import SpecEngine.Proofs.LostRunner
import SpecEngine.Proofs.Merging
import SpecEngine.Record.Status

namespace SpecEngine.Result

open Item (Specification)

/-! ## Results of specifications -/

/-- The result was built in one of the two ways in which results of specifications are: from a run,
or for a specification that was not taken up. -/
inductive SpecResult.Built : SpecResult → Prop
  | taken (spec : Specification) (scenarios : List ScenarioResult) (failure : Option Failure)
      (durationMs : UInt64) : Built (.ofRun spec scenarios failure durationMs)
  | left (spec : Specification) (reason : String) (errors : List Item.ParseError) :
      Built (.notExecuted spec reason errors)

/-- The counters of a result are those of its scenarios, and a failed scenario makes it a failed
one. -/
structure SpecResult.Tallied (r : SpecResult) : Prop where
  scenarioCount : r.scenarioCount = r.scenarios.length
  failedCount : r.failedCount = countStatus .failed r.scenarios
  skippedCount : r.skippedCount = countStatus .skipped r.scenarios
  failed : 0 < r.failedCount → r.failed = true

theorem SpecResult.Built.tallied {r : SpecResult} (h : r.Built) : r.Tallied := by
  cases h with
  | taken spec scenarios failure ms =>
    refine ⟨rfl, rfl, rfl, fun hpos => ?_⟩
    exact Bool.or_eq_true_iff.mpr (.inl (decide_eq_true hpos))
  | left spec reason errors =>
    refine ⟨rfl, rfl, rfl, fun hpos => ?_⟩
    exact Bool.or_eq_true_iff.mpr (.inl (decide_eq_true hpos))

/-! ## Suites -/

/-- What two exclusive tests count is no more than there is. -/
theorem countP_add_le {α : Type} {p q : α → Bool} (hexclusive : ∀ a, p a = true → q a = false)
    (l : List α) : l.countP p + l.countP q ≤ l.length := by
  -- the second test holds only where the first fails
  rw [List.length_eq_countP_add_countP p]
  refine Nat.add_le_add_left (List.countP_mono_left fun a _ hq => ?_) _
  cases hp : p a with
  | true => simp [hexclusive a hp] at hq
  | false => decide

/-- A scenario has one status. -/
theorem countStatus_add_le (scenarios : List ScenarioResult) :
    SpecResult.countStatus .failed scenarios + SpecResult.countStatus .skipped scenarios ≤
      scenarios.length := by
  refine countP_add_le (fun r hfailed => ?_) scenarios
  rw [of_decide_eq_true hfailed]
  rfl

namespace SuiteResult

/-- The results of all scenarios of a run. -/
def scenarios (r : SuiteResult) : List ScenarioResult := r.specs.flatMap (·.scenarios)

/-- What specifications count of their scenarios adds up to what all scenarios come to. -/
theorem total_eq {r : SuiteResult} {count : SpecResult → Nat} {all : List ScenarioResult → Nat}
    (hnil : all [] = 0) (happend : ∀ l m, all (l ++ m) = all l + all m)
    (heach : ∀ spec ∈ r.specs, count spec = all spec.scenarios) :
    r.total count = all r.scenarios := by
  rw [total, scenarios]
  generalize r.specs = specs at heach
  induction specs with
  | nil => exact hnil.symm
  | cons spec rest ih =>
    obtain ⟨hspec, hrest⟩ := List.forall_mem_cons.mp heach
    rw [List.foldr_cons, List.flatMap_cons, happend, ih hrest, hspec]

theorem exists_of_total_pos {r : SuiteResult} {count : SpecResult → Nat} (h : 0 < r.total count) :
    ∃ spec ∈ r.specs, 0 < count spec := by
  rw [total] at h
  generalize r.specs = specs at h
  induction specs with
  | nil => cases h
  | cons spec rest ih =>
    rw [List.foldr_cons] at h
    rcases Nat.eq_zero_or_pos (count spec) with hzero | hpos
    · rw [hzero, Nat.zero_add] at h
      obtain ⟨other, hother, hcount⟩ := ih h
      exact ⟨other, List.mem_cons_of_mem spec hother, hcount⟩
    · exact ⟨spec, List.mem_cons_self, hpos⟩

/-- The counters of a run are those of its items, and no item is counted twice. -/
structure Tallied (r : SuiteResult) : Prop where
  specs : r.failedCount + r.skippedCount ≤ r.specs.length
  scenarioCount : r.scenarioCount = r.scenarios.length
  scenarioFailedCount : r.scenarioFailedCount = SpecResult.countStatus .failed r.scenarios
  scenarioSkippedCount : r.scenarioSkippedCount = SpecResult.countStatus .skipped r.scenarios
  failed : 0 < r.scenarioFailedCount → 0 < r.failedCount

/-- Wherever a run's results come from, its counters tally if those of the specifications do. -/
theorem ofSpecs_tallied {specs : List SpecResult} (ms : Nat) (failure : Option Failure)
    (h : ∀ spec ∈ specs, spec.Tallied) : (ofSpecs specs ms failure).Tallied where
  specs := countP_add_le (fun spec hfailed => by simp [hfailed]) specs
  scenarioCount := total_eq rfl (fun _ _ => List.length_append) fun spec hspec =>
    (h spec hspec).scenarioCount
  scenarioFailedCount := total_eq rfl (fun _ _ => List.countP_append) fun spec hspec =>
    (h spec hspec).failedCount
  scenarioSkippedCount := total_eq rfl (fun _ _ => List.countP_append) fun spec hspec =>
    (h spec hspec).skippedCount
  failed := by
    intro hpos
    obtain ⟨spec, hspec, hcount⟩ := exists_of_total_pos hpos
    exact List.countP_pos_iff.mpr ⟨spec, hspec, (h spec hspec).failed hcount⟩

end SuiteResult

end SpecEngine.Result

/-! ## Records -/

namespace SpecEngine.Record.Status

open Result (SuiteResult SpecResult)

/-- No subtraction that a record is made with goes below zero. -/
structure NeverClips (r : SuiteResult) : Prop where
  specsSkipped : r.skippedCount ≤ r.specs.length
  specsFailed : r.failedCount ≤ r.specs.length - r.skippedCount
  scenariosSkipped : r.scenarioSkippedCount ≤ r.scenarioCount
  scenariosFailed : r.scenarioFailedCount ≤ r.scenarioCount - r.scenarioSkippedCount

/-- The counters of a record, read in some way, add up to the numbers of specifications and of
scenarios. -/
structure AddsUp {α : Type} [Add α] (s : Status) (read : UInt64 → α)
    (specCount scenarioCount : α) : Prop where
  specs : read s.specsPassed + read s.specsFailed = read s.specsExecuted
  allSpecs : read s.specsExecuted + read s.specsSkipped = specCount
  scenarios : read s.scenariosPassed + read s.scenariosFailed = read s.scenariosExecuted
  allScenarios : read s.scenariosExecuted + read s.scenariosSkipped = scenarioCount

variable {r : SuiteResult}

theorem neverClips (h : r.Tallied) : NeverClips r := by
  have hspecs := h.specs
  have hscenarios := Result.countStatus_add_le r.scenarios
  rw [← h.scenarioFailedCount, ← h.scenarioSkippedCount, ← h.scenarioCount] at hscenarios
  constructor <;> omega

theorem ofNat_sub_add {a b : Nat} (h : b ≤ a) :
    UInt64.ofNat (a - b) + UInt64.ofNat b = UInt64.ofNat a := by
  rw [← UInt64.ofNat_add, Nat.sub_add_cancel h]

/-- As 64-bit numbers the counters of a record always add up. -/
theorem ofSuite_addsUp (h : NeverClips r) :
    (ofSuite r).AddsUp id (.ofNat r.specs.length) (.ofNat r.scenarioCount) where
  specs := ofNat_sub_add h.specsFailed
  allSpecs := ofNat_sub_add h.specsSkipped
  scenarios := ofNat_sub_add h.scenariosFailed
  allScenarios := ofNat_sub_add h.scenariosSkipped

theorem toNat_ofNat {n : Nat} (h : n < UInt64.size) : (UInt64.ofNat n).toNat = n :=
  UInt64.toNat_ofNat_of_lt' h

/-- Read as numbers they do so if the items can be counted with 64 bits. -/
theorem ofSuite_addsUp_toNat (h : NeverClips r) (hspecs : r.specs.length < UInt64.size)
    (hscenarios : r.scenarioCount < UInt64.size) :
    (ofSuite r).AddsUp UInt64.toNat r.specs.length r.scenarioCount := by
  obtain ⟨hskipped, hfailed, hskipped', hfailed'⟩ := h
  -- every counter is at most one of the two numbers, so none is cut off when it is recorded
  constructor <;> simp only [ofSuite]
  · rw [toNat_ofNat (by omega), toNat_ofNat (by omega), toNat_ofNat (by omega)]
    omega
  · rw [toNat_ofNat (by omega), toNat_ofNat (by omega)]
    omega
  · rw [toNat_ofNat (by omega), toNat_ofNat (by omega), toNat_ofNat (by omega)]
    omega
  · rw [toNat_ofNat (by omega), toNat_ofNat (by omega)]
    omega

/-- A record with failed scenarios has failed specifications. -/
theorem specsFailed_pos (h : r.Tallied) (hspecs : r.specs.length < UInt64.size)
    (hpos : 0 < (ofSuite r).scenariosFailed) : 0 < (ofSuite r).specsFailed := by
  have hscenarios : 0 < r.scenarioFailedCount := by
    rcases Nat.eq_zero_or_pos r.scenarioFailedCount with hzero | hpos'
    · simp [ofSuite, hzero] at hpos
    · exact hpos'
  have hfailed := h.failed hscenarios
  have hle := h.specs
  rw [UInt64.lt_iff_toNat_lt, ofSuite, toNat_ofNat (by omega)]
  exact hfailed

end SpecEngine.Record.Status

/-! ## Merged results -/

namespace SpecEngine.Engine

open Item (Specification)
open Result (SpecResult SuiteResult StreamOutcome)
open Record (Status)
open Runner (Behavior Fleet)

variable {σ : Type}

theorem merge_tallied {outcomes : List StreamOutcome} (ms : Nat)
    (hbuilt : ∀ o ∈ outcomes, ∀ entry ∈ o.results, entry.2.Built) :
    (Result.merge outcomes ms).Tallied := by
  refine SuiteResult.ofSpecs_tallied ms _ fun spec hspec => ?_
  obtain ⟨o, ho, entry, hentry, rfl⟩ := (mem_merge_specs ms).mp hspec
  exact (hbuilt o ho entry hentry).tallied

/-- Merging keeps every result once, and no counter that it makes, nor any in the record of the
merged result, counts an item twice: failed and skipped specifications are no more than there are,
scenarios are counted as the results of the scenarios say, and the record adds up without any of
its subtractions being cut off at zero. -/
theorem merged_counters_conserve (outcomes : List StreamOutcome) (ms : Nat)
    (hbuilt : ∀ o ∈ outcomes, ∀ entry ∈ o.results, entry.2.Built) :
    let r := Result.merge outcomes ms
    r.specs.Perm (outcomes.flatMap fun o => o.results.map (·.2)) ∧ r.Tallied ∧
      Status.NeverClips r ∧
      (Status.ofSuite r).AddsUp id (.ofNat r.specs.length) (.ofNat r.scenarioCount) ∧
      (r.specs.length < UInt64.size → r.scenarioCount < UInt64.size →
        (Status.ofSuite r).AddsUp UInt64.toNat r.specs.length r.scenarioCount ∧
          (0 < (Status.ofSuite r).scenariosFailed → 0 < (Status.ofSuite r).specsFailed)) := by
  intro r
  have htallied : r.Tallied := merge_tallied ms hbuilt
  have hclips := Status.neverClips htallied
  refine ⟨merge_results_perm outcomes ms, htallied, hclips, Status.ofSuite_addsUp hclips,
    fun hlength hcount => ?_⟩
  exact ⟨Status.ofSuite_addsUp_toNat hclips hlength hcount,
    Status.specsFailed_pos htallied hlength⟩

/-- Two streams of which one hands in a failed specification and the other one that was left out. -/
def failedAndLeftOut : List StreamOutcome := [
  { stream := 1, results := [(1, .notExecuted (oneStepSpec "second") "left out" [])] },
  { stream := 0
    results := [(0, .ofRun (oneStepSpec "first")
      [.ofRun { heading := "Scenario", steps := [] } none .failed 0 []] none 0)] }]

theorem failedAndLeftOut_counters :
    (∀ o ∈ failedAndLeftOut, ∀ entry ∈ o.results, entry.2.Built) ∧
      (Result.merge failedAndLeftOut 0).Tallied ∧
      (Status.ofSuite (Result.merge failedAndLeftOut 0)).AddsUp UInt64.toNat 2 2 ∧
      0 < (Status.ofSuite (Result.merge failedAndLeftOut 0)).specsFailed := by
  have hbuilt : ∀ o ∈ failedAndLeftOut, ∀ entry ∈ o.results, entry.2.Built := by
    simp only [failedAndLeftOut, List.forall_mem_cons, List.not_mem_nil, false_implies,
      implies_true, and_true]
    exact ⟨.left .., .taken ..⟩
  obtain ⟨hperm, htallied, -, -, hexact⟩ := merged_counters_conserve failedAndLeftOut 0 hbuilt
  have hspecs : (Result.merge failedAndLeftOut 0).specs.length = 2 := hperm.length_eq
  have hall := hperm.flatMap_right (·.scenarios)
  have hscenarios : (Result.merge failedAndLeftOut 0).scenarioCount = 2 :=
    htallied.scenarioCount.trans hall.length_eq
  have hfailed : (Result.merge failedAndLeftOut 0).scenarioFailedCount = 1 :=
    htallied.scenarioFailedCount.trans (hall.countP_eq _)
  rw [hspecs, hscenarios] at hexact
  obtain ⟨haddsUp, hpos⟩ := hexact (by decide) (by decide)
  refine ⟨hbuilt, htallied, haddsUp, hpos ?_⟩
  simp only [Status.ofSuite, hfailed]
  decide

/-! ## Runs -/

section

variable {b : Behavior σ} {plan : Plan} {spec : Specification}

theorem SpecHistory.built {aborted : Bool} {hs : List Happening} {r : SpecResult}
    (h : SpecHistory plan spec aborted hs r) : r.Built := by
  cases h with
  | illFormed _ => exact .left ..
  | dead _ _ => exact .left ..
  | takenUp _ _ _ _ _ => exact .taken ..

theorem AccountFor.built {r : SpecResult} (h : AccountFor b plan spec r) : r.Built := by
  cases h with
  | run s =>
    obtain ⟨hs, -, hhistory⟩ := announcedSpec_history b plan spec s
    exact hhistory.built
  | leftOut reason => exact .left ..

end

/-- The counters of every run conserve its items. -/
theorem runSuite_tallied (fleet : Fleet σ) (plan : Plan) (order : Nat → Nat) :
    (runSuite fleet plan order).result.Tallied := by
  obtain ⟨haccounted, -⟩ := completed_covers (runStreams_accounts fleet plan order)
  refine merge_tallied 0 fun o ho entry hentry => ?_
  obtain ⟨spec, -, hfor⟩ := haccounted o ho entry hentry
  exact hfor.built

end SpecEngine.Engine
