/-
# SpecEngine.Proofs.Classification -- statuses, failures and counters agree

The result of a specification says several times over how things went: by statuses at every level,
by failures, by reasons for skipping and by counters. These never contradict each other. A node of
the tree of steps shows a failure exactly when it failed, and a concept failed exactly when one of
its parts did. A scenario that passed did so all the way down, one that failed can say why, and in
one that was skipped nothing failed.

What carries this through a scenario is what an item hands on (`Executed.Classified`): only an item
that did not pass halts the ones after it, a failed round trip shows in the item itself, and an item
that ran is skipped only at the runner's request. So items that have passed together all ran, and
all passed.
-/
import SpecEngine.Proofs.Concepts
import SpecEngine.Proofs.History

namespace SpecEngine.Result

open Item (Step StepItem Scenario Specification)

namespace StepResult

/-! ## Nodes -/

mutual
/-- A result and all results below it, depth first. -/
def nodes : StepResult → List StepResult
  | ⟨text, line, status, ms, failure, nested, isConcept⟩ =>
    ⟨text, line, status, ms, failure, nested, isConcept⟩ :: allNodes nested
/-- Some results and all results below them, depth first. -/
def allNodes : List StepResult → List StepResult
  | [] => []
  | r :: rest => nodes r ++ allNodes rest
end

theorem nodes_eq (r : StepResult) : r.nodes = r :: allNodes r.nested := by
  cases r
  rw [nodes]

theorem mem_allNodes {d : StepResult} {rs : List StepResult} :
    d ∈ allNodes rs ↔ ∃ r ∈ rs, d ∈ r.nodes := by
  induction rs with
  | nil => simp [allNodes]
  | cons r rest ih => simp [allNodes, ih]

/-- The status, the failure and the parts of a node agree. -/
structure Consistent (r : StepResult) : Prop where
  failure_iff : r.failure.isSome = true ↔ r.status = .failed
  /-- A plain step has no parts. -/
  plain : r.isConcept = false → r.nested = []
  failed_iff : r.isConcept = true →
    (r.status = .failed ↔ ∃ part ∈ r.nested, part.status = .failed)
  passed : r.isConcept = true → r.status = .passed → ∀ d ∈ allNodes r.nested, d.status = .passed

mutual

/-- Nothing failed below a node that did not fail. -/
theorem nodes_not_failed : ∀ r : StepResult, (∀ d ∈ r.nodes, d.Consistent) →
    r.status ≠ .failed → ∀ d ∈ r.nodes, d.status ≠ .failed
  | ⟨text, line, status, ms, failure, nested, isConcept⟩, hconsistent, hstatus, d, hd => by
    rw [nodes, List.mem_cons] at hd
    rw [nodes] at hconsistent
    rcases hd with rfl | hd
    · exact hstatus
    · have hparts : ∀ part ∈ nested, part.status ≠ .failed := by
        intro part hpart hfailed
        have hnode := hconsistent _ List.mem_cons_self
        cases isConcept with
        | false =>
          obtain rfl : nested = [] := hnode.plain rfl
          cases hpart
        | true => exact hstatus ((hnode.failed_iff rfl).mpr ⟨part, hpart, hfailed⟩)
      exact allNodes_not_failed nested (fun d hd => hconsistent d (.tail _ hd)) hparts d hd

theorem allNodes_not_failed : ∀ rs : List StepResult, (∀ d ∈ allNodes rs, d.Consistent) →
    (∀ r ∈ rs, r.status ≠ .failed) → ∀ d ∈ allNodes rs, d.status ≠ .failed
  | [], _, _, d, hd => by cases hd
  | r :: rest, hconsistent, hstatus, d, hd => by
    rw [allNodes] at hconsistent hd
    rcases List.mem_append.mp hd with hd | hd
    · exact nodes_not_failed r (fun d hd => hconsistent d (List.mem_append_left _ hd))
        (hstatus r List.mem_cons_self) d hd
    · exact allNodes_not_failed rest (fun d hd => hconsistent d (List.mem_append_right _ hd))
        (fun r hr => hstatus r (.tail _ hr)) d hd

end

/-! ### Items that are not executed -/

theorem skipped_consistent (step : Step) (ms : UInt64) : (skipped step ms).Consistent where
  failure_iff := by simp [skipped]
  plain _ := rfl
  failed_iff h := by cases h
  passed h := by cases h

mutual

theorem notExecuted_nodes : ∀ item : StepItem, ∀ d ∈ (notExecuted item).nodes,
    d.status = .skipped ∧ d.Consistent
  | .step step, d, hd => by
    rw [notExecuted, skipped, nodes, allNodes, List.mem_singleton] at hd
    subst hd
    exact ⟨rfl, skipped_consistent step 0⟩
  | .concept text line steps, d, hd => by
    have hparts := allNotExecuted_nodes steps
    rw [notExecuted, nodes_eq, List.mem_cons] at hd
    rcases hd with rfl | hd
    · refine ⟨rfl, ?_, fun h => ?_, fun _ => ?_, fun _ h => ?_⟩
      · simp [concept]
      · cases h
      · refine ⟨fun h => ?_, ?_⟩
        · cases h
        · -- no part has failed, for all are skipped
          rintro ⟨part, hpart, hfailed⟩
          have hnode : part ∈ part.nodes := by
            rw [nodes_eq]
            exact List.mem_cons_self
          rw [(hparts part (mem_allNodes.mpr ⟨part, hpart, hnode⟩)).1] at hfailed
          cases hfailed
      · cases h
    · exact hparts d hd

theorem allNotExecuted_nodes : ∀ items : List StepItem, ∀ d ∈ allNodes (allNotExecuted items),
    d.status = .skipped ∧ d.Consistent
  | [], d, hd => by cases hd
  | item :: rest, d, hd => by
    rw [allNotExecuted, allNodes] at hd
    rcases List.mem_append.mp hd with hd | hd
    · exact notExecuted_nodes item d hd
    · exact allNotExecuted_nodes rest d hd

end

end StepResult

/-! ## Scenarios and specifications -/

/-- The status of a scenario agrees with its failure, its reason for skipping and its steps. -/
structure ScenarioResult.Consistent (r : ScenarioResult) : Prop where
  steps : ∀ d ∈ StepResult.allNodes r.steps, d.Consistent
  passed : r.status = .passed →
    r.failure = none ∧ ∀ d ∈ StepResult.allNodes r.steps, d.status = .passed
  failed : r.status = .failed → r.failureMessage.isSome = true
  skipped : r.status = .skipped → r.skipReason.isSome = true ∧ r.failure = none ∧
    ∀ d ∈ StepResult.allNodes r.steps, d.status ≠ .failed

theorem ScenarioResult.notExecuted_consistent (sc : Scenario) (row : Option Nat)
    (reason : String) : (notExecuted sc row reason).Consistent where
  steps d hd := (StepResult.allNotExecuted_nodes sc.steps d hd).2
  passed h := by cases h
  failed h := by cases h
  skipped _ := by
    refine ⟨rfl, rfl, fun d hd hfailed => ?_⟩
    rw [(StepResult.allNotExecuted_nodes sc.steps d hd).1] at hfailed
    cases hfailed

/-- The counters of a specification and what it says of itself agree with its scenarios. -/
structure SpecResult.Consistent (r : SpecResult) : Prop where
  scenarios : ∀ sc ∈ r.scenarios, sc.Consistent
  scenarioCount : r.scenarioCount = r.scenarios.length
  failedCount : r.failedCount = r.scenarios.countP fun sc => sc.status = .failed
  skippedCount : r.skippedCount = r.scenarios.countP fun sc => sc.status = .skipped
  failed_iff : r.failed = true ↔
    (∃ sc ∈ r.scenarios, sc.status = .failed) ∨ r.failure.isSome = true
  exclusive : ¬(r.failed = true ∧ r.skipped = true)

namespace SpecResult

theorem ofRun_failed_iff (spec : Specification) (scenarios : List ScenarioResult)
    (failure : Option Failure) (ms : UInt64) :
    (ofRun spec scenarios failure ms).failed = true ↔
      (∃ sc ∈ scenarios, sc.status = .failed) ∨ failure.isSome = true := by
  simp [ofRun, countStatus]

theorem ofRun_consistent (spec : Specification) {scenarios : List ScenarioResult}
    (failure : Option Failure) (ms : UInt64) (h : ∀ sc ∈ scenarios, sc.Consistent) :
    (ofRun spec scenarios failure ms).Consistent where
  scenarios := h
  scenarioCount := rfl
  failedCount := rfl
  skippedCount := rfl
  failed_iff := ofRun_failed_iff spec scenarios failure ms
  exclusive := by
    rintro ⟨hfailed, hskipped⟩
    have hnot : (!(ofRun spec scenarios failure ms).failed) = true := by
      have hboth := hskipped
      simp only [ofRun, Bool.and_eq_true] at hboth
      exact hboth.1.1
    rw [hfailed] at hnot
    cases hnot

theorem notExecuted_consistent (spec : Specification) (reason : String)
    (errors : List Item.ParseError) : (notExecuted spec reason errors).Consistent := by
  have hscenarios : ∀ sc ∈ spec.scenarios.map fun sc => ScenarioResult.notExecuted sc none reason,
      sc.Consistent := by
    intro r hr
    obtain ⟨sc, -, rfl⟩ := List.mem_map.mp hr
    exact ScenarioResult.notExecuted_consistent sc none reason
  have hrun := ofRun_consistent spec none 0 hscenarios
  refine ⟨hrun.scenarios, hrun.scenarioCount, hrun.failedCount, hrun.skippedCount,
    hrun.failed_iff, ?_⟩
  -- the result is called skipped without asking, but nothing of it can have failed
  rintro ⟨hfailed, -⟩
  rcases hrun.failed_iff.mp hfailed with ⟨r, hr, hstatus⟩ | hfailure
  · obtain ⟨sc, -, rfl⟩ := List.mem_map.mp hr
    cases hstatus
  · cases hfailure

end SpecResult

end SpecEngine.Result

namespace SpecEngine.Engine

open Item (Step StepItem Scenario Specification)
open Result (StepResult ScenarioResult SpecResult Failure)
open Runner (Report)

variable {plan : Plan} {spec : Specification} {sc : Scenario} {fileName : String}
variable {row : Option Table.Row} {hs : List Happening}

/-! ## What items hand on -/

/-- What an item hands on agrees with its result. -/
structure Executed.Classified (e : Executed) : Prop where
  consistent : ∀ d ∈ e.result.nodes, d.Consistent
  passed : e.result.status = .passed → ∀ d ∈ e.result.nodes, d.status = .passed
  /-- A failed round trip shows in the item. -/
  cause : e.cause.isSome = true → e.result.status = .failed
  /-- What halts did not pass. -/
  halt : e.halt = true → e.result.status ≠ .passed
  skipped : e.result.status = .skipped → e.skipRequested = true

/-- What items hand on together agrees with their results. -/
structure StepsOutcome.Classified (o : StepsOutcome) : Prop where
  consistent : ∀ d ∈ StepResult.allNodes o.results, d.Consistent
  passed : o.status = .passed → ∀ d ∈ StepResult.allNodes o.results, d.status = .passed
  cause : o.failure.isSome = true → ∃ r ∈ o.results, r.status = .failed
  halt : o.halted = true → o.status ≠ .passed

/-! ### Plain steps -/

/-- A plain step agrees with what it hands on if it shows a failure exactly when it failed. -/
theorem Executed.Classified.ofPlain {e : Executed} {step : Step} (hplain : e.result.Reports step)
    (hfailure : e.result.failure.isSome = true ↔ e.result.status = .failed)
    (hcause : e.cause.isSome = true → e.result.status = .failed)
    (hhalt : e.halt = true → e.result.status ≠ .passed)
    (hskipped : e.result.status = .skipped → e.skipRequested = true) : e.Classified := by
  have hnodes : e.result.nodes = [e.result] := by
    rw [StepResult.nodes_eq, hplain.nested, StepResult.allNodes]
  have hconcept : e.result.isConcept = true → False := by
    rw [hplain.isConcept]
    exact Bool.false_ne_true
  refine ⟨?_, ?_, hcause, hhalt, hskipped⟩
  · intro d hd
    rw [hnodes, List.mem_singleton] at hd
    subst hd
    exact ⟨hfailure, fun _ => hplain.nested, fun h => (hconcept h).elim,
      fun h => (hconcept h).elim⟩
  · intro hpassed d hd
    rw [hnodes, List.mem_singleton] at hd
    rw [hd, hpassed]

theorem finished_failed_classified (step : Step) (ms : UInt64) (failure : Failure) :
    (Executed.finished (.failed step ms failure)).Classified := by
  refine .ofPlain (StepResult.failed_reports step ms failure) ?_ ?_ ?_ ?_ <;>
    simp [Executed.finished, StepResult.failed]

theorem brokenStep_classified (step : Step) (e : Runner.ProtocolError) :
    (brokenStep step e).Classified := by
  refine .ofPlain (StepResult.failed_reports step 0 _) ?_ ?_ ?_ ?_ <;>
    simp [brokenStep, Executed.finished, StepResult.failed]

theorem judge_classified (step : Step) (report : Report) : (judge step report).Classified := by
  have hreports := judge_reports step report
  unfold judge at hreports ⊢
  split
  · -- a failure that the runner calls recoverable does not halt, any other does
    refine .ofPlain (StepResult.failed_reports step _ _) ?_ ?_ ?_ ?_ <;>
      simp [Executed.finished, StepResult.failed]
  · split
    · refine .ofPlain (StepResult.skipped_reports step _) ?_ ?_ ?_ ?_ <;>
        simp [StepResult.skipped]
    · refine .ofPlain (StepResult.passed_reports step _) ?_ ?_ ?_ ?_ <;>
        simp [Executed.finished, StepResult.passed]

theorem afterHook_classified (step : Step) (report after : Report) :
    (afterHook step report after).Classified := by
  unfold afterHook
  dsimp only
  split
  · exact finished_failed_classified step _ _
  · exact judge_classified step report

theorem StepHistory.classified {step : Step} {e : Executed} (h : StepHistory plan row step hs e) :
    e.Classified := by
  cases h with
  | unresolved _ => exact finished_failed_classified step _ _
  | refused _ _ _ => exact finished_failed_classified step _ _
  | broken _ _ _ _ _ => exact brokenStep_classified step _
  | reported _ _ _ _ _ => exact afterHook_classified step _ _

/-! ### Items together -/

namespace StepsOutcome

theorem failed_iff (o : StepsOutcome) :
    o.failed = true ↔ o.failure.isSome = true ∨ ∃ r ∈ o.results, r.status = .failed := by
  simp [failed]

theorem status_eq_failed_iff (o : StepsOutcome) : o.status = .failed ↔ o.failed = true := by
  unfold status
  cases o.failed <;> cases o.skipRequested <;> simp

theorem status_eq_passed_iff (o : StepsOutcome) :
    o.status = .passed ↔ o.failed = false ∧ o.skipRequested = false := by
  unfold status
  cases o.failed <;> cases o.skipRequested <;> simp

theorem Classified.nil : Classified {} where
  consistent d hd := by cases hd
  passed _ d hd := by cases hd
  cause h := by cases h
  halt h := by cases h

/-- Items have failed together exactly when one of them did. -/
theorem Classified.status_eq_failed_iff {o : StepsOutcome} (h : o.Classified) :
    o.status = .failed ↔ ∃ r ∈ o.results, r.status = .failed := by
  rw [StepsOutcome.status_eq_failed_iff, failed_iff]
  constructor
  · rintro (hcause | hresult)
    · exact h.cause hcause
    · exact hresult
  · exact .inr

/-- Items that passed together passed one by one. -/
theorem passed_of_cons {e : Executed} {o : StepsOutcome} (he : e.Classified)
    (h : (cons e o).status = .passed) : e.result.status = .passed ∧ o.status = .passed := by
  obtain ⟨hfailed, hskip⟩ := (status_eq_passed_iff _).mp h
  rw [cons_failed, Bool.or_eq_false_iff, Bool.or_eq_false_iff] at hfailed
  have hskip : (e.skipRequested || o.skipRequested) = false := hskip
  rw [Bool.or_eq_false_iff] at hskip
  refine ⟨?_, (status_eq_passed_iff o).mpr ⟨hfailed.2, hskip.2⟩⟩
  cases hstatus : e.result.status with
  | passed => rfl
  | failed => simp [hstatus] at hfailed
  | skipped =>
    -- an item is skipped at the runner's request only
    have hrequest := he.skipped hstatus
    rw [hskip.1] at hrequest
    cases hrequest

theorem Classified.cons {e : Executed} {o : StepsOutcome} (he : e.Classified)
    (ho : o.Classified) : (cons e o).Classified where
  consistent d hd := by
    rcases List.mem_append.mp hd with hd | hd
    · exact he.consistent d hd
    · exact ho.consistent d hd
  passed hpassed d hd := by
    obtain ⟨hitem, hrest⟩ := passed_of_cons he hpassed
    rcases List.mem_append.mp hd with hd | hd
    · exact he.passed hitem d hd
    · exact ho.passed hrest d hd
  cause hcause := by
    have hcause : (e.cause.or o.failure).isSome = true := hcause
    rw [Option.isSome_or, Bool.or_eq_true] at hcause
    rcases hcause with hcause | hcause
    · exact ⟨e.result, List.mem_cons_self, he.cause hcause⟩
    · obtain ⟨r, hr, hfailed⟩ := ho.cause hcause
      exact ⟨r, .tail _ hr, hfailed⟩
  halt hhalt hpassed := by
    obtain ⟨hitem, hrest⟩ := passed_of_cons he hpassed
    rcases Bool.or_eq_true_iff.mp hhalt with hhalt | hhalt
    · exact he.halt hhalt hitem
    · exact ho.halt hhalt hrest

/-- Items that are not executed after one that halts do not pass together with it. -/
theorem Classified.last {e : Executed} (he : e.Classified) (hhalt : e.halt = true)
    (remaining : List StepItem) : (last e remaining).Classified where
  consistent d hd := by
    rcases List.mem_append.mp hd with hd | hd
    · exact he.consistent d hd
    · exact (StepResult.allNotExecuted_nodes remaining d hd).2
  passed hpassed := absurd (passed_of_cons he hpassed).1 (he.halt hhalt)
  cause hcause := by
    have hcause : (e.cause.or none).isSome = true := hcause
    rw [Option.or_none] at hcause
    exact ⟨e.result, List.mem_cons_self, he.cause hcause⟩
  halt _ hpassed := absurd (passed_of_cons he hpassed).1 (he.halt hhalt)

theorem findSome?_failure_isSome {rs : List StepResult}
    (hconsistent : ∀ d ∈ StepResult.allNodes rs, d.Consistent)
    (h : ∃ r ∈ rs, r.status = .failed) : (rs.findSome? (·.failure)).isSome = true := by
  obtain ⟨r, hr, hfailed⟩ := h
  have hnode : r ∈ r.nodes := by
    rw [StepResult.nodes_eq]
    exact List.mem_cons_self
  have hfailure := (hconsistent r (StepResult.mem_allNodes.mpr ⟨r, hr, hnode⟩)).failure_iff
  rw [List.findSome?_isSome_iff]
  exact ⟨r, hr, hfailure.mpr hfailed⟩

/-- A concept agrees with what its parts came to. -/
theorem Classified.concept {parts : StepsOutcome} (h : parts.Classified) (text : String)
    (line : UInt64) : (conceptOf text line parts).Classified := by
  have hnodes : (conceptOf text line parts).result.nodes =
      (conceptOf text line parts).result :: StepResult.allNodes parts.results :=
    StepResult.nodes_eq _
  have hstatus : (conceptOf text line parts).result.status = parts.status := rfl
  have hself : (conceptOf text line parts).result.Consistent := by
    refine ⟨?_, fun hplain => ?_, fun _ => h.status_eq_failed_iff, fun _ => h.passed⟩
    · show (if parts.status = .failed then parts.results.findSome? (·.failure)
        else none).isSome = true ↔ parts.status = .failed
      split
      next hfailed =>
        exact iff_of_true
          (findSome?_failure_isSome h.consistent (h.status_eq_failed_iff.mp hfailed)) hfailed
      next hnot => exact iff_of_false (by simp) hnot
    · cases hplain
  refine ⟨?_, ?_, ?_, h.halt, ?_⟩
  · intro d hd
    rw [hnodes, List.mem_cons] at hd
    rcases hd with rfl | hd
    · exact hself
    · exact h.consistent d hd
  · intro hpassed d hd
    rw [hnodes, List.mem_cons] at hd
    rcases hd with rfl | hd
    · exact hpassed
    · exact h.passed hpassed d hd
  · intro hcause
    exact h.status_eq_failed_iff.mpr (h.cause hcause)
  · intro hskipped
    rw [hstatus, status] at hskipped
    split at hskipped
    · cases hskipped
    · split at hskipped
      next hrequest => exact hrequest
      next => cases hskipped

end StepsOutcome

mutual

theorem ItemHistory.classified {item : StepItem} {hs : List Happening} {e : Executed} :
    ItemHistory plan fileName row item hs e → e.Classified
  | .step h => h.classified
  | .concept h => (ItemsHistory.classified h).concept _ _

theorem ItemsHistory.classified {items : List StepItem} {hs : List Happening}
    {o : StepsOutcome} : ItemsHistory plan fileName row items hs o → o.Classified
  | .nil => .nil
  | .halted h hhalt => .last (ItemHistory.classified h) hhalt _
  | .cons h _ hrest => .cons (ItemHistory.classified h) (ItemsHistory.classified hrest)

end

/-! ## Scenarios -/

/-- The closing announcement of an attempt can only turn it into a failed one. -/
theorem attemptResult_consistent {steps : List StepResult} {failure : Option Failure}
    {status : Result.Status} (after : Report)
    (hsteps : ∀ d ∈ StepResult.allNodes steps, d.Consistent)
    (hpassed : status = .passed →
      failure = none ∧ ∀ d ∈ StepResult.allNodes steps, d.status = .passed)
    (hfailed : status = .failed → (failure.or (steps.findSome? (·.failure))).isSome = true)
    (hskipped : status = .skipped →
      failure = none ∧ ∀ d ∈ StepResult.allNodes steps, d.status ≠ .failed) :
    (attemptResult sc row steps failure status after).Consistent := by
  unfold attemptResult
  cases after.failed with
  | true =>
    refine ⟨hsteps, fun h => ?_, fun _ => ?_, fun h => ?_⟩
    · cases h
    · simp [ScenarioResult.failureMessage]
    · cases h
  | false =>
    refine ⟨hsteps, hpassed, fun h => ?_, fun h => ?_⟩
    · rw [ScenarioResult.failureMessage, Option.isSome_map]
      exact hfailed h
    · have h : status = .skipped := h
      exact ⟨by simp [h], hskipped h⟩

theorem AttemptHistory.consistent {r : ScenarioResult} (h : AttemptHistory plan spec sc row hs r) :
    r.Consistent := by
  cases h with
  | refused _ _ _ =>
    refine attemptResult_consistent _ ?_ (fun h => ?_) (fun _ => by simp) (fun h => ?_)
    · exact fun d hd => (StepResult.allNotExecuted_nodes sc.steps d hd).2
    · cases h
    · cases h
  | @executed _ _ _ outcome _ after _ _ hitems _ =>
    have ho := hitems.classified
    have hfailure (h : outcome.status ≠ .failed) : outcome.failure = none := by
      rw [ne_eq, StepsOutcome.status_eq_failed_iff, StepsOutcome.failed_iff, not_or] at h
      simpa using h.1
    refine attemptResult_consistent after ho.consistent (fun h => ?_) (fun h => ?_) (fun h => ?_)
    · exact ⟨hfailure (by simp [h]), ho.passed h⟩
    · rw [Option.isSome_or, Bool.or_eq_true]
      exact .inr (StepsOutcome.findSome?_failure_isSome ho.consistent
        (ho.status_eq_failed_iff.mp h))
    · have hnot : outcome.status ≠ .failed := by simp [h]
      refine ⟨hfailure hnot, StepResult.allNodes_not_failed _ ho.consistent ?_⟩
      intro r hr hfailed
      exact hnot (ho.status_eq_failed_iff.mpr ⟨r, hr, hfailed⟩)

theorem AttemptsHistory.consistent {number more : Nat} {r : ScenarioResult}
    (h : AttemptsHistory plan spec sc row number more hs r) : r.Consistent := by
  induction h with
  | last h _ =>
    have hr := h.consistent
    exact ⟨hr.steps, hr.passed, hr.failed, hr.skipped⟩
  | again _ _ _ _ ih => exact ih

theorem ScenarioHistory.consistent {aborted : Bool} {r : ScenarioResult}
    (h : ScenarioHistory plan spec sc row aborted hs r) : r.Consistent := by
  cases h with
  | illFormed _ => exact ScenarioResult.notExecuted_consistent ..
  | dead _ _ => exact ScenarioResult.notExecuted_consistent ..
  | attempted _ _ h => exact h.consistent

/-! ## Specifications -/

theorem RowsHistory.consistent {aborted : Bool} {rows : List Table.Row}
    {rs : List ScenarioResult} (h : RowsHistory plan spec sc aborted rows hs rs) :
    ∀ r ∈ rs, r.Consistent := by
  induction h with
  | nil => simp
  | cons h _ ih => exact List.forall_mem_cons.mpr ⟨h.consistent, ih⟩

theorem TableHistory.consistent {aborted : Bool} {rows : Option (List Table.Row)}
    {rs : List ScenarioResult} (h : TableHistory plan spec aborted sc rows hs rs) :
    ∀ r ∈ rs, r.Consistent := by
  cases h with
  | once _ h => exact List.forall_mem_singleton.mpr h.consistent
  | perRow _ h => exact h.consistent
  | withoutRows _ =>
    exact List.forall_mem_singleton.mpr (ScenarioResult.notExecuted_consistent ..)

theorem ScenariosHistory.consistent {aborted : Bool} {rows : Option (List Table.Row)}
    {scenarios : List Scenario} {rs : List ScenarioResult}
    (h : ScenariosHistory plan spec rows aborted scenarios hs rs) : ∀ r ∈ rs, r.Consistent := by
  induction h with
  | nil => simp
  | cons h _ ih => exact List.forall_mem_append.mpr ⟨h.consistent, ih⟩

theorem allSkipped_consistent (spec : Specification) (reason : String) :
    ∀ r ∈ allSkipped spec reason, r.Consistent := by
  intro r hr
  obtain ⟨sc, -, rfl⟩ := List.mem_map.mp hr
  exact ScenarioResult.notExecuted_consistent sc none reason

theorem BodyHistory.consistent {before : Report} {aborted : Bool} {rs : List ScenarioResult}
    {failure : Option Failure} (h : BodyHistory plan spec before aborted hs rs failure) :
    ∀ r ∈ rs, r.Consistent := by
  cases h with
  | refused _ => exact allSkipped_consistent spec _
  | unresolvable _ _ => exact allSkipped_consistent spec _
  | carriedOut _ _ h => exact h.consistent

theorem SpecHistory.consistent {aborted : Bool} {r : SpecResult}
    (h : SpecHistory plan spec aborted hs r) : r.Consistent := by
  cases h with
  | illFormed _ => exact SpecResult.notExecuted_consistent spec _ _
  | dead _ _ => exact SpecResult.notExecuted_consistent spec _ _
  | takenUp _ _ _ hbody _ => exact SpecResult.ofRun_consistent spec _ 0 hbody.consistent

/-- Whatever the runner does, the result of a specification is consistent at every level: a node
shows a failure exactly when it failed, a concept failed exactly when one of its parts did and
passed only with all that is below it; scenarios agree with their steps, and the specification's
counters and flags with its scenarios. -/
theorem announcedSpec_consistent {σ : Type} (b : Runner.Behavior σ) (plan : Plan)
    (spec : Specification) (s : Session σ) : (announcedSpec b plan spec s).1.Consistent := by
  obtain ⟨hs, -, hhistory⟩ := announcedSpec_history b plan spec s
  exact hhistory.consistent

end SpecEngine.Engine
