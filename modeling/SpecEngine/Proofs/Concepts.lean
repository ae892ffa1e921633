/-
# SpecEngine.Proofs.Concepts -- concepts are transparent to runners

A scenario can be flattened: every concept is replaced by its steps, down to plain steps. The runner
cannot tell the two scenarios apart. It is offered the same messages in the same order, whatever it
answers, and the attempts have the same status, failure and reason for skipping; the results of the
flat one are the leaves of the nested one.

The proof runs both side by side. Their sessions stay alike, which means that they differ in
announcements only, since concepts are announced. What a nested item hands on, that the steps after
it must not run, a request to skip or the scenario's own failure, is what its flat steps hand on.
-/
import SpecEngine.Proofs.Lockstep
import SpecEngine.Proofs.ResultTree

namespace SpecEngine.Result.StepResult

open Item (Step StepItem)

theorem Reports.leaves_eq {r : StepResult} {step : Step} (h : r.Reports step) : r.leaves = [r] := by
  obtain ⟨text, line, status, ms, failure, nested, isConcept⟩ := r
  obtain ⟨rfl, rfl, rfl, rfl⟩ := h
  rfl

theorem concept_leaves (text : String) (line : UInt64) (status : Status) (ms : UInt64)
    (nested : List StepResult) :
    (concept text line status ms nested).leaves = allLeaves nested := rfl

theorem allNotExecuted_append (items others : List StepItem) :
    allNotExecuted (items ++ others) = allNotExecuted items ++ allNotExecuted others := by
  induction items with
  | nil => rfl
  | cons item rest ih => rw [List.cons_append, allNotExecuted, ih, allNotExecuted, List.cons_append]

theorem allNotExecuted_skipped {r : StepResult} {items : List StepItem}
    (h : r ∈ allNotExecuted items) : r.status = .skipped := by
  induction items with
  | nil => cases h
  | cons item rest ih =>
    rw [allNotExecuted, List.mem_cons] at h
    rcases h with rfl | h
    · cases item <;> rfl
    · exact ih h

mutual

theorem notExecuted_leaves :
    ∀ item : StepItem, (notExecuted item).leaves = allNotExecuted (item.flatten.map .step)
  | .step s => rfl
  | .concept text line steps => by
    rw [notExecuted, concept_leaves, allNotExecuted_leaves steps, StepItem.flatten]

theorem allNotExecuted_leaves :
    ∀ items : List StepItem,
      allLeaves (allNotExecuted items) = allNotExecuted ((StepItem.flattenAll items).map .step)
  | [] => rfl
  | item :: rest => by
    rw [allNotExecuted, allLeaves, notExecuted_leaves item, allNotExecuted_leaves rest,
      StepItem.flattenAll, List.map_append, allNotExecuted_append]

end

end SpecEngine.Result.StepResult

namespace SpecEngine.Item

/-- The scenario with every concept replaced by its steps. -/
def Scenario.flattened (sc : Scenario) : Scenario := { sc with steps := sc.flatSteps.map .step }

end SpecEngine.Item

namespace SpecEngine.Engine

open Item (Step StepItem Scenario Specification)
open Result (StepResult ScenarioResult Failure Status)
open Runner (Behavior Report)
open Event (Topic Subject Outcome)

variable {σ : Type}

/-! ## Sessions that differ in announcements -/

/-- The sessions are equal but for announcements. -/
structure Session.Alike (s t : Session σ) : Prop where
  stream : s.stream = t.stream
  runner : s.runner = t.runner
  aborted : s.aborted = t.aborted
  offers : s.offers = t.offers

namespace Session.Alike

theorem refl (s : Session σ) : s.Alike s := ⟨rfl, rfl, rfl, rfl⟩

theorem announced {s t : Session σ} (h : s.Alike t) (topic : Topic) (subject : Subject)
    (outcome : Option Outcome) : (announce topic subject outcome s).2.Alike t :=
  ⟨h.stream, h.runner, h.aborted, (announce_offers ..).trans h.offers⟩

/-- No primitive of the engine looks at announcements. -/
theorem lockstep (b : Behavior σ) : Lockstep b b (Session.Alike (σ := σ)) where
  offer m s t h := by
    refine ⟨?_, h.stream, ?_, h.aborted, ?_⟩
    · rw [offer_answer, offer_answer, h.runner]
    · rw [offer_runner, offer_runner, h.runner]
    · rw [offer_offers, offer_offers, h.offers]
  noticeDeath s t h := by
    refine ⟨rfl, h.stream, h.runner, ?_, h.offers⟩
    simp only [noticeDeath, h.aborted, h.runner]
  announce topic subject outcome s t h := by
    refine ⟨rfl, h.stream, h.runner, h.aborted, ?_⟩
    rw [announce_offers, announce_offers, h.offers]
  isAborted s t h := ⟨h.aborted, h⟩

end Session.Alike

/-! ## Items one after the other -/

namespace StepsOutcome

/-- What items come to that are followed by others. -/
def append (o o' : StepsOutcome) : StepsOutcome where
  results := o.results ++ o'.results
  failure := o.failure.or o'.failure
  skipRequested := o.skipRequested || o'.skipRequested
  halted := o.halted || o'.halted

/-- What items come to that are not executed. -/
def ofSkipped (items : List StepItem) : StepsOutcome where
  results := StepResult.allNotExecuted items

theorem last_eq (e : Executed) (remaining : List StepItem) :
    last e remaining = cons e (ofSkipped remaining) := rfl

theorem nil_append (o : StepsOutcome) : append {} o = o := by
  simp [append]

theorem cons_append (e : Executed) (o o' : StepsOutcome) :
    (cons e o).append o' = cons e (o.append o') := by
  simp [append, cons, Option.or_assoc, Bool.or_assoc]

theorem ofSkipped_append (items others : List StepItem) :
    (ofSkipped items).append (ofSkipped others) = ofSkipped (items ++ others) := by
  simp [append, ofSkipped, StepResult.allNotExecuted_append]

theorem append_failed (o o' : StepsOutcome) : (o.append o').failed = (o.failed || o'.failed) := by
  cases ho : o.failure <;> cases ho' : o'.failure <;> simp [failed, append, ho, ho']

theorem cons_failed (e : Executed) (o : StepsOutcome) :
    (cons e o).failed = ((e.cause.isSome || e.result.status = .failed) || o.failed) := by
  cases he : e.cause <;> cases ho : o.failure <;> simp [failed, cons, he, ho]

theorem ofSkipped_failed (items : List StepItem) : (ofSkipped items).failed = false := by
  have hnone : ∀ r ∈ StepResult.allNotExecuted items, ¬r.status = .failed := by
    intro r hr hfailed
    rw [StepResult.allNotExecuted_skipped hr] at hfailed
    cases hfailed
  simpa [failed, ofSkipped] using hnone

end StepsOutcome

variable (b : Behavior σ) (plan : Plan)

/-- Items run like their first part and then, unless that halted, like the rest of them. -/
theorem runItems_append (fileName : String) (row : Option Table.Row) (items others : List StepItem)
    (s : Session σ) :
    runItems b plan fileName row (items ++ others) s =
      (do
        let o ← runItems b plan fileName row items
        if o.halted then pure (o.append (.ofSkipped others))
        else do
          let o' ← runItems b plan fileName row others
          pure (o.append o') : Activity σ StepsOutcome) s := by
  induction items generalizing s with
  | nil =>
    simp only [List.nil_append, runItems, bind_run, pure_run, StepsOutcome.nil_append]
    rfl
  | cons item rest ih =>
    simp only [List.cons_append, runItems, bind_run, ite_run]
    cases hhalt : (runItem b plan fileName row item s).1.halt with
    | true =>
      -- what is not executed of the first part and what follows it are skipped in one go
      simp only [if_true, pure_run]
      rw [if_pos (by rw [StepsOutcome.last, StepsOutcome.cons, hhalt]; rfl), StepsOutcome.last_eq,
        StepsOutcome.last_eq, StepsOutcome.cons_append, StepsOutcome.ofSkipped_append]
    | false =>
      have hcons (o : StepsOutcome) :
          (StepsOutcome.cons (runItem b plan fileName row item s).1 o).halted = o.halted := by
        rw [StepsOutcome.cons, hhalt, Bool.false_or]
      simp only [Bool.false_eq_true, if_false, ih, bind_run, ite_run, pure_run, hcons]
      split
      · rw [StepsOutcome.cons_append]
      · rw [StepsOutcome.cons_append]

/-! ## Nested and flat items -/

/-- What an item comes to is what its flat steps come to. -/
structure Executed.FlattensTo (e : Executed) (flat : StepsOutcome) : Prop where
  results : e.result.leaves = flat.results
  cause : e.cause = flat.failure
  skipRequested : e.skipRequested = flat.skipRequested
  halt : e.halt = flat.halted
  failed : (e.cause.isSome || e.result.status = .failed) = flat.failed

/-- What items come to is what their flat steps come to. -/
structure StepsOutcome.FlattensTo (o flat : StepsOutcome) : Prop where
  results : StepResult.allLeaves o.results = flat.results
  failure : o.failure = flat.failure
  skipRequested : o.skipRequested = flat.skipRequested
  halted : o.halted = flat.halted
  failed : o.failed = flat.failed

theorem Executed.FlattensTo.cons {e : Executed} {o flat flat' : StepsOutcome}
    (he : e.FlattensTo flat) (ho : o.FlattensTo flat') :
    (StepsOutcome.cons e o).FlattensTo (flat.append flat') where
  results := by
    simp only [StepsOutcome.cons, StepsOutcome.append, StepResult.allLeaves, he.results, ho.results]
  failure := by simp only [StepsOutcome.cons, StepsOutcome.append, he.cause, ho.failure]
  skipRequested := by
    simp only [StepsOutcome.cons, StepsOutcome.append, he.skipRequested, ho.skipRequested]
  halted := by simp only [StepsOutcome.cons, StepsOutcome.append, he.halt, ho.halted]
  failed := by rw [StepsOutcome.cons_failed, StepsOutcome.append_failed, he.failed, ho.failed]

theorem StepsOutcome.FlattensTo.ofSkipped (items : List StepItem) :
    (StepsOutcome.ofSkipped items).FlattensTo (.ofSkipped ((StepItem.flattenAll items).map .step))
    where
  results := StepResult.allNotExecuted_leaves items
  failure := rfl
  skipRequested := rfl
  halted := rfl
  failed := by rw [StepsOutcome.ofSkipped_failed, StepsOutcome.ofSkipped_failed]

/-- A concept is what its parts come to. -/
theorem StepsOutcome.FlattensTo.concept {parts flat : StepsOutcome} (h : parts.FlattensTo flat)
    (text : String) (line : UInt64) : (conceptOf text line parts).FlattensTo flat where
  results := h.results
  cause := h.failure
  skipRequested := h.skipRequested
  halt := h.halted
  failed := by
    -- the cause of a failure counts as a failed part, so the concept's status alone tells
    have hstatus : decide (parts.status = .failed) = parts.failed := by
      unfold StepsOutcome.status
      cases parts.failed <;> cases parts.skipRequested <;> rfl
    have hcause : (parts.failure.isSome || parts.failed) = parts.failed := by
      rw [StepsOutcome.failed, ← Bool.or_assoc, Bool.or_self]
    rw [← h.failed, ← hcause, ← hstatus]
    rfl

theorem Executed.flattensTo_single {e : Executed} (h : e.result.leaves = [e.result]) :
    e.FlattensTo (.cons e {}) where
  results := h
  cause := (Option.or_none ..).symm
  skipRequested := (Bool.or_false _).symm
  halt := (Bool.or_false _).symm
  failed := by
    rw [StepsOutcome.cons_failed]
    exact (Bool.or_false _).symm

theorem announcedStep_leaves (fileName : String) (row : Option Table.Row) (step : Step)
    (s : Session σ) :
    (announcedStep b plan fileName row step s).1.result.leaves
      = [(announcedStep b plan fileName row step s).1.result] :=
  (runStep_reports b plan row step _).leaves_eq

/-- A list of one step runs like the step. -/
theorem runItems_singleton (fileName : String) (row : Option Table.Row) (step : Step)
    (s : Session σ) :
    runItems b plan fileName row [.step step] s =
      (.cons (announcedStep b plan fileName row step s).1 {},
        (announcedStep b plan fileName row step s).2) := by
  simp only [runItems, runItem, bind_run, ite_run, pure_run]
  split <;> rfl

mutual

theorem runItem_flattens (fileName : String) (row : Option Table.Row) :
    ∀ item : StepItem, Coupled Session.Alike Executed.FlattensTo (runItem b plan fileName row item)
      (runItems b plan fileName row (item.flatten.map .step))
  | .step step, s, t, h => by
    have hlock := Session.Alike.lockstep b
    obtain ⟨hvalue, hsession⟩ := hlock.announcedStep (.refl plan) fileName step h
    rw [StepItem.flatten, List.map_singleton, runItems_singleton, runItem, hvalue]
    exact ⟨Executed.flattensTo_single (announcedStep_leaves b plan fileName row step t), hsession⟩
  | .concept text line steps, s, t, h => by
    have hbegun := h.announced .conceptStart (.concept fileName text line) none
    obtain ⟨hparts, hsession⟩ := runItems_flattens fileName row steps hbegun
    simp only [runItem, bind_run, pure_run, StepItem.flatten]
    exact ⟨hparts.concept text line, hsession.announced _ _ _⟩

theorem runItems_flattens (fileName : String) (row : Option Table.Row) :
    ∀ items : List StepItem,
      Coupled Session.Alike StepsOutcome.FlattensTo (runItems b plan fileName row items)
        (runItems b plan fileName row ((StepItem.flattenAll items).map .step))
  | [], s, t, h => ⟨⟨rfl, rfl, rfl, rfl, rfl⟩, h⟩
  | item :: rest, s, t, h => by
    obtain ⟨hitem, hsession⟩ := runItem_flattens fileName row item h
    rw [StepItem.flattenAll, List.map_append, runItems_append]
    simp only [runItems, bind_run, ite_run, pure_run, hitem.halt]
    split
    · -- nothing runs any more, on either side
      exact ⟨hitem.cons (.ofSkipped rest), hsession⟩
    · obtain ⟨hrest, hsession'⟩ := runItems_flattens fileName row rest hsession
      exact ⟨hitem.cons hrest, hsession'⟩

end

/-! ## Attempts -/

/-- The result of an attempt is that of an attempt at the flat scenario, with its steps nested. -/
structure SameButNested (nested flat : ScenarioResult) : Prop where
  status : nested.status = flat.status
  failure : nested.failure = flat.failure
  skipReason : nested.skipReason = flat.skipReason
  steps : StepResult.allLeaves nested.steps = flat.steps

theorem StepsOutcome.FlattensTo.status {o flat : StepsOutcome} (h : o.FlattensTo flat) :
    o.status = flat.status := by
  rw [StepsOutcome.status, h.failed, h.skipRequested, StepsOutcome.status]

theorem attempt_flattens (spec : Specification) (sc : Scenario) (row : Option Table.Row) :
    Coupled Session.Alike SameButNested (attempt b plan spec sc row)
      (attempt b plan spec sc.flattened row) := by
  have hlock := Session.Alike.lockstep b
  refine (hlock.hook _).bindEq fun before => ?_
  refine .ite (fun _ => ?_) fun _ => ?_
  · refine (hlock.hook _).bindEq fun after => .pure ?_
    exact ⟨rfl, rfl, rfl, StepResult.allNotExecuted_leaves sc.steps⟩
  · refine (runItems_flattens b plan spec.fileName row sc.steps).bind fun o flat ho => ?_
    refine (hlock.hook _).bindEq fun after => .pure ?_
    rw [ho.failure, ho.status]
    exact ⟨rfl, rfl, rfl, ho.results⟩

/-- One attempt at a scenario and one at the scenario with its concepts replaced by their steps
offer the runner the same messages and leave it in the same state; status, failure and reason for
skipping agree, and the leaves of the nested results, depth first, are the flat results. -/
theorem attempt_flattened (spec : Specification) (sc : Scenario) (row : Option Table.Row)
    (s : Session σ) :
    (attempt b plan spec sc row s).2.offers = (attempt b plan spec sc.flattened row s).2.offers ∧
      (attempt b plan spec sc row s).2.runner = (attempt b plan spec sc.flattened row s).2.runner ∧
      (attempt b plan spec sc row s).1.status = (attempt b plan spec sc.flattened row s).1.status ∧
      (attempt b plan spec sc row s).1.failure
        = (attempt b plan spec sc.flattened row s).1.failure ∧
      (attempt b plan spec sc row s).1.skipReason
        = (attempt b plan spec sc.flattened row s).1.skipReason ∧
      StepResult.allLeaves (attempt b plan spec sc row s).1.steps
        = (attempt b plan spec sc.flattened row s).1.steps := by
  obtain ⟨hresult, hsession⟩ := attempt_flattens b plan spec sc row (Session.Alike.refl s)
  exact ⟨hsession.offers, hsession.runner, hresult.status, hresult.failure, hresult.skipReason,
    hresult.steps⟩

end SpecEngine.Engine
