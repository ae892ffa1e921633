/-
# SpecEngine.Proofs.LostRunner -- a lost runner leaves a failure behind

A runner is looked after when it does not pass an announcement and when it does not come back from a
step. If it is found dead then, something has failed already, and nothing that happens later makes
good for it: a closing announcement can only add a failure, a failed part fails the whole at every
level, and a scenario whose runner is dead is not attempted again. So the specification during which
a runner was found dead has failed, and with it the run.

The specifications after it are left out. The runner is not told about them, and they are reported
as skipped. `LosesRunner` says so of a stream that runs what it was assigned.
-/
import SpecEngine.Proofs.Accounting
import SpecEngine.Proofs.Classification
import SpecEngine.Proofs.Lifecycle

namespace SpecEngine.Engine

open Item (Step StepItem Scenario Specification)
open Result (ScenarioResult SpecResult Failure StreamOutcome)
open Runner (Behavior Fleet Message Report)

variable {σ : Type}

/-! ## What the runner was found dead in has failed -/

section

variable {plan : Plan} {spec : Specification} {sc : Scenario} {fileName : String}
variable {row : Option Table.Row} {hs : List Happening}

theorem HookHistory.dead_failed {m : Message} {report : Report} (h : HookHistory m hs report)
    (hdead : foundDead hs = true) : report.failed = true := by
  cases h with
  | passed _ => cases hdead
  | failed _ hfailed => exact hfailed

/-- The runner is not found dead at an announcement that it passes. -/
theorem HookHistory.alive_of_passed {m : Message} {report : Report} (h : HookHistory m hs report)
    (hpassed : report.failed = false) : foundDead hs = false := by
  cases hdead : foundDead hs with
  | false => rfl
  | true => exact absurd (h.dead_failed hdead) (by simp [hpassed])

theorem afterHook_failed (step : Step) (report : Report) {after : Report}
    (h : after.failed = true) : (afterHook step report after).result.status = .failed := by
  unfold afterHook
  by_cases hjudged : (judge step report).result.status = .failed
  · simp [hjudged]
  · simp [h, hjudged, Executed.finished, Result.StepResult.failed]

theorem StepHistory.dead_failed {step : Step} {e : Executed} (h : StepHistory plan row step hs e)
    (hdead : foundDead hs = true) : e.result.status = .failed := by
  cases h with
  | unresolved _ => cases hdead
  | refused _ _ _ => rfl
  | broken _ _ _ _ _ => rfl
  | @reported _ _ _ _ _ hs' _ _ hbefore hpassed _ hafter =>
    -- the opening announcement passed, so it was the closing one
    rw [foundDead_append, hbefore.alive_of_passed hpassed, Bool.false_or] at hdead
    exact afterHook_failed step _ (hafter.dead_failed hdead)

mutual

theorem ItemHistory.dead_failed {item : StepItem} {hs : List Happening} {e : Executed} :
    ItemHistory plan fileName row item hs e → foundDead hs = true → e.result.status = .failed
  | .step h, hdead => by
    rw [stepHappenings, foundDead_announcedAround] at hdead
    exact h.dead_failed hdead
  | .concept h, hdead => by
    rw [foundDead_announcedAround] at hdead
    exact (StepsOutcome.status_eq_failed_iff _).mpr (ItemsHistory.dead_failed h hdead)

theorem ItemsHistory.dead_failed {items : List StepItem} {hs : List Happening}
    {o : StepsOutcome} :
    ItemsHistory plan fileName row items hs o → foundDead hs = true → o.failed = true
  | .nil, hdead => by cases hdead
  | .halted h _, hdead => by
    simp [StepsOutcome.last, StepsOutcome.cons_failed, ItemHistory.dead_failed h hdead]
  | .cons h _ hrest, hdead => by
    rw [foundDead_append, Bool.or_eq_true] at hdead
    rw [StepsOutcome.cons_failed]
    rcases hdead with hdead | hdead
    · simp [ItemHistory.dead_failed h hdead]
    · simp [ItemsHistory.dead_failed hrest hdead]

end

theorem attemptResult_status (steps : List Result.StepResult) (failure : Option Failure)
    (status : Result.Status) (after : Report) :
    (attemptResult sc row steps failure status after).status =
      if after.failed then .failed else status := rfl

theorem AttemptHistory.dead_failed {r : ScenarioResult} (h : AttemptHistory plan spec sc row hs r)
    (hdead : foundDead hs = true) : r.status = .failed := by
  cases h with
  | refused _ _ _ => rw [attemptResult_status, ite_self]
  | executed hbefore hpassed hitems hafter =>
    rw [foundDead_append, foundDead_append, hbefore.alive_of_passed hpassed, Bool.false_or,
      Bool.or_eq_true] at hdead
    rw [attemptResult_status]
    rcases hdead with hdead | hdead
    · rw [(StepsOutcome.status_eq_failed_iff _).mpr (hitems.dead_failed hdead), ite_self]
    · rw [hafter.dead_failed hdead, if_pos rfl]

/-- An attempt in which the runner was found dead is the last one. -/
theorem AttemptsHistory.dead_failed {number more : Nat} {r : ScenarioResult}
    (h : AttemptsHistory plan spec sc row number more hs r) (hdead : foundDead hs = true) :
    r.status = .failed := by
  induction h with
  | last h _ => exact h.dead_failed hdead
  | again _ _ halive _ ih =>
    rw [foundDead_append, halive, Bool.false_or] at hdead
    exact ih hdead

theorem ScenarioHistory.dead_failed {aborted : Bool} {r : ScenarioResult}
    (h : ScenarioHistory plan spec sc row aborted hs r) (hdead : foundDead hs = true) :
    r.status = .failed := by
  cases h with
  | illFormed _ => cases hdead
  | dead _ _ => cases hdead
  | attempted _ _ h =>
    rw [scenarioHappenings, foundDead_announcedAround] at hdead
    exact h.dead_failed hdead

theorem RowsHistory.dead_failed {aborted : Bool} {rows : List Table.Row}
    {rs : List ScenarioResult} (h : RowsHistory plan spec sc aborted rows hs rs)
    (hdead : foundDead hs = true) : ∃ r ∈ rs, r.status = .failed := by
  induction h with
  | nil => cases hdead
  | cons h _ ih =>
    rw [foundDead_append, Bool.or_eq_true] at hdead
    exact (List.exists_mem_cons_iff ..).mpr (hdead.imp h.dead_failed ih)

theorem TableHistory.dead_failed {aborted : Bool} {rows : Option (List Table.Row)}
    {rs : List ScenarioResult} (h : TableHistory plan spec aborted sc rows hs rs)
    (hdead : foundDead hs = true) : ∃ r ∈ rs, r.status = .failed := by
  cases h with
  | once _ h => exact ⟨_, List.mem_singleton_self _, h.dead_failed hdead⟩
  | perRow _ h => exact h.dead_failed hdead
  | withoutRows _ => cases hdead

theorem ScenariosHistory.dead_failed {aborted : Bool} {rows : Option (List Table.Row)}
    {scenarios : List Scenario} {rs : List ScenarioResult}
    (h : ScenariosHistory plan spec rows aborted scenarios hs rs) (hdead : foundDead hs = true) :
    ∃ r ∈ rs, r.status = .failed := by
  induction h with
  | nil => cases hdead
  | cons h _ ih =>
    rw [foundDead_append, Bool.or_eq_true] at hdead
    rcases hdead with hdead | hdead
    · obtain ⟨r, hr, hfailed⟩ := h.dead_failed hdead
      exact ⟨r, List.mem_append_left _ hr, hfailed⟩
    · obtain ⟨r, hr, hfailed⟩ := ih hdead
      exact ⟨r, List.mem_append_right _ hr, hfailed⟩

theorem closedFailure_isSome (after : Report) (failure : Option Failure) :
    (closedFailure after failure).isSome = (after.failed || failure.isSome) := by
  cases failure <;> cases hafter : after.failed <;> simp [closedFailure, hafter]

/-- A specification during which the runner was found dead has failed. -/
theorem SpecHistory.dead_failed {aborted : Bool} {r : SpecResult}
    (h : SpecHistory plan spec aborted hs r) (hdead : foundDead hs = true) : r.failed = true := by
  cases h with
  | illFormed _ => cases hdead
  | dead _ _ => cases hdead
  | @takenUp _ before body scenarios failure _ after _ _ hbefore hbody hafter =>
    rw [SpecResult.ofRun_failed_iff, closedFailure_isSome, Bool.or_eq_true]
    rw [foundDead_append, foundDead_append, Bool.or_eq_true, Bool.or_eq_true] at hdead
    rcases hdead with (hdead | hdead) | hdead
    · -- the opening announcement failed, and that is the failure of the specification
      have hfailed := hbefore.dead_failed hdead
      cases hbody with
      | refused _ => exact .inr (.inr rfl)
      | unresolvable hpassed _ => simp [hfailed] at hpassed
      | carriedOut hpassed _ _ => simp [hfailed] at hpassed
    · cases hbody with
      | refused _ => cases hdead
      | unresolvable _ _ => cases hdead
      | carriedOut _ _ hscenarios => exact .inl (hscenarios.dead_failed hdead)
    · exact .inr (.inl (hafter.dead_failed hdead))

theorem SpecsHistory.dead_failed {aborted : Bool} {items : List Placed}
    {entries : List (Nat × SpecResult)} (h : SpecsHistory plan aborted items hs entries)
    (hdead : foundDead hs = true) : ∃ entry ∈ entries, entry.2.failed = true := by
  induction h with
  | nil => cases hdead
  | cons h _ ih =>
    rw [foundDead_append, specHappenings, foundDead_announcedAround, Bool.or_eq_true] at hdead
    exact (List.exists_mem_cons_iff ..).mpr (hdead.imp h.dead_failed ih)

end

/-! ## What comes later is left out -/

theorem notExecuted_status (spec : Specification) (reason : String)
    (errors : List Item.ParseError) :
    (SpecResult.notExecuted spec reason errors).status = .skipped := by
  have hskipped : (SpecResult.notExecuted spec reason errors).skipped = true := rfl
  have hfailed : (SpecResult.notExecuted spec reason errors).failed = false := by
    have hexclusive := (SpecResult.notExecuted_consistent spec reason errors).exclusive
    simpa [hskipped] using hexclusive
  rw [SpecResult.status, hfailed, hskipped, if_neg Bool.false_ne_true, if_pos rfl]

/-- Of a dead runner's specifications nothing happens. -/
theorem SpecHistory.after_death {plan : Plan} {spec : Specification} {hs : List Happening}
    {r : SpecResult} (h : SpecHistory plan spec true hs r) : hs = [] ∧ r.status = .skipped := by
  generalize hflag : true = flag at h
  cases h with
  | illFormed _ => exact ⟨rfl, notExecuted_status spec _ _⟩
  | dead _ _ => exact ⟨rfl, notExecuted_status spec _ _⟩
  | takenUp _ halive _ _ _ =>
    rw [halive] at hflag
    cases hflag

/-! ## Workers -/

section

variable {b : Behavior σ} {plan : Plan}

/-- What taking a specification does to a stream. -/
theorem Worker.take_history (b : Behavior σ) (plan : Plan) (w : Worker σ) (item : Placed) :
    ∃ hs r, SpecHistory plan item.2 w.session.aborted hs r ∧
      (w.take b plan item).results = w.results ++ [(item.1, r)] ∧
      (w.take b plan item).session.aborted = (w.session.aborted || foundDead hs) ∧
      (w.take b plan item).session.offers = w.session.offers ++ messages hs := by
  obtain ⟨hs, hrun, hhistory⟩ := announcedSpec_history b plan item.2 w.session
  have haborted := hrun.aborted_eq
  have hoffers := hrun.offers_eq
  rw [specHappenings, foundDead_announcedAround] at haborted
  rw [specHappenings, messages_announcedAround] at hoffers
  exact ⟨hs, _, hhistory, rfl, haborted, hoffers⟩

/-- A stream that loses its runner with a specification reports it as failed. -/
theorem Worker.take_loses {w : Worker σ} {item : Placed} (halive : w.session.aborted = false)
    (hdead : (w.take b plan item).session.aborted = true) :
    ∃ r, (w.take b plan item).results = w.results ++ [(item.1, r)] ∧ r.failed = true := by
  obtain ⟨hs, r, hhistory, hresults, haborted, -⟩ := w.take_history b plan item
  rw [hdead, halive, Bool.false_or] at haborted
  exact ⟨r, hresults, hhistory.dead_failed haborted.symm⟩

/-- A stream whose runner is dead skips the specifications that it takes, and tells nobody. -/
theorem Worker.takeAll_skips (b : Behavior σ) (plan : Plan) {w : Worker σ}
    (hdead : w.session.aborted = true) (items : List Placed) :
    ∃ later, (items.foldl (fun w item => w.take b plan item) w).results = w.results ++ later ∧
      later.map (·.1) = items.map (·.1) ∧ (∀ entry ∈ later, entry.2.status = .skipped) ∧
      (items.foldl (fun w item => w.take b plan item) w).session.offers = w.session.offers := by
  induction items generalizing w with
  | nil => exact ⟨[], (List.append_nil _).symm, rfl, by simp, rfl⟩
  | cons item rest ih =>
    obtain ⟨hs, r, hhistory, hresults, haborted, hoffers⟩ := w.take_history b plan item
    rw [hdead] at hhistory haborted
    obtain ⟨rfl, hskipped⟩ := hhistory.after_death
    obtain ⟨later, hlater, hpositions, hall, hsilent⟩ := ih haborted
    refine ⟨(item.1, r) :: later, ?_, ?_, List.forall_mem_cons.mpr ⟨hskipped, hall⟩, ?_⟩
    · rw [List.foldl_cons, hlater, hresults, List.append_assoc, List.singleton_append]
    · rw [List.map_cons, List.map_cons, hpositions]
    · rw [List.foldl_cons, hsilent, hoffers]
      exact List.append_nil _

/-- What becomes true in the course of a fold does so at one of the elements. -/
theorem foldl_turns {α β : Type} {f : β → α → β} {p : β → Bool} {init : β} {as : List α}
    (hinit : p init = false) (hend : p (as.foldl f init) = true) :
    ∃ before a after, as = before ++ a :: after ∧ p (before.foldl f init) = false ∧
      p ((before ++ [a]).foldl f init) = true := by
  induction as generalizing init with
  | nil => exact absurd hend (by simp [hinit])
  | cons a rest ih =>
    cases hfirst : p (f init a) with
    | true => exact ⟨[], a, rest, rfl, hinit, hfirst⟩
    | false =>
      obtain ⟨before, a', after, rfl, hbefore, hafter⟩ := ih hfirst hend
      exact ⟨a :: before, a', after, rfl, hbefore, hafter⟩

end

/-! ## Streams -/

/-- A stream that opened as `w` lost its runner with `item`: it had not been found dead after
`before`, and had been after `item`. -/
structure LosesRunner (b : Behavior σ) (plan : Plan) (w : Worker σ) (before : List Placed)
    (item : Placed) (after : List Placed) (run : StreamRun σ) (o : StreamOutcome) : Prop where
  alive : (w.takeAssigned b plan before).session.aborted = false
  dead : (w.takeAssigned b plan (before ++ [item])).session.aborted = true
  /-- The specification has failed, and all after it are skipped. -/
  reported : ∃ r later,
    o.results = (w.takeAssigned b plan before).results ++ (item.1, r) :: later ∧
      r.failed = true ∧ later.map (·.1) = after.map (·.1) ∧
      ∀ entry ∈ later, entry.2.status = .skipped
  /-- Afterwards the runner is offered nothing, or only the end of the execution. -/
  offers : ∃ ending, (ending = [] ∨ ending = [.executionEnding (.ofNat o.stream)]) ∧
    run.offers = (w.takeAssigned b plan (before ++ [item])).session.offers ++ ending

theorem StreamRun.offers_eq (run : StreamRun σ) :
    run.offers = run.trace.filterMap Occurrence.message? := rfl

theorem offered_messages (ms : List Message) :
    (ms.map Occurrence.offered).filterMap Occurrence.message? = ms := by
  rw [List.filterMap_map]
  exact List.filterMap_some

/-- A stream that hands something in did not break down. -/
theorem Worker.finish_eq_close {fleet : Fleet σ} {w : Worker σ} {o : StreamOutcome}
    (h : (w.finish fleet).outcome = some o) : w.finish fleet = w.close fleet.toBehavior := by
  simp only [Worker.finish] at h ⊢
  cases hbroken : (w.close fleet.toBehavior).runner.bind fleet.brokenAt with
  | none => rfl
  | some count =>
    rw [hbroken] at h
    cases h

theorem Worker.close_aborted {b : Behavior σ} {w : Worker σ} :
    (w.close b).aborted = w.session.aborted := by
  cases h : w.refusal with
  | some failure =>
    simp only [Worker.close, h, killRunner]
    rfl
  | none =>
    obtain ⟨-, -, -, -, haborted, -⟩ := Worker.close_serving (b := b) h
    exact haborted

/-- Closing a stream offers its runner nothing, or only the end of the execution. -/
theorem Worker.close_offers {b : Behavior σ} {w : Worker σ} (h : w.refusal = none) :
    ∃ ending, (ending = [] ∨ ending = [.executionEnding (.ofNat w.session.stream)]) ∧
      (w.close b).offers = w.session.offers ++ ending := by
  obtain ⟨ending, failure, hending, -, -, htrace⟩ := Worker.close_serving (b := b) h
  refine ⟨ending, hending.ending_eq, ?_⟩
  rw [StreamRun.offers_eq, htrace, Session.offers, List.filterMap_append, List.filterMap_append,
    offered_messages]
  exact List.append_nil _

/-- A stream whose runner refuses the execution hands in what it holds and offers nothing more. -/
theorem Worker.close_refused {b : Behavior σ} {w : Worker σ} {failure : Failure}
    (h : w.refusal = some failure) :
    (w.close b).outcome = some ⟨w.session.stream, w.results, some failure⟩ ∧
      (w.close b).offers = w.session.offers := by
  simp only [Worker.close, h, killRunner]
  refine ⟨rfl, ?_⟩
  rw [StreamRun.offers_eq]
  show (w.session.trace.push .killed).toList.filterMap Occurrence.message? = _
  rw [Array.toList_push, List.filterMap_append]
  exact List.append_nil _

/-- A stream that ran what it was assigned lost its runner, if it did, with one of the
specifications. -/
theorem Worker.close_loses {b : Behavior σ} {plan : Plan} {w : Worker σ} {items : List Placed}
    {o : StreamOutcome} (hserving : w.refusal = none) (hnew : w.session.aborted = false)
    (ho : ((w.takeAssigned b plan items).close b).outcome = some o)
    (hlost : ((w.takeAssigned b plan items).close b).aborted = true) :
    ∃ before item after, items = before ++ item :: after ∧
      LosesRunner b plan w before item after ((w.takeAssigned b plan items).close b) o := by
  have hrefusal := (w.takeAssigned_refusal b plan items).trans hserving
  have hparts := Worker.takeAssigned_append b plan hserving
  obtain ⟨-, failure, -, houtcome, -, -⟩ := Worker.close_serving (b := b) hrefusal
  obtain ⟨ending, hending, hoffers⟩ := Worker.close_offers (b := b) hrefusal
  obtain rfl := Option.some.inj (houtcome.symm.trans ho)
  rw [Worker.close_aborted, Worker.takeAssigned_serving b plan hserving] at hlost
  obtain ⟨before, item, after, rfl, halive, hdead⟩ :=
    foldl_turns (p := fun w : Worker σ => w.session.aborted) hnew hlost
  rw [← Worker.takeAssigned_serving b plan hserving] at halive hdead
  -- after `before` the stream takes `item` and then, its runner dead, the others
  have hitem : w.takeAssigned b plan (before ++ [item]) =
      (w.takeAssigned b plan before).take b plan item := hparts before [item]
  have hafter := hparts (before ++ [item]) after
  rw [List.append_assoc, List.singleton_append] at hafter
  obtain ⟨r, hr, hfailed⟩ := Worker.take_loses halive (hitem ▸ hdead)
  obtain ⟨later, hlater, hpositions, hskipped, hsilent⟩ :=
    Worker.takeAll_skips b plan hdead after
  rw [← hafter] at hlater hsilent
  refine ⟨before, item, after, rfl, halive, hdead, ⟨r, later, ?_, hfailed, hpositions, hskipped⟩,
    ending, hending, ?_⟩
  · show (w.takeAssigned b plan (before ++ item :: after)).results = _
    rw [hlater, hitem, hr, List.append_assoc, List.singleton_append]
  · rw [hoffers, hsilent]

/-- A stream that was assigned its specifications lost its runner, if it did, with one of them. -/
theorem runAssigned_loses {fleet : Fleet σ} {plan : Plan} {stream : Nat} {items : List Placed}
    {o : StreamOutcome} (ho : (runAssigned fleet plan stream items).outcome = some o)
    (hlost : (runAssigned fleet plan stream items).aborted = true) :
    ∃ runner before item after, fleet.start stream = .ok runner ∧
      items = before ++ item :: after ∧
      LosesRunner fleet.toBehavior plan (openWorker fleet.toBehavior plan stream runner) before item
        after (runAssigned fleet plan stream items) o := by
  unfold runAssigned at ho hlost ⊢
  cases hstart : fleet.start stream with
  | error e =>
    rw [hstart] at hlost
    cases hlost
  | ok runner =>
    simp only [hstart] at ho hlost ⊢
    have hclose := Worker.finish_eq_close ho
    rw [hclose] at ho hlost ⊢
    cases hrefusal : (openWorker fleet.toBehavior plan stream runner).refusal with
    | some failure =>
      -- a stream that takes nothing has nothing to lose
      rw [Worker.close_aborted, Worker.takeAssigned_refused hrefusal] at hlost
      cases hlost
    | none =>
      obtain ⟨before, item, after, hitems, hloses⟩ := Worker.close_loses hrefusal rfl ho hlost
      exact ⟨runner, before, item, after, rfl, hitems, hloses⟩

/-- However a stream came by its specifications, if it lost its runner, one of those that it hands in
has failed. -/
theorem StreamRun.Ended.dead_failed {fleet : Fleet σ} {plan : Plan} {stream : Nat}
    {items : List Placed} {run : StreamRun σ} {o : StreamOutcome}
    (h : run.Ended fleet plan stream items) (ho : run.outcome = some o)
    (hlost : run.aborted = true) : ∃ entry ∈ o.results, entry.2.failed = true := by
  cases h with
  | unstarted _ => cases hlost
  | @finished _ w _ hw =>
    rw [Worker.finish_outcome ho]
    rw [Worker.finish_eq_close ho, Worker.close_aborted] at hlost
    cases hw with
    | refused _ => cases hlost
    | serving _ _ hrun hspecs =>
      have haborted := hrun.aborted_eq
      rw [hlost] at haborted
      exact hspecs.dead_failed haborted.symm

/-! ## The verdict -/

theorem ofSpecs_failed_iff (specs : List SpecResult) (ms : Nat) (failure : Option Failure) :
    (Result.SuiteResult.ofSpecs specs ms failure).failed = true ↔
      (∃ r ∈ specs, r.failed = true) ∨ failure.isSome = true := by
  simp [Result.SuiteResult.ofSpecs]

/-- A merged result has failed exactly when one of the streams hands in a failed specification or
the failure of one of its hooks. -/
theorem merge_failed_iff (outcomes : List StreamOutcome) (ms : Nat) :
    (Result.merge outcomes ms).failed = true ↔
      (∃ o ∈ outcomes, ∃ entry ∈ o.results, entry.2.failed = true) ∨
        ∃ o ∈ outcomes, o.hookFailure.isSome = true := by
  rw [Result.merge, ofSpecs_failed_iff, List.findSome?_isSome_iff]
  refine or_congr ⟨?_, ?_⟩ ?_
  · rintro ⟨r, hr, hfailed⟩
    obtain ⟨o, ho, hr⟩ := List.mem_flatMap.mp hr
    obtain ⟨entry, hentry, rfl⟩ := List.mem_map.mp hr
    exact ⟨o, List.mem_mergeSort.mp ho, entry, List.mem_mergeSort.mp hentry, hfailed⟩
  · rintro ⟨o, ho, entry, hentry, hfailed⟩
    refine ⟨entry.2, List.mem_flatMap.mpr ⟨o, List.mem_mergeSort.mpr ho, ?_⟩, hfailed⟩
    exact List.mem_map_of_mem (List.mem_mergeSort.mpr hentry)
  · simp only [List.mem_mergeSort]

theorem verdict_success_iff (result : Result.SuiteResult) (parsed : Bool) :
    Result.verdict result parsed = .success ↔ parsed = true ∧ result.failed = false := by
  cases parsed <;> cases hfailed : result.failed <;> simp [Result.verdict, hfailed]

theorem mem_completed {plan : Plan} {streams : List (StreamRun σ)} {run : StreamRun σ}
    {o : StreamOutcome} (hrun : run ∈ streams) (ho : run.outcome = some o) :
    o ∈ completed plan streams := by
  have hmem : o ∈ streams.filterMap (·.outcome) := List.mem_filterMap.mpr ⟨run, hrun, ho⟩
  unfold completed
  simp only
  split
  · exact hmem
  · exact List.mem_append_left _ hmem

/-- A stream that was assigned its specifications and lost its runner did so with one of them. That
one has failed, and those after it are skipped without the runner hearing of them. However streams
come by their specifications, one that lost its runner hands in a failed one; so the run has failed,
and its verdict is not success. A stream whose task broke down hands in nothing. -/
theorem lost_runner_fails_run (fleet : Fleet σ) (plan : Plan) :
    (∀ stream items o, (runAssigned fleet plan stream items).outcome = some o →
      (runAssigned fleet plan stream items).aborted = true →
      ∃ runner before item after, fleet.start stream = .ok runner ∧
        items = before ++ item :: after ∧
        LosesRunner fleet.toBehavior plan (openWorker fleet.toBehavior plan stream runner) before
          item after (runAssigned fleet plan stream items) o) ∧
    ∀ order, ∀ run ∈ (runSuite fleet plan order).streams, run.aborted = true →
      ∀ o, run.outcome = some o →
        (∃ entry ∈ o.results, entry.2.failed = true) ∧
          (runSuite fleet plan order).result.failed = true ∧
          ∀ parsed, Result.verdict (runSuite fleet plan order).result parsed ≠ .success := by
  refine ⟨fun stream items o => runAssigned_loses, ?_⟩
  intro order run hrun hlost o ho
  obtain ⟨work, -, -, hended⟩ := runStreams_ended fleet plan order
  obtain ⟨share, -, hended⟩ := forall₂_mem_right hended hrun
  have hfailed := hended.dead_failed ho hlost
  have hresult : (runSuite fleet plan order).result.failed = true :=
    (merge_failed_iff _ _).mpr (.inl ⟨o, mem_completed hrun ho, hfailed⟩)
  refine ⟨hfailed, hresult, fun parsed hsuccess => ?_⟩
  rw [((verdict_success_iff _ _).mp hsuccess).2] at hresult
  cases hresult

/-! ### A runner that dies of a step -/

/-- A runner that passes every announcement and dies when it is asked to execute a step. -/
def dyingFleet : Fleet Bool where
  alive living := living
  answer
    | _, .executeStep .. => (.error .unreachable, false)
    | true, _ => (.ok (.statusResponse {}), true)
    | false, _ => (.error .unreachable, false)
  kill _ := (.ok (), false)
  start _ := .ok true

/-- A specification of one scenario with one step. -/
def oneStepSpec (name : String) : Specification where
  heading := name
  fileName := name ++ ".spec"
  scenarios := [{ heading := "Scenario", steps := [.step { text := "step" }] }]

/-- A plan for two specifications on one stream. -/
def twoSpecs : Plan where
  manifest := { language := "python" }
  specs := [oneStepSpec "first", oneStepSpec "second"]
  settings := {}

/-- The runner dies in the first of two specifications, and the run is no success. -/
theorem dying_fleet_fails_run :
    (runAssigned dyingFleet twoSpecs 0 twoSpecs.indexed).aborted = true ∧
      ∃ o runner, (runAssigned dyingFleet twoSpecs 0 twoSpecs.indexed).outcome = some o ∧
        LosesRunner dyingFleet.toBehavior twoSpecs
          (openWorker dyingFleet.toBehavior twoSpecs 0 runner) [] (0, oneStepSpec "first")
          [(1, oneStepSpec "second")] (runAssigned dyingFleet twoSpecs 0 twoSpecs.indexed) o ∧
        Result.verdict (runSuite dyingFleet twoSpecs id).result true ≠ .success := by
  have hlost : (runAssigned dyingFleet twoSpecs 0 twoSpecs.indexed).aborted = true := by
    decide +kernel
  have hends : (runAssigned dyingFleet twoSpecs 0 twoSpecs.indexed).outcome.isSome = true := by
    decide +kernel
  obtain ⟨o, ho⟩ := Option.isSome_iff_exists.mp hends
  obtain ⟨hassigned, hany⟩ := lost_runner_fails_run dyingFleet twoSpecs
  obtain ⟨runner, before, item, after, hstart, hitems, hloses⟩ := hassigned 0 _ o ho hlost
  have hverdict := (hany id _ List.mem_cons_self hlost o ho).2.2 true
  obtain rfl : true = runner := Except.ok.inj hstart
  -- the runner is dead after the first specification, so it was lost with none before or after it
  have hfirst : ((openWorker dyingFleet.toBehavior twoSpecs 0 true).takeAssigned
      dyingFleet.toBehavior twoSpecs [(0, oneStepSpec "first")]).session.aborted = true := by
    decide +kernel
  have hindexed : twoSpecs.indexed = [(0, oneStepSpec "first"), (1, oneStepSpec "second")] := rfl
  rw [hindexed] at hitems
  obtain _ | ⟨first, rest⟩ := before
  · obtain ⟨rfl, rfl⟩ := List.cons.inj hitems
    exact ⟨hlost, o, true, ho, hloses, hverdict⟩
  · obtain ⟨rfl, hrest⟩ := List.cons.inj hitems
    obtain _ | ⟨second, others⟩ := rest
    · rw [hloses.alive] at hfirst
      cases hfirst
    · simp at hrest

end SpecEngine.Engine
