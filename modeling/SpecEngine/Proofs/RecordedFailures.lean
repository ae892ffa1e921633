/-
# SpecEngine.Proofs.RecordedFailures -- what the records tell of a failed run

The result of a run holds every failure. The two records that a run leaves hold less: the status
record counts failed specifications and scenarios, the failures record lists failed scenarios. So a
failure may be missing from them that lies above what they hold, and this module says which.

A run fails because a scenario failed, because a specification failed above its scenarios, or
because a hook failed that brackets a stream. The failures above the scenarios are traced back to
the runner: it reported a failure on a message that it was offered in the course of its stream, or
it was told of a specification whose data table does not resolve. The status record misses the
hooks of streams, and nothing else. The failures record misses these and the failures of
specifications above their scenarios, since a specification whose opening hook or whose table
failed skips its scenarios. Then a run of what failed has nothing to run again.
-/
import SpecEngine.CommandLine.Run
import SpecEngine.Proofs.Counters
import SpecEngine.Proofs.Replay
import SpecEngine.Proofs.Success

namespace SpecEngine.Engine

open Item (Specification)
open Result (SpecResult SuiteResult Failure StreamOutcome)
open Record (Status Failures)
open Runner (Behavior Fleet Message Report)
open CommandLine (World RunOptions Work chooseWork planWork)

variable {σ : Type}

/-! ## Reports of failures -/

section

variable {b : Behavior σ} {s t : Session σ} {hs before after : List Happening} {m : Message}

/-- A session leaves its runner in the state that the messages lead to. -/
theorem Happens.runner_eq (h : Happens b s hs t) : t.runner = b.after s.runner (messages hs) := by
  induction h with
  | nothing _ => rfl
  | exchange m _ ih => exact ih
  | look _ ih => exact ih
  | announce _ _ _ _ ih => exact ih

/-- Among what happened, the runner reported a failure on the message. -/
def Reported (m : Message) (hs : List Happening) : Prop :=
  ∃ before answer after, hs = before ++ .exchanged m answer :: after ∧
    (Runner.reportOf answer).failed = true

theorem Reported.within (h : Reported m hs) (before after : List Happening) :
    Reported m (before ++ hs ++ after) := by
  obtain ⟨earlier, answer, later, rfl, hfailed⟩ := h
  refine ⟨before ++ earlier, answer, later ++ after, ?_, hfailed⟩
  simp only [List.append_assoc, List.cons_append]

theorem HookHistory.reported {report : Report} (h : HookHistory m hs report)
    (hfailed : report.failed = true) : Reported m hs := by
  cases h with
  | passed hpassed =>
    rw [hpassed] at hfailed
    cases hfailed
  | failed alive _ => exact ⟨[], _, _, rfl, hfailed⟩

/-- A failure that was reported is the runner's answer in the state that the messages before it
lead to. -/
theorem Happens.reported (h : Happens b s hs t) (hreported : Reported m hs) :
    ∃ told, told ++ [m] <+: messages hs ∧
      (Runner.reportOf (b.answer (b.after s.runner told) m).1).failed = true := by
  obtain ⟨before, answer, after, rfl, hfailed⟩ := hreported
  obtain ⟨u, hbefore, hrest⟩ := h.split
  obtain ⟨hanswer, -⟩ := hrest.exchanged
  refine ⟨messages before, ?_, ?_⟩
  · rw [messages_append, messages_exchanged]
    exact ⟨messages after, (List.append_cons ..).symm⟩
  · rw [hanswer, offer_answer, hbefore.runner_eq] at hfailed
    exact hfailed

end

/-! ## Specifications that failed above their scenarios -/

theorem notExecuted_failed (spec : Specification) (reason : String)
    (errors : List Item.ParseError) : (SpecResult.notExecuted spec reason errors).failed = false := by
  have hstatus := notExecuted_status spec reason errors
  rw [SpecResult.status] at hstatus
  cases hfailed : (SpecResult.notExecuted spec reason errors).failed with
  | false => rfl
  | true =>
    rw [hfailed, if_pos rfl] at hstatus
    cases hstatus

/-- A specification fails because a scenario failed, or for one of three reasons above them: the
runner reported a failure when it was told that the specification starts or ends, or its data table
does not resolve. -/
theorem SpecHistory.failed_cause {plan : Plan} {spec : Specification} {aborted : Bool}
    {hs : List Happening} {r : SpecResult} (h : SpecHistory plan spec aborted hs r)
    (hfailed : r.failed = true) :
    (∃ sc ∈ r.scenarios, sc.status = .failed) ∨
      Reported (.specStarting spec.fileName spec.heading spec.tags) hs ∨
      ((∃ fault, drivingRows plan spec = .error fault) ∧
        .specStarting spec.fileName spec.heading spec.tags ∈ messages hs) ∨
      Reported (.specEnding spec.fileName spec.heading spec.tags) hs := by
  cases h with
  | illFormed _ =>
    rw [notExecuted_failed] at hfailed
    cases hfailed
  | dead _ _ =>
    rw [notExecuted_failed] at hfailed
    cases hfailed
  | @takenUp first before body scenarios failure last after _ _ hbefore hbody hafter =>
    rw [SpecResult.ofRun_failed_iff, closedFailure_isSome, Bool.or_eq_true] at hfailed
    rcases hfailed with hscenario | hclosing | hown
    · exact .inl hscenario
    · refine .inr (.inr (.inr ?_))
      have hreported := (hafter.reported hclosing).within (first ++ body) []
      rwa [List.append_nil] at hreported
    · -- a body that was carried out leaves the failing to its scenarios
      cases hbody with
      | refused hrefused =>
        refine .inr (.inl ?_)
        have hreported := (hbefore.reported hrefused).within [] last
        rwa [List.nil_append, ← List.append_nil first] at hreported
      | unresolvable _ hfault =>
        refine .inr (.inr (.inl ⟨⟨_, hfault⟩, ?_⟩))
        rw [messages_append, messages_append, hbefore.messages_eq]
        exact List.mem_cons_self
      | carriedOut _ _ _ => cases hown

/-- An entry of specifications that were run one after the other has a history within theirs. -/
theorem SpecsHistory.entry_history {plan : Plan} {aborted : Bool} {items : List Placed}
    {hs : List Happening} {entries : List (Nat × SpecResult)}
    (h : SpecsHistory plan aborted items hs entries) :
    ∀ entry ∈ entries, ∃ item ∈ items, ∃ aborted before happened after,
      SpecHistory plan item.2 aborted happened entry.2 ∧ hs = before ++ happened ++ after := by
  induction h with
  | nil => simp
  | @cons aborted item rest hs r hs' entries hspec _ ih =>
    refine List.forall_mem_cons.mpr ⟨?_, fun entry hentry => ?_⟩
    · refine ⟨item, List.mem_cons_self, aborted, [.announced .specStart (.ofSpec item.2) none], hs,
        .announced .specEnd (.ofSpec item.2) (some (.spec r)) :: hs', hspec, ?_⟩
      simp only [specHappenings, announcedAround, List.cons_append, List.nil_append,
        List.append_assoc]
    · obtain ⟨item', hitem', aborted', before, happened, after, hhistory, rfl⟩ := ih entry hentry
      refine ⟨item', .tail _ hitem', aborted', specHappenings item.2 hs r ++ before, happened,
        after, hhistory, ?_⟩
      simp only [List.append_assoc]

/-! ## Failures that a stream shows -/

/-- The runner of the stream reported a failure on the message: it failed when it was offered the
message, after those that it had been offered before. -/
def StreamRun.ReportsFailure (fleet : Fleet σ) (stream : Nat) (run : StreamRun σ) (m : Message) :
    Prop :=
  ∃ runner told, fleet.start stream = .ok runner ∧ told ++ [m] <+: run.offers ∧
    (Runner.reportOf (fleet.answer (fleet.after runner told) m).1).failed = true

/-- A hook failed that brackets the stream. -/
def StreamRun.BracketFails (fleet : Fleet σ) (plan : Plan) (stream : Nat) (run : StreamRun σ) :
    Prop :=
  run.ReportsFailure fleet stream (opening plan stream) ∨
    run.ReportsFailure fleet stream (.executionEnding (.ofNat stream))

/-- The specification failed on the stream above its scenarios: the runner reported a failure when
it was told that the specification starts or ends, or it was told that it starts but the data table
does not resolve. -/
inductive StreamRun.FailsAbove (fleet : Fleet σ) (plan : Plan) (stream : Nat) (run : StreamRun σ)
    (spec : Specification) : Prop
  | starting : run.ReportsFailure fleet stream
      (.specStarting spec.fileName spec.heading spec.tags) → FailsAbove fleet plan stream run spec
  | table {fault : Special.Fault} : drivingRows plan spec = .error fault →
      .specStarting spec.fileName spec.heading spec.tags ∈ run.offers →
      FailsAbove fleet plan stream run spec
  | ending : run.ReportsFailure fleet stream
      (.specEnding spec.fileName spec.heading spec.tags) → FailsAbove fleet plan stream run spec

theorem openWorker_offers (b : Behavior σ) (plan : Plan) (stream : Nat) (runner : σ) :
    (openWorker b plan stream runner).session.offers = [opening plan stream] := by
  rw [Session.offers, openWorker_trace]
  rfl

theorem announceEnd_failed {b : Behavior σ} {s : Session σ}
    (h : (announceEnd b s).1.isSome = true) :
    (Runner.reportOf (b.answer s.runner (.executionEnding (.ofNat s.stream))).1).failed = true ∧
      (announceEnd b s).2.offers = s.offers ++ [.executionEnding (.ofNat s.stream)] := by
  rw [announceEnd, get_bind_run] at h ⊢
  -- a dead runner is not told that the execution ends, and fails nothing
  by_cases halive : b.alive s.runner = true
  · rw [if_pos halive, bind_run, pure_run, offer_answer] at h ⊢
    refine ⟨?_, offer_offers b _ s⟩
    by_contra hpassed
    rw [if_neg hpassed] at h
    cases h
  · rw [if_neg halive] at h
    cases h

section

variable {fleet : Fleet σ} {plan : Plan} {stream : Nat} {runner : σ} {w : Worker σ}
variable {hs : List Happening} {items : List Placed} {o : StreamOutcome}

/-- What a worker was told since its opening is what its runner was offered. -/
theorem Worker.served_offers
    (hrun : Happens fleet.toBehavior (openWorker fleet.toBehavior plan stream runner).session hs
      w.session) : w.session.offers = opening plan stream :: messages hs := by
  rw [hrun.offers_eq, openWorker_offers, List.singleton_append]

/-- A failure that was reported while a stream served is shown by the stream. -/
theorem Worker.close_reports {m : Message} (hstart : fleet.start stream = .ok runner)
    (hserves : w.refusal = none)
    (hrun : Happens fleet.toBehavior (openWorker fleet.toBehavior plan stream runner).session hs
      w.session) (hreported : Reported m hs) :
    (w.close fleet.toBehavior).ReportsFailure fleet stream m := by
  obtain ⟨told, htold, hfailed⟩ := hrun.reported hreported
  obtain ⟨ending, -, hoffers⟩ := Worker.close_offers (b := fleet.toBehavior) hserves
  refine ⟨runner, opening plan stream :: told, hstart, ?_, hfailed⟩
  rw [hoffers, Worker.served_offers hrun]
  exact (List.cons_prefix_cons.mpr ⟨rfl, htold⟩).trans (List.prefix_append _ _)

/-- A stream that served hands in a hook's failure only if its runner reported one at the end. -/
theorem Worker.close_hook_failed (hstart : fleet.start stream = .ok runner)
    (hserves : w.refusal = none)
    (hrun : Happens fleet.toBehavior (openWorker fleet.toBehavior plan stream runner).session hs
      w.session) (ho : (w.close fleet.toBehavior).outcome = some o)
    (hfailed : o.hookFailure.isSome = true) :
    (w.close fleet.toBehavior).ReportsFailure fleet stream (.executionEnding (.ofNat stream)) := by
  have hstream : w.session.stream = stream := hrun.stream_eq
  have hhook : (announceEnd fleet.toBehavior w.session).1.isSome = true := by
    simp only [Worker.close, hserves] at ho
    obtain rfl := Option.some.inj ho
    exact hfailed
  obtain ⟨hreport, hoffers⟩ := announceEnd_failed hhook
  rw [hstream] at hreport hoffers
  have hclose : (w.close fleet.toBehavior).offers =
      (announceEnd fleet.toBehavior w.session).2.offers := by
    simp only [Worker.close, hserves, StreamRun.offers_eq, killRunner]
    show ((announceEnd _ w.session).2.trace.push .killed).toList.filterMap _ = _
    rw [Array.toList_push, List.filterMap_append]
    exact List.append_nil _
  rw [hoffers, Worker.served_offers hrun] at hclose
  rw [hrun.runner_eq] at hreport
  exact ⟨runner, opening plan stream :: messages hs, hstart, hclose ▸ List.prefix_rfl, hreport⟩

variable {run : StreamRun σ}

/-- A stream hands in the failure of a hook only if one failed that brackets it. -/
theorem StreamRun.Ended.hook_failed (h : run.Ended fleet plan stream items)
    (ho : run.outcome = some o) (hfailed : o.hookFailure.isSome = true) :
    run.BracketFails fleet plan stream := by
  cases h with
  | unstarted _ =>
    obtain rfl := Option.some.inj ho
    cases hfailed
  | @finished runner w hstart hw =>
    have hclose := Worker.finish_eq_close ho
    rw [hclose] at ho ⊢
    cases hw with
    | refused hreport =>
      have hrefusal := openWorker_refusal fleet.toBehavior plan stream runner
      rw [hreport, if_pos rfl] at hrefusal
      refine .inl ⟨runner, [], hstart, ?_, hreport⟩
      -- a runner that refuses is offered nothing but the opening
      simp only [Worker.close, hrefusal, StreamRun.offers_eq, killRunner]
      exact List.prefix_rfl
    | serving _ hserves hrun _ =>
      exact .inr (Worker.close_hook_failed hstart hserves hrun ho hfailed)

/-- A failed specification that a stream hands in has a failed scenario, or it failed above them on
this stream. -/
theorem StreamRun.Ended.spec_failed (h : run.Ended fleet plan stream items)
    (ho : run.outcome = some o) {entry : Nat × SpecResult} (hentry : entry ∈ o.results)
    (hfailed : entry.2.failed = true) :
    (∃ sc ∈ entry.2.scenarios, sc.status = .failed) ∨
      ∃ item ∈ items, run.FailsAbove fleet plan stream item.2 := by
  have hleft : ∀ reason, entry ∉ items.map (leftOut reason) := by
    intro reason hmem
    obtain ⟨item, -, rfl⟩ := List.mem_map.mp hmem
    rw [leftOut, notExecuted_failed] at hfailed
    cases hfailed
  cases h with
  | unstarted _ =>
    obtain rfl := Option.some.inj ho
    exact absurd hentry (hleft _)
  | @finished runner w hstart hw =>
    rw [Worker.finish_outcome ho] at hentry
    rw [Worker.finish_eq_close ho]
    cases hw with
    | refused _ => exact absurd hentry (hleft _)
    -- only a stream that served has entries that were run
    | @serving _ hs _ hserves hrun hspecs =>
      obtain ⟨item, hitem, _, before, happened, after, hhistory, rfl⟩ :=
        hspecs.entry_history entry hentry
      refine (hhistory.failed_cause hfailed).imp_right fun hcause => ⟨item, hitem, ?_⟩
      rcases hcause with hstarting | ⟨⟨fault, hfault⟩, htold⟩ | hending
      · exact .starting (Worker.close_reports hstart hserves hrun (hstarting.within before after))
      · refine .table hfault ?_
        obtain ⟨ending, -, hoffers⟩ := Worker.close_offers (b := fleet.toBehavior) hserves
        rw [hoffers, Worker.served_offers hrun, messages_append, messages_append]
        simp [htold]
      · exact .ending (Worker.close_reports hstart hserves hrun (hending.within before after))

end

/-! ## Failures of a run -/

section

variable (fleet : Fleet σ) (plan : Plan) (order : Nat → Nat)

/-- The failure of a hook that a run shows is that of a hook of one of its streams. -/
theorem completed_hook_failed {o : StreamOutcome}
    (ho : o ∈ completed plan (runStreams fleet plan order))
    (hfailed : o.hookFailure.isSome = true) :
    ∃ stream, ∃ run ∈ runStreams fleet plan order, run.BracketFails fleet plan stream := by
  rcases completed_cases ho with ⟨run, hrun, hends⟩ | rfl
  · obtain ⟨work, -, -, hended⟩ := runStreams_ended fleet plan order
    obtain ⟨share, -, hended⟩ := forall₂_mem_right hended hrun
    exact ⟨share.1, run, hrun, hended.hook_failed hends hfailed⟩
  · cases hfailed

/-- A failed specification of a run has a failed scenario, or it failed above them on one of the
streams. -/
theorem completed_spec_failed {o : StreamOutcome}
    (ho : o ∈ completed plan (runStreams fleet plan order)) {entry : Nat × SpecResult}
    (hentry : entry ∈ o.results) (hfailed : entry.2.failed = true) :
    (∃ sc ∈ entry.2.scenarios, sc.status = .failed) ∨
      ∃ stream, ∃ run ∈ runStreams fleet plan order, ∃ spec ∈ plan.specs,
        run.FailsAbove fleet plan stream spec := by
  rcases completed_cases ho with ⟨run, hrun, hends⟩ | rfl
  · obtain ⟨work, -, hordered, hended⟩ := runStreams_ended fleet plan order
    obtain ⟨share, hshare, hended⟩ := forall₂_mem_right hended hrun
    refine (hended.spec_failed hends hentry hfailed).imp_right ?_
    rintro ⟨item, hitem, habove⟩
    have hindexed := mem_indexed.mp ((hordered share hshare).subset hitem)
    exact ⟨share.1, run, hrun, item.2, List.mem_of_getElem? hindexed, habove⟩
  · -- what no stream reports has not failed
    obtain ⟨item, -, rfl⟩ := List.mem_map.mp hentry
    rw [leftOut, notExecuted_failed] at hfailed
    cases hfailed

/-- A run fails because a scenario failed, a specification failed above its scenarios, or a hook
failed that brackets a stream. -/
theorem runSuite_failed_cause (hfailed : (runSuite fleet plan order).result.failed = true) :
    (∃ spec ∈ (runSuite fleet plan order).result.specs, ∃ sc ∈ spec.scenarios,
        sc.status = .failed) ∨
      (∃ stream, ∃ run ∈ (runSuite fleet plan order).streams, ∃ spec ∈ plan.specs,
        run.FailsAbove fleet plan stream spec) ∨
      ∃ stream, ∃ run ∈ (runSuite fleet plan order).streams,
        run.BracketFails fleet plan stream := by
  rcases (merge_failed_iff _ _).mp hfailed with ⟨o, ho, entry, hentry, hspec⟩ | ⟨o, ho, hhook⟩
  · rcases completed_spec_failed fleet plan order ho hentry hspec with hscenario | habove
    · exact .inl ⟨entry.2, (mem_merge_specs 0).mpr ⟨o, ho, entry, hentry, rfl⟩, hscenario⟩
    · exact .inr (.inl habove)
  · exact .inr (.inr (completed_hook_failed fleet plan order ho hhook))

end

/-! ## The failures record -/

theorem firstOccurrences_eq_nil {α : Type} [DecidableEq α] (l : List α) :
    Record.firstOccurrences [] l = [] ↔ l = [] := by
  cases l with
  | nil => exact Iff.rfl
  | cons a rest => simp [Record.firstOccurrences]

/-- The failures record lists something exactly if a scenario failed. -/
theorem failures_nonempty_iff (r : SuiteResult) :
    (Failures.ofSuite r).isEmpty = false ↔
      ∃ spec ∈ r.specs, ∃ sc ∈ spec.scenarios, sc.status = .failed := by
  rw [Failures.isEmpty, Failures.ofSuite, List.isEmpty_eq_false_iff, ne_eq,
    firstOccurrences_eq_nil, List.flatMap_eq_nil_iff]
  simp

/-- A plan never comes to nothing for the reason that nothing failed. -/
theorem planWork_ne_nothingFailed {w : World σ} {o : RunOptions} {c : Config.Settings}
    {manifest : Config.Manifest} {errors : Item.BuildErrors} {specs : Item.Collection} :
    planWork w o c manifest errors specs ≠ .ok .nothingFailed := by
  rw [planWork]
  cases CommandLine.runnerCommand c with
  | error stop => exact nofun
  | ok command =>
    cases (Plan.make manifest specs c (.builtIn w.disk c.projectRoot)).mapError
        CommandLine.Stop.settings with
    | error stop => exact nofun
    | ok plan =>
      show Except.ok (if plan.specs.isEmpty then Work.nothingFound else _) ≠ _
      split <;> exact nofun

/-- A run of what failed that reads the record does not end because nothing failed. -/
def LeavesRerun (failures : Failures) : Prop :=
  ∀ (σ : Type) (w : World σ) (o : RunOptions) (c : Config.Settings) (manifest : Config.Manifest)
    (tree : Item.Tree), o.failed = true → Failures.read w.disk c.projectRoot = .ok failures →
    chooseWork w o c manifest tree ≠ .ok .nothingFailed

theorem leavesRerun_of_nonempty {failures : Failures} (h : failures.isEmpty = false) :
    LeavesRerun failures := by
  intro σ w o c manifest tree hfailed hread
  rw [chooseWork, if_pos hfailed, hread]
  show (if failures.isEmpty = true then _ else _) ≠ _
  rw [h, if_neg Bool.false_ne_true]
  exact planWork_ne_nothingFailed

/-- A run that failed leaves something in the failures record, so that there is something to run
again, unless no scenario failed. Then a specification failed above its scenarios, or a hook failed
that brackets a stream. -/
theorem failed_run_recorded (fleet : Fleet σ) (plan : Plan) (order : Nat → Nat)
    (hverdict : Result.verdict (runSuite fleet plan order).result true = .executionFailed) :
    (Failures.ofSuite (runSuite fleet plan order).result).isEmpty = false ∧
        LeavesRerun (Failures.ofSuite (runSuite fleet plan order).result) ∨
      (∀ spec ∈ (runSuite fleet plan order).result.specs, ∀ sc ∈ spec.scenarios,
        sc.status ≠ .failed) ∧
      ((∃ stream, ∃ run ∈ (runSuite fleet plan order).streams, ∃ spec ∈ plan.specs,
          run.FailsAbove fleet plan stream spec) ∨
        ∃ stream, ∃ run ∈ (runSuite fleet plan order).streams,
          run.BracketFails fleet plan stream) := by
  have hfailed : (runSuite fleet plan order).result.failed = true := by
    rw [← Bool.not_eq_false]
    intro hpassed
    rw [(verdict_success_iff _ _).mpr ⟨rfl, hpassed⟩] at hverdict
    cases hverdict
  by_cases hscenario : ∃ spec ∈ (runSuite fleet plan order).result.specs,
      ∃ sc ∈ spec.scenarios, sc.status = .failed
  · have hlisted := (failures_nonempty_iff _).mpr hscenario
    exact .inl ⟨hlisted, leavesRerun_of_nonempty hlisted⟩
  · refine .inr ⟨?_, (runSuite_failed_cause fleet plan order hfailed).resolve_left hscenario⟩
    intro spec hspec sc hsc hstatus
    exact hscenario ⟨spec, hspec, sc, hsc, hstatus⟩

/-- The runner dies of a step, which fails its scenario. -/
theorem dying_fleet_recorded :
    Result.verdict (runSuite dyingFleet twoSpecs id).result true = .executionFailed ∧
      (Failures.ofSuite (runSuite dyingFleet twoSpecs id).result).isEmpty = false := by
  have hfailed : (runSuite dyingFleet twoSpecs id).result.failed = true :=
    (merge_failed_iff _ _).mpr (by decide +kernel)
  have hverdict : Result.verdict (runSuite dyingFleet twoSpecs id).result true =
      .executionFailed := by
    rw [Result.verdict, hfailed]
    rfl
  refine ⟨hverdict, ?_⟩
  rcases failed_run_recorded dyingFleet twoSpecs id hverdict with ⟨hlisted, -⟩ | ⟨hnone, -⟩
  · exact hlisted
  · have hsome : ∃ o ∈ completed twoSpecs (runStreams dyingFleet twoSpecs id),
        ∃ entry ∈ o.results, ∃ sc ∈ entry.2.scenarios, sc.status = .failed := by decide +kernel
    obtain ⟨o, ho, entry, hentry, sc, hsc, hstatus⟩ := hsome
    exact absurd hstatus
      (hnone entry.2 ((mem_merge_specs 0).mpr ⟨o, ho, entry, hentry, rfl⟩) sc hsc)

/-- Runners that pass everything but some messages, on which they report a failure. -/
def refusingFleet (refuses : Message → Bool) : Fleet Unit where
  alive _ := true
  answer _ m := (.ok (.statusResponse { failed := refuses m }), ())
  kill _ := (.ok (), ())
  start _ := .ok ()

/-- Whether the message says that a specification starts. -/
def startsSpec : Message → Bool
  | .specStarting .. => true
  | _ => false

/-- A run in which the hook of every specification fails has failed and leaves nothing in the
failures record. -/
theorem refused_specs_unrecorded :
    Result.verdict (runSuite (refusingFleet startsSpec) twoSpecs id).result true =
        .executionFailed ∧
      (Failures.ofSuite (runSuite (refusingFleet startsSpec) twoSpecs id).result).isEmpty =
        true := by
  have hfailed : (runSuite (refusingFleet startsSpec) twoSpecs id).result.failed = true :=
    (merge_failed_iff _ _).mpr (by decide +kernel)
  have hskipped : ∀ o ∈ completed twoSpecs (runStreams (refusingFleet startsSpec) twoSpecs id),
      ∀ entry ∈ o.results, ∀ sc ∈ entry.2.scenarios, sc.status ≠ .failed := by decide +kernel
  refine ⟨?_, ?_⟩
  · rw [Result.verdict, hfailed]
    rfl
  · rw [← Bool.not_eq_false, failures_nonempty_iff]
    rintro ⟨spec, hspec, sc, hsc, hstatus⟩
    obtain ⟨o, ho, entry, hentry, rfl⟩ := (mem_merge_specs 0).mp hspec
    exact hskipped o ho entry hentry sc hsc hstatus

/-! ## The status record -/

theorem status_success_of_passed {r : SuiteResult} (h : r.Tallied) (hpassed : r.failedCount = 0) :
    (Status.ofSuite r).verdict = .success := by
  have hscenarios : r.scenarioFailedCount = 0 := by
    have hfailed := h.failed
    omega
  have hsilent : (Status.ofSuite r).tellsFailure = false := by
    rw [Status.tellsFailure, Status.failures, Status.ofSuite, hpassed, hscenarios]
    rfl
  rw [Status.verdict, hsilent]
  rfl

/-- The verdict of a status record is success exactly if no specification failed, as long as the
items can be counted with 64 bits. -/
theorem status_success_iff {r : SuiteResult} (h : r.Tallied)
    (hbound : r.specs.length + r.scenarioCount < UInt64.size) :
    (Status.ofSuite r).verdict = .success ↔ r.failedCount = 0 := by
  refine ⟨fun hsuccess => ?_, status_success_of_passed h⟩
  obtain ⟨hskipped, hfailed, hskipped', hfailed'⟩ := Status.neverClips h
  by_contra hcount
  -- the counter holds the number of failed specifications as it is
  have htells : (Status.ofSuite r).tellsFailure = true := by
    rw [Status.tellsFailure, decide_eq_true_eq, gt_iff_lt, Status.failures, Status.ofSuite,
      Status.toNat_ofNat (n := r.failedCount) (by omega)]
    exact Nat.add_pos_left (Nat.pos_of_ne_zero hcount) _
  rw [Status.verdict, htells] at hsuccess
  cases hsuccess

theorem failedCount_eq_zero_iff (fleet : Fleet σ) (plan : Plan) (order : Nat → Nat) :
    (runSuite fleet plan order).result.failedCount = 0 ↔
      ∀ spec ∈ (runSuite fleet plan order).result.specs, spec.failed = false := by
  simp only [← Bool.not_eq_true]
  exact List.countP_eq_zero

/-- The verdict that the status record comes to is that of the run, unless the run failed by nothing
but a hook that brackets a stream, of which the record does not tell. -/
theorem status_repeats_verdict (fleet : Fleet σ) (plan : Plan) (order : Nat → Nat) :
    let run := runSuite fleet plan order
    (Result.verdict run.result true = .success →
        (Status.ofSuite run.result).verdict = .success) ∧
      (run.result.specs.length + run.result.scenarioCount < UInt64.size →
        ((Status.ofSuite run.result).verdict = .success ↔
          Result.verdict run.result true = .success ∨
            (∀ spec ∈ run.result.specs, spec.failed = false) ∧
              ∃ stream, ∃ r ∈ run.streams, r.BracketFails fleet plan stream)) := by
  intro run
  have htallied := runSuite_tallied fleet plan order
  have hsuccess : Result.verdict run.result true = .success →
      ∀ spec ∈ run.result.specs, spec.failed = false := by
    intro hverdict spec hspec
    obtain ⟨-, hpassed⟩ := (verdict_success_iff _ _).mp hverdict
    rw [← Bool.not_eq_true]
    intro hfailed
    have hrun := (ofSpecs_failed_iff run.result.specs 0 run.result.failure).mpr
      (.inl ⟨spec, hspec, hfailed⟩)
    exact absurd (hrun.symm.trans hpassed) (by decide)
  refine ⟨fun hverdict => ?_, fun hbound => ?_⟩
  · exact status_success_of_passed htallied
      ((failedCount_eq_zero_iff fleet plan order).mpr (hsuccess hverdict))
  · rw [status_success_iff htallied hbound, failedCount_eq_zero_iff]
    constructor
    · intro hnone
      cases hfailed : run.result.failed with
      | false => exact .inl ((verdict_success_iff _ _).mpr ⟨rfl, hfailed⟩)
      | true =>
        refine .inr ⟨hnone, ?_⟩
        rcases (merge_failed_iff _ _).mp hfailed with ⟨o, ho, entry, hentry, hspec⟩ | ⟨o, ho, hhook⟩
        · rw [hnone _ ((mem_merge_specs 0).mpr ⟨o, ho, entry, hentry, rfl⟩)] at hspec
          cases hspec
        · exact completed_hook_failed fleet plan order ho hhook
    · rintro (hverdict | ⟨hnone, -⟩)
      · exact hsuccess hverdict
      · exact hnone

/-- A run in which everything passes is a success, and its record says so. -/
theorem passing_run_repeated :
    Result.verdict (runSuite passingFleet twoSpecs id).result true = .success ∧
      (Status.ofSuite (runSuite passingFleet twoSpecs id).result).verdict = .success ∧
      (runSuite passingFleet twoSpecs id).result.specs.length +
        (runSuite passingFleet twoSpecs id).result.scenarioCount < UInt64.size := by
  have hperm : (runSuite passingFleet twoSpecs id).result.specs.Perm _ :=
    merge_results_perm (completed twoSpecs (runStreams passingFleet twoSpecs id)) 0
  have hbound : (runSuite passingFleet twoSpecs id).result.specs.length +
      (runSuite passingFleet twoSpecs id).result.scenarioCount < UInt64.size := by
    rw [(runSuite_tallied passingFleet twoSpecs id).scenarioCount, SuiteResult.scenarios,
      hperm.length_eq, (hperm.flatMap_right _).length_eq]
    decide +kernel
  have hsuccess : Result.verdict (runSuite passingFleet twoSpecs id).result true = .success := by
    refine (verdict_success_iff _ _).mpr ⟨rfl, ?_⟩
    rw [← Bool.not_eq_true]
    exact mt (merge_failed_iff _ _).mp (by decide +kernel)
  obtain ⟨-, hiff⟩ := status_repeats_verdict passingFleet twoSpecs id
  exact ⟨hsuccess, (hiff hbound).mpr (.inl hsuccess), hbound⟩

/-- Whether the message says that the execution starts. -/
def startsExecution : Message → Bool
  | .executionStarting .. => true
  | _ => false

/-- A run whose runner refuses the execution has failed, and by its record it is a success. -/
theorem refused_execution_unrecorded :
    Result.verdict (runSuite (refusingFleet startsExecution) twoSpecs id).result true =
        .executionFailed ∧
      (Status.ofSuite (runSuite (refusingFleet startsExecution) twoSpecs id).result).verdict =
        .success := by
  have hfailed : (runSuite (refusingFleet startsExecution) twoSpecs id).result.failed = true :=
    (merge_failed_iff _ _).mpr (by decide +kernel)
  have hpassed : ∀ o ∈ completed twoSpecs
      (runStreams (refusingFleet startsExecution) twoSpecs id),
      ∀ entry ∈ o.results, entry.2.failed = false := by decide +kernel
  refine ⟨?_, status_success_of_passed (runSuite_tallied _ twoSpecs id) ?_⟩
  · rw [Result.verdict, hfailed]
    rfl
  · refine (failedCount_eq_zero_iff _ twoSpecs id).mpr fun spec hspec => ?_
    obtain ⟨o, ho, entry, hentry, rfl⟩ := (mem_merge_specs 0).mp hspec
    exact hpassed o ho entry hentry

end SpecEngine.Engine
