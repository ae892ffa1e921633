/-
# SpecEngine.Proofs.Success -- what a successful run has done

A run whose verdict is success should have executed what it was given. No specification of such a run
was left out because a runner died, for that leaves a failure behind, nor because a runner refused
the execution, for that is a failure of the stream. Two ways of leaving specifications out are not
held against the run. A stream whose runner does not start skips all that it was assigned and hands
in no failure; and what no stream reports is added as not executed, which is no failure either.

`Fate` lists what can become of a specification in a successful run. That these are all is shown from
the work of the streams: what they were assigned or claimed, and what still waited when none of them
could take more. That the first gap is one is shown by a run whose only runner does not start.
-/
import SpecEngine.Proofs.Agreement
import SpecEngine.Proofs.LostRunner

namespace SpecEngine.Engine

open Item (Specification)
open Result (SpecResult Failure StreamOutcome)
open Runner (Behavior Fleet Message ProtocolError)

variable {σ : Type}

/-- What became of a specification in a successful run with these streams, as its result has it. -/
inductive Fate (fleet : Fleet σ) (plan : Plan) (runs : List (StreamRun σ)) (item : Placed) :
    SpecResult → Prop
  | illFormed {errors : List Item.ParseError} : plan.buildErrors.ofSpec item.2 = some errors →
      Fate fleet plan runs item (.notExecuted item.2 "specification has build errors" errors)
  /-- It was run, from its opening announcement to the closing one, by a stream whose runner was not
  found dead before or in it. -/
  | takenUp {run : StreamRun σ} {hs : List Happening} {r : SpecResult} : run ∈ runs →
      SpecHistory plan item.2 false hs r → foundDead hs = false → SpecBlock item.2 (messages hs) →
      messages hs <:+: run.offers → Fate fleet plan runs item r
  /-- It was assigned to a stream whose runner did not start. -/
  | unstarted {stream : Nat} {items : List Placed} {e : ProtocolError} :
      fleet.start stream = .error e → .unstarted stream items e ∈ runs → item ∈ items →
      Fate fleet plan runs item (.notExecuted item.2 e.text [])
  /-- No stream reports it: the task of one broke down, or no runner started. -/
  | unreported : (∃ run ∈ runs, run.outcome = none) ∨
      (∀ run ∈ runs, ∃ stream items e, fleet.start stream = .error e ∧
        run = .unstarted stream items e) →
      Fate fleet plan runs item (.notExecuted item.2 unreportedReason [])

/-- What a stream hands in shows no failure. -/
structure Faultless (o : StreamOutcome) : Prop where
  results : ∀ entry ∈ o.results, entry.2.failed = false
  hook : o.hookFailure = none

/-- What the streams of a successful run hand in shows no failure. -/
theorem merge_faultless {outcomes : List StreamOutcome} {ms : Nat}
    (h : (Result.merge outcomes ms).failed = false) : ∀ o ∈ outcomes, Faultless o := by
  have hnone := mt (merge_failed_iff outcomes ms).mpr (by simp [h])
  rw [not_or] at hnone
  refine fun o ho => ⟨fun entry hentry => ?_, ?_⟩
  · rw [← Bool.not_eq_true]
    exact fun hfailed => hnone.1 ⟨o, ho, entry, hentry, hfailed⟩
  · rw [← Option.not_isSome_iff_eq_none]
    exact fun hfailed => hnone.2 ⟨o, ho, hfailed⟩

/-! ## Streams that served -/

/-- A living runner is told about every specification that has no build errors. -/
theorem SpecHistory.illFormed_or_block {plan : Plan} {spec : Specification} {hs : List Happening}
    {r : SpecResult} (h : SpecHistory plan spec false hs r) :
    (∃ errors, plan.buildErrors.ofSpec spec = some errors ∧
        r = .notExecuted spec "specification has build errors" errors) ∨
      SpecBlock spec (messages hs) := by
  rcases h.block with hsilent | hblock
  · cases h with
    | illFormed herrors => exact .inl ⟨_, herrors, rfl⟩
    | dead _ hdead => cases hdead
    | takenUp _ _ hbefore _ _ =>
      rw [messages_append, messages_append, hbefore.messages_eq] at hsilent
      cases hsilent
  · exact .inr hblock

/-- If the runner is not found dead, every specification was run while it lived. -/
theorem SpecsHistory.each {plan : Plan} {aborted : Bool} {items : List Placed}
    {hs : List Happening} {entries : List (Nat × SpecResult)}
    (h : SpecsHistory plan aborted items hs entries) (halive : (aborted || foundDead hs) = false) :
    ∀ entry ∈ entries, ∃ item ∈ items, item.1 = entry.1 ∧ ∃ happened,
      SpecHistory plan item.2 false happened entry.2 ∧ foundDead happened = false ∧
        messages happened <:+: messages hs := by
  induction h with
  | nil => simp
  | @cons aborted item rest hs r hs' entries hspec _ ih =>
    rw [foundDead_append, specHappenings, foundDead_announcedAround, Bool.or_eq_false_iff,
      Bool.or_eq_false_iff] at halive
    obtain ⟨haborted, hfirst, hothers⟩ := halive
    rw [messages_append, specHappenings, messages_announcedAround]
    refine List.forall_mem_cons.mpr ⟨?_, ?_⟩
    · refine ⟨item, List.mem_cons_self, rfl, hs, haborted ▸ hspec, hfirst, ?_⟩
      exact (List.prefix_append _ _).isInfix
    · intro entry hentry
      obtain ⟨item', hitem', hposition, happened, hspec', halive', hwithin⟩ :=
        ih (by rw [haborted, hfirst, hothers]; rfl) entry hentry
      refine ⟨item', .tail _ hitem', hposition, happened, hspec', halive', ?_⟩
      exact hwithin.trans (List.suffix_append _ _).isInfix

section

variable {fleet : Fleet σ} {plan : Plan} {stream : Nat} {items : List Placed}
variable {runs : List (StreamRun σ)} {run : StreamRun σ} {o : StreamOutcome}

/-- A stream that hands in no failure was not refused by its runner. -/
theorem Worker.finish_unrefused {w : Worker σ} (ho : (w.finish fleet).outcome = some o)
    (hfaultless : Faultless o) : w.refusal = none := by
  cases hrefusal : w.refusal with
  | none => rfl
  | some failure =>
    rw [Worker.finish_eq_close ho, (Worker.close_refused hrefusal).1] at ho
    obtain rfl := Option.some.inj ho
    cases hfaultless.hook

/-- A stream that hands in no failure did not lose its runner. -/
theorem StreamRun.Ended.not_aborted (h : run.Ended fleet plan stream items)
    (ho : run.outcome = some o) (hfaultless : Faultless o) : run.aborted = false := by
  rw [← Bool.not_eq_true]
  intro hlost
  obtain ⟨entry, hentry, hfailed⟩ := h.dead_failed ho hlost
  rw [hfaultless.results entry hentry] at hfailed
  cases hfailed

/-- What a stream hands in without a failure is for specifications that it ran, or that it was
assigned in vain. -/
theorem StreamRun.Ended.fates (h : run.Ended fleet plan stream items) (hrun : run ∈ runs)
    (ho : run.outcome = some o) (hfaultless : Faultless o) :
    ∀ entry ∈ o.results, ∃ item ∈ items, item.1 = entry.1 ∧ Fate fleet plan runs item entry.2 := by
  have hlives := h.not_aborted ho hfaultless
  cases h with
  | unstarted hstart =>
    obtain rfl := Option.some.inj ho
    intro entry hentry
    obtain ⟨item, hitem, rfl⟩ := List.mem_map.mp hentry
    exact ⟨item, hitem, rfl, .unstarted hstart hrun hitem⟩
  | @finished runner w hstart hw =>
    have hnone := Worker.finish_unrefused ho hfaultless
    cases hw with
    | refused hreport =>
      have hrefusal := openWorker_refusal fleet.toBehavior plan stream runner
      rw [hreport, if_pos rfl] at hrefusal
      exact absurd (hrefusal.symm.trans hnone) (Option.some_ne_none _)
    | @serving _ hs _ hserves hhappens hspecs =>
      have haborted : w.session.aborted = (false || foundDead hs) := hhappens.aborted_eq
      rw [Worker.finish_eq_close ho, Worker.close_aborted, haborted] at hlives
      have hoffers : messages hs <:+: (w.finish fleet).offers := by
        obtain ⟨ending, -, hoffers⟩ := Worker.close_offers (b := fleet.toBehavior) hserves
        rw [Worker.finish_eq_close ho, hoffers, hhappens.offers_eq]
        exact List.infix_append _ _ _
      rw [Worker.finish_outcome ho]
      intro entry hentry
      obtain ⟨item, hitem, hposition, happened, hspec, halive, hwithin⟩ :=
        hspecs.each hlives entry hentry
      refine ⟨item, hitem, hposition, ?_⟩
      rcases hspec.illFormed_or_block with ⟨errors, herrors, hresult⟩ | hblock
      · rw [hresult]
        exact .illFormed herrors
      · exact .takenUp hrun hspec halive hblock (hwithin.trans hoffers)

/-! ## What no stream reports -/

/-- A stream that hands in no failure and could take nothing had no runner. -/
theorem StreamRun.Ended.unstarted_of_spent (h : run.Ended fleet plan stream items)
    (hspent : run.Spent fleet) (ho : run.outcome = some o) (hfaultless : Faultless o) :
    ∃ stream items e, fleet.start stream = .error e ∧ run = .unstarted stream items e := by
  have hlives := h.not_aborted ho hfaultless
  cases hspent with
  | unstarted hstart => exact ⟨_, _, _, hstart, rfl⟩
  | @unready w hready =>
    -- it was not ready, so its runner had refused or was dead
    rw [Worker.finish_eq_close ho, Worker.close_aborted] at hlives
    simp [Worker.isReady, Worker.finish_unrefused ho hfaultless, hlives] at hready

/-- A specification that no stream reports was lost with a stream whose task broke down, or waited
when no stream could take more. -/
theorem Distributed.unreported_cases {work : Work} {waiting : List Placed}
    (h : Distributed fleet plan work waiting runs) :
    ∀ entry ∈ (unreported plan (runs.filterMap (·.outcome))).results,
      ∃ item ∈ plan.indexed, entry = leftOut unreportedReason item ∧
        ((∃ run ∈ runs, run.outcome = none) ∨ ∀ run ∈ runs, run.Spent fleet) := by
  intro entry hentry
  obtain ⟨item, hmissing, rfl⟩ := List.mem_map.mp hentry
  obtain ⟨hitem, hunreported⟩ := List.mem_filter.mp hmissing
  refine ⟨item, hitem, rfl, ?_⟩
  by_cases hlost : ∃ run ∈ runs, run.outcome = none
  · exact .inl hlost
  · rcases List.mem_append.mp (h.all.symm.subset hitem) with htaken | hwaits
    · -- the stream that took it reports it
      obtain ⟨share, hshare, htaken⟩ := List.mem_flatMap.mp htaken
      obtain ⟨run, hrun, hended⟩ := forall₂_mem_right h.ended.flip hshare
      obtain ⟨o, ho⟩ := Option.ne_none_iff_exists'.mp fun hnone => hlost ⟨run, hrun, hnone⟩
      have hposition : item.1 ∈ o.results.map (·.1) := by
        rw [StreamRun.Follows.positions_eq hended.follows ho]
        exact List.mem_map_of_mem htaken
      have hreported : item.1 ∈ (runs.filterMap (·.outcome)).flatMap fun o =>
          o.results.map (·.1) :=
        List.mem_flatMap.mpr ⟨o, List.mem_filterMap.mpr ⟨run, hrun, ho⟩, hposition⟩
      simp [hreported] at hunreported
    · exact .inr (h.spent.resolve_left (List.ne_nil_of_mem hwaits))

/-- If the streams hand in no failure, a specification is added as not executed only because the
task of a stream broke down, or because no runner started. -/
theorem Distributed.unreported_fate {work : Work} {waiting : List Placed}
    (h : Distributed fleet plan work waiting runs)
    (hfaultless : ∀ o ∈ runs.filterMap (·.outcome), Faultless o) :
    ∀ entry ∈ (unreported plan (runs.filterMap (·.outcome))).results,
      ∃ item ∈ plan.indexed, item.1 = entry.1 ∧ Fate fleet plan runs item entry.2 := by
  intro entry hentry
  obtain ⟨item, hitem, rfl, hcause⟩ := h.unreported_cases entry hentry
  refine ⟨item, hitem, rfl, .unreported ?_⟩
  by_cases hlost : ∃ run ∈ runs, run.outcome = none
  · exact .inl hlost
  · refine .inr fun run hrun => ?_
    obtain ⟨o, ho⟩ := Option.ne_none_iff_exists'.mp fun hnone => hlost ⟨run, hrun, hnone⟩
    obtain ⟨share, -, hended⟩ := forall₂_mem_right h.ended hrun
    exact hended.unstarted_of_spent (hcause.resolve_left hlost run hrun) ho
      (hfaultless o (List.mem_filterMap.mpr ⟨run, hrun, ho⟩))

end

/-! ## Runs -/

theorem completed_cases {plan : Plan} {runs : List (StreamRun σ)} {o : StreamOutcome}
    (h : o ∈ completed plan runs) :
    (∃ run ∈ runs, run.outcome = some o) ∨ o = unreported plan (runs.filterMap (·.outcome)) := by
  simp only [completed] at h
  split at h
  · exact .inl (List.mem_filterMap.mp h)
  · exact (List.mem_append.mp h).imp List.mem_filterMap.mp List.mem_singleton.mp

/-- If a completed run hands in no failure, each of its entries is for a specification of the
collection, which has one of the fates. -/
theorem Distributed.fates {fleet : Fleet σ} {plan : Plan} {runs : List (StreamRun σ)} {work : Work}
    {waiting : List Placed} {o : StreamOutcome} (h : Distributed fleet plan work waiting runs)
    (hfaultless : ∀ o ∈ completed plan runs, Faultless o) (ho : o ∈ completed plan runs) :
    ∀ entry ∈ o.results, ∃ item ∈ plan.indexed, item.1 = entry.1 ∧
      Fate fleet plan runs item entry.2 := by
  rcases completed_cases ho with ⟨run, hrun, hends⟩ | rfl
  · obtain ⟨share, hshare, hended⟩ := forall₂_mem_right h.ended hrun
    intro entry hentry
    obtain ⟨item, hitem, hfate⟩ := hended.fates hrun hends (hfaultless o ho) entry hentry
    exact ⟨item, (h.ordered share hshare).subset hitem, hfate⟩
  · refine h.unreported_fate fun o ho => ?_
    obtain ⟨run, hrun, hends⟩ := List.mem_filterMap.mp ho
    exact hfaultless o (mem_completed hrun hends)

/-- In a run whose verdict is success every specification of the collection has one of four fates.
It has build errors; or it was run, while the runner of its stream lived; or it was assigned to a
stream whose runner did not start; or it is reported by no stream, the task of one having broken
down or no runner having started. -/
theorem success_fates (fleet : Fleet σ) (plan : Plan) (order : Nat → Nat)
    (hsuccess : Result.verdict (runSuite fleet plan order).result true = .success) :
    ∃ entries : List (Nat × SpecResult),
      entries.map (·.2) = (runSuite fleet plan order).result.specs ∧
      (entries.map (·.1)).Perm (List.range plan.specs.length) ∧
      ∀ entry ∈ entries, ∃ spec, plan.specs[entry.1]? = some spec ∧
        Fate fleet plan (runSuite fleet plan order).streams (entry.1, spec) entry.2 := by
  obtain ⟨-, hpassed⟩ := (verdict_success_iff _ _).mp hsuccess
  have hfaultless := merge_faultless hpassed
  obtain ⟨work, waiting, hdistributed⟩ := runStreams_distributed fleet plan order
  obtain ⟨-, hpositions⟩ := completed_covers (runStreams_accounts fleet plan order)
  obtain ⟨entries, hperm, hspecs⟩ :=
    merge_specs (completed plan (runStreams fleet plan order)) 0
  refine ⟨entries, hspecs.symm, ?_, ?_⟩
  · refine (hperm.map (·.1)).trans ?_
    rw [List.map_flatMap]
    exact hpositions
  · intro entry hentry
    obtain ⟨o, ho, hentry⟩ := List.mem_flatMap.mp (hperm.subset hentry)
    obtain ⟨⟨i, spec⟩, hitem, rfl, hfate⟩ := hdistributed.fates hfaultless ho entry hentry
    exact ⟨spec, mem_indexed.mp hitem, hfate⟩

/-- A runner that passes everything. -/
def passingFleet : Fleet Unit where
  alive _ := true
  answer _ _ := (.ok (.statusResponse {}), ())
  kill _ := (.ok (), ())
  start _ := .ok ()

/-- A run in which everything passes is a success, and all of its specifications have a fate. -/
theorem passing_run_fates :
    Result.verdict (runSuite passingFleet twoSpecs id).result true = .success ∧
      ∃ entries : List (Nat × SpecResult),
        entries.map (·.2) = (runSuite passingFleet twoSpecs id).result.specs ∧
        ∀ entry ∈ entries, ∃ spec, twoSpecs.specs[entry.1]? = some spec ∧
          Fate passingFleet twoSpecs (runSuite passingFleet twoSpecs id).streams (entry.1, spec)
            entry.2 := by
  have hsuccess : Result.verdict (runSuite passingFleet twoSpecs id).result true = .success := by
    refine (verdict_success_iff _ _).mpr ⟨rfl, ?_⟩
    rw [← Bool.not_eq_true]
    exact mt (merge_failed_iff _ _).mp (by decide +kernel)
  obtain ⟨entries, hspecs, -, hfates⟩ := success_fates passingFleet twoSpecs id hsuccess
  exact ⟨hsuccess, entries, hspecs, hfates⟩

/-! ## Runs without a runner -/

/-- A run on one stream whose runner does not start leaves out all that it was given, and has no
failure to show for it. -/
theorem runSequential_unstarted {fleet : Fleet σ} (plan : Plan) {e : ProtocolError}
    (hstart : fleet.start 0 = .error e) :
    Result.merge (completed plan (runSequential fleet plan)) 0 =
      .ofSpecs (plan.indexed.map fun item => .notExecuted item.2 e.text []) 0 none := by
  have hrun : runSequential fleet plan = [.unstarted 0 plan.indexed e] := by
    rw [runSequential, runAssigned, hstart]
  have hposition : ∀ item, (leftOut e.text item).1 = item.1 := fun _ => rfl
  rw [hrun]
  exact result_of_shares [(plan.indexed, 0)] (List.cons_ne_nil _ _) (by simp)
    (List.pairwise_singleton _ _) hposition rfl 0

/-- A fleet whose runners do not start. -/
def absentFleet : Fleet Unit where
  alive _ := false
  answer _ _ := (.error .unreachable, ())
  kill _ := (.ok (), ())
  start _ := .error (.startup "no such program")

/-- A run without a runner is a success, though it left out all that it was given. -/
theorem absent_runner_succeeds :
    Result.verdict (runSuite absentFleet twoSpecs id).result true = .success ∧
      (runSuite absentFleet twoSpecs id).result.specs =
        [.notExecuted (oneStepSpec "first") "failed to start runner: no such program" [],
          .notExecuted (oneStepSpec "second") "failed to start runner: no such program" []] ∧
      ∀ spec ∈ twoSpecs.specs, twoSpecs.buildErrors.ofSpec spec = none := by
  have hresult : (runSuite absentFleet twoSpecs id).result = _ :=
    runSequential_unstarted twoSpecs rfl
  rw [hresult]
  exact ⟨by decide +kernel, rfl, by decide⟩

end SpecEngine.Engine
