/-
# SpecEngine.Proofs.Isolation -- what one stream does to the others

Streams that were assigned their specifications have nothing in common, so a runner that fails to
start, refuses, dies or answers differently makes no difference to the results of the other streams.
Two runs are compared whose runners behave alike on all streams but one. On the others the sessions
stay in step, so these streams hand in the same.

What is left is the place of a result. The merged result orders by stream and position, and stable
sorting commutes with leaving entries out, so the results of the other streams come in the same
order in both runs. They stand at the same places as long as the stream hands in an outcome in both
runs or in neither. If its task breaks down in one of them only, its specifications are there added
after those of all streams, and what stood behind them moves up.
-/
import Mathlib.Data.List.Nodup
import SpecEngine.Proofs.Agreement
import SpecEngine.Proofs.Merging
import SpecEngine.Proofs.Success

/-! ## Runners that behave alike -/

namespace SpecEngine.Runner

variable {σ τ : Type}

/-- Two runners behave alike: after the same messages both live or neither does, both give the same
answer to the next message, and both leave their stream's task whole or broken at the same message.
-/
structure BehaveAlike (fleet : Fleet σ) (fleet' : Fleet τ) (runner : σ) (runner' : τ) : Prop where
  alive : ∀ ms, fleet.alive (fleet.after runner ms) = fleet'.alive (fleet'.after runner' ms)
  answer : ∀ ms m,
    (fleet.answer (fleet.after runner ms) m).1 = (fleet'.answer (fleet'.after runner' ms) m).1
  broken : ∀ ms, fleet.brokenAt (fleet.kill (fleet.after runner ms)).2 =
    fleet'.brokenAt (fleet'.kill (fleet'.after runner' ms)).2

/-- Runners that behave alike still do so after a message. -/
theorem BehaveAlike.told {fleet : Fleet σ} {fleet' : Fleet τ} {runner : σ} {runner' : τ}
    (h : BehaveAlike fleet fleet' runner runner') (m : Message) :
    BehaveAlike fleet fleet' (fleet.answer runner m).2 (fleet'.answer runner' m).2 where
  alive ms := h.alive (m :: ms)
  answer ms := h.answer (m :: ms)
  broken ms := h.broken (m :: ms)

/-- The runners of a stream fail to start with one error, or start and behave alike. -/
inductive Fleet.StartsAlike (fleet : Fleet σ) (fleet' : Fleet τ) (stream : Nat) : Prop
  | absent {e : ProtocolError} : fleet.start stream = .error e → fleet'.start stream = .error e →
      fleet.StartsAlike fleet' stream
  | started {runner : σ} {runner' : τ} : fleet.start stream = .ok runner →
      fleet'.start stream = .ok runner' → BehaveAlike fleet fleet' runner runner' →
      fleet.StartsAlike fleet' stream

/-- The runners behave alike on every stream but one. -/
def Fleet.AlikeBut (fleet : Fleet σ) (fleet' : Fleet τ) (stream : Nat) : Prop :=
  ∀ other, other ≠ stream → fleet.StartsAlike fleet' other

end SpecEngine.Runner

namespace SpecEngine.Engine

open Result (SpecResult Failure StreamOutcome)
open Runner (Behavior Fleet Message BehaveAlike)

variable {σ τ α : Type}

/-! ## Streams in step -/

section

variable {fleet : Fleet σ} {fleet' : Fleet τ}

/-- Two sessions of one stream whose runners behave alike. -/
structure Session.InStep (fleet : Fleet σ) (fleet' : Fleet τ) (s : Session σ) (t : Session τ) :
    Prop where
  stream_eq : s.stream = t.stream
  aborted_eq : s.aborted = t.aborted
  runners : BehaveAlike fleet fleet' s.runner t.runner

/-- Whatever the engine does, runners that behave alike keep two sessions in step. -/
theorem inStep_lockstep (fleet : Fleet σ) (fleet' : Fleet τ) :
    Lockstep fleet.toBehavior fleet'.toBehavior (Session.InStep fleet fleet') where
  offer m _ _ h := ⟨h.runners.answer [] m, h.stream_eq, h.aborted_eq, h.runners.told m⟩
  noticeDeath s t h := by
    have halive : fleet.alive s.runner = fleet'.alive t.runner := h.runners.alive []
    refine ⟨rfl, h.stream_eq, ?_, h.runners⟩
    simp only [noticeDeath, h.aborted_eq, halive]
  announce _ _ _ _ _ h := ⟨rfl, h.stream_eq, h.aborted_eq, h.runners⟩
  isAborted _ _ h := ⟨h.aborted_eq, h⟩

/-- Two workers of one stream that hold the same and whose sessions are in step. -/
structure Worker.InStep (fleet : Fleet σ) (fleet' : Fleet τ) (w : Worker σ) (v : Worker τ) :
    Prop where
  session : w.session.InStep fleet fleet' v.session
  refusal_eq : w.refusal = v.refusal
  results_eq : w.results = v.results

theorem openWorker_inStep (plan : Plan) (stream : Nat) {runner : σ} {runner' : τ}
    (h : BehaveAlike fleet fleet' runner runner') :
    (openWorker fleet.toBehavior plan stream runner).InStep fleet fleet'
      (openWorker fleet'.toBehavior plan stream runner') := by
  have hstart : ({ stream := stream, runner := runner } : Session σ).InStep fleet fleet'
      { stream := stream, runner := runner' } := ⟨rfl, rfl, h⟩
  obtain ⟨hanswer, hsession⟩ :=
    (inStep_lockstep fleet fleet').offer (.executionStarting (.ofNat stream) plan.args) hstart
  refine ⟨hsession, ?_, rfl⟩
  -- the opening is refused by the answer alone
  exact congrArg (fun answer => if (Runner.reportOf answer).failed then
    some (Failure.ofReport (Runner.reportOf answer) "before suite hook failed") else none) hanswer

namespace Worker.InStep

variable {w : Worker σ} {v : Worker τ}

theorem take (h : w.InStep fleet fleet' v) (plan : Plan) (item : Placed) :
    (w.take fleet.toBehavior plan item).InStep fleet fleet'
      (v.take fleet'.toBehavior plan item) := by
  have hspec : Coupled (Session.InStep fleet fleet') Eq
      (announcedSpec fleet.toBehavior plan item.2) (announcedSpec fleet'.toBehavior plan item.2) :=
    (inStep_lockstep fleet fleet').announcedSpec (.refl plan) rfl
  obtain ⟨hresult, hsession⟩ := hspec h.session
  refine ⟨hsession, h.refusal_eq, ?_⟩
  show w.results ++ [(item.1, (announcedSpec _ plan item.2 w.session).1)] =
    v.results ++ [(item.1, (announcedSpec _ plan item.2 v.session).1)]
  rw [h.results_eq, hresult]

theorem takeAll (h : w.InStep fleet fleet' v) (plan : Plan) (items : List Placed) :
    (items.foldl (fun w item => w.take fleet.toBehavior plan item) w).InStep fleet fleet'
      (items.foldl (fun v item => v.take fleet'.toBehavior plan item) v) := by
  induction items generalizing w v with
  | nil => exact h
  | cons item rest ih => exact ih (h.take plan item)

theorem takeAssigned (h : w.InStep fleet fleet' v) (plan : Plan) (items : List Placed) :
    (w.takeAssigned fleet.toBehavior plan items).InStep fleet fleet'
      (v.takeAssigned fleet'.toBehavior plan items) := by
  cases hrefusal : w.refusal with
  | some failure =>
    rw [takeAssigned_refused hrefusal, takeAssigned_refused (h.refusal_eq.symm.trans hrefusal)]
    exact ⟨h.session, h.refusal_eq, rfl⟩
  | none =>
    rw [takeAssigned_serving _ _ hrefusal,
      takeAssigned_serving _ _ (h.refusal_eq.symm.trans hrefusal)]
    exact h.takeAll plan items

end Worker.InStep

theorem announceEnd_inStep {s : Session σ} {t : Session τ} (h : s.InStep fleet fleet' t) :
    (announceEnd fleet.toBehavior s).1 = (announceEnd fleet'.toBehavior t).1 ∧
      (announceEnd fleet.toBehavior s).2.InStep fleet fleet'
        (announceEnd fleet'.toBehavior t).2 := by
  have halive : fleet.alive s.runner = fleet'.alive t.runner := h.runners.alive []
  rw [announceEnd, announceEnd, get_bind_run, get_bind_run, halive, h.stream_eq]
  refine Coupled.ite (fun _ => ?_) (fun _ => .pure rfl) h
  exact ((inStep_lockstep fleet fleet').offer _).bindEq fun answer => .pure rfl

/-- Streams in step hand in the same when they end. -/
theorem Worker.InStep.finish_outcome {w : Worker σ} {v : Worker τ} (h : w.InStep fleet fleet' v) :
    (w.finish fleet).outcome = (v.finish fleet').outcome := by
  have hclose : (w.close fleet.toBehavior).outcome = (v.close fleet'.toBehavior).outcome ∧
      (w.close fleet.toBehavior).runner.bind fleet.brokenAt =
        (v.close fleet'.toBehavior).runner.bind fleet'.brokenAt := by
    cases hrefusal : w.refusal with
    | some failure =>
      have hrefusal' := h.refusal_eq.symm.trans hrefusal
      simp only [Worker.close, hrefusal, hrefusal', killRunner]
      refine ⟨?_, h.session.runners.broken []⟩
      show some (StreamOutcome.mk w.session.stream _ _) = some ⟨v.session.stream, _, _⟩
      rw [h.session.stream_eq, h.results_eq]
    | none =>
      have hrefusal' := h.refusal_eq.symm.trans hrefusal
      obtain ⟨hfailure, hsession⟩ := announceEnd_inStep h.session
      simp only [Worker.close, hrefusal, hrefusal', killRunner]
      refine ⟨?_, hsession.runners.broken []⟩
      show some (StreamOutcome.mk (announceEnd _ w.session).2.stream _ _) =
        some ⟨(announceEnd _ v.session).2.stream, _, _⟩
      rw [hsession.stream_eq, h.results_eq, hfailure]
  -- whether the task breaks down is seen when the runner is killed, which is in step as well
  simp only [Worker.finish, hclose.2]
  cases (v.close fleet'.toBehavior).runner.bind fleet'.brokenAt with
  | none => exact hclose.1
  | some count => rfl

/-- A stream whose runners behave alike in two runs hands in the same in both. -/
theorem runAssigned_alike {stream : Nat} (h : fleet.StartsAlike fleet' stream) (plan : Plan)
    (items : List Placed) :
    (runAssigned fleet plan stream items).outcome =
      (runAssigned fleet' plan stream items).outcome := by
  cases h with
  | absent hstart hstart' =>
    simp only [runAssigned, hstart, hstart']
    rfl
  | started hstart hstart' halike =>
    simp only [runAssigned, hstart, hstart']
    exact ((openWorker_inStep plan stream halike).takeAssigned plan items).finish_outcome

end

/-! ## The other streams -/

/-- The specifications that are assigned to a stream. -/
def Plan.assigned (plan : Plan) (stream : Nat) : List Placed :=
  ((partition plan.indexed plan.streamCount)[stream]?).getD []

/-- Whether the specification at a position is not assigned to the stream. -/
def Plan.isElsewhere (plan : Plan) (stream i : Nat) : Bool :=
  !((plan.assigned stream).map (·.1)).contains i

theorem shares_assigned {plan : Plan} {share : List Placed × Nat} (h : share ∈ plan.shares) :
    share.1 = plan.assigned share.2 := by
  have hmem := List.mem_zipIdx_iff_getElem?.mp (List.mem_of_mem_filter h)
  rw [Plan.assigned, hmem, Option.getD_some]

/-- What a stream hands in bears its number and reports what it was assigned, in that order. -/
theorem runAssigned_layout {fleet : Fleet σ} {plan : Plan} {stream : Nat} {items : List Placed}
    {o : StreamOutcome} (ho : (runAssigned fleet plan stream items).outcome = some o) :
    layout o = (stream, items.map (·.1)) := by
  have hfollows := (runAssigned_ended fleet plan stream items).follows
  obtain ⟨trace, hhistory⟩ := hfollows.history ho
  have hstream : o.stream = stream := by cases hhistory <;> rfl
  rw [layout, hstream, reportedPositions, hfollows.positions_eq ho]

theorem runAssigned_positions {fleet : Fleet σ} {plan : Plan} {stream : Nat} {items : List Placed}
    {o : StreamOutcome} (ho : (runAssigned fleet plan stream items).outcome = some o) :
    reportedPositions o = items.map (·.1) := congrArg Prod.snd (runAssigned_layout ho)

/-- What the streams of an eager run hand in. -/
def eagerOutcomes (fleet : Fleet σ) (plan : Plan) : List StreamOutcome :=
  plan.shares.flatMap fun share => (runAssigned fleet plan share.2 share.1).outcome.toList

theorem runEager_outcomes (fleet : Fleet σ) (plan : Plan) :
    (runEager fleet plan).filterMap (·.outcome) = eagerOutcomes fleet plan := by
  rw [runEager_eq, List.filterMap_map, List.filterMap_eq_flatMap_toList]
  rfl

/-- What is left of a completed list does not depend on whether something had to be added. -/
theorem restricted_completed (keep : Nat → Bool) (plan : Plan) (streams : List (StreamRun σ)) :
    restricted keep (completed plan streams) =
      restricted keep (streams.filterMap (·.outcome)) ++
        restricted keep [unreported plan (streams.filterMap (·.outcome))] := by
  simp only [completed]
  split
  next hempty =>
    rw [List.isEmpty_iff] at hempty
    have hnone : restricted keep [unreported plan (streams.filterMap (·.outcome))] = [] := by
      simp [restricted, onlyAt, hempty]
    rw [hnone, List.append_nil]
  next => exact restricted_append keep _ _

section

variable {fleet : Fleet σ} {fleet' : Fleet τ} {stream : Nat}

/-- What a stream hands in for its own specifications is left out. -/
theorem restricted_assigned {plan : Plan} {o : StreamOutcome}
    (ho : (runAssigned fleet plan stream (plan.assigned stream)).outcome = some o) :
    restricted (plan.isElsewhere stream) [o] = [] := by
  have hnone : (onlyAt (plan.isElsewhere stream) o).results = [] := by
    refine List.filter_eq_nil_iff.mpr fun entry hentry => ?_
    have hposition : entry.1 ∈ (plan.assigned stream).map (·.1) := by
      rw [← runAssigned_positions ho]
      exact List.mem_map_of_mem hentry
    rw [Plan.isElsewhere, List.contains_iff_mem.mpr hposition]
    decide
  simp [restricted, hnone]

/-- Apart from the specifications of one stream the streams hand in the same. -/
theorem restricted_outcomes (h : fleet.AlikeBut fleet' stream) (plan : Plan) :
    restricted (plan.isElsewhere stream) (eagerOutcomes fleet plan) =
      restricted (plan.isElsewhere stream) (eagerOutcomes fleet' plan) := by
  have hown : ∀ {υ : Type} (fleet : Fleet υ), restricted (plan.isElsewhere stream)
      (runAssigned fleet plan stream (plan.assigned stream)).outcome.toList = [] := by
    intro υ fleet
    cases ho : (runAssigned fleet plan stream (plan.assigned stream)).outcome with
    | none => rfl
    | some o => exact restricted_assigned ho
  rw [eagerOutcomes, eagerOutcomes, restricted_flatMap, restricted_flatMap]
  -- nothing is left of the stream's own share in either run, and the others hand in the same
  refine List.flatMap_congr fun share hshare => ?_
  by_cases hstream : share.2 = stream
  · rw [shares_assigned hshare, hstream, hown, hown]
  · rw [runAssigned_alike (h share.2 hstream)]

/-- A position is reported if the stream that it is assigned to hands something in. -/
theorem mem_eagerOutcomes {plan : Plan} {i : Nat} :
    i ∈ (eagerOutcomes fleet plan).flatMap reportedPositions ↔
      ∃ share ∈ plan.shares, (runAssigned fleet plan share.2 share.1).outcome.isSome = true ∧
        i ∈ share.1.map (·.1) := by
  simp only [eagerOutcomes, List.flatMap_assoc, List.mem_flatMap, Option.mem_toList]
  refine exists_congr fun share => and_congr_right fun _ => ?_
  constructor
  · rintro ⟨o, ho, hi⟩
    exact ⟨by simp [ho], runAssigned_positions ho ▸ hi⟩
  · rintro ⟨hsome, hi⟩
    obtain ⟨o, ho⟩ := Option.isSome_iff_exists.mp hsome
    exact ⟨o, ho, runAssigned_positions ho ▸ hi⟩

/-- Apart from the specifications of one stream the same positions are reported. -/
theorem reported_elsewhere (h : fleet.AlikeBut fleet' stream) {plan : Plan} {i : Nat}
    (hi : plan.isElsewhere stream i = true) :
    i ∈ (eagerOutcomes fleet plan).flatMap reportedPositions ↔
      i ∈ (eagerOutcomes fleet' plan).flatMap reportedPositions := by
  rw [mem_eagerOutcomes, mem_eagerOutcomes]
  refine exists_congr fun share => and_congr_right fun hshare => and_congr_left fun hmem => ?_
  by_cases hstream : share.2 = stream
  · -- the position would be one of that stream
    rw [shares_assigned hshare, hstream] at hmem
    rw [Plan.isElsewhere, List.contains_iff_mem.mpr hmem] at hi
    cases hi
  · rw [runAssigned_alike (h share.2 hstream)]

/-- Apart from the specifications of one stream the same are added as not executed. -/
theorem restricted_unreported (h : fleet.AlikeBut fleet' stream) (plan : Plan) :
    restricted (plan.isElsewhere stream) [unreported plan (eagerOutcomes fleet plan)] =
      restricted (plan.isElsewhere stream) [unreported plan (eagerOutcomes fleet' plan)] := by
  have hresults : onlyAt (plan.isElsewhere stream) (unreported plan (eagerOutcomes fleet plan)) =
      onlyAt (plan.isElsewhere stream) (unreported plan (eagerOutcomes fleet' plan)) := by
    simp only [onlyAt, unreported, List.filter_map, List.filter_filter]
    congr 2
    refine List.filter_congr fun item _ => ?_
    show (plan.isElsewhere stream item.1 && _) = (plan.isElsewhere stream item.1 && _)
    cases hi : plan.isElsewhere stream item.1 with
    | false => rw [Bool.false_and, Bool.false_and]
    | true =>
      have hreported := reported_elsewhere h hi
      rw [← List.contains_iff_mem, ← List.contains_iff_mem, ← Bool.eq_iff_iff] at hreported
      exact congrArg (fun reported => true && !reported) hreported
  rw [restricted, restricted, List.map_singleton, List.map_singleton, hresults]

/-! ## Places -/

/-- Whether the stream has specifications and its task breaks down, so that it hands in nothing. -/
def breaksDown (fleet : Fleet σ) (plan : Plan) (stream : Nat) : Bool :=
  !(plan.assigned stream).isEmpty &&
    (runAssigned fleet plan stream (plan.assigned stream)).outcome.isNone

/-- If the stream breaks down in both runs or in neither, streams of the same numbers report the
same positions. -/
theorem eagerOutcomes_layout (h : fleet.AlikeBut fleet' stream) {plan : Plan}
    (hbreaks : breaksDown fleet plan stream = breaksDown fleet' plan stream) :
    (eagerOutcomes fleet plan).map layout = (eagerOutcomes fleet' plan).map layout := by
  have heach : ∀ {υ : Type} (fleet : Fleet υ) (number : Nat) (items : List Placed),
      (runAssigned fleet plan number items).outcome.toList.map layout =
      if (runAssigned fleet plan number items).outcome.isNone then []
        else [(number, items.map (·.1))] := by
    intro υ fleet number items
    cases ho : (runAssigned fleet plan number items).outcome with
    | none => rfl
    | some o => exact congrArg (fun l => [l]) (runAssigned_layout ho)
  rw [eagerOutcomes, eagerOutcomes, List.map_flatMap, List.map_flatMap]
  refine List.flatMap_congr fun share hshare => ?_
  by_cases hstream : share.2 = stream
  · -- only streams with specifications have a share, so the hypothesis speaks of this one
    have hsome : share.1.isEmpty = false := by
      simpa using (List.mem_filter.mp hshare).2
    simp only [breaksDown, ← hstream, ← shares_assigned hshare, hsome, Bool.not_false,
      Bool.true_and] at hbreaks
    rw [heach, heach, hbreaks]
  · rw [runAssigned_alike (h share.2 hstream)]

/-- What is added as not executed is determined by the positions that are reported. -/
theorem completed_layout {plan : Plan} {runs : List (StreamRun σ)} {runs' : List (StreamRun τ)}
    (h : (runs.filterMap (·.outcome)).map layout = (runs'.filterMap (·.outcome)).map layout) :
    (completed plan runs).map layout = (completed plan runs').map layout := by
  have hreported : (runs.filterMap (·.outcome)).flatMap reportedPositions =
      (runs'.filterMap (·.outcome)).flatMap reportedPositions := by
    have hflat := congrArg (List.flatMap fun o => o.2) h
    rwa [List.flatMap_map, List.flatMap_map] at hflat
  have hmissing : reportedPositions (unreported plan (runs.filterMap (·.outcome))) =
      reportedPositions (unreported plan (runs'.filterMap (·.outcome))) := by
    rw [unreported_positions, unreported_positions, hreported]
  have hempty : (unreported plan (runs.filterMap (·.outcome))).results.isEmpty =
      (unreported plan (runs'.filterMap (·.outcome))).results.isEmpty := by
    have hmap := congrArg List.isEmpty hmissing
    rwa [reportedPositions, reportedPositions, List.isEmpty_map, List.isEmpty_map] at hmap
  -- hence both runs have something to add or neither has
  simp only [completed, hempty]
  split
  next => exact h
  next =>
    have hlast : layout (unreported plan (runs.filterMap (·.outcome))) =
        layout (unreported plan (runs'.filterMap (·.outcome))) := by
      rw [layout, hmissing]
      rfl
    rw [List.map_append, List.map_append, h, List.map_singleton, List.map_singleton, hlast]

end

/-- Entries with the same positions in the same order, none twice, stand at the same places if both
lists have them. -/
theorem getElem?_of_positions {entries entries' : List (Nat × α)} {k i : Nat} {a : α}
    (hpositions : entries.map (·.1) = entries'.map (·.1)) (honce : (entries'.map (·.1)).Nodup)
    (hmem : (i, a) ∈ entries') (hk : entries[k]? = some (i, a)) : entries'[k]? = some (i, a) := by
  have hplace : (entries'.map (·.1))[k]? = some i := by
    rw [← hpositions, List.getElem?_map, hk]
    rfl
  rw [List.getElem?_map, Option.map_eq_some_iff] at hplace
  obtain ⟨entry, hentry, hi⟩ := hplace
  rw [hentry, List.inj_on_of_nodup_map honce (List.mem_of_getElem? hentry) hmem hi]

/-! ## Runs -/

/-- The results of a run with the positions of their specifications, in the order of the result. -/
def SuiteRun.entries (run : SuiteRun σ) (plan : Plan) : List (Nat × SpecResult) :=
  mergedEntries (completed plan run.streams)

/-- The entries are the results in their order; there is one for every position of the collection,
and it accounts for the specification there. -/
structure Enumerates (b : Behavior σ) (plan : Plan) (entries : List (Nat × SpecResult))
    (results : List SpecResult) : Prop where
  results_eq : entries.map (·.2) = results
  positions : (entries.map (·.1)).Perm (List.range plan.specs.length)
  accounted : ∀ entry ∈ entries, Accounted b plan entry

theorem runSuite_enumerates (fleet : Fleet σ) (plan : Plan) (order : Nat → Nat) :
    Enumerates fleet.toBehavior plan ((runSuite fleet plan order).entries plan)
      (runSuite fleet plan order).result.specs := by
  obtain ⟨haccounted, hpositions⟩ := completed_covers (runStreams_accounts fleet plan order)
  have hperm := mergedEntries_perm (completed plan (runStreams fleet plan order))
  refine ⟨(merge_specs_eq _ 0).symm, ?_, fun entry hentry => ?_⟩
  · refine (hperm.map (·.1)).trans ?_
    rw [List.map_flatMap]
    exact hpositions
  · obtain ⟨o, ho, hentry⟩ := List.mem_flatMap.mp (hperm.subset hentry)
    exact haccounted o ho entry hentry

/-- The entries that are not of the stream stand at the same places in both lists. -/
def SamePlaces (plan : Plan) (stream : Nat) (entries entries' : List (Nat × SpecResult)) : Prop :=
  ∀ (k i : Nat) (r : SpecResult), plan.isElsewhere stream i = true →
    (entries[k]? = some (i, r) ↔ entries'[k]? = some (i, r))

/-- In two parallel runs with contiguous groups whose runners behave alike on every stream but one,
the specifications that are not assigned to that stream have the same results, in the same order,
whatever the runner of the stream does. They stand at the same places in the suite results as long
as the task of the stream breaks down in both runs or in neither. -/
theorem streams_isolated {fleet : Fleet σ} {fleet' : Fleet τ} {stream : Nat}
    (halike : fleet.AlikeBut fleet' stream) (plan : Plan) (order order' : Nat → Nat) :
    let eager := plan.inParallel .eager
    let run := runSuite fleet eager order
    let run' := runSuite fleet' eager order'
    Enumerates fleet.toBehavior eager (run.entries eager) run.result.specs ∧
      Enumerates fleet'.toBehavior eager (run'.entries eager) run'.result.specs ∧
      ((run.entries eager).filter fun entry => eager.isElsewhere stream entry.1) =
        ((run'.entries eager).filter fun entry => eager.isElsewhere stream entry.1) ∧
      (breaksDown fleet eager stream = breaksDown fleet' eager stream →
        SamePlaces eager stream (run.entries eager) (run'.entries eager)) := by
  intro eager run run'
  have hlists := runSuite_enumerates fleet eager order
  have hlists' := runSuite_enumerates fleet' eager order'
  have houtcomes : run.streams.filterMap (·.outcome) = eagerOutcomes fleet eager :=
    runEager_outcomes fleet eager
  have houtcomes' : run'.streams.filterMap (·.outcome) = eagerOutcomes fleet' eager :=
    runEager_outcomes fleet' eager
  have hsame : ((run.entries eager).filter fun entry => eager.isElsewhere stream entry.1) =
      (run'.entries eager).filter fun entry => eager.isElsewhere stream entry.1 := by
    rw [SuiteRun.entries, SuiteRun.entries, mergedEntries_filter, mergedEntries_filter,
      restricted_completed, restricted_completed, houtcomes, houtcomes',
      restricted_outcomes halike, restricted_unreported halike]
  refine ⟨hlists, hlists', hsame, fun hbreaks k i r hi => ?_⟩
  have hpositions : (run.entries eager).map (·.1) = (run'.entries eager).map (·.1) := by
    refine mergedEntries_positions (completed_layout ?_)
    rw [houtcomes, houtcomes']
    exact eagerOutcomes_layout halike hbreaks
  -- an entry of one list that is not of the stream is one of the other
  have hmem : (i, r) ∈ run.entries eager ↔ (i, r) ∈ run'.entries eager := by
    have hfilter := congrArg (fun l => (i, r) ∈ l) hsame
    simpa [List.mem_filter, hi] using hfilter
  constructor
  · intro hk
    exact getElem?_of_positions hpositions
      (hlists'.positions.nodup_iff.mpr List.nodup_range)
      (hmem.mp (List.mem_of_getElem? hk)) hk
  · intro hk
    exact getElem?_of_positions hpositions.symm
      (hlists.positions.nodup_iff.mpr List.nodup_range)
      (hmem.mpr (List.mem_of_getElem? hk)) hk

/-! ### Two specifications on two streams -/

/-- A plan for two specifications, one for each of two streams. -/
def oneSpecEach : Plan := { twoSpecs with settings := { streams := 2 } }.inParallel .eager

/-- Runners that pass everything, of which the first does not start. -/
def firstAbsentFleet : Fleet Unit :=
  { passingFleet with
    start := fun stream => if stream = 0 then .error (.startup "no such program") else .ok () }

theorem firstAbsentFleet_alike : passingFleet.AlikeBut firstAbsentFleet 0 := by
  intro other hother
  refine .started rfl ?_ ⟨fun _ => rfl, fun _ _ => rfl, fun _ => rfl⟩
  exact if_neg hother

/-- A runner that does not start leaves the specification of the other stream in its place. -/
theorem absent_runner_isolated :
    passingFleet.AlikeBut firstAbsentFleet 0 ∧
      breaksDown passingFleet oneSpecEach 0 = breaksDown firstAbsentFleet oneSpecEach 0 ∧
      SamePlaces oneSpecEach 0 ((runSuite passingFleet oneSpecEach id).entries oneSpecEach)
        ((runSuite firstAbsentFleet oneSpecEach id).entries oneSpecEach) := by
  have hbreaks : breaksDown passingFleet oneSpecEach 0 =
      breaksDown firstAbsentFleet oneSpecEach 0 := by decide +kernel
  obtain ⟨-, -, -, hplaces⟩ := streams_isolated firstAbsentFleet_alike oneSpecEach id id
  exact ⟨firstAbsentFleet_alike, hbreaks, hplaces hbreaks⟩

/-- Runners that pass everything, of which the first makes the task of its stream break down. -/
def breakingFleet : Fleet Nat where
  alive _ := true
  answer stream _ := (.ok (.statusResponse {}), stream)
  kill stream := (.ok (), stream)
  start stream := .ok stream
  brokenAt stream := if stream = 0 then some 1 else none

theorem breakingFleet_after (stream : Nat) (ms : List Message) :
    breakingFleet.after stream ms = stream := by
  induction ms with
  | nil => rfl
  | cons m rest ih => exact ih

theorem breakingFleet_alike : passingFleet.AlikeBut breakingFleet 0 := by
  intro other hother
  refine .started rfl rfl ⟨fun _ => rfl, fun _ _ => rfl, fun ms => ?_⟩
  show none = if breakingFleet.after other ms = 0 then some 1 else none
  rw [breakingFleet_after, if_neg hother]

/-- A task that breaks down in one of two runs moves the specification of the other stream to the
front, although the other stream ran it in both. -/
theorem broken_task_moves_sibling :
    passingFleet.AlikeBut breakingFleet 0 ∧ oneSpecEach.isElsewhere 0 1 = true ∧
      (runSuite passingFleet oneSpecEach id).result.specs.map (·.heading) = ["first", "second"] ∧
      (runSuite breakingFleet oneSpecEach id).result.specs.map (·.heading) = ["second", "first"] ∧
      ¬SamePlaces oneSpecEach 0 ((runSuite passingFleet oneSpecEach id).entries oneSpecEach)
        ((runSuite breakingFleet oneSpecEach id).entries oneSpecEach) := by
  have helsewhere : oneSpecEach.isElsewhere 0 1 = true := by decide +kernel
  have hentries : (runSuite passingFleet oneSpecEach id).entries oneSpecEach =
      (completed oneSpecEach (runEager passingFleet oneSpecEach)).flatMap (·.results) :=
    mergedEntries_of_sorted (by decide +kernel) (by decide +kernel)
  have hentries' : (runSuite breakingFleet oneSpecEach id).entries oneSpecEach =
      (completed oneSpecEach (runEager breakingFleet oneSpecEach)).flatMap (·.results) :=
    mergedEntries_of_sorted (by decide +kernel) (by decide +kernel)
  have hplaces : ((runSuite passingFleet oneSpecEach id).entries oneSpecEach).map (·.1) =
      [0, 1] := by
    rw [hentries]
    decide +kernel
  have hplaces' : ((runSuite breakingFleet oneSpecEach id).entries oneSpecEach).map (·.1) =
      [1, 0] := by
    rw [hentries']
    decide +kernel
  refine ⟨breakingFleet_alike, helsewhere, ?_, ?_, ?_⟩
  · rw [← (runSuite_enumerates passingFleet oneSpecEach id).results_eq, hentries]
    decide +kernel
  · rw [← (runSuite_enumerates breakingFleet oneSpecEach id).results_eq, hentries']
    decide +kernel
  · -- the specification at position 1 is the second result of one run and the first of the other
    intro hsame
    have hsecond := congrArg (·[1]?) hplaces
    rw [List.getElem?_map, List.getElem?_cons_succ, List.getElem?_cons_zero,
      Option.map_eq_some_iff] at hsecond
    obtain ⟨⟨i, r⟩, hentry, hi⟩ := hsecond
    obtain rfl : i = 1 := hi
    have hmoved := congrArg (·[1]?) hplaces'
    rw [List.getElem?_map, (hsame 1 1 r helsewhere).mp hentry] at hmoved
    simp at hmoved

end SpecEngine.Engine
