/-
# SpecEngine.Proofs.Agreement -- parallel runs agree with sequential ones

For steady runners it makes no difference how work is shared out. Contiguous groups on any number of
streams give the result of a run on one stream. Streams that claim specifications from a queue give
it up to the order of the specifications, whatever the order of the claims, provided the opening
announcement passes; if it fails, streams with assigned work skip it for that reason, while a queue
is left to streams that are ready.

The results of a steady stream are known beforehand, so what is left to show is arithmetic of lists:
merging undoes the cutting into groups, and what streams claim is the collection but for its order.
-/
import SpecEngine.Proofs.Accounting
import SpecEngine.Proofs.Steady

namespace SpecEngine.Engine

open Item (Specification)
open Result (SpecResult SuiteResult Failure StreamOutcome)
open Runner (Behavior Fleet Message ProtocolError)

variable {σ : Type}

/-! ## Plans -/

/-- The plan, to be run on several streams. -/
def Plan.inParallel (plan : Plan) (strategy : Config.Strategy) : Plan :=
  { plan with settings := { plan.settings with parallel := true, strategy := strategy } }

/-- The plan, to be run on one stream. -/
def Plan.onOneStream (plan : Plan) : Plan :=
  { plan with settings := { plan.settings with parallel := false } }

theorem inParallel_sameWork (plan : Plan) (strategy : Config.Strategy) :
    (plan.inParallel strategy).SameWork plan := ⟨rfl, rfl, rfl, rfl⟩

theorem onOneStream_sameWork (plan : Plan) : plan.onOneStream.SameWork plan := ⟨rfl, rfl, rfl, rfl⟩

theorem steadyResult_congr (reply : Message → Except ProtocolError Message) {plan plan' : Plan}
    (same : plan.SameWork plan') (errors : plan.buildErrors = plan'.buildErrors) :
    steadyResult reply plan = steadyResult reply plan' := by
  funext spec
  exact ((Lockstep.refl (Fleet.answering reply).toBehavior).announcedSpec same errors rfl).1

theorem steadyEntry_congr (reply : Message → Except ProtocolError Message) {plan plan' : Plan}
    (same : plan.SameWork plan') (errors : plan.buildErrors = plan'.buildErrors)
    (args : plan.args = plan'.args) : steadyEntry reply plan = steadyEntry reply plan' := by
  funext item
  rw [steadyEntry, steadyEntry, steadyResult_congr reply same errors, openingFailure, args]
  rfl

/-! ## Merging -/

/-- Nothing is added to outcomes that report the collection. -/
theorem completed_of_entries {plan : Plan} {streams : List (StreamRun σ)}
    {entry : Placed → Nat × SpecResult} (hentry : ∀ item, (entry item).1 = item.1)
    (hall : ((streams.filterMap (·.outcome)).flatMap (·.results)).Perm
      (plan.indexed.map entry)) :
    completed plan streams = streams.filterMap (·.outcome) := by
  have hpositions : ((streams.filterMap (·.outcome)).flatMap reportedPositions).Perm
      (List.range plan.specs.length) := by
    have hfirst : (fun e : Nat × SpecResult => e.1) ∘ entry = (·.1) := funext hentry
    have hmap := hall.map (·.1)
    rw [List.map_flatMap, List.map_map, hfirst, indexed_positions] at hmap
    exact hmap
  have hnone : reportedPositions (unreported plan (streams.filterMap (·.outcome))) = [] := by
    rw [unreported_positions, List.filter_eq_nil_iff]
    intro i hi
    have hmem := hpositions.symm.subset hi
    simp [hmem]
  -- no position is left, so there is nothing to add
  rw [completed, if_pos (List.isEmpty_iff.mpr (List.map_eq_nil_iff.mp hnone))]

theorem findSome?_of_forall {α β : Type} {l : List α} {f : α → Option β} {o : Option β}
    (hne : l ≠ []) (h : ∀ a ∈ l, f a = o) : l.findSome? f = o := by
  cases o with
  | none => exact List.findSome?_eq_none_iff.mpr h
  | some b =>
    obtain _ | ⟨a, rest⟩ := l
    · contradiction
    · rw [List.findSome?_cons, h a List.mem_cons_self]

/-- The failure of a run whose streams all end with the same one. -/
theorem merge_failure {outcomes : List StreamOutcome} {failure : Option Failure}
    (hne : outcomes ≠ []) (hall : ∀ o ∈ outcomes, o.hookFailure = failure) (ms : Nat) :
    Result.merge outcomes ms = .ofSpecs (Result.merge outcomes ms).specs ms failure := by
  have hsort := List.mergeSort_perm outcomes fun a b => a.stream ≤ b.stream
  -- whichever stream comes first ends with the failure of all
  have hfailure : (outcomes.mergeSort fun a b => a.stream ≤ b.stream).findSome? (·.hookFailure) =
      failure := by
    apply findSome?_of_forall
    · intro hnil
      rw [hnil] at hsort
      exact hne (List.perm_nil.mp hsort.symm)
    · intro o ho
      exact hall o (hsort.subset ho)
  rw [Result.merge, hfailure]
  rfl

/-! ## Groups -/

theorem indexed_sorted (plan : Plan) :
    plan.indexed.Pairwise fun a b => a.1 ≤ b.1 := by
  have hrange : (plan.indexed.map (·.1)).Pairwise (· ≤ ·) := by
    rw [indexed_positions]
    exact List.pairwise_le_range
  exact List.pairwise_map.mp hrange

theorem shares_sorted (plan : Plan) : plan.shares.Pairwise fun a b => a.2 ≤ b.2 := by
  have hrange : ((partition plan.indexed plan.streamCount).zipIdx.map (·.2)).Pairwise (· ≤ ·) := by
    rw [List.zipIdx_map_snd]
    exact List.pairwise_le_range'
  exact (List.pairwise_map.mp hrange).sublist List.filter_sublist

theorem share_sorted {plan : Plan} {shares : List (List Placed × Nat)}
    (hflatten : (shares.map (·.1)).flatten = plan.indexed) {share : List Placed × Nat}
    (hshare : share ∈ shares) {entry : Placed → Nat × SpecResult}
    (hentry : ∀ item, (entry item).1 = item.1) :
    (share.1.map entry).mergeSort (fun a b => a.1 ≤ b.1) = share.1.map entry := by
  have hsub : share.1.Sublist plan.indexed :=
    hflatten ▸ List.sublist_flatten_of_mem (List.mem_map_of_mem hshare)
  refine List.mergeSort_of_pairwise (List.pairwise_map.mpr ?_)
  refine ((indexed_sorted plan).sublist hsub).imp fun h => ?_
  rw [hentry, hentry]
  exact decide_eq_true h

/-- Merging what streams hand in for contiguous shares of the collection puts the results in the
order of the collection. -/
theorem merge_shares {plan : Plan} {shares : List (List Placed × Nat)}
    (hflatten : (shares.map (·.1)).flatten = plan.indexed)
    (hsorted : shares.Pairwise fun a b => a.2 ≤ b.2) {entry : Placed → Nat × SpecResult}
    (hentry : ∀ item, (entry item).1 = item.1) (failure : Option Failure) (ms : Nat) :
    (Result.merge (shares.map fun share => ⟨share.2, share.1.map entry, failure⟩) ms).specs =
      plan.indexed.map fun item => (entry item).2 := by
  have hsort : (shares.map fun share =>
      (⟨share.2, share.1.map entry, failure⟩ : StreamOutcome)).mergeSort
        (fun a b => a.stream ≤ b.stream) =
      shares.map fun share => ⟨share.2, share.1.map entry, failure⟩ :=
    List.mergeSort_of_pairwise (List.pairwise_map.mpr (hsorted.imp decide_eq_true))
  have hordered : ∀ share ∈ shares,
      StreamOutcome.ordered ⟨share.2, share.1.map entry, failure⟩ =
        share.1.map fun item => (entry item).2 := by
    intro share hshare
    rw [StreamOutcome.ordered, share_sorted hflatten hshare hentry, List.map_map]
    rfl
  -- both sorts find their lists in order
  show ((shares.map _).mergeSort _).flatMap StreamOutcome.ordered = _
  rw [hsort, List.flatMap_map, List.flatMap_congr hordered, ← hflatten, List.map_flatten,
    List.map_map, List.flatMap_def]
  rfl

/-- The result of a run whose streams hand in what is known for contiguous shares. -/
theorem result_of_shares {plan : Plan} {streams : List (StreamRun σ)}
    (shares : List (List Placed × Nat)) (hne : shares ≠ [])
    (hflatten : (shares.map (·.1)).flatten = plan.indexed)
    (hsorted : shares.Pairwise fun a b => a.2 ≤ b.2) {entry : Placed → Nat × SpecResult}
    (hentry : ∀ item, (entry item).1 = item.1) {failure : Option Failure}
    (hstreams : streams.filterMap (·.outcome) =
      shares.map fun share => ⟨share.2, share.1.map entry, failure⟩) (ms : Nat) :
    Result.merge (completed plan streams) ms =
      .ofSpecs (plan.indexed.map fun item => (entry item).2) ms failure := by
  have hall : (streams.filterMap (·.outcome)).flatMap (·.results) = plan.indexed.map entry := by
    rw [hstreams, ← hflatten, List.map_flatten, List.map_map, List.flatMap_map, List.flatMap_def]
    rfl
  have hfailure : ∀ o ∈ shares.map fun share =>
      (⟨share.2, share.1.map entry, failure⟩ : StreamOutcome), o.hookFailure = failure := by
    intro o ho
    obtain ⟨share, -, rfl⟩ := List.mem_map.mp ho
    rfl
  rw [completed_of_entries hentry (.of_eq hall), hstreams,
    merge_failure (fun h => hne (List.map_eq_nil_iff.mp h)) hfailure,
    merge_shares hflatten hsorted hentry]

section

variable {fleet : Fleet σ} {reply : Message → Except ProtocolError Message}

theorem steadyEntry_position (plan : Plan) (item : Placed) :
    (steadyEntry reply plan item).1 = item.1 := by
  unfold steadyEntry
  split <;> rfl

/-- The result of a run on one stream with a steady runner. -/
theorem runSequential_steady (steady : fleet.Steady reply) (plan : Plan) :
    Result.merge (completed plan (runSequential fleet plan)) 0 =
      .ofSpecs (plan.indexed.map fun item => (steadyEntry reply plan item).2) 0
        (steadyFailure reply plan) := by
  refine result_of_shares [(plan.indexed, 0)] (List.cons_ne_nil _ _) List.flatten_singleton
    (List.pairwise_singleton _ _) (steadyEntry_position plan) ?_ 0
  rw [runSequential, List.filterMap_cons_some (runAssigned_steady steady plan 0 plan.indexed)]
  rfl

/-- The result of a run on streams with contiguous groups and steady runners. -/
theorem runEager_steady (steady : fleet.Steady reply) {plan : Plan} (hne : plan.specs ≠ []) :
    Result.merge (completed plan (runEager fleet plan)) 0 =
      .ofSpecs (plan.indexed.map fun item => (steadyEntry reply plan item).2) 0
        (steadyFailure reply plan) := by
  have hflatten := shares_flatten plan
  have hshares : plan.shares ≠ [] := by
    intro hnil
    have hlength := congrArg List.length (indexed_positions plan)
    rw [← hflatten, hnil, List.length_range] at hlength
    exact hne (List.eq_nil_of_length_eq_zero hlength.symm)
  refine result_of_shares plan.shares hshares hflatten (shares_sorted plan)
    (steadyEntry_position plan) ?_ 0
  rw [runEager_eq, List.filterMap_map, ← List.filterMap_eq_map]
  refine List.filterMap_congr fun share _ => ?_
  exact runAssigned_steady steady plan share.2 share.1

/-! ## Claims -/

/-- With steady runners nothing waits in the end, since every stream stays ready. -/
theorem runLazy_all (steady : fleet.Steady reply) {plan : Plan}
    (hopening : openingFailure reply plan = none) (hstreams : plan.streamCount ≠ 0)
    (order : Nat → Nat) :
    ∃ work : Work, work ≠ [] ∧ Distributed fleet plan work [] (runLazy fleet plan order) := by
  obtain ⟨work, waiting, opened, htaken, hends, h⟩ := runLazy_distributed fleet plan order
  have hready : ∀ o ∈ opened, Opened.isReady o = true := by
    intro o ho
    rw [htaken.opened_eq] at ho
    obtain ⟨share, -, rfl⟩ := List.mem_map.mp ho
    exact takeAssigned_ready steady.undying (streamObstacle_steady steady hopening share.1) share.2
  have hwork : work ≠ [] := by
    rintro rfl
    exact hstreams (List.range_eq_nil.mp htaken.numbered.symm)
  have hopened : opened ≠ [] := by
    rw [htaken.opened_eq]
    exact fun hnil => hwork (List.map_eq_nil_iff.mp hnil)
  rcases hends with rfl | hnone
  · exact ⟨work, hwork, h⟩
  · -- the claims cannot have stopped for want of a ready stream
    obtain ⟨o, ho⟩ := List.exists_mem_of_ne_nil opened hopened
    have hunready := hnone o ho
    rw [hready o ho] at hunready
    cases hunready

/-- The result of a run on streams that claim their work, with steady runners: up to their order the
results are those of the collection. -/
theorem runLazy_steady (steady : fleet.Steady reply) (plan : Plan)
    (hopening : openingFailure reply plan = none) (hstreams : plan.streamCount ≠ 0)
    (order : Nat → Nat) :
    ∃ specs, specs.Perm (plan.indexed.map fun item => (steadyEntry reply plan item).2) ∧
      Result.merge (completed plan (runLazy fleet plan order)) 0 =
        .ofSpecs specs 0 (steadyFailure reply plan) := by
  obtain ⟨work, hne, h⟩ := runLazy_all steady hopening hstreams order
  have houtcomes : (runLazy fleet plan order).filterMap (·.outcome) = work.map fun share =>
      ⟨share.1, share.2.map (steadyEntry reply plan), steadyFailure reply plan⟩ := by
    rw [h.runs_eq, List.filterMap_map, ← List.filterMap_eq_map]
    exact List.filterMap_congr fun share _ => runAssigned_steady steady plan share.1 share.2
  have hall : (((runLazy fleet plan order).filterMap (·.outcome)).flatMap (·.results)).Perm
      (plan.indexed.map (steadyEntry reply plan)) := by
    have hwork := h.all.map (steadyEntry reply plan)
    rw [List.append_nil, List.map_flatMap] at hwork
    rwa [houtcomes, List.flatMap_map]
  have hfailure : ∀ o ∈ (runLazy fleet plan order).filterMap (·.outcome),
      o.hookFailure = steadyFailure reply plan := by
    intro o ho
    rw [houtcomes] at ho
    obtain ⟨share, -, rfl⟩ := List.mem_map.mp ho
    rfl
  have hsome : (runLazy fleet plan order).filterMap (·.outcome) ≠ [] := by
    rw [houtcomes]
    exact fun hnil => hne (List.map_eq_nil_iff.mp hnil)
  obtain ⟨entries, hentries, hspecs⟩ :=
    merge_specs ((runLazy fleet plan order).filterMap (·.outcome)) 0
  rw [completed_of_entries (steadyEntry_position plan) hall, merge_failure hsome hfailure, hspecs]
  refine ⟨_, ?_, rfl⟩
  have hresults := (hentries.trans hall).map (·.2)
  rwa [List.map_map] at hresults

end

/-! ## Agreement -/

/-- The results agree but for the order of the specifications. -/
structure SameButOrder (r r' : SuiteResult) : Prop where
  specs : r.specs.Perm r'.specs
  failedCount : r.failedCount = r'.failedCount
  skippedCount : r.skippedCount = r'.skippedCount
  scenarioCount : r.scenarioCount = r'.scenarioCount
  scenarioFailedCount : r.scenarioFailedCount = r'.scenarioFailedCount
  scenarioSkippedCount : r.scenarioSkippedCount = r'.scenarioSkippedCount
  failed : r.failed = r'.failed
  failure : r.failure = r'.failure

theorem total_perm {r r' : SuiteResult} (h : r.specs.Perm r'.specs) (count : SpecResult → Nat) :
    r.total count = r'.total count := by
  rw [SuiteResult.total, SuiteResult.total]
  refine h.foldr_eq' (fun spec _ spec' _ n => ?_) 0
  omega

theorem SameButOrder.ofSpecs {specs specs' : List SpecResult} (h : specs.Perm specs') (ms : Nat)
    (failure : Option Failure) :
    SameButOrder (.ofSpecs specs ms failure) (.ofSpecs specs' ms failure) where
  specs := h
  failedCount := h.countP_eq _
  skippedCount := h.countP_eq _
  scenarioCount := total_perm h _
  scenarioFailedCount := total_perm h _
  scenarioSkippedCount := total_perm h _
  failed := by rw [SuiteResult.ofSpecs, SuiteResult.ofSpecs, h.countP_eq]
  failure := rfl

section

variable {fleet : Fleet σ} {reply : Message → Except ProtocolError Message}

theorem onOneStream_result (steady : fleet.Steady reply) (plan : Plan) (order : Nat → Nat) :
    (runSuite fleet plan.onOneStream order).result =
      .ofSpecs (plan.indexed.map fun item => (steadyEntry reply plan item).2) 0
        (steadyFailure reply plan) := by
  have hentry := steadyEntry_congr reply (onOneStream_sameWork plan) rfl rfl
  rw [← hentry]
  exact runSequential_steady steady plan.onOneStream

theorem eager_result (steady : fleet.Steady reply) {plan : Plan} (hne : plan.specs ≠ [])
    (order : Nat → Nat) :
    (runSuite fleet (plan.inParallel .eager) order).result =
      .ofSpecs (plan.indexed.map fun item => (steadyEntry reply plan item).2) 0
        (steadyFailure reply plan) := by
  have hentry := steadyEntry_congr reply (inParallel_sameWork plan .eager) rfl rfl
  rw [← hentry]
  exact runEager_steady steady hne

theorem lazy_result (steady : fleet.Steady reply) {plan : Plan}
    (hopening : openingFailure reply plan = none) (order : Nat → Nat) :
    ∃ specs, specs.Perm (plan.indexed.map fun item => (steadyEntry reply plan item).2) ∧
      (runSuite fleet (plan.inParallel .lazy) order).result =
        .ofSpecs specs 0 (steadyFailure reply plan) := by
  have hentry := steadyEntry_congr reply (inParallel_sameWork plan .lazy) rfl rfl
  have hstreams : (plan.inParallel .lazy).streamCount ≠ 0 := by
    show max _ 1 ≠ 0
    omega
  rw [← hentry]
  exact runLazy_steady steady (plan.inParallel .lazy) hopening hstreams order

/-- With steady runners it makes no difference how a collection is shared out among streams.
Contiguous groups give the very result of a run on one stream; claims give it up to the order of the
specifications, whatever the order of the claims, if the opening announcement passes. -/
theorem parallel_agrees (steady : fleet.Steady reply) {plan : Plan} (hne : plan.specs ≠ [])
    (order order' : Nat → Nat) :
    (runSuite fleet (plan.inParallel .eager) order).result =
        (runSuite fleet plan.onOneStream order').result ∧
      ((Runner.reportOf (reply (.executionStarting 0 plan.args))).failed = false →
        SameButOrder (runSuite fleet (plan.inParallel .lazy) order).result
          (runSuite fleet plan.onOneStream order').result) := by
  rw [onOneStream_result steady plan order']
  refine ⟨eager_result steady hne order, ?_⟩
  intro hpasses
  have hopening : openingFailure reply plan = none := by
    rw [openingFailure, hpasses]
    rfl
  obtain ⟨specs, hperm, hlazy⟩ := lazy_result steady hopening order
  rw [hlazy]
  exact .ofSpecs hperm 0 _

/-- Two specifications shared out among two streams, whose runners pass everything. -/
theorem parallel_agrees_passing :
    let reply : Message → Except ProtocolError Message := fun _ => .ok (.statusResponse {})
    let plan : Plan := {
      manifest := { language := "rust" }
      specs := [
        { heading := "First", fileName := "first.spec"
          scenarios := [{ heading := "Only", steps := [.step { text := "a step" }] }] },
        { heading := "Second", fileName := "second.spec", scenarios := [] }]
      settings := { streams := 2 } }
    (Fleet.answering reply).Steady reply ∧ plan.specs ≠ [] ∧
      (Runner.reportOf (reply (.executionStarting 0 plan.args))).failed = false ∧
      (runSuite (Fleet.answering reply) (plan.inParallel .eager) id).result =
        (runSuite (Fleet.answering reply) plan.onOneStream id).result ∧
      SameButOrder (runSuite (Fleet.answering reply) (plan.inParallel .lazy) id).result
        (runSuite (Fleet.answering reply) plan.onOneStream id).result := by
  intro reply plan
  have steady : (Fleet.answering reply).Steady reply :=
    Fleet.answering_steady (fun _ _ _ => rfl) fun _ _ => rfl
  have hne : plan.specs ≠ [] := List.cons_ne_nil _ _
  have hpasses : (Runner.reportOf (reply (.executionStarting 0 plan.args))).failed = false := rfl
  have hagree := parallel_agrees steady hne id id
  exact ⟨steady, hne, hpasses, hagree.1, hagree.2 hpasses⟩

end

end SpecEngine.Engine
