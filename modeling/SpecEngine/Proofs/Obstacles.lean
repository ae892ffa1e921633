/-
# SpecEngine.Proofs.Obstacles -- what stands in the way of a specification

With runners that never die a stream can run all it is given or nothing: its runner does not start,
or it refuses the execution, and otherwise nothing stands in the way. Which of this becomes of a
specification depends on its position in the collection alone. On streams with assigned work it is
decided by the stream that the position belongs to, and on streams that claim by whether any of them
is able to; so neither the order of the claims nor what happens in other specifications makes a
difference.
-/
import SpecEngine.Proofs.Success

namespace SpecEngine.Engine

open Item (Specification)
open Result (SpecResult Failure StreamOutcome)
open Runner (Behavior Fleet Message ProtocolError)

variable {σ : Type}

/-! ## Streams with undying runners -/

/-- The result of a specification, which is run if nothing stands in its way. -/
def resultBehind (reply : Message → Except ProtocolError Message) (plan : Plan)
    (spec : Specification) : Option String → SpecResult
  | none => steadyResult reply plan spec
  | some reason => .notExecuted spec reason []

/-- What a runner is told of a specification, which is run if nothing stands in its way. -/
def offersBehind (reply : Message → Except ProtocolError Message) (plan : Plan)
    (spec : Specification) : Option String → List Message
  | none => steadyOffers reply plan spec
  | some _ => []

/-- The stream's runner was told this, and besides at most that the execution starts and ends. -/
def StreamRun.WasTold (plan : Plan) (stream : Nat) (ms : List Message) (run : StreamRun σ) : Prop :=
  ∃ start ending, (start = [] ∨ start = [opening plan stream]) ∧
    (ending = [] ∨ ending = [.executionEnding (.ofNat stream)]) ∧
    run.offers = start ++ ms ++ ending

section

variable {fleet : Fleet σ} {reply : Message → Except ProtocolError Message}

/-- A stream whose living runner refuses the execution leaves out what it was assigned. -/
theorem Worker.refuses (undying : fleet.Undying reply) (plan : Plan) {stream : Nat} {w : Worker σ}
    (hlive : w.Live fleet w.refusal stream) {failure : Failure}
    (hrefusal : w.refusal = some failure) (items : List Placed) :
    ((w.takeAssigned fleet.toBehavior plan items).finish fleet).outcome =
        some ⟨stream, items.map (leftOut failure.message), some failure⟩ ∧
      ((w.takeAssigned fleet.toBehavior plan items).finish fleet).offers = w.session.offers := by
  rw [takeAssigned_refused hrefusal, ← hlive.session.stream_eq]
  -- what it hands in makes no difference to the runner
  generalize hv : ({ w with results := items.map (leftOut failure.message) } : Worker σ) = v
  have hlive' : v.Live fleet w.refusal stream := hv ▸ ⟨hlive.session, rfl⟩
  obtain ⟨houtcome, hoffers⟩ :=
    close_refused (b := fleet.toBehavior) (hlive'.refusal_eq.trans hrefusal)
  rw [finish_lasts undying hlive', houtcome, hoffers, ← hv]
  exact ⟨rfl, rfl⟩

/-- A stream with a living runner that does not refuse runs what it was assigned. -/
theorem Worker.serves (undying : fleet.Undying reply) (plan : Plan) {stream : Nat} {w : Worker σ}
    (hlive : w.Live fleet w.refusal stream) (hserving : w.refusal = none) (hnew : w.results = [])
    (items : List Placed) :
    (∃ failure, ((w.takeAssigned fleet.toBehavior plan items).finish fleet).outcome =
      some ⟨stream, items.map fun item => (item.1, steadyResult reply plan item.2), failure⟩) ∧
    ∃ ending, (ending = [] ∨ ending = [.executionEnding (.ofNat stream)]) ∧
      ((w.takeAssigned fleet.toBehavior plan items).finish fleet).offers =
        w.session.offers ++ (items.flatMap fun item => steadyOffers reply plan item.2) ++
          ending := by
  obtain ⟨hlive', hresults, htold⟩ := takeAll_live undying plan hlive items
  rw [hnew, List.nil_append] at hresults
  rw [takeAssigned_serving _ _ hserving, finish_lasts undying hlive', ← hresults, ← htold]
  have hends := hlive'.refusal_eq.trans hserving
  obtain ⟨-, failure, -, houtcome, -, -⟩ := close_serving (b := fleet.toBehavior) hends
  obtain ⟨ending, hending, hoffers⟩ := close_offers (b := fleet.toBehavior) hends
  rw [hlive'.session.stream_eq] at houtcome hending
  exact ⟨⟨failure, houtcome⟩, ending, hending, hoffers⟩

/-- A stream with an undying runner runs all that it was assigned, or nothing. -/
theorem runAssigned_undying (undying : fleet.Undying reply) (plan : Plan) (stream : Nat)
    (items : List Placed) :
    (∃ failure, (runAssigned fleet plan stream items).outcome = some ⟨stream, items.map fun item =>
      (item.1, resultBehind reply plan item.2 (streamObstacle fleet plan stream)), failure⟩) ∧
    (runAssigned fleet plan stream items).WasTold plan stream (items.flatMap fun item =>
      offersBehind reply plan item.2 (streamObstacle fleet plan stream)) := by
  have hsilent : ∀ reason, (items.flatMap fun item =>
      offersBehind reply plan item.2 (some reason)) = [] :=
    fun _ => List.flatMap_eq_nil_iff.mpr fun _ _ => rfl
  rw [runAssigned, streamObstacle]
  cases hstart : fleet.start stream with
  | error e =>
    refine ⟨⟨none, rfl⟩, [], [], .inl rfl, .inl rfl, ?_⟩
    dsimp only
    rw [hsilent]
    rfl
  | ok runner =>
    have hlive := openWorker_undying plan hstart
    dsimp only
    cases hrefusal : (openWorker fleet.toBehavior plan stream runner).refusal with
    | some failure =>
      obtain ⟨houtcome, hoffers⟩ := Worker.refuses undying plan hlive hrefusal items
      refine ⟨⟨some failure, houtcome⟩, [opening plan stream], [], .inr rfl, .inl rfl, ?_⟩
      rw [hoffers, Option.map_some, hsilent]
      rfl
    | none =>
      obtain ⟨houtcome, ending, hending, hoffers⟩ :=
        Worker.serves undying plan hlive hrefusal rfl items
      exact ⟨houtcome, [opening plan stream], ending, .inr rfl, hending, hoffers⟩

end

/-! ## Runs with undying runners -/

/-- Why the specification at a position is not run; nothing if it is. -/
def Plan.obstacle (fleet : Fleet σ) (plan : Plan) (i : Nat) : Option String :=
  if plan.settings.parallel then
    match plan.settings.strategy with
    | .eager =>
      (plan.shares.find? fun share => (share.1.map (·.1)).contains i).bind fun share =>
        streamObstacle fleet plan share.2
    | .lazy =>
      if (List.range plan.streamCount).any fun stream => (streamObstacle fleet plan stream).isNone
      then none else some unreportedReason
  else streamObstacle fleet plan 0

/-- What stands in the way of a specification of the run is what stands in the way of the stream that
it was assigned to. -/
structure Settled (fleet : Fleet σ) (plan : Plan) (work : Work) (waiting : List Placed)
    (runs : List (StreamRun σ)) : Prop extends Distributed fleet plan work waiting runs where
  taken : ∀ share ∈ work, ∀ item ∈ share.2,
    plan.obstacle fleet item.1 = streamObstacle fleet plan share.1
  waits : ∀ item ∈ waiting, plan.obstacle fleet item.1 = some unreportedReason

/-- Among lists that have no member in common the one with a member is found by it. -/
theorem find?_owner {α β : Type} [BEq β] [LawfulBEq β] {owners : List α} {owned : α → List β}
    (hnodup : (owners.flatMap owned).Nodup) {a : α} {b : β} (ha : a ∈ owners) (hb : b ∈ owned a) :
    owners.find? (fun owner => (owned owner).contains b) = some a := by
  induction owners with
  | nil => cases ha
  | cons first rest ih =>
    rw [List.flatMap_cons, List.nodup_append] at hnodup
    obtain ⟨-, hrest, hapart⟩ := hnodup
    rw [List.find?_cons]
    rcases List.mem_cons.mp ha with rfl | ha
    · rw [List.contains_iff_mem.mpr hb]
    · have hlater : b ∈ rest.flatMap owned := List.mem_flatMap.mpr ⟨a, ha, hb⟩
      have hnot : (owned first).contains b = false := by
        rw [← Bool.not_eq_true, List.contains_iff_mem]
        exact fun hfirst => hapart b hfirst b hlater rfl
      rw [hnot]
      exact ih hrest ha

section

variable {fleet : Fleet σ} {reply : Message → Except ProtocolError Message}

theorem obstacle_eager {plan : Plan} (hparallel : plan.settings.parallel = true)
    (heager : plan.settings.strategy = .eager) {share : List Placed × Nat}
    (hshare : share ∈ plan.shares) {item : Placed} (hitem : item ∈ share.1) :
    plan.obstacle fleet item.1 = streamObstacle fleet plan share.2 := by
  have hnodup : (plan.shares.flatMap fun share => share.1.map (·.1)).Nodup := by
    have hpositions : (plan.shares.flatMap fun share => share.1.map (·.1)) =
        List.range plan.specs.length := by
      rw [← indexed_positions, ← shares_flatten, List.map_flatten, List.map_map]
      rfl
    rw [hpositions]
    exact List.nodup_range
  rw [Plan.obstacle, if_pos hparallel, heager]
  dsimp only
  rw [find?_owner hnodup hshare (List.mem_map_of_mem hitem), Option.bind_some]

theorem runEager_settled {plan : Plan} (hparallel : plan.settings.parallel = true)
    (heager : plan.settings.strategy = .eager) :
    Settled fleet plan (plan.shares.map Prod.swap) [] (runEager fleet plan) where
  toDistributed := runEager_distributed fleet plan
  taken share hshare item hitem := by
    obtain ⟨⟨items, stream⟩, hmem, rfl⟩ := List.mem_map.mp hshare
    exact obstacle_eager hparallel heager hmem hitem
  waits _ h := nomatch h

theorem runLazy_settled (undying : fleet.Undying reply) {plan : Plan}
    (hparallel : plan.settings.parallel = true) (hlazy : plan.settings.strategy = .lazy)
    (order : Nat → Nat) :
    ∃ work waiting, Settled fleet plan work waiting (runLazy fleet plan order) := by
  obtain ⟨work, waiting, opened, htaken, hends, h⟩ := runLazy_distributed fleet plan order
  have hnumbers : ∀ {stream}, stream ∈ List.range plan.streamCount → ∃ share ∈ work,
      share.1 = stream := by
    intro stream hstream
    rw [← htaken.numbered] at hstream
    exact List.mem_map.mp hstream
  have hobstacle : ∀ i, plan.obstacle fleet i =
      if (List.range plan.streamCount).any fun stream => (streamObstacle fleet plan stream).isNone
      then none else some unreportedReason := by
    intro i
    rw [Plan.obstacle, if_pos hparallel, hlazy]
  refine ⟨work, waiting, h, ?_, ?_⟩
  · intro share hshare item hitem
    have hable := (htaken.able share hshare).resolve_left (List.ne_nil_of_mem hitem)
    have hstream : share.1 ∈ List.range plan.streamCount := by
      rw [← htaken.numbered]
      exact List.mem_map_of_mem hshare
    rw [hobstacle, hable, if_pos]
    exact List.any_eq_true.mpr ⟨share.1, hstream, by rw [hable]; rfl⟩
  · intro item hitem
    have hspent := hends.resolve_left (List.ne_nil_of_mem hitem)
    rw [hobstacle, if_neg]
    intro hsome
    obtain ⟨stream, hstream, hable⟩ := List.any_eq_true.mp hsome
    -- a stream that is able stays ready, so none would be left waiting
    obtain ⟨share, hshare, rfl⟩ := hnumbers hstream
    have hready := takeAssigned_ready undying (Option.isNone_iff_eq_none.mp hable) share.2
    rw [hspent _ (htaken.opened_eq ▸ List.mem_map_of_mem hshare)] at hready
    cases hready

/-- Every run with undying runners is settled, whatever the order of claims. -/
theorem runStreams_settled (undying : fleet.Undying reply) (plan : Plan) (order : Nat → Nat) :
    ∃ work waiting, Settled fleet plan work waiting (runStreams fleet plan order) := by
  cases hparallel : plan.settings.parallel with
  | true =>
    cases hstrategy : plan.settings.strategy with
    | eager =>
      rw [runStreams, if_pos hparallel, hstrategy]
      exact ⟨_, _, runEager_settled hparallel hstrategy⟩
    | lazy =>
      rw [runStreams, if_pos hparallel, hstrategy]
      exact runLazy_settled undying hparallel hstrategy order
  | false =>
    have hsequential : ¬plan.settings.parallel = true := by simp [hparallel]
    rw [runStreams, if_neg hsequential]
    refine ⟨_, _, runSequential_distributed fleet plan, ?_, fun _ h => nomatch h⟩
    intro share hshare item _
    rw [List.mem_singleton.mp hshare, Plan.obstacle, if_neg hsequential]

end

/-- The runners of the streams are told this of the specifications at the positions, each of those
that its stream took, and nothing else but that the execution starts and ends. -/
def ToldOfSpecs (plan : Plan) (told : Nat → List Message) (runs : List (StreamRun σ)) : Prop :=
  ∃ (work : Work) (waiting : List Placed), (work.flatMap (·.2) ++ waiting).Perm plan.indexed ∧
    (∀ item ∈ waiting, told item.1 = []) ∧
    List.Forall₂ (fun share run =>
      StreamRun.WasTold plan share.1 (share.2.flatMap fun item => told item.1) run) work runs

/-- What a runner is told of the specification at a position. -/
def Plan.toldAt (fleet : Fleet σ) (reply : Message → Except ProtocolError Message) (plan : Plan)
    (i : Nat) : List Message :=
  match plan.specs[i]? with
  | none => []
  | some spec => offersBehind reply plan spec (plan.obstacle fleet i)

namespace Settled

variable {fleet : Fleet σ} {reply : Message → Except ProtocolError Message} {plan : Plan}
variable {work : Work} {waiting : List Placed} {runs : List (StreamRun σ)}

theorem toldAt_item {item : Placed} (h : item ∈ plan.indexed) :
    plan.toldAt fleet reply item.1 =
      offersBehind reply plan item.2 (plan.obstacle fleet item.1) := by
  rw [Plan.toldAt, mem_indexed.mp h]

theorem told (undying : fleet.Undying reply) (h : Settled fleet plan work waiting runs) :
    ToldOfSpecs plan (plan.toldAt fleet reply) runs := by
  refine ⟨work, waiting, h.all, ?_, ?_⟩
  · intro item hitem
    rw [toldAt_item (h.all.subset (List.mem_append_right _ hitem)), h.waits item hitem]
    rfl
  · rw [h.runs_eq, List.forall₂_map_right_iff, List.forall₂_same]
    intro share hshare
    have htold := (runAssigned_undying undying plan share.1 share.2).2
    have hshared : ∀ item ∈ share.2, plan.toldAt fleet reply item.1 =
        offersBehind reply plan item.2 (streamObstacle fleet plan share.1) := by
      intro item hitem
      have hmem : item ∈ work.flatMap (·.2) := List.mem_flatMap.mpr ⟨share, hshare, hitem⟩
      rw [toldAt_item (h.all.subset (List.mem_append_left _ hmem)), h.taken share hshare item hitem]
    rwa [List.flatMap_congr hshared]

/-- What no stream reports was left waiting. -/
theorem unreported_waits (undying : fleet.Undying reply)
    (h : Settled fleet plan work waiting runs) :
    ∀ entry ∈ (unreported plan (runs.filterMap (·.outcome))).results,
      ∃ item ∈ waiting, entry = leftOut unreportedReason item := by
  intro entry hentry
  obtain ⟨item, hmissing, rfl⟩ := List.mem_map.mp hentry
  obtain ⟨hitem, hunreported⟩ := List.mem_filter.mp hmissing
  refine ⟨item, ?_, rfl⟩
  refine (List.mem_append.mp (h.all.symm.subset hitem)).resolve_left fun htaken => ?_
  obtain ⟨share, hshare, htaken⟩ := List.mem_flatMap.mp htaken
  obtain ⟨failure, houtcome⟩ := (runAssigned_undying undying plan share.1 share.2).1
  have hrun : runAssigned fleet plan share.1 share.2 ∈ runs :=
    h.runs_eq ▸ List.mem_map_of_mem hshare
  have hreported : item.1 ∈ (runs.filterMap (·.outcome)).flatMap fun o => o.results.map (·.1) := by
    refine List.mem_flatMap.mpr ⟨_, List.mem_filterMap.mpr ⟨_, hrun, houtcome⟩, ?_⟩
    rw [List.map_map]
    exact List.mem_map_of_mem htaken
  simp [hreported] at hunreported

/-- The results of a run are known from what stands in the way of each specification. -/
theorem entries (undying : fleet.Undying reply) (h : Settled fleet plan work waiting runs) :
    ∀ o ∈ completed plan runs, ∀ entry ∈ o.results, ∃ spec, plan.specs[entry.1]? = some spec ∧
      entry.2 = resultBehind reply plan spec (plan.obstacle fleet entry.1) := by
  intro o ho entry hentry
  rcases completed_cases ho with ⟨run, hrun, hends⟩ | rfl
  · rw [h.runs_eq] at hrun
    obtain ⟨share, hshare, rfl⟩ := List.mem_map.mp hrun
    obtain ⟨failure, houtcome⟩ := (runAssigned_undying undying plan share.1 share.2).1
    obtain rfl := Option.some.inj (houtcome.symm.trans hends)
    obtain ⟨item, hitem, rfl⟩ := List.mem_map.mp hentry
    have hmem : item ∈ work.flatMap (·.2) := List.mem_flatMap.mpr ⟨share, hshare, hitem⟩
    refine ⟨item.2, mem_indexed.mp (h.all.subset (List.mem_append_left _ hmem)), ?_⟩
    rw [h.taken share hshare item hitem]
  · obtain ⟨item, hitem, rfl⟩ := h.unreported_waits undying entry hentry
    refine ⟨item.2, mem_indexed.mp (h.all.subset (List.mem_append_right _ hitem)), ?_⟩
    rw [leftOut, h.waits item hitem]
    rfl

end Settled

end SpecEngine.Engine
