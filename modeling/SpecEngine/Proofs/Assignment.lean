/-
# SpecEngine.Proofs.Assignment -- claims are assignments

Streams that claim specifications from a queue do what streams do that were assigned these
specifications beforehand. So every run, whatever its strategy and the order of its claims, is one
of streams with assigned work (`Distributed`); only the work differs, and what is left waiting. What
is said of a run thus follows from what is said of a stream with assigned work, and no other
induction over the claims is needed.

The work and what waits are together the collection, and each stream has its part in the order of
the collection. Something is left waiting only if no stream could take more.
-/
import SpecEngine.Proofs.Distribution

namespace SpecEngine.Engine

open Result (Failure)
open Runner (Behavior Fleet ProtocolError)

variable {σ : Type}

/-- The numbers of streams, each with the specifications that it takes. -/
abbrev Work := List (Nat × List Placed)

/-! ## Workers with assigned work -/

namespace Worker

variable {b : Behavior σ} {plan : Plan} {w : Worker σ} {items : List Placed}

theorem takeAssigned_serving (b : Behavior σ) (plan : Plan) {w : Worker σ}
    (h : w.refusal = none) (items : List Placed) :
    w.takeAssigned b plan items = items.foldl (fun w item => w.take b plan item) w := by
  simp only [takeAssigned, h]

/-- Specifications may be assigned in two parts. -/
theorem takeAssigned_append (b : Behavior σ) (plan : Plan) {w : Worker σ}
    (h : w.refusal = none) (before after : List Placed) :
    w.takeAssigned b plan (before ++ after) =
      after.foldl (fun w item => w.take b plan item) (w.takeAssigned b plan before) := by
  rw [takeAssigned_serving b plan h, takeAssigned_serving b plan h, List.foldl_append]

theorem takeAssigned_refused {failure : Failure} (h : w.refusal = some failure) :
    w.takeAssigned b plan items = { w with results := items.map (leftOut failure.message) } := by
  simp only [takeAssigned, h]

theorem takeAssigned_refusal (b : Behavior σ) (plan : Plan) (w : Worker σ)
    (items : List Placed) : (w.takeAssigned b plan items).refusal = w.refusal := by
  cases h : w.refusal with
  | some failure => rw [takeAssigned_refused h, h]
  | none =>
    rw [takeAssigned_serving b plan h, ← h]
    clear h
    induction items generalizing w with
    | nil => rfl
    | cons item rest ih => exact ih (w.take b plan item)

end Worker

/-! ## Opened streams with assigned work -/

/-- Why a stream can run nothing: its runner does not start or refuses the execution. -/
def streamObstacle (fleet : Fleet σ) (plan : Plan) (stream : Nat) : Option String :=
  match fleet.start stream with
  | .error e => some e.text
  | .ok runner => (openWorker fleet.toBehavior plan stream runner).refusal.map (·.message)

/-- Runs the specifications that were assigned to an opened stream. -/
def Opened.takeAssigned (b : Behavior σ) (plan : Plan) (items : List Placed) :
    Opened σ → Opened σ :=
  Except.map fun w => w.takeAssigned b plan items

section

variable {fleet : Fleet σ} {plan : Plan} {stream : Nat} {items : List Placed}

/-- A stream can run nothing if the runner of its worker refuses. -/
theorem streamObstacle_of_worker {w : Worker σ}
    (h : (Opened.start fleet plan stream).takeAssigned fleet.toBehavior plan items = .ok w) :
    streamObstacle fleet plan stream = w.refusal.map (·.message) := by
  rw [Opened.start] at h
  rw [streamObstacle]
  cases hstart : fleet.start stream with
  | error e =>
    rw [hstart] at h
    cases h
  | ok runner =>
    rw [hstart] at h
    obtain rfl := Except.ok.inj h
    rw [Worker.takeAssigned_refusal]

theorem Opened.takeAssigned_nil (fleet : Fleet σ) (plan : Plan) (stream : Nat) :
    (Opened.start fleet plan stream).takeAssigned fleet.toBehavior plan [] =
      Opened.start fleet plan stream := by
  rw [Opened.start]
  cases fleet.start stream with
  | error e => rfl
  | ok runner =>
    show Except.ok ((openWorker fleet.toBehavior plan stream runner).takeAssigned _ plan []) =
      Except.ok (openWorker fleet.toBehavior plan stream runner)
    cases hrefusal : (openWorker fleet.toBehavior plan stream runner).refusal with
    | none => rw [Worker.takeAssigned_serving _ _ hrefusal, List.foldl_nil]
    | some failure =>
      rw [Worker.takeAssigned_refused hrefusal]
      rfl

/-- A stream that claims one more specification might have been assigned it after the others. -/
theorem Opened.takeAssigned_claim {w : Worker σ} (item : Placed) (hready : w.isReady = true)
    (h : (Opened.start fleet plan stream).takeAssigned fleet.toBehavior plan items = .ok w) :
    (Opened.start fleet plan stream).takeAssigned fleet.toBehavior plan (items ++ [item]) =
        .ok (w.take fleet.toBehavior plan item) ∧
      streamObstacle fleet plan stream = none := by
  have hserving : w.refusal = none := by
    rw [Worker.isReady, Bool.and_eq_true, Option.isNone_iff_eq_none] at hready
    exact hready.1
  refine ⟨?_, by rw [streamObstacle_of_worker h, hserving, Option.map_none]⟩
  rw [Opened.start] at h ⊢
  cases hstart : fleet.start stream with
  | error e =>
    rw [hstart] at h
    cases h
  | ok runner =>
    rw [hstart] at h
    obtain rfl := Except.ok.inj h
    rw [Worker.takeAssigned_refusal] at hserving
    exact congrArg Except.ok (Worker.takeAssigned_append _ plan hserving items [item])

/-- A stream that claimed specifications ends as one that was assigned them. -/
theorem Opened.takeAssigned_finish (h : items = [] ∨ streamObstacle fleet plan stream = none) :
    ((Opened.start fleet plan stream).takeAssigned fleet.toBehavior plan items).finish fleet
      stream = runAssigned fleet plan stream items := by
  rw [Opened.start, runAssigned]
  rw [streamObstacle] at h
  cases hstart : fleet.start stream with
  | ok runner => rfl
  | error e =>
    rw [hstart] at h
    obtain rfl := h.resolve_right (Option.some_ne_none _)
    rfl

end

/-! ## Streams that can take no more -/

/-- The stream can take nothing: its runner did not start, or it was finished as one that is not
ready. -/
inductive StreamRun.Spent (fleet : Fleet σ) : StreamRun σ → Prop
  | unstarted {stream : Nat} {e : ProtocolError} : fleet.start stream = .error e →
      Spent fleet (.unstarted stream [] e)
  | unready {w : Worker σ} : w.isReady = false → Spent fleet (w.finish fleet)

/-- A stream that is not ready after its work can take nothing when it ends. -/
theorem Opened.finish_spent {fleet : Fleet σ} {plan : Plan} {stream : Nat} {items : List Placed}
    (h : ((Opened.start fleet plan stream).takeAssigned fleet.toBehavior plan items).isReady =
      false) :
    (((Opened.start fleet plan stream).takeAssigned fleet.toBehavior plan items).finish fleet
      stream).Spent fleet := by
  rw [Opened.start] at h ⊢
  cases hstart : fleet.start stream with
  | error e => exact .unstarted hstart
  | ok runner =>
    rw [hstart] at h
    exact .unready h

/-! ## Claims -/

/-- The opened streams claimed this work in the order of the queue, each as if it had been assigned
to it, and the rest still waits. -/
structure Taken (fleet : Fleet σ) (plan : Plan) (waiting : List Placed)
    (opened : List (Opened σ)) (work : Work) : Prop where
  numbered : work.map (·.1) = List.range plan.streamCount
  ordered : ∀ share ∈ work, (share.2 ++ waiting).Sublist plan.indexed
  all : (work.flatMap (·.2) ++ waiting).Perm plan.indexed
  opened_eq : opened = work.map fun share =>
    (Opened.start fleet plan share.1).takeAssigned fleet.toBehavior plan share.2
  able : ∀ share ∈ work, share.2 = [] ∨ streamObstacle fleet plan share.1 = none

/-- What no longer waits might have been assigned to the streams. -/
def Assignable (fleet : Fleet σ) (plan : Plan) (waiting : List Placed)
    (opened : List (Opened σ)) : Prop :=
  ∃ work, Taken fleet plan waiting opened work

namespace Assignable

theorem opening (fleet : Fleet σ) (plan : Plan) :
    Assignable fleet plan plan.indexed
      ((List.range plan.streamCount).map (Opened.start fleet plan)) := by
  have hshare : ∀ share ∈ (List.range plan.streamCount).map fun stream =>
      (stream, ([] : List Placed)), share.2 = [] := by
    intro share hshare
    obtain ⟨stream, -, rfl⟩ := List.mem_map.mp hshare
    rfl
  refine ⟨(List.range plan.streamCount).map fun stream => (stream, []), ?_, ?_, ?_, ?_, ?_⟩
  · rw [List.map_map]
    exact List.map_id _
  · intro share hmem
    exact hshare share hmem ▸ .refl _
  · rw [List.flatMap_eq_nil_iff.mpr hshare, List.nil_append]
  · rw [List.map_map]
    exact List.map_congr_left fun stream _ => (Opened.takeAssigned_nil fleet plan stream).symm
  · exact fun share hmem => .inl (hshare share hmem)

/-- A claim adds a specification to the work of the stream that makes it. -/
theorem claim {fleet : Fleet σ} {plan : Plan} {item : Placed} {waiting : List Placed}
    {before after : List (Opened σ)} {w : Worker σ} (hready : w.isReady = true)
    (h : Assignable fleet plan (item :: waiting) (before ++ .ok w :: after)) :
    Assignable fleet plan waiting
      (before ++ .ok (w.take fleet.toBehavior plan item) :: after) := by
  obtain ⟨work, h⟩ := h
  obtain ⟨before', rest, rfl, hbefore, hrest⟩ := List.map_eq_append_iff.mp h.opened_eq.symm
  obtain ⟨share, after', rfl, hw, hafter⟩ := List.map_eq_cons_iff.mp hrest
  obtain ⟨hclaimed, hable⟩ := Opened.takeAssigned_claim item hready hw
  refine ⟨before' ++ (share.1, share.2 ++ [item]) :: after', ?_, ?_, ?_, ?_, ?_⟩
  · rw [← h.numbered]
    simp only [List.map_append, List.map_cons]
  · have hordered : ∀ other ∈ before' ++ share :: after',
        (other.2 ++ waiting).Sublist plan.indexed := by
      intro other hother
      have hskip : (other.2 ++ waiting).Sublist (other.2 ++ item :: waiting) :=
        (List.sublist_cons_self item waiting).append_left other.2
      exact hskip.trans (h.ordered other hother)
    refine forall_mem_replace hordered ?_
    -- the item moves from the front of what waits to the end of the share, so their order stays
    show (share.2 ++ [item] ++ waiting).Sublist _
    rw [List.append_assoc]
    exact h.ordered share (List.mem_append_right _ List.mem_cons_self)
  · refine .trans ?_ h.all
    simp only [List.flatMap_append, List.flatMap_cons]
    exact perm_move _ _ _ _ item
  · rw [List.map_append, List.map_cons, hbefore, hafter, hclaimed]
  · exact forall_mem_replace h.able (.inr hable)

end Assignable

/-! ## Runs -/

/-- The streams of a run were assigned this work; what waits was assigned to none of them, and if
something waits, none could take it. -/
structure Distributed (fleet : Fleet σ) (plan : Plan) (work : Work) (waiting : List Placed)
    (runs : List (StreamRun σ)) : Prop where
  numbered : (work.map (·.1)).Nodup
  ordered : ∀ share ∈ work, share.2.Sublist plan.indexed
  all : (work.flatMap (·.2) ++ waiting).Perm plan.indexed
  runs_eq : runs = work.map fun share => runAssigned fleet plan share.1 share.2
  spent : waiting = [] ∨ ∀ run ∈ runs, run.Spent fleet

/-- Ending the streams in their order ends each of them as one with assigned work. -/
theorem Taken.finish_eq {fleet : Fleet σ} {plan : Plan} {waiting : List Placed}
    {opened : List (Opened σ)} {work : Work} (h : Taken fleet plan waiting opened work) :
    (opened.zipIdx.map fun (o, stream) => o.finish fleet stream) =
      work.map fun share => runAssigned fleet plan share.1 share.2 := by
  have hnumber : ∀ numbered ∈ work.zipIdx, numbered.1.1 = numbered.2 := by
    intro numbered hmem
    have hat := congrArg (·[numbered.2]?) h.numbered
    rw [List.getElem?_map, List.mem_zipIdx_iff_getElem?.mp hmem, Option.map_some] at hat
    obtain ⟨hlt, hvalue⟩ := List.getElem?_eq_some_iff.mp hat.symm
    rw [List.getElem_range] at hvalue
    exact hvalue.symm
  have hfinish : ∀ numbered ∈ work.zipIdx,
      Opened.finish fleet numbered.2 ((Opened.start fleet plan numbered.1.1).takeAssigned
        fleet.toBehavior plan numbered.1.2) =
      runAssigned fleet plan numbered.1.1 numbered.1.2 := by
    intro numbered hmem
    rw [← hnumber numbered hmem]
    exact Opened.takeAssigned_finish (h.able _ (List.fst_mem_of_mem_zipIdx hmem))
  rw [h.opened_eq, List.zipIdx_map, List.map_map]
  calc
    _ = work.zipIdx.map fun numbered => runAssigned fleet plan numbered.1.1 numbered.1.2 :=
      List.map_congr_left hfinish
    _ = (work.zipIdx.map (·.1)).map fun share => runAssigned fleet plan share.1 share.2 := by
      rw [List.map_map]
      rfl
    _ = _ := by rw [List.zipIdx_map_fst 0 work]

/-- A run on streams that claim their work is one on streams that are assigned it. Work is left
waiting only if no stream was ready in the end. -/
theorem runLazy_distributed (fleet : Fleet σ) (plan : Plan) (order : Nat → Nat) :
    ∃ work waiting opened, Taken fleet plan waiting opened work ∧
      (waiting = [] ∨ ∀ o ∈ opened, Opened.isReady o = false) ∧
      Distributed fleet plan work waiting (runLazy fleet plan order) := by
  obtain ⟨waiting, ⟨work, htaken⟩, hends⟩ := distribute_keeps order
    (fun item waiting before w after => Assignable.claim) plan.indexed 0 _
    (Assignable.opening fleet plan)
  have hruns : runLazy fleet plan order = _ := htaken.finish_eq
  refine ⟨work, waiting, _, htaken, hends, ?_, ?_, htaken.all, hruns, ?_⟩
  · rw [htaken.numbered]
    exact List.nodup_range
  · intro share hshare
    exact (List.sublist_append_left _ waiting).trans (htaken.ordered share hshare)
  · refine hends.imp_right fun hunready run hrun => ?_
    rw [hruns] at hrun
    obtain ⟨share, hshare, rfl⟩ := List.mem_map.mp hrun
    rw [← Opened.takeAssigned_finish (htaken.able share hshare)]
    refine Opened.finish_spent (hunready _ ?_)
    rw [htaken.opened_eq]
    exact List.mem_map_of_mem hshare

theorem shares_numbers_nodup (plan : Plan) : (plan.shares.map (·.2)).Nodup := by
  have hall : ((partition plan.indexed plan.streamCount).zipIdx.map (·.2)).Nodup := by
    rw [List.zipIdx_map_snd]
    exact List.nodup_range'
  exact hall.sublist (List.filter_sublist.map _)

theorem runEager_distributed (fleet : Fleet σ) (plan : Plan) :
    Distributed fleet plan (plan.shares.map Prod.swap) [] (runEager fleet plan) where
  numbered := by
    rw [List.map_map]
    exact shares_numbers_nodup plan
  ordered share hshare := by
    obtain ⟨⟨items, stream⟩, hmem, rfl⟩ := List.mem_map.mp hshare
    rw [← shares_flatten plan]
    exact List.sublist_flatten_of_mem (List.mem_map_of_mem hmem)
  all := by
    rw [List.append_nil, List.flatMap_map, ← shares_flatten plan, List.flatMap_def]
    rfl
  runs_eq := by
    rw [runEager_eq, List.map_map]
    rfl
  spent := .inl rfl

theorem runSequential_distributed (fleet : Fleet σ) (plan : Plan) :
    Distributed fleet plan [(0, plan.indexed)] [] (runSequential fleet plan) where
  numbered := List.pairwise_singleton _ _
  ordered share hshare := by
    obtain rfl := List.mem_singleton.mp hshare
    exact .refl _
  all := by rw [List.append_nil, List.flatMap_singleton]
  runs_eq := rfl
  spent := .inl rfl

/-- Every run is one of streams with assigned work, whatever its strategy and the order of its
claims. -/
theorem runStreams_distributed (fleet : Fleet σ) (plan : Plan) (order : Nat → Nat) :
    ∃ work waiting, Distributed fleet plan work waiting (runStreams fleet plan order) := by
  unfold runStreams
  split
  · split
    · exact ⟨_, _, runEager_distributed fleet plan⟩
    · obtain ⟨work, waiting, -, -, -, h⟩ := runLazy_distributed fleet plan order
      exact ⟨work, waiting, h⟩
  · exact ⟨_, _, runSequential_distributed fleet plan⟩

end SpecEngine.Engine
