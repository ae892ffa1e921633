/-
# SpecEngine.Proofs.StreamHistory -- what a stream leaves behind

A stream takes specifications and runs them one after the other. `StreamHistory` says what it leaves
behind in each of the three ways it can go: its runner does not start, the runner refuses the
execution, or it serves.

A stream between opening and closing is described by what it took so far (`Worker.Holds`). Taking one
more specification keeps this, so it holds of streams with assigned work by induction on the work. A
stream whose task breaks down leaves a beginning of what it would have left, and hands in nothing.

Every stream of a run has work that it might have been assigned, so each came to its end with work of
its own (`StreamRun.Ended`), whether it was assigned the work or claimed it.
-/
import Mathlib.Data.List.Forall2
import SpecEngine.Proofs.Assignment
import SpecEngine.Proofs.History

namespace SpecEngine.Engine

open Item (Specification)
open Result (SpecResult Failure StreamOutcome)
open Runner (Behavior Fleet Message ProtocolError Report)

variable {σ : Type}

/-! ## Blocks -/

/-- Blocks put end to end, one for each of some things, in their order. -/
inductive Blocks {α β : Type} (Block : α → List β → Prop) : List α → List β → Prop
  | nil : Blocks Block [] []
  | cons {a as block rest} : Block a block → Blocks Block as rest →
      Blocks Block (a :: as) (block ++ rest)

namespace Blocks

variable {α β : Type} {Block : α → List β → Prop} {as as' : List α} {bs bs' : List β}

theorem singleton {a : α} (h : Block a bs) : Blocks Block [a] bs := by
  have hlast := Blocks.cons h .nil
  rwa [List.append_nil] at hlast

theorem append (h : Blocks Block as bs) (h' : Blocks Block as' bs') :
    Blocks Block (as ++ as') (bs ++ bs') := by
  induction h with
  | nil => exact h'
  | cons hfirst _ ih =>
    rw [List.append_assoc]
    exact .cons hfirst ih

end Blocks

/-! ## Specifications in order -/

/-- What happens while specifications run one after the other, with the results. -/
inductive SpecsHistory (plan : Plan) :
    Bool → List Placed → List Happening → List (Nat × SpecResult) → Prop
  | nil {aborted} : SpecsHistory plan aborted [] [] []
  | cons {aborted item rest hs r hs' entries} : SpecHistory plan item.2 aborted hs r →
      SpecsHistory plan (aborted || foundDead hs) rest hs' entries →
      SpecsHistory plan aborted (item :: rest) (specHappenings item.2 hs r ++ hs')
        ((item.1, r) :: entries)

namespace SpecsHistory

variable {plan : Plan} {aborted : Bool} {items : List Placed} {hs hs' : List Happening}
variable {entries : List (Nat × SpecResult)}

theorem snoc {item : Placed} {r : SpecResult} (h : SpecsHistory plan aborted items hs entries)
    (hitem : SpecHistory plan item.2 (aborted || foundDead hs) hs' r) :
    SpecsHistory plan aborted (items ++ [item]) (hs ++ specHappenings item.2 hs' r)
      (entries ++ [(item.1, r)]) := by
  induction h with
  | nil =>
    -- nothing has happened yet, so the flag is that of the beginning
    have haborted : ∀ a : Bool, (a || foundDead []) = a := Bool.or_false
    rw [haborted] at hitem
    have hlast := SpecsHistory.cons hitem .nil
    rw [List.append_nil] at hlast
    exact hlast
  | cons hfirst _ ih =>
    rw [List.append_assoc]
    refine .cons hfirst (ih ?_)
    rw [specHappenings, foundDead_append, foundDead_announcedAround, ← Bool.or_assoc] at hitem
    exact hitem

/-- The entries stand for the specifications, in their order. -/
theorem positions_eq (h : SpecsHistory plan aborted items hs entries) :
    entries.map (·.1) = items.map (·.1) := by
  induction h with
  | nil => rfl
  | cons _ _ ih => rw [List.map_cons, List.map_cons, ih]

end SpecsHistory

/-! ## Opening and ending -/

/-- The message that opens a stream. -/
def opening (plan : Plan) (stream : Nat) : Message := .executionStarting (.ofNat stream) plan.args

/-- What a runner reports on the opening of its stream. -/
def openingReport (b : Behavior σ) (plan : Plan) (stream : Nat) (runner : σ) : Report :=
  Runner.reportOf (b.answer runner (opening plan stream)).1

/-- The failure of a stream whose runner refuses the execution. -/
def refusalOf (report : Report) : Failure := .ofReport report "before suite hook failed"

/-- The runner is told that the execution ends, or it is not, being dead; the failure is that of the
stream. -/
inductive EndingHistory (stream : Nat) : List Message → Option Failure → Prop
  | silent : EndingHistory stream [] none
  | told (report : Report) : EndingHistory stream [.executionEnding (.ofNat stream)]
      (if report.failed then some (.ofReport report "after suite hook failed") else none)

theorem EndingHistory.ending_eq {stream : Nat} {ending : List Message} {failure : Option Failure}
    (h : EndingHistory stream ending failure) :
    ending = [] ∨ ending = [.executionEnding (.ofNat stream)] := by
  cases h with
  | silent => exact .inl rfl
  | told _ => exact .inr rfl

theorem announceEnd_history (b : Behavior σ) (s : Session σ) :
    ∃ ending, EndingHistory s.stream ending (announceEnd b s).1 ∧
      (announceEnd b s).2.stream = s.stream ∧ (announceEnd b s).2.aborted = s.aborted ∧
      (announceEnd b s).2.trace.toList = s.trace.toList ++ ending.map .offered := by
  simp only [announceEnd, ite_run, bind_run, pure_run]
  split
  next =>
    have htrace := (Happens.exchange (.executionEnding (.ofNat s.stream)) (.nothing _) :
      Happens b s _ _).trace_eq
    exact ⟨_, .told (Runner.reportOf _), rfl, rfl, htrace⟩
  next => exact ⟨[], .silent, rfl, rfl, (List.append_nil _).symm⟩

/-! ## Histories of streams -/

/-- What a stream that takes these specifications leaves behind: its trace and what it hands in. -/
inductive StreamHistory (fleet : Fleet σ) (plan : Plan) (stream : Nat) (items : List Placed) :
    List Occurrence → StreamOutcome → Prop
  | unstarted {e} : fleet.start stream = .error e →
      StreamHistory fleet plan stream items []
        { stream := stream, results := items.map (leftOut e.text) }
  | refused {runner} : fleet.start stream = .ok runner →
      (openingReport fleet.toBehavior plan stream runner).failed = true →
      StreamHistory fleet plan stream items [.offered (opening plan stream), .killed]
        { stream := stream
          results := items.map
            (leftOut (refusalOf (openingReport fleet.toBehavior plan stream runner)).message)
          hookFailure := some (refusalOf (openingReport fleet.toBehavior plan stream runner)) }
  | served {runner hs entries ending failure} : fleet.start stream = .ok runner →
      (openingReport fleet.toBehavior plan stream runner).failed = false →
      SpecsHistory plan false items hs entries → EndingHistory stream ending failure →
      StreamHistory fleet plan stream items
        (.offered (opening plan stream) ::
          (occurrences stream hs ++ ending.map .offered ++ [.killed]))
        { stream := stream, results := entries, hookFailure := failure }

namespace StreamRun

/-- The task of the stream broke down. -/
def BrokeDown (fleet : Fleet σ) (run : StreamRun σ) : Prop :=
  (run.runner.bind fleet.brokenAt).isSome = true

/-- The stream left this trace and handed this in, or its task broke down on the way. -/
inductive Leaves (fleet : Fleet σ) (trace : List Occurrence) (o : StreamOutcome) :
    StreamRun σ → Prop
  | whole {run} : run.outcome = some o → run.trace = trace → Leaves fleet trace o run
  | brokenOff {run} : run.BrokeDown fleet → run.outcome = none → run.trace <+: trace →
      Leaves fleet trace o run

/-- The stream has a history with these specifications. -/
def Follows (fleet : Fleet σ) (plan : Plan) (stream : Nat) (items : List Placed)
    (run : StreamRun σ) : Prop :=
  ∃ trace o, StreamHistory fleet plan stream items trace o ∧ run.Leaves fleet trace o

/-- What a stream hands in is what its history says. -/
theorem Follows.history {fleet : Fleet σ} {plan : Plan} {stream : Nat} {items : List Placed}
    {run : StreamRun σ} {o : StreamOutcome} (h : run.Follows fleet plan stream items)
    (ho : run.outcome = some o) : ∃ trace, StreamHistory fleet plan stream items trace o := by
  obtain ⟨trace, o', hhistory, hleaves⟩ := h
  cases hleaves with
  | whole houtcome _ =>
    obtain rfl := Option.some.inj (houtcome.symm.trans ho)
    exact ⟨trace, hhistory⟩
  | brokenOff _ hnone _ =>
    rw [hnone] at ho
    cases ho

end StreamRun

/-! ## Workers -/

/-- The stream took these specifications and ran them, or it left them out because the runner
refuses the execution. -/
inductive Worker.Holds (b : Behavior σ) (plan : Plan) (stream : Nat) (runner : σ)
    (items : List Placed) : Worker σ → Prop
  | refused : (openingReport b plan stream runner).failed = true →
      Holds b plan stream runner items
        { openWorker b plan stream runner with
          results := items.map
            (leftOut (refusalOf (openingReport b plan stream runner)).message) }
  | serving {w : Worker σ} {hs : List Happening} :
      (openingReport b plan stream runner).failed = false → w.refusal = none →
      Happens b (openWorker b plan stream runner).session hs w.session →
      SpecsHistory plan false items hs w.results → Holds b plan stream runner items w

section

variable {b : Behavior σ} {plan : Plan} {stream : Nat} {runner : σ} {items : List Placed}

theorem openWorker_refusal (b : Behavior σ) (plan : Plan) (stream : Nat) (runner : σ) :
    (openWorker b plan stream runner).refusal =
      if (openingReport b plan stream runner).failed then
        some (refusalOf (openingReport b plan stream runner))
      else none := rfl

theorem openWorker_trace (b : Behavior σ) (plan : Plan) (stream : Nat) (runner : σ) :
    (openWorker b plan stream runner).session.trace.toList = [.offered (opening plan stream)] := rfl

theorem openWorker_holds (b : Behavior σ) (plan : Plan) (stream : Nat) (runner : σ) :
    Worker.Holds b plan stream runner [] (openWorker b plan stream runner) := by
  cases hreport : (openingReport b plan stream runner).failed with
  | true => exact .refused hreport
  | false =>
    refine .serving hreport ?_ (.nothing _) .nil
    rw [openWorker_refusal, hreport]
    rfl

/-- One more specification is taken. -/
theorem Worker.Holds.take {w : Worker σ} (item : Placed)
    (h : Worker.Holds b plan stream runner items w) (hready : w.refusal = none) :
    Worker.Holds b plan stream runner (items ++ [item]) (w.take b plan item) := by
  cases h with
  | refused hreport =>
    -- a stream whose runner refused is not asked to take anything
    rw [openWorker_refusal, hreport] at hready
    cases hready
  | @serving _ hs hreport hrefusal hrun hspecs =>
    obtain ⟨hs', hrun', hspec⟩ := announcedSpec_history b plan item.2 w.session
    have haborted : w.session.aborted = (false || foundDead hs) := hrun.aborted_eq
    rw [haborted] at hspec
    exact .serving hreport hrefusal (hrun.append hrun') (hspecs.snoc hspec)

theorem Worker.Holds.takeAll {w : Worker σ} (h : Worker.Holds b plan stream runner items w)
    (hready : w.refusal = none) (more : List Placed) :
    Worker.Holds b plan stream runner (items ++ more)
      (more.foldl (fun w item => w.take b plan item) w) := by
  induction more generalizing items w with
  | nil => rwa [List.append_nil]
  | cons item rest ih =>
    rw [List.append_cons]
    exact ih (h.take item hready) hready

theorem takeAssigned_holds (b : Behavior σ) (plan : Plan) (stream : Nat) (runner : σ)
    (items : List Placed) :
    Worker.Holds b plan stream runner items
      ((openWorker b plan stream runner).takeAssigned b plan items) := by
  have hrefusal := openWorker_refusal b plan stream runner
  cases hreport : (openingReport b plan stream runner).failed with
  | true =>
    rw [hreport, if_pos rfl] at hrefusal
    rw [Worker.takeAssigned_refused hrefusal]
    exact .refused hreport
  | false =>
    rw [hreport, if_neg (by decide)] at hrefusal
    rw [Worker.takeAssigned_serving b plan hrefusal]
    exact (openWorker_holds b plan stream runner).takeAll hrefusal items

end

/-! ## Closing -/

section

variable {fleet : Fleet σ} {plan : Plan} {stream : Nat} {runner : σ} {items : List Placed}

/-- A stream that is closed after its work hands in what it holds; the ending and the kill are all
that happens besides. -/
theorem Worker.close_serving {b : Behavior σ} {w : Worker σ} (h : w.refusal = none) :
    ∃ ending failure, EndingHistory w.session.stream ending failure ∧
      (w.close b).outcome = some ⟨w.session.stream, w.results, failure⟩ ∧
      (w.close b).aborted = w.session.aborted ∧
      (w.close b).trace = w.session.trace.toList ++ ending.map .offered ++ [.killed] := by
  obtain ⟨ending, hending, hstream, haborted, htrace⟩ := announceEnd_history b w.session
  refine ⟨ending, _, hending, ?_, ?_, ?_⟩ <;> simp only [Worker.close, h, killRunner]
  · show some (StreamOutcome.mk (announceEnd b w.session).2.stream _ _) = _
    rw [hstream]
  · exact haborted
  · show ((announceEnd b w.session).2.trace.push .killed).toList = _
    rw [Array.toList_push, htrace]

/-- A stream that is closed leaves behind what its history says. -/
theorem Worker.Holds.close_history {w : Worker σ} (hstart : fleet.start stream = .ok runner)
    (h : Worker.Holds fleet.toBehavior plan stream runner items w) :
    ∃ o, (w.close fleet.toBehavior).outcome = some o ∧
      StreamHistory fleet plan stream items (w.close fleet.toBehavior).trace o := by
  cases h with
  | refused hreport =>
    have hrefusal := openWorker_refusal fleet.toBehavior plan stream runner
    rw [hreport, if_pos rfl] at hrefusal
    refine ⟨_, rfl, ?_⟩
    simp only [Worker.close, hrefusal]
    exact .refused hstart hreport
  | @serving _ hs hreport hrefusal hrun hspecs =>
    -- the trace is what the opening left, what the specifications add, the ending and the kill
    obtain ⟨ending, failure, hending, houtcome, -, htrace⟩ :=
      Worker.close_serving (b := fleet.toBehavior) hrefusal
    have hsame : w.session.stream = stream := hrun.stream_eq
    rw [hsame] at hending houtcome
    rw [hrun.trace_eq, openWorker_trace] at htrace
    exact ⟨_, houtcome, htrace ▸ .served hstart hreport hspecs hending⟩

theorem upToOffer_begins (count : Nat) (trace : List Occurrence) :
    upToOffer count trace <+: trace := by
  fun_induction upToOffer count trace with
  | case1 _ => exact List.nil_prefix
  | case2 _ => exact List.nil_prefix
  | case3 count m rest ih => exact List.cons_prefix_cons.mpr ⟨rfl, ih⟩
  | case4 count o rest _ ih => exact List.cons_prefix_cons.mpr ⟨rfl, ih⟩

theorem Worker.finish_leaves {w : Worker σ} {o : StreamOutcome}
    (h : (w.close fleet.toBehavior).outcome = some o) :
    (w.finish fleet).Leaves fleet (w.close fleet.toBehavior).trace o := by
  simp only [Worker.finish]
  split
  next => exact .whole h rfl
  next count hbroken =>
    refine .brokenOff ?_ rfl (upToOffer_begins count _)
    rw [StreamRun.BrokeDown, hbroken]
    rfl

/-- The stream has come to its end: its runner did not start, or a worker that took these
specifications was finished. -/
inductive StreamRun.Ended (fleet : Fleet σ) (plan : Plan) (stream : Nat) (items : List Placed) :
    StreamRun σ → Prop
  | unstarted {e : ProtocolError} : fleet.start stream = .error e →
      Ended fleet plan stream items (.unstarted stream items e)
  | finished {runner : σ} {w : Worker σ} : fleet.start stream = .ok runner →
      w.Holds fleet.toBehavior plan stream runner items →
      Ended fleet plan stream items (w.finish fleet)

theorem StreamRun.Ended.follows {run : StreamRun σ} (h : run.Ended fleet plan stream items) :
    run.Follows fleet plan stream items := by
  cases h with
  | unstarted hstart => exact ⟨[], _, .unstarted hstart, .whole rfl rfl⟩
  | finished hstart hw =>
    obtain ⟨o, houtcome, hhistory⟩ := hw.close_history hstart
    exact ⟨_, o, hhistory, Worker.finish_leaves houtcome⟩

end

theorem runAssigned_ended (fleet : Fleet σ) (plan : Plan) (stream : Nat) (items : List Placed) :
    (runAssigned fleet plan stream items).Ended fleet plan stream items := by
  unfold runAssigned
  cases hstart : fleet.start stream with
  | error e => exact .unstarted hstart
  | ok runner =>
    exact .finished hstart (takeAssigned_holds fleet.toBehavior plan stream runner items)

/-! ## Streams of a run -/

/-- Every stream of a run came to its end with the work that was assigned to it. -/
theorem Distributed.ended {fleet : Fleet σ} {plan : Plan} {work : Work} {waiting : List Placed}
    {runs : List (StreamRun σ)} (h : Distributed fleet plan work waiting runs) :
    List.Forall₂ (fun share run => StreamRun.Ended fleet plan share.1 share.2 run) work runs := by
  rw [h.runs_eq, List.forall₂_map_right_iff, List.forall₂_same]
  exact fun share _ => runAssigned_ended fleet plan share.1 share.2

/-- Whatever corresponds to some list corresponds, member by member, to members of it. -/
theorem forall₂_mem_right {α β : Type} {R : α → β → Prop} {xs : List α} {ys : List β}
    (h : List.Forall₂ R xs ys) {y : β} (hy : y ∈ ys) : ∃ x ∈ xs, R x y := by
  induction h with
  | nil => cases hy
  | @cons x _ xs _ hxy _ ih =>
    rcases List.mem_cons.mp hy with rfl | hy
    · exact ⟨x, List.mem_cons_self, hxy⟩
    · obtain ⟨other, hother, hrel⟩ := ih hy
      exact ⟨other, List.mem_cons_of_mem x hother, hrel⟩

theorem runLazy_ended (fleet : Fleet σ) (plan : Plan) (order : Nat → Nat) :
    ∃ work : Work, work.map (·.1) = List.range plan.streamCount ∧
      (∀ share ∈ work, share.2.Sublist plan.indexed) ∧
      List.Forall₂ (fun share run => StreamRun.Ended fleet plan share.1 share.2 run) work
        (runLazy fleet plan order) := by
  obtain ⟨work, waiting, opened, htaken, -, h⟩ := runLazy_distributed fleet plan order
  exact ⟨work, htaken.numbered, h.ordered, h.ended⟩

/-- Every stream of a run has a number of its own and takes specifications in the order of the
collection before it comes to its end. -/
theorem runStreams_ended (fleet : Fleet σ) (plan : Plan) (order : Nat → Nat) :
    ∃ work : Work, (work.map (·.1)).Nodup ∧ (∀ share ∈ work, share.2.Sublist plan.indexed) ∧
      List.Forall₂ (fun share run => StreamRun.Ended fleet plan share.1 share.2 run) work
        (runStreams fleet plan order) := by
  obtain ⟨work, waiting, h⟩ := runStreams_distributed fleet plan order
  exact ⟨work, h.numbered, h.ordered, h.ended⟩

end SpecEngine.Engine
