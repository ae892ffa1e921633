/-
# SpecEngine.Proofs.Lifecycle -- what runners are told, and in which order

Whatever a runner answers, what it is told follows one protocol. It is told that the execution
starts, then about the specifications that its stream took, in that order, then perhaps that the
execution ends, and at last it is killed. Between the start and the end of a specification it is told
about attempts at scenarios, and between the start and the end of an attempt about steps. A start is
answered by its end on every path, with the same names and tags; a step alone may be left open, when
it is not executed or when its execution does not come back with a result.

The protocol is a grammar of messages, one relation for each level, and the histories of each level
are shown to follow it. A step whose arguments cannot be resolved, a scenario that is left out and a
specification that is left out are silent, so a level says of which items there are blocks.
-/
import SpecEngine.Proofs.StartedSteps
import SpecEngine.Proofs.StreamHistory

namespace SpecEngine.Engine

open Item (Step Scenario Specification)
open Result (ScenarioResult SpecResult Failure StreamOutcome)
open Runner (Fleet Message Parameter ProtocolError Report)

variable {σ : Type}

/-! ## The protocol -/

/-- What a runner is told about a step. -/
inductive StepBlock (step : Step) : List Message → Prop
  | announced : StepBlock step [.stepStarting step.text]
  | executed (parameters : List Parameter) :
      StepBlock step [.stepStarting step.text, .executeStep step.text parameters]
  | ended (parameters : List Parameter) :
      StepBlock step
        [.stepStarting step.text, .executeStep step.text parameters, .stepEnding step.text]

/-- What a runner is told about an attempt at a scenario. -/
inductive AttemptBlock (spec : Specification) (sc : Scenario) : List Message → Prop
  | around {steps : List Step} {ms : List Message} : steps.Sublist sc.flatSteps →
      Blocks StepBlock steps ms →
      AttemptBlock spec sc
        (.scenarioStarting spec.fileName sc.heading (spec.scenarioTags sc) ::
          (ms ++ [.scenarioEnding spec.fileName sc.heading (spec.scenarioTags sc)]))

/-- What a runner is told about attempts at scenarios of a specification. -/
def AttemptBlocks (spec : Specification) (ms : List Message) : Prop :=
  ∃ attempted : List Scenario, (∀ sc ∈ attempted, sc ∈ spec.scenarios) ∧
    Blocks (AttemptBlock spec) attempted ms

/-- What a runner is told about a specification. -/
inductive SpecBlock (spec : Specification) : List Message → Prop
  | around {ms : List Message} : AttemptBlocks spec ms →
      SpecBlock spec
        (.specStarting spec.fileName spec.heading spec.tags ::
          (ms ++ [.specEnding spec.fileName spec.heading spec.tags]))

/-- A call on a runner. -/
inductive Call where
  | offered (m : Message)
  | killed

/-- The calls on the runner of a stream that takes these specifications. -/
inductive Lifecycle (fleet : Fleet σ) (plan : Plan) (stream : Nat) (items : List Placed) :
    List Call → Prop
  | unstarted {e} : fleet.start stream = .error e → Lifecycle fleet plan stream items []
  | refused {runner} : fleet.start stream = .ok runner →
      (openingReport fleet.toBehavior plan stream runner).failed = true →
      Lifecycle fleet plan stream items [.offered (opening plan stream), .killed]
  | served {runner} {specs : List Specification} {ms ending : List Message} :
      fleet.start stream = .ok runner →
      (openingReport fleet.toBehavior plan stream runner).failed = false →
      specs.Sublist (items.map (·.2)) → Blocks SpecBlock specs ms →
      ending = [] ∨ ending = [.executionEnding (.ofNat stream)] →
      Lifecycle fleet plan stream items
        ((opening plan stream :: (ms ++ ending)).map .offered ++ [.killed])

/-- The call of an occurrence; announcements are none. -/
def Occurrence.call? : Occurrence → Option Call
  | .offered m => some (.offered m)
  | .announced _ => none
  | .killed => some .killed

/-- The calls on the runner of a stream, in order. -/
def StreamRun.calls (run : StreamRun σ) : List Call := run.trace.filterMap Occurrence.call?

/-- The calls on the stream's runner follow the protocol; if its task broke down, they are the first
of such calls. -/
def StreamRun.FollowsLifecycle (fleet : Fleet σ) (plan : Plan) (stream : Nat) (items : List Placed)
    (run : StreamRun σ) : Prop :=
  ∃ calls, Lifecycle fleet plan stream items calls ∧
    (run.calls = calls ∨ run.BrokeDown fleet ∧ run.calls <+: calls)

/-! ## Messages -/

/-- The message that a happening offers. -/
def Happening.message? : Happening → Option Message
  | .exchanged m _ => some m
  | _ => none

/-- The messages that were offered, in order. -/
def messages (hs : List Happening) : List Message := hs.filterMap Happening.message?

theorem messages_append (hs hs' : List Happening) :
    messages (hs ++ hs') = messages hs ++ messages hs' := List.filterMap_append

theorem messages_exchanged (m : Message) (answer : Except ProtocolError Message)
    (hs : List Happening) : messages (.exchanged m answer :: hs) = m :: messages hs := rfl

theorem messages_announcedAround (start stop : Event.Topic) (subject : Event.Subject)
    (outcome : Event.Outcome) (hs : List Happening) :
    messages (announcedAround start stop subject outcome hs) = messages hs := by
  show messages (hs ++ [_]) = _
  rw [messages_append]
  exact List.append_nil _

theorem messages_withoutConcepts (hs : List Happening) :
    messages (withoutConcepts hs) = messages hs := by
  refine filterMap_withoutConcepts (fun h hconcept => ?_) hs
  cases h with
  | exchanged m answer => cases hconcept
  | looked alive => rfl
  | announced topic subject outcome => rfl

theorem occurrences_calls (stream : Nat) (hs : List Happening) :
    (occurrences stream hs).filterMap Occurrence.call? = (messages hs).map .offered := by
  rw [occurrences, messages, List.filterMap_filterMap, List.map_filterMap]
  congr 1
  funext h
  cases h <;> rfl

theorem occurrences_messages (stream : Nat) (hs : List Happening) :
    (occurrences stream hs).filterMap Occurrence.message? = messages hs := by
  rw [occurrences, messages, List.filterMap_filterMap]
  congr 1
  funext h
  cases h <;> rfl

/-- What the runner was offered grows by the messages of what happens. -/
theorem Happens.offers_eq {b : Runner.Behavior σ} {s t : Session σ} {hs : List Happening}
    (h : Happens b s hs t) : t.offers = s.offers ++ messages hs := by
  rw [Session.offers, h.trace_eq, List.filterMap_append, occurrences_messages]
  rfl

/-! ## Steps and attempts -/

theorem HookHistory.messages_eq {m : Message} {hs : List Happening} {report : Report}
    (h : HookHistory m hs report) : messages hs = [m] := by
  cases h <;> rfl

/-- A step is silent or makes a block. -/
theorem StepHistory.block {plan : Plan} {row : Option Table.Row} {step : Step}
    {hs : List Happening} {e : Executed} (h : StepHistory plan row step hs e) :
    messages hs = [] ∨ StepBlock step (messages hs) := by
  cases h with
  | unresolved _ => exact .inl rfl
  | refused _ hbefore _ =>
    rw [hbefore.messages_eq]
    exact .inr .announced
  | @broken parameters _ _ _ _ _ _ hbefore _ _ =>
    rw [messages_append, hbefore.messages_eq]
    exact .inr (.executed parameters)
  | @reported parameters _ _ _ _ _ _ _ hbefore _ _ hafter =>
    rw [messages_append, hbefore.messages_eq, messages_exchanged, hafter.messages_eq]
    exact .inr (.ended parameters)

/-- Steps that are started make blocks in their order. -/
theorem startedSteps_blocks {plan : Plan} {row : Option Table.Row} (fileName : String)
    {runs : List StartedStep}
    (h : ∀ run ∈ runs, StepHistory plan row run.step run.happened run.executed) :
    ∃ steps : List Step, steps.Sublist (runs.map (·.step)) ∧
      Blocks StepBlock steps (messages (runs.flatMap (·.happenings fileName))) := by
  induction runs with
  | nil => exact ⟨[], .slnil, .nil⟩
  | cons run rest ih =>
    obtain ⟨hrun, hrest⟩ := List.forall_mem_cons.mp h
    obtain ⟨steps, hsteps, hblocks⟩ := ih hrest
    rw [List.flatMap_cons, messages_append, StartedStep.happenings, stepHappenings,
      messages_announcedAround]
    rcases hrun.block with hsilent | hblock
    · rw [hsilent]
      exact ⟨steps, hsteps.cons _, hblocks⟩
    · exact ⟨run.step :: steps, hsteps.cons_cons _, .cons hblock hblocks⟩

theorem AttemptHistory.block {plan : Plan} {spec : Specification} {sc : Scenario}
    {row : Option Table.Row} {hs : List Happening} {r : ScenarioResult}
    (h : AttemptHistory plan spec sc row hs r) : AttemptBlock spec sc (messages hs) := by
  obtain ⟨before, runs, hstarts⟩ := h.startsFirstSteps
  obtain ⟨opening, closing, after, hopening, hclosing, hhappened⟩ := hstarts.happened
  obtain ⟨steps, hsteps, hblocks⟩ := startedSteps_blocks spec.fileName hstarts.history
  -- concepts are announced to listeners only, so the flat account has all the messages
  rw [← messages_withoutConcepts, hhappened, messages_append, messages_append,
    hopening.messages_eq, hclosing.messages_eq]
  refine .around (hsteps.trans ?_) hblocks
  rw [hstarts.steps]
  exact List.take_sublist _ _

/-! ## Scenarios -/

namespace AttemptBlocks

variable {spec : Specification} {ms ms' : List Message}

theorem nil : AttemptBlocks spec [] := ⟨[], by simp, .nil⟩

theorem append (h : AttemptBlocks spec ms) (h' : AttemptBlocks spec ms') :
    AttemptBlocks spec (ms ++ ms') := by
  obtain ⟨scenarios, hmem, hblocks⟩ := h
  obtain ⟨scenarios', hmem', hblocks'⟩ := h'
  exact ⟨scenarios ++ scenarios', List.forall_mem_append.mpr ⟨hmem, hmem'⟩,
    hblocks.append hblocks'⟩

end AttemptBlocks

section

variable {plan : Plan} {spec : Specification} {sc : Scenario} {hs : List Happening}

/-- What is told of a scenario makes up its attempts. -/
theorem AttemptsHistory.attempts_blocks {row : Option Table.Row} {number more : Nat}
    {r : ScenarioResult} (h : AttemptsHistory plan spec sc row number more hs r) :
    ∃ attempts, Blocks (AttemptBlock spec) (List.replicate attempts sc) (messages hs) := by
  induction h with
  | last hattempt _ => exact ⟨1, .singleton hattempt.block⟩
  | again hattempt _ _ _ ih =>
    obtain ⟨attempts, hblocks⟩ := ih
    rw [messages_append]
    exact ⟨attempts + 1, .cons hattempt.block hblocks⟩

theorem ScenarioHistory.attempts_blocks {row : Option Table.Row} {aborted : Bool}
    {r : ScenarioResult} (h : ScenarioHistory plan spec sc row aborted hs r) :
    ∃ attempts, Blocks (AttemptBlock spec) (List.replicate attempts sc) (messages hs) := by
  cases h with
  | illFormed _ => exact ⟨0, .nil⟩
  | dead _ _ => exact ⟨0, .nil⟩
  | attempted _ _ hattempts =>
    rw [scenarioHappenings, messages_announcedAround]
    exact hattempts.attempts_blocks

theorem ScenarioHistory.blocks {row : Option Table.Row} {aborted : Bool} {r : ScenarioResult}
    (h : ScenarioHistory plan spec sc row aborted hs r) (hsc : sc ∈ spec.scenarios) :
    AttemptBlocks spec (messages hs) := by
  obtain ⟨attempts, hblocks⟩ := h.attempts_blocks
  refine ⟨List.replicate attempts sc, fun attempted hattempted => ?_, hblocks⟩
  rw [List.eq_of_mem_replicate hattempted]
  exact hsc

theorem RowsHistory.blocks {aborted : Bool} {rows : List Table.Row} {rs : List ScenarioResult}
    (h : RowsHistory plan spec sc aborted rows hs rs) (hsc : sc ∈ spec.scenarios) :
    AttemptBlocks spec (messages hs) := by
  induction h with
  | nil => exact .nil
  | cons hrow _ ih =>
    rw [messages_append]
    exact (hrow.blocks hsc).append ih

theorem TableHistory.blocks {aborted : Bool} {rows : Option (List Table.Row)}
    {rs : List ScenarioResult} (h : TableHistory plan spec aborted sc rows hs rs)
    (hsc : sc ∈ spec.scenarios) : AttemptBlocks spec (messages hs) := by
  cases h with
  | once _ hscenario => exact hscenario.blocks hsc
  | perRow _ hrows => exact hrows.blocks hsc
  | withoutRows _ => exact .nil

theorem ScenariosHistory.blocks {aborted : Bool} {rows : Option (List Table.Row)}
    {scenarios : List Scenario} {rs : List ScenarioResult}
    (h : ScenariosHistory plan spec rows aborted scenarios hs rs)
    (hscenarios : ∀ sc ∈ scenarios, sc ∈ spec.scenarios) : AttemptBlocks spec (messages hs) := by
  induction h with
  | nil => exact .nil
  | cons hfirst _ ih =>
    obtain ⟨hsc, hrest⟩ := List.forall_mem_cons.mp hscenarios
    rw [messages_append]
    exact (hfirst.blocks hsc).append (ih hrest)

end

/-! ## Specifications and streams -/

/-- A specification is silent or makes a block. -/
theorem SpecHistory.block {plan : Plan} {spec : Specification} {aborted : Bool}
    {hs : List Happening} {r : SpecResult} (h : SpecHistory plan spec aborted hs r) :
    messages hs = [] ∨ SpecBlock spec (messages hs) := by
  cases h with
  | illFormed _ => exact .inl rfl
  | dead _ _ => exact .inl rfl
  | @takenUp hs before body scenarios failure hs' after _ _ hbefore hbody hafter =>
    -- the closing announcement is made whether or not there was anything to attempt
    have hblocks : AttemptBlocks spec (messages body) := by
      cases hbody with
      | refused _ => exact .nil
      | unresolvable _ _ => exact .nil
      | carriedOut _ _ hscenarios => exact hscenarios.blocks fun _ h => h
    rw [messages_append, messages_append, hbefore.messages_eq, hafter.messages_eq]
    exact .inr (.around hblocks)

theorem SpecsHistory.blocks {plan : Plan} {aborted : Bool} {items : List Placed}
    {hs : List Happening} {entries : List (Nat × SpecResult)}
    (h : SpecsHistory plan aborted items hs entries) :
    ∃ specs : List Specification, specs.Sublist (items.map (·.2)) ∧
      Blocks SpecBlock specs (messages hs) := by
  induction h with
  | nil => exact ⟨[], .slnil, .nil⟩
  | @cons aborted item rest hs r hs' entries hspec _ ih =>
    obtain ⟨specs, hspecs, hblocks⟩ := ih
    rw [messages_append, specHappenings, messages_announcedAround]
    rcases hspec.block with hsilent | hblock
    · rw [hsilent]
      exact ⟨specs, hspecs.cons _, hblocks⟩
    · exact ⟨item.2 :: specs, hspecs.cons_cons _, .cons hblock hblocks⟩

section

variable {fleet : Fleet σ} {plan : Plan} {stream : Nat} {items : List Placed}

theorem StreamHistory.lifecycle {trace : List Occurrence} {o : StreamOutcome}
    (h : StreamHistory fleet plan stream items trace o) :
    Lifecycle fleet plan stream items (trace.filterMap Occurrence.call?) := by
  cases h with
  | unstarted hstart => exact .unstarted hstart
  | refused hstart hreport => exact .refused hstart hreport
  | @served runner hs entries ending failure hstart hreport hspecs hending =>
    obtain ⟨specs, htaken, hblocks⟩ := hspecs.blocks
    have hlast := hending.ending_eq
    have hcalls : (ending.map Occurrence.offered).filterMap Occurrence.call? =
        ending.map Call.offered := by
      rcases hlast with rfl | rfl <;> rfl
    -- the announcements in the trace drop out, the kill stays last
    have htrace : (Occurrence.offered (opening plan stream) ::
          (occurrences stream hs ++ ending.map .offered ++ [.killed])).filterMap Occurrence.call? =
        (opening plan stream :: (messages hs ++ ending)).map Call.offered ++ [.killed] := by
      rw [List.filterMap_cons, List.filterMap_append, List.filterMap_append, occurrences_calls,
        hcalls, ← List.map_append]
      rfl
    rw [htrace]
    exact .served hstart hreport htaken hblocks hlast

/-- What a stream hands in stands for the specifications that it took, in their order. -/
theorem StreamHistory.positions_eq {trace : List Occurrence} {o : StreamOutcome}
    (h : StreamHistory fleet plan stream items trace o) :
    o.results.map (·.1) = items.map (·.1) := by
  cases h with
  | unstarted _ => exact List.map_map
  | refused _ _ => exact List.map_map
  | served _ _ hspecs _ => exact hspecs.positions_eq

theorem StreamRun.Follows.lifecycle {run : StreamRun σ} (h : run.Follows fleet plan stream items) :
    run.FollowsLifecycle fleet plan stream items := by
  obtain ⟨trace, o, hhistory, hleaves⟩ := h
  refine ⟨_, hhistory.lifecycle, ?_⟩
  cases hleaves with
  | whole _ htrace => exact .inl (congrArg _ htrace)
  | brokenOff hbroken _ htrace => exact .inr ⟨hbroken, htrace.filterMap _⟩

theorem StreamRun.Follows.positions_eq {run : StreamRun σ} {o : StreamOutcome}
    (h : run.Follows fleet plan stream items) (ho : run.outcome = some o) :
    o.results.map (·.1) = items.map (·.1) := by
  obtain ⟨trace, o', hhistory, hleaves⟩ := h
  cases hleaves with
  | whole houtcome _ =>
    rw [ho] at houtcome
    obtain rfl := Option.some.inj houtcome
    exact hhistory.positions_eq
  | brokenOff _ houtcome _ =>
    rw [ho] at houtcome
    cases houtcome

end

/-- The calls on the runner of every stream follow the protocol, for the specifications that were
assigned to it or that it claimed. -/
theorem streams_follow_lifecycle (fleet : Fleet σ) (plan : Plan) :
    (∀ stream items,
      (runAssigned fleet plan stream items).FollowsLifecycle fleet plan stream items) ∧
    ∀ order, ∃ claimed : Work, claimed.map (·.1) = List.range plan.streamCount ∧
      (∀ share ∈ claimed, share.2.Sublist plan.indexed) ∧
      List.Forall₂ (fun share run =>
          StreamRun.FollowsLifecycle fleet plan share.1 share.2 run ∧
            ∀ o, run.outcome = some o → o.results.map (·.1) = share.2.map (·.1))
        claimed (runLazy fleet plan order) := by
  refine ⟨fun stream items => (runAssigned_ended fleet plan stream items).follows.lifecycle, ?_⟩
  intro order
  obtain ⟨claimed, hnumbered, hordered, hended⟩ := runLazy_ended fleet plan order
  refine ⟨claimed, hnumbered, hordered, hended.imp ?_⟩
  intro share run hrun
  exact ⟨hrun.follows.lifecycle, fun o ho => hrun.follows.positions_eq ho⟩

end SpecEngine.Engine
