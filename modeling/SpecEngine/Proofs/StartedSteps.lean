/-
# SpecEngine.Proofs.StartedSteps -- an attempt starts the first steps of its scenario

However its steps are grouped into concepts, an attempt runs them as one flat list: it starts some
number of them, in order, and leaves out the rest, which are reported as skipped and of which
neither runner nor listeners hear. A step before the last one that was started was executed once,
and it passed or failed in a way that the runner called recoverable. If steps are left out, the last
one that was started says why: it failed otherwise, or the runner asked to skip the scenario.

The histories of nested items are first read as one list of started steps (`StartedInOrder`), each
with all that happened from its start to its end. What the claims about single steps need is then
read off the history of a step.
-/
import SpecEngine.Proofs.Concepts
import SpecEngine.Proofs.History

namespace SpecEngine.Engine

open Item (Step StepItem Scenario Specification)
open Result (StepResult ScenarioResult)
open Runner (Behavior Message ProtocolError Report)
open Event (Subject)

variable {σ : Type}

/-! ## Started steps -/

/-- The request to execute a step, with its answer. -/
def Happening.execution? : Happening → Option (Message × Except ProtocolError Message)
  | .exchanged (.executeStep text parameters) answer =>
    some (.executeStep text parameters, answer)
  | _ => none

/-- Whether the happening is the announcement of a concept. -/
def Happening.isOfConcept : Happening → Bool
  | .announced .conceptStart _ _ | .announced .conceptEnd _ _ => true
  | _ => false

/-- The plain step that is announced as started. -/
def Happening.startedStep? : Happening → Option Subject
  | .announced .stepStart subject _ => some subject
  | _ => none

theorem startedStep?_of_concept (h : Happening) (hconcept : h.isOfConcept = true) :
    h.startedStep? = none := by
  rcases h with _ | _ | ⟨topic, _, _⟩
  · rfl
  · rfl
  · cases topic <;> first | rfl | cases hconcept

/-- The happenings without the announcements of concepts. -/
def withoutConcepts (hs : List Happening) : List Happening := hs.filter fun h => !h.isOfConcept

theorem withoutConcepts_append (hs hs' : List Happening) :
    withoutConcepts (hs ++ hs') = withoutConcepts hs ++ withoutConcepts hs' :=
  List.filter_append hs hs'

/-- What is read off happenings that are not about concepts may be read off without these. -/
theorem filterMap_withoutConcepts {α : Type} {f : Happening → Option α}
    (hf : ∀ h, h.isOfConcept = true → f h = none) (hs : List Happening) :
    (withoutConcepts hs).filterMap f = hs.filterMap f := by
  rw [withoutConcepts, List.filterMap_filter]
  congr 1
  funext h
  cases hconcept : h.isOfConcept with
  | true => rw [hf h hconcept]; rfl
  | false => rfl

theorem withoutConcepts_of_unannounced {hs : List Happening}
    (h : ∀ x ∈ hs, x.isAnnounced = false) : withoutConcepts hs = hs := by
  refine List.filter_eq_self.mpr fun x hx => ?_
  have hx := h x hx
  cases x with
  | exchanged m answer => rfl
  | looked alive => rfl
  | announced topic subject outcome => cases hx

theorem startedSteps_of_unannounced {hs : List Happening}
    (h : ∀ x ∈ hs, x.isAnnounced = false) : hs.filterMap Happening.startedStep? = [] := by
  refine List.filterMap_eq_nil_iff.mpr fun x hx => ?_
  have hx := h x hx
  cases x with
  | exchanged m answer => rfl
  | looked alive => rfl
  | announced topic subject outcome => cases hx

/-- A step that was started: what happened until it ended, and what it came to. -/
structure StartedStep where
  step : Step
  happened : List Happening
  executed : Executed

namespace StartedStep

/-- What happened from the announcement of its start to that of its end. -/
def happenings (fileName : String) (run : StartedStep) : List Happening :=
  stepHappenings fileName run.step run.happened run.executed

/-- The result of the step. -/
def result (run : StartedStep) : StepResult := run.executed.result

/-- The requests to execute a step that were made, with their answers. -/
def executions (run : StartedStep) : List (Message × Except ProtocolError Message) :=
  run.happened.filterMap Happening.execution?

variable (plan : Plan) (row : Option Table.Row) (run : StartedStep)

/-- The arguments of the step can be resolved. -/
def Resolves : Prop := ∃ parameters, plan.resolver.parameters row run.step.args = .ok parameters

/-- The opening announcement of the step was made and passed. -/
def Opens : Prop :=
  ∃ answer, .exchanged (.stepStarting run.step.text) answer ∈ run.happened ∧
    (Runner.reportOf answer).failed = false

/-- The step was executed once, with its arguments resolved, and the runner gave this answer. -/
def ExecutedOnce (answer : Except ProtocolError Message) : Prop :=
  ∃ parameters, plan.resolver.parameters row run.step.args = .ok parameters ∧
    run.executions = [(.executeStep run.step.text parameters, answer)]

/-- The step was executed once and passed, or failed in a way that the runner calls recoverable. -/
def GoesOn : Prop :=
  ∃ answer report, run.ExecutedOnce plan row answer ∧ Runner.statusOf answer = .ok report ∧
    (run.result.status = .passed ∨
      run.result.status = .failed ∧ report.failed = true ∧ report.recoverable = true)

/-- Why the steps after this one do not run. -/
inductive Stops : Prop
  /-- The runner asked to skip the scenario. -/
  | skipped {answer report} : run.result.status = .skipped → run.ExecutedOnce plan row answer →
      Runner.statusOf answer = .ok report → report.skipScenario = true → Stops
  | unresolved : run.result.status = .failed → ¬run.Resolves plan row → Stops
  /-- An announcement of the step was made and failed. -/
  | hookFailed {m answer} : run.result.status = .failed →
      m = .stepStarting run.step.text ∨ m = .stepEnding run.step.text →
      .exchanged m answer ∈ run.happened → (Runner.reportOf answer).failed = true → Stops
  /-- The round trip of the step itself failed. -/
  | broken {answer e} : run.result.status = .failed → run.ExecutedOnce plan row answer →
      Runner.statusOf answer = .error e → Stops
  | unrecoverable {answer report} : run.result.status = .failed →
      run.ExecutedOnce plan row answer → Runner.statusOf answer = .ok report →
      report.failed = true → report.recoverable = false → Stops

end StartedStep

/-! ## One step -/

section

variable {plan : Plan} {row : Option Table.Row} {step : Step} {hs : List Happening}
variable {e : Executed}

theorem HookHistory.exchange_mem {m : Message} {report : Report} (h : HookHistory m hs report) :
    ∃ answer, .exchanged m answer ∈ hs ∧ Runner.reportOf answer = report := by
  cases h with
  | @passed answer _ => exact ⟨answer, List.mem_cons_self, rfl⟩
  | @failed answer _ _ => exact ⟨answer, List.mem_cons_self, rfl⟩

theorem HookHistory.stepStarting_executions {text : String} {report : Report}
    (h : HookHistory (.stepStarting text) hs report) :
    hs.filterMap Happening.execution? = [] := by
  cases h <;> rfl

theorem HookHistory.stepEnding_executions {text : String} {report : Report}
    (h : HookHistory (.stepEnding text) hs report) :
    hs.filterMap Happening.execution? = [] := by
  cases h <;> rfl

theorem looked_executions (alive : Bool) :
    [Happening.looked alive].filterMap Happening.execution? = [] := rfl

theorem StepHistory.reports (h : StepHistory plan row step hs e) : e.result.Reports step := by
  cases h with
  | unresolved _ => exact StepResult.failed_reports ..
  | refused _ _ _ => exact StepResult.failed_reports ..
  | broken _ _ _ _ _ => exact StepResult.failed_reports ..
  | reported _ _ _ _ _ => exact afterHook_reports step ..

theorem stepHappenings_withoutConcepts (fileName : String) (h : StepHistory plan row step hs e) :
    withoutConcepts (stepHappenings fileName step hs e) = stepHappenings fileName step hs e := by
  show _ :: withoutConcepts (hs ++ [_]) = _
  rw [withoutConcepts_append, withoutConcepts_of_unannounced h.unannounced]
  rfl

/-- A step that comes to be executed is executed once. -/
theorem executedOnce {parameters : List Runner.Parameter} {before after : List Happening}
    {answer : Except ProtocolError Message}
    (hparameters : plan.resolver.parameters row step.args = .ok parameters)
    (hbefore : before.filterMap Happening.execution? = [])
    (hafter : after.filterMap Happening.execution? = []) :
    (StartedStep.mk step
      (before ++ .exchanged (.executeStep step.text parameters) answer :: after) e).ExecutedOnce
        plan row answer := by
  refine ⟨parameters, hparameters, ?_⟩
  show (before ++ _ :: after).filterMap Happening.execution? = _
  rw [List.filterMap_append, hbefore, List.nil_append, List.filterMap_cons, hafter]
  rfl

theorem StartedStep.ExecutedOnce.executions_ne_nil {run : StartedStep}
    {answer : Except ProtocolError Message} (h : run.ExecutedOnce plan row answer) :
    run.executions ≠ [] := by
  obtain ⟨parameters, -, honce⟩ := h
  rw [honce]
  exact List.cons_ne_nil _ _

/-- A step is executed exactly when its arguments can be resolved and its opening announcement
passes. -/
theorem StepHistory.executions_ne_nil_iff (h : StepHistory plan row step hs e) :
    (StartedStep.mk step hs e).executions ≠ [] ↔
      (StartedStep.mk step hs e).Resolves plan row ∧ (StartedStep.mk step hs e).Opens := by
  cases h with
  | unresolved hfault =>
    refine iff_of_false (fun h => h rfl) ?_
    rintro ⟨⟨parameters, hparameters⟩, -⟩
    rw [hfault] at hparameters
    cases hparameters
  | refused hparameters hbefore hfailed =>
    refine iff_of_false (fun h => h hbefore.stepStarting_executions) ?_
    rintro ⟨-, answer, hmem, hpassed⟩
    -- the announcement was made once, and it failed
    cases hbefore with
    | passed h => rw [h] at hfailed; cases hfailed
    | failed alive h =>
      simp only [List.mem_cons, Happening.exchanged.injEq, true_and, reduceCtorEq,
        List.not_mem_nil, or_false] at hmem
      rw [hmem, h] at hpassed
      cases hpassed
  | broken alive hparameters hbefore hpassed hstatus =>
    obtain ⟨answer, hmem, hreport⟩ := hbefore.exchange_mem
    refine iff_of_true ?_
      ⟨⟨_, hparameters⟩, answer, List.mem_append_left _ hmem, hreport ▸ hpassed⟩
    exact (executedOnce hparameters hbefore.stepStarting_executions
      (looked_executions alive)).executions_ne_nil
  | reported hparameters hbefore hpassed hstatus hafter =>
    obtain ⟨answer, hmem, hreport⟩ := hbefore.exchange_mem
    refine iff_of_true ?_
      ⟨⟨_, hparameters⟩, answer, List.mem_append_left _ hmem, hreport ▸ hpassed⟩
    exact (executedOnce hparameters hbefore.stepStarting_executions
      hafter.stepEnding_executions).executions_ne_nil

/-- The ways in which a step that was executed can end. -/
theorem afterHook_cases (step : Step) (report after : Report) :
    ((afterHook step report after).halt = false ∧
        ((afterHook step report after).result.status = .passed ∨
          (afterHook step report after).result.status = .failed ∧ report.failed = true ∧
            report.recoverable = true)) ∨
      ((afterHook step report after).halt = true ∧
        ((afterHook step report after).result.status = .skipped ∧ report.skipScenario = true ∨
          (afterHook step report after).result.status = .failed ∧
            (after.failed = true ∨ report.failed = true ∧ report.recoverable = false))) := by
  unfold afterHook judge
  cases hfailed : report.failed <;> cases hskip : report.skipScenario <;>
    cases hrecover : report.recoverable <;> cases hafter : after.failed <;>
    simp [Executed.finished, StepResult.failed, StepResult.skipped, StepResult.passed]

/-- A step that does not halt what follows passed or failed recoverably, and one that does says
why. -/
theorem StepHistory.goesOn_or_stops (h : StepHistory plan row step hs e) :
    e.halt = false ∧ (StartedStep.mk step hs e).GoesOn plan row ∨
      e.halt = true ∧ (StartedStep.mk step hs e).Stops plan row := by
  cases h with
  | unresolved hfault =>
    refine .inr ⟨rfl, .unresolved rfl ?_⟩
    rintro ⟨parameters, hparameters⟩
    rw [hfault] at hparameters
    cases hparameters
  | refused hparameters hbefore hfailed =>
    obtain ⟨answer, hmem, rfl⟩ := hbefore.exchange_mem
    exact .inr ⟨rfl, .hookFailed rfl (.inl rfl) hmem hfailed⟩
  | broken alive hparameters hbefore hpassed hstatus =>
    refine .inr ⟨rfl, .broken rfl ?_ hstatus⟩
    exact executedOnce hparameters hbefore.stepStarting_executions (looked_executions alive)
  | @reported _ _ _ answer report _ after hparameters hbefore hpassed hstatus hafter =>
    have honce : StartedStep.ExecutedOnce plan row ⟨step, _, afterHook step report after⟩ answer :=
      executedOnce hparameters hbefore.stepStarting_executions hafter.stepEnding_executions
    rcases afterHook_cases step report after with ⟨hgoes, hend⟩ | ⟨hhalts, hend⟩
    · exact .inl ⟨hgoes, _, _, honce, hstatus, hend⟩
    · refine .inr ⟨hhalts, ?_⟩
      rcases hend with ⟨hskipped, hrequest⟩ | ⟨hfailed, hhook | ⟨hreport, hrecover⟩⟩
      · exact .skipped hskipped honce hstatus hrequest
      · obtain ⟨answer, hmem, rfl⟩ := hafter.exchange_mem
        exact .hookFailed hfailed (.inr rfl)
          (List.mem_append_right _ (List.mem_cons_of_mem _ hmem)) hhook
      · exact .unrecoverable hfailed honce hstatus hreport hrecover

end

/-! ## Steps in order -/

/-- Steps are started in order up to the first that halts; the last argument says whether one
does. -/
inductive StartedInOrder (plan : Plan) (row : Option Table.Row) :
    List Step → List StartedStep → Bool → Prop
  | nil : StartedInOrder plan row [] [] false
  | halted {step rest hs e} : StepHistory plan row step hs e → e.halt = true →
      StartedInOrder plan row (step :: rest) [⟨step, hs, e⟩] true
  | cons {step rest hs e runs halted} : StepHistory plan row step hs e → e.halt = false →
      StartedInOrder plan row rest runs halted →
      StartedInOrder plan row (step :: rest) (⟨step, hs, e⟩ :: runs) halted

namespace StartedInOrder

variable {plan : Plan} {row : Option Table.Row} {steps others : List Step}
variable {runs more : List StartedStep} {halted : Bool}

/-- Steps after one that halts are not started. -/
theorem append_halted (h : StartedInOrder plan row steps runs true) (others : List Step) :
    StartedInOrder plan row (steps ++ others) runs true := by
  generalize hflag : true = flag at h
  induction h with
  | nil => cases hflag
  | halted hstep hhalt => exact .halted hstep hhalt
  | cons hstep hgoes _ ih => exact .cons hstep hgoes (ih hflag)

theorem append (h : StartedInOrder plan row steps runs false)
    (h' : StartedInOrder plan row others more halted) :
    StartedInOrder plan row (steps ++ others) (runs ++ more) halted := by
  generalize hflag : false = flag at h
  induction h with
  | nil => exact h'
  | halted _ _ => cases hflag
  | cons hstep hgoes _ ih => exact .cons hstep hgoes (ih hflag)

/-- The steps that are started are the first ones. -/
theorem started (h : StartedInOrder plan row steps runs halted) :
    runs.length ≤ steps.length ∧ runs.map (·.step) = steps.take runs.length := by
  induction h with
  | nil => exact ⟨Nat.le_refl 0, rfl⟩
  | halted hstep hhalt => exact ⟨by simp, by simp⟩
  | cons hstep hgoes _ ih =>
    refine ⟨Nat.succ_le_succ ih.1, ?_⟩
    rw [List.map_cons, ih.2, List.length_cons, List.take_succ_cons]

/-- If no step halts, all are started. -/
theorem length_eq (h : StartedInOrder plan row steps runs false) :
    runs.length = steps.length := by
  generalize hflag : false = flag at h
  induction h with
  | nil => rfl
  | halted _ _ => cases hflag
  | cons _ _ _ ih => rw [List.length_cons, List.length_cons, ih hflag]

theorem history (h : StartedInOrder plan row steps runs halted) :
    ∀ run ∈ runs, StepHistory plan row run.step run.happened run.executed := by
  induction h with
  | nil => simp
  | halted hstep _ => exact List.forall_mem_singleton.mpr hstep
  | cons hstep _ _ ih => exact List.forall_mem_cons.mpr ⟨hstep, ih⟩

/-- The steps before the last one that is started do not halt. -/
theorem earlier (h : StartedInOrder plan row steps runs halted) :
    ∀ run ∈ runs.dropLast, run.GoesOn plan row := by
  induction h with
  | nil => simp
  | halted _ _ => simp
  | @cons step rest hs e runs halted hstep hgoes hrest ih =>
    obtain _ | ⟨next, later⟩ := runs
    · simp
    · rw [List.dropLast_cons_cons]
      refine List.forall_mem_cons.mpr ⟨?_, ih⟩
      rcases hstep.goesOn_or_stops with ⟨-, hgoesOn⟩ | ⟨hhalt, -⟩
      · exact hgoesOn
      · rw [hgoes] at hhalt
        cases hhalt

/-- If a step halts, it is the last one that is started. -/
theorem last_stops (h : StartedInOrder plan row steps runs true) :
    ∃ run ∈ runs.getLast?, run.Stops plan row := by
  generalize hflag : true = flag at h
  induction h with
  | nil => cases hflag
  | @halted step rest hs e hstep hhalt =>
    rcases hstep.goesOn_or_stops with ⟨hgoes, -⟩ | ⟨-, hstops⟩
    · rw [hhalt] at hgoes
      cases hgoes
    · exact ⟨⟨step, hs, e⟩, rfl, hstops⟩
  | @cons step rest hs e runs halted hstep hgoes hrest ih =>
    obtain ⟨run, hrun, hstops⟩ := ih hflag
    refine ⟨run, ?_, hstops⟩
    rw [List.getLast?_cons, Option.mem_def.mp hrun]
    rfl

end StartedInOrder

/-- The steps that are announced are those that are started. -/
theorem StartedInOrder.announced {plan : Plan} {row : Option Table.Row} {steps : List Step}
    {runs : List StartedStep} {halted : Bool} (fileName : String)
    (h : StartedInOrder plan row steps runs halted) :
    (runs.flatMap (·.happenings fileName)).filterMap Happening.startedStep? =
      runs.map fun run => .ofStep fileName run.step := by
  have hrun : ∀ run ∈ runs, (run.happenings fileName).filterMap Happening.startedStep? =
      [.ofStep fileName run.step] := by
    intro run hmem
    show _ :: (run.happened ++ [_]).filterMap _ = _
    rw [List.filterMap_append, startedSteps_of_unannounced (h.history run hmem).unannounced]
    rfl
  clear h
  induction runs with
  | nil => rfl
  | cons run rest ih =>
    obtain ⟨hfirst, hrest⟩ := List.forall_mem_cons.mp hrun
    rw [List.flatMap_cons, List.filterMap_append, hfirst, ih hrest, List.map_cons]
    rfl

/-! ## Items -/

/-- What happened while items ran, and the results of the plain steps that they stand for, are what
the started steps say; the other steps are skipped. -/
structure Flattens (fileName : String) (steps : List Step) (hs : List Happening)
    (leaves : List StepResult) (runs : List StartedStep) : Prop where
  happened : withoutConcepts hs = runs.flatMap (·.happenings fileName)
  results : leaves = runs.map (·.result) ++
    (steps.drop runs.length).map fun step => StepResult.skipped step

theorem allNotExecuted_steps (steps : List Step) :
    StepResult.allNotExecuted (steps.map .step) =
      steps.map fun step => StepResult.skipped step := by
  induction steps with
  | nil => rfl
  | cons step rest ih =>
    rw [List.map_cons, StepResult.allNotExecuted, ih, StepResult.notExecuted, List.map_cons]

theorem allNotExecuted_allLeaves (items : List StepItem) :
    StepResult.allLeaves (StepResult.allNotExecuted items) =
      (StepItem.flattenAll items).map fun step => StepResult.skipped step := by
  rw [StepResult.allNotExecuted_leaves, allNotExecuted_steps]

section

variable {plan : Plan} {fileName : String} {row : Option Table.Row}

mutual

theorem ItemHistory.started {item : StepItem} {hs : List Happening} {e : Executed} :
    ItemHistory plan fileName row item hs e →
      ∃ runs, StartedInOrder plan row item.flatten runs e.halt ∧
        Flattens fileName item.flatten hs e.result.leaves runs
  | @ItemHistory.step _ _ _ step hs e h => by
    refine ⟨[⟨step, hs, e⟩], ?_, ?_, ?_⟩
    · rw [StepItem.flatten]
      cases hhalt : e.halt with
      | true => exact .halted h hhalt
      | false => exact .cons h hhalt .nil
    · rw [stepHappenings_withoutConcepts fileName h, List.flatMap_singleton]
      rfl
    · rw [h.reports.leaves_eq, StepItem.flatten]
      rfl
  | @ItemHistory.concept _ _ _ text line steps hs parts h => by
    obtain ⟨runs, hruns, hhappened, hresults⟩ := ItemsHistory.started h
    refine ⟨runs, ?_, ?_, ?_⟩
    · rw [StepItem.flatten]
      exact hruns
    · -- the announcements of the concept are the ones that are left out
      show withoutConcepts (hs ++ [_]) = _
      rw [withoutConcepts_append, hhappened]
      exact List.append_nil _
    · rw [StepItem.flatten, ← hresults]
      rfl

theorem ItemsHistory.started {items : List StepItem} {hs : List Happening} {o : StepsOutcome} :
    ItemsHistory plan fileName row items hs o →
      ∃ runs, StartedInOrder plan row (StepItem.flattenAll items) runs o.halted ∧
        Flattens fileName (StepItem.flattenAll items) hs (StepResult.allLeaves o.results) runs
  | .nil => ⟨[], .nil, rfl, rfl⟩
  | @ItemsHistory.halted _ _ _ item rest hs e h hhalt => by
    obtain ⟨runs, hruns, hhappened, hresults⟩ := ItemHistory.started h
    have hhalted : (StepsOutcome.last e rest).halted = true := by
      rw [StepsOutcome.last, StepsOutcome.cons, hhalt]
      rfl
    rw [hhalt] at hruns
    rw [hhalted, StepItem.flattenAll]
    refine ⟨runs, hruns.append_halted _, hhappened, ?_⟩
    show e.result.leaves ++ StepResult.allLeaves (StepResult.allNotExecuted rest) = _
    rw [hresults, allNotExecuted_allLeaves, List.append_assoc, ← List.map_append,
      ← List.drop_append_of_le_length hruns.started.1]
  | @ItemsHistory.cons _ _ _ item rest hs hs' e o h hgoes hrest => by
    obtain ⟨runs, hruns, hhappened, hresults⟩ := ItemHistory.started h
    obtain ⟨more, hmore, hhappened', hresults'⟩ := ItemsHistory.started hrest
    rw [hgoes] at hruns
    have hhalted : (StepsOutcome.cons e o).halted = o.halted := by
      rw [StepsOutcome.cons, hgoes, Bool.false_or]
    rw [hhalted, StepItem.flattenAll]
    refine ⟨runs ++ more, hruns.append hmore, ?_, ?_⟩
    · rw [withoutConcepts_append, hhappened, hhappened', List.flatMap_append]
    · show e.result.leaves ++ StepResult.allLeaves o.results = _
      -- no step of the item is left over, so what is skipped are steps of the others
      have hall := hruns.length_eq
      rw [hresults, hresults', List.drop_eq_nil_of_le (Nat.le_of_eq hall.symm), List.map_nil,
        List.append_nil, List.length_append, List.drop_append, hall, Nat.add_sub_cancel_left,
        List.drop_eq_nil_of_le (Nat.le_add_right _ _), List.nil_append, List.map_append,
        List.append_assoc]

end

end

/-! ## Attempts -/

/-- In an attempt with these happenings and this result the first steps of the scenario were
started, which are these, and no others; `before` is the report on the opening announcement. -/
structure StartsFirstSteps (plan : Plan) (spec : Specification) (sc : Scenario)
    (row : Option Table.Row) (hs : List Happening) (r : ScenarioResult) (before : Report)
    (runs : List StartedStep) : Prop where
  bounded : runs.length ≤ sc.flatSteps.length
  steps : runs.map (·.step) = sc.flatSteps.take runs.length
  announced : hs.filterMap Happening.startedStep? =
    (sc.flatSteps.take runs.length).map (Subject.ofStep spec.fileName)
  /-- But for concepts, nothing happened besides the opening, the started steps and the closing. -/
  happened : ∃ opening closing after,
    HookHistory (.scenarioStarting spec.fileName sc.heading (spec.scenarioTags sc)) opening before ∧
      HookHistory (.scenarioEnding spec.fileName sc.heading (spec.scenarioTags sc)) closing after ∧
      withoutConcepts hs = opening ++ runs.flatMap (·.happenings spec.fileName) ++ closing
  /-- The other steps are reported as skipped. -/
  results : StepResult.allLeaves r.steps = runs.map (·.result) ++
    (sc.flatSteps.drop runs.length).map fun step => StepResult.skipped step
  history : ∀ run ∈ runs, StepHistory plan row run.step run.happened run.executed
  earlier : ∀ run ∈ runs.dropLast, run.GoesOn plan row
  executed : ∀ run ∈ runs, run.executions ≠ [] ↔ run.Resolves plan row ∧ run.Opens
  /-- If steps were left out, there is a reason. -/
  stopped : runs.length < sc.flatSteps.length →
    (runs = [] ∧ before.failed = true) ∨ ∃ run ∈ runs.getLast?, run.Stops plan row

theorem AttemptHistory.startsFirstSteps {plan : Plan} {spec : Specification} {sc : Scenario}
    {row : Option Table.Row} {hs : List Happening} {r : ScenarioResult}
    (h : AttemptHistory plan spec sc row hs r) :
    ∃ before runs, StartsFirstSteps plan spec sc row hs r before runs := by
  cases h with
  | @refused opening before closing after hbefore hfailed hafter =>
    refine ⟨before, [], ?_⟩
    constructor
    case bounded => exact Nat.zero_le _
    case steps => rfl
    case announced =>
      rw [List.filterMap_append, startedSteps_of_unannounced hbefore.unannounced,
        startedSteps_of_unannounced hafter.unannounced]
      rfl
    case happened =>
      refine ⟨opening, closing, after, hbefore, hafter, ?_⟩
      rw [withoutConcepts_append, withoutConcepts_of_unannounced hbefore.unannounced,
        withoutConcepts_of_unannounced hafter.unannounced]
      exact (congrArg (· ++ closing) (List.append_nil opening)).symm
    case results => exact allNotExecuted_allLeaves sc.steps
    case history => simp
    case earlier => simp
    case executed => simp
    case stopped => exact fun _ => .inl ⟨rfl, hfailed⟩
  | @executed opening before items o closing after hbefore hpassed hitems hafter =>
    -- the nested items are read as one list of started steps
    obtain ⟨runs, hruns, hhappened, hresults⟩ := hitems.started
    refine ⟨before, runs, ?_⟩
    constructor
    case bounded => exact hruns.started.1
    case steps => exact hruns.started.2
    case announced =>
      rw [List.filterMap_append, List.filterMap_append,
        startedSteps_of_unannounced hbefore.unannounced,
        startedSteps_of_unannounced hafter.unannounced, List.nil_append, List.append_nil,
        ← filterMap_withoutConcepts startedStep?_of_concept, hhappened, hruns.announced,
        Scenario.flatSteps, ← hruns.started.2, List.map_map]
      rfl
    case happened =>
      refine ⟨opening, closing, after, hbefore, hafter, ?_⟩
      rw [withoutConcepts_append, withoutConcepts_append,
        withoutConcepts_of_unannounced hbefore.unannounced,
        withoutConcepts_of_unannounced hafter.unannounced, hhappened]
    case results => exact hresults
    case history => exact hruns.history
    case earlier => exact hruns.earlier
    case executed => exact fun run hrun => (hruns.history run hrun).executions_ne_nil_iff
    case stopped =>
      intro hleft
      cases hhalted : o.halted with
      | true => exact .inr (hhalted ▸ hruns).last_stops
      | false =>
        -- without a halt no step is left out
        have hall := (hhalted ▸ hruns).length_eq
        exact absurd hleft (by rw [Scenario.flatSteps, hall]; exact Nat.lt_irrefl _)

/-- However its steps are grouped, an attempt starts some number of them in order and no others. All
before the last one go on, and if steps are left out, the last one or the refused opening of the
scenario says why. -/
theorem attempt_starts_first_steps (b : Behavior σ) (plan : Plan) (spec : Specification)
    (sc : Scenario) (row : Option Table.Row) (s : Session σ) :
    ∃ hs before runs, Happens b s hs (attempt b plan spec sc row s).2 ∧
      StartsFirstSteps plan spec sc row hs (attempt b plan spec sc row s).1 before runs := by
  obtain ⟨hs, hrun, hhistory⟩ := attempt_history b plan spec sc row s
  obtain ⟨before, runs, hstarts⟩ := hhistory.startsFirstSteps
  exact ⟨hs, before, runs, hrun, hstarts⟩

end SpecEngine.Engine
