/-
# SpecEngine.Proofs.History -- what happens on a stream

On a stream the runner is offered messages and answers, the engine looks whether the runner lives,
and events are announced. `Happens` says that such happenings lead from one state of a session to
another; there is no other way to change a session.

Every activity of the engine has a history. The relations below say, with one case for each way in
which the activity can go, what happens during it and what it comes to. They speak of the answers
that were given, not of the runner that gave them, so what follows from a history holds for every
runner. That activities have their histories is shown once, for each along its definition; all that
is said about every run is then said by cases on its history.

A history knows whether the session was aborted at its beginning where that makes a difference, and
it says when the runner was found dead.
-/
import SpecEngine.Engine.Spec
import SpecEngine.Proofs.Activity

namespace SpecEngine.Engine

open Item (Step StepItem Scenario Specification)
open Result (StepResult ScenarioResult SpecResult Failure)
open Runner (Behavior Message ProtocolError Report)
open Event (Topic Subject Outcome)

variable {σ : Type}

/-! ## Happenings -/

/-- Something that happens on a stream. -/
inductive Happening where
  /-- The runner was offered a message and gave this answer. -/
  | exchanged (m : Message) (answer : Except ProtocolError Message)
  /-- The engine looked whether the runner lives. -/
  | looked (alive : Bool)
  | announced (topic : Topic) (subject : Subject) (outcome : Option Outcome)

/-- These happenings lead from a session to another. -/
inductive Happens (b : Behavior σ) : Session σ → List Happening → Session σ → Prop
  | nothing (s : Session σ) : Happens b s [] s
  | exchange {s t : Session σ} {hs : List Happening} (m : Message) :
      Happens b (offer b m s).2 hs t → Happens b s (.exchanged m (offer b m s).1 :: hs) t
  | look {s t : Session σ} {hs : List Happening} :
      Happens b (noticeDeath b s).2 hs t → Happens b s (.looked (b.alive s.runner) :: hs) t
  | announce {s t : Session σ} {hs : List Happening} (topic : Topic) (subject : Subject)
      (outcome : Option Outcome) : Happens b (announce topic subject outcome s).2 hs t →
      Happens b s (.announced topic subject outcome :: hs) t

/-- Whether the runner was found dead. -/
def foundDead (hs : List Happening) : Bool :=
  hs.any fun
    | .looked false => true
    | _ => false

@[simp] theorem foundDead_append (hs hs' : List Happening) :
    foundDead (hs ++ hs') = (foundDead hs || foundDead hs') := List.any_append

/-- Whether the happening is an announcement. -/
def Happening.isAnnounced : Happening → Bool
  | .announced .. => true
  | _ => false

/-- What the trace of a stream shows of a happening. -/
def Happening.occurrence? (stream : Nat) : Happening → Option Occurrence
  | .exchanged m _ => some (.offered m)
  | .looked _ => none
  | .announced topic subject outcome => some (.announced ⟨topic, subject, outcome, stream⟩)

/-- What the trace of a stream shows of happenings. -/
def occurrences (stream : Nat) (hs : List Happening) : List Occurrence :=
  hs.filterMap (Happening.occurrence? stream)

/-- Happenings between the announcements of a start and of an end. -/
def announcedAround (start stop : Topic) (subject : Subject) (outcome : Outcome)
    (hs : List Happening) : List Happening :=
  .announced start subject none :: (hs ++ [.announced stop subject (some outcome)])

@[simp] theorem foundDead_announcedAround (start stop : Topic) (subject : Subject)
    (outcome : Outcome) (hs : List Happening) :
    foundDead (announcedAround start stop subject outcome hs) = foundDead hs := by
  simp [announcedAround, foundDead]

namespace Happens

variable {b : Behavior σ} {s t u : Session σ} {hs hs' : List Happening}

theorem append (h : Happens b s hs t) (h' : Happens b t hs' u) : Happens b s (hs ++ hs') u := by
  induction h with
  | nothing s => exact h'
  | exchange m _ ih => exact .exchange m (ih h')
  | look _ ih => exact .look (ih h')
  | announce topic subject outcome _ ih => exact .announce topic subject outcome (ih h')

theorem around {start stop : Topic} {subject : Subject} (outcome : Outcome)
    (h : Happens b (Engine.announce start subject none s).2 hs t) :
    Happens b s (announcedAround start stop subject outcome hs)
      (Engine.announce stop subject (some outcome) t).2 :=
  .announce start subject none (h.append (.announce stop subject (some outcome) (.nothing _)))

theorem stream_eq (h : Happens b s hs t) : t.stream = s.stream := by
  induction h with
  | nothing s => rfl
  | exchange m _ ih => exact ih
  | look _ ih => exact ih
  | announce topic subject outcome _ ih => exact ih

/-- The trace of a session grows by what happens. -/
theorem trace_eq (h : Happens b s hs t) :
    t.trace.toList = s.trace.toList ++ occurrences s.stream hs := by
  induction h with
  | nothing s => exact (List.append_nil _).symm
  | @exchange s t hs m _ ih =>
    rw [ih]
    show (s.trace.push (.offered m)).toList ++ occurrences s.stream hs = _
    rw [Array.toList_push, List.append_assoc]
    rfl
  | look _ ih => exact ih
  | @announce s t hs topic subject outcome _ ih =>
    rw [ih]
    show (s.trace.push (.announced _)).toList ++ occurrences s.stream hs = _
    rw [Array.toList_push, List.append_assoc]
    rfl

/-- A session is aborted when it was so before or the runner was found dead. -/
theorem aborted_eq (h : Happens b s hs t) : t.aborted = (s.aborted || foundDead hs) := by
  induction h with
  | nothing s => exact (Bool.or_false _).symm
  | exchange m _ ih => exact ih
  | @look s t hs _ ih =>
    rw [ih]
    show ((s.aborted || !b.alive s.runner) || foundDead hs) = _
    cases b.alive s.runner <;> simp [foundDead]
  | announce topic subject outcome _ ih => exact ih

end Happens

/-! ## Histories of steps and concepts -/

/-- The engine looks after a runner that does not pass an announcement. -/
inductive HookHistory (m : Message) : List Happening → Report → Prop
  | passed {answer} : (Runner.reportOf answer).failed = false →
      HookHistory m [.exchanged m answer] (Runner.reportOf answer)
  | failed {answer} (alive : Bool) : (Runner.reportOf answer).failed = true →
      HookHistory m [.exchanged m answer, .looked alive] (Runner.reportOf answer)

/-- What happens while a step runs, its announcements apart. -/
inductive StepHistory (plan : Plan) (row : Option Table.Row) (step : Step) :
    List Happening → Executed → Prop
  | unresolved {fault} : plan.resolver.parameters row step.args = .error fault →
      StepHistory plan row step [] (.finished (.failed step 0 { message := fault.text }))
  | refused {parameters hs before} : plan.resolver.parameters row step.args = .ok parameters →
      HookHistory (.stepStarting step.text) hs before → before.failed = true →
      StepHistory plan row step hs
        (.finished (.failed step 0 (.ofReport before "before step hook failed")))
  | broken {parameters hs before answer e} (alive : Bool) :
      plan.resolver.parameters row step.args = .ok parameters →
      HookHistory (.stepStarting step.text) hs before → before.failed = false →
      Runner.statusOf answer = .error e →
      StepHistory plan row step
        (hs ++ [.exchanged (.executeStep step.text parameters) answer, .looked alive])
        (brokenStep step e)
  | reported {parameters hs before answer report hs' after} :
      plan.resolver.parameters row step.args = .ok parameters →
      HookHistory (.stepStarting step.text) hs before → before.failed = false →
      Runner.statusOf answer = .ok report → HookHistory (.stepEnding step.text) hs' after →
      StepHistory plan row step
        (hs ++ .exchanged (.executeStep step.text parameters) answer :: hs')
        (afterHook step report after)

/-- Announcements to the runner are not announced to listeners. -/
theorem HookHistory.unannounced {m : Message} {hs : List Happening} {report : Report}
    (h : HookHistory m hs report) : ∀ x ∈ hs, x.isAnnounced = false := by
  cases h <;> simp [Happening.isAnnounced]

/-- Between the announcements of its start and its end nothing about a step is announced. -/
theorem StepHistory.unannounced {plan : Plan} {row : Option Table.Row} {step : Step}
    {hs : List Happening} {e : Executed} (h : StepHistory plan row step hs e) :
    ∀ x ∈ hs, x.isAnnounced = false := by
  cases h with
  | unresolved _ => simp
  | refused _ hbefore _ => exact hbefore.unannounced
  | broken alive _ hbefore _ _ =>
    refine List.forall_mem_append.mpr ⟨hbefore.unannounced, ?_⟩
    simp [Happening.isAnnounced]
  | reported _ hbefore _ _ hafter =>
    refine List.forall_mem_append.mpr ⟨hbefore.unannounced, ?_⟩
    exact List.forall_mem_cons.mpr ⟨rfl, hafter.unannounced⟩

/-- What happens from the start of a step to its end. -/
def stepHappenings (fileName : String) (step : Step) (hs : List Happening) (e : Executed) :
    List Happening :=
  announcedAround .stepStart .stepEnd (.ofStep fileName step) (.step e.result) hs

mutual
/-- What happens while an item runs. -/
inductive ItemHistory (plan : Plan) (fileName : String) (row : Option Table.Row) :
    StepItem → List Happening → Executed → Prop
  | step {step hs e} : StepHistory plan row step hs e →
      ItemHistory plan fileName row (.step step) (stepHappenings fileName step hs e) e
  | concept {text line steps hs parts} : ItemsHistory plan fileName row steps hs parts →
      ItemHistory plan fileName row (.concept text line steps)
        (announcedAround .conceptStart .conceptEnd (.concept fileName text line)
          (.step (conceptOf text line parts).result) hs)
        (conceptOf text line parts)
/-- What happens while items run, up to the one that halts. -/
inductive ItemsHistory (plan : Plan) (fileName : String) (row : Option Table.Row) :
    List StepItem → List Happening → StepsOutcome → Prop
  | nil : ItemsHistory plan fileName row [] [] {}
  | halted {item rest hs e} : ItemHistory plan fileName row item hs e → e.halt = true →
      ItemsHistory plan fileName row (item :: rest) hs (.last e rest)
  | cons {item rest hs hs' e o} : ItemHistory plan fileName row item hs e → e.halt = false →
      ItemsHistory plan fileName row rest hs' o →
      ItemsHistory plan fileName row (item :: rest) (hs ++ hs') (.cons e o)
end

/-! ## Histories of scenarios -/

/-- What happens during one attempt at a scenario. -/
inductive AttemptHistory (plan : Plan) (spec : Specification) (sc : Scenario)
    (row : Option Table.Row) : List Happening → ScenarioResult → Prop
  | refused {hs before hs' after} :
      HookHistory (.scenarioStarting spec.fileName sc.heading (spec.scenarioTags sc)) hs before →
      before.failed = true →
      HookHistory (.scenarioEnding spec.fileName sc.heading (spec.scenarioTags sc)) hs' after →
      AttemptHistory plan spec sc row (hs ++ hs')
        (attemptResult sc row (StepResult.allNotExecuted sc.steps)
          (some (.ofReport before "before scenario hook failed")) .failed after)
  | executed {hs before items outcome hs' after} :
      HookHistory (.scenarioStarting spec.fileName sc.heading (spec.scenarioTags sc)) hs before →
      before.failed = false → ItemsHistory plan spec.fileName row sc.steps items outcome →
      HookHistory (.scenarioEnding spec.fileName sc.heading (spec.scenarioTags sc)) hs' after →
      AttemptHistory plan spec sc row (hs ++ items ++ hs')
        (attemptResult sc row outcome.results outcome.failure outcome.status after)

/-- What happens during the attempt of a number and up to so many more, if the session was not
aborted. -/
inductive AttemptsHistory (plan : Plan) (spec : Specification) (sc : Scenario)
    (row : Option Table.Row) : Nat → Nat → List Happening → ScenarioResult → Prop
  | last {number more hs r} : AttemptHistory plan spec sc row hs r →
      more = 0 ∨ r.status ≠ .failed ∨ foundDead hs = true →
      AttemptsHistory plan spec sc row number more hs { r with attempts := number }
  | again {number more hs r hs' r'} : AttemptHistory plan spec sc row hs r → r.status = .failed →
      foundDead hs = false → AttemptsHistory plan spec sc row (number + 1) more hs' r' →
      AttemptsHistory plan spec sc row number (more + 1) (hs ++ hs') r'

/-- The reason of scenarios that are skipped because the runner asks for it. -/
def requestedReason : String := "skipped at the runner's request"

/-- An attempt is skipped for no other reason. -/
theorem AttemptHistory.skipReason_eq {plan : Plan} {spec : Specification} {sc : Scenario}
    {row : Option Table.Row} {hs : List Happening} {r : ScenarioResult}
    (h : AttemptHistory plan spec sc row hs r) {reason : String}
    (hreason : r.skipReason = some reason) : reason = requestedReason := by
  cases h <;>
  · simp only [attemptResult, Option.ite_none_right_eq_some, Option.some.injEq] at hreason
    exact hreason.2.symm

theorem AttemptsHistory.skipReason_eq {plan : Plan} {spec : Specification} {sc : Scenario}
    {row : Option Table.Row} {number more : Nat} {hs : List Happening} {r : ScenarioResult}
    (h : AttemptsHistory plan spec sc row number more hs r) {reason : String}
    (hreason : r.skipReason = some reason) : reason = requestedReason := by
  induction h with
  | last hattempt _ => exact hattempt.skipReason_eq hreason
  | again _ _ _ _ ih => exact ih hreason

/-- What happens from the start of a scenario to its end. -/
def scenarioHappenings (spec : Specification) (sc : Scenario) (row : Option Table.Row)
    (hs : List Happening) (r : ScenarioResult) : List Happening :=
  announcedAround .scenarioStart .scenarioEnd (.ofScenario spec sc (row.map (·.index)))
    (.scenario r) hs

/-- What happens while a scenario runs or is left out; `aborted` tells of the session before. -/
inductive ScenarioHistory (plan : Plan) (spec : Specification) (sc : Scenario)
    (row : Option Table.Row) (aborted : Bool) : List Happening → ScenarioResult → Prop
  | illFormed : (plan.buildErrors.ofScenario spec sc).isSome = true →
      ScenarioHistory plan spec sc row aborted
        (scenarioHappenings spec sc row []
          (.notExecuted sc (row.map (·.index)) "scenario has build errors"))
        (.notExecuted sc (row.map (·.index)) "scenario has build errors")
  | dead : (plan.buildErrors.ofScenario spec sc).isSome = false → aborted = true →
      ScenarioHistory plan spec sc row aborted
        (scenarioHappenings spec sc row [] (.notExecuted sc (row.map (·.index)) deadReason))
        (.notExecuted sc (row.map (·.index)) deadReason)
  | attempted {hs r} : (plan.buildErrors.ofScenario spec sc).isSome = false → aborted = false →
      AttemptsHistory plan spec sc row 1 (attemptLimit plan spec sc - 1) hs r →
      ScenarioHistory plan spec sc row aborted (scenarioHappenings spec sc row hs r) r

/-! ## Histories of specifications -/

/-- What happens while a scenario runs for each of some rows. -/
inductive RowsHistory (plan : Plan) (spec : Specification) (sc : Scenario) :
    Bool → List Table.Row → List Happening → List ScenarioResult → Prop
  | nil {aborted} : RowsHistory plan spec sc aborted [] [] []
  | cons {aborted row rest hs r hs' rs} :
      ScenarioHistory plan spec sc (some row) aborted hs r →
      RowsHistory plan spec sc (aborted || foundDead hs) rest hs' rs →
      RowsHistory plan spec sc aborted (row :: rest) (hs ++ hs') (r :: rs)

/-- What happens while a scenario runs as often as the table says. -/
inductive TableHistory (plan : Plan) (spec : Specification) (aborted : Bool) (sc : Scenario) :
    Option (List Table.Row) → List Happening → List ScenarioResult → Prop
  | once {rows hs r} : (∀ selected, rows = some selected → sc.usesTable = false) →
      ScenarioHistory plan spec sc none aborted hs r →
      TableHistory plan spec aborted sc rows hs [r]
  | perRow {row rest hs rs} : sc.usesTable = true →
      RowsHistory plan spec sc aborted (row :: rest) hs rs →
      TableHistory plan spec aborted sc (some (row :: rest)) hs rs
  | withoutRows : sc.usesTable = true →
      TableHistory plan spec aborted sc (some [])
        (scenarioHappenings spec sc none [] (.notExecuted sc none "no data table rows selected"))
        [.notExecuted sc none "no data table rows selected"]

/-- What happens while scenarios run in order. -/
inductive ScenariosHistory (plan : Plan) (spec : Specification)
    (rows : Option (List Table.Row)) :
    Bool → List Scenario → List Happening → List ScenarioResult → Prop
  | nil {aborted} : ScenariosHistory plan spec rows aborted [] [] []
  | cons {aborted sc rest hs rs hs' rs'} : TableHistory plan spec aborted sc rows hs rs →
      ScenariosHistory plan spec rows (aborted || foundDead hs) rest hs' rs' →
      ScenariosHistory plan spec rows aborted (sc :: rest) (hs ++ hs') (rs ++ rs')

/-- What happens between the announcements to the runner that bracket a specification; `before` is
the report on the first of them. -/
inductive BodyHistory (plan : Plan) (spec : Specification) (before : Report) (aborted : Bool) :
    List Happening → List ScenarioResult → Option Failure → Prop
  | refused : before.failed = true →
      BodyHistory plan spec before aborted [] (allSkipped spec "before spec hook failed")
        (some (.ofReport before "before spec hook failed"))
  | unresolvable {fault} : before.failed = false → drivingRows plan spec = .error fault →
      BodyHistory plan spec before aborted []
        (allSkipped spec fault.text)
        (some { message := fault.text })
  | carriedOut {rows hs rs} : before.failed = false → drivingRows plan spec = .ok rows →
      ScenariosHistory plan spec rows aborted spec.scenarios hs rs →
      BodyHistory plan spec before aborted hs rs none

/-- The failure of a specification after the closing announcement. -/
def closedFailure (after : Report) (failure : Option Failure) : Option Failure :=
  if after.failed then failure.or (some (.ofReport after "after spec hook failed")) else failure

/-- What happens while a specification runs or is left out, its announcements apart. -/
inductive SpecHistory (plan : Plan) (spec : Specification) (aborted : Bool) :
    List Happening → SpecResult → Prop
  | illFormed {errors} : plan.buildErrors.ofSpec spec = some errors →
      SpecHistory plan spec aborted []
        (.notExecuted spec "specification has build errors" errors)
  | dead : plan.buildErrors.ofSpec spec = none → aborted = true →
      SpecHistory plan spec aborted [] (.notExecuted spec deadReason [])
  | takenUp {hs before body scenarios failure hs' after} :
      plan.buildErrors.ofSpec spec = none → aborted = false →
      HookHistory (.specStarting spec.fileName spec.heading spec.tags) hs before →
      BodyHistory plan spec before (foundDead hs) body scenarios failure →
      HookHistory (.specEnding spec.fileName spec.heading spec.tags) hs' after →
      SpecHistory plan spec aborted (hs ++ body ++ hs')
        (.ofRun spec scenarios (closedFailure after failure) 0)

/-- What happens from the start of a specification to its end. -/
def specHappenings (spec : Specification) (hs : List Happening) (r : SpecResult) :
    List Happening :=
  announcedAround .specStart .specEnd (.ofSpec spec) (.spec r) hs

/-! ## Activities have histories -/

variable (b : Behavior σ) (plan : Plan)

theorem hook_history (m : Message) (s : Session σ) :
    ∃ hs, Happens b s hs (hook b m s).2 ∧ HookHistory m hs (hook b m s).1 := by
  rw [hook_report]
  simp only [hook, bind_run, ite_run, pure_run]
  split
  next hfailed => exact ⟨_, .exchange m (.look (.nothing _)), .failed _ hfailed⟩
  next hpassed => exact ⟨_, .exchange m (.nothing _), .passed (by simpa using hpassed)⟩

theorem runStep_history (row : Option Table.Row) (step : Step) (s : Session σ) :
    ∃ hs, Happens b s hs (runStep b plan row step s).2 ∧
      StepHistory plan row step hs (runStep b plan row step s).1 := by
  unfold runStep
  cases hparameters : plan.resolver.parameters row step.args with
  | error fault => exact ⟨[], .nothing s, .unresolved hparameters⟩
  | ok parameters =>
    obtain ⟨hs, hbefore, hreport⟩ := hook_history b (.stepStarting step.text) s
    simp only [bind_run, ite_run, pure_run]
    split
    next hfailed => exact ⟨hs, hbefore, .refused hparameters hreport hfailed⟩
    next hpassed =>
      rw [Bool.not_eq_true] at hpassed
      cases hstatus : Runner.statusOf (offer b (.executeStep step.text parameters)
        (hook b (.stepStarting step.text) s).2).1 with
      | error e =>
        refine ⟨_, hbefore.append (.exchange (.executeStep step.text parameters)
          (.look (.nothing _))), ?_⟩
        exact .broken _ hparameters hreport hpassed hstatus
      | ok report =>
        obtain ⟨hs', hafter, hreport'⟩ := hook_history b (.stepEnding step.text)
          (offer b (.executeStep step.text parameters) (hook b (.stepStarting step.text) s).2).2
        exact ⟨_, hbefore.append (.exchange _ hafter),
          .reported hparameters hreport hpassed hstatus hreport'⟩

theorem announcedStep_history (fileName : String) (row : Option Table.Row) (step : Step)
    (s : Session σ) :
    ∃ hs, Happens b s (stepHappenings fileName step hs
        (announcedStep b plan fileName row step s).1)
        (announcedStep b plan fileName row step s).2 ∧
      StepHistory plan row step hs (announcedStep b plan fileName row step s).1 := by
  obtain ⟨hs, hrun, hhistory⟩ :=
    runStep_history b plan row step (announce .stepStart (.ofStep fileName step) none s).2
  exact ⟨hs, hrun.around _, hhistory⟩

mutual

theorem runItem_history (fileName : String) (row : Option Table.Row) :
    ∀ (item : StepItem) (s : Session σ),
      ∃ hs, Happens b s hs (runItem b plan fileName row item s).2 ∧
        ItemHistory plan fileName row item hs (runItem b plan fileName row item s).1
  | .step step, s => by
    obtain ⟨hs, hrun, hhistory⟩ := announcedStep_history b plan fileName row step s
    rw [runItem]
    exact ⟨_, hrun, .step hhistory⟩
  | .concept text line steps, s => by
    obtain ⟨hs, hrun, hhistory⟩ := runItems_history fileName row steps
      (announce .conceptStart (.concept fileName text line) none s).2
    simp only [runItem, bind_run, pure_run]
    exact ⟨_, hrun.around _, .concept hhistory⟩

theorem runItems_history (fileName : String) (row : Option Table.Row) :
    ∀ (items : List StepItem) (s : Session σ),
      ∃ hs, Happens b s hs (runItems b plan fileName row items s).2 ∧
        ItemsHistory plan fileName row items hs (runItems b plan fileName row items s).1
  | [], s => by
    rw [runItems]
    exact ⟨[], .nothing s, .nil⟩
  | item :: rest, s => by
    obtain ⟨hs, hitem, hhistory⟩ := runItem_history fileName row item s
    simp only [runItems, bind_run, ite_run, pure_run]
    split
    next hhalt => exact ⟨hs, hitem, .halted hhistory hhalt⟩
    next hgoes =>
      obtain ⟨hs', hrest, hhistory'⟩ := runItems_history fileName row rest
        (runItem b plan fileName row item s).2
      exact ⟨_, hitem.append hrest, .cons hhistory (by simpa using hgoes) hhistory'⟩

end

theorem attempt_history (spec : Specification) (sc : Scenario) (row : Option Table.Row)
    (s : Session σ) :
    ∃ hs, Happens b s hs (attempt b plan spec sc row s).2 ∧
      AttemptHistory plan spec sc row hs (attempt b plan spec sc row s).1 := by
  obtain ⟨hs, hbefore, hreport⟩ := hook_history b
    (.scenarioStarting spec.fileName sc.heading (spec.scenarioTags sc)) s
  simp only [attempt, bind_run, ite_run, pure_run]
  split
  next hfailed =>
    obtain ⟨hs', hafter, hreport'⟩ := hook_history b
      (.scenarioEnding spec.fileName sc.heading (spec.scenarioTags sc)) _
    exact ⟨_, hbefore.append hafter, .refused hreport hfailed hreport'⟩
  next hpassed =>
    obtain ⟨items, hitems, hhistory⟩ := runItems_history b plan spec.fileName row sc.steps _
    obtain ⟨hs', hafter, hreport'⟩ := hook_history b
      (.scenarioEnding spec.fileName sc.heading (spec.scenarioTags sc)) _
    exact ⟨_, (hbefore.append hitems).append hafter,
      .executed hreport (by simpa using hpassed) hhistory hreport'⟩

theorem attempts_history (spec : Specification) (sc : Scenario) (row : Option Table.Row)
    (number more : Nat) {s : Session σ} (hs : s.aborted = false) :
    ∃ hs, Happens b s hs (attempts b plan spec sc row number more s).2 ∧
      AttemptsHistory plan spec sc row number more hs
        (attempts b plan spec sc row number more s).1 := by
  induction more generalizing number s with
  | zero =>
    obtain ⟨hs, hrun, hhistory⟩ := attempt_history b plan spec sc row s
    exact ⟨hs, hrun, .last hhistory (.inl rfl)⟩
  | succ more ih =>
    obtain ⟨hs', hrun, hhistory⟩ := attempt_history b plan spec sc row s
    have haborted := hrun.aborted_eq
    rw [hs, Bool.false_or] at haborted
    simp only [attempts, bind_run, isAborted_run, ite_run, pure_run, haborted]
    split
    next hends =>
      refine ⟨hs', hrun, .last hhistory (.inr ?_)⟩
      simpa using hends
    next hgoes =>
      -- the attempt failed and the session is not aborted, so another one is made
      obtain ⟨hfailed, halive⟩ : (attempt b plan spec sc row s).1.status = .failed ∧
          foundDead hs' = false := by simpa using hgoes
      obtain ⟨hs'', hrest, hhistory'⟩ := ih (number + 1) (haborted.trans halive)
      exact ⟨_, hrun.append hrest, .again hhistory hfailed halive hhistory'⟩

theorem skipScenario_happens (spec : Specification) (sc : Scenario) (row : Option Table.Row)
    (reason : String) (s : Session σ) :
    Happens b s (scenarioHappenings spec sc row []
      (.notExecuted sc (row.map (·.index)) reason)) (skipScenario spec sc row reason s).2 :=
  Happens.around _ (.nothing _)

theorem runScenario_history (spec : Specification) (sc : Scenario) (row : Option Table.Row)
    (s : Session σ) :
    ∃ hs, Happens b s hs (runScenario b plan spec sc row s).2 ∧
      ScenarioHistory plan spec sc row s.aborted hs (runScenario b plan spec sc row s).1 := by
  simp only [runScenario, isAborted_bind_run, ite_run]
  split
  next herrors => exact ⟨_, skipScenario_happens b spec sc row _ s, .illFormed herrors⟩
  next hwell =>
    rw [Bool.not_eq_true] at hwell
    split
    next hdead => exact ⟨_, skipScenario_happens b spec sc row _ s, .dead hwell hdead⟩
    next halive =>
      rw [Bool.not_eq_true] at halive
      have hstart : (announce .scenarioStart
          (.ofScenario spec sc (row.map (·.index))) none s).2.aborted = false := halive
      obtain ⟨hs, hrun, hhistory⟩ :=
        attempts_history b plan spec sc row 1 (attemptLimit plan spec sc - 1) hstart
      exact ⟨_, hrun.around _, .attempted hwell halive hhistory⟩

theorem runRows_history (spec : Specification) (sc : Scenario) (rows : List Table.Row)
    (s : Session σ) :
    ∃ hs, Happens b s hs (runRows b plan spec sc rows s).2 ∧
      RowsHistory plan spec sc s.aborted rows hs (runRows b plan spec sc rows s).1 := by
  induction rows generalizing s with
  | nil => exact ⟨[], .nothing s, .nil⟩
  | cons row rest ih =>
    obtain ⟨hs, hrun, hhistory⟩ := runScenario_history b plan spec sc (some row) s
    obtain ⟨hs', hrest, hhistory'⟩ := ih (runScenario b plan spec sc (some row) s).2
    rw [hrun.aborted_eq] at hhistory'
    exact ⟨_, hrun.append hrest, .cons hhistory hhistory'⟩

theorem runForTable_history (spec : Specification) (rows : Option (List Table.Row))
    (sc : Scenario) (s : Session σ) :
    ∃ hs, Happens b s hs (runForTable b plan spec rows sc s).2 ∧
      TableHistory plan spec s.aborted sc rows hs (runForTable b plan spec rows sc s).1 := by
  have honce (h : ∀ selected, rows = some selected → sc.usesTable = false) :
      ∃ hs, Happens b s hs (runScenario b plan spec sc none s).2 ∧
        TableHistory plan spec s.aborted sc rows hs [(runScenario b plan spec sc none s).1] := by
    obtain ⟨hs, hrun, hhistory⟩ := runScenario_history b plan spec sc none s
    exact ⟨hs, hrun, .once h hhistory⟩
  unfold runForTable
  rcases rows with _ | _ | ⟨row, rest⟩
  · exact honce (by simp)
  · cases huses : sc.usesTable with
    | false => exact honce fun _ _ => huses
    | true => exact ⟨_, skipScenario_happens b spec sc none _ s, .withoutRows huses⟩
  · cases huses : sc.usesTable with
    | false => exact honce fun _ _ => huses
    | true =>
      obtain ⟨hs, hrun, hhistory⟩ := runRows_history b plan spec sc (row :: rest) s
      exact ⟨hs, hrun, .perRow huses hhistory⟩

theorem runScenarios_history (spec : Specification) (rows : Option (List Table.Row))
    (scenarios : List Scenario) (s : Session σ) :
    ∃ hs, Happens b s hs (runScenarios b plan spec rows scenarios s).2 ∧
      ScenariosHistory plan spec rows s.aborted scenarios hs
        (runScenarios b plan spec rows scenarios s).1 := by
  induction scenarios generalizing s with
  | nil => exact ⟨[], .nothing s, .nil⟩
  | cons sc rest ih =>
    obtain ⟨hs, hrun, hhistory⟩ := runForTable_history b plan spec rows sc s
    obtain ⟨hs', hrest, hhistory'⟩ := ih (runForTable b plan spec rows sc s).2
    rw [hrun.aborted_eq] at hhistory'
    exact ⟨_, hrun.append hrest, .cons hhistory hhistory'⟩

theorem runBody_history (spec : Specification) {before : Report} (h : before.failed = false)
    (s : Session σ) :
    ∃ hs, Happens b s hs (runBody b plan spec s).2 ∧
      BodyHistory plan spec before s.aborted hs (runBody b plan spec s).1.1
        (runBody b plan spec s).1.2 := by
  unfold runBody
  cases hrows : drivingRows plan spec with
  | error fault => exact ⟨[], .nothing s, .unresolvable h hrows⟩
  | ok rows =>
    obtain ⟨hs, hrun, hhistory⟩ := runScenarios_history b plan spec rows spec.scenarios s
    exact ⟨hs, hrun, .carriedOut h hrows hhistory⟩

theorem takeUp_history (spec : Specification) {s : Session σ} (haborted : s.aborted = false)
    (herrors : plan.buildErrors.ofSpec spec = none) :
    ∃ hs, Happens b s hs (takeUp b plan spec s).2 ∧
      SpecHistory plan spec s.aborted hs (takeUp b plan spec s).1 := by
  obtain ⟨hs, hbefore, hreport⟩ := hook_history b
    (.specStarting spec.fileName spec.heading spec.tags) s
  have hdead := hbefore.aborted_eq
  rw [haborted, Bool.false_or] at hdead
  simp only [takeUp, bind_run, ite_run, pure_run]
  split
  next hfailed =>
    obtain ⟨hs', hafter, hreport'⟩ := hook_history b
      (.specEnding spec.fileName spec.heading spec.tags) _
    refine ⟨_, (hbefore.append (.nothing _)).append hafter, ?_⟩
    exact .takenUp herrors haborted hreport (.refused hfailed) hreport'
  next hpassed =>
    rw [Bool.not_eq_true] at hpassed
    obtain ⟨body, hbody, hhistory⟩ := runBody_history b plan spec hpassed _
    obtain ⟨hs', hafter, hreport'⟩ := hook_history b
      (.specEnding spec.fileName spec.heading spec.tags) _
    rw [hdead] at hhistory
    refine ⟨_, (hbefore.append hbody).append hafter, ?_⟩
    exact .takenUp herrors haborted hreport hhistory hreport'

theorem runSpec_history (spec : Specification) (s : Session σ) :
    ∃ hs, Happens b s hs (runSpec b plan spec s).2 ∧
      SpecHistory plan spec s.aborted hs (runSpec b plan spec s).1 := by
  unfold runSpec
  cases herrors : plan.buildErrors.ofSpec spec with
  | some errors => exact ⟨[], .nothing s, .illFormed herrors⟩
  | none =>
    simp only [isAborted_bind_run, ite_run]
    split
    next hdead => exact ⟨[], .nothing s, .dead herrors hdead⟩
    next halive => exact takeUp_history b plan spec (by simpa using halive) herrors

theorem announcedSpec_history (spec : Specification) (s : Session σ) :
    ∃ hs, Happens b s (specHappenings spec hs (announcedSpec b plan spec s).1)
        (announcedSpec b plan spec s).2 ∧
      SpecHistory plan spec s.aborted hs (announcedSpec b plan spec s).1 := by
  obtain ⟨hs, hrun, hhistory⟩ :=
    runSpec_history b plan spec (announce .specStart (.ofSpec spec) none s).2
  exact ⟨hs, hrun.around _, hhistory⟩

end SpecEngine.Engine
