/-
# SpecEngine.Proofs.AbortedAttempts -- what an attempt starts once its runner is dead

A runner that is found dead during an attempt should be the end of it: the step at hand fails, a
failure halts what follows, and the steps that were not started are reported as skipped. There is one
gap. A step that failed recoverably does not halt what follows, and it stays that failure when its
closing announcement fails too; so if the runner is found dead there, the next step is started all
the same. `dead_runner_stops_attempt` says that this is the only gap, and
`next_step_starts_after_death` that it is one.

What halts is carried through the nested items by `HaltsWhenDead`.
-/
import SpecEngine.Proofs.LostRunner
import SpecEngine.Proofs.Replay

namespace SpecEngine.Engine

open Item (Step StepItem Scenario Specification)
open Result (StepResult ScenarioResult)
open Runner (Behavior Message Parameter ProtocolError Report)
open Event (Topic Subject Outcome)

variable {σ : Type}

/-! ## Halting -/

/-- Whether the happening announces the start of a step or of a concept. -/
def Happening.isStart : Happening → Bool
  | .announced .stepStart _ _ | .announced .conceptStart _ _ => true
  | _ => false

/-- The last thing that happened is that a step, having failed recoverably, did not pass its closing
announcement. -/
inductive RecoversAtClosing : List Happening → Prop
  | closed {before : List Happening} {text : String} {parameters : List Parameter}
      {answer closing : Except ProtocolError Message} {report : Report} :
      Runner.statusOf answer = .ok report → report.failed = true → report.recoverable = true →
      (Runner.reportOf closing).failed = true →
      RecoversAtClosing (before ++
        [.exchanged (.executeStep text parameters) answer, .exchanged (.stepEnding text) closing])

theorem RecoversAtClosing.prepend {hs : List Happening} (h : RecoversAtClosing hs)
    (before : List Happening) : RecoversAtClosing (before ++ hs) := by
  cases h with
  | closed hstatus hfailed hrecover hclosing =>
    rw [← List.append_assoc]
    exact .closed hstatus hfailed hrecover hclosing

/-- Wherever the runner was found dead, a step had recovered, or what follows is halted and nothing
was started any more. -/
def HaltsWhenDead (hs : List Happening) (halted : Bool) : Prop :=
  ∀ earlier later, hs = earlier ++ .looked false :: later →
    RecoversAtClosing earlier ∨ halted = true ∧ ∀ h ∈ later, h.isStart = false

/-- An element of two lists put end to end is in the first or in the second. -/
theorem append_split {α : Type} {xs ys earlier later : List α} {a : α}
    (h : xs ++ ys = earlier ++ a :: later) :
    (∃ rest, xs = earlier ++ a :: rest ∧ later = rest ++ ys) ∨
      ∃ more, earlier = xs ++ more ∧ ys = more ++ a :: later := by
  rcases List.append_eq_append_iff.mp h with ⟨more, hearlier, hys⟩ | ⟨rest, hxs, hrest⟩
  · exact .inr ⟨more, hearlier, hys⟩
  · obtain _ | ⟨first, rest⟩ := rest
    · exact .inr ⟨[], by simpa using hxs.symm, hrest.symm⟩
    · obtain ⟨rfl, rfl⟩ := List.cons.inj hrest
      exact .inl ⟨rest, hxs, rfl⟩

namespace HaltsWhenDead

variable {hs hs' : List Happening} {halted : Bool}

theorem of_alive (halive : foundDead hs = false) (halted : Bool) : HaltsWhenDead hs halted := by
  rintro earlier later rfl
  simp [foundDead] at halive

/-- What does not halt may be followed by more. -/
theorem append (h : HaltsWhenDead hs false) (h' : HaltsWhenDead hs' halted) :
    HaltsWhenDead (hs ++ hs') halted := by
  intro earlier later hsplit
  rcases append_split hsplit with ⟨rest, hhs, -⟩ | ⟨more, rfl, hhs'⟩
  · exact .inl ((h earlier rest hhs).resolve_right fun hhalted => by cases hhalted.1)
  · exact (h' more later hhs').imp_left fun hrecovers => hrecovers.prepend hs

/-- What halts may be followed by more that starts nothing. -/
theorem append_quiet (h : HaltsWhenDead hs halted) (halive : foundDead hs' = false)
    (hquiet : ∀ h ∈ hs', h.isStart = false) : HaltsWhenDead (hs ++ hs') halted := by
  intro earlier later hsplit
  rcases append_split hsplit with ⟨rest, hhs, rfl⟩ | ⟨more, -, rfl⟩
  · refine (h earlier rest hhs).imp_right fun ⟨hhalted, hrest⟩ => ⟨hhalted, ?_⟩
    exact List.forall_mem_append.mpr ⟨hrest, hquiet⟩
  · simp [foundDead] at halive

/-- After a look at the end nothing is started. -/
theorem look (halive : foundDead hs = false) (h : RecoversAtClosing hs ∨ halted = true)
    (alive : Bool) : HaltsWhenDead (hs ++ [.looked alive]) halted := by
  intro earlier later hsplit
  rcases append_split hsplit with ⟨rest, rfl, -⟩ | ⟨more, rfl, hlast⟩
  · simp [foundDead] at halive
  · obtain ⟨rfl, rfl⟩ : more = [] ∧ later = [] := by
      cases more <;> simp_all
    rw [List.append_nil]
    exact h.imp_right fun hhalted => ⟨hhalted, by simp⟩

theorem around {start stop : Topic} {subject : Subject} {outcome : Outcome}
    (h : HaltsWhenDead hs halted)
    (hstop : (Happening.announced stop subject (some outcome)).isStart = false) :
    HaltsWhenDead (announcedAround start stop subject outcome hs) halted := by
  have hopening : HaltsWhenDead [.announced start subject none] false := .of_alive rfl false
  exact hopening.append (h.append_quiet rfl (List.forall_mem_singleton.mpr hstop))

end HaltsWhenDead

/-! ## Histories halt -/

section

variable {plan : Plan} {fileName : String} {row : Option Table.Row}

/-- A step halts unless it recovered, wherever the runner was found dead in it. -/
theorem StepHistory.haltsWhenDead {step : Step} {hs : List Happening} {e : Executed}
    (h : StepHistory plan row step hs e) : HaltsWhenDead hs e.halt := by
  cases h with
  | unresolved _ => exact .of_alive rfl _
  | refused _ hbefore hfailed =>
    cases hbefore with
    | passed _ => exact .of_alive rfl _
    | @failed answer alive _ =>
      have hlook : HaltsWhenDead ([.exchanged (.stepStarting step.text) answer] ++
          [.looked alive]) true := .look rfl (.inr rfl) alive
      exact hlook
  | @broken parameters hs _ answer _ alive _ hbefore hpassed _ =>
    have halive : foundDead (hs ++ [.exchanged (.executeStep step.text parameters) answer]) =
        false := by
      rw [foundDead_append, hbefore.alive_of_passed hpassed]
      rfl
    rw [List.append_cons]
    exact .look halive (.inr rfl) alive
  | @reported parameters hs _ answer report _ after _ hbefore hpassed hstatus hafter =>
    have halive := hbefore.alive_of_passed hpassed
    cases hafter with
    | passed _ =>
      refine .of_alive ?_ _
      rw [foundDead_append, halive]
      rfl
    | @failed closing alive hclosing =>
      have halive : foundDead (hs ++ [.exchanged (.executeStep step.text parameters) answer] ++
          [.exchanged (.stepEnding step.text) closing]) = false := by
        rw [foundDead_append, foundDead_append, halive]
        rfl
      rw [List.append_cons, List.append_cons]
      refine .look halive ?_ alive
      -- the step has failed; if that does not halt, the failure is a recoverable one
      have hfailed := afterHook_failed step report hclosing
      rcases afterHook_cases step report (Runner.reportOf closing) with
        ⟨-, hpassed | ⟨-, hreport, hrecover⟩⟩ | ⟨hhalt, -⟩
      · rw [hfailed] at hpassed
        cases hpassed
      · rw [List.append_assoc]
        exact .inl (.closed hstatus hreport hrecover hclosing)
      · exact .inr hhalt

mutual

theorem ItemHistory.haltsWhenDead {item : StepItem} {hs : List Happening} {e : Executed} :
    ItemHistory plan fileName row item hs e → HaltsWhenDead hs e.halt
  | .step h => h.haltsWhenDead.around rfl
  | .concept h => (ItemsHistory.haltsWhenDead h).around rfl

theorem ItemsHistory.haltsWhenDead {items : List StepItem} {hs : List Happening}
    {o : StepsOutcome} : ItemsHistory plan fileName row items hs o → HaltsWhenDead hs o.halted
  | .nil => .of_alive rfl _
  | @ItemsHistory.halted _ _ _ _ rest _ e h hhalt => by
    have hhalted : (StepsOutcome.last e rest).halted = e.halt := Bool.or_false _
    rw [hhalted]
    exact ItemHistory.haltsWhenDead h
  | @ItemsHistory.cons _ _ _ _ _ _ _ e o h hgoes hrest => by
    have hhalted : (StepsOutcome.cons e o).halted = (e.halt || o.halted) := rfl
    have hitem := ItemHistory.haltsWhenDead h
    rw [hgoes] at hitem
    rw [hhalted, hgoes, Bool.false_or]
    exact hitem.append (ItemsHistory.haltsWhenDead hrest)

end

end

/-! ## Attempts -/

theorem HookHistory.starts_nothing {m : Message} {hs : List Happening} {report : Report}
    (h : HookHistory m hs report) : ∀ x ∈ hs, x.isStart = false := by
  cases h <;> simp [Happening.isStart]

/-- After `earlier`, in the course of an attempt with this result, nothing more is started, and the
steps that were not started before are skipped. -/
structure NothingStartsAfter (sc : Scenario) (r : ScenarioResult) (earlier later : List Happening) :
    Prop where
  quiet : ∀ h ∈ later, h.isStart = false
  skipped : ∃ started : List StepResult,
    started.length = (earlier.filterMap Happening.startedStep?).length ∧
      StepResult.allLeaves r.steps = started ++
        (sc.flatSteps.drop started.length).map fun step => StepResult.skipped step

theorem startedStep?_of_quiet {h : Happening} (hquiet : h.isStart = false) :
    h.startedStep? = none := by
  rcases h with _ | _ | ⟨topic, _, _⟩
  · rfl
  · rfl
  · cases topic <;> first | rfl | cases hquiet

/-- If nothing more is started, the steps that are left are skipped. -/
theorem StartsFirstSteps.nothingStartsAfter {plan : Plan} {spec : Specification} {sc : Scenario}
    {row : Option Table.Row} {earlier later : List Happening} {r : ScenarioResult} {before : Report}
    {runs : List StartedStep}
    (h : StartsFirstSteps plan spec sc row (earlier ++ .looked false :: later) r before runs)
    (hquiet : ∀ x ∈ later, x.isStart = false) : NothingStartsAfter sc r earlier later := by
  refine ⟨hquiet, runs.map (·.result), ?_, ?_⟩
  · have hlater : later.filterMap Happening.startedStep? = [] :=
      List.filterMap_eq_nil_iff.mpr fun x hx => startedStep?_of_quiet (hquiet x hx)
    have hlength := congrArg List.length h.announced
    rw [List.filterMap_append, List.filterMap_cons_none rfl, hlater, List.append_nil,
      List.length_map, List.length_take, Nat.min_eq_left h.bounded] at hlength
    rw [List.length_map, hlength]
  · rw [List.length_map]
    exact h.results

/-- Wherever the runner was found dead in an attempt, a step had recovered, or nothing was started
any more. -/
theorem AttemptHistory.stops_when_dead {plan : Plan} {spec : Specification} {sc : Scenario}
    {row : Option Table.Row} {earlier later : List Happening} {r : ScenarioResult}
    (h : AttemptHistory plan spec sc row (earlier ++ .looked false :: later) r) :
    RecoversAtClosing earlier ∨ NothingStartsAfter sc r earlier later := by
  obtain ⟨_, _, hstarts⟩ := h.startsFirstSteps
  refine (?_ : RecoversAtClosing earlier ∨ ∀ x ∈ later, x.isStart = false).imp_right
    hstarts.nothingStartsAfter
  clear hstarts
  generalize hsplit : earlier ++ .looked false :: later = hs at h
  cases h with
  | refused hbefore _ hafter =>
    -- nothing was started at all
    have hall := List.forall_mem_append.mpr ⟨hbefore.starts_nothing, hafter.starts_nothing⟩
    rw [← hsplit] at hall
    exact .inr fun x hx => hall x (List.mem_append_right _ (.tail _ hx))
  | executed hbefore hpassed hitems hafter =>
    rcases append_split hsplit.symm with ⟨rest, hbody, rfl⟩ | ⟨more, -, rfl⟩
    · have hhalts := (HaltsWhenDead.of_alive (hbefore.alive_of_passed hpassed) false).append
        hitems.haltsWhenDead
      refine (hhalts earlier rest hbody).imp_right fun ⟨_, hrest⟩ => ?_
      exact List.forall_mem_append.mpr ⟨hrest, hafter.starts_nothing⟩
    · exact .inr fun x hx => hafter.starts_nothing x (List.mem_append_right _ (.tail _ hx))

/-- Once the runner was found dead in an attempt, nothing more is started in it, and the steps that
were not started are skipped; unless it was found dead at the closing announcement of a step that
had failed recoverably. -/
theorem dead_runner_stops_attempt (b : Behavior σ) (plan : Plan) (spec : Specification)
    (sc : Scenario) (row : Option Table.Row) (s : Session σ) :
    ∃ hs, Happens b s hs (attempt b plan spec sc row s).2 ∧
      AttemptHistory plan spec sc row hs (attempt b plan spec sc row s).1 ∧
      ∀ earlier later, hs = earlier ++ .looked false :: later →
        RecoversAtClosing earlier ∨
          NothingStartsAfter sc (attempt b plan spec sc row s).1 earlier later := by
  obtain ⟨hs, hrun, hhistory⟩ := attempt_history b plan spec sc row s
  refine ⟨hs, hrun, hhistory, ?_⟩
  rintro earlier later rfl
  exact hhistory.stops_when_dead

/-! ### Runners that die -/

/-- A scenario of two steps. -/
def twoSteps : Scenario where
  heading := "only"
  steps := [.step { text := "one" }, .step { text := "two" }]

/-- A specification of the scenario. -/
def twoStepsSpec : Specification :=
  { heading := "a", fileName := "specs/a.spec", scenarios := [twoSteps] }

/-- A plan for the specification. -/
def twoStepsPlan : Plan where
  manifest := { language := "python" }
  specs := [twoStepsSpec]
  settings := {}

/-- A new session with a living runner. -/
def livingSession : Session Bool := { stream := 0, runner := true }

/-- What was answered is the runner's answer. -/
theorem Happens.answered {b : Behavior σ} {s t : Session σ} {hs : List Happening} {m : Message}
    {answer : Except ProtocolError Message} (h : Happens b s hs t)
    (hmem : .exchanged m answer ∈ hs) : ∃ runner, answer = (b.answer runner m).1 := by
  induction h with
  | nothing _ => cases hmem
  | @exchange s _ _ _ _ ih =>
    cases hmem with
    | head _ => exact ⟨s.runner, rfl⟩
    | tail _ hmem => exact ih hmem
  | look _ ih =>
    cases hmem with
    | tail _ hmem => exact ih hmem
  | announce _ _ _ _ ih =>
    cases hmem with
    | tail _ hmem => exact ih hmem

/-- A runner that dies of a step is found dead, and nothing is started any more. -/
theorem dying_fleet_stops_attempt :
    ∃ hs earlier later, hs = earlier ++ .looked false :: later ∧
      Happens dyingFleet.toBehavior livingSession hs
        (attempt dyingFleet.toBehavior twoStepsPlan twoStepsSpec twoSteps none livingSession).2 ∧
      NothingStartsAfter twoSteps
        (attempt dyingFleet.toBehavior twoStepsPlan twoStepsSpec twoSteps none livingSession).1
        earlier later := by
  obtain ⟨hs, hrun, -, hstops⟩ := dead_runner_stops_attempt dyingFleet.toBehavior twoStepsPlan
    twoStepsSpec twoSteps none livingSession
  have haborted : (attempt dyingFleet.toBehavior twoStepsPlan twoStepsSpec twoSteps none
      livingSession).2.aborted = true := by decide +kernel
  rw [hrun.aborted_eq] at haborted
  obtain ⟨look, hmem, hdead⟩ := List.any_eq_true.mp (haborted : foundDead hs = true)
  obtain ⟨earlier, later, rfl⟩ := List.append_of_mem hmem
  obtain rfl : look = .looked false := by
    rcases look with _ | ⟨_ | _⟩ | _ <;> first | rfl | cases hdead
  refine ⟨_, earlier, later, rfl, hrun, (hstops earlier later rfl).resolve_left ?_⟩
  -- the runner reports no failure that it could recover from
  rintro ⟨hstatus, -, -, -⟩
  obtain ⟨runner, rfl⟩ := hrun.answered (List.mem_append_left _
    (List.mem_append_right _ List.mem_cons_self))
  cases hstatus

/-- A runner whose steps fail recoverably and which dies when it is told that a step ended. -/
def dyingAtClosing : Behavior Bool where
  alive living := living
  answer
    | true, .executeStep .. =>
      (.ok (.statusResponse { failed := true, recoverable := true }), true)
    | true, .stepEnding _ => (.error .unreachable, false)
    | true, _ => (.ok (.statusResponse {}), true)
    | false, _ => (.error .unreachable, false)
  kill _ := (.ok (), false)

/-- The runner is found dead at the closing announcement of the first step, and the second one is
started and reported as failed all the same. -/
theorem next_step_starts_after_death :
    ∃ hs, Happens dyingAtClosing livingSession hs
        (attempt dyingAtClosing twoStepsPlan twoStepsSpec twoSteps none livingSession).2 ∧
      AttemptHistory twoStepsPlan twoStepsSpec twoSteps none hs
        (attempt dyingAtClosing twoStepsPlan twoStepsSpec twoSteps none livingSession).1 ∧
      (attempt dyingAtClosing twoStepsPlan twoStepsSpec twoSteps none
        livingSession).1.steps.map (·.status) = [.failed, .failed] ∧
      ∃ earlier later, hs = earlier ++ .looked false :: later ∧
        ¬NothingStartsAfter twoSteps
          (attempt dyingAtClosing twoStepsPlan twoStepsSpec twoSteps none livingSession).1
          earlier later := by
  have hpasses (m : Message) : HookHistory m [.exchanged m (.ok (.statusResponse {}))] {} :=
    .passed rfl
  have hdies (m : Message) : HookHistory m [.exchanged m (.error .unreachable), .looked false]
      (Runner.reportOf (.error .unreachable)) := .failed false rfl
  have hone : StepHistory twoStepsPlan none { text := "one" }
      [.exchanged (.stepStarting "one") (.ok (.statusResponse {})),
        .exchanged (.executeStep "one" [])
          (.ok (.statusResponse { failed := true, recoverable := true })),
        .exchanged (.stepEnding "one") (.error .unreachable), .looked false] _ :=
    .reported rfl (hpasses _) rfl rfl (hdies _)
  have htwo : StepHistory twoStepsPlan none { text := "two" }
      [.exchanged (.stepStarting "two") (.error .unreachable), .looked false] _ :=
    .refused rfl (hdies _) rfl
  have hhistory : AttemptHistory twoStepsPlan twoStepsSpec twoSteps none _ _ :=
    .executed (hpasses _) rfl (.cons (.step hone) rfl (.halted (.step htwo) rfl)) (hdies _)
  obtain ⟨hrun, hresult⟩ := hhistory.exhibits (b := dyingAtClosing) (s := livingSession)
    ⟨_, .exchange _ (.announce _ _ _ (.exchange _ (.exchange _ (.exchange _ (.look
      (.announce _ _ _ (.announce _ _ _ (.exchange _ (.look (.announce _ _ _ (.exchange _
        (.look (.nothing _)))))))))))))⟩
  rw [hresult]
  refine ⟨_, hrun, hhistory, rfl, _ :: _ :: _ :: _ :: _ :: [], _, rfl, fun h => ?_⟩
  have hstart := h.quiet (.announced .stepStart (.ofStep "specs/a.spec" { text := "two" }) none)
    (.tail _ (.head _))
  cases hstart

end SpecEngine.Engine
