/-
# SpecEngine.Proofs.BrokenRoundTrips -- the cause of a broken round trip is kept

The round trip in which a step is executed breaks when it ends in a protocol error, or in a message
that is no report on a status. The step has then failed with the text of the error, every concept
around it has failed, and the attempt has failed with the same failure as its own.

The failure goes up through the concepts as a cause apart from the results, and it could lose its
place there to another that was handed on before. That no other is handed on before it is due to
halting: a step that breaks halts what follows, so an item that does not halt has no cause, however
many failures it has that are recoverable (`ItemHistory.cause_eq_none`). After it nothing but the
closing announcement of the scenario is left, and its failure comes second.
-/
import SpecEngine.Proofs.AbortedAttempts
import SpecEngine.Proofs.StartedSteps

/-! ## Places of plain steps -/

namespace SpecEngine.Result.StepResult

/-- The plain step of a number among these results has this result, which is within the results of
these concepts, the outermost first. -/
inductive LeafAt : List StepResult → Nat → List StepResult → StepResult → Prop
  | here {r rest} : r.isConcept = false → LeafAt (r :: rest) 0 [] r
  | within {r rest k concepts leaf} : r.isConcept = true → LeafAt r.nested k concepts leaf →
      LeafAt (r :: rest) k (r :: concepts) leaf
  | later {r rest k concepts leaf} : LeafAt rest k concepts leaf →
      LeafAt (r :: rest) (r.leaves.length + k) concepts leaf

theorem leaves_of_isConcept {r : StepResult} (h : r.isConcept = true) :
    r.leaves = allLeaves r.nested := by
  obtain ⟨text, line, status, durationMs, failure, nested, isConcept⟩ := r
  obtain rfl : isConcept = true := h
  rfl

theorem leaves_of_not_isConcept {r : StepResult} (h : r.isConcept = false) : r.leaves = [r] := by
  obtain ⟨text, line, status, durationMs, failure, nested, isConcept⟩ := r
  obtain rfl : isConcept = false := h
  rfl

namespace LeafAt

variable {rs concepts others : List StepResult} {k k' : Nat} {leaf other : StepResult}

/-- Plain steps are numbered in the order in which they are listed. -/
theorem getElem?_eq (h : LeafAt rs k concepts leaf) : (allLeaves rs)[k]? = some leaf := by
  induction h with
  | here hplain => rw [allLeaves, leaves_of_not_isConcept hplain]; rfl
  | @within r rest k concepts leaf hconcept _ ih =>
    obtain ⟨hlt, -⟩ := List.getElem?_eq_some_iff.mp ih
    rw [allLeaves, leaves_of_isConcept hconcept, List.getElem?_append_left hlt, ih]
  | later _ ih =>
    rw [allLeaves, List.getElem?_append_right (Nat.le_add_right _ _), Nat.add_sub_cancel_left, ih]

theorem lt_leaves {r : StepResult} (h : LeafAt r.nested k concepts leaf)
    (hconcept : r.isConcept = true) : k < r.leaves.length := by
  rw [leaves_of_isConcept hconcept]
  exact (List.getElem?_eq_some_iff.mp h.getElem?_eq).1

/-- A plain step of a number has one place. -/
theorem unique (h : LeafAt rs k concepts leaf) (h' : LeafAt rs k' others other) (hk : k' = k) :
    others = concepts ∧ other = leaf := by
  induction h generalizing k' others with
  | here hplain =>
    cases h' with
    | here _ => exact ⟨rfl, rfl⟩
    | within hconcept _ => rw [hplain] at hconcept; cases hconcept
    | later _ => rw [leaves_of_not_isConcept hplain, List.length_singleton] at hk; omega
  | within hconcept hnested ih =>
    cases h' with
    | here hplain => rw [hplain] at hconcept; cases hconcept
    | within _ hnested' =>
      obtain ⟨rfl, rfl⟩ := ih hnested' hk
      exact ⟨rfl, rfl⟩
    | later _ =>
      have hlt := hnested.lt_leaves hconcept
      omega
  | later _ ih =>
    cases h' with
    | here hplain => rw [leaves_of_not_isConcept hplain, List.length_singleton] at hk; omega
    | within hconcept hnested =>
      have hlt := hnested.lt_leaves hconcept
      omega
    | later hrest => exact ih hrest (by omega)

theorem append (h : LeafAt rs k concepts leaf) (others : List StepResult) :
    LeafAt (rs ++ others) k concepts leaf := by
  induction h with
  | here hplain => exact .here hplain
  | within hconcept hnested _ => exact .within hconcept hnested
  | later _ ih => exact .later ih

end LeafAt

end SpecEngine.Result.StepResult

namespace SpecEngine.Engine

open Item (Step StepItem Scenario Specification)
open Result (StepResult ScenarioResult Failure)
open Result.StepResult (LeafAt)
open Runner (Behavior Message Parameter ProtocolError Report)
open Event (Topic Subject Outcome)

variable {σ : Type}

/-! ## Broken round trips -/

/-- The answer to a request for a status is a protocol error, or a message that is no report on a
status, and comes to this error. -/
inductive Breaks : Except ProtocolError Message → ProtocolError → Prop
  | error (e : ProtocolError) : Breaks (.error e) e
  | other {m : Message} : (∀ report, m ≠ .statusResponse report) →
      Breaks (.ok m) (Runner.unexpectedAnswer m)

theorem Breaks.statusOf_eq {answer : Except ProtocolError Message} {e : ProtocolError}
    (h : Breaks answer e) : Runner.statusOf answer = .error e := by
  cases h with
  | error => rfl
  | @other m hother =>
    cases m with
    | statusResponse report => exact absurd rfl (hother report)
    | _ => rfl

/-- The failure that tells of an error. -/
def failureOf (e : ProtocolError) : Failure := { message := e.text }

/-- The step of a number was started last when its round trip broke with this error, and it has
failed with it, within these concepts that have failed too. -/
structure BrokenAt (plan : Plan) (row : Option Table.Row) (steps : List Step)
    (results : List StepResult) (before : List Happening) (text : String)
    (parameters : List Parameter) (e : ProtocolError) (k : Nat) (step : Step)
    (concepts : List StepResult) : Prop where
  started : (before.filterMap Happening.startedStep?).length = k + 1
  listed : steps[k]? = some step
  requested : text = step.text
  resolved : plan.resolver.parameters row step.args = .ok parameters
  leaf : LeafAt results k concepts (.failed step 0 (failureOf e))
  failed : ∀ c ∈ concepts, c.status = .failed

namespace BrokenAt

variable {plan : Plan} {row : Option Table.Row} {steps : List Step} {results : List StepResult}
variable {before earlier : List Happening} {text : String} {parameters : List Parameter}
variable {e : ProtocolError} {k : Nat} {step : Step} {concepts : List StepResult}

/-- Happenings that start no step may come first. -/
theorem prepend (h : BrokenAt plan row steps results before text parameters e k step concepts)
    (hearlier : earlier.filterMap Happening.startedStep? = []) :
    BrokenAt plan row steps results (earlier ++ before) text parameters e k step concepts :=
  { h with
    started := by rw [List.filterMap_append, hearlier, List.nil_append, h.started] }

/-- Other steps may be left. -/
theorem append (h : BrokenAt plan row steps results before text parameters e k step concepts)
    (others : List Step) (more : List StepResult) :
    BrokenAt plan row (steps ++ others) (results ++ more) before text parameters e k step
      concepts := by
  obtain ⟨hlt, -⟩ := List.getElem?_eq_some_iff.mp h.listed
  exact { h with
    listed := (List.getElem?_append_left hlt).trans h.listed
    leaf := h.leaf.append more }

/-- An item may come first, all of whose steps were started. -/
theorem later (h : BrokenAt plan row steps results before text parameters e k step concepts)
    {others : List Step} {r : StepResult}
    (hearlier : (earlier.filterMap Happening.startedStep?).length = others.length)
    (hleaves : r.leaves.length = others.length) :
    BrokenAt plan row (others ++ steps) (r :: results) (earlier ++ before) text parameters e
      (others.length + k) step concepts :=
  { h with
    started := by
      rw [List.filterMap_append, List.length_append, hearlier, h.started, Nat.add_assoc]
    listed := by
      rw [List.getElem?_append_right (Nat.le_add_right _ _), Nat.add_sub_cancel_left, h.listed]
    leaf := hleaves ▸ .later h.leaf }

/-- A failed concept may be around it. -/
theorem within (h : BrokenAt plan row steps results before text parameters e k step concepts)
    {c : StepResult} (hnested : c.nested = results) (hconcept : c.isConcept = true)
    (hfailed : c.status = .failed) :
    BrokenAt plan row steps [c] before text parameters e k step (c :: concepts) :=
  { h with
    leaf := .within hconcept (hnested ▸ h.leaf)
    failed := List.forall_mem_cons.mpr ⟨hfailed, h.failed⟩ }

end BrokenAt

/-- Wherever a round trip broke in which a step was executed, its step and the concepts around it
have failed, and the failure is handed on with a halt. -/
def KeepsCause (plan : Plan) (row : Option Table.Row) (steps : List Step)
    (results : List StepResult) (cause : Option Failure) (halted : Bool) (hs : List Happening) :
    Prop :=
  ∀ before text parameters answer e after,
    hs = before ++ .exchanged (.executeStep text parameters) answer :: after →
    Runner.statusOf answer = .error e →
    (∃ k step concepts,
        BrokenAt plan row steps results before text parameters e k step concepts) ∧
      cause = some (failureOf e) ∧ halted = true

section

variable {plan : Plan} {fileName : String} {row : Option Table.Row}

/-- What is not announced happens between the announcements of a start and of an end. -/
theorem announcedAround_split {start stop : Topic} {subject : Subject} {outcome : Outcome}
    {hs before after : List Happening} {h : Happening}
    (hsplit : announcedAround start stop subject outcome hs = before ++ h :: after)
    (hunannounced : h.isAnnounced = false) :
    ∃ within rest, before = .announced start subject none :: within ∧
      hs = within ++ h :: rest := by
  cases before with
  | nil =>
    obtain ⟨rfl, -⟩ := List.cons.inj hsplit
    cases hunannounced
  | cons first within =>
    obtain ⟨rfl, hbody⟩ := List.cons.inj hsplit
    rcases append_split hbody with ⟨rest, hhs, -⟩ | ⟨more, -, hlast⟩
    · exact ⟨within, rest, rfl, hhs⟩
    · have hmem : h ∈ [Happening.announced stop subject (some outcome)] := by simp [hlast]
      obtain rfl := List.mem_singleton.mp hmem
      cases hunannounced

/-! ## Steps -/

/-- An announcement to the runner is a round trip of nothing else. -/
theorem HookHistory.exchanged_eq {m m' : Message} {hs : List Happening} {report : Report}
    {answer : Except ProtocolError Message} (h : HookHistory m hs report)
    (hmem : .exchanged m' answer ∈ hs) : m' = m := by
  cases h with
  | passed _ =>
    cases hmem with
    | head => rfl
    | tail _ hmem => cases hmem
  | failed _ _ =>
    cases hmem with
    | head => rfl
    | tail _ hmem =>
      cases hmem with
      | tail _ hmem => cases hmem

/-- A step whose round trip broke has come to nothing else. -/
theorem StepHistory.broken_of_exchanged {step : Step} {hs : List Happening} {x : Executed}
    {text : String} {parameters : List Parameter} {answer : Except ProtocolError Message}
    {e : ProtocolError} (h : StepHistory plan row step hs x)
    (hmem : .exchanged (.executeStep text parameters) answer ∈ hs)
    (hbroke : Runner.statusOf answer = .error e) :
    x = brokenStep step e ∧ text = step.text ∧
      plan.resolver.parameters row step.args = .ok parameters := by
  cases h with
  | unresolved _ => cases hmem
  | refused _ hbefore _ => cases hbefore.exchanged_eq hmem
  | broken alive hparameters hbefore _ hstatus =>
    rcases List.mem_append.mp hmem with hmem | hmem
    · cases hbefore.exchanged_eq hmem
    · cases hmem with
      | head =>
        rw [hstatus] at hbroke
        cases hbroke
        exact ⟨rfl, rfl, hparameters⟩
      | tail _ hmem =>
        cases hmem with
        | tail _ hmem => cases hmem
  | reported hparameters hbefore _ hstatus hafter =>
    rcases List.mem_append.mp hmem with hmem | hmem
    · cases hbefore.exchanged_eq hmem
    · cases hmem with
      | head =>
        rw [hstatus] at hbroke
        cases hbroke
      | tail _ hmem => cases hafter.exchanged_eq hmem

theorem judge_cause (step : Step) (report : Report) : (judge step report).cause = none := by
  unfold judge
  split
  · rfl
  · split <;> rfl

/-- A reported failure is no cause. -/
theorem afterHook_cause (step : Step) (report after : Report) :
    (afterHook step report after).cause = none := by
  unfold afterHook
  dsimp only
  split
  · rfl
  · exact judge_cause step report

/-- A step that does not halt what follows has no cause to hand on. -/
theorem StepHistory.cause_eq_none {step : Step} {hs : List Happening} {x : Executed}
    (h : StepHistory plan row step hs x) (hgoes : x.halt = false) : x.cause = none := by
  cases h with
  | unresolved _ => rfl
  | refused _ _ _ => rfl
  | broken _ _ _ _ _ => cases hgoes
  | reported _ _ _ _ _ => exact afterHook_cause step _ _

theorem StepHistory.keepsCause {step : Step} {hs : List Happening} {x : Executed}
    (h : StepHistory plan row step hs x) :
    KeepsCause plan row [step] [x.result] x.cause x.halt (stepHappenings fileName step hs x) := by
  intro before text parameters answer e after hsplit hbroke
  obtain ⟨within, rest, rfl, rfl⟩ := announcedAround_split hsplit rfl
  have hmem : .exchanged (.executeStep text parameters) answer ∈
      within ++ .exchanged (.executeStep text parameters) answer :: rest := by simp
  have hstarted : within.filterMap Happening.startedStep? = [] :=
    startedSteps_of_unannounced fun y hy => h.unannounced y (List.mem_append_left _ hy)
  obtain ⟨rfl, rfl, hparameters⟩ := h.broken_of_exchanged hmem hbroke
  refine ⟨⟨0, step, [], ?_, rfl, rfl, hparameters, .here rfl, by simp⟩, rfl, rfl⟩
  rw [List.filterMap_cons, hstarted]
  rfl

/-! ## Items -/

mutual

/-- An item that does not halt what follows has no cause to hand on, whatever failed in it. -/
theorem ItemHistory.cause_eq_none {item : StepItem} {hs : List Happening} {x : Executed} :
    ItemHistory plan fileName row item hs x → x.halt = false → x.cause = none
  | .step h, hgoes => h.cause_eq_none hgoes
  | .concept h, hgoes => ItemsHistory.failure_eq_none h hgoes

theorem ItemsHistory.failure_eq_none {items : List StepItem} {hs : List Happening}
    {o : StepsOutcome} :
    ItemsHistory plan fileName row items hs o → o.halted = false → o.failure = none
  | .nil, _ => rfl
  | .halted _ hhalt, hgoes => by
    rw [StepsOutcome.last, StepsOutcome.cons, hhalt] at hgoes
    cases hgoes
  | @ItemsHistory.cons _ _ _ _ _ _ _ x o h hhalt hrest, hgoes => by
    have hothers : o.halted = false := (Bool.or_eq_false_iff.mp hgoes).2
    show x.cause.or o.failure = none
    rw [ItemHistory.cause_eq_none h hhalt, ItemsHistory.failure_eq_none hrest hothers]
    rfl

end

/-- An item that does not halt what follows starts all the plain steps that it stands for. -/
theorem ItemHistory.started_all {item : StepItem} {hs : List Happening} {x : Executed}
    (h : ItemHistory plan fileName row item hs x) (hgoes : x.halt = false) :
    (hs.filterMap Happening.startedStep?).length = item.flatten.length ∧
      x.result.leaves.length = item.flatten.length := by
  obtain ⟨runs, hruns, hhappened, hresults⟩ := h.started
  rw [hgoes] at hruns
  have hall := hruns.length_eq
  constructor
  · rw [← filterMap_withoutConcepts startedStep?_of_concept, hhappened, hruns.announced,
      List.length_map, hall]
  · rw [hresults, List.drop_eq_nil_of_le (Nat.le_of_eq hall.symm), List.map_nil, List.append_nil,
      List.length_map, hall]

theorem StepsOutcome.status_of_failure {o : StepsOutcome} {failure : Failure}
    (h : o.failure = some failure) : o.status = .failed := by
  rw [StepsOutcome.status, StepsOutcome.failed, h]
  rfl

mutual

theorem ItemHistory.keepsCause {item : StepItem} {hs : List Happening} {x : Executed} :
    ItemHistory plan fileName row item hs x →
      KeepsCause plan row item.flatten [x.result] x.cause x.halt hs
  | .step h => by
    rw [StepItem.flatten]
    exact h.keepsCause
  | @ItemHistory.concept _ _ _ name line steps hs parts h => by
    intro before text parameters answer e after hsplit hbroke
    obtain ⟨within, rest, rfl, hhs⟩ := announcedAround_split hsplit rfl
    obtain ⟨⟨k, step, concepts, hat⟩, hcause, hhalt⟩ :=
      ItemsHistory.keepsCause h within text parameters answer e rest hhs hbroke
    rw [StepItem.flatten]
    have hfailed : (conceptOf name line parts).result.status = .failed :=
      StepsOutcome.status_of_failure hcause
    have hconcept := hat.within rfl rfl hfailed
    -- the start of the concept is no start of a step
    have hstart : [Happening.announced .conceptStart (.concept fileName name line) none].filterMap
        Happening.startedStep? = [] := rfl
    exact ⟨⟨k, step, _, hconcept.prepend hstart⟩, hcause, hhalt⟩

theorem ItemsHistory.keepsCause {items : List StepItem} {hs : List Happening}
    {o : StepsOutcome} : ItemsHistory plan fileName row items hs o →
      KeepsCause plan row (StepItem.flattenAll items) o.results o.failure o.halted hs
  | .nil => by
    intro before text parameters answer e after hsplit _
    simp at hsplit
  | @ItemsHistory.halted _ _ _ item rest hs x h hhalt => by
    intro before text parameters answer e after hsplit hbroke
    obtain ⟨⟨k, step, concepts, hat⟩, hcause, -⟩ :=
      ItemHistory.keepsCause h before text parameters answer e after hsplit hbroke
    rw [StepItem.flattenAll]
    refine ⟨⟨k, step, concepts, hat.append _ _⟩, ?_, ?_⟩
    · show x.cause.or none = _
      rw [hcause]
      rfl
    · show (x.halt || false) = true
      rw [hhalt]
      rfl
  | @ItemsHistory.cons _ _ _ item rest hs hs' x o h hgoes hrest => by
    intro before text parameters answer e after hsplit hbroke
    rcases append_split hsplit with ⟨later, hhs, -⟩ | ⟨more, rfl, hhs'⟩
    · -- an item in which a round trip broke halts
      obtain ⟨-, -, hhalt⟩ :=
        ItemHistory.keepsCause h before text parameters answer e later hhs hbroke
      rw [hgoes] at hhalt
      cases hhalt
    · obtain ⟨⟨k, step, concepts, hat⟩, hcause, hhalt⟩ :=
        ItemsHistory.keepsCause hrest more text parameters answer e after hhs' hbroke
      obtain ⟨hstarted, hleaves⟩ := h.started_all hgoes
      rw [StepItem.flattenAll]
      refine ⟨⟨_, step, concepts, hat.later hstarted hleaves⟩, ?_, ?_⟩
      · show x.cause.or o.failure = _
        rw [h.cause_eq_none hgoes, hcause]
        rfl
      · show (x.halt || o.halted) = true
        rw [hhalt, Bool.or_true]

end

end

/-! ## Attempts -/

/-- An attempt that failed with a failure of its own keeps it, whatever is said at its closing. -/
theorem attemptResult_of_failure {sc : Scenario} {row : Option Table.Row}
    {o : StepsOutcome} {failure : Failure} (h : o.failure = some failure) (after : Report) :
    (attemptResult sc row o.results o.failure o.status after).status = .failed ∧
      (attemptResult sc row o.results o.failure o.status after).failure = some failure := by
  constructor
  · show (if after.failed then .failed else o.status) = Result.Status.failed
    rw [StepsOutcome.status_of_failure h, ite_self]
  · show (if after.failed then o.failure.or (some _) else o.failure) = some failure
    rw [h, Option.some_or, ite_self]

/-- The round trip of a step broke in an attempt with this result: the step and all the concepts
around it have failed, and the attempt has failed with the same failure as its own. -/
structure BrokeAttempt (plan : Plan) (sc : Scenario) (row : Option Table.Row)
    (r : ScenarioResult) (before : List Happening) (text : String) (parameters : List Parameter)
    (e : ProtocolError) : Prop where
  place : ∃ k step concepts,
    BrokenAt plan row sc.flatSteps r.steps before text parameters e k step concepts ∧
      ∀ others other, LeafAt r.steps k others other → others = concepts
  status : r.status = .failed
  failure : r.failure = some (failureOf e)

theorem AttemptHistory.broke {plan : Plan} {spec : Specification} {sc : Scenario}
    {row : Option Table.Row} {hs before after : List Happening} {r : ScenarioResult}
    {text : String} {parameters : List Parameter} {answer : Except ProtocolError Message}
    {e : ProtocolError} (h : AttemptHistory plan spec sc row hs r)
    (hsplit : hs = before ++ .exchanged (.executeStep text parameters) answer :: after)
    (hbroke : Runner.statusOf answer = .error e) :
    BrokeAttempt plan sc row r before text parameters e := by
  cases h with
  | refused hbefore _ hafter =>
    rcases append_split hsplit with ⟨rest, rfl, -⟩ | ⟨more, -, rfl⟩
    · cases hbefore.exchanged_eq (List.mem_append_right _ List.mem_cons_self)
    · cases hafter.exchanged_eq (List.mem_append_right _ List.mem_cons_self)
  | executed hbefore _ hitems hafter =>
    rcases append_split hsplit with ⟨rest, hsplit, -⟩ | ⟨more, -, rfl⟩
    · rcases append_split hsplit with ⟨rest, rfl, -⟩ | ⟨more, rfl, hitem⟩
      · cases hbefore.exchanged_eq (List.mem_append_right _ List.mem_cons_self)
      · obtain ⟨⟨k, step, concepts, hat⟩, hcause, -⟩ :=
          hitems.keepsCause more text parameters answer e rest hitem hbroke
        obtain ⟨hstatus, hfailure⟩ := attemptResult_of_failure hcause _
        have hplace := hat.prepend (startedSteps_of_unannounced hbefore.unannounced)
        have hunique := fun others other (hother : LeafAt _ k others other) =>
          (hat.leaf.unique hother rfl).1
        exact ⟨⟨k, step, concepts, hplace, hunique⟩, hstatus, hfailure⟩
    · cases hafter.exchanged_eq (List.mem_append_right _ List.mem_cons_self)

/-- The cause of a broken round trip is kept. If the answer to the execution of a step is a protocol
error or no report, the step has failed with the error's text, every concept around it has failed,
and the attempt has failed with the same failure as its own; whatever failed recoverably before it,
and whatever the runner says to the end of the scenario. -/
theorem broken_round_trip_kept (b : Behavior σ) (plan : Plan) (spec : Specification)
    (sc : Scenario) (row : Option Table.Row) (s : Session σ) :
    ∃ hs, Happens b s hs (attempt b plan spec sc row s).2 ∧
      AttemptHistory plan spec sc row hs (attempt b plan spec sc row s).1 ∧
      ∀ before text parameters answer after e,
        hs = before ++ .exchanged (.executeStep text parameters) answer :: after →
        Breaks answer e →
        BrokeAttempt plan sc row (attempt b plan spec sc row s).1 before text parameters e := by
  obtain ⟨hs, hrun, hhistory⟩ := attempt_history b plan spec sc row s
  refine ⟨hs, hrun, hhistory, ?_⟩
  intro before text parameters answer after e hsplit hbreaks
  exact hhistory.broke hsplit hbreaks.statusOf_eq

/-! ### A runner that answers with the wrong message -/

/-- A runner whose steps fail recoverably, but for one that it takes for another request, and which
fails whatever comes to an end. -/
def confusedRunner : Behavior Unit where
  alive _ := true
  answer _
    | .executeStep "three" _ => (.ok (.validateResponse true none none), ())
    | .executeStep .. | .scenarioEnding .. | .stepEnding .. =>
      (.ok (.statusResponse { failed := true, recoverable := true }), ())
    | _ => (.ok (.statusResponse {}), ())
  kill _ := (.ok (), ())

/-- A scenario with a concept in a concept. -/
def nestedScenario : Scenario where
  heading := "nested"
  steps := [
    .step { text := "one" },
    .concept "outer" 2 [.step { text := "two" }, .concept "inner" 3 [.step { text := "three" }]],
    .step { text := "four" }]

/-- A specification of the scenario. -/
def nestedSpec : Specification :=
  { heading := "n", fileName := "specs/n.spec", scenarios := [nestedScenario] }

/-- A plan for the specification. -/
def nestedPlan : Plan :=
  { manifest := { language := "python" }, specs := [nestedSpec], settings := {} }

/-- The round trip of the third step breaks after two recoverable failures, and the failure of the
closing announcement does not take the place of its cause. -/
theorem confused_runner_kept :
    let r := (attempt confusedRunner nestedPlan nestedSpec nestedScenario none
      { stream := 0, runner := () }).1
    let e := Runner.unexpectedAnswer (.validateResponse true none none)
    r.steps.map (·.status) = [.failed, .failed, .skipped] ∧
      r.failure.map (·.message) = some ("malformed response from runner: " ++
        "expected ExecutionStatusResponse, got StepValidateResponse") ∧
      ∃ before, BrokeAttempt nestedPlan nestedScenario none r before "three" [] e := by
  intro r e
  obtain ⟨hs, hrun, -, hkept⟩ := broken_round_trip_kept confusedRunner nestedPlan nestedSpec
    nestedScenario none { stream := 0, runner := () }
  have hoffered : .executeStep "three" [] ∈ (attempt confusedRunner nestedPlan nestedSpec
      nestedScenario none { stream := 0, runner := () }).2.offers := by
    decide +kernel
  rw [hrun.offers_eq] at hoffered
  obtain ⟨h, hmem, hmessage⟩ := List.mem_filterMap.mp hoffered
  obtain ⟨answer, rfl⟩ : ∃ answer, h = .exchanged (.executeStep "three" []) answer := by
    rcases h with ⟨m, answer⟩ | _ | _ <;> cases hmessage
    exact ⟨answer, rfl⟩
  obtain ⟨_, rfl⟩ := hrun.answered hmem
  obtain ⟨before, after, hsplit⟩ := List.append_of_mem hmem
  refine ⟨by decide +kernel, by decide +kernel, before, ?_⟩
  exact hkept before _ _ _ after e hsplit (.other nofun)

end SpecEngine.Engine
