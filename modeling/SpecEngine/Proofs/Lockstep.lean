/-
# SpecEngine.Proofs.Lockstep -- two runs side by side

Statements about two runs compare sessions by a relation that both runs keep. `Coupled` says that
two activities keep it and come to related values. A relation that the primitives of the engine keep
(`Lockstep`) is kept by everything built from them: steps, scenarios with their retries, whole
specifications. The two runs may have different runners and different plans, as long as the plans
ask for the same work.
-/
import SpecEngine.Engine.Spec
import SpecEngine.Proofs.Activity

namespace SpecEngine.Engine

open Item (Scenario Specification Step StepItem)
open Runner (Behavior Message)
open Event (Topic Subject Outcome)

variable {σ τ α β γ δ : Type}

/-! ## Coupled activities -/

/-- From related sessions the two activities come to related values, and the sessions they leave are
related again. -/
def Coupled (R : Session σ → Session τ → Prop) (Q : α → β → Prop) (left : Activity σ α)
    (right : Activity τ β) : Prop :=
  ∀ ⦃s t⦄, R s t → Q (left s).1 (right t).1 ∧ R (left s).2 (right t).2

namespace Coupled

variable {R : Session σ → Session τ → Prop}

theorem pure {Q : α → β → Prop} {a : α} {b : β} (h : Q a b) :
    Coupled R Q (Pure.pure a) (Pure.pure b) := fun _ _ hR => ⟨h, hR⟩

theorem bind {Q : α → β → Prop} {Q' : γ → δ → Prop} {left : Activity σ α} {right : Activity τ β}
    {next : α → Activity σ γ} {next' : β → Activity τ δ} (h : Coupled R Q left right)
    (hnext : ∀ a b, Q a b → Coupled R Q' (next a) (next' b)) :
    Coupled R Q' (left >>= next) (right >>= next') := by
  intro s t hR
  obtain ⟨hQ, hR'⟩ := h hR
  exact hnext _ _ hQ hR'

/-- Activities that come to one value are followed by the same activity on both sides. -/
theorem bindEq {Q : γ → δ → Prop} {left : Activity σ α} {right : Activity τ α}
    {next : α → Activity σ γ} {next' : α → Activity τ δ} (h : Coupled R Eq left right)
    (hnext : ∀ a, Coupled R Q (next a) (next' a)) :
    Coupled R Q (left >>= next) (right >>= next') := by
  refine h.bind ?_
  rintro a _ rfl
  exact hnext a

theorem ite {Q : α → β → Prop} {c : Prop} [Decidable c] {left left' : Activity σ α}
    {right right' : Activity τ β} (h : c → Coupled R Q left right)
    (h' : ¬c → Coupled R Q left' right') :
    Coupled R Q (if c then left else left') (if c then right else right') := by
  by_cases hc : c
  · rw [if_pos hc, if_pos hc]
    exact h hc
  · rw [if_neg hc, if_neg hc]
    exact h' hc

end Coupled

/-! ## Relations that the engine keeps -/

/-- A relation between sessions that the primitives of the engine keep. -/
structure Lockstep (b : Behavior σ) (b' : Behavior τ) (R : Session σ → Session τ → Prop) :
    Prop where
  offer : ∀ m, Coupled R Eq (offer b m) (offer b' m)
  noticeDeath : Coupled R Eq (noticeDeath b) (noticeDeath b')
  announce : ∀ topic subject outcome,
    Coupled R Eq (announce topic subject outcome) (announce topic subject outcome)
  isAborted : Coupled R Eq isAborted isAborted

/-- The plans agree on everything that an item's run reads, build errors apart. -/
structure Plan.SameWork (plan plan' : Plan) : Prop where
  resolver : plan.resolver = plan'.resolver
  rows : plan.settings.rows = plan'.settings.rows
  maxAttempts : plan.settings.maxAttempts = plan'.settings.maxAttempts
  retryOnly : plan.settings.retryOnly = plan'.settings.retryOnly

theorem Plan.SameWork.refl (plan : Plan) : plan.SameWork plan := ⟨rfl, rfl, rfl, rfl⟩

theorem Plan.SameWork.attemptLimit {plan plan' : Plan} (same : plan.SameWork plan')
    (spec : Specification) (sc : Scenario) :
    attemptLimit plan spec sc = attemptLimit plan' spec sc := by
  have hretry : plan.settings.allowsRetry = plan'.settings.allowsRetry := by
    funext tags
    rw [Config.Settings.allowsRetry, same.maxAttempts, same.retryOnly, Config.Settings.allowsRetry]
  rw [Engine.attemptLimit, hretry, same.maxAttempts, Engine.attemptLimit]

theorem Plan.SameWork.drivingRows {plan plan' : Plan} (same : plan.SameWork plan')
    (spec : Specification) : drivingRows plan spec = drivingRows plan' spec := by
  have hsel : selectedRows plan = selectedRows plan' := by
    funext rows
    simp only [selectedRows, same.rows]
  simp only [Engine.drivingRows, hsel, same.resolver]

namespace Lockstep

variable {b : Behavior σ} {b' : Behavior τ} {R : Session σ → Session τ → Prop}
variable {plan plan' : Plan} {spec : Specification} {row : Option Table.Row}

/-- A run is in lockstep with itself. -/
theorem refl (b : Behavior σ) : Lockstep b b Eq where
  offer _ _ _ h := h ▸ ⟨rfl, rfl⟩
  noticeDeath _ _ h := h ▸ ⟨rfl, rfl⟩
  announce _ _ _ _ _ h := h ▸ ⟨rfl, rfl⟩
  isAborted _ _ h := h ▸ ⟨rfl, rfl⟩

theorem hook (h : Lockstep b b' R) (m : Message) :
    Coupled R Eq (hook b m) (hook b' m) := by
  refine (h.offer m).bindEq fun answer => ?_
  dsimp only
  exact .ite (fun _ => h.noticeDeath.bindEq fun _ => .pure rfl) fun _ => .pure rfl

/-! ### Steps and concepts -/

theorem runStep (h : Lockstep b b' R) (same : plan.SameWork plan') (step : Step) :
    Coupled R Eq (runStep b plan row step) (runStep b' plan' row step) := by
  simp only [Engine.runStep, same.resolver]
  cases plan'.resolver.parameters row step.args with
  | error fault => exact .pure rfl
  | ok parameters =>
    refine (h.hook _).bindEq fun before => ?_
    refine Coupled.ite (fun _ => .pure rfl) fun _ => ?_
    refine (h.offer _).bindEq fun answer => ?_
    cases Runner.statusOf answer with
    | error e => exact h.noticeDeath.bindEq fun _ => .pure rfl
    | ok report => exact (h.hook _).bindEq fun _ => .pure rfl

theorem announcedStep (h : Lockstep b b' R) (same : plan.SameWork plan') (fileName : String)
    (step : Step) :
    Coupled R Eq (announcedStep b plan fileName row step)
      (announcedStep b' plan' fileName row step) := by
  refine (h.announce _ _ _).bindEq fun _ => ?_
  refine (h.runStep same step).bindEq fun e => ?_
  exact (h.announce _ _ _).bindEq fun _ => .pure rfl

mutual

theorem runItem (h : Lockstep b b' R) (same : plan.SameWork plan') (fileName : String) :
    ∀ item : StepItem,
      Coupled R Eq (runItem b plan fileName row item) (runItem b' plan' fileName row item)
  | .step s => by
    simp only [Engine.runItem]
    exact h.announcedStep same fileName s
  | .concept text line steps => by
    simp only [Engine.runItem]
    refine (h.announce _ _ _).bindEq fun _ => ?_
    refine (runItems h same fileName steps).bindEq fun parts => ?_
    exact (h.announce _ _ _).bindEq fun _ => .pure rfl

theorem runItems (h : Lockstep b b' R) (same : plan.SameWork plan') (fileName : String) :
    ∀ items : List StepItem,
      Coupled R Eq (runItems b plan fileName row items) (runItems b' plan' fileName row items)
  | [] => by
    simp only [Engine.runItems]
    exact .pure rfl
  | item :: rest => by
    simp only [Engine.runItems]
    refine (runItem h same fileName item).bindEq fun e => ?_
    refine Coupled.ite (fun _ => .pure rfl) fun _ => ?_
    exact (runItems h same fileName rest).bindEq fun _ => .pure rfl

end

/-! ### Scenarios -/

theorem attempt (h : Lockstep b b' R) (same : plan.SameWork plan') (sc : Scenario) :
    Coupled R Eq (attempt b plan spec sc row) (attempt b' plan' spec sc row) := by
  refine (h.hook _).bindEq fun before => ?_
  refine Coupled.ite (fun _ => ?_) fun _ => ?_
  · exact (h.hook _).bindEq fun _ => .pure rfl
  · refine (h.runItems same _ _).bindEq fun outcome => ?_
    exact (h.hook _).bindEq fun _ => .pure rfl

theorem attempts (h : Lockstep b b' R) (same : plan.SameWork plan') (sc : Scenario)
    (number more : Nat) :
    Coupled R Eq (attempts b plan spec sc row number more)
      (attempts b' plan' spec sc row number more) := by
  induction more generalizing number with
  | zero => exact (h.attempt same sc).bindEq fun _ => .pure rfl
  | succ more ih =>
    simp only [Engine.attempts]
    refine (h.attempt same sc).bindEq fun r => ?_
    refine h.isAborted.bindEq fun aborted => ?_
    exact .ite (fun _ => .pure rfl) fun _ => ih (number + 1)

theorem skipScenario (h : Lockstep b b' R) (sc : Scenario) (reason : String) :
    Coupled R Eq (skipScenario spec sc row reason) (skipScenario spec sc row reason) := by
  refine (h.announce _ _ _).bindEq fun _ => ?_
  exact (h.announce _ _ _).bindEq fun _ => .pure rfl

theorem runScenario (h : Lockstep b b' R) (same : plan.SameWork plan')
    (errors : plan.buildErrors = plan'.buildErrors) (sc : Scenario) :
    Coupled R Eq (runScenario b plan spec sc row) (runScenario b' plan' spec sc row) := by
  simp only [Engine.runScenario, errors, same.attemptLimit]
  refine .ite (fun _ => h.skipScenario sc _) fun _ => ?_
  refine h.isAborted.bindEq fun aborted => ?_
  refine .ite (fun _ => h.skipScenario sc _) fun _ => ?_
  refine (h.announce _ _ _).bindEq fun _ => ?_
  refine (h.attempts same sc _ _).bindEq fun result => ?_
  exact (h.announce _ _ _).bindEq fun _ => .pure rfl

/-! ### Specifications -/

theorem runRows (h : Lockstep b b' R) (same : plan.SameWork plan')
    (errors : plan.buildErrors = plan'.buildErrors) (sc : Scenario) (rows : List Table.Row) :
    Coupled R Eq (runRows b plan spec sc rows) (runRows b' plan' spec sc rows) := by
  induction rows with
  | nil => exact .pure rfl
  | cons row rest ih =>
    refine (h.runScenario same errors sc).bindEq fun r => ?_
    exact ih.bindEq fun rs => .pure rfl

theorem runForTable (h : Lockstep b b' R) (same : plan.SameWork plan')
    (errors : plan.buildErrors = plan'.buildErrors) (rows : Option (List Table.Row))
    (sc : Scenario) :
    Coupled R Eq (runForTable b plan spec rows sc) (runForTable b' plan' spec rows sc) := by
  simp only [Engine.runForTable]
  split
  · exact (h.skipScenario sc _).bindEq fun _ => .pure rfl
  · exact h.runRows same errors sc _
  · exact (h.runScenario same errors sc).bindEq fun _ => .pure rfl

theorem runScenarios (h : Lockstep b b' R) (same : plan.SameWork plan')
    (errors : plan.buildErrors = plan'.buildErrors) (rows : Option (List Table.Row))
    (scenarios : List Scenario) :
    Coupled R Eq (runScenarios b plan spec rows scenarios)
      (runScenarios b' plan' spec rows scenarios) := by
  induction scenarios with
  | nil => exact .pure rfl
  | cons sc rest ih =>
    refine (h.runForTable same errors rows sc).bindEq fun rs => ?_
    exact ih.bindEq fun more => .pure rfl

theorem runBody (h : Lockstep b b' R) (same : plan.SameWork plan')
    (errors : plan.buildErrors = plan'.buildErrors) :
    Coupled R Eq (runBody b plan spec) (runBody b' plan' spec) := by
  simp only [Engine.runBody, same.drivingRows]
  cases drivingRows plan' spec with
  | error fault => exact .pure rfl
  | ok rows => exact (h.runScenarios same errors rows _).bindEq fun _ => .pure rfl

theorem takeUp (h : Lockstep b b' R) (same : plan.SameWork plan')
    (errors : plan.buildErrors = plan'.buildErrors) :
    Coupled R Eq (takeUp b plan spec) (takeUp b' plan' spec) := by
  refine (h.hook _).bindEq fun before => ?_
  dsimp only
  refine .ite (fun _ => ?_) fun _ => ?_
  · refine Coupled.bindEq (.pure rfl) fun body => ?_
    exact (h.hook _).bindEq fun _ => .pure rfl
  · refine (h.runBody same errors).bindEq fun body => ?_
    exact (h.hook _).bindEq fun _ => .pure rfl

theorem runSpec (h : Lockstep b b' R) (same : plan.SameWork plan')
    (errors : plan.buildErrors = plan'.buildErrors) :
    Coupled R Eq (runSpec b plan spec) (runSpec b' plan' spec) := by
  simp only [Engine.runSpec, errors]
  cases plan'.buildErrors.ofSpec spec with
  | some es => exact .pure rfl
  | none =>
    refine h.isAborted.bindEq fun aborted => ?_
    exact .ite (fun _ => .pure rfl) fun _ => h.takeUp same errors

theorem announcedSpec (h : Lockstep b b' R) (same : plan.SameWork plan')
    (errors : plan.buildErrors = plan'.buildErrors) :
    Coupled R Eq (announcedSpec b plan spec) (announcedSpec b' plan' spec) := by
  refine (h.announce _ _ _).bindEq fun _ => ?_
  refine (h.runSpec same errors).bindEq fun r => ?_
  exact (h.announce _ _ _).bindEq fun _ => .pure rfl

end Lockstep

end SpecEngine.Engine
