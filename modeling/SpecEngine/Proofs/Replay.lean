/-
# SpecEngine.Proofs.Replay -- a history tells the whole run

Every activity has a history. The converse holds too: happenings that make up a history of an
activity and that lead from one session to another are what the activity does to the first, and what
the history comes to is what it returns. So a run may be exhibited by its history, without running
anything.
-/
import SpecEngine.Proofs.History

namespace SpecEngine.Engine

open Item (Step StepItem Scenario Specification)
open Result (ScenarioResult)
open Runner (Behavior Message ProtocolError Report)
open Event (Topic Subject Outcome)

variable {σ : Type}

namespace Happens

variable {b : Behavior σ} {s t : Session σ} {hs hs' : List Happening}

/-- The session between two parts of what happens. -/
theorem split (h : Happens b s (hs ++ hs') t) :
    ∃ u, Happens b s hs u ∧ Happens b u hs' t := by
  induction hs generalizing s with
  | nil => exact ⟨s, .nothing s, h⟩
  | cons first rest ih =>
    cases h with
    | exchange m h =>
      obtain ⟨u, hrest, hlast⟩ := ih h
      exact ⟨u, .exchange m hrest, hlast⟩
    | look h =>
      obtain ⟨u, hrest, hlast⟩ := ih h
      exact ⟨u, .look hrest, hlast⟩
    | announce topic subject outcome h =>
      obtain ⟨u, hrest, hlast⟩ := ih h
      exact ⟨u, .announce topic subject outcome hrest, hlast⟩

theorem exchanged {m : Message} {answer : Except ProtocolError Message}
    (h : Happens b s (.exchanged m answer :: hs) t) :
    answer = (offer b m s).1 ∧ Happens b (offer b m s).2 hs t := by
  cases h with
  | exchange _ h => exact ⟨rfl, h⟩

theorem looked {alive : Bool} (h : Happens b s (.looked alive :: hs) t) :
    Happens b (noticeDeath b s).2 hs t := by
  cases h with
  | look h => exact h

theorem nothing_eq (h : Happens b s [] t) : s = t := by
  cases h
  rfl

/-- What happens between two announcements leads from the session after the first to the session
before the second. -/
theorem between {start stop : Topic} {subject : Subject} {outcome : Outcome}
    (h : Happens b s (announcedAround start stop subject outcome hs) t) :
    ∃ u, Happens b (Engine.announce start subject none s).2 hs u ∧
      t = (Engine.announce stop subject (some outcome) u).2 := by
  cases h with
  | announce _ _ _ h =>
    obtain ⟨u, hbody, hstop⟩ := h.split
    cases hstop with
    | announce _ _ _ hend => exact ⟨u, hbody, hend.nothing_eq.symm⟩

end Happens

variable {b : Behavior σ} {plan : Plan} {fileName : String} {row : Option Table.Row}
variable {s t : Session σ} {hs : List Happening}

theorem HookHistory.hook_eq {m : Message} {report : Report} (h : HookHistory m hs report)
    (hrun : Happens b s hs t) : hook b m s = (report, t) := by
  cases h with
  | passed hpassed =>
    obtain ⟨rfl, hend⟩ := hrun.exchanged
    simp only [hook, bind_run, ite_run, pure_run, hpassed, hend.nothing_eq]
    rfl
  | failed alive hfailed =>
    obtain ⟨rfl, hlook⟩ := hrun.exchanged
    simp only [hook, bind_run, ite_run, pure_run, hfailed, if_true, hlook.looked.nothing_eq]

theorem StepHistory.runStep_eq {step : Step} {e : Executed} (h : StepHistory plan row step hs e)
    (hrun : Happens b s hs t) : runStep b plan row step s = (e, t) := by
  cases h with
  | unresolved hfault =>
    simp only [runStep, hfault, pure_run, hrun.nothing_eq]
  | refused hparameters hbefore hfailed =>
    simp only [runStep, hparameters, bind_run, hbefore.hook_eq hrun, hfailed, if_true, pure_run]
  | broken alive hparameters hbefore hpassed hstatus =>
    obtain ⟨u, hopening, hstep⟩ := hrun.split
    obtain ⟨rfl, hlook⟩ := hstep.exchanged
    simp only [runStep, hparameters, bind_run, hbefore.hook_eq hopening, hpassed,
      Bool.false_eq_true, if_false, hstatus, pure_run, hlook.looked.nothing_eq]
  | reported hparameters hbefore hpassed hstatus hafter =>
    obtain ⟨u, hopening, hstep⟩ := hrun.split
    obtain ⟨rfl, hclosing⟩ := hstep.exchanged
    simp only [runStep, hparameters, bind_run, hbefore.hook_eq hopening, hpassed,
      Bool.false_eq_true, if_false, hstatus, pure_run, hafter.hook_eq hclosing]

mutual

theorem ItemHistory.runItem_eq {item : StepItem} {hs : List Happening} {e : Executed}
    {s t : Session σ} : ItemHistory plan fileName row item hs e → Happens b s hs t →
      runItem b plan fileName row item s = (e, t)
  | .step h, hrun => by
    obtain ⟨u, hbody, rfl⟩ := hrun.between
    simp only [runItem, announcedStep, bind_run, h.runStep_eq hbody, pure_run]
  | .concept h, hrun => by
    obtain ⟨u, hbody, rfl⟩ := hrun.between
    simp only [runItem, bind_run, ItemsHistory.runItems_eq h hbody, pure_run]

theorem ItemsHistory.runItems_eq {items : List StepItem} {hs : List Happening}
    {o : StepsOutcome} {s t : Session σ} : ItemsHistory plan fileName row items hs o →
      Happens b s hs t → runItems b plan fileName row items s = (o, t)
  | .nil, hrun => by
    rw [runItems, pure_run, hrun.nothing_eq]
  | .halted h hhalt, hrun => by
    simp only [runItems, bind_run, ItemHistory.runItem_eq h hrun, hhalt, if_true, pure_run]
  | .cons h hgoes hrest, hrun => by
    obtain ⟨u, hitem, hothers⟩ := hrun.split
    simp only [runItems, bind_run, ItemHistory.runItem_eq h hitem, hgoes, Bool.false_eq_true,
      if_false, ItemsHistory.runItems_eq hrest hothers, pure_run]

end

/-- Happenings that make up an attempt and lead from a session to another are the attempt. -/
theorem AttemptHistory.attempt_eq {spec : Specification} {sc : Scenario} {r : ScenarioResult}
    (h : AttemptHistory plan spec sc row hs r) (hrun : Happens b s hs t) :
    attempt b plan spec sc row s = (r, t) := by
  cases h with
  | refused hbefore hfailed hafter =>
    obtain ⟨u, hopening, hclosing⟩ := hrun.split
    simp only [attempt, bind_run, hbefore.hook_eq hopening, hfailed, if_true,
      hafter.hook_eq hclosing, pure_run]
  | executed hbefore hpassed hitems hafter =>
    obtain ⟨v, hbody, hclosing⟩ := hrun.split
    obtain ⟨u, hopening, hsteps⟩ := hbody.split
    simp only [attempt, bind_run, hbefore.hook_eq hopening, hpassed, Bool.false_eq_true,
      if_false, hitems.runItems_eq hsteps, hafter.hook_eq hclosing, pure_run]

/-- An attempt may be exhibited by what happens in it. -/
theorem AttemptHistory.exhibits {spec : Specification} {sc : Scenario} {r : ScenarioResult}
    (h : AttemptHistory plan spec sc row hs r) (hrun : ∃ t, Happens b s hs t) :
    Happens b s hs (attempt b plan spec sc row s).2 ∧ (attempt b plan spec sc row s).1 = r := by
  obtain ⟨t, hrun⟩ := hrun
  rw [h.attempt_eq hrun]
  exact ⟨hrun, rfl⟩

end SpecEngine.Engine
