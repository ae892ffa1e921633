/-
# SpecEngine.Proofs.Activity -- running activities

An activity is a function of a session, so running two activities one after the other is feeding the
second with what the first leaves behind. The equations below say so for sequences and branches.
What a runner is offered is read off the trace; the primitives add their messages to it and
announcements add none.
-/
import SpecEngine.Engine.Session

namespace SpecEngine.Runner

/-- The state of a runner after messages. -/
def Behavior.after {σ : Type} (b : Behavior σ) (runner : σ) (messages : List Message) : σ :=
  messages.foldl (fun runner m => (b.answer runner m).2) runner

end SpecEngine.Runner

namespace SpecEngine.Engine

open Event (Topic Subject Outcome)
open Runner (Behavior Message)

variable {σ α β : Type}

/-! ## Sequences and branches -/

@[simp] theorem bind_run (act : Activity σ α) (next : α → Activity σ β) (s : Session σ) :
    (act >>= next) s = next (act s).1 (act s).2 := rfl

@[simp] theorem pure_run (a : α) (s : Session σ) : (pure a : Activity σ α) s = (a, s) := rfl

@[simp] theorem ite_run {c : Prop} [Decidable c] (yes no : Activity σ α) (s : Session σ) :
    (if c then yes else no) s = if c then yes s else no s := by
  split <;> rfl

@[simp] theorem isAborted_run (s : Session σ) : isAborted s = (s.aborted, s) := rfl

@[simp] theorem isAborted_bind_run (next : Bool → Activity σ α) (s : Session σ) :
    (isAborted >>= next) s = next s.aborted s := rfl

@[simp] theorem get_bind_run (next : Session σ → Activity σ α) (s : Session σ) :
    ((get : Activity σ (Session σ)) >>= next) s = next s s := rfl

/-! ## Offers and hooks -/

@[simp] theorem offer_answer (b : Behavior σ) (m : Message) (s : Session σ) :
    (offer b m s).1 = (b.answer s.runner m).1 := rfl

@[simp] theorem offer_runner (b : Behavior σ) (m : Message) (s : Session σ) :
    (offer b m s).2.runner = (b.answer s.runner m).2 := rfl

@[simp] theorem hook_report (b : Behavior σ) (m : Message) (s : Session σ) :
    (hook b m s).1 = Runner.reportOf (b.answer s.runner m).1 := by
  simp only [hook, bind_run, ite_run, pure_run]
  split <;> rfl

/-! ## What a runner is offered -/

/-- The message of an occurrence, if it is an offer. -/
def Occurrence.message? : Occurrence → Option Message
  | .offered m => some m
  | _ => none

/-- The messages that the runner of a session was offered, in order. -/
def Session.offers (s : Session σ) : List Message := s.trace.toList.filterMap Occurrence.message?

@[simp] theorem offer_offers (b : Behavior σ) (m : Message) (s : Session σ) :
    (offer b m s).2.offers = s.offers ++ [m] := by
  simp [offer, Session.offers, Occurrence.message?]

@[simp] theorem announce_offers (topic : Topic) (subject : Subject) (outcome : Option Outcome)
    (s : Session σ) : (announce topic subject outcome s).2.offers = s.offers := by
  simp [announce, Session.offers, Occurrence.message?]

end SpecEngine.Engine
