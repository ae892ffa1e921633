/-
# SpecEngine.Engine.Session -- one stream and its runner

A session is a stream's runner together with all that happens on the stream, in order: the messages
that the runner is offered, the events that are announced and the kill. A message counts as offered
whether or not the runner is alive to hear it. Once the runner is found dead the session is aborted,
and it stays so.
-/

import SpecEngine.Engine.Plan
import SpecEngine.Event.Basic
import SpecEngine.Runner.Behavior

namespace SpecEngine.Engine

open Event (Announcement Topic Subject Outcome)
open Runner (Behavior Message ProtocolError Report)

/-- Something that happens on a stream. -/
inductive Occurrence where
  | offered (m : Message)
  | announced (e : Announcement)
  | killed
  deriving Repr

/-- A stream with its runner. -/
structure Session (σ : Type) where
  stream : Nat
  runner : σ
  aborted : Bool := false
  trace : Array Occurrence := #[]

/-- An activity on a stream. -/
abbrev Activity (σ α : Type) := StateM (Session σ) α

variable {σ : Type}

/-- Offers a message to the runner. -/
def offer (b : Behavior σ) (m : Message) : Activity σ (Except ProtocolError Message) := fun s =>
  let (answer, runner) := b.answer s.runner m
  (answer, { s with runner := runner, trace := s.trace.push (.offered m) })

/-- Aborts the session if the runner is dead. -/
def noticeDeath (b : Behavior σ) : Activity σ Unit := fun s =>
  ((), { s with aborted := s.aborted || !b.alive s.runner })

/-- Announces an event. -/
def announce (topic : Topic) (subject : Subject) (outcome : Option Outcome := none) :
    Activity σ Unit := fun s =>
  ((), { s with trace := s.trace.push (.announced ⟨topic, subject, outcome, s.stream⟩) })

/-- Whether the session is aborted. -/
def isAborted : Activity σ Bool := fun s => (s.aborted, s)

/-- Announces something to the runner and asks how it went. -/
def hook (b : Behavior σ) (m : Message) : Activity σ Report := do
  let report := Runner.reportOf (← offer b m)
  if report.failed then noticeDeath b
  pure report

end SpecEngine.Engine
