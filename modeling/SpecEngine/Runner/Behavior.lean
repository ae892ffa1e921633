/-
# SpecEngine.Runner.Behavior -- runners as reply functions

The engine knows a runner by what it does, whatever it is made of: a state, an answer to each
message with the state after it, and whether it is still alive. A runner may answer in any way, fail
round trips and die at any message. A fleet can start one runner for each stream, and may fail to.

The task that serves a stream can break down together with its runner. `brokenAt` says so of the
final state: it gives the number of messages that the runner had been offered up to the one at which
the task broke down. A runner whose task broke down answers nothing more and counts as dead.
-/

import SpecEngine.Runner.Message

namespace SpecEngine.Runner

/-- What a runner does in a state. -/
structure Behavior (σ : Type) where
  alive : σ → Bool
  answer : σ → Message → Except ProtocolError Message × σ
  kill : σ → Except ProtocolError Unit × σ

/-- Runners for the streams of a run. -/
structure Fleet (σ : Type) extends Behavior σ where
  start : Nat → Except ProtocolError σ
  /-- How many messages had been offered when the task broke down. -/
  brokenAt : σ → Option Nat := fun _ => none

end SpecEngine.Runner
