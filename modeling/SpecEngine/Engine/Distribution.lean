/-
# SpecEngine.Engine.Distribution -- sharing out work

Work is shared out among streams in one of two ways. `partition` cuts a list into contiguous groups,
one for each stream, whose sizes differ by at most one, the larger groups first. A `Queue` hands out
one item at a time to whoever asks for the next.
-/

namespace SpecEngine.Engine

variable {α : Type}

/-! ## Groups -/

/-- Cuts a list into a number of groups; each takes its share, rounded up, of what is left. -/
def groups : Nat → List α → List (List α)
  | 0, _ => []
  | streams + 1, items =>
    let size := (items.length + streams) / (streams + 1)
    items.take size :: groups streams (items.drop size)

/-- The groups of a list for a number of streams, of which there is at least one. -/
def partition (items : List α) (streams : Nat) : List (List α) := groups (max streams 1) items

/-! ## Queues -/

/-- Items that wait to be taken, the next one first. -/
structure Queue (α : Type) where
  waiting : List α
  deriving Repr

namespace Queue

/-- Takes the next item. -/
def claim : Queue α → Option (α × Queue α)
  | ⟨[]⟩ => none
  | ⟨item :: rest⟩ => some (item, ⟨rest⟩)

/-- The number of items that wait. -/
def remaining (q : Queue α) : Nat := q.waiting.length

/-- A claim takes one item away. -/
theorem remaining_of_claim {q rest : Queue α} {item : α} (h : q.claim = some (item, rest)) :
    q.remaining = rest.remaining + 1 := by
  obtain ⟨waiting⟩ := q
  cases waiting with
  | nil => simp [claim] at h
  | cons first others =>
    simp only [claim, Option.some.injEq, Prod.mk.injEq] at h
    simp [← h.2, remaining]

end Queue

end SpecEngine.Engine
