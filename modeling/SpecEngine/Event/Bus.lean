/-
# SpecEngine.Event.Bus -- who hears which events

A bus hands each event to every subscription whose topics include the event's. A subscriber keeps a
receiver in which its events wait, so nobody waits for a slow listener. A subscription whose
receiver was dropped is removed when an event for it comes along. Closing ends all subscriptions,
resetting also gives the bus free for the next run; what has been received stays.
-/

import SpecEngine.Event.Basic

namespace SpecEngine.Event

/-- A receiver's waiting events, the earliest first. -/
structure Receiver where
  pending : List Announcement := []
  dropped : Bool := false
  deriving Repr

/-- A receiver's number with the topics for it. -/
structure Subscription where
  receiver : Nat
  topics : List Topic
  deriving DecidableEq, Repr

/-- How a receiver stands. -/
inductive ReceiverState where
  /-- More events may come. -/
  | opened
  | closed
  | dropped
  deriving DecidableEq, Repr

/-- A bus with its subscriptions and all receivers there ever were, by number. -/
structure Bus where
  owned : Bool := false
  subscriptions : List Subscription := []
  receivers : List Receiver := []
  deriving Repr

namespace Bus

/-- Gives the bus to a run; none if a run owns it already. -/
def own? (bus : Bus) : Option Bus := if bus.owned then none else some { bus with owned := true }

/-- The text about a bus that a run owns already. -/
def ownedText : String := "event bus already initialized for this run"

/-- Subscribes a new receiver; no topics stand for all of them. -/
def register (bus : Bus) (topics : List Topic) : Nat × Bus :=
  let number := bus.receivers.length
  (number, { bus with
    subscriptions := bus.subscriptions ++ [⟨number, if topics.isEmpty then Topic.all else topics⟩]
    receivers := bus.receivers ++ [{}] })

/-- Ends all subscriptions. -/
def close (bus : Bus) : Bus := { bus with subscriptions := [] }

/-- Ends all subscriptions and gives the bus free. -/
def reset (bus : Bus) : Bus := { bus with owned := false, subscriptions := [] }

/-- Whether a receiver was dropped. -/
def isDropped (bus : Bus) (receiver : Nat) : Bool :=
  (bus.receivers[receiver]?.map (·.dropped)).getD true

/-- Hands an event to one subscription, if it is for it. -/
def deliver (e : Announcement) (receivers : List Receiver) (s : Subscription) : List Receiver :=
  if s.topics.contains e.topic then
    receivers.modify s.receiver fun r =>
      if r.dropped then r else { r with pending := r.pending ++ [e] }
  else receivers

/-- Hands an event to the subscriptions it is for. -/
def notify (bus : Bus) (e : Announcement) : Bus :=
  { bus with
    subscriptions := bus.subscriptions.filter fun s =>
      !s.topics.contains e.topic || !bus.isDropped s.receiver
    receivers := bus.subscriptions.foldl (deliver e) bus.receivers }

/-- Hands events to the subscriptions they are for, one after the other. -/
def notifyAll (bus : Bus) (events : List Announcement) : Bus := events.foldl notify bus

/-- Drops a receiver with what waits in it. -/
def drop (bus : Bus) (receiver : Nat) : Bus :=
  { bus with receivers := bus.receivers.modify receiver fun _ => { dropped := true } }

/-- The events that wait in a receiver. -/
def pending (bus : Bus) (receiver : Nat) : List Announcement :=
  (bus.receivers[receiver]?.map (·.pending)).getD []

/-- Takes the events that wait in a receiver. -/
def drain (bus : Bus) (receiver : Nat) : List Announcement × Bus :=
  (bus.pending receiver,
    { bus with receivers := bus.receivers.modify receiver fun r => { r with pending := [] } })

/-- How a receiver stands. -/
def state (bus : Bus) (receiver : Nat) : ReceiverState :=
  if bus.isDropped receiver then .dropped
  else if bus.subscriptions.any (·.receiver == receiver) then .opened else .closed

end Bus

end SpecEngine.Event
