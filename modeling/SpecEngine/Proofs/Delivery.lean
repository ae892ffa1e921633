/-
# SpecEngine.Proofs.Delivery -- what subscribers get

A subscriber that keeps its receiver gets the events of its topics, each once and in the order in
which they were published, from its registration up to the next time the bus is closed or reset.
Nothing else that is done with the bus makes a difference to it: others may subscribe, drop their
receivers and be removed for it, and it may take out what waits whenever it likes.

What one action does to a subscriber is said by its standing (`Standing`): whether it is subscribed
still, with which topics, and that its receiver is there. One lemma says what becomes of the
standing and of the events in the receiver; what a whole run brings follows by induction.
-/
import Mathlib.Data.List.Induction
import SpecEngine.Event.Bus

namespace SpecEngine.Event

/-! ## Actions -/

/-- Something that is done with a bus. -/
inductive Action where
  | register (topics : List Topic)
  | notify (e : Announcement)
  | close
  | reset
  | own
  | drop (receiver : Nat)
  | drain (receiver : Nat)

namespace Action

/-- Whether the action ends all subscriptions. -/
def ends : Action → Bool
  | .close | .reset => true
  | _ => false

/-- The event that the action publishes. -/
def event? : Action → Option Announcement
  | .notify e => some e
  | _ => none

end Action

namespace Bus

/-- The bus after an action. A bus that cannot be given away stays as it is. -/
def act (bus : Bus) : Action → Bus
  | .register topics => (bus.register topics).2
  | .notify e => bus.notify e
  | .close => bus.close
  | .reset => bus.reset
  | .own => bus.own?.getD bus
  | .drop receiver => bus.drop receiver
  | .drain receiver => (bus.drain receiver).2

/-- The bus after actions. -/
def acts (bus : Bus) (actions : List Action) : Bus := actions.foldl act bus

/-- The events that an action takes out of a receiver. -/
def taken (bus : Bus) (receiver : Nat) : Action → List Announcement
  | .drain other => if other = receiver then (bus.drain other).1 else []
  | _ => []

/-- The events that the holder of a receiver gets during actions: those that it takes out, and those
that wait for it in the end. -/
def received (receiver : Nat) (bus : Bus) : List Action → List Announcement
  | [] => bus.pending receiver
  | a :: rest => bus.taken receiver a ++ (bus.act a).received receiver rest

end Bus

/-- Whether a subscriber to topics wants an event; no topics stand for all of them. -/
def wants (topics : List Topic) (e : Announcement) : Bool :=
  topics.isEmpty || topics.contains e.topic

/-- The events for a subscriber to topics: what is published and wanted until all subscriptions
end. -/
def dueTo (topics : List Topic) (actions : List Action) : List Announcement :=
  ((actions.takeWhile fun a => !a.ends).filterMap Action.event?).filter (wants topics)

theorem Topic.mem_all (t : Topic) : t ∈ Topic.all := by
  cases t <;> decide

/-- A subscription is for the events that its subscriber wants. -/
theorem contains_eq_wants (topics : List Topic) (e : Announcement) :
    (if topics.isEmpty then Topic.all else topics).contains e.topic = wants topics e := by
  unfold wants
  cases h : topics.isEmpty with
  | true => simpa using Topic.mem_all e.topic
  | false => simp

/-! ## One action -/

namespace Bus

/-- What delivering to a subscription does to a receiver. -/
def handOver (e : Announcement) (r : Option Receiver) (s : Subscription) : Option Receiver :=
  if s.topics.contains e.topic then
    r.map fun r => if r.dropped then r else { r with pending := r.pending ++ [e] }
  else r

theorem getElem?_deliver (e : Announcement) (receivers : List Receiver) (s : Subscription)
    (receiver : Nat) :
    (deliver e receivers s)[receiver]? =
      if s.receiver == receiver then handOver e receivers[receiver]? s
      else receivers[receiver]? := by
  unfold deliver handOver
  by_cases hwanted : e.topic ∈ s.topics
  · by_cases hsame : s.receiver = receiver <;> simp [hwanted, hsame]
  · simp [hwanted]

/-- A receiver is changed by its own subscriptions only. -/
theorem getElem?_foldl_deliver (e : Announcement) (subscriptions : List Subscription)
    (receivers : List Receiver) (receiver : Nat) :
    (subscriptions.foldl (deliver e) receivers)[receiver]? =
      (subscriptions.filter (·.receiver == receiver)).foldl (handOver e) receivers[receiver]? := by
  rw [List.foldl_filter]
  induction subscriptions generalizing receivers with
  | nil => rfl
  | cons s rest ih => rw [List.foldl_cons, List.foldl_cons, ih, getElem?_deliver]

/-- How a subscriber to topics stands that keeps its receiver: with its one subscription, or with
none once subscriptions were ended. -/
structure Standing (bus : Bus) (receiver : Nat) (topics : List Topic) (subscribed : Bool) :
    Prop where
  subscription : bus.subscriptions.filter (·.receiver == receiver) =
    if subscribed then [⟨receiver, if topics.isEmpty then Topic.all else topics⟩] else []
  kept : ∃ pending, bus.receivers[receiver]? = some ⟨pending, false⟩

/-- The events that an action publishes for a subscriber. -/
def published (topics : List Topic) (subscribed : Bool) (a : Action) : List Announcement :=
  if subscribed then (a.event?.toList).filter (wants topics) else []

section

variable {bus : Bus} {receiver : Nat} {topics : List Topic} {subscribed : Bool}

/-- Of an event the subscriber gets one copy, if it is subscribed and wants it. -/
theorem Standing.getElem?_notify (h : bus.Standing receiver topics subscribed) (e : Announcement)
    {pending : List Announcement} (hkept : bus.receivers[receiver]? = some ⟨pending, false⟩) :
    (bus.notify e).receivers[receiver]? =
      some ⟨pending ++ published topics subscribed (.notify e), false⟩ := by
  show (bus.subscriptions.foldl (deliver e) bus.receivers)[receiver]? = _
  rw [getElem?_foldl_deliver, h.subscription, hkept]
  cases subscribed with
  | false => simp [published]
  | true =>
    show handOver e (some ⟨pending, false⟩) ⟨receiver, _⟩ = _
    unfold handOver
    rw [contains_eq_wants]
    cases hwants : wants topics e <;> simp [published, Action.event?, hwants]

theorem Standing.notify (h : bus.Standing receiver topics subscribed) (e : Announcement) :
    (bus.notify e).Standing receiver topics subscribed := by
  obtain ⟨pending, hkept⟩ := h.kept
  refine ⟨?_, _, h.getElem?_notify e hkept⟩
  rw [← h.subscription]
  -- nobody whose receiver is there is removed
  show ((bus.subscriptions.filter _).filter _) = _
  rw [List.filter_filter]
  apply List.filter_congr
  intro s _
  by_cases hs : s.receiver = receiver
  · simp [hs, isDropped, hkept]
  · simp [hs]

/-- A new subscriber has a receiver of its own. -/
theorem Standing.register (h : bus.Standing receiver topics subscribed) (others : List Topic) :
    (bus.register others).2.Standing receiver topics subscribed ∧
      (bus.register others).2.receivers[receiver]? = bus.receivers[receiver]? := by
  obtain ⟨pending, hkept⟩ := h.kept
  have hlt : receiver < bus.receivers.length := (List.getElem?_eq_some_iff.mp hkept).1
  have hsame : (bus.register others).2.receivers[receiver]? = bus.receivers[receiver]? :=
    List.getElem?_append_left hlt
  refine ⟨⟨?_, pending, hsame.trans hkept⟩, hsame⟩
  have hne : bus.receivers.length ≠ receiver := by omega
  rw [← h.subscription]
  simp [Bus.register, List.filter_append, hne]

/-- An action that neither publishes an event nor takes one out, and leaves the receiver as it
was. -/
theorem Standing.act_quiet (h : bus.Standing receiver topics subscribed) {a : Action}
    (hevent : a.event? = none) (htaken : bus.taken receiver a = [])
    (hsubscription : (bus.act a).subscriptions.filter (·.receiver == receiver) =
      if subscribed && !a.ends then [⟨receiver, if topics.isEmpty then Topic.all else topics⟩]
      else [])
    (hsame : (bus.act a).receivers[receiver]? = bus.receivers[receiver]?) :
    (bus.act a).Standing receiver topics (subscribed && !a.ends) ∧
      bus.taken receiver a ++ (bus.act a).pending receiver =
        bus.pending receiver ++ published topics subscribed a := by
  obtain ⟨pending, hkept⟩ := h.kept
  refine ⟨⟨hsubscription, pending, hsame.trans hkept⟩, ?_⟩
  rw [htaken, Bus.pending, Bus.pending, hsame]
  cases subscribed <;> simp [published, hevent]

/-- Who takes out what waits gets it; nobody else's receiver is touched. -/
theorem Standing.drain (h : bus.Standing receiver topics subscribed) (other : Nat) :
    (bus.drain other).2.Standing receiver topics subscribed ∧
      bus.taken receiver (.drain other) ++ (bus.drain other).2.pending receiver =
        bus.pending receiver := by
  obtain ⟨pending, hkept⟩ := h.kept
  by_cases hsame : other = receiver
  · subst hsame
    have hafter : (bus.drain other).2.receivers[other]? = some ⟨[], false⟩ := by
      simp [Bus.drain, hkept]
    refine ⟨⟨h.subscription, [], hafter⟩, ?_⟩
    rw [Bus.pending, hafter]
    simp [taken, Bus.drain]
  · have hafter : (bus.drain other).2.receivers[receiver]? = bus.receivers[receiver]? := by
      simp [Bus.drain, hsame]
    refine ⟨⟨h.subscription, pending, hafter.trans hkept⟩, ?_⟩
    rw [Bus.pending, Bus.pending, hafter]
    simp [taken, hsame]

/-- What an action does to a subscriber that keeps its receiver: the subscription lasts until all
subscriptions end, and what the receiver holds, with what is taken out of it, grows by what is
published for the subscriber. -/
theorem Standing.act (h : bus.Standing receiver topics subscribed) {a : Action}
    (hkeeps : a ≠ .drop receiver) :
    (bus.act a).Standing receiver topics (subscribed && !a.ends) ∧
      bus.taken receiver a ++ (bus.act a).pending receiver =
        bus.pending receiver ++ published topics subscribed a := by
  cases a with
  | register others =>
    obtain ⟨hstanding, hsame⟩ := h.register others
    exact h.act_quiet rfl rfl (by simpa [Action.ends, Bus.act] using hstanding.subscription)
      hsame
  | notify e =>
    obtain ⟨pending, hkept⟩ := h.kept
    refine ⟨by simpa [Action.ends, Bus.act] using h.notify e, ?_⟩
    show [] ++ (((bus.notify e).receivers[receiver]?).map (·.pending)).getD [] = _
    rw [h.getElem?_notify e hkept, Bus.pending, hkept]
    rfl
  | close => exact h.act_quiet rfl rfl (by simp [Action.ends, Bus.act, Bus.close]) rfl
  | reset => exact h.act_quiet rfl rfl (by simp [Action.ends, Bus.act, Bus.reset]) rfl
  | own =>
    have hown : (bus.act .own).subscriptions = bus.subscriptions ∧
        (bus.act .own).receivers = bus.receivers := by
      cases howned : bus.owned <;> simp [Bus.act, own?, howned]
    refine h.act_quiet rfl rfl ?_ (by rw [hown.2])
    rw [hown.1, h.subscription]
    simp [Action.ends]
  | drop other =>
    have hne : other ≠ receiver := fun heq => hkeeps (heq ▸ rfl)
    refine h.act_quiet rfl rfl ?_ (by simp [Bus.act, Bus.drop, hne])
    simpa [Action.ends, Bus.act, Bus.drop] using h.subscription
  | drain other =>
    obtain ⟨hstanding, hevents⟩ := h.drain other
    refine ⟨by simpa [Action.ends, Bus.act] using hstanding, hevents.trans ?_⟩
    cases subscribed <;> simp [published, Action.event?]

/-! ## Runs -/

theorem dueTo_cons (topics : List Topic) (a : Action) (rest : List Action) :
    dueTo topics (a :: rest) =
      if a.ends then [] else a.event?.toList.filter (wants topics) ++ dueTo topics rest := by
  unfold dueTo
  cases hends : a.ends with
  | true => simp [hends]
  | false =>
    cases hevent : a.event? with
    | none => simp [hends, hevent]
    | some e => cases hwants : wants topics e <;> simp [hends, hevent, hwants]

/-- An action that ends subscriptions publishes nothing. -/
theorem published_of_ends {a : Action} (h : a.ends = true) : published topics subscribed a = [] := by
  cases a <;> cases subscribed <;> simp_all [Action.ends, published, Action.event?]

/-- A subscriber that keeps its receiver gets what waits in it and what is due to it. -/
theorem Standing.received (h : bus.Standing receiver topics subscribed) {actions : List Action}
    (hkeeps : .drop receiver ∉ actions) :
    bus.received receiver actions =
      bus.pending receiver ++ if subscribed then dueTo topics actions else [] := by
  induction actions generalizing bus subscribed with
  | nil => cases subscribed <;> simp [Bus.received, dueTo]
  | cons a rest ih =>
    have hhead : a ≠ .drop receiver := fun heq => hkeeps (heq ▸ List.mem_cons_self)
    have htail : .drop receiver ∉ rest := fun hmem => hkeeps (List.mem_cons_of_mem a hmem)
    obtain ⟨hstanding, hevents⟩ := h.act hhead
    rw [Bus.received, ih hstanding htail, ← List.append_assoc, hevents, List.append_assoc,
      List.append_cancel_left_eq, dueTo_cons]
    cases hends : a.ends with
    | true => simp [published_of_ends hends]
    | false => cases subscribed <;> simp [published]

end

/-- A new subscriber stands with an empty receiver; nobody else has its number. -/
theorem register_standing {bus : Bus} (hnumbered : ∀ s ∈ bus.subscriptions,
    s.receiver < bus.receivers.length) (topics : List Topic) :
    (bus.register topics).2.Standing (bus.register topics).1 topics true ∧
      (bus.register topics).2.pending (bus.register topics).1 = [] := by
  have hnew : (bus.register topics).2.receivers[(bus.register topics).1]? = some ⟨[], false⟩ := by
    simp [Bus.register]
  refine ⟨⟨?_, [], hnew⟩, by rw [Bus.pending, hnew]; rfl⟩
  have hnone : bus.subscriptions.filter (·.receiver == bus.receivers.length) = [] := by
    rw [List.filter_eq_nil_iff]
    intro s hs
    have hlt := hnumbered s hs
    simp
    omega
  simp [Bus.register, List.filter_append, hnone]

theorem length_foldl_deliver (e : Announcement) (subscriptions : List Subscription)
    (receivers : List Receiver) :
    (subscriptions.foldl (deliver e) receivers).length = receivers.length := by
  induction subscriptions generalizing receivers with
  | nil => rfl
  | cons s rest ih =>
    rw [List.foldl_cons, ih]
    unfold deliver
    split <;> simp

/-- Every subscription has a receiver, whatever is done. -/
theorem act_numbered {bus : Bus}
    (h : ∀ s ∈ bus.subscriptions, s.receiver < bus.receivers.length) (a : Action) :
    ∀ s ∈ (bus.act a).subscriptions, s.receiver < (bus.act a).receivers.length := by
  cases a with
  | register topics =>
    intro s hs
    rcases List.mem_append.mp hs with hs | hs
    · have hlt := h s hs
      simp [Bus.act, Bus.register]
      omega
    · simp [Bus.act, Bus.register, List.mem_singleton.mp hs]
  | notify e =>
    intro s hs
    simpa [Bus.act, Bus.notify, length_foldl_deliver] using h s (List.mem_filter.mp hs).1
  | close => simp [Bus.act, Bus.close]
  | reset => simp [Bus.act, Bus.reset]
  | own => cases howned : bus.owned <;> simpa [Bus.act, own?, howned] using h
  | drop receiver => simpa [Bus.act, Bus.drop] using h
  | drain receiver => simpa [Bus.act, Bus.drain] using h

theorem acts_numbered (actions : List Action) :
    ∀ s ∈ (acts {} actions).subscriptions, s.receiver < (acts {} actions).receivers.length := by
  have hrun : ∀ bus : Bus, (∀ s ∈ bus.subscriptions, s.receiver < bus.receivers.length) →
      ∀ s ∈ (bus.acts actions).subscriptions,
        s.receiver < (bus.acts actions).receivers.length := by
    induction actions with
    | nil => exact fun _ h => h
    | cons a rest ih => exact fun bus h => ih (bus.act a) (act_numbered h a)
  exact hrun {} (by simp)

/-! ## Ownership -/

/-- A run was given the bus, which was not reset since. -/
def GivenAway (actions : List Action) : Prop :=
  ∃ earlier rest, actions = earlier ++ .own :: rest ∧
    ((acts {} earlier).own?).isSome = true ∧ .reset ∉ rest

theorem own?_isSome_iff (bus : Bus) : bus.own?.isSome = true ↔ bus.owned = false := by
  cases howned : bus.owned <;> simp [own?, howned]

theorem givenAway_snoc (actions : List Action) (a : Action) :
    GivenAway (actions ++ [a]) ↔
      a = .own ∧ ((acts {} actions).own?).isSome = true ∨ a ≠ .reset ∧ GivenAway actions := by
  constructor
  · rintro ⟨earlier, rest, heq, hfree, hreset⟩
    rcases List.eq_nil_or_concat rest with rfl | ⟨rest, last, rfl⟩
    · obtain ⟨rfl, rfl⟩ := List.append_singleton_inj.mp heq
      exact .inl ⟨rfl, hfree⟩
    · rw [List.concat_eq_append, ← List.cons_append, ← List.append_assoc] at heq
      obtain ⟨rfl, rfl⟩ := List.append_singleton_inj.mp heq
      simp only [List.concat_eq_append, List.mem_append, List.mem_singleton, not_or] at hreset
      exact .inr ⟨fun heq => hreset.2 heq.symm, earlier, rest, rfl, hfree, hreset.1⟩
  · rintro (⟨rfl, hfree⟩ | ⟨hne, earlier, rest, rfl, hfree, hreset⟩)
    · exact ⟨actions, [], rfl, hfree, List.not_mem_nil⟩
    · refine ⟨earlier, rest ++ [a], by simp, hfree, ?_⟩
      simp only [List.mem_append, List.mem_singleton, not_or]
      exact ⟨hreset, fun heq => hne heq.symm⟩

/-- A bus belongs to a run exactly if it was given to one and not reset since. -/
theorem acts_owned (actions : List Action) :
    (acts {} actions).owned = true ↔ GivenAway actions := by
  induction actions using List.reverseRecOn with
  | nil =>
    constructor
    · intro h
      cases h
    · rintro ⟨earlier, rest, heq, -, -⟩
      simp at heq
  | append_singleton actions a ih =>
    rw [givenAway_snoc, ← ih, own?_isSome_iff]
    show ((actions ++ [a]).foldl act {}).owned = true ↔ _
    rw [List.foldl_append]
    show ((acts {} actions).act a).owned = true ↔ _
    cases a with
    | own => cases howned : (acts {} actions).owned <;> simp [Bus.act, own?, howned]
    | _ => simp [Bus.act, Bus.register, Bus.notify, Bus.close, Bus.reset, Bus.drop, Bus.drain]

/-! ## Delivery -/

/-- Whatever was done with a bus before, a subscriber that keeps its receiver gets exactly the
events that are due to it, each once and in order, whatever is done with the bus after its
registration. And whatever was done, the bus can be given to a run exactly if it was given to none
since its creation or the last time it was reset. -/
theorem bus_delivers (before : List Action) (topics : List Topic) (after : List Action) :
    (.drop ((acts {} before).register topics).1 ∉ after →
      ((acts {} before).register topics).2.received ((acts {} before).register topics).1 after =
        dueTo topics after) ∧
    (((acts {} before).own?).isSome = true ↔ ¬GivenAway before) := by
  constructor
  · intro hkeeps
    obtain ⟨hstanding, hempty⟩ := register_standing (acts_numbered before) topics
    rw [hstanding.received hkeeps, hempty, List.nil_append, if_pos rfl]
  · rw [own?_isSome_iff, ← acts_owned, Bool.not_eq_true]

/-- The start of a specification. -/
def specStarts (heading : String) : Announcement :=
  { topic := .specStart, subject := .specification "pair.spec" heading }

/-- A subscriber to all topics takes out an event between two others, while a neighbour is dropped
and removed and the bus is given away; what follows the reset is not for it. -/
theorem neighbour_dropped_delivers :
    let before := [.register [.suiteStart, .specStart]]
    let after := [.notify (specStarts "one"), .own, .drop 0, .notify (specStarts "two"), .drain 1,
      .register [], .notify (specStarts "three"), .reset, .notify (specStarts "four")]
    ((acts {} before).register []).1 = 1 ∧ .drop 1 ∉ after ∧
      ((acts {} before).register []).2.received 1 after =
        [specStarts "one", specStarts "two", specStarts "three"] ∧
      ¬GivenAway before := by
  intro before after
  have hkeeps : Action.drop 1 ∉ after := by simp [after]
  obtain ⟨hdue, hfree⟩ := bus_delivers before [] after
  exact ⟨rfl, hkeeps, hdue hkeeps, hfree.mp rfl⟩

end Bus

end SpecEngine.Event
