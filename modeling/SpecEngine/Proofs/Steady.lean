/-
# SpecEngine.Proofs.Steady -- runners that answer by the message alone

A runner that lives to the end and answers by the message alone, whatever it heard before, is as
good as one without a state. What is made of a specification is then known before it runs: it has
one result, the same on every stream and at every place in the order, and the runner is told the
same.

A runner is steady when moreover it starts and does not care which stream it serves. What a stream
hands in is then known altogether, and every stream ends with the same failure, if any.
-/
import SpecEngine.Proofs.Assignment
import SpecEngine.Proofs.Lockstep

namespace SpecEngine.Runner

variable {σ : Type}

/-- The states that a fleet's runners come to by answering messages. -/
inductive Fleet.Reaches (fleet : Fleet σ) : σ → Prop
  | start {stream : Nat} {r : σ} (h : fleet.start stream = .ok r) : fleet.Reaches r
  | answer {r : σ} (h : fleet.Reaches r) (m : Message) : fleet.Reaches (fleet.answer r m).2

/-- The fleet's runners never die, never make a stream's task break down, and answer by the message
alone, whatever they heard before. -/
structure Fleet.Undying (fleet : Fleet σ) (reply : Message → Except ProtocolError Message) :
    Prop where
  lives : ∀ r, fleet.Reaches r → fleet.alive r = true
  lasts : ∀ r, fleet.Reaches r → fleet.brokenAt (fleet.kill r).2 = none
  replies : ∀ r m, fleet.Reaches r → (fleet.answer r m).1 = reply m

/-- The fleet's runners always start, never die, never make a stream's task break down, and answer
by the message alone, whatever they heard before and whichever stream they serve. -/
structure Fleet.Steady (fleet : Fleet σ) (reply : Message → Except ProtocolError Message) :
    Prop where
  starts : ∀ stream, ∃ r, fleet.start stream = .ok r
  lives : ∀ r, fleet.Reaches r → fleet.alive r = true
  lasts : ∀ r, fleet.Reaches r → fleet.brokenAt (fleet.kill r).2 = none
  replies : ∀ r m, fleet.Reaches r → (fleet.answer r m).1 = reply m
  blindStart : ∀ stream stream' args,
    reply (.executionStarting stream args) = reply (.executionStarting stream' args)
  blindEnd : ∀ stream stream', reply (.executionEnding stream) = reply (.executionEnding stream')

theorem Fleet.Steady.undying {fleet : Fleet σ} {reply : Message → Except ProtocolError Message}
    (steady : fleet.Steady reply) : fleet.Undying reply :=
  ⟨steady.lives, steady.lasts, steady.replies⟩

/-- Runners without a state that give these replies. -/
def Fleet.answering (reply : Message → Except ProtocolError Message) : Fleet Unit where
  alive _ := true
  answer _ m := (reply m, ())
  kill _ := (.ok (), ())
  start _ := .ok ()

theorem Fleet.answering_undying (reply : Message → Except ProtocolError Message) :
    (Fleet.answering reply).Undying reply :=
  ⟨fun _ _ => rfl, fun _ _ => rfl, fun _ _ _ => rfl⟩

theorem Fleet.answering_steady {reply : Message → Except ProtocolError Message}
    (blindStart : ∀ stream stream' args,
      reply (.executionStarting stream args) = reply (.executionStarting stream' args))
    (blindEnd : ∀ stream stream',
      reply (.executionEnding stream) = reply (.executionEnding stream')) :
    (Fleet.answering reply).Steady reply where
  starts _ := ⟨(), rfl⟩
  lives _ _ := rfl
  lasts _ _ := rfl
  replies _ _ _ := rfl
  blindStart := blindStart
  blindEnd := blindEnd

end SpecEngine.Runner

namespace SpecEngine.Engine

open Item (Specification)
open Result (SpecResult Failure StreamOutcome)
open Runner (Behavior Fleet Message ProtocolError)

variable {σ α β : Type}

/-! ## Sessions -/

/-- A session on a stream whose runner lives. -/
structure Session.Live (fleet : Fleet σ) (stream : Nat) (s : Session σ) : Prop where
  stream_eq : s.stream = stream
  reached : fleet.Reaches s.runner
  going : s.aborted = false

variable {fleet : Fleet σ} {reply : Message → Except ProtocolError Message}

/-- A runner that answers by the message alone is in lockstep with one that has no state, and is
offered the same messages as that one after those of before. -/
theorem undying_lockstep (undying : fleet.Undying reply) (stream : Nat) (before : List Message) :
    Lockstep fleet.toBehavior (Fleet.answering reply).toBehavior
      fun s t => s.Live fleet stream ∧ t.aborted = false ∧ s.offers = before ++ t.offers where
  offer m s t h := by
    refine ⟨?_, ⟨h.1.stream_eq, .answer h.1.reached m, h.1.going⟩, h.2.1, ?_⟩
    · rw [offer_answer, undying.replies s.runner m h.1.reached]
      rfl
    · rw [offer_offers, offer_offers, h.2.2, List.append_assoc]
  noticeDeath s t h := by
    have hlives := undying.lives s.runner h.1.reached
    refine ⟨rfl, ⟨h.1.stream_eq, h.1.reached, ?_⟩, ?_, h.2.2⟩
    · simp only [noticeDeath, h.1.going, hlives, Bool.not_true, Bool.or_false]
    · simp only [noticeDeath, h.2.1, Fleet.answering, Bool.not_true, Bool.or_false]
  announce topic subject outcome s t h := by
    refine ⟨rfl, ⟨h.1.stream_eq, h.1.reached, h.1.going⟩, h.2.1, ?_⟩
    rw [announce_offers, announce_offers, h.2.2]
  isAborted s t h := ⟨h.1.going.trans h.2.1.symm, h⟩

/-- Wherever the runner lives, the activity comes to this value and offers these messages. -/
def Yields (fleet : Fleet σ) (act : Activity σ α) (a : α) (ms : List Message) : Prop :=
  ∀ ⦃stream : Nat⦄ ⦃s : Session σ⦄, s.Live fleet stream →
    (act s).1 = a ∧ (act s).2.Live fleet stream ∧ (act s).2.offers = s.offers ++ ms

/-- A session at its beginning, of a runner without a state. -/
def blankSession : Session Unit := { stream := 0, runner := () }

/-- An activity comes to what it does with a runner without a state. -/
theorem Yields.of_lockstep {act : Activity σ α} {act' : Activity Unit α}
    (h : ∀ (stream : Nat) (before : List Message),
      Coupled (fun s t => s.Live fleet stream ∧ t.aborted = false ∧ s.offers = before ++ t.offers)
        Eq act act') :
    Yields fleet act (act' blankSession).1 (act' blankSession).2.offers := by
  intro stream s hlive
  have hfresh : s.Live fleet stream ∧ blankSession.aborted = false ∧
      s.offers = s.offers ++ blankSession.offers := ⟨hlive, rfl, (List.append_nil _).symm⟩
  obtain ⟨hvalue, hlive', -, hoffers⟩ := h stream s.offers hfresh
  exact ⟨hvalue, hlive', hoffers⟩

namespace Yields

variable {act : Activity σ α} {a : α} {ms ms' : List Message}

theorem pure (a : α) : Yields fleet (Pure.pure a) a [] :=
  fun _ _ h => ⟨rfl, h, (List.append_nil _).symm⟩

theorem bind {next : α → Activity σ β} {c : β} (h : Yields fleet act a ms)
    (h' : Yields fleet (next a) c ms') : Yields fleet (act >>= next) c (ms ++ ms') := by
  intro stream s hlive
  obtain ⟨rfl, hlive', hoffers⟩ := h hlive
  obtain ⟨hvalue, hlive'', hoffers'⟩ := h' hlive'
  refine ⟨hvalue, hlive'', hoffers'.trans ?_⟩
  rw [hoffers, List.append_assoc]

/-- What comes after an activity that offers nothing. -/
theorem after {next : α → Activity σ β} {c : β} (h : Yields fleet act a [])
    (h' : Yields fleet (next a) c ms) : Yields fleet (act >>= next) c ms := h.bind h'

/-- What comes before an activity that offers nothing. -/
theorem before {next : α → Activity σ β} {c : β} (h : Yields fleet act a ms)
    (h' : Yields fleet (next a) c []) : Yields fleet (act >>= next) c ms := by
  have hbind := h.bind h'
  rwa [List.append_nil] at hbind

/-- What comes before a value is returned. -/
theorem returning {f : α → β} (h : Yields fleet act a ms) :
    Yields fleet (do Pure.pure (f (← act))) (f a) ms := h.before (pure (f a))

theorem offer (undying : fleet.Undying reply) (m : Message) :
    Yields fleet (Engine.offer fleet.toBehavior m) (reply m) [m] :=
  fun _ s h => ⟨undying.replies s.runner m h.reached,
    ⟨h.stream_eq, .answer h.reached m, h.going⟩, offer_offers ..⟩

theorem noticeDeath (undying : fleet.Undying reply) :
    Yields fleet (Engine.noticeDeath fleet.toBehavior) () [] := by
  refine fun stream s h => ⟨rfl, ⟨h.stream_eq, h.reached, ?_⟩, (List.append_nil _).symm⟩
  simp only [Engine.noticeDeath, h.going, undying.lives s.runner h.reached, Bool.not_true,
    Bool.or_false]

theorem announce (topic : Event.Topic) (subject : Event.Subject) (outcome : Option Event.Outcome) :
    Yields fleet (Engine.announce topic subject outcome) () [] :=
  fun _ _ h => ⟨rfl, ⟨h.stream_eq, h.reached, h.going⟩,
    (announce_offers ..).trans (List.append_nil _).symm⟩

theorem isAborted : Yields fleet Engine.isAborted false [] :=
  fun _ _ h => ⟨h.going, h, (List.append_nil _).symm⟩

theorem hook (undying : fleet.Undying reply) (m : Message) :
    Yields fleet (Engine.hook fleet.toBehavior m) (Runner.reportOf (reply m)) [m] := by
  have hlook : Yields fleet
      (do
        if (Runner.reportOf (reply m)).failed then Engine.noticeDeath fleet.toBehavior
        Pure.pure (Runner.reportOf (reply m)))
      (Runner.reportOf (reply m)) [] := by
    split
    · exact (noticeDeath undying).after (pure _)
    · exact pure _
  exact (offer undying m).bind hlook

end Yields

/-- The result of a specification that is run by a runner without a state. -/
def steadyResult (reply : Message → Except ProtocolError Message) (plan : Plan)
    (spec : Specification) : SpecResult :=
  (announcedSpec (Fleet.answering reply).toBehavior plan spec { stream := 0, runner := () }).1

/-- What a runner without a state is offered when it runs a specification. -/
def steadyOffers (reply : Message → Except ProtocolError Message) (plan : Plan)
    (spec : Specification) : List Message :=
  (announcedSpec (Fleet.answering reply).toBehavior plan spec blankSession).2.offers

theorem announcedSpec_steady (undying : fleet.Undying reply) (plan : Plan)
    (spec : Specification) :
    Yields fleet (announcedSpec fleet.toBehavior plan spec) (steadyResult reply plan spec)
      (steadyOffers reply plan spec) :=
  .of_lockstep fun stream before =>
    (undying_lockstep undying stream before).announcedSpec (.refl plan) rfl

/-! ## Streams -/

/-- The failure of the opening announcement. -/
def openingFailure (reply : Message → Except ProtocolError Message) (plan : Plan) :
    Option Failure :=
  let before := Runner.reportOf (reply (.executionStarting 0 plan.args))
  if before.failed then some (.ofReport before "before suite hook failed") else none

/-- The failure of the closing announcement. -/
def closingFailure (reply : Message → Except ProtocolError Message) : Option Failure :=
  let after := Runner.reportOf (reply (.executionEnding 0))
  if after.failed then some (.ofReport after "after suite hook failed") else none

/-- A worker whose runner lives and which refuses for this failure, if any. -/
structure Worker.Live (fleet : Fleet σ) (refusal : Option Failure) (stream : Nat) (w : Worker σ) :
    Prop where
  session : w.session.Live fleet stream
  refusal_eq : w.refusal = refusal

theorem openWorker_undying (plan : Plan) {stream : Nat} {r : σ} (h : fleet.start stream = .ok r) :
    (openWorker fleet.toBehavior plan stream r).Live fleet
      (openWorker fleet.toBehavior plan stream r).refusal stream :=
  ⟨⟨rfl, .answer (.start h) _, rfl⟩, rfl⟩

theorem openWorker_live (steady : fleet.Steady reply) (plan : Plan) {stream : Nat} {r : σ}
    (h : fleet.start stream = .ok r) :
    (openWorker fleet.toBehavior plan stream r).Live fleet (openingFailure reply plan) stream where
  session := (openWorker_undying plan h).session
  refusal_eq := by
    have hreply := steady.replies r (.executionStarting (.ofNat stream) plan.args) (.start h)
    rw [steady.blindStart _ 0] at hreply
    rw [openWorker, openingFailure, ← hreply]
    rfl

theorem Worker.take_live (undying : fleet.Undying reply) (plan : Plan) {refusal : Option Failure}
    {stream : Nat} {w : Worker σ} (h : w.Live fleet refusal stream) (item : Placed) :
    (w.take fleet.toBehavior plan item).Live fleet refusal stream ∧
      (w.take fleet.toBehavior plan item).results =
        w.results ++ [(item.1, steadyResult reply plan item.2)] ∧
      (w.take fleet.toBehavior plan item).session.offers =
        w.session.offers ++ steadyOffers reply plan item.2 := by
  obtain ⟨hresult, hlive, hoffers⟩ := announcedSpec_steady undying plan item.2 h.session
  refine ⟨⟨hlive, h.refusal_eq⟩, ?_, hoffers⟩
  rw [← hresult]
  rfl

theorem Worker.takeAll_live (undying : fleet.Undying reply) (plan : Plan)
    {refusal : Option Failure} {stream : Nat} {w : Worker σ} (h : w.Live fleet refusal stream)
    (items : List Placed) :
    (items.foldl (fun w item => w.take fleet.toBehavior plan item) w).Live fleet refusal stream ∧
      (items.foldl (fun w item => w.take fleet.toBehavior plan item) w).results =
        w.results ++ (items.map fun item => (item.1, steadyResult reply plan item.2)) ∧
      (items.foldl (fun w item => w.take fleet.toBehavior plan item) w).session.offers =
        w.session.offers ++ items.flatMap fun item => steadyOffers reply plan item.2 := by
  induction items generalizing w with
  | nil => exact ⟨h, (List.append_nil _).symm, (List.append_nil _).symm⟩
  | cons item rest ih =>
    obtain ⟨hlive, hresults, hoffers⟩ := Worker.take_live undying plan h item
    obtain ⟨hlive', hresults', hoffers'⟩ := ih hlive
    refine ⟨hlive', hresults'.trans ?_, hoffers'.trans ?_⟩
    · rw [hresults, List.append_assoc, List.map_cons, List.singleton_append]
    · rw [hoffers, List.append_assoc, List.flatMap_cons]

/-- A stream with an undying runner stays ready if nothing stands in its way. -/
theorem takeAssigned_ready (undying : fleet.Undying reply) {plan : Plan} {stream : Nat}
    (h : streamObstacle fleet plan stream = none) (items : List Placed) :
    ((Opened.start fleet plan stream).takeAssigned fleet.toBehavior plan items).isReady = true := by
  rw [Opened.start]
  rw [streamObstacle] at h
  cases hstart : fleet.start stream with
  | error e =>
    rw [hstart] at h
    cases h
  | ok runner =>
    rw [hstart] at h
    have hserving := Option.map_eq_none_iff.mp h
    have hlive := (Worker.takeAll_live undying plan (openWorker_undying plan hstart) items).1
    show (Worker.takeAssigned _ _ plan items).isReady = true
    rw [Worker.takeAssigned_serving _ _ hserving, Worker.isReady, hlive.refusal_eq, hserving,
      hlive.session.going]
    rfl

/-- Nothing stands in the way of a stream whose steady runner passes the opening announcement. -/
theorem streamObstacle_steady (steady : fleet.Steady reply) {plan : Plan}
    (hopening : openingFailure reply plan = none) (stream : Nat) :
    streamObstacle fleet plan stream = none := by
  obtain ⟨r, hr⟩ := steady.starts stream
  rw [streamObstacle, hr]
  dsimp only
  rw [(openWorker_live steady plan hr).refusal_eq, hopening, Option.map_none]

theorem announceEnd_steady (steady : fleet.Steady reply) {stream : Nat} {s : Session σ}
    (h : s.Live fleet stream) :
    (announceEnd fleet.toBehavior s).1 = closingFailure reply ∧
      (announceEnd fleet.toBehavior s).2.Live fleet stream := by
  have hreply := steady.replies s.runner (.executionEnding (.ofNat s.stream)) h.reached
  rw [steady.blindEnd _ 0] at hreply
  have hrun : announceEnd fleet.toBehavior s =
      (closingFailure reply,
        (offer fleet.toBehavior (.executionEnding (.ofNat s.stream)) s).2) := by
    -- the runner lives, so it is told of the end
    rw [announceEnd, get_bind_run, if_pos (steady.lives s.runner h.reached), bind_run, pure_run,
      offer_answer, hreply, closingFailure]
  rw [hrun]
  exact ⟨rfl, h.stream_eq, .answer h.reached _, h.going⟩

theorem Worker.close_live (steady : fleet.Steady reply) {refusal : Option Failure} {stream : Nat}
    {w : Worker σ} (h : w.Live fleet refusal stream) :
    (w.close fleet.toBehavior).outcome =
      some ⟨stream, w.results, refusal.or (closingFailure reply)⟩ := by
  obtain ⟨session, refused, results⟩ := w
  obtain ⟨hsession, rfl⟩ := h
  cases refused with
  | some failure =>
    obtain ⟨rfl, -, -⟩ := hsession
    rfl
  | none =>
    obtain ⟨hfailure, hstream, -, -⟩ := announceEnd_steady steady hsession
    rw [Option.none_or, ← hfailure, ← hstream]
    rfl

theorem announceEnd_reaches {stream : Nat} {s : Session σ} (h : s.Live fleet stream) :
    fleet.Reaches (announceEnd fleet.toBehavior s).2.runner := by
  rw [announceEnd, get_bind_run, ite_run]
  split
  · exact .answer h.reached _
  · exact h.reached

theorem Worker.close_runner {refusal : Option Failure} {stream : Nat} {w : Worker σ}
    (h : w.Live fleet refusal stream) :
    ∃ r, fleet.Reaches r ∧ (w.close fleet.toBehavior).runner = some (fleet.kill r).2 := by
  obtain ⟨session, refused, results⟩ := w
  cases refused with
  | some failure => exact ⟨session.runner, h.session.reached, rfl⟩
  | none => exact ⟨_, announceEnd_reaches h.session, rfl⟩

/-- The task of a stream with an undying runner does not break down. -/
theorem Worker.finish_lasts (undying : fleet.Undying reply) {refusal : Option Failure}
    {stream : Nat} {w : Worker σ} (h : w.Live fleet refusal stream) :
    w.finish fleet = w.close fleet.toBehavior := by
  obtain ⟨r, hreached, hrunner⟩ := Worker.close_runner h
  rw [Worker.finish, hrunner, Option.bind_some, undying.lasts r hreached]

/-- What a stream with a steady runner hands in when it ends. -/
theorem Worker.finish_live (steady : fleet.Steady reply) {refusal : Option Failure} {stream : Nat}
    {w : Worker σ} (h : w.Live fleet refusal stream) :
    (w.finish fleet).outcome = some ⟨stream, w.results, refusal.or (closingFailure reply)⟩ := by
  rw [Worker.finish_lasts steady.undying h]
  exact Worker.close_live steady h

/-- The entry of a specification that was assigned to a stream. -/
def steadyEntry (reply : Message → Except ProtocolError Message) (plan : Plan) (item : Placed) :
    Nat × SpecResult :=
  match openingFailure reply plan with
  | some failure => leftOut failure.message item
  | none => (item.1, steadyResult reply plan item.2)

/-- The failure that every stream ends with. -/
def steadyFailure (reply : Message → Except ProtocolError Message) (plan : Plan) :
    Option Failure :=
  (openingFailure reply plan).or (closingFailure reply)

theorem Worker.takeAssigned_live (steady : fleet.Steady reply) {plan : Plan} {stream : Nat}
    {w : Worker σ} (h : w.Live fleet (openingFailure reply plan) stream) (hnew : w.results = [])
    (items : List Placed) :
    (w.takeAssigned fleet.toBehavior plan items).Live fleet (openingFailure reply plan) stream ∧
      (w.takeAssigned fleet.toBehavior plan items).results =
        items.map (steadyEntry reply plan) := by
  obtain ⟨hsession, hrefusal⟩ := h
  cases hopening : openingFailure reply plan with
  | some failure =>
    have hentry : steadyEntry reply plan = leftOut failure.message := by
      funext item
      simp only [steadyEntry, hopening]
    rw [hopening] at hrefusal
    rw [Worker.takeAssigned_refused hrefusal, hentry]
    exact ⟨⟨hsession, hrefusal⟩, rfl⟩
  | none =>
    have hentry : steadyEntry reply plan =
        fun item => (item.1, steadyResult reply plan item.2) := by
      funext item
      simp only [steadyEntry, hopening]
    rw [hopening] at hrefusal
    obtain ⟨hlive, hresults, -⟩ :=
      Worker.takeAll_live steady.undying plan ⟨hsession, hrefusal⟩ items
    rw [hnew, List.nil_append] at hresults
    rw [Worker.takeAssigned_serving _ _ hrefusal, hentry]
    exact ⟨hlive, hresults⟩

/-- What a stream with a steady runner hands in for the specifications it was given. -/
theorem runAssigned_steady (steady : fleet.Steady reply) (plan : Plan) (stream : Nat)
    (items : List Placed) :
    (runAssigned fleet plan stream items).outcome =
      some ⟨stream, items.map (steadyEntry reply plan), steadyFailure reply plan⟩ := by
  obtain ⟨r, hr⟩ := steady.starts stream
  obtain ⟨hlive, hresults⟩ :=
    Worker.takeAssigned_live steady (openWorker_live steady plan hr) rfl items
  rw [runAssigned, hr]
  dsimp only
  rw [Worker.finish_live steady hlive, hresults, steadyFailure]

end SpecEngine.Engine
