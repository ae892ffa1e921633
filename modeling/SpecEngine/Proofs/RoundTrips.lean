/-
# SpecEngine.Proofs.RoundTrips -- answers belong to their requests

A process may answer late, when the round trip was given up already, so that its answer lies in
front of later ones. Round trips are made one after the other here, each of them read to its end or
given up after any number of lines (`Connection.rounds`).

Whatever the process writes, a request gets only a message that carries its own number, the lines
before it were blank or carried smaller numbers, and the lines that were read for the requests, one
after the other, are the lines that were written, each once. A process that answers every request
once and in order is never misread: a request that is not given up gets its own answer. That is so
as long as the numbers last, which are words of 64 bits.

What one round trip does is said by `Round`, with one constructor for each way it can end; every
statement about a run follows from it by induction on the requests.
-/
import SpecEngine.Proofs.Lines

namespace SpecEngine.Runner

variable {π : Type}

/-! ## Runs of round trips -/

/-- A request, and how many lines are read for it until time runs out, if that happens before its
answer is read. -/
structure Request where
  message : Message
  patience : Option Nat := none

/-- A round trip as it was made. -/
structure Trip where
  id : UInt64
  /-- What the process wrote when the request arrived. -/
  written : List UInt8
  /-- The lines that were read for the request. -/
  read : List (List UInt8)
  result : Except ProtocolError Message

namespace Connection

/-- The connection with these lines left to read. -/
def withLines (c : Connection π) (lines : List (List UInt8)) : Connection π :=
  { c with inbox := { c.inbox with lines := lines } }

/-- Makes a round trip whose time runs out when so many lines hold no answer. -/
def answerWithin (peer : Peer π) (c : Connection π) (patience : Nat) (m : Message) :
    Except ProtocolError Message × Connection π :=
  if c.alive peer then
    let sent := c.send peer m
    let (answer?, lines) := findAnswer c.nextId (sent.inbox.lines.take patience)
    (answer?.getD (.error (.timeout c.timeoutMs)),
      sent.withLines (lines ++ sent.inbox.lines.drop patience))
  else (.error .unreachable, c)

/-- Makes the round trip of a request. -/
def round (peer : Peer π) (c : Connection π) (r : Request) :
    Except ProtocolError Message × Connection π :=
  match r.patience with
  | none => c.answer peer r.message
  | some patience => c.answerWithin peer patience r.message

/-- What the round trip of a request is like. -/
def tripOf (peer : Peer π) (c : Connection π) (r : Request) : Trip :=
  if c.alive peer then
    let lines := (c.send peer r.message).inbox.lines
    { id := c.nextId
      written := (peer.receive c.process (Envelope.line ⟨c.nextId, r.message⟩)).1
      read := lines.take (lines.length - (c.round peer r).2.inbox.lines.length)
      result := (c.round peer r).1 }
  else { id := c.nextId, written := [], read := [], result := (c.round peer r).1 }

/-- Makes round trips one after the other. -/
def rounds (peer : Peer π) (c : Connection π) : List Request → List Trip × Connection π
  | [] => ([], c)
  | r :: rest =>
    let (trips, last) := (c.round peer r).2.rounds peer rest
    (c.tripOf peer r :: trips, last)

end Connection

/-! ## One round trip -/

/-- What lines that are read for the request of a number come to: they are passed over, all of them
or all but the last one. -/
inductive Reads (id : UInt64) :
    List (List UInt8) → Option (Except ProtocolError Message) → Prop
  | answered {passed : List (List UInt8)} {line : List UInt8}
      {answer : Except ProtocolError Message} :
    (∀ l ∈ passed, lineAnswer? id l = none) → lineAnswer? id line = some answer →
      Reads id (passed ++ [line]) (some answer)
  | passed {lines : List (List UInt8)} :
    (∀ l ∈ lines, lineAnswer? id l = none) → Reads id lines none

theorem findAnswer_reads (id : UInt64) (lines : List (List UInt8)) :
    ∃ read, lines = read ++ (findAnswer id lines).2 ∧ Reads id read (findAnswer id lines).1 ∧
      ((findAnswer id lines).1 = none → (findAnswer id lines).2 = []) := by
  induction lines with
  | nil => exact ⟨[], rfl, .passed (by simp), fun _ => rfl⟩
  | cons line rest ih =>
    unfold findAnswer
    split
    next answer hanswer =>
      exact ⟨[line], rfl, @Reads.answered id [] line answer (by simp) hanswer, by simp⟩
    next hnone =>
      obtain ⟨read, hrest, hreads, hnil⟩ := ih
      refine ⟨line :: read, congrArg (line :: ·) hrest, ?_, hnil⟩
      generalize (findAnswer id rest).1 = answer? at hreads
      cases hreads with
      | answered hpassed hline =>
        exact .answered (List.forall_mem_cons.mpr ⟨hnone, hpassed⟩) hline
      | passed hpassed => exact .passed (List.forall_mem_cons.mpr ⟨hnone, hpassed⟩)

/-- How the round trip of a request can end, with the connection after it. -/
inductive Round (peer : Peer π) (c : Connection π) (r : Request) : Trip → Connection π → Prop
  /-- The process is dead. -/
  | refused : c.alive peer = false →
    Round peer c r ⟨c.nextId, [], [], .error .unreachable⟩ c
  /-- A line that is read has the answer. -/
  | answered {read rest : List (List UInt8)} {answer : Except ProtocolError Message} :
    c.alive peer = true → (c.send peer r.message).inbox.lines = read ++ rest →
    Reads c.nextId read (some answer) →
      Round peer c r
        ⟨c.nextId, (peer.receive c.process (Envelope.line ⟨c.nextId, r.message⟩)).1, read, answer⟩
        ((c.send peer r.message).withLines rest)
  /-- All lines that are read are passed over; of a request that is not given up, these are all the
  lines there are. -/
  | unanswered {read rest : List (List UInt8)} {fault : ProtocolError} :
    c.alive peer = true → (c.send peer r.message).inbox.lines = read ++ rest →
    Reads c.nextId read none → (r.patience = none → rest = []) →
    (fault = .timeout c.timeoutMs ∨ fault = .unreachable ∧ r.patience = none ∧
      ((c.send peer r.message).withLines rest).alive peer = false) →
      Round peer c r
        ⟨c.nextId, (peer.receive c.process (Envelope.line ⟨c.nextId, r.message⟩)).1, read,
          .error fault⟩
        ((c.send peer r.message).withLines rest)

section

variable {peer : Peer π} {c : Connection π} {r : Request}

/-- A round trip that leaves these lines has read those before them. -/
theorem tripOf_eq (halive : c.alive peer = true) {read rest : List (List UInt8)}
    {result : Except ProtocolError Message}
    (hlines : (c.send peer r.message).inbox.lines = read ++ rest)
    (hround : c.round peer r = (result, (c.send peer r.message).withLines rest)) :
    c.tripOf peer r =
      ⟨c.nextId, (peer.receive c.process (Envelope.line ⟨c.nextId, r.message⟩)).1, read, result⟩ := by
  rw [Connection.tripOf, if_pos halive, hround]
  simp [Connection.withLines, hlines]

theorem answer_round (halive : c.alive peer = true) (hpatience : r.patience = none) :
    Round peer c r (c.tripOf peer r) (c.round peer r).2 := by
  obtain ⟨read, hlines, hreads, hnil⟩ :=
    findAnswer_reads c.nextId (c.send peer r.message).inbox.lines
  have hanswer : c.round peer r = c.answer peer r.message := by simp [Connection.round, hpatience]
  generalize hfound : findAnswer c.nextId (c.send peer r.message).inbox.lines = found at *
  obtain ⟨answer?, rest⟩ := found
  cases answer? with
  | some answer =>
    have hround : c.round peer r = (answer, (c.send peer r.message).withLines rest) := by
      rw [hanswer]
      simp [Connection.answer, halive, hfound, Connection.withLines]
    rw [tripOf_eq halive hlines hround, hround]
    exact .answered halive hlines hreads
  | none =>
    have hround : c.round peer r =
        (.error (if ((c.send peer r.message).withLines rest).alive peer then .timeout c.timeoutMs
          else .unreachable), (c.send peer r.message).withLines rest) := by
      rw [hanswer]
      simp [Connection.answer, halive, hfound, Connection.withLines]
      rfl
    rw [tripOf_eq halive hlines hround, hround]
    refine .unanswered halive hlines hreads (fun _ => hnil rfl) ?_
    cases hafter : ((c.send peer r.message).withLines rest).alive peer with
    | true => exact .inl rfl
    | false => exact .inr ⟨rfl, hpatience, rfl⟩

theorem answerWithin_round (halive : c.alive peer = true) {patience : Nat}
    (hpatience : r.patience = some patience) :
    Round peer c r (c.tripOf peer r) (c.round peer r).2 := by
  obtain ⟨read, htaken, hreads, -⟩ :=
    findAnswer_reads c.nextId ((c.send peer r.message).inbox.lines.take patience)
  have hanswer : c.round peer r = c.answerWithin peer patience r.message := by
    simp [Connection.round, hpatience]
  generalize hfound : findAnswer c.nextId ((c.send peer r.message).inbox.lines.take patience) =
    found at *
  obtain ⟨answer?, rest⟩ := found
  have hlines : (c.send peer r.message).inbox.lines =
      read ++ (rest ++ (c.send peer r.message).inbox.lines.drop patience) := by
    rw [← List.append_assoc, ← htaken, List.take_append_drop]
  have hround : c.round peer r = (answer?.getD (.error (.timeout c.timeoutMs)),
      (c.send peer r.message).withLines
        (rest ++ (c.send peer r.message).inbox.lines.drop patience)) := by
    rw [hanswer]
    simp [Connection.answerWithin, halive, hfound]
  rw [tripOf_eq halive hlines hround, hround]
  cases answer? with
  | some answer => exact .answered halive hlines hreads
  | none =>
    exact .unanswered halive hlines hreads (fun hnone => by simp [hpatience] at hnone) (.inl rfl)

/-- The round trip of a request ends in one of these ways. -/
theorem round_cases (peer : Peer π) (c : Connection π) (r : Request) :
    Round peer c r (c.tripOf peer r) (c.round peer r).2 := by
  cases halive : c.alive peer with
  | false =>
    have hround : c.round peer r = (.error .unreachable, c) := by
      unfold Connection.round Connection.answer Connection.answerWithin
      cases r.patience <;> simp [halive]
    have htrip : c.tripOf peer r = ⟨c.nextId, [], [], .error .unreachable⟩ := by
      simp [Connection.tripOf, halive, hround]
    rw [htrip, hround]
    exact .refused halive
  | true =>
    cases hpatience : r.patience with
    | none => exact answer_round halive hpatience
    | some patience => exact answerWithin_round halive hpatience

end

/-- A round trip that is given up is no other one where its lines are all there are and the process
lives. -/
theorem answerWithin_eq_answer {peer : Peer π} {c : Connection π} {patience : Nat} {m : Message}
    (hall : (c.send peer m).inbox.lines.length ≤ patience)
    (halive : (c.answer peer m).2.alive peer = true) :
    c.answerWithin peer patience m = c.answer peer m := by
  unfold Connection.answerWithin
  unfold Connection.answer at halive ⊢
  cases hbefore : c.alive peer with
  | false => rfl
  | true =>
    simp only [hbefore, if_true, List.take_of_length_le hall, List.drop_of_length_le hall,
      List.append_nil] at halive ⊢
    generalize findAnswer c.nextId (c.send peer m).inbox.lines = found at halive ⊢
    obtain ⟨answer?, rest⟩ := found
    cases answer? with
    | some answer => rfl
    | none =>
      simp only [halive, if_true]
      rfl

/-! ## Every round trip -/

/-- The request gets a message only by a line that carries its own number; the lines before it are
blank or carry smaller numbers. -/
def Trip.Matched (trip : Trip) : Prop :=
  ∀ m, trip.result = .ok m →
    ∃ passed line, trip.read = passed ++ [line] ∧ Carries line ⟨trip.id, m⟩ ∧
      ∀ l ∈ passed, BlankLine l ∨ ∃ e, Carries l e ∧ e.id < trip.id

theorem Round.matched {peer : Peer π} {c after : Connection π} {r : Request} {trip : Trip}
    (h : Round peer c r trip after) : trip.Matched := by
  intro m hm
  cases h with
  | refused => cases hm
  | unanswered => cases hm
  | answered _ _ hreads =>
    obtain rfl : _ = Except.ok m := hm
    generalize hanswer : some (Except.ok m) = answer? at hreads
    cases hreads with
    | passed => cases hanswer
    | answered hpassed hline =>
      obtain rfl := Option.some.inj hanswer
      exact ⟨_, _, rfl, lineAnswer?_ok hline, fun l hl => passedOver_iff.mp (hpassed l hl)⟩

theorem rounds_matched (peer : Peer π) (c : Connection π) (requests : List Request) :
    ∀ trip ∈ (c.rounds peer requests).1, trip.Matched := by
  induction requests generalizing c with
  | nil => exact fun _ h => absurd h List.not_mem_nil
  | cons r rest ih =>
    exact List.forall_mem_cons.mpr ⟨(round_cases peer c r).matched, ih (c.round peer r).2⟩

/-! ## No line is read twice -/

/-- The inbox as it is while the process lives, or when it is dead. -/
def Inbox.settled (inbox : Inbox) (alive : Bool) : Inbox := if alive then inbox else inbox.finish

/-- The inbox with lines in front that were read. -/
def Inbox.before (read : List (List UInt8)) (inbox : Inbox) : Inbox :=
  ⟨read ++ inbox.lines, inbox.beginning⟩

theorem Inbox.before_before (read more : List (List UInt8)) (inbox : Inbox) :
    (inbox.before more).before read = inbox.before (read ++ more) := by
  simp [Inbox.before]

theorem Inbox.before_append (read : List (List UInt8)) (inbox : Inbox) (written : List UInt8) :
    (inbox.before read).append written = (inbox.append written).before read := by
  simp [Inbox.before, Inbox.append]

theorem Inbox.before_settled (read : List (List UInt8)) (inbox : Inbox) (alive : Bool) :
    (inbox.before read).settled alive = (inbox.settled alive).before read := by
  unfold Inbox.settled Inbox.finish Inbox.before
  cases alive <;> cases h : inbox.beginning <;> simp [h]

section

variable {peer : Peer π} {c after : Connection π} {r : Request} {trip : Trip}

/-- What the inbox of a connection is like: cut while the process lives, and without a beginning
when it is dead. -/
structure Sound (peer : Peer π) (c : Connection π) : Prop where
  cut : c.alive peer = true → c.inbox.Cut
  ended : c.alive peer = false → c.inbox.beginning = []

theorem Round.dead (h : Round peer c r trip after) (hdead : c.alive peer = false) :
    after = c ∧ trip.written = [] ∧ trip.read = [] := by
  cases h with
  | refused => exact ⟨rfl, rfl, rfl⟩
  | answered halive => simp [hdead] at halive
  | unanswered halive => simp [hdead] at halive

theorem send_inbox (halive : c.alive peer = true) (m : Message) :
    (c.send peer m).inbox =
      (c.inbox.append (peer.receive c.process (Envelope.line ⟨c.nextId, m⟩)).1).settled
        ((c.send peer m).alive peer) := by
  have hkilled : c.killed = false := by
    simp [Connection.alive] at halive
    exact halive.1
  simp [Connection.send, Connection.alive, Inbox.settled, hkilled]

theorem withLines_before {read rest : List (List UInt8)} (h : c.inbox.lines = read ++ rest) :
    (c.withLines rest).inbox.before read = c.inbox := by
  show Inbox.mk (read ++ rest) c.inbox.beginning = c.inbox
  rw [← h]

/-- What was read for the request and what is left is what was there and what was written. -/
theorem Round.inbox (h : Round peer c r trip after) (halive : c.alive peer = true) :
    after.inbox.before trip.read =
      (c.inbox.append trip.written).settled (after.alive peer) := by
  cases h with
  | refused hdead => simp [halive] at hdead
  | answered _ hlines | unanswered _ hlines =>
    rw [withLines_before hlines]
    exact send_inbox halive r.message

theorem Inbox.Cut.of_before (read : List (List UInt8)) {inbox : Inbox}
    (h : (inbox.before read).Cut) : inbox.Cut :=
  ⟨(List.forall_mem_append.mp h.lines).2, h.beginning⟩

theorem Inbox.finish_beginning (inbox : Inbox) : inbox.finish.beginning = [] := by
  unfold Inbox.finish
  cases h : inbox.beginning <;> simp [h]

theorem Round.sound (h : Round peer c r trip after) (hsound : Sound peer c) :
    Sound peer after := by
  cases halive : c.alive peer with
  | false => exact (h.dead halive).1 ▸ hsound
  | true =>
    have hinbox := h.inbox halive
    constructor
    · intro hafter
      rw [hafter] at hinbox
      apply Inbox.Cut.of_before trip.read
      rw [hinbox]
      exact (hsound.cut halive).append trip.written
    · intro hafter
      rw [hafter] at hinbox
      have hbeginning := congrArg Inbox.beginning hinbox
      exact hbeginning.trans (Inbox.finish_beginning _)

/-- A dead process is asked nothing any more. -/
theorem rounds_dead (hdead : c.alive peer = false) (requests : List Request) :
    (c.rounds peer requests).2 = c ∧ (c.rounds peer requests).1.flatMap (·.written) = [] ∧
      (c.rounds peer requests).1.flatMap (·.read) = [] := by
  induction requests with
  | nil => exact ⟨rfl, rfl, rfl⟩
  | cons r rest ih =>
    obtain ⟨hafter, hwritten, hread⟩ := (round_cases peer c r).dead hdead
    obtain ⟨hlast, hwrittens, hreads⟩ := ih
    simp only [Connection.rounds, hafter, List.flatMap_cons, hwritten, hread, hwrittens, hreads,
      hlast, List.nil_append, and_self]

theorem Sound.settled (h : Sound peer c) :
    (c.inbox.append []).settled (c.alive peer) = c.inbox := by
  cases halive : c.alive peer with
  | true => exact Inbox.append_nil (h.cut halive).beginning
  | false =>
    have hbeginning := h.ended halive
    rw [Inbox.append_nil (by simp [hbeginning])]
    simp [Inbox.settled, Inbox.finish, hbeginning]

/-- What was read for the requests and what is left is what was there and what was written. -/
theorem rounds_inbox (hsound : Sound peer c) (requests : List Request) :
    (c.rounds peer requests).2.inbox.before ((c.rounds peer requests).1.flatMap (·.read)) =
      (c.inbox.append ((c.rounds peer requests).1.flatMap (·.written))).settled
        ((c.rounds peer requests).2.alive peer) := by
  induction requests generalizing c with
  | nil => exact hsound.settled.symm
  | cons r rest ih =>
    cases halive : c.alive peer with
    | false =>
      obtain ⟨hlast, hwritten, hread⟩ := rounds_dead halive (r :: rest)
      rw [hlast, hwritten, hread]
      exact hsound.settled.symm
    | true =>
      have hround := round_cases peer c r
      have hinbox := hround.inbox halive
      have hrest := ih (hround.sound hsound)
      simp only [Connection.rounds, List.flatMap_cons]
      cases hafter : (c.round peer r).2.alive peer with
      | false =>
        obtain ⟨hlast, hwritten, hread⟩ := rounds_dead hafter rest
        rw [hlast, hwritten, hread, List.append_nil, List.append_nil]
        exact hinbox
      | true =>
        rw [hafter] at hinbox
        generalize (c.round peer r).2.rounds peer rest = run at hrest ⊢
        rw [← Inbox.before_before, hrest, ← Inbox.before_settled, ← Inbox.before_append, hinbox,
          ← Inbox.append_append]
        rfl

end

/-! ## Processes that answer every request -/

/-- A list is split in one way only before the first item that is left out by a test. -/
theorem split_first_unique {α : Type} {p : α → Prop} {as bs as' bs' : List α} {a b : α}
    (has : ∀ x ∈ as, p x) (hbs : ∀ x ∈ bs, p x) (ha : ¬p a) (hb : ¬p b)
    (h : as ++ a :: as' = bs ++ b :: bs') : as = bs ∧ a = b ∧ as' = bs' := by
  induction as generalizing bs with
  | nil =>
    cases bs with
    | nil => exact ⟨rfl, List.cons.inj h⟩
    | cons y ys =>
      obtain ⟨rfl, -⟩ := List.cons.inj h
      exact absurd (hbs a List.mem_cons_self) ha
  | cons x xs ih =>
    obtain ⟨hx, hxs⟩ := List.forall_mem_cons.mp has
    cases bs with
    | nil =>
      obtain ⟨rfl, -⟩ := List.cons.inj h
      exact absurd hx hb
    | cons y ys =>
      obtain ⟨rfl, htail⟩ := List.cons.inj h
      obtain ⟨rfl, hrest⟩ := ih hxs (List.forall_mem_cons.mp hbs).2 htail
      exact ⟨rfl, hrest⟩

/-- Items that all pass a test stand in front of the first one that does not. -/
theorem isPrefix_of_pass {α : Type} {p : α → Prop} {as bs bs' : List α} {b : α}
    (has : ∀ x ∈ as, p x) (hb : ¬p b) (h : as <+: bs ++ b :: bs') : as <+: bs := by
  obtain ⟨more, hmore⟩ := h
  rcases List.append_eq_append_iff.mp hmore with ⟨left, hleft, -⟩ | ⟨left, rfl, hright⟩
  · exact ⟨left, hleft.symm⟩
  · cases left with
    | nil => simp
    | cons x xs =>
      obtain ⟨rfl, -⟩ := List.cons.inj hright
      exact absurd (has b (by simp)) hb

section

variable {id : UInt64} {read late more : List (List UInt8)} {line : List UInt8}
  {answer expected : Except ProtocolError Message}

/-- The first answer that comes is the one that is read. -/
theorem Reads.eq_answer (h : Reads id read (some answer))
    (hlate : ∀ l ∈ late, lineAnswer? id l = none) (hline : lineAnswer? id line = some expected)
    (hread : read <+: late ++ line :: more) : read = late ++ [line] ∧ answer = expected := by
  obtain ⟨rest, hrest⟩ := hread
  cases h with
  | @answered passed found _ hpassed hfound =>
    rw [List.append_assoc, List.singleton_append] at hrest
    obtain ⟨rfl, rfl, -⟩ := split_first_unique hpassed hlate (by simp [hfound]) (by simp [hline]) hrest
    exact ⟨rfl, Option.some.inj (hfound.symm.trans hline)⟩

/-- Where no answer was read, it was not reached. -/
theorem Reads.isPrefix_late (h : Reads id read none) (hline : lineAnswer? id line = some expected)
    (hread : read <+: late ++ line :: more) : read <+: late ∧ line ∉ read := by
  have hstop : ¬lineAnswer? id line = none := by simp [hline]
  cases h with
  | passed hpassed =>
    exact ⟨isPrefix_of_pass hpassed hstop hread, fun hmem => hstop (hpassed line hmem)⟩

end

section

variable {peer : Peer π} {c after : Connection π} {r : Request} {trip : Trip}

theorem Round.alive (h : Round peer c r trip after) (hafter : after.alive peer = true) :
    c.alive peer = true := by
  rw [← Bool.not_eq_false]
  intro hdead
  rw [(h.dead hdead).1, hdead] at hafter
  cases hafter

/-- Where the process lives on, or wrote whole lines, what was read and what is left are the lines
that came in. -/
theorem Round.lines (h : Round peer c r trip after) (halive : c.alive peer = true)
    {lines : List (List UInt8)} (hlines : ∀ l ∈ lines, IsLine l)
    (hend : after.alive peer = true ∨ c.inbox.bytes ++ trip.written = lines.flatten)
    (hcut : c.inbox.Cut) :
    trip.read ++ after.inbox.lines = (c.inbox.append trip.written).lines := by
  have hsettled : (c.inbox.append trip.written).settled (after.alive peer) =
      c.inbox.append trip.written := by
    rcases hend with hafter | hwhole
    · rw [hafter]
      rfl
    · have hlast := cutLines_flatten hlines []
      rw [List.append_nil, ← hwhole, ← Inbox.bytes_append, (hcut.append trip.written).cutLines]
        at hlast
      have hbeginning : (c.inbox.append trip.written).beginning = [] := congrArg Prod.snd hlast
      simp [Inbox.settled, Inbox.finish, hbeginning]
  have hinbox := h.inbox halive
  rw [hsettled] at hinbox
  exact congrArg Inbox.lines hinbox

/-- One round trip with a process that answers every request. What may come in is the lines of
earlier requests, then the line of this one, then those of later ones; what is read is no line of a
later request. So a request that does not run out of time gets its own message, and one that is not
given up has it as soon as its line came in. -/
theorem Round.answers (h : Round peer c r trip after) (halive : c.alive peer = true)
    (hsound : Sound peer c) {late more : List (List UInt8)} {line : List UInt8} {m : Message}
    (hlate : ∀ l ∈ late, IsLine l ∧ ∃ e, Carries l e ∧ e.id < c.nextId)
    (hline : IsLine line ∧ Carries line ⟨c.nextId, m⟩) (hmore : ∀ l ∈ more, IsLine l)
    (hbytes : c.inbox.bytes ++ trip.written <+: (late ++ line :: more).flatten)
    (hend : after.alive peer = true ∨
      c.inbox.bytes ++ trip.written = (late ++ line :: more).flatten) :
    ∃ left, late ++ [line] = trip.read ++ left ∧
      ((∀ ms, trip.result ≠ .error (.timeout ms)) → trip.result = .ok m) ∧
      (r.patience = none → (late ++ [line]).flatten <+: c.inbox.bytes ++ trip.written →
        trip.result = .ok m) := by
  have hcut := (hsound.cut halive).append trip.written
  have hall : ∀ l ∈ late ++ line :: more, IsLine l :=
    List.forall_mem_append.mpr ⟨fun l hl => (hlate l hl).1,
      List.forall_mem_cons.mpr ⟨hline.1, hmore⟩⟩
  have hlines := h.lines halive hall hend (hsound.cut halive)
  have hcome : trip.read ++ after.inbox.lines <+: late ++ line :: more := by
    rw [hlines]
    exact hcut.lines_isPrefix hall (by rw [Inbox.bytes_append]; exact hbytes)
  -- the lines of earlier requests are passed over, and the line of this one is its answer
  have hpass : ∀ l ∈ late, lineAnswer? c.nextId l = none := by
    intro l hl
    obtain ⟨-, e, he, hless⟩ := hlate l hl
    exact (lineAnswer?_of_carries he c.nextId).1 hless
  have hanswer : lineAnswer? c.nextId line = some (.ok m) :=
    (lineAnswer?_of_carries hline.2 c.nextId).2 rfl
  cases h with
  | refused hdead => simp [hdead] at halive
  | @answered read rest answer _ _ hreads =>
    obtain ⟨hread, rfl⟩ := hreads.eq_answer hpass hanswer ((List.prefix_append read _).trans hcome)
    exact ⟨[], by simp [hread], fun _ => rfl, fun _ _ => rfl⟩
  | @unanswered read rest fault _ _ hreads hrest hfault =>
    obtain ⟨⟨left, rfl⟩, hunread⟩ :=
      hreads.isPrefix_late hanswer ((List.prefix_append read _).trans hcome)
    -- without patience all lines were read, so the answer is not among them
    have hmissing : r.patience = none →
        ¬(read ++ left ++ [line]).flatten <+: c.inbox.bytes ++
          (peer.receive c.process (Envelope.line ⟨c.nextId, r.message⟩)).1 := by
      intro hnone hwhole
      obtain rfl := hrest hnone
      rw [← Inbox.bytes_append] at hwhole
      have hdue : ∀ l ∈ read ++ left ++ [line], IsLine l := by
        intro l hl
        rcases List.mem_append.mp hl with hl | hl
        · exact (hlate l hl).1
        · exact List.mem_singleton.mp hl ▸ hline.1
      have hin := hcut.isPrefix_lines hdue hwhole
      rw [← hlines] at hin
      have hmem : line ∈ read ++ [] := hin.subset (List.mem_append_right _ (by simp))
      rw [List.append_nil] at hmem
      exact hunread hmem
    refine ⟨left ++ [line], by simp, ?_, fun hnone hwhole => absurd hwhole (hmissing hnone)⟩
    intro hpatient
    rcases hfault with rfl | ⟨-, hnone, hdead⟩
    · exact absurd rfl (hpatient c.timeoutMs)
    · rcases hend with hafter | hwhole
      · simp [hdead] at hafter
      · refine absurd ?_ (hmissing hnone)
        rw [hwhole]
        simp

theorem rounds_alive {requests : List Request}
    (h : (c.rounds peer requests).2.alive peer = true) : c.alive peer = true := by
  rw [← Bool.not_eq_false]
  intro hdead
  rw [(rounds_dead hdead requests).1, hdead] at h
  cases h

/-- Where more requests follow a process that lives when the last one is made, it lives on. -/
theorem rounds_goOn {rest : List Request}
    (h : (c.rounds peer (r :: rest).dropLast).2.alive peer = true) :
    rest = [] ∨ (c.round peer r).2.alive peer = true ∧
      ((c.round peer r).2.rounds peer rest.dropLast).2.alive peer = true := by
  cases rest with
  | nil => exact .inl rfl
  | cons r' rest => exact .inr ⟨rounds_alive h, h⟩

/-- A living process receives the request under the next number. -/
theorem Round.sent (h : Round peer c r trip after) (halive : c.alive peer = true) :
    trip.id = c.nextId ∧ after.nextId = c.nextId + 1 ∧
      (trip.written, after.process) =
        peer.receive c.process (Envelope.line ⟨c.nextId, r.message⟩) := by
  cases h with
  | refused hdead => simp [hdead] at halive
  | answered | unanswered => exact ⟨rfl, rfl, rfl⟩

/-- What came in was read or is left. -/
theorem Round.bytes (h : Round peer c r trip after) (hafter : after.alive peer = true) :
    c.inbox.bytes ++ trip.written = trip.read.flatten ++ after.inbox.bytes := by
  have hinbox := h.inbox (h.alive hafter)
  rw [hafter] at hinbox
  have hbytes : (after.inbox.before trip.read).bytes = (c.inbox.append trip.written).bytes :=
    congrArg Inbox.bytes hinbox
  rw [Inbox.bytes_append] at hbytes
  rw [← hbytes]
  simp [Inbox.bytes, Inbox.before]

/-- Lines of requests that were made before the one of this number. -/
def Outdated (number : Nat) (lines : List (List UInt8)) : Prop :=
  ∀ l ∈ lines, IsLine l ∧ ∃ e, Carries l e ∧ e.id.toNat < number

/-- What is left of the lines of earlier requests and of this one's is outdated for the next. -/
theorem Outdated.next {number : Nat} {late read left : List (List UInt8)} {line : List UInt8}
    {e : Envelope} (h : Outdated number late) (hline : IsLine line ∧ Carries line e)
    (hid : e.id.toNat = number) (hleft : late ++ [line] = read ++ left) :
    Outdated (number + 1) left := by
  intro l hl
  have hmem : l ∈ late ++ [line] := by
    rw [hleft]
    exact List.mem_append_right read hl
  rcases List.mem_append.mp hmem with hmem | hmem
  · obtain ⟨hl, e', he', hless⟩ := h l hmem
    exact ⟨hl, e', he', by omega⟩
  · obtain rfl := List.mem_singleton.mp hmem
    exact ⟨hline.1, e, hline.2, by omega⟩

/-- A connection to a process that answers every request, before the round trips to come. What came
in and will come in is part of the lines for earlier requests, which nobody read so far, and of the
lines for the requests to come. -/
structure Awaits (peer : Peer π) (c : Connection π) (number : Nat) (late : List (List UInt8))
    (trips : List Trip) (answers : List (List UInt8 × Message)) : Prop where
  sound : Sound peer c
  nextId : c.nextId = UInt64.ofNat number
  outdated : Outdated number late
  each : List.Forall₂ (fun trip answer => IsLine answer.1 ∧ Carries answer.1 ⟨trip.id, answer.2⟩)
    trips answers
  written : c.inbox.bytes ++ trips.flatMap (·.written) <+: late.flatten ++ answers.flatMap (·.1)

theorem isLine_of_each {trips : List Trip} {answers : List (List UInt8 × Message)}
    (h : List.Forall₂ (fun trip answer => IsLine answer.1 ∧ Carries answer.1 ⟨trip.id, answer.2⟩)
      trips answers) : ∀ l ∈ answers.map (·.1), IsLine l := by
  induction h with
  | nil => simp
  | cons hanswer _ ih => exact List.forall_mem_cons.mpr ⟨hanswer.1, ih⟩

section

variable {number : Nat} {late : List (List UInt8)} {trips : List Trip}
  {answer : List UInt8 × Message} {answers : List (List UInt8 × Message)}

/-- What is said of one round trip, in a run with a process that answers every request. -/
theorem Awaits.head (h : Awaits peer c number late (trip :: trips) (answer :: answers))
    (hround : Round peer c r trip after) (halive : c.alive peer = true) (hnumber : number < UInt64.size)
    (hend : after.alive peer = true ∨
      c.inbox.bytes ++ trip.written = late.flatten ++ (answer :: answers).flatMap (·.1)) :
    ∃ left, late ++ [answer.1] = trip.read ++ left ∧ Outdated (number + 1) left ∧
      ((∀ ms, trip.result ≠ .error (.timeout ms)) → trip.result = .ok answer.2) ∧
      (r.patience = none → late.flatten ++ answer.1 <+: c.inbox.bytes ++ trip.written →
        trip.result = .ok answer.2) := by
  obtain ⟨hid, -⟩ := hround.sent halive
  have hvalue : c.nextId.toNat = number := by
    rw [h.nextId, UInt64.toNat_ofNat_of_lt' hnumber]
  obtain ⟨hanswer, heach⟩ := List.forall₂_cons.mp h.each
  rw [hid] at hanswer
  have hflatten : late.flatten ++ (answer :: answers).flatMap (·.1) =
      (late ++ answer.1 :: answers.map (·.1)).flatten := by
    simp [List.flatMap]
  have hlate : ∀ l ∈ late, IsLine l ∧ ∃ e, Carries l e ∧ e.id < c.nextId := by
    intro l hl
    obtain ⟨hline, e, he, hless⟩ := h.outdated l hl
    exact ⟨hline, e, he, by rw [UInt64.lt_iff_toNat_lt, hvalue]; exact hless⟩
  have hbytes : c.inbox.bytes ++ trip.written <+:
      (late ++ answer.1 :: answers.map (·.1)).flatten := by
    rw [← hflatten]
    refine List.IsPrefix.trans ?_ h.written
    simp
  rw [hflatten] at hend
  obtain ⟨left, hleft, hone, hwhole⟩ :=
    hround.answers halive h.sound hlate hanswer (isLine_of_each heach) hbytes hend
  exact ⟨left, hleft, h.outdated.next hanswer hvalue hleft, hone,
    fun hnone hin => hwhole hnone (by simpa using hin)⟩

/-- The lines that were read go away on both sides. -/
theorem Awaits.tail (h : Awaits peer c number late (trip :: trips) (answer :: answers))
    (hround : Round peer c r trip after) (hafter : after.alive peer = true)
    {left : List (List UInt8)} (hleft : late ++ [answer.1] = trip.read ++ left)
    (houtdated : Outdated (number + 1) left) :
    Awaits peer after (number + 1) left trips answers ∧ ∀ due came,
      late.flatten ++ (answer.1 ++ due) = trip.read.flatten ++ (left.flatten ++ due) ∧
      c.inbox.bytes ++ (trip.written ++ came) =
        trip.read.flatten ++ (after.inbox.bytes ++ came) := by
  obtain ⟨-, hnext, -⟩ := hround.sent (hround.alive hafter)
  have hflat : late.flatten ++ answer.1 = trip.read.flatten ++ left.flatten := by
    simpa using congrArg List.flatten hleft
  have hcancel : ∀ due came : List UInt8,
      late.flatten ++ (answer.1 ++ due) = trip.read.flatten ++ (left.flatten ++ due) ∧
      c.inbox.bytes ++ (trip.written ++ came) =
        trip.read.flatten ++ (after.inbox.bytes ++ came) := by
    intro due came
    exact ⟨by rw [← List.append_assoc, hflat, List.append_assoc],
      by rw [← List.append_assoc, hround.bytes hafter, List.append_assoc]⟩
  refine ⟨⟨hround.sound h.sound, ?_, houtdated, (List.forall₂_cons.mp h.each).2, ?_⟩, hcancel⟩
  · rw [hnext, h.nextId, UInt64.ofNat_add]
    rfl
  · have hwritten := h.written
    obtain ⟨hdue, hcame⟩ := hcancel (answers.flatMap (·.1)) (trips.flatMap (·.written))
    rwa [List.flatMap_cons, List.flatMap_cons, hcame, hdue, List.prefix_append_right_inj]
      at hwritten

/-- A run with a process that answers every request, and lives on or wrote all answers whole: a
request that does not run out of time gets its own answer, and one that is not given up does not run
out of time if the answers up to its own came in before that. -/
theorem rounds_answered (requests : List Request)
    (h : Awaits peer c number late (c.rounds peer requests).1 answers)
    (hreached : (c.rounds peer requests.dropLast).2.alive peer = true)
    (hend : (c.rounds peer requests).2.alive peer = true ∨
      c.inbox.bytes ++ (c.rounds peer requests).1.flatMap (·.written) =
        late.flatten ++ answers.flatMap (·.1)) :
    ∀ (i : Nat) (request : Request) (trip : Trip) (answer : List UInt8 × Message),
      number + i < UInt64.size → requests[i]? = some request →
      (c.rounds peer requests).1[i]? = some trip → answers[i]? = some answer →
        ((∀ ms, trip.result ≠ .error (.timeout ms)) → trip.result = .ok answer.2) ∧
        (request.patience = none →
          late.flatten ++ (answers.take (i + 1)).flatMap (·.1) <+:
            c.inbox.bytes ++ ((c.rounds peer requests).1.take (i + 1)).flatMap (·.written) →
          trip.result = .ok answer.2) := by
  induction requests generalizing c number late answers with
  | nil => intro i request trip answer _ hrequest; simp at hrequest
  | cons r rest ih =>
    have halive : c.alive peer = true := rounds_alive hreached
    have hround := round_cases peer c r
    have hmore := rounds_goOn hreached
    cases answers with
    | nil => intro i request trip answer _ _ _ hanswer; simp at hanswer
    | cons answer answers =>
      intro i request trip answer' hnumber hrequest htrip hanswer
      obtain ⟨left, hleft, houtdated, hone, hwhole⟩ := h.head hround halive (by omega) (by
        rcases hmore with rfl | ⟨hafter, -⟩
        · simpa [Connection.rounds] using hend
        · exact .inl hafter)
      cases i with
      | zero =>
        obtain rfl : r = request := Option.some.inj hrequest
        obtain rfl : c.tripOf peer r = trip := Option.some.inj htrip
        obtain rfl : answer = answer' := Option.some.inj hanswer
        refine ⟨hone, fun hnone hin => hwhole hnone ?_⟩
        simpa [Connection.rounds] using hin
      | succ i =>
        obtain ⟨hafter, hreached'⟩ := hmore.resolve_left (by
          rintro rfl
          simp at hrequest)
        obtain ⟨hawaits, hcancel⟩ := h.tail hround hafter hleft houtdated
        simp only [Connection.rounds, List.flatMap_cons, List.take_succ_cons] at hend ⊢
        have hend' : ((c.round peer r).2.rounds peer rest).2.alive peer = true ∨
            (c.round peer r).2.inbox.bytes ++
              ((c.round peer r).2.rounds peer rest).1.flatMap (·.written) =
            left.flatten ++ answers.flatMap (·.1) := by
          obtain ⟨hdue, hcame⟩ := hcancel (answers.flatMap (·.1))
            (((c.round peer r).2.rounds peer rest).1.flatMap (·.written))
          rwa [hcame, hdue, List.append_cancel_left_eq] at hend
        obtain ⟨hone', hwhole'⟩ :=
          ih hawaits hreached' hend' i request trip answer' (by omega) hrequest htrip hanswer
        refine ⟨hone', fun hnone hin => hwhole' hnone ?_⟩
        obtain ⟨hdue, hcame⟩ := hcancel ((answers.take (i + 1)).flatMap (·.1))
          ((((c.round peer r).2.rounds peer rest).1.take (i + 1)).flatMap (·.written))
        rwa [hcame, hdue, List.prefix_append_right_inj] at hin

end

end

/-- The lines, each of which answers one request: what the process writes is part of one line for
each request, in the order of the requests, and each line carries the number of its request. The
process lives when the last request is made, and after that it lives on or has written all lines. -/
structure Answering (peer : Peer π) (c : Connection π) (requests : List Request)
    (answers : List (List UInt8 × Message)) : Prop where
  each : List.Forall₂ (fun trip answer => IsLine answer.1 ∧ Carries answer.1 ⟨trip.id, answer.2⟩)
    (c.rounds peer requests).1 answers
  written : (c.rounds peer requests).1.flatMap (·.written) <+: answers.flatMap (·.1)
  reached : (c.rounds peer requests.dropLast).2.alive peer = true
  goesOn : (c.rounds peer requests).2.alive peer = true ∨
    (c.rounds peer requests).1.flatMap (·.written) = answers.flatMap (·.1)

/-- Responses are matched to requests. Whatever the process writes, and whichever requests are given
up after whatever number of lines, a request gets only a message that came with its own number, and
the lines before it were blank or came with smaller numbers; the lines that were read for the
requests, with those that are left, are the lines that were written, each once. If the process
answers every request, a request that does not run out of time gets its own answer, and one that is
not given up does so whenever the answers up to its own came in by then; the first number is one,
and no number that a word can hold is left out. -/
theorem responses_matched (peer : Peer π) (process : π) (timeoutMs : Nat)
    (requests : List Request) :
    let c : Connection π := { process := process, timeoutMs := timeoutMs }
    let trips := (c.rounds peer requests).1
    let last := (c.rounds peer requests).2
    (∀ trip ∈ trips, trip.Matched) ∧
    trips.flatMap (·.read) ++ last.inbox.lines =
      ((Inbox.append {} (trips.flatMap (·.written))).settled (last.alive peer)).lines ∧
    ∀ answers, Answering peer c requests answers →
      ∀ (i : Nat) (request : Request) (trip : Trip) (answer : List UInt8 × Message),
        1 + i < UInt64.size → requests[i]? = some request → trips[i]? = some trip →
        answers[i]? = some answer →
          ((∀ ms, trip.result ≠ .error (.timeout ms)) → trip.result = .ok answer.2) ∧
          (request.patience = none →
            (answers.take (i + 1)).flatMap (·.1) <+: (trips.take (i + 1)).flatMap (·.written) →
            trip.result = .ok answer.2) := by
  intro c trips last
  have hsound : Sound peer c := ⟨fun _ => ⟨by simp [c], by simp [c]⟩, fun _ => rfl⟩
  refine ⟨rounds_matched peer c requests, ?_, ?_⟩
  · exact congrArg Inbox.lines (rounds_inbox hsound requests)
  · intro answers h
    have hawaits : Awaits peer c 1 [] trips answers :=
      ⟨hsound, rfl, fun _ hl => absurd hl List.not_mem_nil, h.each, h.written⟩
    exact rounds_answered requests hawaits h.reached h.goesOn

/-! ## A late answer -/

/-- The line of a report on a request, which tells whether its step failed. -/
def reportLine (id : UInt64) (failed : Bool) : List UInt8 :=
  Text.toUtf8 (Envelope.line ⟨id, .statusResponse { failed := failed }⟩ ++ "\n")

/-- A process that answers its first request when the second one arrives, and then both at once. -/
def latePeer : Peer Nat where
  alive _ := true
  receive count _ := (if count = 0 then [] else reportLine 1 true ++ reportLine 2 false, count + 1)

/-- The connection to it. -/
def toLatePeer : Connection Nat := { process := 0, timeoutMs := 100 }

/-- Two requests, neither of which is given up. -/
def twoSteps : List Request := [{ message := .stepStarting "one" }, { message := .stepEnding "one" }]

/-- What they are answered with. -/
def twoReports : List (List UInt8 × Message) :=
  [(reportLine 1 true, .statusResponse { failed := true }),
    (reportLine 2 false, .statusResponse { failed := false })]

theorem latePeer_written :
    (toLatePeer.rounds latePeer twoSteps).1.flatMap (·.written) = twoReports.flatMap (·.1) := by
  obtain ⟨-, -, hfirst⟩ :=
    (round_cases latePeer toLatePeer { message := .stepStarting "one" }).sent rfl
  obtain ⟨hnothing, hprocess⟩ := Prod.mk.inj hfirst
  obtain ⟨-, -, hsecond⟩ := (round_cases latePeer
    (toLatePeer.round latePeer { message := .stepStarting "one" }).2
    { message := .stepEnding "one" }).sent rfl
  rw [hprocess] at hsecond
  obtain ⟨hboth, -⟩ := Prod.mk.inj hsecond
  rw [if_pos (show toLatePeer.process = 0 from rfl)] at hnothing
  rw [if_neg (Nat.succ_ne_zero _)] at hboth
  -- steps of rewriting, since the lines themselves are slow to evaluate
  simp only [twoSteps, twoReports, Connection.rounds, List.flatMap_cons, List.flatMap_nil]
  rw [hnothing, hboth, List.nil_append, List.append_nil, List.append_nil]

theorem latePeer_answering : Answering latePeer toLatePeer twoSteps twoReports where
  each := .cons (carries_line _) (.cons (carries_line _) .nil)
  written := latePeer_written ▸ List.prefix_rfl
  reached := rfl
  goesOn := .inr latePeer_written

/-- The first request runs out of time, and the second one gets its own answer, not the late one. -/
theorem late_answer_passed_over :
    (toLatePeer.rounds latePeer twoSteps).1.map (·.result) =
      [.error (.timeout 100), .ok (.statusResponse { failed := false })] := by
  obtain ⟨-, -, hanswered⟩ := responses_matched latePeer 0 100 twoSteps
  obtain ⟨-, hown⟩ := hanswered twoReports latePeer_answering 1 _ _ _ (by decide) rfl rfl rfl
  have hsecond := hown rfl (by
    show twoReports.flatMap (·.1) <+: (toLatePeer.rounds latePeer twoSteps).1.flatMap (·.written)
    exact latePeer_written ▸ List.prefix_rfl)
  exact congrArg (fun result => [.error (.timeout 100), result]) hsecond

end SpecEngine.Runner
