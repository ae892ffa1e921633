/-
# SpecEngine.Proofs.Nesting -- events are well nested

A listener hears the start of the suite first and its end last. What it hears in between comes from
several streams and is interleaved in some way, but the events of each stream by itself are nested
blocks: specifications around scenarios, scenarios around steps and concepts, concepts around steps
and concepts, steps around nothing. The end of a block names the item of its start and carries the
item's result, and the results that the ends of specifications carry are in the result of the suite,
with those of their scenarios. However often a scenario is attempted, it is one block.

The blocks are read off the histories of each level. A stream whose task breaks down announces the
beginning of such blocks; what it announced is not in the result, since it hands in nothing.
-/
import Mathlib.Data.List.Nodup
import SpecEngine.Proofs.Accounting
import SpecEngine.Proofs.Delivery
import SpecEngine.Proofs.StartedSteps
import SpecEngine.Proofs.StreamHistory

namespace SpecEngine.Engine

open Item (StepItem Scenario Specification)
open Result (StepResult ScenarioResult SpecResult SuiteResult StreamOutcome)
open Runner (Fleet)
open Event (Announcement Bus Topic Subject Outcome)

variable {σ : Type}

/-! ## Blocks of events -/

/-- Events between the start and the end of an item. -/
def bracketed (stream : Nat) (start stop : Topic) (subject : Subject) (outcome : Outcome)
    (inner : List Announcement) : List Announcement :=
  ⟨start, subject, none, stream⟩ :: (inner ++ [⟨stop, subject, some outcome, stream⟩])

/-- Blocks of steps and concepts. -/
inductive StepEvents (stream : Nat) (fileName : String) : List Announcement → Prop
  | nil : StepEvents stream fileName []
  | step {rest} (r : StepResult) : StepEvents stream fileName rest →
      StepEvents stream fileName
        (bracketed stream .stepStart .stepEnd (.step fileName r.text r.line) (.step r) [] ++ rest)
  | concept {inner rest} (r : StepResult) : StepEvents stream fileName inner →
      StepEvents stream fileName rest →
      StepEvents stream fileName
        (bracketed stream .conceptStart .conceptEnd (.concept fileName r.text r.line) (.step r)
          inner ++ rest)

/-- The block of a scenario. -/
inductive ScenarioEvents (stream : Nat) (fileName : String) (r : ScenarioResult) :
    List Announcement → Prop
  | around {inner} : StepEvents stream fileName inner →
      ScenarioEvents stream fileName r
        (bracketed stream .scenarioStart .scenarioEnd
          (.scenario fileName r.heading r.line r.tableRow) (.scenario r) inner)

/-- The block of a specification, with a block for each scenario result unless it was left out as a
whole. -/
inductive SpecEvents (stream : Nat) (r : SpecResult) : List Announcement → Prop
  | around {inner} : Blocks (ScenarioEvents stream r.fileName) r.scenarios inner →
      SpecEvents stream r
        (bracketed stream .specStart .specEnd (.specification r.fileName r.heading) (.spec r) inner)
  | leftOut {spec reason} : r.scenarios = allSkipped spec reason →
      SpecEvents stream r
        (bracketed stream .specStart .specEnd (.specification r.fileName r.heading) (.spec r) [])

theorem StepEvents.append {stream : Nat} {fileName : String} {es es' : List Announcement}
    (h : StepEvents stream fileName es) (h' : StepEvents stream fileName es') :
    StepEvents stream fileName (es ++ es') := by
  induction h with
  | nil => exact h'
  | step r _ ih =>
    rw [List.append_assoc]
    exact .step r ih
  | concept r hinner _ _ ih =>
    rw [List.append_assoc]
    exact .concept r hinner ih

/-! ## Announcements -/

/-- The event that a happening announces on a stream. -/
def Happening.announcement? (stream : Nat) : Happening → Option Announcement
  | .announced topic subject outcome => some ⟨topic, subject, outcome, stream⟩
  | _ => none

/-- The events that were announced on a stream, in order. -/
def announcements (stream : Nat) (hs : List Happening) : List Announcement :=
  hs.filterMap (Happening.announcement? stream)

theorem announcements_append (stream : Nat) (hs hs' : List Happening) :
    announcements stream (hs ++ hs') = announcements stream hs ++ announcements stream hs' :=
  List.filterMap_append

theorem announcements_announcedAround (stream : Nat) (start stop : Topic) (subject : Subject)
    (outcome : Outcome) (hs : List Happening) :
    announcements stream (announcedAround start stop subject outcome hs) =
      bracketed stream start stop subject outcome (announcements stream hs) := by
  show _ :: announcements stream (hs ++ [_]) = _
  rw [announcements_append]
  rfl

theorem announcements_stream {stream : Nat} {hs : List Happening} {e : Announcement}
    (h : e ∈ announcements stream hs) : e.stream = stream := by
  obtain ⟨happening, -, hannounced⟩ := List.mem_filterMap.mp h
  cases happening with
  | exchanged m answer => cases hannounced
  | looked alive => cases hannounced
  | announced topic subject outcome =>
    obtain rfl := Option.some.inj hannounced
    rfl

theorem announcements_of_unannounced (stream : Nat) {hs : List Happening}
    (h : ∀ x ∈ hs, x.isAnnounced = false) : announcements stream hs = [] := by
  refine List.filterMap_eq_nil_iff.mpr fun x hx => ?_
  have hx := h x hx
  cases x with
  | exchanged m answer => rfl
  | looked alive => rfl
  | announced topic subject outcome => cases hx

/-- The event of an occurrence, if it is an announcement. -/
def Occurrence.announcement? : Occurrence → Option Announcement
  | .announced e => some e
  | _ => none

theorem StreamRun.events_eq (run : StreamRun σ) :
    run.events = run.trace.filterMap Occurrence.announcement? := rfl

theorem occurrences_announcements (stream : Nat) (hs : List Happening) :
    (occurrences stream hs).filterMap Occurrence.announcement? = announcements stream hs := by
  rw [occurrences, announcements, List.filterMap_filterMap]
  congr 1
  funext h
  cases h <;> rfl

/-! ## Steps and attempts -/

section

variable {plan : Plan} {spec : Specification} {sc : Scenario} {row : Option Table.Row}
variable {hs : List Happening}

theorem StepHistory.names {step : Item.Step} {e : Executed} (fileName : String)
    (h : StepHistory plan row step hs e) :
    Subject.ofStep fileName step = .step fileName e.result.text e.result.line := by
  rw [h.reports.text, h.reports.line]
  rfl

mutual

theorem ItemHistory.events {fileName : String} {item : StepItem} {hs : List Happening}
    {e : Executed} (stream : Nat) :
    ItemHistory plan fileName row item hs e →
      StepEvents stream fileName (announcements stream hs)
  | @ItemHistory.step _ _ _ step hs e h => by
    rw [stepHappenings, announcements_announcedAround,
      announcements_of_unannounced stream h.unannounced, h.names]
    have hblock := StepEvents.step e.result (.nil : StepEvents stream fileName [])
    rwa [List.append_nil] at hblock
  | @ItemHistory.concept _ _ _ text line steps hs parts h => by
    rw [announcements_announcedAround]
    have hblock := StepEvents.concept (conceptOf text line parts).result
      (ItemsHistory.events stream h) .nil
    rwa [List.append_nil] at hblock

theorem ItemsHistory.events {fileName : String} {items : List StepItem} {hs : List Happening}
    {o : StepsOutcome} (stream : Nat) :
    ItemsHistory plan fileName row items hs o →
      StepEvents stream fileName (announcements stream hs)
  | .nil => .nil
  | .halted h _ => ItemHistory.events stream h
  | .cons h _ hrest => by
    rw [announcements_append]
    exact (ItemHistory.events stream h).append (ItemsHistory.events stream hrest)

end

theorem AttemptHistory.events {r : ScenarioResult} (stream : Nat)
    (h : AttemptHistory plan spec sc row hs r) :
    StepEvents stream spec.fileName (announcements stream hs) := by
  cases h with
  | refused hbefore _ hafter =>
    rw [announcements_append, announcements_of_unannounced stream hbefore.unannounced,
      announcements_of_unannounced stream hafter.unannounced]
    exact .nil
  | executed hbefore _ hitems hafter =>
    rw [announcements_append, announcements_append,
      announcements_of_unannounced stream hbefore.unannounced,
      announcements_of_unannounced stream hafter.unannounced, List.nil_append, List.append_nil]
    exact hitems.events stream

theorem AttemptsHistory.events {number more : Nat} {r : ScenarioResult} (stream : Nat)
    (h : AttemptsHistory plan spec sc row number more hs r) :
    StepEvents stream spec.fileName (announcements stream hs) := by
  induction h with
  | last hattempt _ => exact hattempt.events stream
  | again hattempt _ _ _ ih =>
    -- an attempt announces its items only, so the attempts make one sequence of blocks
    rw [announcements_append]
    exact (hattempt.events stream).append ih

/-- What the scenario and the row are called is what their result says. -/
theorem AttemptsHistory.names {number more : Nat} {r : ScenarioResult}
    (h : AttemptsHistory plan spec sc row number more hs r) :
    Subject.ofScenario spec sc (row.map (·.index)) =
      .scenario spec.fileName r.heading r.line r.tableRow := by
  induction h with
  | last hattempt _ => cases hattempt <;> rfl
  | again _ _ _ _ ih => exact ih

/-! ## Scenarios -/

theorem ScenarioHistory.events {aborted : Bool} {r : ScenarioResult} (stream : Nat)
    (h : ScenarioHistory plan spec sc row aborted hs r) :
    ScenarioEvents stream spec.fileName r (announcements stream hs) := by
  cases h with
  | illFormed _ =>
    rw [scenarioHappenings, announcements_announcedAround]
    exact .around .nil
  | dead _ _ =>
    rw [scenarioHappenings, announcements_announcedAround]
    exact .around .nil
  | attempted _ _ hattempts =>
    rw [scenarioHappenings, announcements_announcedAround, hattempts.names]
    exact .around (hattempts.events stream)

theorem RowsHistory.events {aborted : Bool} {rows : List Table.Row} {rs : List ScenarioResult}
    (stream : Nat) (h : RowsHistory plan spec sc aborted rows hs rs) :
    Blocks (ScenarioEvents stream spec.fileName) rs (announcements stream hs) := by
  induction h with
  | nil => exact .nil
  | cons hrow _ ih =>
    rw [announcements_append]
    exact .cons (hrow.events stream) ih

theorem TableHistory.events {aborted : Bool} {rows : Option (List Table.Row)}
    {rs : List ScenarioResult} (stream : Nat) (h : TableHistory plan spec aborted sc rows hs rs) :
    Blocks (ScenarioEvents stream spec.fileName) rs (announcements stream hs) := by
  cases h with
  | once _ hscenario => exact .singleton (hscenario.events stream)
  | perRow _ hrows => exact hrows.events stream
  | withoutRows _ =>
    rw [scenarioHappenings, announcements_announcedAround]
    exact .singleton (.around .nil)

theorem ScenariosHistory.events {aborted : Bool} {rows : Option (List Table.Row)}
    {scenarios : List Scenario} {rs : List ScenarioResult} (stream : Nat)
    (h : ScenariosHistory plan spec rows aborted scenarios hs rs) :
    Blocks (ScenarioEvents stream spec.fileName) rs (announcements stream hs) := by
  induction h with
  | nil => exact .nil
  | cons hfirst _ ih =>
    rw [announcements_append]
    exact (hfirst.events stream).append ih

/-! ## Specifications -/

theorem SpecHistory.events {aborted : Bool} {r : SpecResult} (stream : Nat)
    (h : SpecHistory plan spec aborted hs r) :
    SpecEvents stream r (announcements stream (specHappenings spec hs r)) := by
  rw [specHappenings, announcements_announcedAround]
  cases h with
  | illFormed _ => exact .leftOut rfl
  | dead _ _ => exact .leftOut rfl
  | @takenUp _ before body _ _ _ after _ _ hbefore hbody hafter =>
    rw [announcements_append, announcements_append,
      announcements_of_unannounced stream hbefore.unannounced,
      announcements_of_unannounced stream hafter.unannounced, List.nil_append, List.append_nil]
    cases hbody with
    | refused _ => exact .leftOut rfl
    | unresolvable _ _ => exact .leftOut rfl
    | carriedOut _ _ hscenarios => exact .around (hscenarios.events stream)

end

theorem SpecsHistory.events {plan : Plan} {aborted : Bool} {items : List Placed}
    {hs : List Happening} {entries : List (Nat × SpecResult)} (stream : Nat)
    (h : SpecsHistory plan aborted items hs entries) :
    Blocks (SpecEvents stream) (entries.map (·.2)) (announcements stream hs) := by
  induction h with
  | nil => exact .nil
  | cons hspec _ ih =>
    rw [announcements_append]
    exact .cons (hspec.events stream) ih

/-! ## Streams -/

/-- A stream of a run with its number and the results of the specifications that it announced, as
far as it hands them in. -/
structure StreamReport (σ : Type) where
  number : Nat
  results : List SpecResult
  run : StreamRun σ

/-- The events of the stream are blocks of the specifications, or the beginning of such blocks if its
task broke down. -/
inductive StreamReport.Nested (fleet : Fleet σ) : StreamReport σ → Prop
  | whole {number results run} : run.outcome.isSome = true →
      Blocks (SpecEvents number) results run.events → Nested fleet ⟨number, results, run⟩
  | brokenOff {number announced events run} : run.BrokeDown fleet → run.outcome = none →
      Blocks (SpecEvents number) announced events → run.events <+: events →
      Nested fleet ⟨number, [], run⟩

/-- The result says of a specification of the plan that it was left out. -/
def IsLeftOut (plan : Plan) (r : SpecResult) : Prop :=
  ∃ spec ∈ plan.specs, ∃ reason, r = .notExecuted spec reason []

theorem leftOut_isLeftOut {plan : Plan} {items : List Placed}
    (hitems : ∀ item ∈ items, item ∈ plan.indexed) (reason : String) :
    ∀ r ∈ (items.map (leftOut reason)).map (·.2), IsLeftOut plan r := by
  intro r hr
  rw [List.map_map] at hr
  obtain ⟨item, hitem, rfl⟩ := List.mem_map.mp hr
  exact ⟨item.2, List.mem_of_getElem? (mem_indexed.mp (hitems item hitem)), reason, rfl⟩

section

variable {fleet : Fleet σ} {plan : Plan} {stream : Nat} {items : List Placed}

/-- A stream that serves announces what happens while its specifications run. -/
theorem served_announcements (m : Runner.Message) (hs : List Happening)
    (ending : List Runner.Message) :
    (Occurrence.offered m :: (occurrences stream hs ++ ending.map .offered ++ [.killed])).filterMap
      Occurrence.announcement? = announcements stream hs := by
  have hending : (ending.map Occurrence.offered).filterMap Occurrence.announcement? = [] := by
    rw [List.filterMap_map]
    exact List.filterMap_eq_nil_iff.mpr fun _ _ => rfl
  rw [List.filterMap_cons, List.filterMap_append, List.filterMap_append,
    occurrences_announcements, hending, List.append_nil]
  exact List.append_nil _

/-- The results that a stream announced are those it hands in, apart from what it left out. -/
theorem StreamHistory.events {trace : List Occurrence} {o : StreamOutcome}
    (h : StreamHistory fleet plan stream items trace o)
    (hitems : ∀ item ∈ items, item ∈ plan.indexed) :
    ∃ hs results others, trace.filterMap Occurrence.announcement? = announcements stream hs ∧
      Blocks (SpecEvents stream) results (announcements stream hs) ∧
      o.results.map (·.2) = results ++ others ∧ ∀ r ∈ others, IsLeftOut plan r := by
  cases h with
  | unstarted _ => exact ⟨[], [], _, rfl, .nil, rfl, leftOut_isLeftOut hitems _⟩
  | refused _ _ => exact ⟨[], [], _, rfl, .nil, rfl, leftOut_isLeftOut hitems _⟩
  | @served runner hs entries ending failure _ _ hspecs _ =>
    exact ⟨hs, entries.map (·.2), [], served_announcements .., hspecs.events stream,
      (List.append_nil _).symm, by simp⟩

/-- What a stream with a history has to report. -/
theorem StreamRun.Follows.report {run : StreamRun σ} (h : run.Follows fleet plan stream items)
    (hitems : ∀ item ∈ items, item ∈ plan.indexed) :
    ∃ results others, StreamReport.Nested fleet ⟨stream, results, run⟩ ∧
      (∀ e ∈ run.events, e.stream = stream) ∧
      (run.outcome.toList.flatMap (·.results)).map (·.2) = results ++ others ∧
      ∀ r ∈ others, IsLeftOut plan r := by
  obtain ⟨trace, o, hhistory, hleaves⟩ := h
  obtain ⟨hs, results, others, hevents, hblocks, hresults, hothers⟩ := hhistory.events hitems
  cases hleaves with
  | whole houtcome htrace =>
    rw [← htrace, ← StreamRun.events_eq] at hevents
    refine ⟨results, others, .whole ?_ ?_, ?_, ?_, hothers⟩
    · rw [houtcome]
      rfl
    · rwa [hevents]
    · rw [hevents]
      exact fun e he => announcements_stream he
    · rw [houtcome, Option.toList_some, List.flatMap_singleton]
      exact hresults
  | brokenOff hbroken houtcome htrace =>
    -- the stream hands in nothing, so its results do not count as announced
    have hbegins : run.events <+: announcements stream hs := by
      rw [← hevents, StreamRun.events_eq]
      exact htrace.filterMap _
    refine ⟨[], [], .brokenOff hbroken houtcome hblocks hbegins, ?_, ?_, by simp⟩
    · exact fun e he => announcements_stream (hbegins.subset he)
    · rw [houtcome]
      rfl

end

theorem filterMap_outcome_cons (run : StreamRun σ) (streams : List (StreamRun σ)) :
    (run :: streams).filterMap (·.outcome) =
      run.outcome.toList ++ streams.filterMap (·.outcome) := by
  cases houtcome : run.outcome with
  | none => exact List.filterMap_cons_none houtcome
  | some o => exact List.filterMap_cons_some houtcome

/-- Streams with numbers of their own have nested events, and the results that they hand in are those
that they announced and some of specifications that were left out. -/
structure ReportedBy (fleet : Fleet σ) (plan : Plan) (numbers : List Nat)
    (streams : List (StreamRun σ)) (reports : List (StreamReport σ)) (others : List SpecResult) :
    Prop where
  numbers_eq : reports.map (·.number) = numbers
  runs_eq : reports.map (·.run) = streams
  nested : ∀ report ∈ reports, report.Nested fleet
  own : ∀ report ∈ reports, ∀ e ∈ report.run.events, e.stream = report.number
  results : (((streams.filterMap (·.outcome)).flatMap (·.results)).map (·.2)).Perm
    (reports.flatMap (·.results) ++ others)
  others : ∀ r ∈ others, IsLeftOut plan r

theorem follow_reportedBy {fleet : Fleet σ} {plan : Plan} {work : Work}
    {streams : List (StreamRun σ)}
    (h : List.Forall₂ (fun share run => StreamRun.Follows fleet plan share.1 share.2 run) work
      streams)
    (hwork : ∀ share ∈ work, ∀ item ∈ share.2, item ∈ plan.indexed) :
    ∃ reports others, ReportedBy fleet plan (work.map (·.1)) streams reports others := by
  induction h with
  | nil => exact ⟨[], [], rfl, rfl, by simp, by simp, by simp, by simp⟩
  | @cons share run work streams hrun _ ih =>
    obtain ⟨hshare, hrest⟩ := List.forall_mem_cons.mp hwork
    obtain ⟨results, others, hnested, hown, hresults, hothers⟩ := hrun.report hshare
    obtain ⟨reports, others', ih⟩ := ih hrest
    refine ⟨⟨share.1, results, run⟩ :: reports, others ++ others', ?_⟩
    constructor
    case numbers_eq => rw [List.map_cons, ih.numbers_eq, List.map_cons]
    case runs_eq => rw [List.map_cons, ih.runs_eq]
    case nested => exact List.forall_mem_cons.mpr ⟨hnested, ih.nested⟩
    case own => exact List.forall_mem_cons.mpr ⟨hown, ih.own⟩
    case results =>
      rw [filterMap_outcome_cons, List.flatMap_append, List.map_append, hresults, List.flatMap_cons]
      refine (ih.results.append_left _).trans ?_
      -- both sides have the same four parts, the middle two swapped
      rw [List.append_assoc, List.append_assoc]
      refine List.Perm.append_left _ ?_
      rw [← List.append_assoc, ← List.append_assoc]
      exact List.perm_append_comm.append_right _
    case others =>
      exact List.forall_mem_append.mpr ⟨hothers, ih.others⟩

/-! ## Interleaving -/

/-- The lists are merged into one, each in its order. -/
inductive Interleaved {α : Type} : List (List α) → List α → Prop
  | done {lists} : (∀ l ∈ lists, l = []) → Interleaved lists []
  | next {before after l merged} {a : α} : Interleaved (before ++ l :: after) merged →
      Interleaved (before ++ (a :: l) :: after) (a :: merged)

namespace Interleaved

variable {α : Type} {lists : List (List α)} {merged : List α}

theorem cons_nil (h : Interleaved lists merged) : Interleaved ([] :: lists) merged := by
  induction h with
  | done h => exact .done (List.forall_mem_cons.mpr ⟨rfl, h⟩)
  | @next before after l merged a _ ih =>
    rw [← List.cons_append] at ih ⊢
    exact .next ih

/-- Lists can be merged by putting one after the other. -/
theorem flatten (lists : List (List α)) : Interleaved lists lists.flatten := by
  induction lists with
  | nil => exact .done (by simp)
  | cons l rest ih =>
    rw [List.flatten_cons]
    induction l with
    | nil => exact ih.cons_nil
    | cons a l ih' =>
      show Interleaved ([] ++ (a :: l) :: rest) _
      exact .next ih'

/-- What is merged is what the lists have. -/
theorem perm (h : Interleaved lists merged) : merged.Perm lists.flatten := by
  induction h with
  | done h => rw [List.flatten_eq_nil_iff.mpr h]
  | @next before after l merged a _ ih =>
    rw [List.flatten_append, List.flatten_cons] at ih ⊢
    exact (ih.cons a).trans List.perm_middle.symm

theorem mem (h : Interleaved lists merged) {a : α} (ha : a ∈ merged) : ∃ l ∈ lists, a ∈ l :=
  List.mem_flatten.mp (h.perm.subset ha)

/-- If every list has a number of its own, the list can be read off what the lists are merged
into. -/
theorem filter_eq {key : α → Nat} {numbered : List (Nat × List α)}
    (h : Interleaved lists merged) (hlists : numbered.map (·.2) = lists)
    (hnumbers : (numbered.map (·.1)).Nodup)
    (hown : ∀ p ∈ numbered, ∀ a ∈ p.2, key a = p.1) :
    ∀ p ∈ numbered, merged.filter (fun a => key a == p.1) = p.2 := by
  induction h generalizing numbered with
  | done h =>
    intro p hp
    rw [h p.2 (hlists ▸ List.mem_map_of_mem hp)]
    rfl
  | @next before after l merged a _ ih =>
    obtain ⟨numbered', later, rfl, hbefore, hlater⟩ := List.map_eq_append_iff.mp hlists
    obtain ⟨p, numbered'', rfl, hp, hafter⟩ := List.map_eq_cons_iff.mp hlater
    have hkey : key a = p.1 := by
      refine hown p (List.mem_append_right _ List.mem_cons_self) a ?_
      rw [hp]
      exact List.mem_cons_self
    have hrest := @ih (numbered' ++ (p.1, l) :: numbered'')
      (by rw [List.map_append, List.map_cons, hbefore, hafter])
      (by simpa only [List.map_append, List.map_cons] using hnumbers) (by
        intro q hq b hb
        rcases List.mem_append.mp hq with hq | hq
        · exact hown q (List.mem_append_left _ hq) b hb
        · rcases List.mem_cons.mp hq with rfl | hq
          · refine hown p (List.mem_append_right _ List.mem_cons_self) b ?_
            rw [hp]
            exact .tail a hb
          · exact hown q (List.mem_append_right _ (.tail p hq)) b hb)
    rw [List.map_append, List.map_cons, List.nodup_middle, List.nodup_cons] at hnumbers
    -- the first of what is merged belongs to the one list that it was taken from
    have hother : ∀ q, q ∈ numbered' ∨ q ∈ numbered'' → (key a == q.1) = false := by
      intro q hq
      refine beq_eq_false_iff_ne.mpr fun hsame => hnumbers.1 ?_
      rw [← hkey, hsame, ← List.map_append]
      exact List.mem_map_of_mem (List.mem_append.mpr hq)
    intro q hq
    rcases List.mem_append.mp hq with hq | hq
    · rw [List.filter_cons, hother q (.inl hq)]
      exact hrest q (List.mem_append_left _ hq)
    · rcases List.mem_cons.mp hq with rfl | hq
      · rw [List.filter_cons, hkey, beq_self_eq_true, if_pos rfl, hp]
        exact congrArg (a :: ·) (hrest (q.1, l) (List.mem_append_right _ List.mem_cons_self))
      · rw [List.filter_cons, hother q (.inr hq)]
        exact hrest q (List.mem_append_right _ (.tail _ hq))

end Interleaved

/-! ## Runs -/

/-- The run may announce these events: those of its streams, interleaved in some way, between the
start and the end of the suite. -/
def SuiteRun.Announces (run : SuiteRun σ) (events : List Announcement) : Prop :=
  ∃ between, Interleaved (run.streams.map StreamRun.events) between ∧
    events = bracketed 0 .suiteStart .suiteEnd .suite (.suite run.result) between

theorem SuiteRun.announces_events (run : SuiteRun σ) : run.Announces run.events := by
  refine ⟨_, .flatten _, ?_⟩
  rw [← List.flatMap_def]
  rfl

/-- The events between the start and the end of the suite are well nested on each stream, and the
results that they carry are those of the suite, but for specifications that were left out. -/
structure WellNested (fleet : Fleet σ) (plan : Plan) (run : SuiteRun σ)
    (between : List Announcement) (reports : List (StreamReport σ)) (others : List SpecResult) :
    Prop where
  streams : reports.map (·.run) = run.streams
  numbers : (reports.map (·.number)).Nodup
  covered : ∀ e ∈ between, ∃ report ∈ reports, e.stream = report.number
  events : ∀ report ∈ reports,
    between.filter (fun e => e.stream == report.number) = report.run.events
  nested : ∀ report ∈ reports, report.Nested fleet
  results : run.result.specs.Perm (reports.flatMap (·.results) ++ others)
  others : ∀ r ∈ others, IsLeftOut plan r

theorem completed_results (plan : Plan) (streams : List (StreamRun σ)) :
    (completed plan streams).flatMap (·.results) =
      (streams.filterMap (·.outcome)).flatMap (·.results) ++
        (unreported plan (streams.filterMap (·.outcome))).results := by
  rw [completed]
  split
  next hempty => rw [List.isEmpty_iff.mp hempty, List.append_nil]
  next => rw [List.flatMap_append, List.flatMap_singleton]

/-- The result of a run holds what its streams reported and besides only specifications that were
left out. -/
theorem ReportedBy.result_specs {fleet : Fleet σ} {plan : Plan} {numbers : List Nat}
    {streams : List (StreamRun σ)} {reports : List (StreamReport σ)} {others : List SpecResult}
    (h : ReportedBy fleet plan numbers streams reports others) :
    ∃ more, (Result.merge (completed plan streams) 0).specs.Perm
        (reports.flatMap (·.results) ++ more) ∧
      ∀ r ∈ more, IsLeftOut plan r := by
  obtain ⟨entries, hperm, hspecs⟩ := merge_specs (completed plan streams) 0
  have hmissing : ∀ r ∈ (unreported plan (streams.filterMap (·.outcome))).results.map (·.2),
      IsLeftOut plan r :=
    leftOut_isLeftOut (fun _ hitem => List.mem_of_mem_filter hitem) unreportedReason
  refine ⟨others ++ (unreported plan (streams.filterMap (·.outcome))).results.map (·.2), ?_,
    List.forall_mem_append.mpr ⟨h.others, hmissing⟩⟩
  rw [hspecs, ← List.append_assoc]
  refine (hperm.map (·.2)).trans ?_
  rw [completed_results, List.map_append]
  exact h.results.append_right _

theorem SuiteRun.Announces.wellNested {fleet : Fleet σ} {plan : Plan} {order : Nat → Nat}
    {events : List Announcement} (h : (runSuite fleet plan order).Announces events) :
    ∃ between reports others,
      events = bracketed 0 .suiteStart .suiteEnd .suite
        (.suite (runSuite fleet plan order).result) between ∧
      WellNested fleet plan (runSuite fleet plan order) between reports others := by
  obtain ⟨between, hinterleaved, hevents⟩ := h
  obtain ⟨work, hnodup, hordered, hended⟩ := runStreams_ended fleet plan order
  have hfollow := hended.imp fun _ _ hrun => StreamRun.Ended.follows hrun
  obtain ⟨reports, others, hreported⟩ := follow_reportedBy hfollow fun share hshare item hitem =>
    (hordered share hshare).subset hitem
  obtain ⟨more, hresults, hmore⟩ := hreported.result_specs
  refine ⟨between, reports, more, hevents, ?_⟩
  -- each stream's events are one of the lists that are interleaved, under the stream's number
  have hlists : (reports.map fun report => (report.number, report.run.events)).map (·.2) =
      (runSuite fleet plan order).streams.map StreamRun.events := by
    show _ = (runStreams fleet plan order).map StreamRun.events
    rw [← hreported.runs_eq, List.map_map, List.map_map]
    rfl
  have hnumbers : (reports.map (·.number)).Nodup := by
    rw [hreported.numbers_eq]
    exact hnodup
  constructor
  case streams => exact hreported.runs_eq
  case numbers => exact hnumbers
  case covered =>
    intro e he
    obtain ⟨l, hl, he⟩ := hinterleaved.mem he
    rw [← hlists, List.map_map] at hl
    obtain ⟨report, hreport, rfl⟩ := List.mem_map.mp hl
    exact ⟨report, hreport, hreported.own report hreport e he⟩
  case events =>
    have hown : ∀ p ∈ reports.map fun report => (report.number, report.run.events),
        ∀ e ∈ p.2, Announcement.stream e = p.1 := by
      intro p hp e he
      obtain ⟨report, hreport, rfl⟩ := List.mem_map.mp hp
      exact hreported.own report hreport e he
    intro report hreport
    refine hinterleaved.filter_eq hlists ?_ hown (report.number, report.run.events)
      (List.mem_map_of_mem hreport)
    rw [List.map_map]
    exact hnumbers
  case nested => exact hreported.nested
  case results => exact hresults
  case others => exact hmore

/-! ## A listener on a fresh bus -/

/-- A fresh bus with one listener, who hears about every topic. -/
def oneListener : Bus := (({} : Bus).register []).2

/-- The bus of a run whose listener has heard these events. -/
def heard (events : List Announcement) : Bus where
  owned := true
  subscriptions := [⟨0, Topic.all⟩]
  receivers := [{ pending := events }]

theorem heard_notify (events : List Announcement) (e : Announcement) :
    (heard events).notify e = heard (events ++ [e]) := by
  simp [heard, Bus.notify, Bus.deliver, Bus.isDropped, Topic.mem_all]

theorem heard_notifyAll (events more : List Announcement) :
    (heard events).notifyAll more = heard (events ++ more) := by
  induction more generalizing events with
  | nil => rw [List.append_nil]; rfl
  | cons e rest ih =>
    show ((heard events).notify e).notifyAll rest = _
    rw [heard_notify, ih, List.append_assoc]
    rfl

theorem runOn_oneListener (fleet : Fleet σ) (plan : Plan) (order : Nat → Nat) :
    runOn oneListener fleet plan order =
      (execute fleet plan order).map fun run => (heard run.events, run) := by
  show ((execute fleet plan order).bind fun run =>
    some ((heard []).notifyAll run.events, run)) = _
  simp only [heard_notifyAll, List.nil_append, Option.map_eq_bind]
  rfl

/-- On a fresh bus a run is announced from the start of the suite to its end, unless the caller's own
task breaks down, and whatever way the events of its streams are interleaved, they are well nested.
-/
theorem run_events_well_nested (fleet : Fleet σ) (plan : Plan) (order : Nat → Nat) :
    ∃ bus run, run = runSuite fleet plan order ∧
      runOn oneListener fleet plan order =
        (if run.breaksDown plan then none else some (bus, run)) ∧
      run.Announces (bus.pending 0) ∧
      ∀ events, run.Announces events → ∃ between reports others,
        events = bracketed 0 .suiteStart .suiteEnd .suite (.suite run.result) between ∧
        WellNested fleet plan run between reports others := by
  refine ⟨heard (runSuite fleet plan order).events, runSuite fleet plan order, rfl, ?_, ?_, ?_⟩
  · rw [runOn_oneListener, execute]
    split <;> rfl
  · exact SuiteRun.announces_events _
  · exact fun events h => h.wellNested

end SpecEngine.Engine
