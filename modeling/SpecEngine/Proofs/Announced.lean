/-
# SpecEngine.Proofs.Announced -- what of a result is announced

The end of a specification and the end of a scenario carry their results, and the console prints a
text for each. One would expect that everything in the result of a run was announced so, once. Not
all of it is. What the events tell is the following: a specification that was run is told in full,
with each of its scenarios. One that was taken up and left out as a whole is only summed up, its end
being announced and those of its scenarios not. One that its stream could not take up at all, or
that no stream reports, is not told of. Events that carry results which are not those of the run
come from streams whose tasks broke down, as these hand in nothing.
-/
import Mathlib.Algebra.Order.Group.Multiset
import Mathlib.Tactic.Abel
import SpecEngine.Proofs.Nesting
import SpecEngine.Proofs.RecordedFailures
import SpecEngine.Report.Console

/-! ## Results that events carry -/

namespace SpecEngine.Event

open Result (SpecResult ScenarioResult)

namespace Announcement

/-- The result that the end of a specification carries. -/
def specResult? (e : Announcement) : Option SpecResult :=
  match e.topic, e.outcome with
  | .specEnd, some (.spec r) => some r
  | _, _ => none

/-- The result that the end of a scenario carries. -/
def scenarioResult? (e : Announcement) : Option ScenarioResult :=
  match e.topic, e.outcome with
  | .scenarioEnd, some (.scenario r) => some r
  | _, _ => none

end Announcement

/-- The results that the ends of specifications carry. -/
def specResults (events : List Announcement) : List SpecResult :=
  events.filterMap Announcement.specResult?

/-- The results that the ends of scenarios carry. -/
def scenarioResults (events : List Announcement) : List ScenarioResult :=
  events.filterMap Announcement.scenarioResult?

theorem specResults_append (es es' : List Announcement) :
    specResults (es ++ es') = specResults es ++ specResults es' := List.filterMap_append

theorem scenarioResults_append (es es' : List Announcement) :
    scenarioResults (es ++ es') = scenarioResults es ++ scenarioResults es' :=
  List.filterMap_append

end SpecEngine.Event

namespace SpecEngine.Report.Style

open Event (Announcement)

/-- The texts that are printed for the ends of specifications. -/
def specTexts (style : Style) (events : List Announcement) : List String :=
  (events.filter fun e => e.topic = .specEnd).filterMap style.eventText?

/-- The texts that are printed for the ends of scenarios. -/
def scenarioTexts (style : Style) (events : List Announcement) : List String :=
  (events.filter fun e => e.topic = .scenarioEnd).filterMap style.eventText?

/-- There is one text for each result of a specification that is carried. -/
theorem specTexts_length (style : Style) (events : List Announcement) :
    (style.specTexts events).length = (Event.specResults events).length := by
  rw [specTexts, Event.specResults, List.filterMap_filter, List.length_filterMap_eq_countP,
    List.length_filterMap_eq_countP]
  refine List.countP_congr fun e _ => ?_
  obtain ⟨topic, subject, outcome, stream⟩ := e
  cases topic <;> rcases outcome with _ | (_ | _ | _ | _) <;> exact Iff.rfl

/-- There is one text for each result of a scenario that is carried. -/
theorem scenarioTexts_length (style : Style) (events : List Announcement) :
    (style.scenarioTexts events).length = (Event.scenarioResults events).length := by
  rw [scenarioTexts, Event.scenarioResults, List.filterMap_filter,
    List.length_filterMap_eq_countP, List.length_filterMap_eq_countP]
  refine List.countP_congr fun e _ => ?_
  obtain ⟨topic, subject, outcome, stream⟩ := e
  cases topic <;> rcases outcome with _ | (_ | _ | _ | _) <;> exact Iff.rfl

end SpecEngine.Report.Style

namespace SpecEngine.Engine

open Item (Specification)
open Result (ScenarioResult SpecResult Failure StreamOutcome)
open Runner (Fleet Report)
open Event (Announcement Topic Subject Outcome specResults scenarioResults specResults_append
  scenarioResults_append)

variable {σ : Type}

/-! ## Blocks -/

theorem specResults_bracketed {stream : Nat} {start stop : Topic} {subject : Subject}
    {outcome : Outcome} {inner : List Announcement} :
    specResults (bracketed stream start stop subject outcome inner) =
      specResults [⟨start, subject, none, stream⟩] ++
        (specResults inner ++ specResults [⟨stop, subject, some outcome, stream⟩]) := by
  rw [bracketed, ← List.singleton_append, specResults_append, specResults_append]

theorem scenarioResults_bracketed {stream : Nat} {start stop : Topic} {subject : Subject}
    {outcome : Outcome} {inner : List Announcement} :
    scenarioResults (bracketed stream start stop subject outcome inner) =
      scenarioResults [⟨start, subject, none, stream⟩] ++
        (scenarioResults inner ++ scenarioResults [⟨stop, subject, some outcome, stream⟩]) := by
  rw [bracketed, ← List.singleton_append, scenarioResults_append, scenarioResults_append]

/-- Steps and concepts carry results of neither kind. -/
theorem StepEvents.results {stream : Nat} {fileName : String} {es : List Announcement}
    (h : StepEvents stream fileName es) : specResults es = [] ∧ scenarioResults es = [] := by
  induction h with
  | nil => exact ⟨rfl, rfl⟩
  | step r _ ih =>
    rw [specResults_append, scenarioResults_append, specResults_bracketed,
      scenarioResults_bracketed, ih.1, ih.2]
    exact ⟨rfl, rfl⟩
  | concept r _ _ hinner ih =>
    rw [specResults_append, scenarioResults_append, specResults_bracketed,
      scenarioResults_bracketed, hinner.1, hinner.2, ih.1, ih.2]
    exact ⟨rfl, rfl⟩

/-- The blocks of scenarios carry their results. -/
theorem scenarioBlocks_results {stream : Nat} {fileName : String} {rs : List ScenarioResult}
    {es : List Announcement} (h : Blocks (ScenarioEvents stream fileName) rs es) :
    specResults es = [] ∧ scenarioResults es = rs := by
  induction h with
  | nil => exact ⟨rfl, rfl⟩
  | cons hblock _ ih =>
    obtain ⟨hsteps⟩ := hblock
    rw [specResults_append, scenarioResults_append, specResults_bracketed,
      scenarioResults_bracketed, hsteps.results.1, hsteps.results.2, ih.1, ih.2]
    exact ⟨rfl, rfl⟩

/-! ## Gaps -/

/-- Why the end of a specification is announced and those of its scenarios are not: it was left out
as a whole after it was taken up. -/
inductive SummedUp (plan : Plan) : SpecResult → Prop
  | illFormed {spec : Specification} {errors : List Item.ParseError} : spec ∈ plan.specs →
      plan.buildErrors.ofSpec spec = some errors →
      SummedUp plan (.notExecuted spec "specification has build errors" errors)
  | dead {spec : Specification} : spec ∈ plan.specs → SummedUp plan (.notExecuted spec deadReason [])
  /-- The runner reported a failure on its opening announcement. -/
  | refused {spec : Specification} {report : Report} : spec ∈ plan.specs → report.failed = true →
      SummedUp plan (.ofRun spec (allSkipped spec "before spec hook failed")
        (some (.ofReport report "before spec hook failed")) 0)
  | unresolvable {spec : Specification} {fault : Special.Fault} : spec ∈ plan.specs →
      drivingRows plan spec = .error fault →
      SummedUp plan (.ofRun spec (allSkipped spec fault.text)
        (some { message := fault.text }) 0)

/-- Why not even the end of a specification is announced: no stream took it up. -/
inductive Untold (fleet : Fleet σ) (plan : Plan) (runs : List (StreamRun σ)) : SpecResult → Prop
  /-- It was assigned to a stream whose runner did not start. -/
  | unstarted {spec : Specification} {stream : Nat} {e : Runner.ProtocolError} :
      spec ∈ plan.specs → fleet.start stream = .error e →
      Untold fleet plan runs (.notExecuted spec e.text [])
  /-- It was assigned to a stream whose runner refused the execution. -/
  | refused {spec : Specification} {stream : Nat} {runner : σ} : spec ∈ plan.specs →
      fleet.start stream = .ok runner →
      (openingReport fleet.toBehavior plan stream runner).failed = true →
      Untold fleet plan runs (.notExecuted spec
        (refusalOf (openingReport fleet.toBehavior plan stream runner)).message [])
  /-- No stream reports it: the task of one broke down, or none could take more. -/
  | unreported {spec : Specification} : spec ∈ plan.specs →
      (∃ run ∈ runs, run.outcome = none) ∨ (∀ run ∈ runs, run.Spent fleet) →
      Untold fleet plan runs (.notExecuted spec unreportedReason [])

/-- What events tell of results. Some are told in full, some are only summed up, and some are not
told; the results that the events carry besides are those of lost events. -/
structure Tells (fleet : Fleet σ) (plan : Plan) (runs : List (StreamRun σ))
    (events lost : List Announcement) (results told summed untold : List SpecResult) : Prop where
  results : results.Perm (told ++ summed ++ untold)
  specs : (specResults events).Perm (told ++ summed ++ specResults lost)
  scenarios : (scenarioResults events).Perm (told.flatMap (·.scenarios) ++ scenarioResults lost)
  summed : ∀ r ∈ summed, SummedUp plan r
  untold : ∀ r ∈ untold, Untold fleet plan runs r

namespace Tells

variable {fleet : Fleet σ} {plan : Plan} {runs : List (StreamRun σ)}
variable {events events' lost lost' : List Announcement}
variable {results told summed untold results' told' summed' untold' : List SpecResult}

theorem nil : Tells fleet plan runs [] [] [] [] [] [] :=
  ⟨.nil, .nil, .nil, fun _ h => (List.not_mem_nil h).elim, fun _ h => (List.not_mem_nil h).elim⟩

/-- Lists in two parts each, rearranged part by part. -/
theorem perm_parts {α : Type} (as as' bs bs' cs cs' : List α) :
    (as ++ bs ++ cs ++ (as' ++ bs' ++ cs')).Perm ((as ++ as') ++ (bs ++ bs') ++ (cs ++ cs')) := by
  simp only [← Multiset.coe_eq_coe, ← Multiset.coe_add]
  abel

theorem append (h : Tells fleet plan runs events lost results told summed untold)
    (h' : Tells fleet plan runs events' lost' results' told' summed' untold') :
    Tells fleet plan runs (events ++ events') (lost ++ lost') (results ++ results')
      (told ++ told') (summed ++ summed') (untold ++ untold') where
  results := (h.results.append h'.results).trans (perm_parts ..)
  specs := by
    rw [specResults_append, specResults_append]
    exact (h.specs.append h'.specs).trans (perm_parts ..)
  scenarios := by
    rw [scenarioResults_append, scenarioResults_append, List.flatMap_append]
    have hparts := perm_parts (told.flatMap (·.scenarios)) (told'.flatMap (·.scenarios)) [] []
      (scenarioResults lost) (scenarioResults lost')
    simp only [List.append_nil] at hparts
    exact (h.scenarios.append h'.scenarios).trans hparts
  summed := List.forall_mem_append.mpr ⟨h.summed, h'.summed⟩
  untold := List.forall_mem_append.mpr ⟨h.untold, h'.untold⟩

/-- Neither the order of the events nor that of the results matters, nor do events that carry no
results. -/
theorem perm (h : Tells fleet plan runs events lost results told summed untold)
    (hspecs : (specResults events').Perm (specResults events))
    (hscenarios : (scenarioResults events').Perm (scenarioResults events))
    (hresults : results'.Perm results) :
    Tells fleet plan runs events' lost results' told summed untold :=
  ⟨hresults.trans h.results, hspecs.trans h.specs, hscenarios.trans h.scenarios, h.summed,
    h.untold⟩

/-- The results are told in full. -/
theorem inFull {r : SpecResult} (hspecs : specResults events = [r])
    (hscenarios : scenarioResults events = r.scenarios) :
    Tells fleet plan runs events [] [r] [r] [] [] where
  results := .refl _
  specs := by rw [hspecs]; exact .refl _
  scenarios := by
    rw [hscenarios, List.flatMap_singleton]
    exact List.Perm.of_eq (List.append_nil _).symm
  summed _ h := nomatch h
  untold _ h := nomatch h

/-- The result is summed up. -/
theorem summedUp {r : SpecResult} (hspecs : specResults events = [r])
    (hscenarios : scenarioResults events = []) (hr : SummedUp plan r) :
    Tells fleet plan runs events [] [r] [] [r] [] where
  results := .refl _
  specs := by rw [hspecs]; exact .refl _
  scenarios := by rw [hscenarios]; exact .refl _
  summed := List.forall_mem_singleton.mpr hr
  untold _ h := nomatch h

/-- The results are not told. -/
theorem leftUntold (hspecs : specResults events = []) (hscenarios : scenarioResults events = [])
    (h : ∀ r ∈ results, Untold fleet plan runs r) :
    Tells fleet plan runs events [] results [] [] results where
  results := .refl _
  specs := by rw [hspecs]; exact .refl _
  scenarios := by rw [hscenarios]; exact .refl _
  summed _ h := nomatch h
  untold := h

/-- The events are lost. -/
theorem allLost (events : List Announcement) : Tells fleet plan runs events events [] [] [] [] :=
  ⟨.refl _, .refl _, .refl _, fun _ h => (List.not_mem_nil h).elim,
    fun _ h => (List.not_mem_nil h).elim⟩

end Tells

/-! ## Specifications -/

section

variable {fleet : Fleet σ} {plan : Plan} {runs : List (StreamRun σ)}

theorem specHappenings_results (stream : Nat) (spec : Specification) (hs : List Happening)
    (r : SpecResult) :
    specResults (announcements stream (specHappenings spec hs r)) =
        specResults (announcements stream hs) ++ [r] ∧
      scenarioResults (announcements stream (specHappenings spec hs r)) =
        scenarioResults (announcements stream hs) := by
  rw [specHappenings, announcements_announcedAround, specResults_bracketed,
    scenarioResults_bracketed]
  exact ⟨rfl, List.append_nil _⟩

/-- A specification that is taken up is told in full or summed up. -/
theorem SpecHistory.tells {spec : Specification} {aborted : Bool} {hs : List Happening}
    {r : SpecResult} (stream : Nat) (hspec : spec ∈ plan.specs)
    (h : SpecHistory plan spec aborted hs r) :
    ∃ told summed, Tells fleet plan runs (announcements stream (specHappenings spec hs r)) [] [r]
      told summed [] := by
  obtain ⟨hspecs, hscenarios⟩ := specHappenings_results stream spec hs r
  cases h with
  | illFormed herrors => exact ⟨_, _, .summedUp hspecs hscenarios (.illFormed hspec herrors)⟩
  | dead _ _ => exact ⟨_, _, .summedUp hspecs hscenarios (.dead hspec)⟩
  | @takenUp before report body _ _ hs' after _ _ hbefore hbody hafter =>
    have hinner : announcements stream (before ++ body ++ hs') = announcements stream body := by
      rw [announcements_append, announcements_append,
        announcements_of_unannounced stream hbefore.unannounced,
        announcements_of_unannounced stream hafter.unannounced, List.nil_append, List.append_nil]
    rw [hinner] at hspecs hscenarios
    -- a failure that is already there stays the one of the specification
    have hclosed : ∀ failure : Failure, closedFailure after (some failure) = some failure :=
      fun _ => ite_self _
    cases hbody with
    | refused hfailed =>
      rw [hclosed] at hspecs hscenarios ⊢
      exact ⟨_, _, .summedUp hspecs hscenarios (.refused hspec hfailed)⟩
    | unresolvable _ hrows =>
      rw [hclosed] at hspecs hscenarios ⊢
      exact ⟨_, _, .summedUp hspecs hscenarios (.unresolvable hspec hrows)⟩
    | carriedOut _ _ hran =>
      have hblocks := scenarioBlocks_results (hran.events stream)
      rw [hblocks.1] at hspecs
      rw [hblocks.2] at hscenarios
      exact ⟨_, _, .inFull hspecs hscenarios⟩

theorem SpecsHistory.tells {aborted : Bool} {items : List Placed} {hs : List Happening}
    {entries : List (Nat × SpecResult)} (stream : Nat)
    (hitems : ∀ item ∈ items, item ∈ plan.indexed)
    (h : SpecsHistory plan aborted items hs entries) :
    ∃ told summed, Tells fleet plan runs (announcements stream hs) [] (entries.map (·.2)) told
      summed [] := by
  induction h with
  | nil => exact ⟨_, _, .nil⟩
  | cons hfirst _ ih =>
    obtain ⟨hitem, hrest⟩ := List.forall_mem_cons.mp hitems
    obtain ⟨told, summed, htells⟩ :=
      hfirst.tells stream (List.mem_of_getElem? (mem_indexed.mp hitem))
    obtain ⟨told', summed', htells'⟩ := ih hrest
    rw [announcements_append]
    exact ⟨_, _, htells.append htells'⟩

/-! ## Streams -/

/-- The events of a stream whose task broke down: it hands in nothing for them. -/
def StreamRun.lostEvents (run : StreamRun σ) : List Announcement :=
  if run.outcome.isNone then run.events else []

theorem untold_leftOut {items : List Placed} {reason : String}
    (hitems : ∀ item ∈ items, item ∈ plan.indexed)
    (h : ∀ spec ∈ plan.specs, Untold fleet plan runs (.notExecuted spec reason [])) :
    ∀ r ∈ (items.map (leftOut reason)).map (·.2), Untold fleet plan runs r := by
  intro r hr
  rw [List.map_map] at hr
  obtain ⟨item, hitem, rfl⟩ := List.mem_map.mp hr
  exact h item.2 (List.mem_of_getElem? (mem_indexed.mp (hitems item hitem)))

theorem StreamHistory.tells {stream : Nat} {items : List Placed} {trace : List Occurrence}
    {o : StreamOutcome} (h : StreamHistory fleet plan stream items trace o)
    (hitems : ∀ item ∈ items, item ∈ plan.indexed) :
    ∃ told summed untold, Tells fleet plan runs (trace.filterMap Occurrence.announcement?) []
      (o.results.map (·.2)) told summed untold := by
  cases h with
  | unstarted hstart =>
    exact ⟨_, _, _, .leftUntold rfl rfl
      (untold_leftOut hitems fun spec hspec => .unstarted hspec hstart)⟩
  | refused hstart hfailed =>
    exact ⟨_, _, _, .leftUntold rfl rfl
      (untold_leftOut hitems fun spec hspec => .refused hspec hstart hfailed)⟩
  | @served runner hs entries ending failure _ _ hspecs _ =>
    obtain ⟨told, summed, htells⟩ := hspecs.tells stream hitems
    rw [served_announcements]
    exact ⟨told, summed, [], htells⟩

theorem StreamRun.Follows.tells {stream : Nat} {items : List Placed} {run : StreamRun σ}
    (h : run.Follows fleet plan stream items) (hitems : ∀ item ∈ items, item ∈ plan.indexed) :
    ∃ told summed untold, Tells fleet plan runs run.events run.lostEvents
      ((run.outcome.toList.flatMap (·.results)).map (·.2)) told summed untold := by
  obtain ⟨trace, o, hhistory, hleaves⟩ := h
  cases hleaves with
  | whole houtcome htrace =>
    rw [StreamRun.lostEvents, houtcome, StreamRun.events_eq, htrace, Option.toList_some,
      List.flatMap_singleton]
    exact hhistory.tells hitems
  | brokenOff _ houtcome _ =>
    rw [StreamRun.lostEvents, houtcome]
    exact ⟨_, _, _, .allLost run.events⟩

theorem follow_tells {work : Work} {streams : List (StreamRun σ)}
    (h : List.Forall₂ (fun share run => StreamRun.Follows fleet plan share.1 share.2 run) work
      streams)
    (hwork : ∀ share ∈ work, ∀ item ∈ share.2, item ∈ plan.indexed) :
    ∃ told summed untold, Tells fleet plan runs (streams.flatMap StreamRun.events)
      (streams.flatMap StreamRun.lostEvents)
      (((streams.filterMap (·.outcome)).flatMap (·.results)).map (·.2)) told summed untold := by
  induction h with
  | nil => exact ⟨_, _, _, .nil⟩
  | cons hrun _ ih =>
    obtain ⟨hshare, hrest⟩ := List.forall_mem_cons.mp hwork
    obtain ⟨told, summed, untold, htells⟩ := hrun.tells hshare
    obtain ⟨told', summed', untold', htells'⟩ := ih hrest
    rw [filterMap_outcome_cons, List.flatMap_append, List.map_append, List.flatMap_cons,
      List.flatMap_cons]
    exact ⟨_, _, _, htells.append htells'⟩

end

/-! ## Runs -/

/-- The events of the streams, one stream after the other, tell of the result of the run. -/
theorem runStreams_tells (fleet : Fleet σ) (plan : Plan) (order : Nat → Nat) :
    let streams := runStreams fleet plan order
    ∃ told summed untold, Tells fleet plan streams (streams.flatMap StreamRun.events)
      (streams.flatMap StreamRun.lostEvents) (Result.merge (completed plan streams) 0).specs told
      summed untold := by
  intro streams
  obtain ⟨work, waiting, hdistributed⟩ := runStreams_distributed fleet plan order
  have hfollow := hdistributed.ended.imp fun _ _ hrun => StreamRun.Ended.follows hrun
  have hhandedIn : ∃ told summed untold, Tells fleet plan streams
      (streams.flatMap StreamRun.events) (streams.flatMap StreamRun.lostEvents)
      (((streams.filterMap (·.outcome)).flatMap (·.results)).map (·.2)) told summed untold :=
    follow_tells hfollow fun share hshare item hitem =>
      (hdistributed.ordered share hshare).subset hitem
  obtain ⟨told, summed, untold, htells⟩ := hhandedIn
  -- what no stream reports is not told either
  have hunreported : ∀ r ∈ (unreported plan (streams.filterMap (·.outcome))).results.map (·.2),
      Untold fleet plan streams r := by
    intro r hr
    obtain ⟨entry, hentry, rfl⟩ := List.mem_map.mp hr
    obtain ⟨item, hitem, rfl, hcause⟩ := hdistributed.unreported_cases entry hentry
    exact .unreported (List.mem_of_getElem? (mem_indexed.mp hitem)) hcause
  have hmore : Tells fleet plan streams [] [] _ [] [] _ := .leftUntold rfl rfl hunreported
  have hall := htells.append hmore
  rw [← List.map_append, ← completed_results] at hall
  simp only [List.append_nil] at hall
  obtain ⟨entries, hperm, hspecs⟩ := merge_specs (completed plan streams) 0
  refine ⟨told, summed, _, hall.perm (.refl _) (.refl _) ?_⟩
  rw [hspecs]
  exact hperm.map (·.2)

/-- The events of a suite carry the results that those of its streams carry. -/
theorem SuiteRun.Announces.results {run : SuiteRun σ} {events : List Announcement}
    (h : run.Announces events) :
    (specResults events).Perm (specResults (run.streams.flatMap StreamRun.events)) ∧
      (scenarioResults events).Perm
        (scenarioResults (run.streams.flatMap StreamRun.events)) := by
  obtain ⟨between, hinterleaved, rfl⟩ := h
  have hperm := hinterleaved.perm
  rw [← List.flatMap_def] at hperm
  rw [specResults_bracketed, scenarioResults_bracketed]
  refine ⟨(List.Perm.of_eq ?_).trans (hperm.filterMap _),
    (List.Perm.of_eq ?_).trans (hperm.filterMap _)⟩
  · exact List.append_nil _
  · exact List.append_nil _

/-- What a run announces tells of its result, but for three gaps. Every specification that was run
is told in full: its end and those of its scenarios carry its results, once. One that was left out
as a whole after it was taken up is only summed up, without its scenarios. One that no stream took
up is not told. Besides, only the events of streams whose tasks broke down carry results. The
console prints one text for each result that is carried. -/
theorem results_announced (fleet : Fleet σ) (plan : Plan) (order : Nat → Nat)
    (events : List Announcement) (h : (runSuite fleet plan order).Announces events) :
    let run := runSuite fleet plan order
    ∃ told summed untold,
      Tells fleet plan run.streams events (run.streams.flatMap StreamRun.lostEvents)
        run.result.specs told summed untold ∧
      ∀ style : Report.Style, (style.specTexts events).length = (specResults events).length ∧
        (style.scenarioTexts events).length = (scenarioResults events).length := by
  intro run
  obtain ⟨told, summed, untold, htells⟩ := runStreams_tells fleet plan order
  obtain ⟨hspecs, hscenarios⟩ := h.results
  refine ⟨told, summed, untold, htells.perm hspecs hscenarios (.refl _), fun style => ?_⟩
  exact ⟨style.specTexts_length events, style.scenarioTexts_length events⟩

theorem SummedUp.skipped_or_failed {plan : Plan} {r : SpecResult} (h : SummedUp plan r) :
    r.skipped = true ∨ r.failed = true := by
  cases h with
  | illFormed _ _ => exact .inl rfl
  | dead _ => exact .inl rfl
  | refused _ _ => exact .inr (Bool.or_true _)
  | unresolvable _ _ => exact .inr (Bool.or_true _)

theorem Untold.skipped {fleet : Fleet σ} {plan : Plan} {runs : List (StreamRun σ)}
    {r : SpecResult} (h : Untold fleet plan runs r) : r.skipped = true := by
  cases h <;> rfl

/-- A run in which everything passes is announced in full. -/
theorem passing_run_announced :
    let run := runSuite passingFleet twoSpecs id
    run.Announces run.events ∧ (specResults run.events).Perm run.result.specs ∧
      (scenarioResults run.events).Perm (run.result.specs.flatMap (·.scenarios)) := by
  intro run
  obtain ⟨told, summed, untold, htells, -⟩ :=
    results_announced passingFleet twoSpecs id run.events run.announces_events
  have hpassed : ∀ o ∈ completed twoSpecs (runStreams passingFleet twoSpecs id),
      ∀ entry ∈ o.results, entry.2.skipped = false ∧ entry.2.failed = false := by decide +kernel
  have hends : ∀ stream ∈ runStreams passingFleet twoSpecs id,
      stream.outcome.isNone = false := by decide +kernel
  -- every result is of a specification that passed, so none falls into a gap
  have hnone : ∀ r ∈ summed ++ untold, r.skipped = false ∧ r.failed = false := by
    intro r hr
    have hresult : r ∈ run.result.specs := by
      refine htells.results.symm.subset ?_
      rw [List.append_assoc]
      exact List.mem_append_right told hr
    obtain ⟨o, ho, entry, hentry, rfl⟩ := (mem_merge_specs 0).mp hresult
    exact hpassed o ho entry hentry
  have hsummed : summed = [] := by
    refine List.eq_nil_iff_forall_not_mem.mpr fun r hr => ?_
    obtain ⟨hskipped, hfailed⟩ := hnone r (List.mem_append_left untold hr)
    rcases (htells.summed r hr).skipped_or_failed with hgap | hgap
    · exact Bool.false_ne_true (hskipped.symm.trans hgap)
    · exact Bool.false_ne_true (hfailed.symm.trans hgap)
  have huntold : untold = [] := by
    refine List.eq_nil_iff_forall_not_mem.mpr fun r hr => ?_
    obtain ⟨hskipped, -⟩ := hnone r (List.mem_append_right summed hr)
    exact Bool.false_ne_true (hskipped.symm.trans (htells.untold r hr).skipped)
  have hlost : run.streams.flatMap StreamRun.lostEvents = [] := by
    refine List.flatMap_eq_nil_iff.mpr fun stream hstream => ?_
    rw [StreamRun.lostEvents, hends stream hstream]
    rfl
  obtain ⟨hresults, hspecs, hscenarios, -, -⟩ := htells
  rw [hsummed, huntold, List.append_nil, List.append_nil] at hresults
  rw [hsummed, hlost, List.append_nil] at hspecs
  rw [hlost] at hscenarios
  refine ⟨run.announces_events, ?_, ?_⟩
  · exact (hspecs.trans (List.Perm.of_eq (List.append_nil told))).trans hresults.symm
  · exact (hscenarios.trans (List.Perm.of_eq (List.append_nil _))).trans
      (hresults.symm.flatMap_right _)

/-- A run whose only runner does not start has the results of two specifications and announces
neither. One whose runner refuses both specifications announces them and none of their scenarios. -/
theorem skipped_results_unannounced :
    let absent := runSuite absentFleet twoSpecs id
    let refused := runSuite (refusingFleet startsSpec) twoSpecs id
    (absent.result.specs.length = 2 ∧ ∀ events, absent.Announces events →
        specResults events = [] ∧ ¬(specResults events).Perm absent.result.specs) ∧
      ∀ events, refused.Announces events →
        (specResults events).length = 2 ∧ scenarioResults events = [] ∧
          ¬(scenarioResults events).Perm (refused.result.specs.flatMap (·.scenarios)) := by
  intro absent refused
  have hlength : absent.result.specs.length = 2 := by
    have hresult : absent.result = _ := runSequential_unstarted twoSpecs rfl
    rw [hresult]
    rfl
  refine ⟨⟨hlength, fun events hevents => ?_⟩, fun events hevents => ?_⟩
  · have hnone := hevents.results.1.eq_nil
    refine ⟨hnone, fun hperm => ?_⟩
    rw [← hperm.length_eq, hnone] at hlength
    cases hlength
  · obtain ⟨hspecs, hscenarios⟩ := hevents.results
    refine ⟨hspecs.length_eq, hscenarios.eq_nil, fun hperm => ?_⟩
    rw [hscenarios.eq_nil] at hperm
    have hresults : refused.result.specs.Perm _ :=
      merge_results_perm (completed twoSpecs (runStreams (refusingFleet startsSpec) twoSpecs id)) 0
    have hcount := ((hresults.flatMap_right (·.scenarios)).length_eq.symm.trans
      hperm.symm.length_eq)
    revert hcount
    decide +kernel

end SpecEngine.Engine
