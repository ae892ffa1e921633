/-
# SpecEngine.Proofs.Containment -- build errors stay where they are

Build errors keep a runner from what is faulty and from nothing else. A specification with errors of
its own is left out without a word to the runner. A scenario with errors is skipped, for every row
that it would have run for, and what is next to it is run as if nothing was wrong.

The latter is about two runs, one of which has further errors that are filed under scenarios. With a
runner that lives and answers by the message alone, an activity has one value and one list of
messages, whatever happened before (`Yields`). So the two runs need not be compared session by
session: each falls into parts, one for each scenario result with what the runner was told for it,
and the parts correspond. Those with further errors are skipped in silence, the others are the same.
-/
import SpecEngine.Proofs.Obstacles
import SpecEngine.Proofs.Isolation
import SpecEngine.Proofs.Lifecycle
import SpecEngine.Proofs.ResultTree

/-! ## Further errors -/

namespace SpecEngine.Item.BuildErrors

/-- How build errors name a scenario: by its file and line. -/
abbrev Key := String × UInt64

/-- Errors that are filed under scenarios. -/
def ofScenarios (errors : List (Key × ParseError)) : BuildErrors :=
  ⟨errors.map fun e => (.scenario e.1.1 e.1.2, e.2)⟩

theorem under_merge (errors others : BuildErrors) (subject : Subject) :
    (errors.merge others).under subject = errors.under subject ++ others.under subject := by
  rw [under, merge, List.filter_append, List.map_append]
  rfl

/-- Errors of scenarios are none of a specification. -/
theorem ofSpec_merge_ofScenarios (found : BuildErrors) (errors : List (Key × ParseError))
    (spec : Specification) :
    (found.merge (ofScenarios errors)).ofSpec spec = found.ofSpec spec := by
  have hnone : (ofScenarios errors).under (.spec spec.fileName) = [] := by
    rw [under, List.map_eq_nil_iff, List.filter_eq_nil_iff]
    intro e he
    obtain ⟨error, -, rfl⟩ := List.mem_map.mp he
    simp
  rw [ofSpec, under_merge, hnone, List.append_nil, ofSpec]

theorem ofScenario_isSome {found : BuildErrors} {spec : Specification} {sc : Scenario} :
    (found.ofScenario spec sc).isSome = true ↔
      ∃ e ∈ found.log, e.1 = .scenario spec.fileName sc.line := by
  have hfiled : found.under (.scenario spec.fileName sc.line) = [] ↔
      ¬∃ e ∈ found.log, e.1 = .scenario spec.fileName sc.line := by
    rw [under, List.map_eq_nil_iff, List.filter_eq_nil_iff, not_exists]
    refine forall_congr' fun e => ?_
    rw [not_and, beq_iff_eq]
  rw [ofScenario]
  split
  next hnone => simp [hfiled.mp hnone]
  next hsome =>
    rw [Option.isSome_some, eq_self, true_iff]
    exact not_not.mp (mt hfiled.mpr hsome)

/-- A scenario has errors if it had some before or is among those with further errors. -/
theorem ofScenario_merge_ofScenarios {found : BuildErrors} {errors : List (Key × ParseError)}
    {spec : Specification} {sc : Scenario} :
    ((found.merge (ofScenarios errors)).ofScenario spec sc).isSome = true ↔
      (found.ofScenario spec sc).isSome = true ∨ (spec.fileName, sc.line) ∈ errors.map (·.1) := by
  simp only [ofScenario_isSome, merge, ofScenarios, List.mem_append, or_and_right, exists_or,
    List.mem_map, exists_exists_and_eq_and]
  refine or_congr_right (exists_congr fun e => and_congr_right fun _ => ?_)
  rw [Subject.scenario.injEq, Prod.ext_iff]

end SpecEngine.Item.BuildErrors

namespace SpecEngine.Engine

open Item (Scenario Specification ParseError)
open Item.BuildErrors (Key)
open Result (ScenarioResult SpecResult Failure Status)
open Runner (Behavior Fleet Message ProtocolError)

variable {σ τ : Type}

/-- The plan with further errors that are filed under scenarios. -/
def Plan.withErrors (plan : Plan) (errors : List (Key × ParseError)) : Plan :=
  { plan with buildErrors := plan.buildErrors.merge (.ofScenarios errors) }

theorem withErrors_sameWork (plan : Plan) (errors : List (Key × ParseError)) :
    (plan.withErrors errors).SameWork plan := ⟨rfl, rfl, rfl, rfl⟩

/-- The scenario is among those with further errors. -/
def Blamed (errors : List (Key × ParseError)) (spec : Specification) (sc : Scenario) : Prop :=
  (spec.fileName, sc.line) ∈ errors.map (·.1)

/-! ## Parts -/

/-- A result of a scenario with what the runner was told for it. -/
structure Part where
  result : ScenarioResult
  told : List Message

/-- The part is one of the scenario, for the table row at a position or for none. -/
structure Part.Of (spec : Specification) (sc : Scenario) (row : Option Nat) (p : Part) : Prop where
  mirrors : p.result.Mirrors sc row
  told : ∃ attempts, Blocks (AttemptBlock spec) (List.replicate attempts sc) p.told

/-- A part of a run and the same part when there are further errors. -/
inductive Part.Contained (errors : List (Key × ParseError)) (spec : Specification) :
    Part → Part → Prop
  | skipped {sc : Scenario} {row : Option Nat} {p p' : Part} : sc ∈ spec.scenarios →
      Blamed errors spec sc → p.Of spec sc row → p'.Of spec sc row →
      p'.result.status = .skipped → p'.told = [] → Contained errors spec p p'
  | kept {sc : Scenario} {row : Option Nat} {p : Part} : sc ∈ spec.scenarios →
      ¬Blamed errors spec sc → p.Of spec sc row → Contained errors spec p p

/-- A part for a scenario that is not run. -/
def Part.notRun (sc : Scenario) (row : Option Nat) (reason : String) : Part :=
  ⟨.notExecuted sc row reason, []⟩

theorem Part.notRun_of (spec : Specification) (sc : Scenario) (row : Option Nat)
    (reason : String) : (Part.notRun sc row reason).Of spec sc row :=
  ⟨ScenarioResult.notExecuted_mirrors sc row reason, 0, .nil⟩

/-- What is not run in either run is contained. -/
theorem Part.notRun_contained (errors : List (Key × ParseError)) {spec : Specification}
    {sc : Scenario} (hsc : sc ∈ spec.scenarios) (row : Option Nat) (reason : String) :
    Contained errors spec (Part.notRun sc row reason) (Part.notRun sc row reason) := by
  have hof := Part.notRun_of spec sc row reason
  by_cases hblamed : Blamed errors spec sc
  · exact .skipped hsc hblamed hof hof rfl rfl
  · exact .kept hsc hblamed hof

/-- The runner is told of the beginning and the end of a specification, or of neither. -/
def Bracket (spec : Specification) (start ending : List Message) : Prop :=
  start = [] ∧ ending = [] ∨
    start = [.specStarting spec.fileName spec.heading spec.tags] ∧
      ending = [.specEnding spec.fileName spec.heading spec.tags]

/-- Two runs of a specification, without and with further errors. They fall into corresponding parts
between the same announcements. -/
structure SpecContained (errors : List (Key × ParseError)) (spec : Specification)
    (r r' : SpecResult) (told told' : List Message) : Prop where
  parts : ∃ (start ending : List Message) (parts parts' : List Part),
    Bracket spec start ending ∧ List.Forall₂ (Part.Contained errors spec) parts parts' ∧
    r.scenarios = parts.map (·.result) ∧ r'.scenarios = parts'.map (·.result) ∧
    told = start ++ parts.flatMap (·.told) ++ ending ∧
    told' = start ++ parts'.flatMap (·.told) ++ ending
  failure : r'.failure = r.failure
  errors : r'.errors = r.errors

/-! ## Activities in parts -/

/-- Both activities come to a part, and the parts correspond. -/
def YieldPart (fleet : Fleet σ) (Q : Part → Part → Prop) (act act' : Activity σ ScenarioResult) :
    Prop :=
  ∃ p p', Yields fleet act p.result p.told ∧ Yields fleet act' p'.result p'.told ∧ Q p p'

/-- Both activities come to parts, one after the other, and the parts correspond. -/
def YieldParts (fleet : Fleet σ) (Q : Part → Part → Prop)
    (act act' : Activity σ (List ScenarioResult)) : Prop :=
  ∃ parts parts', Yields fleet act (parts.map (·.result)) (parts.flatMap (·.told)) ∧
    Yields fleet act' (parts'.map (·.result)) (parts'.flatMap (·.told)) ∧
    List.Forall₂ Q parts parts'

section

variable {fleet : Fleet σ} {Q : Part → Part → Prop}

theorem YieldParts.nil : YieldParts fleet Q (pure []) (pure []) :=
  ⟨[], [], .pure [], .pure [], .nil⟩

theorem YieldPart.single {act act' : Activity σ ScenarioResult} (h : YieldPart fleet Q act act') :
    YieldParts fleet Q (do pure [← act]) (do pure [← act']) := by
  obtain ⟨p, p', hp, hp', hQ⟩ := h
  refine ⟨[p], [p'], ?_, ?_, .cons hQ .nil⟩
  · rw [List.flatMap_singleton]
    exact hp.returning
  · rw [List.flatMap_singleton]
    exact hp'.returning

theorem YieldPart.cons {act act' : Activity σ ScenarioResult}
    {rest rest' : Activity σ (List ScenarioResult)} (h : YieldPart fleet Q act act')
    (hrest : YieldParts fleet Q rest rest') :
    YieldParts fleet Q (do let r ← act; let rs ← rest; pure (r :: rs))
      (do let r ← act'; let rs ← rest'; pure (r :: rs)) := by
  obtain ⟨p, p', hp, hp', hQ⟩ := h
  obtain ⟨parts, parts', hparts, hparts', hQs⟩ := hrest
  exact ⟨p :: parts, p' :: parts', hp.bind hparts.returning, hp'.bind hparts'.returning,
    .cons hQ hQs⟩

theorem YieldParts.append {act act' rest rest' : Activity σ (List ScenarioResult)}
    (h : YieldParts fleet Q act act') (hrest : YieldParts fleet Q rest rest') :
    YieldParts fleet Q (do let rs ← act; let more ← rest; pure (rs ++ more))
      (do let rs ← act'; let more ← rest'; pure (rs ++ more)) := by
  obtain ⟨parts, parts', hparts, hparts', hQ⟩ := h
  obtain ⟨others, others', hothers, hothers', hQs⟩ := hrest
  refine ⟨parts ++ others, parts' ++ others', ?_, ?_, List.rel_append hQ hQs⟩
  · rw [List.map_append, List.flatMap_append]
    exact hparts.bind hothers.returning
  · rw [List.map_append, List.flatMap_append]
    exact hparts'.bind hothers'.returning

end

/-! ## Scenarios -/

section

variable {reply : Message → Except ProtocolError Message} {plan : Plan}

theorem blankSession_live (reply : Message → Except ProtocolError Message) :
    blankSession.Live (Fleet.answering reply) 0 := by
  have hstart : (Fleet.answering reply).start 0 = .ok () := rfl
  exact ⟨rfl, .start hstart, rfl⟩

theorem runScenario_of {spec : Specification} {sc : Scenario} {row : Option Table.Row}
    {r : ScenarioResult} {ms : List Message}
    (h : Yields (Fleet.answering reply)
      (runScenario (Fleet.answering reply).toBehavior plan spec sc row) r ms) :
    Part.Of spec sc (row.map (·.index)) ⟨r, ms⟩ := by
  obtain ⟨rfl, -, hoffers⟩ := h (blankSession_live reply)
  obtain ⟨hs, hhappens, hhistory⟩ := runScenario_history (Fleet.answering reply).toBehavior plan
    spec sc row blankSession
  refine ⟨runScenario_mirrors _ plan spec sc row blankSession, ?_⟩
  obtain rfl : messages hs = ms :=
    List.append_cancel_left (hhappens.offers_eq.symm.trans hoffers)
  exact hhistory.attempts_blocks

theorem skipScenario_yields {fleet : Fleet σ} (spec : Specification) (sc : Scenario)
    (row : Option Table.Row) (reason : String) :
    Yields fleet (skipScenario spec sc row reason)
      (.notExecuted sc (row.map (·.index)) reason) [] :=
  .after (.announce ..) (.after (.announce ..) (.pure _))

theorem runScenario_illFormed {spec : Specification} {sc : Scenario} (row : Option Table.Row)
    (h : (plan.buildErrors.ofScenario spec sc).isSome = true) :
    Yields (Fleet.answering reply)
      (runScenario (Fleet.answering reply).toBehavior plan spec sc row)
      (.notExecuted sc (row.map (·.index)) "scenario has build errors") [] := by
  rw [runScenario, if_pos h]
  exact skipScenario_yields spec sc row _

/-- A scenario without errors is run in the same way by all plans that ask for the same work. -/
theorem runScenario_attempted (reply : Message → Except ProtocolError Message) (plan : Plan)
    (spec : Specification) (sc : Scenario) (row : Option Table.Row) :
    ∃ r ms, ∀ {plan' : Plan}, plan'.SameWork plan →
      (plan'.buildErrors.ofScenario spec sc).isSome = false →
      Yields (Fleet.answering reply)
        (runScenario (Fleet.answering reply).toBehavior plan' spec sc row) r ms := by
  let b := (Fleet.answering reply).toBehavior
  let limit := attemptLimit plan spec sc - 1
  let run := attempts b plan spec sc row 1 limit blankSession
  refine ⟨run.1, run.2.offers, fun {plan'} same h => ?_⟩
  have hattempts : Yields (Fleet.answering reply) (attempts b plan' spec sc row 1 limit) run.1
      run.2.offers :=
    .of_lockstep fun stream before =>
      (undying_lockstep (Fleet.answering_undying reply) stream before).attempts same sc 1 limit
  rw [runScenario, if_neg (Bool.not_eq_true _ ▸ h), same.attemptLimit]
  -- what is announced before and after the attempts offers nothing
  exact .after .isAborted (.after (.announce ..)
    (hattempts.before (.after (.announce ..) (.pure _))))

variable (errors : List (Key × ParseError))

/-- A scenario with further errors is skipped, and one without them is run as before. -/
theorem runScenario_contained {spec : Specification} {sc : Scenario} (hsc : sc ∈ spec.scenarios)
    (row : Option Table.Row) :
    YieldPart (Fleet.answering reply) (Part.Contained errors spec)
      (runScenario (Fleet.answering reply).toBehavior plan spec sc row)
      (runScenario (Fleet.answering reply).toBehavior (plan.withErrors errors) spec sc row) := by
  have hfurther : ((plan.withErrors errors).buildErrors.ofScenario spec sc).isSome = true ↔
      (plan.buildErrors.ofScenario spec sc).isSome = true ∨ Blamed errors spec sc :=
    Item.BuildErrors.ofScenario_merge_ofScenarios
  cases hill : (plan.buildErrors.ofScenario spec sc).isSome with
  | true =>
    exact ⟨_, _, runScenario_illFormed row hill,
      runScenario_illFormed row (hfurther.mpr (.inl hill)),
      Part.notRun_contained errors hsc (row.map (·.index)) _⟩
  | false =>
    obtain ⟨r, ms, hattempted⟩ := runScenario_attempted reply plan spec sc row
    have hrun := hattempted (.refl plan) hill
    have hof := runScenario_of hrun
    by_cases hblamed : Blamed errors spec sc
    · exact ⟨⟨r, ms⟩, _, hrun, runScenario_illFormed row (hfurther.mpr (.inr hblamed)),
        .skipped hsc hblamed hof (Part.notRun_of spec sc (row.map (·.index)) _) rfl rfl⟩
    · have hwell : ((plan.withErrors errors).buildErrors.ofScenario spec sc).isSome = false := by
        rw [← Bool.not_eq_true, hfurther, hill]
        simp [hblamed]
      exact ⟨⟨r, ms⟩, ⟨r, ms⟩, hrun, hattempted (withErrors_sameWork plan errors) hwell,
        .kept hsc hblamed hof⟩

/-! ## Specifications -/

theorem runRows_contained {spec : Specification} {sc : Scenario} (hsc : sc ∈ spec.scenarios)
    (rows : List Table.Row) :
    YieldParts (Fleet.answering reply) (Part.Contained errors spec)
      (runRows (Fleet.answering reply).toBehavior plan spec sc rows)
      (runRows (Fleet.answering reply).toBehavior (plan.withErrors errors) spec sc rows) := by
  induction rows with
  | nil => exact .nil
  | cons row rest ih => exact (runScenario_contained errors hsc (some row)).cons ih

theorem runForTable_contained {spec : Specification} {sc : Scenario} (hsc : sc ∈ spec.scenarios)
    (rows : Option (List Table.Row)) :
    YieldParts (Fleet.answering reply) (Part.Contained errors spec)
      (runForTable (Fleet.answering reply).toBehavior plan spec rows sc)
      (runForTable (Fleet.answering reply).toBehavior (plan.withErrors errors) spec rows sc) := by
  simp only [runForTable]
  split
  · -- no row is selected, so both runs skip the scenario once
    exact YieldPart.single ⟨_, _, skipScenario_yields spec sc none _,
      skipScenario_yields spec sc none _, Part.notRun_contained errors hsc none _⟩
  · exact runRows_contained errors hsc _
  · exact (runScenario_contained errors hsc none).single

theorem runScenarios_contained {spec : Specification} (rows : Option (List Table.Row))
    {scenarios : List Scenario} (hscenarios : ∀ sc ∈ scenarios, sc ∈ spec.scenarios) :
    YieldParts (Fleet.answering reply) (Part.Contained errors spec)
      (runScenarios (Fleet.answering reply).toBehavior plan spec rows scenarios)
      (runScenarios (Fleet.answering reply).toBehavior (plan.withErrors errors) spec rows
        scenarios) := by
  induction scenarios with
  | nil => exact .nil
  | cons sc rest ih =>
    obtain ⟨hsc, hrest⟩ := List.forall_mem_cons.mp hscenarios
    exact (runForTable_contained errors hsc rows).append (ih hrest)

/-- The parts of a specification none of whose scenarios is run. -/
theorem allSkipped_contained (spec : Specification) (reason : String) :
    ∃ parts : List Part, allSkipped spec reason = parts.map (·.result) ∧
      parts.flatMap (·.told) = [] ∧ List.Forall₂ (Part.Contained errors spec) parts parts := by
  refine ⟨spec.scenarios.map fun sc => .notRun sc none reason, ?_, ?_, ?_⟩
  · rw [List.map_map]
    rfl
  · rw [List.flatMap_map]
    exact List.flatMap_eq_nil_iff.mpr fun _ _ => rfl
  · rw [List.forall₂_same, List.forall_mem_map]
    exact fun sc hsc => Part.notRun_contained errors hsc none reason

theorem allSkipped_yields (fleet : Fleet σ) (spec : Specification) (reason : String)
    (failure : Option Failure) :
    ∃ parts : List Part,
      Yields fleet (pure (allSkipped spec reason, failure)) (parts.map (·.result), failure)
        (parts.flatMap (·.told)) ∧
      List.Forall₂ (Part.Contained errors spec) parts parts := by
  obtain ⟨parts, hresults, htold, hparts⟩ := allSkipped_contained errors spec reason
  rw [hresults]
  exact ⟨parts, htold ▸ .pure _, hparts⟩

/-- A specification that is left out is so in both runs. -/
theorem notExecuted_contained (spec : Specification) (reason : String) (es : List ParseError) :
    SpecContained errors spec (.notExecuted spec reason es) (.notExecuted spec reason es) []
      [] := by
  obtain ⟨parts, hresults, htold, hparts⟩ := allSkipped_contained errors spec reason
  refine ⟨⟨[], [], parts, parts, .inl ⟨rfl, rfl⟩, hparts, hresults, hresults, ?_⟩, rfl, rfl⟩
  rw [htold]
  exact ⟨rfl, rfl⟩

/-- What is done between the announcements of a specification whose opening comes to this report. -/
def bodyAfter (b : Behavior σ) (plan : Plan) (spec : Specification) (before : Runner.Report) :
    Activity σ (List ScenarioResult × Option Failure) :=
  if before.failed then
    pure (allSkipped spec "before spec hook failed",
      some (.ofReport before "before spec hook failed"))
  else runBody b plan spec

theorem bodyAfter_contained (reply : Message → Except ProtocolError Message) (plan : Plan)
    (spec : Specification) (before : Runner.Report) :
    ∃ parts parts' failure,
      Yields (Fleet.answering reply)
        (bodyAfter (Fleet.answering reply).toBehavior plan spec before)
        (parts.map (·.result), failure) (parts.flatMap (·.told)) ∧
      Yields (Fleet.answering reply)
        (bodyAfter (Fleet.answering reply).toBehavior (plan.withErrors errors) spec before)
        (parts'.map (·.result), failure) (parts'.flatMap (·.told)) ∧
      List.Forall₂ (Part.Contained errors spec) parts parts' := by
  simp only [bodyAfter]
  split
  · obtain ⟨parts, hyields, hparts⟩ := allSkipped_yields errors (Fleet.answering reply) spec
      "before spec hook failed" (some (.ofReport before "before spec hook failed"))
    exact ⟨parts, parts, _, hyields, hyields, hparts⟩
  · simp only [runBody, (withErrors_sameWork plan errors).drivingRows]
    cases drivingRows plan spec with
    | error fault =>
      obtain ⟨parts, hyields, hparts⟩ := allSkipped_yields errors (Fleet.answering reply) spec
        fault.text
        (some { message := fault.text })
      exact ⟨parts, parts, _, hyields, hyields, hparts⟩
    | ok rows =>
      have hran : YieldParts (Fleet.answering reply) (Part.Contained errors spec)
          (runScenarios _ plan spec rows spec.scenarios)
          (runScenarios _ (plan.withErrors errors) spec rows spec.scenarios) :=
        runScenarios_contained errors rows fun _ h => h
      obtain ⟨parts, parts', hyields, hyields', hparts⟩ := hran
      exact ⟨parts, parts', none, hyields.returning, hyields'.returning, hparts⟩

/-- What a specification that is taken up comes to. -/
theorem takeUp_yields {fleet : Fleet σ} (undying : fleet.Undying reply) {plan : Plan}
    {spec : Specification} {scenarios : List ScenarioResult} {failure : Option Failure}
    {ms : List Message}
    (h : Yields fleet (bodyAfter fleet.toBehavior plan spec
      (Runner.reportOf (reply (.specStarting spec.fileName spec.heading spec.tags))))
      (scenarios, failure) ms) :
    Yields fleet (takeUp fleet.toBehavior plan spec)
      (.ofRun spec scenarios (closedFailure
        (Runner.reportOf (reply (.specEnding spec.fileName spec.heading spec.tags))) failure) 0)
      ([.specStarting spec.fileName spec.heading spec.tags] ++
        (ms ++ [.specEnding spec.fileName spec.heading spec.tags])) := by
  refine (Yields.hook undying _).bind ?_
  have hend := Yields.hook undying (.specEnding spec.fileName spec.heading spec.tags)
  rw [bodyAfter] at h
  dsimp only
  split
  next hrefused =>
    rw [if_pos hrefused] at h
    exact h.bind hend.returning
  next hpassed =>
    rw [if_neg hpassed] at h
    exact h.bind hend.returning

theorem runSpec_illFormed (fleet : Fleet σ) {plan : Plan} {spec : Specification}
    {es : List ParseError} (h : plan.buildErrors.ofSpec spec = some es) :
    Yields fleet (runSpec fleet.toBehavior plan spec)
      (.notExecuted spec "specification has build errors" es) [] := by
  simp only [runSpec, h]
  exact .pure _

theorem runSpec_takenUp {fleet : Fleet σ} {plan : Plan} {spec : Specification} {r : SpecResult}
    {ms : List Message} (hwell : plan.buildErrors.ofSpec spec = none)
    (h : Yields fleet (takeUp fleet.toBehavior plan spec) r ms) :
    Yields fleet (runSpec fleet.toBehavior plan spec) r ms := by
  simp only [runSpec, hwell]
  exact .after .isAborted h

/-- A runner without a state shows what a specification comes to. -/
theorem steady_of_yields {plan : Plan} {spec : Specification} {r : SpecResult} {ms : List Message}
    (h : Yields (Fleet.answering reply)
      (runSpec (Fleet.answering reply).toBehavior plan spec) r ms) :
    steadyResult reply plan spec = r ∧ steadyOffers reply plan spec = ms := by
  have hannounced : Yields (Fleet.answering reply)
      (announcedSpec (Fleet.answering reply).toBehavior plan spec) r ms :=
    .after (.announce ..) (h.before (.after (.announce ..) (.pure r)))
  obtain ⟨hresult, -, hoffers⟩ := hannounced (blankSession_live reply)
  exact ⟨hresult, hoffers⟩

/-- Further errors of scenarios make a difference to these scenarios only. -/
theorem steady_contained (reply : Message → Except ProtocolError Message) (plan : Plan)
    (spec : Specification) :
    SpecContained errors spec (steadyResult reply plan spec)
      (steadyResult reply (plan.withErrors errors) spec) (steadyOffers reply plan spec)
      (steadyOffers reply (plan.withErrors errors) spec) := by
  have hof : (plan.withErrors errors).buildErrors.ofSpec spec = plan.buildErrors.ofSpec spec :=
    Item.BuildErrors.ofSpec_merge_ofScenarios plan.buildErrors errors spec
  cases hill : plan.buildErrors.ofSpec spec with
  | some es =>
    -- errors of the specification itself come first
    obtain ⟨hresult, htold⟩ := steady_of_yields (runSpec_illFormed (Fleet.answering reply) hill)
    obtain ⟨hresult', htold'⟩ :=
      steady_of_yields (runSpec_illFormed (Fleet.answering reply) (hof.trans hill))
    rw [hresult, htold, hresult', htold']
    exact notExecuted_contained errors spec _ es
  | none =>
    obtain ⟨parts, parts', failure, hbody, hbody', hparts⟩ := bodyAfter_contained errors reply plan
      spec (Runner.reportOf (reply (.specStarting spec.fileName spec.heading spec.tags)))
    have hundying := Fleet.answering_undying reply
    obtain ⟨hresult, htold⟩ :=
      steady_of_yields (runSpec_takenUp hill (takeUp_yields hundying hbody))
    obtain ⟨hresult', htold'⟩ :=
      steady_of_yields (runSpec_takenUp (hof.trans hill) (takeUp_yields hundying hbody'))
    rw [hresult, htold, hresult', htold']
    exact ⟨⟨_, _, parts, parts', .inr ⟨rfl, rfl⟩, hparts, rfl, rfl, (List.append_assoc ..).symm,
      (List.append_assoc ..).symm⟩, rfl, rfl⟩

end

/-! ## Runs -/

/-- The specification is left out with these errors, and the runner hears nothing of it. -/
structure LeavesOut (b : Behavior σ) (plan : Plan) (spec : Specification) (es : List ParseError)
    (s : Session σ) : Prop where
  offers : (announcedSpec b plan spec s).2.offers = s.offers
  runner : (announcedSpec b plan spec s).2.runner = s.runner
  errors : (announcedSpec b plan spec s).1.errors = es
  skipped : (announcedSpec b plan spec s).1.status = .skipped
  scenarios : (announcedSpec b plan spec s).1.scenarios =
    spec.scenarios.map fun sc => .notExecuted sc none "specification has build errors"

theorem announcedSpec_leavesOut (b : Behavior σ) {plan : Plan} {spec : Specification}
    {es : List ParseError} (h : plan.buildErrors.ofSpec spec = some es) (s : Session σ) :
    LeavesOut b plan spec es s := by
  have hrun : announcedSpec b plan spec s =
      (.notExecuted spec "specification has build errors" es,
        (announce .specEnd (.ofSpec spec)
          (some (.spec (.notExecuted spec "specification has build errors" es)))
          (announce .specStart (.ofSpec spec) none s).2).2) := by
    simp only [announcedSpec, runSpec, h]
    rfl
  refine ⟨?_, ?_, ?_, ?_, ?_⟩ <;> rw [hrun]
  · rw [announce_offers, announce_offers]
  · rfl
  · rfl
  · exact notExecuted_status spec _ es
  · rfl

theorem obstacle_withErrors (fleet : Fleet σ) (plan : Plan) (errors : List (Key × ParseError)) :
    (plan.withErrors errors).obstacle fleet = plan.obstacle fleet := rfl

/-- A specification that meets the same obstacle in both runs. -/
theorem behind_contained (errors : List (Key × ParseError))
    (reply : Message → Except ProtocolError Message) (plan : Plan) (spec : Specification)
    (obstacle : Option String) :
    SpecContained errors spec (resultBehind reply plan spec obstacle)
      (resultBehind reply (plan.withErrors errors) spec obstacle)
      (offersBehind reply plan spec obstacle)
      (offersBehind reply (plan.withErrors errors) spec obstacle) := by
  cases obstacle with
  | none => exact steady_contained errors reply plan spec
  | some reason => exact notExecuted_contained errors spec reason []

/-- What a run with undying runners reports and tells. -/
theorem runSuite_undying {fleet : Fleet σ} {reply : Message → Except ProtocolError Message}
    (undying : fleet.Undying reply) (plan : Plan) (order : Nat → Nat) :
    ToldOfSpecs plan (plan.toldAt fleet reply) (runSuite fleet plan order).streams ∧
      ∀ {i : Nat} {r : SpecResult} {spec : Specification},
        (i, r) ∈ (runSuite fleet plan order).entries plan → plan.specs[i]? = some spec →
        r = resultBehind reply plan spec (plan.obstacle fleet i) := by
  obtain ⟨work, waiting, hsettled⟩ := runStreams_settled undying plan order
  refine ⟨hsettled.told undying, fun {i r spec} hentry hspec => ?_⟩
  have hperm := mergedEntries_perm (completed plan (runStreams fleet plan order))
  obtain ⟨o, ho, hentry⟩ := List.mem_flatMap.mp (hperm.subset hentry)
  obtain ⟨spec', hspec', hr⟩ := hsettled.entries undying o ho _ hentry
  obtain rfl := Option.some.inj (hspec'.symm.trans hspec)
  exact hr

/-- Build errors are contained. A specification with errors of its own is left out, with exactly
these errors, and its runner hears nothing of it. In a run with runners that never die and answer by
the message alone, further errors of scenarios make each result of these scenarios a skipped one,
for which the runner is told nothing, and leave all other results of scenarios, and what the runner
is told for them, as they are, whatever the order in which the streams claim. -/
theorem build_errors_contained {fleet : Fleet σ}
    {reply : Message → Except ProtocolError Message} (undying : fleet.Undying reply) (plan : Plan)
    (errors : List (Key × ParseError)) (order order' : Nat → Nat) :
    (∀ (b : Behavior τ) (plan : Plan) (spec : Specification) (es : List ParseError) (s : Session τ),
      plan.buildErrors.ofSpec spec = some es → LeavesOut b plan spec es s) ∧
    let plan' := plan.withErrors errors
    let run := runSuite fleet plan order
    let run' := runSuite fleet plan' order'
    Enumerates fleet.toBehavior plan (run.entries plan) run.result.specs ∧
      Enumerates fleet.toBehavior plan' (run'.entries plan') run'.result.specs ∧
      ∃ told told' : Nat → List Message,
        ToldOfSpecs plan told run.streams ∧ ToldOfSpecs plan' told' run'.streams ∧
        ∀ i spec r r', plan.specs[i]? = some spec → (i, r) ∈ run.entries plan →
          (i, r') ∈ run'.entries plan' → SpecContained errors spec r r' (told i) (told' i) := by
  refine ⟨fun b _ _ _ s h => announcedSpec_leavesOut b h s, ?_⟩
  intro plan' run run'
  obtain ⟨htold, hentries⟩ := runSuite_undying undying plan order
  obtain ⟨htold', hentries'⟩ := runSuite_undying undying plan' order'
  refine ⟨runSuite_enumerates fleet plan order, runSuite_enumerates fleet plan' order',
    plan.toldAt fleet reply, plan'.toldAt fleet reply, htold, htold', ?_⟩
  intro i spec r r' hspec hr hr'
  have hspec' : plan'.specs[i]? = some spec := hspec
  -- further errors of scenarios put nothing in the way of a specification
  have hobstacle : plan'.obstacle fleet = plan.obstacle fleet :=
    obstacle_withErrors fleet plan errors
  rw [hentries hr hspec, hentries' hr' hspec', Plan.toldAt, Plan.toldAt, hspec, hspec', hobstacle]
  exact behind_contained errors reply plan spec (plan.obstacle fleet i)

/-- A plan for a specification of two scenarios, both of which have the same name. -/
def twoScenarios : Plan where
  manifest := { language := "python" }
  specs := [{
    heading := "Pair"
    fileName := "pair.spec"
    scenarios := [
      { heading := "Scenario", line := 3, steps := [.step { text := "step" }] },
      { heading := "Scenario", line := 6, steps := [.step { text := "step" }] }] }]
  settings := {}

/-- An error in a step of the first of two scenarios. -/
def firstScenarioError : Key × ParseError :=
  (("pair.spec", 3), { fileName := "pair.spec", lineNo := 4, message := "no such step" })

theorem passingFleet_undying :
    passingFleet.Undying fun _ => .ok (.statusResponse {}) :=
  ⟨fun _ _ => rfl, fun _ _ => rfl, fun _ _ _ => rfl⟩

/-- With an error in the first of two scenarios of one name, the first is skipped and the second
runs. With an error of their specification neither does. -/
theorem first_scenario_contained :
    let further := [firstScenarioError]
    let ill : Plan :=
      { twoScenarios with buildErrors := { log := [(.spec "pair.spec", firstScenarioError.2)] } }
    passingFleet.Undying (fun _ => .ok (.statusResponse {})) ∧
      (∀ spec ∈ twoScenarios.specs, ill.buildErrors.ofSpec spec = some [firstScenarioError.2] ∧
        LeavesOut passingFleet.toBehavior ill spec [firstScenarioError.2] blankSession) ∧
      ∃ spec r r' told told', twoScenarios.specs[0]? = some spec ∧
        (0, r) ∈ (runSuite passingFleet twoScenarios id).entries twoScenarios ∧
        (0, r') ∈ (runSuite passingFleet (twoScenarios.withErrors further) id).entries
          (twoScenarios.withErrors further) ∧
        r.scenarios.map (·.status) = [.passed, .passed] ∧
        r'.scenarios.map (·.status) = [.skipped, .passed] ∧
        SpecContained further spec r r' told told' := by
  intro further ill
  obtain ⟨hleaves, hlists, hlists', told, told', -, -, hcontained⟩ :=
    @build_errors_contained Unit Unit _ _ passingFleet_undying twoScenarios further id id
  refine ⟨passingFleet_undying, ?_, ?_⟩
  · intro spec hspec
    have hill : ill.buildErrors.ofSpec spec = some [firstScenarioError.2] := by
      rw [List.mem_singleton.mp hspec]
      decide +kernel
    exact ⟨hill, hleaves _ ill spec _ blankSession hill⟩
  · have hspec : twoScenarios.specs[0]? = some _ := rfl
    have hposition : 0 ∈ List.range twoScenarios.specs.length := by decide
    obtain ⟨⟨i, r⟩, hr, rfl⟩ := List.mem_map.mp (hlists.positions.symm.subset hposition)
    obtain ⟨⟨i, r'⟩, hr', rfl⟩ := List.mem_map.mp (hlists'.positions.symm.subset hposition)
    refine ⟨_, r, r', _, _, hspec, hr, hr', ?_, ?_, hcontained _ _ r r' hspec hr hr'⟩
    · rw [(runSuite_undying passingFleet_undying twoScenarios id).2 hr hspec]
      decide +kernel
    · rw [(runSuite_undying passingFleet_undying (twoScenarios.withErrors further) id).2 hr' hspec]
      decide +kernel

end SpecEngine.Engine
