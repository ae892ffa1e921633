/-
# SpecEngine.Proofs.StepValidation -- whom an invalid step is held against

Before a run a runner is asked about every step text. The texts are asked about in strictly
ascending order, so each has exactly one answer (`answersTo`), whatever the runner is and however it
changes its mind in between. A text that is not called valid makes an error of every use, and the
error is filed under the file and the line of the scenario that uses it.

File and line are all that a scenario is known by. So a scenario is blamed for what is used at its
place (`blamed_iff`), and for its own steps where nobody else stands there. A tree may leave lines
out, which then count as zero: scenarios of one file without lines share their place, and one whose
steps are all valid is skipped for the steps of its neighbour.
-/
import SpecEngine.Engine.Validation
import SpecEngine.Proofs.Containment

namespace SpecEngine.Engine

open Item (Step StepItem Scenario Specification Collection BuildErrors ParseError)
open Result (ScenarioResult)
open Runner (Behavior Fleet Message ProtocolError)

variable {σ τ : Type}

/-! ## Texts -/

theorem mem_withoutRepeats {text : String} (texts : List String) :
    text ∈ withoutRepeats texts ↔ text ∈ texts := by
  fun_induction withoutRepeats texts with
  | case1 => rfl
  | case2 s => rfl
  | case3 s rest ih => rw [ih]; simp
  | case4 s t rest hne ih => rw [List.mem_cons, ih, List.mem_cons (a := text) (b := s)]

theorem withoutRepeats_ascending {texts : List String} (h : texts.Pairwise (· ≤ ·)) :
    (withoutRepeats texts).Pairwise (· < ·) := by
  fun_induction withoutRepeats texts with
  | case1 => exact .nil
  | case2 s => exact List.pairwise_singleton _ s
  | case3 s rest ih => exact ih (List.pairwise_cons.mp h).2
  | case4 s t rest hne ih =>
    obtain ⟨hs, hrest⟩ := List.pairwise_cons.mp h
    refine List.pairwise_cons.mpr ⟨fun x hx => ?_, ih hrest⟩
    rw [mem_withoutRepeats] at hx
    -- what equals the first text would stand before the second one
    have hsx : s ≠ x := by
      rintro rfl
      rcases List.mem_cons.mp hx with rfl | hx
      · exact hne rfl
      · exact hne (String.le_antisymm (hs t List.mem_cons_self)
          ((List.pairwise_cons.mp hrest).1 _ hx))
    exact Std.lt_of_le_of_ne (hs x hx) hsx

/-- The texts that a runner is asked about are those of the steps. -/
theorem mem_stepTexts {specs : Collection} {text : String} :
    text ∈ stepTexts specs ↔ ∃ step ∈ allSteps specs, step.text = text := by
  rw [stepTexts, mem_withoutRepeats, List.mem_mergeSort, List.mem_map]

theorem stepTexts_ascending (specs : Collection) : (stepTexts specs).Pairwise (· < ·) := by
  apply withoutRepeats_ascending
  have hsorted := @List.pairwise_mergeSort String (fun s t => decide (s ≤ t))
    (fun a b c hab hbc => by
      rw [decide_eq_true_eq] at hab hbc ⊢
      exact String.le_trans hab hbc)
    (fun a b => by
      rw [Bool.or_eq_true, decide_eq_true_eq, decide_eq_true_eq]
      exact String.le_total a b)
    ((allSteps specs).map (·.text))
  exact hsorted.imp fun h => of_decide_eq_true h

theorem mem_allSteps {specs : Collection} {step : Step} :
    step ∈ allSteps specs ↔
      ∃ spec ∈ specs, ∃ sc ∈ spec.scenarios, step ∈ sc.flatSteps := by
  simp only [allSteps, List.mem_flatMap]

/-! ## Answers -/

/-- What a runner answers when it is asked about texts, one after the other. -/
def answersTo (b : Behavior σ) : σ → List String → List (String × Except ProtocolError Message)
  | _, [] => []
  | runner, text :: rest =>
    (text, (b.answer runner (.validateRequest text)).1) ::
      answersTo b (b.answer runner (.validateRequest text)).2 rest

theorem answersTo_texts (b : Behavior σ) (runner : σ) (texts : List String) :
    (answersTo b runner texts).map (·.1) = texts := by
  induction texts generalizing runner with
  | nil => rfl
  | cons text rest ih => rw [answersTo, List.map_cons, ih]

/-- The answer calls the step valid. -/
def IsValid (answer : Except ProtocolError Message) : Prop :=
  ∃ fault message, answer = .ok (.validateResponse true fault message)

theorem objection?_isSome_iff (answer : Except ProtocolError Message) :
    (objection? answer).isSome = true ↔ ¬IsValid answer := by
  unfold objection? IsValid
  split <;> simp_all

/-- When the steps of a collection are validated in this session, the text is called valid. -/
def CalledValid (b : Behavior σ) (specs : Collection) (s : Session σ) (text : String) : Prop :=
  ∃ answer, (text, answer) ∈ answersTo b s.runner (stepTexts specs) ∧ IsValid answer

/-- A text is asked about once. -/
theorem answersTo_unique (b : Behavior σ) (specs : Collection) (runner : σ) {text : String}
    {answer answer' : Except ProtocolError Message}
    (h : (text, answer) ∈ answersTo b runner (stepTexts specs))
    (h' : (text, answer') ∈ answersTo b runner (stepTexts specs)) : answer = answer' := by
  have hnodup : ((answersTo b runner (stepTexts specs)).map (·.1)).Nodup := by
    rw [answersTo_texts]
    exact (stepTexts_ascending specs).imp fun hlt => Std.ne_of_lt hlt
  exact (Prod.ext_iff.mp (List.inj_on_of_nodup_map hnodup h h' rfl)).2

/-- The objections are the answers that do not call a text valid. -/
theorem objections_eq (b : Behavior σ) (texts : List String) (s : Session σ) :
    (objections b texts s).1 =
      (answersTo b s.runner texts).filterMap fun (text, answer) =>
        (objection? answer).map fun reason => (text, reason) := by
  induction texts generalizing s with
  | nil => rfl
  | cons text rest ih =>
    simp only [objections, bind_run, pure_run, answersTo, List.filterMap_cons, ih, offer_answer,
      offer_runner]
    cases objection? (b.answer s.runner (.validateRequest text)).1 <;> rfl

theorem objections_lookup (b : Behavior σ) {specs : Collection} (s : Session σ) {step : Step}
    (hstep : step ∈ allSteps specs) :
    (((objections b (stepTexts specs) s).1.lookup step.text).isSome = true) ↔
      ¬CalledValid b specs s step.text := by
  rw [List.lookup_isSome_iff, objections_eq]
  constructor
  · rintro ⟨⟨text, reason⟩, hmem, htext⟩ ⟨answer, hanswer, hvalid⟩
    obtain rfl : step.text = text := by simpa using htext
    obtain ⟨⟨text', answer'⟩, hanswer', hreason⟩ := List.mem_filterMap.mp hmem
    obtain ⟨reason', hobjection, heq⟩ := Option.map_eq_some_iff.mp hreason
    obtain ⟨rfl, rfl⟩ := Prod.mk.inj heq
    obtain rfl := answersTo_unique b specs s.runner hanswer hanswer'
    exact (objection?_isSome_iff answer).mp (by rw [hobjection]; rfl) hvalid
  · intro hrefused
    -- the text was asked about, and its answer does not call it valid
    have hasked : step.text ∈ (answersTo b s.runner (stepTexts specs)).map (·.1) := by
      rw [answersTo_texts, mem_stepTexts]
      exact ⟨step, hstep, rfl⟩
    obtain ⟨⟨text, answer⟩, hanswer, htext⟩ := List.mem_map.mp hasked
    obtain rfl : text = step.text := htext
    have hinvalid : ¬IsValid answer := fun hvalid => hrefused ⟨answer, hanswer, hvalid⟩
    obtain ⟨reason, hreason⟩ :=
      Option.isSome_iff_exists.mp ((objection?_isSome_iff answer).mpr hinvalid)
    refine ⟨(step.text, reason), List.mem_filterMap.mpr ⟨_, hanswer, ?_⟩, by simp⟩
    simp [hreason]

/-! ## Blame -/

theorem mem_errorsOf {reasons : List (String × String)} {specs : Collection}
    {entry : Item.Subject × ParseError} :
    entry ∈ (errorsOf reasons specs).log ↔
      ∃ spec ∈ specs, ∃ sc ∈ spec.scenarios, ∃ step ∈ sc.flatSteps, ∃ reason,
        reasons.lookup step.text = some reason ∧
        entry = (.scenario spec.fileName sc.line,
          { fileName := spec.fileName, lineNo := step.line, message := reason
            lineText := step.text }) := by
  simp only [errorsOf, stepErrors, List.mem_flatMap, List.mem_filterMap, Option.map_eq_some_iff,
    eq_comm (b := entry)]

/-- A scenario of the collection stands at the place of a scenario and uses a step that is not
called valid. -/
def RefusedAt (b : Behavior σ) (specs : Collection) (s : Session σ) (spec : Specification)
    (sc : Scenario) : Prop :=
  ∃ spec' ∈ specs, ∃ sc' ∈ spec'.scenarios, spec'.fileName = spec.fileName ∧ sc'.line = sc.line ∧
    ∃ step ∈ sc'.flatSteps, ¬CalledValid b specs s step.text

/-- A scenario has errors after validation exactly if a step that is not called valid is used at its
place. -/
theorem blamed_iff (b : Behavior σ) (specs : Collection) (s : Session σ) (spec : Specification)
    (sc : Scenario) :
    ((validateSteps b specs s).1.ofScenario spec sc).isSome = true ↔
      RefusedAt b specs s spec sc := by
  show ((errorsOf (objections b (stepTexts specs) s).1 specs).ofScenario spec sc).isSome = true ↔ _
  rw [BuildErrors.ofScenario_isSome]
  constructor
  · rintro ⟨entry, hentry, hplace⟩
    obtain ⟨spec', hspec, sc', hsc, step, hstep, reason, hreason, rfl⟩ := mem_errorsOf.mp hentry
    obtain ⟨hfile, hline⟩ := Item.Subject.scenario.inj hplace
    have hall : step ∈ allSteps specs := mem_allSteps.mpr ⟨spec', hspec, sc', hsc, hstep⟩
    exact ⟨spec', hspec, sc', hsc, hfile, hline, step, hstep,
      (objections_lookup b s hall).mp (by rw [hreason]; rfl)⟩
  · rintro ⟨spec', hspec, sc', hsc, hfile, hline, step, hstep, hrefused⟩
    have hall : step ∈ allSteps specs := mem_allSteps.mpr ⟨spec', hspec, sc', hsc, hstep⟩
    obtain ⟨reason, hreason⟩ :=
      Option.isSome_iff_exists.mp ((objections_lookup b s hall).mpr hrefused)
    exact ⟨_, mem_errorsOf.mpr ⟨spec', hspec, sc', hsc, step, hstep, reason, hreason, rfl⟩,
      by rw [hfile, hline]⟩

/-- Validation holds nothing against whole specifications. -/
theorem validateSteps_under_spec (b : Behavior σ) (specs : Collection) (s : Session σ)
    (file : String) : (validateSteps b specs s).1.under (.spec file) = [] := by
  rw [BuildErrors.under, List.map_eq_nil_iff, List.filter_eq_nil_iff]
  intro entry hentry
  obtain ⟨_, _, _, _, _, _, _, _, rfl⟩ := mem_errorsOf.mp hentry
  simp

theorem validateSteps_ofSpec (b : Behavior σ) (specs : Collection) (s : Session σ)
    (spec : Specification) : (validateSteps b specs s).1.ofSpec spec = none := by
  rw [BuildErrors.ofSpec, validateSteps_under_spec]

/-- No other scenario of the collection stands at the file and line of this one. -/
def Alone (specs : Collection) (spec : Specification) (sc : Scenario) : Prop :=
  ∀ spec' ∈ specs, ∀ sc' ∈ spec'.scenarios,
    spec'.fileName = spec.fileName → sc'.line = sc.line → sc' = sc

/-- A scenario that stands alone is blamed for its own steps only. -/
theorem Alone.refusedAt_iff {b : Behavior σ} {specs : Collection} {s : Session σ}
    {spec : Specification} {sc : Scenario} (halone : Alone specs spec sc) (hspec : spec ∈ specs)
    (hsc : sc ∈ spec.scenarios) :
    RefusedAt b specs s spec sc ↔ ∃ step ∈ sc.flatSteps, ¬CalledValid b specs s step.text := by
  constructor
  · rintro ⟨spec', hspec', sc', hsc', hfile, hline, hrefused⟩
    rw [halone spec' hspec' sc' hsc' hfile hline] at hrefused
    exact hrefused
  · exact fun hrefused => ⟨spec, hspec, sc, hsc, rfl, rfl, hrefused⟩

/-! ## Skipped scenarios -/

/-- The reason of scenarios that have build errors. -/
def illFormedReason : String := "scenario has build errors"

/-- A scenario is skipped for build errors exactly if it has some. -/
theorem runScenario_illFormed_iff (b : Behavior σ) (plan : Plan) (spec : Specification)
    (sc : Scenario) (row : Option Table.Row) (s : Session σ) :
    (runScenario b plan spec sc row s).1.skipReason = some illFormedReason ↔
      (plan.buildErrors.ofScenario spec sc).isSome = true := by
  obtain ⟨hs, -, hhistory⟩ := runScenario_history b plan spec sc row s
  generalize (runScenario b plan spec sc row s).1 = r at hhistory
  cases hhistory with
  | illFormed hill => simp [hill, ScenarioResult.notExecuted, illFormedReason]
  | dead hwell _ => simp [hwell, ScenarioResult.notExecuted, illFormedReason, deadReason]
  | attempted hwell _ hattempts =>
    rw [hwell]
    exact iff_of_false (fun hill => absurd (hattempts.skipReason_eq hill) (by decide)) (by decide)

theorem merge_ofScenario_isSome (found others : BuildErrors) (spec : Specification)
    (sc : Scenario) :
    ((found.merge others).ofScenario spec sc).isSome = true ↔
      (found.ofScenario spec sc).isSome = true ∨ (others.ofScenario spec sc).isSome = true := by
  simp only [BuildErrors.ofScenario_isSome, BuildErrors.merge, List.mem_append, or_and_right,
    exists_or]

/-- Validation blames what stands at the place of an invalid step. It holds nothing against whole
specifications, and a scenario has errors after it exactly if a step that is not called valid is
used by a scenario of the same file and line. So a scenario that stands alone there has errors
exactly if one of its own steps is not called valid; if all of them are, no run that counts these
errors among its own skips the scenario for build errors that it would not skip without them. -/
theorem validation_blames_place (b : Behavior σ) (specs : Collection) (s : Session σ) :
    let errors := (validateSteps b specs s).1
    (∀ spec, errors.ofSpec spec = none) ∧
    (∀ spec sc, (errors.ofScenario spec sc).isSome = true ↔ RefusedAt b specs s spec sc) ∧
    ∀ spec ∈ specs, ∀ sc ∈ spec.scenarios, Alone specs spec sc →
      ((errors.ofScenario spec sc).isSome = true ↔
        ∃ step ∈ sc.flatSteps, ¬CalledValid b specs s step.text) ∧
      ((∀ step ∈ sc.flatSteps, CalledValid b specs s step.text) →
        ∀ (b' : Behavior τ) (plan : Plan) (row : Option Table.Row) (t : Session τ),
          (runScenario b' { plan with buildErrors := plan.buildErrors.merge errors } spec sc row
              t).1.skipReason = some illFormedReason ↔
            (plan.buildErrors.ofScenario spec sc).isSome = true) := by
  intro errors
  have hblamed : ∀ spec sc, (errors.ofScenario spec sc).isSome = true ↔
      RefusedAt b specs s spec sc := blamed_iff b specs s
  refine ⟨validateSteps_ofSpec b specs s, hblamed, ?_⟩
  intro spec hspec sc hsc halone
  have hown := halone.refusedAt_iff (b := b) (s := s) hspec hsc
  refine ⟨(hblamed spec sc).trans hown, ?_⟩
  intro hvalid b' plan row t
  have hnone : ¬(errors.ofScenario spec sc).isSome = true := by
    rw [hblamed, hown]
    rintro ⟨step, hstep, hrefused⟩
    exact hrefused (hvalid step hstep)
  rw [runScenario_illFormed_iff, merge_ofScenario_isSome]
  exact or_iff_left hnone

/-! ## A valid scenario beside an invalid one -/

/-- Replies of a runner that cannot execute the step of one text. -/
def lacking (missing : String) : Message → Except ProtocolError Message
  | .validateRequest text =>
    .ok (if text = missing then .validateResponse false (some .notFound) none
      else .validateResponse true none none)
  | _ => .ok (.statusResponse {})

theorem answersTo_answering (reply : Message → Except ProtocolError Message)
    (texts : List String) :
    answersTo (Fleet.answering reply).toBehavior () texts =
      texts.map fun text => (text, reply (.validateRequest text)) := by
  induction texts with
  | nil => rfl
  | cons text rest ih => rw [answersTo, List.map_cons, ← ih]; rfl

theorem calledValid_lacking {missing : String} {specs : Collection} {s : Session Unit} {step : Step}
    (hstep : step ∈ allSteps specs) :
    CalledValid (Fleet.answering (lacking missing)).toBehavior specs s step.text ↔
      step.text ≠ missing := by
  have hasked : step.text ∈ stepTexts specs := mem_stepTexts.mpr ⟨step, hstep, rfl⟩
  unfold CalledValid
  rw [show s.runner = () from rfl, answersTo_answering]
  by_cases hmissing : step.text = missing <;>
    simp [IsValid, lacking, hasked, hmissing]

/-- A scenario of one step. -/
def oneStep (heading : String) (line : UInt64) (text : String) : Scenario where
  heading := heading
  line := line
  steps := [.step { text := text }]

/-- A specification of two scenarios at these lines, of which only the first is in order. -/
def goodAndBad (line line' : UInt64) : Specification where
  heading := "Pair"
  fileName := "pair.spec"
  scenarios := [oneStep "good" line "fine", oneStep "bad" line' "missing"]

/-- What is found in it by a runner that lacks the step of the second scenario. -/
def pairErrors (line line' : UInt64) : BuildErrors :=
  (validateSteps (Fleet.answering (lacking "missing")).toBehavior [goodAndBad line line']
    blankSession).1

/-- The first scenario uses valid steps only. -/
theorem good_calledValid (line line' : UInt64) :
    ∀ step ∈ (oneStep "good" line "fine").flatSteps,
      CalledValid (Fleet.answering (lacking "missing")).toBehavior [goodAndBad line line']
        blankSession step.text := by
  intro step hstep
  have hall : step ∈ allSteps [goodAndBad line line'] :=
    mem_allSteps.mpr ⟨_, List.mem_singleton_self _, _, List.mem_cons_self, hstep⟩
  rw [calledValid_lacking hall]
  obtain rfl : step = { text := "fine" } := List.mem_singleton.mp hstep
  decide

/-- The second scenario's step is not called valid. -/
theorem bad_refused (line line' : UInt64) :
    ∃ step ∈ (oneStep "bad" line' "missing").flatSteps,
      ¬CalledValid (Fleet.answering (lacking "missing")).toBehavior [goodAndBad line line']
        blankSession step.text := by
  refine ⟨{ text := "missing" }, List.mem_singleton_self _, ?_⟩
  have hall : { text := "missing" } ∈ allSteps [goodAndBad line line'] :=
    mem_allSteps.mpr ⟨_, List.mem_singleton_self _, oneStep "bad" line' "missing",
      List.mem_cons_of_mem _ List.mem_cons_self, List.mem_singleton_self _⟩
  rw [calledValid_lacking hall]
  exact fun hne => hne rfl

/-- The plan of a run that counts these errors. -/
def pairPlan (line line' : UInt64) : Plan where
  manifest := { language := "python" }
  specs := [goodAndBad line line']
  settings := {}
  buildErrors := pairErrors line line'

/-- At different lines the second scenario alone is blamed, and the first is not skipped. -/
theorem pair_blamed_apart :
    (pairErrors 3 6).ofSpec (goodAndBad 3 6) = none ∧
    ((pairErrors 3 6).ofScenario (goodAndBad 3 6) (oneStep "bad" 6 "missing")).isSome = true ∧
    ((pairErrors 3 6).ofScenario (goodAndBad 3 6) (oneStep "good" 3 "fine")).isSome = false ∧
    (runScenario (Fleet.answering (lacking "missing")).toBehavior (pairPlan 3 6) (goodAndBad 3 6)
      (oneStep "good" 3 "fine") none blankSession).1.skipReason ≠ some illFormedReason := by
  obtain ⟨hspec, hplaces, hscenarios⟩ := validation_blames_place (τ := Unit)
    (Fleet.answering (lacking "missing")).toBehavior [goodAndBad 3 6] blankSession
  have halone : ∀ sc ∈ (goodAndBad 3 6).scenarios, Alone [goodAndBad 3 6] (goodAndBad 3 6) sc := by
    simp [Alone, goodAndBad, oneStep]
  have hgood : oneStep "good" 3 "fine" ∈ (goodAndBad 3 6).scenarios := List.mem_cons_self
  have hbad : oneStep "bad" 6 "missing" ∈ (goodAndBad 3 6).scenarios :=
    List.mem_cons_of_mem _ List.mem_cons_self
  have hlisted : goodAndBad 3 6 ∈ [goodAndBad 3 6] := List.mem_singleton_self _
  obtain ⟨hblamed, -⟩ := hscenarios _ hlisted _ hbad (halone _ hbad)
  obtain ⟨hcleared, hrun⟩ := hscenarios _ hlisted _ hgood (halone _ hgood)
  have hvalid := good_calledValid 3 6
  refine ⟨hspec _, hblamed.mpr (bad_refused 3 6), ?_, ?_⟩
  · rw [← Bool.not_eq_true]
    intro hsome
    obtain ⟨step, hstep, hrefused⟩ := hcleared.mp hsome
    exact hrefused (hvalid step hstep)
  · intro hskipped
    -- without the errors of the validation the plan has none
    have hsome := (hrun hvalid (Fleet.answering (lacking "missing")).toBehavior
      { pairPlan 3 6 with buildErrors := {} } none blankSession).mp hskipped
    exact absurd hsome (by decide)

/-- Where both lines are left out, the first scenario is skipped although its step is valid. -/
theorem neighbour_blamed :
    (∀ step ∈ (oneStep "good" 0 "fine").flatSteps,
      CalledValid (Fleet.answering (lacking "missing")).toBehavior [goodAndBad 0 0] blankSession
        step.text) ∧
    ((pairErrors 0 0).ofScenario (goodAndBad 0 0) (oneStep "good" 0 "fine")).isSome = true ∧
    (runScenario (Fleet.answering (lacking "missing")).toBehavior (pairPlan 0 0) (goodAndBad 0 0)
      (oneStep "good" 0 "fine") none blankSession).1.skipReason = some illFormedReason := by
  have hrefused : RefusedAt (Fleet.answering (lacking "missing")).toBehavior [goodAndBad 0 0]
      blankSession (goodAndBad 0 0) (oneStep "good" 0 "fine") :=
    ⟨_, List.mem_singleton_self _, _, List.mem_cons_of_mem _ List.mem_cons_self, rfl, rfl,
      bad_refused 0 0⟩
  have hblamed := (blamed_iff _ _ _ _ _).mpr hrefused
  exact ⟨good_calledValid 0 0, hblamed, (runScenario_illFormed_iff ..).mpr hblamed⟩

end SpecEngine.Engine
