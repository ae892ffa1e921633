/-
# SpecEngine.Proofs.UseReports -- every use of an invalid step is reported

Validation asks about texts and reports uses. A runner is asked once about each text that some step
of the collection has, in the order of their bytes, and nothing else happens on its stream. What it
does not call valid is reported once for every use: under the file and line of the scenario stand
the errors of the uses there, one for each address and in the order of the addresses.
-/
import SpecEngine.Proofs.ByteOrder
import SpecEngine.Proofs.Restriction
import SpecEngine.Proofs.StepUses
import SpecEngine.Proofs.StepValidation

namespace SpecEngine.Engine

open Item (Collection ParseError Use)
open Runner (Behavior)

variable {σ : Type}

/-! ## Requests -/

/-- Asking about texts adds a request for each to what happens on the stream, and nothing else. -/
theorem objections_trace (b : Behavior σ) (texts : List String) (s : Session σ) :
    (objections b texts s).2.trace.toList =
      s.trace.toList ++ texts.map fun text => .offered (.validateRequest text) := by
  induction texts generalizing s with
  | nil => rw [objections, pure_run, List.map_nil, List.append_nil]
  | cons text rest ih =>
    have hoffer : (offer b (.validateRequest text) s).2.trace.toList =
        s.trace.toList ++ [.offered (.validateRequest text)] := Array.toList_push
    simp only [objections, bind_run, pure_run, ih, hoffer, List.append_assoc,
      List.singleton_append, List.map_cons]

theorem allSteps_eq (specs : Collection) : allSteps specs = specs.uses.map (·.2.step) := by
  have huses := congrArg (List.map Use.step) (Item.uses_map specs)
  rw [List.map_map] at huses
  refine Eq.trans ?_ huses.symm
  simp only [allSteps, List.map_flatMap, List.map_map]
  exact List.flatMap_congr fun spec _ => List.flatMap_congr fun sc _ => (List.map_id _).symm

theorem mem_allSteps_of_usedAt {specs : Collection} {address : List Nat} {use : Use}
    (h : specs.UsedAt address use) : use.step ∈ allSteps specs := by
  rw [allSteps_eq]
  exact List.mem_map_of_mem (((Item.uses_lists specs).mem_iff address use).mpr h)

/-- The texts that are asked about are those of the steps that are used. -/
theorem mem_stepTexts_iff_used {specs : Collection} {text : String} :
    text ∈ stepTexts specs ↔ ∃ address use, specs.UsedAt address use ∧ use.step.text = text := by
  rw [mem_stepTexts]
  constructor
  · rintro ⟨step, hstep, htext⟩
    rw [allSteps_eq] at hstep
    obtain ⟨⟨address, use⟩, hmem, rfl⟩ := List.mem_map.mp hstep
    exact ⟨address, use, ((Item.uses_lists specs).mem_iff address use).mp hmem, htext⟩
  · rintro ⟨address, use, hused, htext⟩
    exact ⟨use.step, mem_allSteps_of_usedAt hused, htext⟩

/-! ## Errors of uses -/

/-- The error of a use, if there is an objection to its step. -/
def useError? (reasons : List (String × String)) (use : Use) : Option ParseError :=
  (reasons.lookup use.step.text).map fun reason =>
    { fileName := use.spec.fileName, lineNo := use.step.line, message := reason
      lineText := use.step.text }

/-- The error of a use, if it is in a scenario of this file and line. -/
def errorUnder? (reasons : List (String × String)) (file : String) (line : UInt64) (use : Use) :
    Option ParseError :=
  if use.spec.fileName = file ∧ use.scenario.line = line then useError? reasons use else none

/-- The errors are those of the uses, in their order. -/
theorem errorsOf_log (reasons : List (String × String)) (specs : Collection) :
    (errorsOf reasons specs).log = specs.uses.filterMap fun entry =>
      (useError? reasons entry.2).map fun e =>
        (.scenario entry.2.spec.fileName entry.2.scenario.line, e) := by
  have huses := congrArg (List.filterMap fun use => (useError? reasons use).map fun e =>
    (Item.Subject.scenario use.spec.fileName use.scenario.line, e)) (Item.uses_map specs)
  rw [List.filterMap_map] at huses
  refine Eq.trans ?_ huses.symm
  rw [List.filterMap_flatMap]
  refine List.flatMap_congr fun spec _ => ?_
  rw [List.filterMap_flatMap]
  refine List.flatMap_congr fun sc _ => ?_
  rw [stepErrors, List.filterMap_map]
  refine List.filterMap_congr fun step _ => ?_
  simp only [useError?, Function.comp_apply, Option.map_map]
  rfl

theorem errorsOf_under (reasons : List (String × String)) (specs : Collection) (file : String)
    (line : UInt64) :
    (errorsOf reasons specs).under (.scenario file line) =
      specs.uses.filterMap fun entry => errorUnder? reasons file line entry.2 := by
  rw [Item.BuildErrors.under, errorsOf_log, List.filter_filterMap, List.map_filterMap]
  refine List.filterMap_congr fun entry _ => ?_
  rw [errorUnder?]
  cases useError? reasons entry.2 with
  | none => simp
  | some e =>
    split
    next hkey => simp [Option.filter, hkey]
    next hkey => simp [Option.filter, hkey]

/-- The error tells of the use: its file, the line and text of its step, and the objection to what
the runner answered about the text. -/
structure TellsOf (b : Behavior σ) (specs : Collection) (s : Session σ) (use : Use)
    (e : ParseError) : Prop where
  fileName : e.fileName = use.spec.fileName
  lineNo : e.lineNo = use.step.line
  lineText : e.lineText = use.step.text
  message : ∃ answer, (use.step.text, answer) ∈ answersTo b s.runner (stepTexts specs) ∧
    objection? answer = some e.message

/-- The errors tell of the uses at these addresses: all those in scenarios of this file and line
whose steps are not called valid, each once and in their order. -/
structure ReportsUses (b : Behavior σ) (specs : Collection) (s : Session σ) (file : String)
    (line : UInt64) (addresses : List (List Nat)) (errors : List ParseError) : Prop where
  ordered : addresses.Pairwise (· < ·)
  mem_iff : ∀ address, address ∈ addresses ↔ ∃ use, specs.UsedAt address use ∧
    use.spec.fileName = file ∧ use.scenario.line = line ∧
      ¬CalledValid b specs s use.step.text
  errors : List.Forall₂ (fun address e => ∃ use, specs.UsedAt address use ∧
    TellsOf b specs s use e) addresses errors

section

variable {b : Behavior σ} {specs : Collection} {s : Session σ} {use : Use} {e : ParseError}

/-- An objection is one to the answer about the text. -/
theorem objections_answered {text reason : String}
    (h : (objections b (stepTexts specs) s).1.lookup text = some reason) :
    ∃ answer, (text, answer) ∈ answersTo b s.runner (stepTexts specs) ∧
      objection? answer = some reason := by
  obtain ⟨before, after, hsplit, -⟩ := List.lookup_eq_some_iff.mp h
  have hmem : (text, reason) ∈ (objections b (stepTexts specs) s).1 :=
    hsplit ▸ List.mem_append_right before List.mem_cons_self
  rw [objections_eq] at hmem
  obtain ⟨⟨text', answer⟩, hanswer, hreason⟩ := List.mem_filterMap.mp hmem
  obtain ⟨reason', hobjection, heq⟩ := Option.map_eq_some_iff.mp hreason
  obtain ⟨rfl, rfl⟩ := Prod.mk.inj heq
  exact ⟨answer, hanswer, hobjection⟩

theorem tellsOf_errorUnder? {file : String} {line : UInt64}
    (h : errorUnder? (objections b (stepTexts specs) s).1 file line use = some e) :
    TellsOf b specs s use e := by
  rw [errorUnder?] at h
  split at h
  next =>
    obtain ⟨reason, hreason, rfl⟩ := Option.map_eq_some_iff.mp h
    exact ⟨rfl, rfl, rfl, objections_answered hreason⟩
  next => cases h

/-- A use has an error under a file and line exactly if it is in a scenario there and its step is
not called valid. -/
theorem errorUnder?_isSome_iff {address : List Nat} (hused : specs.UsedAt address use)
    (file : String) (line : UInt64) :
    (errorUnder? (objections b (stepTexts specs) s).1 file line use).isSome = true ↔
      use.spec.fileName = file ∧ use.scenario.line = line ∧
        ¬CalledValid b specs s use.step.text := by
  rw [← and_assoc, ← objections_lookup b s (mem_allSteps_of_usedAt hused), errorUnder?]
  split
  next hkey => rw [useError?, Option.isSome_map, and_iff_right hkey]
  next hkey => exact iff_of_false (fun h => nomatch h) fun h => hkey h.1

end

/-- What is filed under a file and line after validation are the errors of the uses there. -/
theorem validateSteps_reports (b : Behavior σ) (specs : Collection) (s : Session σ) (file : String)
    (line : UInt64) : ∃ addresses, ReportsUses b specs s file line addresses
      ((validateSteps b specs s).1.under (.scenario file line)) := by
  have hlists := Item.uses_lists specs
  have hunder : (validateSteps b specs s).1.under (.scenario file line) =
      specs.uses.filterMap fun entry =>
        errorUnder? (objections b (stepTexts specs) s).1 file line entry.2 :=
    errorsOf_under _ specs file line
  refine ⟨specs.uses.filterMap fun entry =>
    (errorUnder? (objections b (stepTexts specs) s).1 file line entry.2).map fun _ => entry.1,
    ?_, fun address => ?_, ?_⟩
  · refine hlists.ordered.filterMap _ fun _ _ hlt address haddress address' haddress' => ?_
    obtain ⟨_, -, rfl⟩ := Option.map_eq_some_iff.mp haddress
    obtain ⟨_, -, rfl⟩ := Option.map_eq_some_iff.mp haddress'
    exact hlt
  · rw [List.mem_filterMap]
    constructor
    · rintro ⟨⟨address', use⟩, hentry, haddress⟩
      obtain ⟨e, herror, rfl⟩ := Option.map_eq_some_iff.mp haddress
      have hused := (hlists.mem_iff address' use).mp hentry
      exact ⟨use, hused, (errorUnder?_isSome_iff hused file line).mp (by rw [herror]; rfl)⟩
    · rintro ⟨use, hused, hrefused⟩
      obtain ⟨e, herror⟩ := Option.isSome_iff_exists.mp
        ((errorUnder?_isSome_iff hused file line).mpr hrefused)
      exact ⟨(address, use), (hlists.mem_iff address use).mpr hused, by rw [herror]; rfl⟩
  · rw [hunder]
    refine Item.forall₂_filterMap fun entry hentry => ?_
    have hused := (hlists.mem_iff entry.1 entry.2).mp hentry
    cases herror : errorUnder? (objections b (stepTexts specs) s).1 file line entry.2 with
    | none => exact .none
    | some e => exact .some ⟨entry.2, hused, tellsOf_errorUnder? herror⟩

/-- Validation asks once and reports every use. It sends one request for each text that a step of
the collection has, wherever the step is used, in ascending order of the bytes, and nothing else
happens on the stream. It files nothing under whole specifications. Under the file and line of
scenarios it files one error for every use there of a step that is not called valid, with the line
and text of the step, in the order of the uses. -/
theorem validation_reports_every_use (b : Behavior σ) (specs : Collection) (s : Session σ) :
    let errors := (validateSteps b specs s).1
    (validateSteps b specs s).2.trace.toList =
        s.trace.toList ++ (stepTexts specs).map (fun text => .offered (.validateRequest text)) ∧
      ((stepTexts specs).Pairwise fun text text' => Text.toUtf8 text < Text.toUtf8 text') ∧
      (∀ text, text ∈ stepTexts specs ↔
        ∃ address use, specs.UsedAt address use ∧ use.step.text = text) ∧
      (∀ file, errors.under (.spec file) = []) ∧
      ∀ file line, ∃ addresses,
        ReportsUses b specs s file line addresses (errors.under (.scenario file line)) :=
  ⟨objections_trace b (stepTexts specs) s, (stepTexts_ascending specs).imp Text.toUtf8_lt,
    fun _ => mem_stepTexts_iff_used, validateSteps_under_spec b specs s,
    validateSteps_reports b specs s⟩

end SpecEngine.Engine
