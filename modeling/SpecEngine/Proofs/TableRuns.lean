/-
# SpecEngine.Proofs.TableRuns -- accepted selections run as selected

A selection of rows is checked once, when a plan is made, and only its last row is looked at. It is
used much later, when the rows of a table are filtered by it. Between the two nothing is lost: a
table that has the last row has every selected one, so filtering its rows gives the selected rows,
each once and in ascending order, and it gives at least one.

What a runner does makes no difference to this. It can keep a specification from being carried out,
but a specification that is carried out is reported for every selected row, and no scenario is
skipped for want of rows. Those words are in the result of a run only if a runner says them itself
when it refuses the execution.
-/
import Mathlib.Data.List.Sort
import Mathlib.Order.Bounds.Basic
import SpecEngine.Proofs.RecordedFailures
import SpecEngine.Proofs.RowSelection

/-! ## Settings that were read -/

namespace SpecEngine.Config.Settings

/-- The selection of rows, if there is one, was read from a text. -/
def RowsRead (c : Settings) : Prop :=
  ∀ rows, c.rows = some rows → ∃ source, Table.Rows.parse source = .ok rows

end SpecEngine.Config.Settings

namespace SpecEngine.Engine

open Config (Settings Manifest)
open Item (Scenario Specification Collection BuildErrors RunArg)
open Result (ScenarioResult SpecResult StreamOutcome)
open Runner (Behavior Fleet ProtocolError Report)
open Table (Rows)

variable {σ : Type}

/-! ## Making a plan -/

/-- The specifications that are left after tag filtering. -/
def taggedSpecs (settings : Settings) (specs : Collection) : Collection :=
  match settings.tags with
  | some selector => specs.selectTags selector
  | none => specs

/-- A scenario uses the specification's table, which has fewer rows than the number says. -/
def LacksRow (spec : Specification) (number : Nat) : Prop :=
  ∃ t, spec.dataTable = some t ∧ (∃ sc ∈ spec.scenarios, sc.usesTable = true) ∧ t.rowCount < number

theorem rowFault_isSome_iff {last : Nat} {spec : Specification} :
    (rowFault last spec).isSome = true ↔ LacksRow spec (last + 1) := by
  unfold rowFault LacksRow
  cases spec.dataTable with
  | none => simp
  | some t =>
    simp only [Bool.and_eq_true, List.any_eq_true, decide_eq_true_eq, Option.isSome_ite,
      Option.some.injEq, Nat.lt_succ_iff, exists_eq_left']

theorem rowFault_rowOutOfRange {last : Nat} {spec : Specification} {fault : Config.Fault}
    (h : rowFault last spec = some fault) :
    ∃ file number available, fault = .rowOutOfRange file number available := by
  unfold rowFault at h
  split at h
  next => cases h
  next =>
    split at h
    next =>
      cases h
      exact ⟨_, _, _, rfl⟩
    next => cases h

section

variable {manifest : Manifest} {specs : Collection} {settings : Settings} {kinds : Special.Kinds}

/-- With streams to run on, only the selection of rows can be at fault. -/
theorem make_eq (hstreams : 0 < settings.streams) :
    Plan.make manifest specs settings kinds =
      match rowFault? settings (taggedSpecs settings specs) with
      | some fault => .error fault
      | none => .ok ⟨manifest, taggedSpecs settings specs, settings, kinds.resolver, {}, []⟩ := by
  have hvalid : settings.validate = .ok () := if_neg (Nat.pos_iff_ne_zero.mp hstreams)
  rw [Plan.make, hvalid]
  rfl

/-- A selection is refused when its last row is missing from a table that drives a scenario. -/
theorem rowFault?_isSome_iff {specs : Collection} :
    (rowFault? settings specs).isSome = true ↔
      ∃ rows last, settings.rows = some rows ∧ rows.last? = some last ∧
        ∃ spec ∈ specs, LacksRow spec (last + 1) := by
  unfold rowFault?
  cases settings.rows with
  | none => simp
  | some rows =>
    cases hlast : rows.last? with
    | none => simp [hlast]
    | some last => simp [hlast, List.findSome?_isSome_iff, rowFault_isSome_iff]

theorem rowFault?_rowOutOfRange {specs : Collection} {fault : Config.Fault}
    (h : rowFault? settings specs = some fault) :
    ∃ file number available, fault = .rowOutOfRange file number available := by
  obtain ⟨last, -, h⟩ := Option.bind_eq_some_iff.mp h
  obtain ⟨spec, -, h⟩ := List.exists_of_findSome?_eq_some h
  exact rowFault_rowOutOfRange h

/-- A selection that was read is refused when the greatest of its rows is missing. -/
theorem make_rowOutOfRange_iff (hstreams : 0 < settings.streams) (hread : settings.RowsRead) :
    (∃ file number available,
        Plan.make manifest specs settings kinds = .error (.rowOutOfRange file number available)) ↔
      ∃ rows last, settings.rows = some rows ∧ IsGreatest {i | rows.contains i = true} last ∧
        ∃ spec ∈ taggedSpecs settings specs, LacksRow spec (last + 1) := by
  have hmade : (∃ file number available,
        Plan.make manifest specs settings kinds = .error (.rowOutOfRange file number available)) ↔
      (rowFault? settings (taggedSpecs settings specs)).isSome = true := by
    rw [make_eq hstreams]
    cases hfault : rowFault? settings (taggedSpecs settings specs) with
    | none => simp
    | some fault =>
      obtain ⟨file, number, available, rfl⟩ := rowFault?_rowOutOfRange hfault
      simp
  rw [hmade, rowFault?_isSome_iff]
  refine exists_congr fun rows => exists_congr fun last => and_congr_right fun hrows => ?_
  -- what is looked at is the end of the last range, which is the greatest selected row
  obtain ⟨source, hsource⟩ := hread rows hrows
  obtain ⟨greatest, hlast, hgreatest⟩ := (Table.parse_proper hsource).last?_isGreatest
  refine and_congr_left fun _ => ?_
  rw [hlast, Option.some.injEq]
  exact ⟨fun heq => heq ▸ hgreatest, hgreatest.unique⟩

/-- What a plan that was made holds, and what is known of its rows. -/
theorem make_ok (hstreams : 0 < settings.streams) {plan : Plan}
    (h : Plan.make manifest specs settings kinds = .ok plan) :
    plan = ⟨manifest, taggedSpecs settings specs, settings, kinds.resolver, {}, []⟩ ∧
      ∀ rows last, settings.rows = some rows → rows.last? = some last →
        ∀ spec ∈ plan.specs, ¬LacksRow spec (last + 1) := by
  rw [make_eq hstreams] at h
  split at h
  next => cases h
  next hnone =>
    cases h
    refine ⟨rfl, fun rows last hrows hlast spec hspec hlacks => ?_⟩
    have hfault := rowFault?_isSome_iff.mpr ⟨rows, last, hrows, hlast, spec, hspec, hlacks⟩
    rw [hnone] at hfault
    cases hfault

end

/-! ## Selected positions -/

/-- A selection that fits the tables of a plan, which are read as they are: it was read, and each
table that drives a scenario has its last row. -/
structure Plan.Accepts (plan : Plan) (rows : Rows) : Prop where
  rows_eq : plan.settings.rows = some rows
  resolver_eq : ∃ kinds : Special.Kinds, plan.resolver = kinds.resolver
  proper : rows.Proper
  fits : ∀ last, rows.last? = some last → ∀ spec ∈ plan.specs, ¬LacksRow spec (last + 1)

/-- A plan that was made with a selection accepts it, whatever build errors and arguments are added
to it. -/
theorem make_accepts {manifest : Manifest} {specs : Collection} {settings : Settings}
    {kinds : Special.Kinds} (hstreams : 0 < settings.streams) (hread : settings.RowsRead)
    {plan : Plan} (h : Plan.make manifest specs settings kinds = .ok plan) {rows : Rows}
    (hrows : settings.rows = some rows) (errors : BuildErrors) (args : List RunArg) :
    ({ plan with buildErrors := errors, args := args } : Plan).Accepts rows := by
  obtain ⟨rfl, hfits⟩ := make_ok hstreams h
  obtain ⟨source, hsource⟩ := hread rows hrows
  exact ⟨hrows, ⟨kinds, rfl⟩, Table.parse_proper hsource, fun last => hfits rows last hrows⟩

section

variable {plan : Plan} {rows : Rows} {spec : Specification}

theorem Plan.Accepts.listsRows (h : plan.Accepts rows) : plan.resolver.ListsRows := by
  obtain ⟨kinds, hkinds⟩ := h.resolver_eq
  exact hkinds ▸ kinds.resolver_listsRows

/-- The rows of a driving table that are selected are all the selected rows. -/
theorem Plan.Accepts.selectedPositions_eq (h : plan.Accepts rows) (hspec : spec ∈ plan.specs)
    (hresolvable : Resolvable plan spec) {sc : Scenario} (hsc : sc ∈ spec.scenarios)
    {t : Table.Data} (ht : drivingTable spec sc = some t) :
    plan.selectedPositions t = rows.toList := by
  obtain ⟨last, hlast, hgreatest⟩ := h.proper.last?_isGreatest
  obtain ⟨huses, htable⟩ := drivingTable_eq_some.mp ht
  have hrow : last < t.rowCount := by
    by_contra hshort
    exact h.fits last hlast spec hspec
      ⟨t, htable, ⟨sc, hsc, huses⟩, Nat.lt_succ_of_le (Nat.le_of_not_lt hshort)⟩
  have hselects : ∀ i, plan.selectsRow i = rows.contains i := by
    intro i
    rw [Plan.selectsRow, h.rows_eq]
    rfl
  obtain ⟨listed, hlisted⟩ := hresolvable t htable
  rw [Plan.selectedPositions, h.listsRows.positions_eq hlisted]
  -- both lists are strictly ascending, and a selected row is not behind the last one
  refine (List.pairwise_lt_range.filter _).eq_of_mem_iff
    (Table.toList_ascending h.proper.toCanonical) fun i => ?_
  rw [List.mem_filter, List.mem_range, hselects, Table.mem_toList]
  exact and_iff_right_of_imp fun hi => Nat.lt_of_le_of_lt (hgreatest.2 hi) hrow

theorem Plan.Accepts.toList_ne_nil (h : plan.Accepts rows) : rows.toList ≠ [] := by
  obtain ⟨last, -, hgreatest⟩ := h.proper.last?_isGreatest
  exact List.ne_nil_of_mem (Table.mem_toList.mpr hgreatest.1)

/-! ## Results -/

/-- What a scenario runs for: each selected row if a table drives it, and otherwise a single time
for none. -/
def occasionsOf (spec : Specification) (rows : Rows) (sc : Scenario) : List (Option Nat) :=
  match drivingTable spec sc with
  | some _ => rows.toList.map some
  | none => [none]

/-- The scenarios of a specification with what they run for, in order. -/
def occasions (spec : Specification) (rows : Rows) : List (Scenario × Option Nat) :=
  spec.scenarios.flatMap fun sc => (occasionsOf spec rows sc).map fun row => (sc, row)

/-- A scenario of a specification that is carried out is reported for each of its occasions. -/
theorem Plan.Accepts.onOccasions (h : plan.Accepts rows) (hspec : spec ∈ plan.specs)
    (hresolvable : Resolvable plan spec) {carriedOut : Prop} (hcarried : carriedOut)
    {sc : Scenario} (hsc : sc ∈ spec.scenarios) {rs : List ScenarioResult}
    (hreported : ReportedFor plan spec carriedOut sc rs) :
    List.Forall₂ (fun row r => r.Mirrors sc row) (occasionsOf spec rows sc) rs := by
  rw [occasionsOf]
  cases hreported with
  | once hundriven hmirrors =>
    rw [hundriven hcarried]
    exact .cons hmirrors .nil
  | perRow _ hdriven _ hrows =>
    rw [h.selectedPositions_eq hspec hresolvable hsc hdriven] at hrows
    rw [hdriven]
    exact List.forall₂_map_left_iff.mpr hrows
  | withoutRows _ hdriven hnone _ _ =>
    rw [h.selectedPositions_eq hspec hresolvable hsc hdriven] at hnone
    exact absurd hnone h.toList_ne_nil

/-- A specification that is carried out is reported for the occasions of its scenarios. -/
theorem Plan.Accepts.reported (h : plan.Accepts rows) (hspec : spec ∈ plan.specs)
    {b : Behavior σ} {s : Session σ} (hcarried : CarriedOut b plan spec s) :
    List.Forall₂ (fun o r => r.Mirrors o.1 o.2) (occasions spec rows)
      (announcedSpec b plan spec s).1.scenarios := by
  obtain ⟨blocks, hresults, hblocks⟩ := announcedSpec_inBlocks b plan spec s
  have heach : List.Forall₂ (fun sc rs => List.Forall₂ (fun o r => r.Mirrors o.1 o.2)
      ((occasionsOf spec rows sc).map fun row => (sc, row)) rs) spec.scenarios blocks := by
    refine ((List.forall₂_and_left _ _).mpr ⟨fun _ hsc => hsc, hblocks⟩).imp ?_
    intro sc rs ⟨hsc, hreported⟩
    exact List.forall₂_map_left_iff.mpr
      (h.onOccasions hspec hcarried.resolvable hcarried hsc hreported)
  have hall := List.rel_flatten (List.forall₂_map_left_iff.mpr heach)
  rw [← hresults, ← List.flatMap_def] at hall
  exact hall

end

/-! ## Reasons of skipped scenarios -/

/-- The reason of a scenario that its table leaves without rows. -/
def noRowsReason : String := "no data table rows selected"

/-- Why a scenario of a specification is skipped, and the reason that is given. -/
inductive SkipCause (plan : Plan) (spec : Specification) : String → Prop
  | requested : SkipCause plan spec requestedReason
  | illFormed {sc : Scenario} : (plan.buildErrors.ofScenario spec sc).isSome = true →
      SkipCause plan spec "scenario has build errors"
  | dead : SkipCause plan spec deadReason
  | withoutRows {sc : Scenario} : sc ∈ spec.scenarios → sc.usesTable = true →
      drivingRows plan spec = .ok (some []) → SkipCause plan spec noRowsReason
  /-- The specification has build errors of its own. -/
  | specIllFormed {errors : List Item.ParseError} : plan.buildErrors.ofSpec spec = some errors →
      SkipCause plan spec "specification has build errors"
  | refused : SkipCause plan spec "before spec hook failed"
  | unresolvable {fault : Special.Fault} : drivingRows plan spec = .error fault →
      SkipCause plan spec fault.text

section

variable {plan : Plan} {spec : Specification} {sc : Scenario} {aborted : Bool}
variable {hs : List Happening}

/-- The reasons of skipped results are all given for a cause. -/
def SkippedFor (plan : Plan) (spec : Specification) (rs : List ScenarioResult) : Prop :=
  ∀ r ∈ rs, ∀ reason, r.skipReason = some reason → SkipCause plan spec reason

theorem skippedFor_notExecuted {row : Option Nat} {reason : String}
    (h : SkipCause plan spec reason) :
    SkippedFor plan spec [.notExecuted sc row reason] := by
  intro r hr reason' hreason
  obtain rfl := List.mem_singleton.mp hr
  obtain rfl := Option.some.inj hreason
  exact h

theorem skippedFor_allSkipped {reason : String} (h : SkipCause plan spec reason) :
    SkippedFor plan spec (allSkipped spec reason) := by
  intro r hr reason' hreason
  obtain ⟨sc, -, rfl⟩ := List.mem_map.mp hr
  obtain rfl := Option.some.inj hreason
  exact h

theorem ScenarioHistory.skip_cause {row : Option Table.Row} {r : ScenarioResult}
    (h : ScenarioHistory plan spec sc row aborted hs r) : SkippedFor plan spec [r] := by
  cases h with
  | illFormed herrors => exact skippedFor_notExecuted (.illFormed herrors)
  | dead _ _ => exact skippedFor_notExecuted .dead
  | attempted _ _ hattempts =>
    intro r hr reason hreason
    obtain rfl := List.mem_singleton.mp hr
    obtain rfl := hattempts.skipReason_eq hreason
    exact .requested

theorem SkippedFor.append {rs rs' : List ScenarioResult} (h : SkippedFor plan spec rs)
    (h' : SkippedFor plan spec rs') : SkippedFor plan spec (rs ++ rs') :=
  List.forall_mem_append.mpr ⟨h, h'⟩

theorem RowsHistory.skip_cause {rows : List Table.Row} {rs : List ScenarioResult}
    (h : RowsHistory plan spec sc aborted rows hs rs) : SkippedFor plan spec rs := by
  induction h with
  | nil => exact fun _ hr => nomatch hr
  | cons hfirst _ ih => exact SkippedFor.append hfirst.skip_cause ih

theorem TableHistory.skip_cause {rows : Option (List Table.Row)} {rs : List ScenarioResult}
    (h : TableHistory plan spec aborted sc rows hs rs) (hrows : drivingRows plan spec = .ok rows)
    (hsc : sc ∈ spec.scenarios) : SkippedFor plan spec rs := by
  cases h with
  | once _ hscenario => exact hscenario.skip_cause
  | perRow _ hall => exact hall.skip_cause
  | withoutRows huses => exact skippedFor_notExecuted (.withoutRows hsc huses hrows)

theorem ScenariosHistory.skip_cause {rows : Option (List Table.Row)} {scenarios : List Scenario}
    {rs : List ScenarioResult} (h : ScenariosHistory plan spec rows aborted scenarios hs rs)
    (hrows : drivingRows plan spec = .ok rows) (hall : ∀ sc ∈ scenarios, sc ∈ spec.scenarios) :
    SkippedFor plan spec rs := by
  induction h with
  | nil => exact fun _ hr => nomatch hr
  | cons hfirst _ ih =>
    obtain ⟨hsc, hrest⟩ := List.forall_mem_cons.mp hall
    exact (hfirst.skip_cause hrows hsc).append (ih hrest)

theorem BodyHistory.skip_cause {before : Report} {rs : List ScenarioResult}
    {failure : Option Result.Failure} (h : BodyHistory plan spec before aborted hs rs failure) :
    SkippedFor plan spec rs := by
  cases h with
  | refused _ => exact skippedFor_allSkipped .refused
  | unresolvable _ hrows => exact skippedFor_allSkipped (.unresolvable hrows)
  | carriedOut _ hrows hran => exact hran.skip_cause hrows fun _ hsc => hsc

/-- Whatever happens, a scenario of a specification that is taken up is skipped for a cause. -/
theorem SpecHistory.skip_cause {r : SpecResult} (h : SpecHistory plan spec aborted hs r) :
    SkippedFor plan spec r.scenarios := by
  cases h with
  | illFormed herrors => exact skippedFor_allSkipped (.specIllFormed herrors)
  | dead _ _ => exact skippedFor_allSkipped .dead
  | takenUp _ _ _ hbody _ => exact hbody.skip_cause

end

/-- A text is no other text that does not begin as it does. -/
theorem append_ne {start rest text : String} (h : ¬start.toList <+: text.toList) :
    start ++ rest ≠ text := by
  rintro rfl
  exact h (String.toList_append ▸ List.prefix_append _ _)

theorem protocolError_ne_noRows (e : ProtocolError) : e.text ≠ noRowsReason := by
  cases e with
  | unreachable => decide
  | timeout ms =>
    show "runner did not respond within " ++ Text.Decimal.text ms ++ "ms" ≠ _
    rw [String.append_assoc]
    exact append_ne (by decide)
  | malformed text => exact append_ne (by decide)
  | io text => exact append_ne (by decide)
  | startup text => exact append_ne (by decide)

theorem fault_ne_noRows (fault : Special.Fault) : fault.text ≠ noRowsReason := by
  cases fault with
  | unknownKind token =>
    show "Resolver not found for special param <" ++ token ++ ">" ≠ _
    rw [String.append_assoc]
    exact append_ne (by decide)
  | invalid token reason =>
    show "Invalid special param <" ++ token ++ ">: " ++ reason ≠ _
    rw [String.append_assoc, String.append_assoc]
    exact append_ne (by decide)
  | unknownColumn column =>
    show "Dynamic param <" ++ column ++ "> could not be resolved, no matching table column" ≠ _
    rw [String.append_assoc]
    exact append_ne (by decide)
  | malformedTable fault =>
    show "Malformed table at row " ++ _ ++ ": expected " ++ _ ++ " cells, found " ++ _ ≠ _
    rw [String.append_assoc, String.append_assoc, String.append_assoc, String.append_assoc]
    exact append_ne (by decide)

/-- The words of a table without rows are only said of one. -/
theorem SkipCause.without_rows {plan : Plan} {spec : Specification}
    (h : SkipCause plan spec noRowsReason) :
    ∃ sc ∈ spec.scenarios, sc.usesTable = true ∧ drivingRows plan spec = .ok (some []) := by
  generalize hreason : noRowsReason = reason at h
  cases h with
  | withoutRows hsc huses hrows => exact ⟨_, hsc, huses, hrows⟩
  | unresolvable _ => exact absurd hreason.symm (fault_ne_noRows _)
  | _ => exact absurd hreason (by decide)

/-- No scenario of a plan that accepts its selection is skipped for want of rows, whatever happens
while its specification is run or left out. -/
theorem Plan.Accepts.skipReason_ne {plan : Plan} {rows : Rows} {spec : Specification}
    {aborted : Bool} {hs : List Happening} {result : SpecResult} (h : plan.Accepts rows)
    (hspec : spec ∈ plan.specs) (hhistory : SpecHistory plan spec aborted hs result) :
    ∀ r ∈ result.scenarios, r.skipReason ≠ some noRowsReason := by
  intro r hr hreason
  obtain ⟨sc, hsc, huses, hrows⟩ := (hhistory.skip_cause r hr _ hreason).without_rows
  obtain ⟨hresolvable, ⟨-, hnone⟩ | ⟨t, selected, ht, hselected, hpositions⟩⟩ :=
    drivingRows_ok plan hrows
  · cases hnone
  · -- the rows that were filtered are all the selected ones, and there is one
    obtain rfl := Option.some.inj hselected
    have hdriven : drivingTable spec sc = some t := drivingTable_eq_some.mpr ⟨huses, ht⟩
    rw [h.selectedPositions_eq hspec hresolvable hsc hdriven] at hpositions
    exact h.toList_ne_nil hpositions.symm

/-! ## Runs -/

section

variable {fleet : Fleet σ} {plan : Plan} {rows : Rows}

/-- A runner refuses the execution in these words. -/
def Refuses (fleet : Fleet σ) (plan : Plan) (words : String) : Prop :=
  ∃ stream runner, fleet.start stream = .ok runner ∧
    (openingReport fleet.toBehavior plan stream runner).failed = true ∧
    (openingReport fleet.toBehavior plan stream runner).errorMessage = some words

theorem leftOut_skipReason {reason : String} {item : Placed} {r : ScenarioResult}
    (hr : r ∈ (leftOut reason item).2.scenarios) : r.skipReason = some reason := by
  obtain ⟨sc, -, rfl⟩ := List.mem_map.mp hr
  rfl

theorem refusalOf_message_eq {report : Report} (h : (refusalOf report).message = noRowsReason) :
    report.errorMessage = some noRowsReason := by
  rw [refusalOf, Result.Failure.ofReport] at h
  cases hmessage : report.errorMessage with
  | none =>
    simp only [hmessage] at h
    exact absurd h (by decide)
  | some message =>
    simp only [hmessage] at h
    split at h
    next => exact absurd h (by decide)
    next => rw [h]

/-- The words of a table without rows come from a stream only if its runner refuses in them. -/
theorem StreamHistory.without_rows {stream : Nat} {items : List Placed} {trace : List Occurrence}
    {o : StreamOutcome} (h : StreamHistory fleet plan stream items trace o)
    (haccepts : plan.Accepts rows) (hitems : ∀ item ∈ items, item.2 ∈ plan.specs)
    {entry : Nat × SpecResult} (hentry : entry ∈ o.results) {r : ScenarioResult}
    (hr : r ∈ entry.2.scenarios) (hreason : r.skipReason = some noRowsReason) :
    Refuses fleet plan noRowsReason := by
  cases h with
  | unstarted _ =>
    obtain ⟨item, -, rfl⟩ := List.mem_map.mp hentry
    rw [leftOut_skipReason hr, Option.some.injEq] at hreason
    exact absurd hreason (protocolError_ne_noRows _)
  | refused hstart hfailed =>
    obtain ⟨item, -, rfl⟩ := List.mem_map.mp hentry
    rw [leftOut_skipReason hr, Option.some.injEq] at hreason
    exact ⟨stream, _, hstart, hfailed, refusalOf_message_eq hreason⟩
  | served _ _ hspecs _ =>
    obtain ⟨item, hitem, aborted, before, happened, after, hhistory, -⟩ :=
      hspecs.entry_history entry hentry
    exact absurd hreason (haccepts.skipReason_ne (hitems item hitem) hhistory r hr)

/-- The words of a table without rows are in the result of a run only if a runner refuses in them.
-/
theorem Plan.Accepts.run_without_rows (h : plan.Accepts rows) (order : Nat → Nat)
    {result : SpecResult} (hresult : result ∈ (runSuite fleet plan order).result.specs)
    {r : ScenarioResult} (hr : r ∈ result.scenarios)
    (hreason : r.skipReason = some noRowsReason) : Refuses fleet plan noRowsReason := by
  obtain ⟨o, ho, entry, hentry, rfl⟩ := (mem_merge_specs 0).mp hresult
  rcases completed_cases ho with ⟨run, hrun, hends⟩ | rfl
  · obtain ⟨work, -, hordered, hended⟩ := runStreams_ended fleet plan order
    obtain ⟨share, hshare, hended⟩ := forall₂_mem_right hended hrun
    obtain ⟨trace, hhistory⟩ := hended.follows.history hends
    refine hhistory.without_rows h (fun item hitem => ?_) hentry hr hreason
    exact List.mem_of_getElem? (mem_indexed.mp ((hordered share hshare).subset hitem))
  · obtain ⟨item, -, rfl⟩ := List.mem_map.mp hentry
    rw [leftOut_skipReason hr, Option.some.injEq] at hreason
    exact absurd hreason (by decide)

end

/-- The specifications of a plan run for the selected rows, whatever runners do. -/
structure RunsAsSelected (plan : Plan) (rows : Rows) : Prop where
  ascending : rows.toList.Pairwise (· < ·)
  /-- A table whose rows are all as wide as its headers keeps nothing from being carried out. -/
  resolvable : ∀ spec ∈ plan.specs, Rectangular spec → Resolvable plan spec
  /-- A specification that is carried out is reported for all that its scenarios run for. -/
  reported : ∀ {σ : Type} (b : Behavior σ) (s : Session σ), ∀ spec ∈ plan.specs,
    CarriedOut b plan spec s → List.Forall₂ (fun o r => r.Mirrors o.1 o.2) (occasions spec rows)
      (announcedSpec b plan spec s).1.scenarios
  /-- A specification that is taken up has rows, be it carried out or not. -/
  neverWithout : ∀ {σ : Type} (b : Behavior σ) (s : Session σ), ∀ spec ∈ plan.specs,
    ∀ r ∈ (announcedSpec b plan spec s).1.scenarios, r.skipReason ≠ some noRowsReason
  /-- Nor are the words of a table without rows in the result of a run, unless a runner refuses the
  execution in them. -/
  wordsOf : ∀ {σ : Type} (fleet : Fleet σ) (order : Nat → Nat),
    ∀ result ∈ (runSuite fleet plan order).result.specs, ∀ r ∈ result.scenarios,
      r.skipReason = some noRowsReason → Refuses fleet plan noRowsReason

theorem Plan.Accepts.runsAsSelected {plan : Plan} {rows : Rows} (h : plan.Accepts rows) :
    RunsAsSelected plan rows where
  ascending := Table.toList_ascending h.proper.toCanonical
  resolvable _ _ hrectangular := by
    obtain ⟨kinds, hkinds⟩ := h.resolver_eq
    exact (resolvable_iff_rectangular hkinds _).mpr hrectangular
  reported _ _ _ hspec hcarried := h.reported hspec hcarried
  neverWithout b s spec hspec := by
    obtain ⟨hs, -, hhistory⟩ := announcedSpec_history b plan spec s
    exact h.skipReason_ne hspec hhistory
  wordsOf _ order _ hresult _ hr hreason := h.run_without_rows order hresult hr hreason

/-- A selection of rows is refused up front, or it runs as it is. With streams to run on, a plan is
refused for its rows exactly if a specification that is left after tag filtering has a table that a
scenario uses, with fewer rows than the greatest selected one. If the plan is made, a specification
that is carried out is reported, for each scenario that uses its table, for the selected rows in
ascending order and for no others, and no scenario is skipped for want of rows. -/
theorem accepted_rows_run (manifest : Manifest) (specs : Collection) {settings : Settings}
    (kinds : Special.Kinds) (hstreams : 0 < settings.streams) (hread : settings.RowsRead) :
    ((∃ file number available,
        Plan.make manifest specs settings kinds = .error (.rowOutOfRange file number available)) ↔
      ∃ rows last, settings.rows = some rows ∧ IsGreatest {i | rows.contains i = true} last ∧
        ∃ spec ∈ taggedSpecs settings specs, LacksRow spec (last + 1)) ∧
    ∀ plan rows, Plan.make manifest specs settings kinds = .ok plan → settings.rows = some rows →
      ∀ (errors : BuildErrors) (args : List RunArg),
        RunsAsSelected { plan with buildErrors := errors, args := args } rows :=
  ⟨make_rowOutOfRange_iff hstreams hread, fun _ _ hmade hrows errors args =>
    (make_accepts hstreams hread hmade hrows errors args).runsAsSelected⟩

/-! ## A table with three rows -/

/-- A scenario that greets the person in a row. -/
def greeting : Scenario where
  heading := "greeting"
  steps := [.step { text := "greet <name>", args := [.dynamic "name"] }]

/-- A specification with a table of some people. -/
def people (names : List String) : Specification where
  heading := "people"
  fileName := "specs/people.spec"
  dataTable := some { headers := ["name"], rows := names.map fun name => [name] }
  scenarios := [greeting]

/-- A plan for one specification, of which the first and the third row are selected. -/
def firstAndThird (spec : Specification) : Plan where
  manifest := { language := "python" }
  specs := [spec]
  settings := { rows := some ⟨[(0, 0), (2, 2)]⟩ }

/-- Two people are too few for the third row; of three people the first and the third are greeted.
-/
theorem first_and_third_greeted :
    let two := firstAndThird (people ["Ada", "Ben"])
    let three := firstAndThird (people ["Ada", "Ben", "Cleo"])
    (∃ file number available, Plan.make two.manifest two.specs two.settings {} =
      .error (.rowOutOfRange file number available)) ∧
    Plan.make three.manifest three.specs three.settings {} = .ok three ∧
    (announcedSpec passingFleet.toBehavior three (people ["Ada", "Ben", "Cleo"])
      blankSession).1.scenarios.map (·.tableRow) = [some 0, some 2] := by
  intro two three
  have hread : three.settings.RowsRead := by
    intro rows hrows
    obtain rfl := Option.some.inj hrows
    have hparts : (Text.splitOn ',' "3,1".toList).mapM Table.readPart = .ok [(2, 2), (0, 0)] := by
      decide +kernel
    refine ⟨"3,1", ?_⟩
    rw [Table.parse_of_parts hparts]
    simp [Table.mergedRanges, List.mergeSort, Table.rangeLe, Table.joinRanges]
  have hgreatest : IsGreatest {i | (⟨[(0, 0), (2, 2)]⟩ : Rows).contains i = true} 2 := by
    refine ⟨rfl, fun i hi => ?_⟩
    obtain ⟨r, hr, -, hle⟩ := Table.contains_iff.mp hi
    have hends : ∀ r ∈ [(0, 0), (2, 2)], r.2 ≤ 2 := by decide
    exact Nat.le_trans hle (hends r hr)
  refine ⟨?_, rfl, ?_⟩
  · refine (accepted_rows_run two.manifest two.specs {} (by decide) hread).1.mpr ?_
    exact ⟨_, 2, rfl, hgreatest, _, List.mem_singleton_self _, _, rfl,
      ⟨greeting, List.mem_singleton_self _, rfl⟩, by decide⟩
  · have hruns : RunsAsSelected three ⟨[(0, 0), (2, 2)]⟩ :=
      (accepted_rows_run three.manifest three.specs {} (by decide) hread).2
        three _ rfl rfl {} []
    have hcarried : CarriedOut passingFleet.toBehavior three (people ["Ada", "Ben", "Cleo"])
        blankSession := by
      refine ⟨rfl, rfl, rfl, hruns.resolvable _ (List.mem_singleton_self _) fun t ht => ?_⟩
      obtain rfl := Option.some.inj ht
      decide
    have hreported := hruns.reported passingFleet.toBehavior blankSession _
      (List.mem_singleton_self _) hcarried
    rw [Result.tableRows_eq (hreported.imp fun _ _ hmirrors => hmirrors.tableRow)]
    rfl

end SpecEngine.Engine
