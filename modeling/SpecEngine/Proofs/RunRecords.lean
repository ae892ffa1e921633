/-
# SpecEngine.Proofs.RunRecords -- the records on the disk belong to one run

A run of the command ends with an exit code or stops with an error. If it ends with an exit code, it
came to a suite result, which is the empty one when nothing is left to run, and the disk has the two
records of this result. If it stops before it has a result, the disk is as it was. Two ways to stop
are left: the records themselves cannot be written, or they are written and the failures that they
count are too many to be added up when the run is summed up.
-/
import SpecEngine.CommandLine.Run
import SpecEngine.Proofs.Precedence
import SpecEngine.Proofs.Storage
import SpecEngine.Proofs.Success

/-! ## The project root -/

namespace SpecEngine.Config

theorem Settings.discover_projectRoot {disk : Disk} {root : String} {d c : Settings}
    (h : Settings.discover disk root d = .ok c) : c.projectRoot = root := by
  unfold Settings.discover at h
  dsimp only at h
  split at h
  next =>
    obtain rfl := Except.ok.inj h
    rfl
  next path hfound =>
    cases hload : Settings.load disk path d with
    | error fault =>
      rw [hload] at h
      cases h
    | ok loaded =>
      rw [hload] at h
      obtain rfl := Except.ok.inj h
      rfl

end SpecEngine.Config

namespace SpecEngine.CommandLine

open Config (Settings Overrides Change)
open Record (HoldsRecords Status)
open Result (SuiteResult Verdict)
open Engine (Plan)

variable {σ : Type}

theorem RunOptions.apply_projectRoot (o : RunOptions) (c : Settings) :
    (o.apply c).1.projectRoot = c.projectRoot := by
  simp only [RunOptions.apply, Change.set_get Settings.projectRoot,
    Change.read_get Settings.projectRoot, implies_true]
  rfl

theorem settle_eq_ok {change : Change} {c : Settings} (h : settle change = .ok c) :
    change.1 = c := by
  obtain ⟨c', fault⟩ := change
  cases fault with
  | none => exact Except.ok.inj h
  | some fault => cases h

theorem baseSettings_projectRoot {w : World σ} {o : ProjectOptions} {c : Settings}
    (h : baseSettings w o = .ok c) : c.projectRoot = o.projectRoot := by
  rw [baseSettings] at h
  obtain ⟨found, hfound, h⟩ := bind_eq_ok h
  have hroot := Settings.discover_projectRoot (mapError_eq_ok hfound)
  dsimp only at h
  split at h
  · obtain ⟨overridden, hoverridden, h⟩ := bind_eq_ok h
    obtain rfl := Except.ok.inj h
    show overridden.projectRoot = o.projectRoot
    rw [← settle_eq_ok hoverridden, Settings.override_projectRoot, hroot]
  · obtain rfl := Except.ok.inj h
    exact hroot

/-- A run records in the project directory that its command line names. -/
theorem prepare_projectRoot {w : World σ} {o : RunOptions} {p : Prepared}
    (h : prepare w o = .ok p) : p.projectRoot = o.project.projectRoot := by
  rw [prepare] at h
  obtain ⟨base, hbase, h⟩ := bind_eq_ok h
  obtain ⟨c, hc, h⟩ := bind_eq_ok h
  obtain ⟨-, -, h⟩ := bind_eq_ok h
  obtain ⟨manifest, -, h⟩ := bind_eq_ok h
  obtain ⟨tree, -, h⟩ := bind_eq_ok h
  obtain ⟨work, -, h⟩ := bind_eq_ok h
  obtain rfl := Except.ok.inj h
  show c.projectRoot = o.project.projectRoot
  rw [← settle_eq_ok hc, RunOptions.apply_projectRoot, baseSettings_projectRoot hbase]

/-! ## Endings -/

/-- The suite result that the work of a run comes to. -/
inductive Work.ComesTo (w : World σ) : Work → SuiteResult → Prop
  | nothingFailed : ComesTo w .nothingFailed .nothing
  | nothingFound : ComesTo w .nothingFound .nothing
  /-- A runner says what is wrong with the steps, and the plan is run to its end. -/
  | ready {plan : Plan} {command : Runner.Command} {errors : Item.BuildErrors} {validator : σ}
      {run : Engine.SuiteRun σ} :
      validateOn (w.runners command plan.settings.runnerTimeoutMs) plan.specs =
        .ok (errors, validator) →
      Engine.execute (w.runners command plan.settings.runnerTimeoutMs)
        { plan with buildErrors := plan.buildErrors.merge errors } w.order = some run →
      ComesTo w (.ready plan command) run.result

/-- A run stops before it comes to a result. -/
inductive StopsEarly (w : World σ) (o : RunOptions) (stop : Stop) : Prop
  /-- Something in the project, on the command line or in the environment stops it. -/
  | unprepared : prepare w o = .error stop → StopsEarly w o stop
  /-- The runner that validates the steps does not start. -/
  | unvalidated {p : Prepared} {plan : Plan} {command : Runner.Command} :
      prepare w o = .ok p → p.work = .ready plan command →
      validateOn (w.runners command plan.settings.runnerTimeoutMs) plan.specs = .error stop →
      StopsEarly w o stop
  /-- The task that carries out the command breaks down while it runs the specifications. -/
  | brokenDown {p : Prepared} {plan : Plan} {command : Runner.Command} {errors : Item.BuildErrors}
      {validator : σ} :
      prepare w o = .ok p → p.work = .ready plan command →
      validateOn (w.runners command plan.settings.runnerTimeoutMs) plan.specs =
        .ok (errors, validator) →
      Engine.execute (w.runners command plan.settings.runnerTimeoutMs)
        { plan with buildErrors := plan.buildErrors.merge errors } w.order = none →
      stop = .brokenDown → StopsEarly w o stop

/-- An ending after which the records on the disk belong to one run. With a verdict, it is the run
that ends, and the verdict is on the same result; with an error, it is the run before, unless the
records cannot be written or the run stops after it has written them. -/
def Ending.Records (w : World σ) (o : RunOptions) (e : Ending σ) : Prop :=
  match e.verdict with
  | .ok verdict => ∃ p result, prepare w o = .ok p ∧ p.work.ComesTo w result ∧
      e.recorded = some result ∧ verdict = Result.verdict result p.parsedCleanly ∧
      HoldsRecords e.disk o.project.projectRoot result
  | .error stop => StopsEarly w o stop ∧ e.disk = w.disk ∨
      (∃ p result fault, prepare w o = .ok p ∧ p.work.ComesTo w result ∧ stop = .record fault ∧
        Record.writeRun w.disk o.project.projectRoot result = (e.disk, some fault)) ∨
      ∃ p result, prepare w o = .ok p ∧ p.work.ComesTo w result ∧ stop = .overflow ∧
        (Status.ofSuite result).overflows = true ∧ e.recorded = some result ∧
        HoldsRecords e.disk o.project.projectRoot result

variable {w : World σ} {o : RunOptions}

/-- Nothing but an overflow stops the account of a result. -/
theorem account_stop {style : Report.Style} {result : SuiteResult} {stop : Stop}
    (h : (account style result).stop = some stop) :
    stop = .overflow ∧ (Status.ofSuite result).overflows = true := by
  rw [account] at h
  split at h
  next => cases h
  next hnone =>
    rw [Report.Style.summary?] at hnone
    split at hnone
    next hover => exact ⟨(Option.some.inj h).symm, (Bool.and_eq_true_iff.mp hover).2⟩
    next => cases hnone

theorem stopped_records {stop : Stop} (h : StopsEarly w o stop) : (stopped w stop).Records w o :=
  .inl ⟨h, rfl⟩

theorem record_records {p : Prepared} {result : SuiteResult} (hp : prepare w o = .ok p)
    (hresult : p.work.ComesTo w result) (printed : List String) {account : Account}
    (haccount : ∀ stop, account.stop = some stop →
      stop = .overflow ∧ (Status.ofSuite result).overflows = true) (runners : List σ) :
    (record w p result printed account runners).Records w o := by
  have hroot := prepare_projectRoot hp
  rw [record]
  split
  next disk fault hwrite =>
    exact .inr (.inl ⟨p, result, fault, hp, hresult, rfl, by rw [← hroot, hwrite]⟩)
  next disk hwrite =>
    have hholds : HoldsRecords disk o.project.projectRoot result := by
      rw [← hroot]
      exact Record.writeRun_holds hwrite
    cases hstop : account.stop with
    | none => exact ⟨p, result, hp, hresult, rfl, rfl, hholds⟩
    | some stop =>
      obtain ⟨hoverflow, hover⟩ := haccount stop hstop
      exact .inr (.inr ⟨p, result, hp, hresult, hoverflow, hover, rfl, hholds⟩)

theorem runPlan_records {p : Prepared} {plan : Plan} {command : Runner.Command}
    (hp : prepare w o = .ok p) (hwork : p.work = .ready plan command) :
    (runPlan w p plan command).Records w o := by
  rw [runPlan]
  dsimp only
  split
  next stop hvalidate => exact stopped_records (.unvalidated hp hwork hvalidate)
  next errors validator hvalidate =>
    split
    next hbroken => exact .inl ⟨.brokenDown hp hwork hvalidate hbroken rfl, rfl⟩
    next run hrun =>
      exact record_records hp (hwork ▸ .ready hvalidate hrun) _ (fun _ => account_stop) _

/-- Whatever a run of the command comes to, the records on the disk belong to one run. If it ends
with an exit code, they are those of its own result, in the project directory that it was given; if
it stops before it has a result, the disk is unchanged. -/
theorem run_records (w : World σ) (o : RunOptions) : (run w o).Records w o := by
  rw [run]
  split
  next stop hstop => exact stopped_records (.unprepared hstop)
  next p hp =>
    split
    next hwork => exact record_records hp (hwork ▸ .nothingFailed) _ (by simp) _
    next hwork => exact record_records hp (hwork ▸ .nothingFound) _ (by simp) _
    next plan command hwork => exact runPlan_records hp hwork

/-- Whether the work is over because nothing failed. -/
def Work.isNothingFailed : Work → Bool
  | .nothingFailed => true
  | _ => false

/-- A project with an empty tree and a status record of an earlier run. -/
def emptyProject : World Unit where
  disk :=
    { root := "/p"
      entries := [
        (["manifest.json"], .file "\x7b\"language\":\"python\"\x7d".toUTF8),
        (["tree.json"], .file "\x7b\"specs\":[]\x7d".toUTF8),
        ([".steprun"], .dir),
        ([".steprun", "executionStatus.json"], .file "an earlier run".toUTF8)] }
  environment _ := none
  runners _ _ := Engine.passingFleet

/-- Running again what failed finds nothing recorded and ends at once, and the record of the earlier
run is replaced by that of an empty one. -/
theorem empty_rerun_records :
    let o : RunOptions :=
      { tree := "/p/tree.json", project := { projectRoot := "/p" }, failed := true }
    (run emptyProject o).verdict = .ok .success ∧
      HoldsRecords (run emptyProject o).disk "/p" .nothing := by
  intro o
  have hverdict : (run emptyProject o).verdict = .ok .success := by decide +kernel
  have hwork : (prepare emptyProject o).toOption.map (·.work.isNothingFailed) = some true := by
    decide +kernel
  have hrecords := run_records emptyProject o
  rw [Ending.Records, hverdict] at hrecords
  obtain ⟨p, result, hp, hresult, -, -, hholds⟩ := hrecords
  rw [hp] at hwork
  have hover : p.work.isNothingFailed = true := Option.some.inj hwork
  refine ⟨hverdict, ?_⟩
  generalize p.work = work at hresult hover
  cases hresult with
  | nothingFailed => exact hholds
  | nothingFound => cases hover
  | ready _ _ => cases hover

end SpecEngine.CommandLine
