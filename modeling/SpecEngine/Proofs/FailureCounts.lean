/-
# SpecEngine.Proofs.FailureCounts -- what the failure counters on record are taken for

Whether the recorded run failed is told by the sum of two counters, and twice: `status` ends with
the verdict, and a coloured summary begins with a red line. A record that was read may hold any
64-bit numbers, and their sum may need more bits. As long as it does not, both places tell a failure
exactly if one of the counters is positive. Otherwise neither tells anything: the addition
overflows, `status` stops without a verdict and there is no summary.
-/
import SpecEngine.CommandLine.Run
import SpecEngine.Proofs.StoredRecords
import SpecEngine.Proofs.Success
import SpecEngine.Report.Console

namespace SpecEngine.Record

namespace Status

/-- A failure is on record, of a specification or of a scenario. -/
def RecordsFailure (s : Status) : Prop := 0 < s.specsFailed ∨ 0 < s.scenariosFailed

theorem tellsFailure_iff (s : Status) : s.tellsFailure = true ↔ s.RecordsFailure := by
  rw [tellsFailure, decide_eq_true_iff, failures, RecordsFailure, UInt64.lt_iff_toNat_lt,
    UInt64.lt_iff_toNat_lt, UInt64.toNat_zero]
  omega

theorem verdict_iff (s : Status) : s.verdict = .executionFailed ↔ s.RecordsFailure := by
  rw [← tellsFailure_iff, verdict]
  split
  next h => exact iff_of_true rfl h
  next h => exact iff_of_false nofun h

theorem verdict_success_iff (s : Status) : s.verdict = .success ↔ ¬s.RecordsFailure := by
  rw [← tellsFailure_iff, verdict]
  split
  next h => exact iff_of_false nofun (not_not_intro h)
  next h => exact iff_of_true rfl h

/-- The sum overflows if it is at least the least number that has more than 64 bits. -/
theorem overflows_iff (s : Status) :
    s.overflows = true ↔ UInt64.size ≤ s.specsFailed.toNat + s.scenariosFailed.toNat := by
  rw [overflows, decide_eq_true_iff]
  rfl

end Status

end SpecEngine.Record

namespace SpecEngine.Report

open Record (Status)

/-- The text begins with a line in the colour of failures. -/
def MarksFailed (line text : String) : Prop :=
  ∃ rest, text = colorOf .failed ++ line ++ colorEnd ++ "\n" ++ rest

theorem summary_eq (style : Style) (s : Status) (executionTimeMs : Nat) :
    ∃ rest, style.summary s executionTimeMs =
      (if style.colors && s.tellsFailure then colorOf .failed ++ s.specLine ++ colorEnd
        else s.specLine) ++ "\n" ++ rest :=
  ⟨_, rfl⟩

/-- A coloured summary is marked if the counters tell of a failure. -/
theorem summary_marks_iff {style : Style} (hcolors : style.colors = true) (s : Status)
    (executionTimeMs : Nat) :
    MarksFailed s.specLine (style.summary s executionTimeMs) ↔ s.tellsFailure = true := by
  obtain ⟨rest, hsummary⟩ := summary_eq style s executionTimeMs
  rw [hsummary, hcolors, Bool.true_and]
  split
  next htells => exact iff_of_true ⟨rest, rfl⟩ htells
  next hsilent =>
    refine iff_of_false ?_ hsilent
    rintro ⟨rest', htext⟩
    have hhead := congrArg (fun text => text.toList.head?) htext
    simp [Status.specLine, Status.countLine, colorOf] at hhead

/-- Where the sum overflows there is no coloured summary. -/
theorem summary?_eq_none {style : Style} (hcolors : style.colors = true) {s : Status}
    (hover : s.overflows = true) (executionTimeMs : Nat) :
    style.summary? s executionTimeMs = none := by
  rw [Style.summary?, hcolors, hover]
  rfl

end SpecEngine.Report

namespace SpecEngine.CommandLine

open Record (Status)
open Report (Style MarksFailed)

variable {σ : Type} {w : World σ} {root : String} {s : Status}

/-- Of a record that is read, `status` tells failure or success unless the sum of the counters
overflows. -/
theorem showStatus_verdict (h : Status.read w.disk root = .ok (some s)) (json : Bool) :
    (showStatus w root json).verdict =
      if s.overflows then .error .overflow else .ok s.verdict := by
  rw [showStatus, h]

/-- A sum that overflows breaks the command down. -/
theorem showStatus_exitCode (h : Status.read w.disk root = .ok (some s))
    (hover : s.overflows = true) (json : Bool) : (showStatus w root json).exitCode = 101 := by
  rw [Ending.exitCode, showStatus_verdict h json, if_pos hover]
  rfl

/-- Of every record that is read, `status` and the coloured summary tell a failure under the same
condition: one of the two failure counters is positive. They do so as long as 64 bits can hold the
sum of these. If not, `status` stops with exit code 101 and the summary is not made, although a
failure is on record. -/
theorem recorded_failures_told (h : Status.read w.disk root = .ok (some s)) (json : Bool)
    {style : Style} (hcolors : style.colors = true) (executionTimeMs : Nat) :
    (s.specsFailed.toNat + s.scenariosFailed.toNat < UInt64.size →
      ((showStatus w root json).verdict = .ok .executionFailed ↔ s.RecordsFailure) ∧
      ((showStatus w root json).verdict = .ok .success ↔ ¬s.RecordsFailure) ∧
      ∃ text, style.summary? s executionTimeMs = some text ∧
        (MarksFailed s.specLine text ↔ s.RecordsFailure)) ∧
    (UInt64.size ≤ s.specsFailed.toNat + s.scenariosFailed.toNat →
      s.RecordsFailure ∧ (showStatus w root json).exitCode = 101 ∧
      style.summary? s executionTimeMs = none) := by
  refine ⟨fun hfits => ?_, fun hover => ?_⟩
  · have hno : s.overflows = false := by
      rw [← Bool.not_eq_true, Status.overflows_iff]
      exact Nat.not_le_of_lt hfits
    rw [showStatus_verdict h json, hno, if_neg Bool.false_ne_true, Except.ok.injEq, Except.ok.injEq]
    refine ⟨s.verdict_iff, s.verdict_success_iff, style.summary s executionTimeMs, ?_, ?_⟩
    · rw [Style.summary?, hno, Bool.and_false, if_neg Bool.false_ne_true]
    · rw [Report.summary_marks_iff hcolors, Status.tellsFailure_iff]
  · have hyes : s.overflows = true := s.overflows_iff.mpr hover
    refine ⟨?_, showStatus_exitCode h hyes json, Report.summary?_eq_none hcolors hyes _⟩
    rw [← Status.tellsFailure_iff, Status.tellsFailure, decide_eq_true_iff]
    exact Nat.lt_of_lt_of_le (by decide) hover

/-- A record in which only these failures are counted. -/
def failuresOnly (specs scenarios : UInt64) : Status := ⟨"out", 0, 0, specs, 0, 0, 0, scenarios, 0⟩

/-- A project with such a record. -/
def recordedProject (specs scenarios : UInt64) : World Unit where
  disk :=
    { root := "/p"
      entries := [
        ([".steprun"], .dir),
        ([".steprun", "executionStatus.json"],
          .file (failuresOnly specs scenarios).fileText.toUTF8)] }
  environment _ := none
  runners _ _ := Engine.passingFleet

theorem read_recordedProject (specs scenarios : UInt64) :
    Status.read (recordedProject specs scenarios).disk "/p" =
      .ok (some (failuresOnly specs scenarios)) := by
  have htop : (recordedProject specs scenarios).disk.root.endsWith "/" = false := by
    show "/p".endsWith "/" = false
    decide +kernel
  have hroot : (recordedProject specs scenarios).disk.LeadsTo "/p" [] := rfl
  have hstate := hroot.join htop (by decide) rfl Record.isName_stateDirectory (by
    show Record.stateDirectory "/p" ≠ "/p"
    decide +kernel)
  have hrecord := hstate.join htop (Disk.join_ne_empty (by decide) _) rfl
    Record.isName_statusFile (by
      show Record.statusPath "/p" ≠ "/p"
      decide +kernel)
  have hadmissible : Disk.Admissible (Record.statusPath "/p") := by
    unfold Disk.Admissible
    decide +kernel
  exact Status.read_of_text (Disk.readText_eq_ok.mpr
    ⟨_, _, Disk.locate_eq_ok.mpr ⟨hadmissible, hrecord⟩, rfl, Disk.fromUTF8?_toUTF8 _⟩)

/-- Great counters tell their failures, as long as 64 bits can hold the sum of them. -/
theorem great_counters_told :
    let s := failuresOnly (.ofNat (UInt64.size - 2)) 1
    let w := recordedProject (.ofNat (UInt64.size - 2)) 1
    let style : Style := { colors := true, showStream := false }
    Status.read w.disk "/p" = .ok (some s) ∧
      (showStatus w "/p" false).verdict = .ok .executionFailed ∧
      ∃ text, style.summary? s 0 = some text ∧ MarksFailed s.specLine text := by
  intro s w style
  have hread : Status.read w.disk "/p" = .ok (some s) := read_recordedProject _ _
  have hfailure : s.RecordsFailure := .inl (by decide)
  have hcolors : style.colors = true := rfl
  obtain ⟨htold, -⟩ := recorded_failures_told hread false hcolors 0
  obtain ⟨hverdict, -, text, htext, hmarks⟩ := htold (by decide)
  exact ⟨hread, hverdict.mpr hfailure, text, htext, hmarks.mpr hfailure⟩

/-- With one failure more, `status` stops where it should tell of a failed run, and the summary is
not made. -/
theorem counters_overflow :
    let s := failuresOnly (.ofNat (UInt64.size - 1)) 1
    let w := recordedProject (.ofNat (UInt64.size - 1)) 1
    let style : Style := { colors := true, showStream := false }
    Status.read w.disk "/p" = .ok (some s) ∧ s.RecordsFailure ∧
      (showStatus w "/p" false).verdict ≠ .ok .executionFailed ∧
      (showStatus w "/p" false).exitCode = 101 ∧
      ¬∃ text, style.summary? s 0 = some text ∧ MarksFailed s.specLine text := by
  intro s w style
  have hread : Status.read w.disk "/p" = .ok (some s) := read_recordedProject _ _
  have hover : s.overflows = true := by decide
  refine ⟨hread, .inl (by decide), ?_, showStatus_exitCode hread hover false, ?_⟩
  · rw [showStatus_verdict hread, if_pos hover]
    exact nofun
  · rintro ⟨text, htext, -⟩
    rw [Report.summary?_eq_none rfl hover] at htext
    cases htext

end SpecEngine.CommandLine
