/-
# SpecEngine.Proofs.CompletionOrder -- merging does not see which stream came first

Streams finish in any order, and each collects its results in any order. Merging sorts what they
hand in, the outcomes by stream and the results of each by position. Sorting by a key is settled by
the keys alone only if no two of them are equal, since equal keys keep the order in which they came.
Streams have different numbers, and no stream reports a position twice. So there is one arrangement
of what was handed in, and merging puts it end to end (`merge_eq_arranged`).
-/
import Mathlib.Data.List.Forall2
import Mathlib.Data.List.Nodup
import SpecEngine.Proofs.LostRunner
import SpecEngine.Proofs.Merging

namespace SpecEngine.Engine

open Result (SpecResult StreamOutcome Failure)

variable {α : Type}

/-! ## Sorting by different keys -/

section

variable {key : α → Nat} {l l' : List α}

theorem mergeSort_key_pairwise (key : α → Nat) (l : List α) :
    (l.mergeSort fun a b => key a ≤ key b).Pairwise fun a b => key a ≤ key b :=
  (List.pairwise_mergeSort (le_key_trans key) (le_key_total key) l).imp of_decide_eq_true

/-- Elements with different keys are sorted into one list, in whichever order they come. -/
theorem mergeSort_key_perm (hperm : l.Perm l') (hkeys : (l.map key).Nodup) :
    (l.mergeSort fun a b => key a ≤ key b) = l'.mergeSort fun a b => key a ≤ key b := by
  have hsorted : (l.mergeSort fun a b => key a ≤ key b).Perm
      (l'.mergeSort fun a b => key a ≤ key b) :=
    (List.mergeSort_perm l _).trans (hperm.trans (List.mergeSort_perm l' _).symm)
  refine hsorted.eq_of_pairwise ?_ (mergeSort_key_pairwise key l) (mergeSort_key_pairwise key l')
  intro a b ha hb hab hba
  rw [List.mem_mergeSort] at ha hb
  exact List.inj_on_of_nodup_map hkeys ha (hperm.mem_iff.mpr hb) (Nat.le_antisymm hab hba)

/-- Different keys ascend strictly in the sorted list. -/
theorem mergeSort_key_ascending (hkeys : (l.map key).Nodup) :
    (l.mergeSort fun a b => key a ≤ key b).Pairwise fun a b => key a < key b := by
  have hsorted : ((l.mergeSort fun a b => key a ≤ key b).map key).Nodup :=
    ((List.mergeSort_perm l _).map key).nodup_iff.mpr hkeys
  refine (mergeSort_key_pairwise key l).imp₂ (fun a b hle hne => ?_) (List.pairwise_map.mp hsorted)
  exact Nat.lt_of_le_of_ne hle hne

end

/-! ## Completion orders -/

/-- Streams have different numbers, and none reports a position twice. -/
structure Distinct (outcomes : List StreamOutcome) : Prop where
  streams : (outcomes.map (·.stream)).Nodup
  positions : ∀ o ∈ outcomes, (reportedPositions o).Nodup

/-- Both outcomes are of one stream, which reports the same in both, but for the order. -/
structure SameReport (o o' : StreamOutcome) : Prop where
  stream : o'.stream = o.stream
  results : o.results.Perm o'.results
  hookFailure : o'.hookFailure = o.hookFailure

/-- The outcomes are the same but for the order of the streams and, within each, of the results. -/
def Reordered (outcomes outcomes' : List StreamOutcome) : Prop :=
  ∃ finished, outcomes.Perm finished ∧ List.Forall₂ SameReport finished outcomes'

/-- Streams ascend, and in each of them positions do. -/
structure InOrder (outcomes : List StreamOutcome) : Prop where
  streams : outcomes.Pairwise fun o o' => o.stream < o'.stream
  positions : ∀ o ∈ outcomes, o.results.Pairwise fun entry entry' => entry.1 < entry'.1

/-! ## The arrangement -/

/-- The outcome with its results in the order of their positions. -/
def arrangedReport (o : StreamOutcome) : StreamOutcome :=
  { o with results := o.results.mergeSort fun a b => a.1 ≤ b.1 }

/-- The outcomes in the order of their streams, each with its results in order. -/
def arranged (outcomes : List StreamOutcome) : List StreamOutcome :=
  (outcomes.mergeSort fun a b => a.stream ≤ b.stream).map arrangedReport

theorem arranged_eq_sort (outcomes : List StreamOutcome) :
    arranged outcomes = (outcomes.map arrangedReport).mergeSort fun a b => a.stream ≤ b.stream :=
  List.map_mergeSort fun _ _ _ _ => rfl

/-- Merging puts the arranged outcomes end to end. -/
theorem merge_eq_arranged (outcomes : List StreamOutcome) (ms : Nat) :
    Result.merge outcomes ms =
      .ofSpecs ((arranged outcomes).flatMap fun o => o.results.map (·.2)) ms
        ((arranged outcomes).findSome? (·.hookFailure)) := by
  rw [arranged, List.flatMap_map, List.findSome?_map]
  rfl

section

variable {outcomes outcomes' : List StreamOutcome}

theorem SameReport.arrangedReport_eq {o o' : StreamOutcome} (h : SameReport o o')
    (hpositions : (reportedPositions o).Nodup) : arrangedReport o = arrangedReport o' := by
  obtain ⟨stream, results, hookFailure⟩ := o
  obtain ⟨stream', results', hookFailure'⟩ := o'
  obtain ⟨rfl, hresults, rfl⟩ := h
  have hsort : (results.mergeSort fun a b => a.1 ≤ b.1) = results'.mergeSort fun a b => a.1 ≤ b.1 :=
    mergeSort_key_perm hresults hpositions
  rw [arrangedReport, arrangedReport, hsort]

/-- Outcomes that differ in their order only are arranged in the same way. -/
theorem Reordered.arranged_eq (h : Reordered outcomes outcomes') (hdistinct : Distinct outcomes) :
    arranged outcomes = arranged outcomes' := by
  obtain ⟨finished, hperm, hreports⟩ := h
  have hpositions : ∀ o ∈ finished, (reportedPositions o).Nodup := fun o ho =>
    hdistinct.positions o (hperm.mem_iff.mpr ho)
  have hmap : finished.map arrangedReport = outcomes'.map arrangedReport := by
    clear hperm
    induction hreports with
    | nil => rfl
    | @cons o o' finished outcomes' hreport _ ih =>
      obtain ⟨ho, hrest⟩ := List.forall_mem_cons.mp hpositions
      rw [List.map_cons, List.map_cons, hreport.arrangedReport_eq ho, ih hrest]
  have hsort : (outcomes.mergeSort fun a b => a.stream ≤ b.stream) =
      finished.mergeSort fun a b => a.stream ≤ b.stream :=
    mergeSort_key_perm hperm hdistinct.streams
  rw [arranged, hsort, ← arranged, arranged_eq_sort, arranged_eq_sort, hmap]

theorem reordered_arranged (outcomes : List StreamOutcome) :
    Reordered outcomes (arranged outcomes) := by
  have hreport : ∀ o, SameReport o (arrangedReport o) := fun o =>
    ⟨rfl, (List.mergeSort_perm o.results _).symm, rfl⟩
  refine ⟨outcomes.mergeSort fun a b => a.stream ≤ b.stream, (List.mergeSort_perm _ _).symm, ?_⟩
  exact List.forall₂_map_right_iff.mpr (List.forall₂_same.mpr fun o _ => hreport o)

theorem Distinct.arranged_inOrder (h : Distinct outcomes) : InOrder (arranged outcomes) where
  streams := List.pairwise_map.mpr (mergeSort_key_ascending h.streams)
  positions := by
    intro _ harranged
    obtain ⟨o, ho, rfl⟩ := List.mem_map.mp harranged
    exact mergeSort_key_ascending (h.positions o (List.mem_mergeSort.mp ho))

/-! ## Hook failures -/

/-- The failure is that of the lowest stream that has one. -/
def FirstFailure (outcomes : List StreamOutcome) (failure : Failure) : Prop :=
  ∃ o ∈ outcomes, o.hookFailure = some failure ∧
    ∀ o' ∈ outcomes, o'.hookFailure ≠ none → o.stream ≤ o'.stream

theorem merge_failure_eq_some_iff (h : Distinct outcomes) (ms : Nat) (failure : Failure) :
    (Result.merge outcomes ms).failure = some failure ↔ FirstFailure outcomes failure := by
  have hsorted := mergeSort_key_ascending h.streams
  have hmem : ∀ o, o ∈ outcomes ↔ o ∈ outcomes.mergeSort fun a b => a.stream ≤ b.stream :=
    fun o => List.mem_mergeSort.symm
  show (outcomes.mergeSort fun a b => a.stream ≤ b.stream).findSome? (·.hookFailure) = _ ↔ _
  simp only [FirstFailure, hmem]
  generalize (outcomes.mergeSort fun a b => a.stream ≤ b.stream) = sorted at hsorted
  rw [List.findSome?_eq_some_iff]
  constructor
  · rintro ⟨before, o, after, rfl, hfailure, hnone⟩
    refine ⟨o, List.mem_append_right _ List.mem_cons_self, hfailure, fun o' ho' hsome => ?_⟩
    obtain hbefore | rfl | hafter : o' ∈ before ∨ o' = o ∨ o' ∈ after := by
      simpa only [List.mem_append, List.mem_cons] using ho'
    · exact absurd (hnone o' hbefore) hsome
    · exact Nat.le_refl _
    · exact Nat.le_of_lt
        (List.rel_of_pairwise_cons (List.pairwise_append.mp hsorted).2.1 hafter)
  · rintro ⟨o, ho, hfailure, hlowest⟩
    obtain ⟨before, after, rfl⟩ := List.append_of_mem ho
    refine ⟨before, o, after, rfl, hfailure, fun o' ho' => ?_⟩
    -- a stream before this one is lower, so it has no failure
    have hlt := (List.pairwise_append.mp hsorted).2.2 o' ho' o List.mem_cons_self
    by_contra hsome
    exact absurd (hlowest o' (List.mem_append_left _ ho') hsome) (Nat.not_le.mpr hlt)

theorem merge_failure_eq_none_iff (ms : Nat) :
    (Result.merge outcomes ms).failure = none ↔ ∀ o ∈ outcomes, o.hookFailure = none := by
  show (outcomes.mergeSort fun a b => a.stream ≤ b.stream).findSome? (·.hookFailure) = none ↔ _
  simp only [List.findSome?_eq_none_iff, List.mem_mergeSort]

/-- Merging does not see in which order streams finished and results came in. Whatever the order,
the merged result is the same, counters and failure included. The results in it are those handed
in, with the streams ascending and the positions ascending in each, and its failure is that of the
lowest stream whose hooks failed. -/
theorem merge_ignores_completion_order (h : Distinct outcomes) (ms : Nat) :
    (∀ outcomes', Reordered outcomes outcomes' →
        Result.merge outcomes' ms = Result.merge outcomes ms) ∧
      (∃ inOrder, Reordered outcomes inOrder ∧ InOrder inOrder ∧
        (Result.merge outcomes ms).specs = inOrder.flatMap fun o => o.results.map (·.2)) ∧
      (∀ failure, (Result.merge outcomes ms).failure = some failure ↔
        FirstFailure outcomes failure) ∧
      ((Result.merge outcomes ms).failure = none ↔ ∀ o ∈ outcomes, o.hookFailure = none) := by
  refine ⟨fun outcomes' hreordered => ?_, ⟨arranged outcomes, reordered_arranged outcomes,
    h.arranged_inOrder, ?_⟩, merge_failure_eq_some_iff h ms, merge_failure_eq_none_iff ms⟩
  · rw [merge_eq_arranged, merge_eq_arranged, hreordered.arranged_eq h]
  · rw [merge_eq_arranged]
    rfl

end

/-- What two streams hand in whose hooks both failed; the higher one finished first and collected
its second result before its first. -/
def higherFirst : List StreamOutcome := [
  { stream := 2
    results := [
      (3, .notExecuted (oneStepSpec "fourth") "left out" []),
      (1, .notExecuted (oneStepSpec "second") "left out" [])]
    hookFailure := some { message := "higher" } },
  { stream := 1
    results := [(2, .notExecuted (oneStepSpec "third") "left out" [])]
    hookFailure := some { message := "lower" } }]

/-- The same with both orders turned round. -/
def lowerFirst : List StreamOutcome := (higherFirst.map fun o =>
  { o with results := o.results.reverse }).reverse

theorem higherFirst_merged :
    Distinct higherFirst ∧ Reordered higherFirst lowerFirst ∧
      Result.merge lowerFirst 0 = Result.merge higherFirst 0 ∧
      (∃ inOrder, Reordered higherFirst inOrder ∧ InOrder inOrder ∧
        (Result.merge higherFirst 0).specs = inOrder.flatMap fun o => o.results.map (·.2)) ∧
      (Result.merge higherFirst 0).failure = some { message := "lower" } := by
  have hdistinct : Distinct higherFirst := by
    refine ⟨by decide, ?_⟩
    simp only [higherFirst, List.forall_mem_cons, List.not_mem_nil, false_implies, implies_true,
      and_true]
    decide
  have hreordered : Reordered higherFirst lowerFirst := by
    refine ⟨higherFirst.reverse, (List.reverse_perm _).symm, ?_⟩
    rw [lowerFirst, ← List.map_reverse, List.forall₂_map_right_iff]
    exact List.forall₂_same.mpr fun o _ => ⟨rfl, (List.reverse_perm _).symm, rfl⟩
  have hfirst : FirstFailure higherFirst { message := "lower" } := by
    refine ⟨_, List.mem_cons_of_mem _ List.mem_cons_self, rfl, ?_⟩
    simp [higherFirst]
  obtain ⟨hsame, hspecs, hfailure, -⟩ := merge_ignores_completion_order hdistinct 0
  exact ⟨hdistinct, hreordered, hsame _ hreordered, hspecs, (hfailure _).mpr hfirst⟩

end SpecEngine.Engine
