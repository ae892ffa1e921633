/-
# SpecEngine.Proofs.Merging -- where results stand in a merged result

A merged result orders what streams report by stream and then by position. The results are followed
here together with the positions of their specifications. Where they stand depends on the layout
alone, the numbers of the streams and the positions that each reports; and since sorting is stable,
leaving out some positions of a merged result is merging what the streams report at the others.
-/
import SpecEngine.Proofs.Accounting

namespace SpecEngine.Engine

open Result (SpecResult StreamOutcome)

variable {α : Type}

/-! ## Sorting and leaving out -/

section

variable {le : α → α → Bool}

/-- A list whose first part is below an element and whose second part is not has no other such
parts. -/
theorem split_unique {below above below' above' : List α} {low : α → Bool}
    (h : below ++ above = below' ++ above') (hbelow : ∀ a ∈ below, low a = true)
    (habove : ∀ a ∈ above, low a = false) (hbelow' : ∀ a ∈ below', low a = true)
    (habove' : ∀ a ∈ above', low a = false) : below = below' ∧ above = above' := by
  have hparts : ∀ {l m : List α}, (∀ a ∈ l, low a = true) → (∀ a ∈ m, low a = false) →
      (l ++ m).filter low = l := by
    intro l m hl hm
    have hnone : m.filter low = [] := List.filter_eq_nil_iff.mpr (by simpa using hm)
    rw [List.filter_append, List.filter_eq_self.mpr hl, hnone, List.append_nil]
  have hfirst : below = below' := by
    rw [← hparts hbelow habove, h, hparts hbelow' habove']
  subst hfirst
  exact ⟨rfl, List.append_cancel_left h⟩

/-- Where an element goes when it is sorted into a list: behind what is below it. -/
theorem mergeSort_cons_split (trans : ∀ a b c, le a b = true → le b c = true → le a c = true)
    (total : ∀ a b, (le a b || le b a) = true) (a : α) (l : List α) :
    ∃ before after, (a :: l).mergeSort le = before ++ a :: after ∧
      l.mergeSort le = before ++ after ∧ (∀ b ∈ before, (!le a b) = true) ∧
      ∀ b ∈ after, (!le a b) = false := by
  obtain ⟨before, after, hcons, hrest, hbefore⟩ := List.mergeSort_cons trans total a l
  have hsorted := List.pairwise_mergeSort trans total (a :: l)
  rw [hcons] at hsorted
  refine ⟨before, after, hcons, hrest, hbefore, fun b hb => ?_⟩
  have hle := List.rel_of_pairwise_cons (List.pairwise_append.mp hsorted).2.1 hb
  rw [hle, Bool.not_true]

/-- Sorting is stable, so it makes no difference whether elements are left out before or after. -/
theorem filter_mergeSort (trans : ∀ a b c, le a b = true → le b c = true → le a c = true)
    (total : ∀ a b, (le a b || le b a) = true) (p : α → Bool) (l : List α) :
    (l.mergeSort le).filter p = (l.filter p).mergeSort le := by
  induction l with
  | nil => rw [List.filter_nil, List.mergeSort_nil, List.filter_nil]
  | cons a l ih =>
    obtain ⟨before, after, hcons, hrest, hbefore, hafter⟩ := mergeSort_cons_split trans total a l
    rw [hrest, List.filter_append] at ih
    cases hp : p a with
    | false =>
      have hp : ¬p a = true := by simp [hp]
      rw [List.filter_cons_of_neg hp, ← ih, hcons, List.filter_append, List.filter_cons_of_neg hp]
    | true =>
      obtain ⟨before', after', hcons', hrest', hbefore', hafter'⟩ :=
        mergeSort_cons_split trans total a (l.filter p)
      -- both lists are split into what is below the element and what is not, and in one way only
      rw [hrest'] at ih
      obtain ⟨hfirst, hsecond⟩ := split_unique ih
        (fun b hb => hbefore b (List.mem_of_mem_filter hb))
        (fun b hb => hafter b (List.mem_of_mem_filter hb)) hbefore' hafter'
      rw [List.filter_cons_of_pos hp, hcons, hcons', List.filter_append,
        List.filter_cons_of_pos hp, hfirst, hsecond]

theorem le_key_trans (key : α → Nat) (a b c : α) (hab : decide (key a ≤ key b) = true)
    (hbc : decide (key b ≤ key c) = true) : decide (key a ≤ key c) = true := by
  simp only [decide_eq_true_eq] at *
  omega

theorem le_key_total (key : α → Nat) (a b : α) :
    (decide (key a ≤ key b) || decide (key b ≤ key a)) = true := by
  simp only [Bool.or_eq_true, decide_eq_true_eq]
  omega

/-- Sorting by a key and leaving out may be done in either order. -/
theorem filter_mergeSort_key (key : α → Nat) (p : α → Bool) (l : List α) :
    (l.mergeSort fun a b => key a ≤ key b).filter p =
      (l.filter p).mergeSort fun a b => key a ≤ key b :=
  filter_mergeSort (le_key_trans key) (le_key_total key) p l

end

/-! ## Merged entries -/

/-- What outcomes report, in the order of the merged result, with the positions of the
specifications. -/
def mergedEntries (outcomes : List StreamOutcome) : List (Nat × SpecResult) :=
  (outcomes.mergeSort fun a b => a.stream ≤ b.stream).flatMap fun o =>
    o.results.mergeSort fun a b => a.1 ≤ b.1

theorem merge_specs_eq (outcomes : List StreamOutcome) (ms : Nat) :
    (Result.merge outcomes ms).specs = (mergedEntries outcomes).map (·.2) := by
  rw [mergedEntries, List.map_flatMap]
  rfl

theorem mergedEntries_perm (outcomes : List StreamOutcome) :
    (mergedEntries outcomes).Perm (outcomes.flatMap (·.results)) :=
  (List.mergeSort_perm _ _).flatMap fun _ _ => List.mergeSort_perm _ _

/-- Merging keeps every result once. -/
theorem merge_results_perm (outcomes : List StreamOutcome) (ms : Nat) :
    (Result.merge outcomes ms).specs.Perm (outcomes.flatMap fun o => o.results.map (·.2)) := by
  rw [merge_specs_eq, ← List.map_flatMap]
  exact (mergedEntries_perm outcomes).map (·.2)

theorem mem_merge_specs {outcomes : List StreamOutcome} (ms : Nat) {r : SpecResult} :
    r ∈ (Result.merge outcomes ms).specs ↔ ∃ o ∈ outcomes, ∃ entry ∈ o.results, entry.2 = r := by
  rw [(merge_results_perm outcomes ms).mem_iff]
  simp only [List.mem_flatMap, List.mem_map]

/-- Outcomes that are in order are put end to end. -/
theorem mergedEntries_of_sorted {outcomes : List StreamOutcome}
    (hstreams : outcomes.Pairwise fun a b => a.stream ≤ b.stream)
    (hresults : ∀ o ∈ outcomes, o.results.Pairwise fun a b => a.1 ≤ b.1) :
    mergedEntries outcomes = outcomes.flatMap (·.results) := by
  rw [mergedEntries, List.mergeSort_of_pairwise (hstreams.imp decide_eq_true)]
  refine List.flatMap_congr fun o ho => ?_
  exact List.mergeSort_of_pairwise ((hresults o ho).imp decide_eq_true)

/-- The number of the stream and the positions that it reports. -/
def layout (o : StreamOutcome) : Nat × List Nat := (o.stream, reportedPositions o)

theorem mergedEntries_layout (outcomes : List StreamOutcome) :
    (mergedEntries outcomes).map (·.1) =
      ((outcomes.map layout).mergeSort fun a b => a.1 ≤ b.1).flatMap fun o =>
        o.2.mergeSort fun i j => i ≤ j := by
  have hinner : ∀ o : StreamOutcome, (o.results.mergeSort fun a b => a.1 ≤ b.1).map (·.1) =
      (layout o).2.mergeSort fun i j => i ≤ j := fun o => List.map_mergeSort fun _ _ _ _ => rfl
  have houter : (outcomes.mergeSort fun a b => a.stream ≤ b.stream).map layout =
      (outcomes.map layout).mergeSort fun a b => a.1 ≤ b.1 :=
    List.map_mergeSort fun _ _ _ _ => rfl
  rw [mergedEntries, List.map_flatMap, ← houter, List.flatMap_map]
  exact List.flatMap_congr fun o _ => hinner o

/-- Where results stand depends only on the streams and on the positions that they report. -/
theorem mergedEntries_positions {outcomes outcomes' : List StreamOutcome}
    (h : outcomes.map layout = outcomes'.map layout) :
    (mergedEntries outcomes).map (·.1) = (mergedEntries outcomes').map (·.1) := by
  rw [mergedEntries_layout, mergedEntries_layout, h]

/-- The outcome with nothing but what it reports at positions that are kept. -/
def onlyAt (keep : Nat → Bool) (o : StreamOutcome) : StreamOutcome :=
  { o with results := o.results.filter fun entry => keep entry.1 }

/-- The outcomes that report something at positions that are kept, with nothing but that. -/
def restricted (keep : Nat → Bool) (outcomes : List StreamOutcome) : List StreamOutcome :=
  (outcomes.map (onlyAt keep)).filter fun o => !o.results.isEmpty

theorem restricted_append (keep : Nat → Bool) (os os' : List StreamOutcome) :
    restricted keep (os ++ os') = restricted keep os ++ restricted keep os' := by
  rw [restricted, List.map_append, List.filter_append]
  rfl

theorem restricted_flatMap (keep : Nat → Bool) (l : List α) (f : α → List StreamOutcome) :
    restricted keep (l.flatMap f) = l.flatMap fun a => restricted keep (f a) := by
  rw [restricted, List.map_flatMap, List.filter_flatMap]
  rfl

/-- Leaving results out of a merged list is merging what is left. -/
theorem mergedEntries_filter (keep : Nat → Bool) (outcomes : List StreamOutcome) :
    ((mergedEntries outcomes).filter fun entry => keep entry.1) =
      mergedEntries (restricted keep outcomes) := by
  have hmap : (outcomes.mergeSort fun a b => a.stream ≤ b.stream).map (onlyAt keep) =
      (outcomes.map (onlyAt keep)).mergeSort fun a b => a.stream ≤ b.stream :=
    List.map_mergeSort fun _ _ _ _ => rfl
  rw [mergedEntries, mergedEntries, restricted, ← filter_mergeSort_key StreamOutcome.stream,
    ← hmap, List.filter_flatMap]
  generalize outcomes.mergeSort _ = sorted
  induction sorted with
  | nil => rfl
  | cons o rest ih =>
    rw [List.flatMap_cons, ih, filter_mergeSort_key Prod.fst, List.map_cons]
    -- an outcome with nothing left adds nothing
    cases hempty : (onlyAt keep o).results.isEmpty with
    | true =>
      have hnone : (o.results.filter fun entry => keep entry.1) = [] :=
        List.isEmpty_iff.mp hempty
      rw [List.filter_cons_of_neg (by simp [hempty]), hnone, List.mergeSort_nil, List.nil_append]
    | false =>
      rw [List.filter_cons_of_pos (by simp [hempty]), List.flatMap_cons]
      rfl

end SpecEngine.Engine
