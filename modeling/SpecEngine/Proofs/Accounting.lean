/-
# SpecEngine.Proofs.Accounting -- every specification is reported once

A run reports every specification of its collection once, whatever becomes of its streams. Their
runners may not start, may refuse the execution, die at any message or break down, the streams may
claim specifications in any order, and what any of them would hand in may get lost.

An entry carries the position of its specification, so the account is kept in positions. The
positions that streams hand in are some of the collection's, none of them twice: a stream hands in
what it was assigned, and so does one that claims. Losing what a stream hands in can only make them
fewer. What is added at the end are the other positions.
-/
import Mathlib.Data.List.Perm.Subperm
import Mathlib.Data.List.Flatten
import SpecEngine.Proofs.Assignment
import SpecEngine.Proofs.ResultTree

namespace SpecEngine.Engine

open Item (Specification)
open Result (SpecResult SuiteResult StreamOutcome)
open Runner (Behavior Fleet ProtocolError)

variable {σ : Type}

/-! ## Entries -/

/-- The result is what a run of the specification came to, or says that it was left out. -/
inductive AccountFor (b : Behavior σ) (plan : Plan) (spec : Specification) : SpecResult → Prop
  | run (s : Session σ) : AccountFor b plan spec (announcedSpec b plan spec s).1
  | leftOut (reason : String) : AccountFor b plan spec (.notExecuted spec reason [])

theorem AccountFor.named {b : Behavior σ} {plan : Plan} {spec : Specification} {r : SpecResult}
    (h : AccountFor b plan spec r) : r.heading = spec.heading ∧ r.fileName = spec.fileName := by
  cases h with
  | run s => exact runSpec_named b plan spec _
  | leftOut reason => exact ⟨rfl, rfl⟩

/-- The result of the entry accounts for the specification at its position. -/
def Accounted (b : Behavior σ) (plan : Plan) (entry : Nat × SpecResult) : Prop :=
  ∃ spec, plan.specs[entry.1]? = some spec ∧ AccountFor b plan spec entry.2

/-- The entries account for the specifications at these positions, in this order. -/
structure AccountsFor (b : Behavior σ) (plan : Plan) (positions : List Nat)
    (entries : List (Nat × SpecResult)) : Prop where
  positions_eq : entries.map (·.1) = positions
  accounted : ∀ entry ∈ entries, Accounted b plan entry

theorem mem_indexed {plan : Plan} {item : Placed} :
    item ∈ plan.indexed ↔ plan.specs[item.1]? = some item.2 := by
  obtain ⟨i, spec⟩ := item
  simp [Plan.indexed, List.mem_zipIdx_iff_getElem?]

@[simp] theorem indexed_positions (plan : Plan) :
    plan.indexed.map (·.1) = List.range plan.specs.length := by
  rw [Plan.indexed, List.map_map, List.range_eq_range', ← List.zipIdx_map_snd 0 plan.specs]
  rfl

namespace AccountsFor

variable {b : Behavior σ} {plan : Plan} {positions others : List Nat}
variable {entries more : List (Nat × SpecResult)}

theorem nil : AccountsFor b plan [] [] := ⟨rfl, fun _ h => nomatch h⟩

theorem append (h : AccountsFor b plan positions entries) (h' : AccountsFor b plan others more) :
    AccountsFor b plan (positions ++ others) (entries ++ more) where
  positions_eq := by rw [List.map_append, h.positions_eq, h'.positions_eq]
  accounted := by
    intro entry hmem
    rcases List.mem_append.mp hmem with hmem | hmem
    · exact h.accounted entry hmem
    · exact h'.accounted entry hmem

/-- Items that are left out are accounted for. -/
theorem leftOut {items : List Placed} (hitems : ∀ item ∈ items, item ∈ plan.indexed)
    (reason : String) :
    AccountsFor b plan (items.map (·.1)) (items.map (Engine.leftOut reason)) where
  positions_eq := by
    rw [List.map_map]
    rfl
  accounted := by
    intro entry hmem
    obtain ⟨item, hitem, rfl⟩ := List.mem_map.mp hmem
    exact ⟨item.2, mem_indexed.mp (hitems item hitem), .leftOut reason⟩

end AccountsFor

/-! ## Workers -/

section

variable {b : Behavior σ} {plan : Plan}

theorem Worker.take_accounts {w : Worker σ} {positions : List Nat} {item : Placed}
    (h : AccountsFor b plan positions w.results) (hitem : item ∈ plan.indexed) :
    AccountsFor b plan (positions ++ [item.1]) (w.take b plan item).results := by
  refine h.append ⟨rfl, ?_⟩
  intro entry hmem
  obtain rfl := List.mem_singleton.mp hmem
  exact ⟨item.2, mem_indexed.mp hitem, .run w.session⟩

theorem Worker.takeAll_accounts {w : Worker σ} {positions : List Nat} {items : List Placed}
    (h : AccountsFor b plan positions w.results) (hitems : ∀ item ∈ items, item ∈ plan.indexed) :
    AccountsFor b plan (positions ++ items.map (·.1))
      (items.foldl (fun w item => w.take b plan item) w).results := by
  induction items generalizing w positions with
  | nil => simpa using h
  | cons item rest ih =>
    have hitem := hitems item List.mem_cons_self
    have hrest : ∀ item ∈ rest, item ∈ plan.indexed := by
      intro other hother
      exact hitems other (List.mem_cons_of_mem item hother)
    rw [List.map_cons, List.append_cons, List.foldl_cons]
    exact ih (Worker.take_accounts h hitem) hrest

/-- A stream that was given specifications accounts for them, also if it refuses to run any. -/
theorem Worker.takeAssigned_accounts {w : Worker σ} {items : List Placed}
    (hnew : w.results = []) (hitems : ∀ item ∈ items, item ∈ plan.indexed) :
    AccountsFor b plan (items.map (·.1)) (w.takeAssigned b plan items).results := by
  unfold Worker.takeAssigned
  split
  · exact .leftOut hitems _
  · have hstart : AccountsFor b plan [] w.results := by
      rw [hnew]
      exact .nil
    exact Worker.takeAll_accounts hstart hitems

end

/-- What a stream hands in is what it holds. -/
theorem Worker.finish_outcome {w : Worker σ} {fleet : Fleet σ} {o : StreamOutcome}
    (h : (w.finish fleet).outcome = some o) : o.results = w.results := by
  rw [Worker.finish] at h
  split at h
  · obtain rfl := Option.some.inj h
    rfl
  · cases h

theorem runAssigned_accounts {fleet : Fleet σ} {plan : Plan} {stream : Nat} {items : List Placed}
    {o : StreamOutcome} (h : (runAssigned fleet plan stream items).outcome = some o)
    (hitems : ∀ item ∈ items, item ∈ plan.indexed) :
    AccountsFor fleet.toBehavior plan (items.map (·.1)) o.results := by
  unfold runAssigned at h
  split at h
  · obtain rfl := Option.some.inj h
    exact .leftOut hitems _
  · rw [Worker.finish_outcome h]
    exact Worker.takeAssigned_accounts rfl hitems

/-! ## Streams -/

/-- The positions that an outcome reports. -/
def reportedPositions (o : StreamOutcome) : List Nat := o.results.map (·.1)

/-- The outcomes account for positions of the collection, for none of them twice. -/
structure Accounts (b : Behavior σ) (plan : Plan) (outcomes : List StreamOutcome) : Prop where
  accounted : ∀ o ∈ outcomes, ∀ entry ∈ o.results, Accounted b plan entry
  once : (outcomes.flatMap reportedPositions).Subperm (List.range plan.specs.length)

/-- Fewer outcomes account for fewer positions. -/
theorem Accounts.sublist {b : Behavior σ} {plan : Plan} {fewer outcomes : List StreamOutcome}
    (h : Accounts b plan outcomes) (hsub : fewer.Sublist outcomes) : Accounts b plan fewer where
  accounted o ho := h.accounted o (hsub.subset ho)
  once := ((hsub.flatMap reportedPositions).subperm).trans h.once

/-- Streams account for the collection if each accounts for what it was given and no more is given
to them than there is. -/
theorem Accounts.of_given {b : Behavior σ} {plan : Plan} {streams : List (StreamRun σ)}
    (given : List (List Nat))
    (heach : List.Forall₂
      (fun positions run => ∀ o, run.outcome = some o → AccountsFor b plan positions o.results)
      given streams)
    (honce : given.flatten.Subperm (List.range plan.specs.length)) :
    Accounts b plan (streams.filterMap (·.outcome)) := by
  have hsplit : (∀ o ∈ streams.filterMap (·.outcome), ∀ entry ∈ o.results, Accounted b plan entry) ∧
      ((streams.filterMap (·.outcome)).flatMap reportedPositions).Sublist given.flatten := by
    clear honce
    induction heach with
    | nil => exact ⟨by simp, .slnil⟩
    | @cons positions run given streams hrun _ ih =>
      cases hout : run.outcome with
      | none =>
        -- what was given to the stream is not reported
        rw [List.filterMap_cons_none hout]
        exact ⟨ih.1, ih.2.trans (List.sublist_append_right positions given.flatten)⟩
      | some o =>
        have ho := hrun o hout
        rw [List.filterMap_cons_some hout, List.flatMap_cons, List.flatten_cons,
          reportedPositions, ho.positions_eq]
        refine ⟨?_, ih.2.append_left positions⟩
        intro o' ho'
        rcases List.mem_cons.mp ho' with rfl | ho'
        · exact ho.accounted
        · exact ih.1 o' ho'
  exact ⟨hsplit.1, hsplit.2.subperm.trans honce⟩

theorem runStreams_accounts (fleet : Fleet σ) (plan : Plan) (order : Nat → Nat) :
    Accounts fleet.toBehavior plan ((runStreams fleet plan order).filterMap (·.outcome)) := by
  obtain ⟨work, waiting, h⟩ := runStreams_distributed fleet plan order
  rw [h.runs_eq]
  refine .of_given (work.map fun share => share.2.map (·.1)) ?_ ?_
  · rw [List.forall₂_map_left_iff, List.forall₂_map_right_iff, List.forall₂_same]
    intro share hshare o ho
    exact runAssigned_accounts ho fun item hitem => (h.ordered share hshare).subset hitem
  · have hpositions : (work.map fun share => share.2.map (·.1)).flatten =
        (work.flatMap (·.2)).map (·.1) := by
      rw [List.map_flatMap, List.flatMap_def]
    rw [hpositions, ← indexed_positions]
    exact ((List.sublist_append_left _ waiting).map _).subperm.trans (h.all.map _).subperm

/-! ## Lost outcomes -/

/-- Streams of which some hand in nothing. -/
def losing (lost : Nat → Bool) (streams : List (StreamRun σ)) : List (StreamRun σ) :=
  streams.mapIdx fun i run => if lost i then { run with outcome := none } else run

/-- The result of a run in which what some streams would hand in is lost. -/
def resultLosing (lost : Nat → Bool) (fleet : Fleet σ) (plan : Plan) (order : Nat → Nat) :
    SuiteResult :=
  Result.merge (completed plan (losing lost (runStreams fleet plan order))) 0

theorem losing_none (streams : List (StreamRun σ)) : losing (fun _ => false) streams = streams := by
  refine List.ext_getElem List.length_mapIdx fun i _ _ => ?_
  simp [losing]

theorem resultLosing_none (fleet : Fleet σ) (plan : Plan) (order : Nat → Nat) :
    resultLosing (fun _ => false) fleet plan order = (runSuite fleet plan order).result := by
  rw [resultLosing, losing_none]
  rfl

theorem losing_sublist (lost : Nat → Bool) (streams : List (StreamRun σ)) :
    ((losing lost streams).filterMap (·.outcome)).Sublist (streams.filterMap (·.outcome)) := by
  induction streams generalizing lost with
  | nil => exact .slnil
  | cons run rest ih =>
    have hrest := ih fun i => lost (i + 1)
    rw [losing, List.mapIdx_cons]
    cases hlost : lost 0 with
    | true =>
      rw [if_pos rfl, List.filterMap_cons_none rfl]
      refine hrest.trans ?_
      rw [List.filterMap_cons]
      split
      · exact .refl _
      · exact .cons _ (.refl _)
    | false =>
      rw [if_neg (by decide), List.filterMap_cons, List.filterMap_cons]
      split
      · exact hrest
      · exact hrest.cons_cons _

/-! ## Completion -/

/-- A list without repetitions, taken together with what a larger one has besides, is the larger
one. -/
theorem append_others_perm {some all : List Nat} (hsome : some.Subperm all) (hall : all.Nodup) :
    (some ++ all.filter fun i => !some.contains i).Perm all := by
  have hnodup : some.Nodup := by
    obtain ⟨l, hperm, hsub⟩ := hsome
    exact hperm.nodup_iff.mp (hall.sublist hsub)
  have hothers : (all.filter fun i => !some.contains i).Nodup := hall.filter _
  refine (List.perm_ext_iff_of_nodup ?_ hall).mpr ?_
  · refine List.nodup_append.mpr ⟨hnodup, hothers, ?_⟩
    rintro i hi j hj rfl
    have hnot := (List.mem_filter.mp hj).2
    simp [hi] at hnot
  · intro i
    by_cases hi : i ∈ some
    · simp [hi, hsome.subset hi]
    · simp [hi]

theorem unreported_positions (plan : Plan) (outcomes : List StreamOutcome) :
    reportedPositions (unreported plan outcomes) =
      (List.range plan.specs.length).filter fun i =>
        !(outcomes.flatMap reportedPositions).contains i := by
  rw [← indexed_positions, List.filter_map, reportedPositions, unreported, List.map_map]
  rfl

/-- The outcomes of a run, completed, account for every position of the collection. -/
theorem completed_covers {b : Behavior σ} {plan : Plan} {streams : List (StreamRun σ)}
    (h : Accounts b plan (streams.filterMap (·.outcome))) :
    (∀ o ∈ completed plan streams, ∀ entry ∈ o.results, Accounted b plan entry) ∧
      ((completed plan streams).flatMap reportedPositions).Perm
        (List.range plan.specs.length) := by
  have hall := append_others_perm h.once List.nodup_range
  rw [← unreported_positions] at hall
  have hmissing : ∀ entry ∈ (unreported plan (streams.filterMap (·.outcome))).results,
      Accounted b plan entry :=
    (AccountsFor.leftOut (fun _ hitem => List.mem_of_mem_filter hitem) _).accounted
  rw [completed]
  split
  next hempty =>
    rw [List.isEmpty_iff] at hempty
    rw [reportedPositions, hempty, List.map_nil, List.append_nil] at hall
    exact ⟨h.accounted, hall⟩
  next =>
    refine ⟨?_, ?_⟩
    · intro o ho
      rcases List.mem_append.mp ho with ho | ho
      · exact h.accounted o ho
      · obtain rfl := List.mem_singleton.mp ho
        exact hmissing
    · rw [List.flatMap_append, List.flatMap_singleton]
      exact hall

/-! ## The result -/

/-- Merging puts the results of the outcomes in some order and drops their positions. -/
theorem merge_specs (outcomes : List StreamOutcome) (ms : Nat) :
    ∃ entries : List (Nat × SpecResult), entries.Perm (outcomes.flatMap (·.results)) ∧
      (Result.merge outcomes ms).specs = entries.map (·.2) := by
  refine ⟨(outcomes.mergeSort fun a b => a.stream ≤ b.stream).flatMap fun o =>
    o.results.mergeSort fun a b => a.1 ≤ b.1, ?_, ?_⟩
  · exact (List.mergeSort_perm _ _).flatMap fun o _ => List.mergeSort_perm _ _
  · rw [List.map_flatMap]
    rfl

/-- The results report the collection: each is for the specification at a position of its own, and
every position has one. -/
structure ReportsOnce (b : Behavior σ) (plan : Plan) (results : List SpecResult) : Prop where
  positions : ∃ positions : List Nat, positions.Perm (List.range plan.specs.length) ∧
    List.Forall₂ (fun i r => ∃ spec, plan.specs[i]? = some spec ∧ AccountFor b plan spec r)
      positions results
  names : (results.map fun r => (r.heading, r.fileName)).Perm
    (plan.specs.map fun spec => (spec.heading, spec.fileName))

/-- The name of the specification at a position. -/
def Plan.nameAt? (plan : Plan) (i : Nat) : Option (String × String) :=
  plan.specs[i]?.map fun spec => (spec.heading, spec.fileName)

theorem nameAt?_range (plan : Plan) :
    (List.range plan.specs.length).map plan.nameAt? =
      (plan.specs.map fun spec => (spec.heading, spec.fileName)).map some := by
  refine List.ext_getElem (by simp) fun i _ hi => ?_
  have hi : i < plan.specs.length := by simpa using hi
  simp [Plan.nameAt?, List.getElem?_eq_getElem hi]

theorem Accounted.name {b : Behavior σ} {plan : Plan} {entry : Nat × SpecResult}
    (h : Accounted b plan entry) :
    plan.nameAt? entry.1 = some (entry.2.heading, entry.2.fileName) := by
  obtain ⟨spec, hspec, hfor⟩ := h
  rw [Plan.nameAt?, hspec, Option.map_some, hfor.named.1, hfor.named.2]

theorem ReportsOnce.of_entries {b : Behavior σ} {plan : Plan} {entries : List (Nat × SpecResult)}
    (haccounted : ∀ entry ∈ entries, Accounted b plan entry)
    (hpositions : (entries.map (·.1)).Perm (List.range plan.specs.length)) :
    ReportsOnce b plan (entries.map (·.2)) := by
  refine ⟨⟨entries.map (·.1), hpositions, ?_⟩, ?_⟩
  · rw [List.forall₂_map_left_iff, List.forall₂_map_right_iff, List.forall₂_same]
    exact haccounted
  · -- a result bears the name that stands at its position
    have hnames : ((entries.map (·.2)).map fun r => (r.heading, r.fileName)).map some =
        (entries.map (·.1)).map plan.nameAt? := by
      rw [List.map_map, List.map_map, List.map_map]
      exact List.map_congr_left fun entry hentry => (haccounted entry hentry).name.symm
    refine (List.map_perm_map_iff fun _ _ h => Option.some.inj h).mp ?_
    rw [hnames, ← nameAt?_range]
    exact hpositions.map plan.nameAt?

/-- Whatever becomes of the streams of a run, and in whatever order they claim specifications, every
specification of the collection is reported once; and so it is if what some of the streams would
hand in is lost. -/
theorem every_spec_reported_once (fleet : Fleet σ) (plan : Plan) (order : Nat → Nat)
    (lost : Nat → Bool) :
    ReportsOnce fleet.toBehavior plan (runSuite fleet plan order).result.specs ∧
      ReportsOnce fleet.toBehavior plan (resultLosing lost fleet plan order).specs := by
  have hlosing : ∀ lost,
      ReportsOnce fleet.toBehavior plan (resultLosing lost fleet plan order).specs := by
    intro lost
    have hstreams := runStreams_accounts fleet plan order
    obtain ⟨haccounted, hpositions⟩ :=
      completed_covers (hstreams.sublist (losing_sublist lost (runStreams fleet plan order)))
    obtain ⟨entries, hperm, hspecs⟩ :=
      merge_specs (completed plan (losing lost (runStreams fleet plan order))) 0
    rw [resultLosing, hspecs]
    refine .of_entries ?_ ?_
    · intro entry hentry
      obtain ⟨o, ho, hentry⟩ := List.mem_flatMap.mp (hperm.subset hentry)
      exact haccounted o ho entry hentry
    · refine (hperm.map (·.1)).trans ?_
      rw [List.map_flatMap]
      exact hpositions
  refine ⟨?_, hlosing lost⟩
  rw [← resultLosing_none]
  exact hlosing _

end SpecEngine.Engine
