/-
# SpecEngine.Proofs.Distribution -- no work is lost in sharing it out

Groups put end to end are the list that was cut. A claim from a queue moves one item to a stream
that is ready for it, and claims stop only when no item waits or no stream is ready. The induction
over the claims is made here once: what a single claim keeps is kept by the whole distribution,
whatever the order in which the streams claim.
-/
import SpecEngine.Engine.Suite

namespace SpecEngine.Engine

open Runner (Behavior Fleet)

variable {σ α : Type}

/-! ## Groups -/

theorem groups_flatten (streams : Nat) (items : List α) :
    (groups (streams + 1) items).flatten = items := by
  induction streams generalizing items with
  | zero => simp [groups]
  | succ streams ih => rw [groups, List.flatten_cons, ih, List.take_append_drop]

/-- The groups put end to end are the list. -/
theorem partition_flatten (items : List α) (streams : Nat) :
    (partition items streams).flatten = items := by
  obtain ⟨n, hn⟩ : ∃ n, max streams 1 = n + 1 := ⟨max streams 1 - 1, by omega⟩
  rw [partition, hn, groups_flatten]

/-- The groups of a collection that are not empty, with the numbers of their streams. -/
def Plan.shares (plan : Plan) : List (List Placed × Nat) :=
  (partition plan.indexed plan.streamCount).zipIdx.filter fun share => !share.1.isEmpty

theorem runEager_eq (fleet : Fleet σ) (plan : Plan) :
    runEager fleet plan =
      plan.shares.map fun share => runAssigned fleet plan share.2 share.1 := by
  rw [runEager, Plan.shares, ← List.filterMap_eq_map, List.filterMap_filter]
  congr 1
  funext ⟨items, stream⟩
  cases items <;> rfl

theorem shares_flatten (plan : Plan) : (plan.shares.map (·.1)).flatten = plan.indexed := by
  have hfilter := List.filter_map (f := Prod.fst) (p := fun items => !items.isEmpty)
    (l := (partition plan.indexed plan.streamCount).zipIdx)
  rw [List.zipIdx_map_fst] at hfilter
  have hshares : plan.shares.map (·.1) =
      (partition plan.indexed plan.streamCount).filter fun items => !items.isEmpty := hfilter.symm
  rw [hshares, List.flatten_filter_not_isEmpty, partition_flatten]

/-! ## Claims -/

theorem mem_readyStreams {opened : List (Opened σ)} {i : Nat} :
    i ∈ readyStreams opened ↔ ∃ o, opened[i]? = some o ∧ o.isReady = true := by
  rw [readyStreams, List.mem_filter, List.mem_range]
  constructor
  · rintro ⟨hi, hready⟩
    refine ⟨opened[i], List.getElem?_eq_getElem hi, ?_⟩
    simpa [List.getElem?_eq_getElem hi] using hready
  · rintro ⟨o, ho, hready⟩
    obtain ⟨hi, -⟩ := List.getElem?_eq_some_iff.mp ho
    exact ⟨hi, by simp [ho, hready]⟩

/-- A stream that claims is ready. -/
theorem claimant_ready {order : Nat → Nat} {claim i : Nat} {opened : List (Opened σ)}
    (h : claimant order claim opened = some i) :
    ∃ o, opened[i]? = some o ∧ o.isReady = true :=
  mem_readyStreams.mp (List.mem_of_getElem? h)

/-- No stream claims only if none is ready. -/
theorem claimant_none {order : Nat → Nat} {claim : Nat} {opened : List (Opened σ)}
    (h : claimant order claim opened = none) : ∀ o ∈ opened, o.isReady = false := by
  have hlength : (readyStreams opened).length = 0 := by
    have hle := List.getElem?_eq_none_iff.mp h
    rcases Nat.eq_zero_or_pos (readyStreams opened).length with h0 | hpos
    · exact h0
    · -- some ready stream would have the number that the order asks for
      have hlt := Nat.mod_lt (order claim) hpos
      omega
  intro o ho
  obtain ⟨i, hi⟩ := List.getElem?_of_mem ho
  cases hready : o.isReady with
  | false => rfl
  | true =>
    have hmem : i ∈ readyStreams opened := mem_readyStreams.mpr ⟨o, hi, hready⟩
    rw [List.eq_nil_of_length_eq_zero hlength] at hmem
    cases hmem

theorem Opened.isReady_worker {o : Opened σ} (h : o.isReady = true) :
    ∃ w, o = .ok w ∧ w.isReady = true := by
  cases o with
  | error e => cases h
  | ok w => exact ⟨w, rfl, h⟩

theorem forall_mem_replace {P : α → Prop} {before after : List α} {x y : α}
    (h : ∀ a ∈ before ++ x :: after, P a) (hy : P y) : ∀ a ∈ before ++ y :: after, P a := by
  intro a ha
  rcases List.mem_append.mp ha with ha | ha
  · exact h a (List.mem_append_left _ ha)
  · rcases List.mem_cons.mp ha with rfl | ha
    · exact hy
    · exact h a (List.mem_append_right before (.tail x ha))

/-- Moving the first of what waits to the end of what one of several holds. -/
theorem perm_move (before held after waiting : List α) (a : α) :
    (before ++ ((held ++ [a]) ++ after) ++ waiting).Perm
      (before ++ (held ++ after) ++ a :: waiting) := by
  simp only [List.append_assoc, List.singleton_append]
  apply List.Perm.append_left
  apply List.Perm.append_left
  exact List.perm_middle.symm

theorem modify_split {l : List α} {i : Nat} {x : α} (h : l[i]? = some x) (f : α → α) :
    ∃ before after, l = before ++ x :: after ∧ l.modify i f = before ++ f x :: after := by
  obtain ⟨hi, rfl⟩ := List.getElem?_eq_some_iff.mp h
  refine ⟨l.take i, l.drop (i + 1), ?_, List.modify_eq_take_cons_drop hi⟩
  rw [List.getElem_cons_drop, List.take_append_drop]

/-! ## Distribution -/

theorem distribute_nil (b : Behavior σ) (plan : Plan) (order : Nat → Nat) (claim : Nat)
    (opened : List (Opened σ)) : distribute b plan order claim ⟨[]⟩ opened = opened := by
  rw [distribute]
  cases claimant order claim opened <;> rfl

theorem distribute_cons (b : Behavior σ) (plan : Plan) (order : Nat → Nat) (claim : Nat)
    (item : Placed) (rest : List Placed) (opened : List (Opened σ)) :
    distribute b plan order claim ⟨item :: rest⟩ opened =
      match claimant order claim opened with
      | none => opened
      | some i =>
        distribute b plan order (claim + 1) ⟨rest⟩ (opened.modify i (Opened.take b plan item)) := by
  rw [distribute]
  cases claimant order claim opened <;> rfl

/-- Whatever a claim keeps is kept by the distribution, which ends with no item waiting or with no
stream ready. -/
theorem distribute_keeps {b : Behavior σ} {plan : Plan} (order : Nat → Nat)
    {Keeps : List Placed → List (Opened σ) → Prop}
    (step : ∀ item waiting before w after, w.isReady = true →
      Keeps (item :: waiting) (before ++ .ok w :: after) →
        Keeps waiting (before ++ .ok (w.take b plan item) :: after))
    (queue : List Placed) (claim : Nat) (opened : List (Opened σ)) (h : Keeps queue opened) :
    ∃ waiting, Keeps waiting (distribute b plan order claim ⟨queue⟩ opened) ∧
      (waiting = [] ∨
        ∀ o ∈ distribute b plan order claim ⟨queue⟩ opened, Opened.isReady o = false) := by
  induction queue generalizing claim opened with
  | nil =>
    rw [distribute_nil]
    exact ⟨[], h, .inl rfl⟩
  | cons item rest ih =>
    rw [distribute_cons]
    cases hclaim : claimant order claim opened with
    | none => exact ⟨item :: rest, h, .inr (claimant_none hclaim)⟩
    | some i =>
      obtain ⟨o, ho, hready⟩ := claimant_ready hclaim
      obtain ⟨w, rfl, hw⟩ := Opened.isReady_worker hready
      obtain ⟨before, after, hsplit, hmodify⟩ := modify_split ho (Opened.take b plan item)
      refine ih (claim + 1) _ ?_
      rw [hmodify]
      exact step item rest before w after hw (hsplit ▸ h)

end SpecEngine.Engine
