/-
# SpecEngine.Proofs.EvenShares -- work is cut into even shares

A list is cut into contiguous groups, each of which takes its share, rounded up, of what is left for
it and for those after it. What comes of this has a closed form: of `n` items among `s` groups the
first `n % s` groups get one more than the `n / s` of the others (`groups_sizes`).

A second computation cuts the list by positions: it keeps the position up to which items are taken
and slices each group off the whole list. It gives up where a difference is below zero, a divisor is
zero or a slice leaves the list. It never does, since a share is no more than what is left, so that
the position stays within the list (`takeShare_eq`).
-/
import SpecEngine.Proofs.Distribution
import SpecEngine.Proofs.RowSelection

namespace SpecEngine.Engine

open Table (sub64 sub64_eq)

variable {α : Type}

/-! ## Sizes -/

/-- The size of a group when `n` items are shared out evenly among `s` groups. -/
def shareSize (n s i : Nat) : Nat := if i < n % s then n / s + 1 else n / s

theorem div_mod_eq {n s q r : Nat} (hn : n = q * s + r) (hr : r < s) : n / s = q ∧ n % s = r := by
  rw [Nat.div_mod_unique (Nat.zero_lt_of_lt hr)]
  exact ⟨by rw [hn, Nat.mul_comm, Nat.add_comm], hr⟩

/-- A quotient rounded up is one more than the quotient, unless the division leaves nothing over. -/
theorem roundUp_eq (n s : Nat) :
    (n + s) / (s + 1) = if 0 < n % (s + 1) then n / (s + 1) + 1 else n / (s + 1) := by
  have hs : s / (s + 1) = 0 := Nat.div_eq_of_lt (Nat.lt_succ_self s)
  have hmod : s % (s + 1) = s := Nat.mod_eq_of_lt (Nat.lt_succ_self s)
  have hpos : 0 < s + 1 := Nat.succ_pos s
  rw [Nat.add_div hpos, hs, hmod, Nat.add_zero]
  split <;> split <;> omega

/-- The first group takes its share rounded up. -/
theorem shareSize_zero (n s : Nat) : shareSize n (s + 1) 0 = (n + s) / (s + 1) :=
  (roundUp_eq n s).symm

/-- The others share out evenly what is left. -/
theorem shareSize_succ (n : Nat) {s i : Nat} (hi : i < s) :
    shareSize n (s + 1) (i + 1) = shareSize (n - (n + s) / (s + 1)) s i := by
  have hn : n = n / (s + 1) * (s + 1) + n % (s + 1) := (Nat.div_add_mod' n (s + 1)).symm
  have hr : n % (s + 1) < s + 1 := Nat.mod_lt n (Nat.succ_pos s)
  rw [roundUp_eq]
  generalize hq : n / (s + 1) = q at hn
  generalize hm : n % (s + 1) = r at hn hr
  rw [Nat.mul_succ] at hn
  rw [shareSize, shareSize, hq, hm]
  cases r with
  | zero =>
    have hrest : n - q = q * s + 0 := by omega
    obtain ⟨hdiv, hmod⟩ := div_mod_eq hrest (Nat.zero_lt_of_lt hi)
    rw [if_neg (Nat.not_lt_zero 0), hdiv, hmod, if_neg (Nat.not_lt_zero _),
      if_neg (Nat.not_lt_zero _)]
  | succ r =>
    have hrest : n - (q + 1) = q * s + r := by omega
    obtain ⟨hdiv, hmod⟩ := div_mod_eq hrest (Nat.lt_of_succ_lt_succ hr)
    rw [if_pos (Nat.succ_pos r), hdiv, hmod]
    exact if_congr Nat.add_lt_add_iff_right rfl rfl

theorem shareSize_antitone (n s : Nat) {i j : Nat} (hij : i ≤ j) :
    shareSize n s j ≤ shareSize n s i := by
  unfold shareSize
  split <;> split <;> omega

theorem shareSize_le_succ (n s i j : Nat) : shareSize n s i ≤ shareSize n s j + 1 := by
  unfold shareSize
  split <;> split <;> omega

theorem shareSize_pos {n s : Nat} (hs : 0 < s) (h : s ≤ n) (i : Nat) : 0 < shareSize n s i := by
  have hdiv : 0 < n / s := Nat.div_pos h hs
  unfold shareSize
  split <;> omega

/-- No more is taken than there is. -/
theorem roundUp_le (n s : Nat) : (n + s) / (s + 1) ≤ n := by
  refine Nat.le_of_lt_succ (Nat.div_lt_of_lt_mul ?_)
  rw [Nat.succ_mul, Nat.mul_succ]
  omega

/-- The groups of a list have the even sizes. -/
theorem groups_sizes (s : Nat) (items : List α) :
    (groups s items).map List.length = (List.range s).map (shareSize items.length s) := by
  induction s generalizing items with
  | zero => rfl
  | succ s ih =>
    have htake : min ((items.length + s) / (s + 1)) items.length =
        (items.length + s) / (s + 1) := Nat.min_eq_left (roundUp_le _ _)
    rw [groups, List.map_cons, ih, List.length_take, htake, List.length_drop,
      List.range_succ_eq_map, List.map_cons, shareSize_zero, List.map_map]
    refine congrArg _ (List.map_congr_left fun i hi => ?_)
    exact (shareSize_succ items.length (List.mem_range.mp hi)).symm

/-! ## Positions -/

/-- The quotient rounded up, unless the divisor is zero. -/
def quotientUp? (a b : Nat) : Option Nat :=
  if b = 0 then none else some (if 0 < a % b then a / b + 1 else a / b)

/-- The items from one position up to another, unless these leave the list. -/
def slice? (items : List α) (first last : Nat) : Option (List α) :=
  if first ≤ last ∧ last ≤ items.length then some ((items.take last).drop first) else none

/-- Slices the share of a stream off the list, where groups have been taken up to a position. -/
def takeShare (items : List α) (streams : Nat) (taken : List (List α) × Nat) (stream : Nat) :
    Option (List (List α) × Nat) := do
  let remaining ← sub64 items.length taken.2
  let size ← quotientUp? remaining (← sub64 streams stream)
  let share ← slice? items taken.2 (taken.2 + size)
  some (taken.1 ++ [share], taken.2 + size)

/-- The groups of a list for a number of streams, of which there is at least one, by positions. -/
def partition? (items : List α) (streams : Nat) : Option (List (List α)) := do
  let streams := max streams 1
  let taken ← (List.range streams).foldlM (takeShare items streams) ([], 0)
  some taken.1

/-- A stream takes the first group of what is left, and the position stays within the list. -/
theorem takeShare_eq {items : List α} {streams stream start others : Nat}
    (taken : List (List α)) (hstreams : stream + (others + 1) = streams)
    (hstart : start ≤ items.length) :
    let size := (items.length - start + others) / (others + 1)
    takeShare items streams (taken, start) stream =
        some (taken ++ [(items.drop start).take size], start + size) ∧
      start + size ≤ items.length := by
  intro size
  have hleft : streams - stream = others + 1 := by omega
  have hsize : quotientUp? (items.length - start) (streams - stream) = some size := by
    rw [hleft, quotientUp?, if_neg (Nat.succ_ne_zero others), ← roundUp_eq]
  have hstop : start + size ≤ items.length := by
    have hle : size ≤ items.length - start := roundUp_le _ _
    omega
  have hslice : slice? items start (start + size) = some ((items.drop start).take size) := by
    rw [slice?, if_pos ⟨Nat.le_add_right start size, hstop⟩, List.drop_take,
      Nat.add_sub_cancel_left]
  refine ⟨?_, hstop⟩
  simp only [takeShare, sub64_eq hstart, sub64_eq (show stream ≤ streams by omega), hsize, hslice,
    Option.bind_eq_bind, Option.bind_some]

/-- The streams from one on take the groups of what is left. -/
theorem takeShares_eq {items : List α} {streams stream start count : Nat} (taken : List (List α))
    (hstreams : stream + count = streams) (hstart : start ≤ items.length) :
    ∃ stop, (List.range' stream count).foldlM (takeShare items streams) (taken, start) =
      some (taken ++ groups count (items.drop start), stop) := by
  induction count generalizing stream start taken with
  | zero => exact ⟨start, by rw [groups, List.append_nil]; rfl⟩
  | succ others ih =>
    obtain ⟨htake, hstop⟩ := takeShare_eq taken hstreams hstart
    have hnext : stream + 1 + others = streams := by omega
    obtain ⟨stop, hrest⟩ := ih (taken ++ [_]) hnext hstop
    refine ⟨stop, ?_⟩
    rw [List.range'_succ, List.foldlM_cons, htake, Option.bind_eq_bind, Option.bind_some, hrest,
      groups, List.length_drop, List.drop_drop, List.append_assoc, List.singleton_append]

/-- Cutting by positions never gives up, and comes to the groups. -/
theorem partition?_eq (items : List α) (streams : Nat) :
    partition? items streams = some (partition items streams) := by
  obtain ⟨stop, hshares⟩ :=
    takeShares_eq [] (Nat.zero_add (max streams 1)) (Nat.zero_le items.length)
  rw [List.drop_zero, List.nil_append, ← List.range_eq_range'] at hshares
  simp only [partition?, hshares, Option.bind_eq_bind, Option.bind_some, partition]

/-! ## Partitions -/

theorem partition_sizes (items : List α) (streams : Nat) :
    (partition items streams).map List.length =
      (List.range (max streams 1)).map (shareSize items.length (max streams 1)) :=
  groups_sizes (max streams 1) items

theorem partition_length (items : List α) (streams : Nat) :
    (partition items streams).length = max streams 1 := by
  have hlength := congrArg List.length (partition_sizes items streams)
  rwa [List.length_map, List.length_map, List.length_range] at hlength

/-- Sizes never increase, and differ by one at most. -/
theorem partition_sizes_even (items : List α) (streams : Nat) :
    (partition items streams).Pairwise fun group group' =>
      group'.length ≤ group.length ∧ group.length ≤ group'.length + 1 := by
  have hsizes : ((partition items streams).map List.length).Pairwise fun a b =>
      b ≤ a ∧ a ≤ b + 1 := by
    rw [partition_sizes, List.pairwise_map]
    exact List.pairwise_le_range.imp fun hij =>
      ⟨shareSize_antitone _ _ hij, shareSize_le_succ _ _ _ _⟩
  exact List.pairwise_map.mp hsizes

/-- No group is empty if there are enough items. -/
theorem nil_notMem_partition {items : List α} {streams : Nat} (h : max streams 1 ≤ items.length) :
    [] ∉ partition items streams := by
  intro hnil
  have hsize := List.mem_map_of_mem (f := List.length) hnil
  rw [partition_sizes, List.length_nil] at hsize
  obtain ⟨i, -, hzero⟩ := List.mem_map.mp hsize
  have hpos := shareSize_pos (Nat.le_max_right streams 1) h i
  omega

/-- A list is cut into even shares. There is one group for each stream, at least one, and put end to
end they are the list. Of `n` items for `s` streams the first `n % s` groups have one more than the
`n / s` of the others, so sizes never increase, differ by one at most, and are not zero if there is
an item for each. The groups may be sliced off by positions: no difference is then below zero, no
divisor zero, and no slice leaves the list. -/
theorem partition_even (items : List α) (streams : Nat) :
    (partition items streams).length = max streams 1 ∧
      (partition items streams).flatten = items ∧
      ((partition items streams).map List.length =
        (List.range (max streams 1)).map (shareSize items.length (max streams 1))) ∧
      ((partition items streams).Pairwise fun group group' =>
        group'.length ≤ group.length ∧ group.length ≤ group'.length + 1) ∧
      (max streams 1 ≤ items.length → [] ∉ partition items streams) ∧
      partition? items streams = some (partition items streams) :=
  ⟨partition_length items streams, partition_flatten items streams, partition_sizes items streams,
    partition_sizes_even items streams, nil_notMem_partition, partition?_eq items streams⟩

/-- Seven items for three streams. -/
theorem seven_items_even :
    max 3 1 ≤ (List.range 7).length ∧ partition (List.range 7) 3 = [[0, 1, 2], [3, 4], [5, 6]] ∧
      [] ∉ partition (List.range 7) 3 ∧
      partition? (List.range 7) 3 = some [[0, 1, 2], [3, 4], [5, 6]] := by
  have hitems : max 3 1 ≤ (List.range 7).length := by decide
  have hgroups : partition (List.range 7) 3 = [[0, 1, 2], [3, 4], [5, 6]] := by decide
  obtain ⟨-, -, -, -, hnil, hpositions⟩ := partition_even (List.range 7) 3
  exact ⟨hitems, hgroups, hnil hitems, hgroups ▸ hpositions⟩

/-! ## Streams with work -/

/-- No stream of a run with groups is without work, as no more are started than there are
specifications. -/
theorem shares_eq {plan : Plan} (h : plan.specs ≠ []) :
    plan.shares = (partition plan.indexed plan.streamCount).zipIdx := by
  have hpos : 0 < plan.specs.length := List.length_pos_iff.mpr h
  have hcount : max plan.streamCount 1 ≤ plan.indexed.length := by
    rw [Plan.indexed, List.length_map, List.length_zipIdx, Plan.streamCount]
    split <;> omega
  refine List.filter_eq_self.mpr fun share hshare => ?_
  have hmem : share.1 ∈ partition plan.indexed plan.streamCount :=
    List.mem_of_getElem? (List.mem_zipIdx_iff_getElem?.mp hshare)
  rw [Bool.not_eq_true', List.isEmpty_eq_false_iff]
  exact fun hnil => nil_notMem_partition hcount (hnil ▸ hmem)

end SpecEngine.Engine
