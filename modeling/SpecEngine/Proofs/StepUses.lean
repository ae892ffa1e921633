/-
# SpecEngine.Proofs.StepUses -- where a collection uses its steps

A use of a step is told by its address: the positions, from the outside in, of a specification, of
a scenario in it, of an item of the scenario, and of parts of concepts down to the step. Addresses
are compared like words, so the order of the addresses is the order in which the uses are met.

Each level is numbered in the same way. Where what stands in each of several things is listed with
its addresses in order, so is what stands in all of them, once their positions are put in front
(`Lists.numbered`). The lists hold every use once, and without the addresses they are the flattened
steps.
-/
import Mathlib.Data.List.Basic
import SpecEngine.Item.Spec
import SpecEngine.Proofs.Restriction

namespace SpecEngine.Item

variable {α β : Type}

/-! ## Addresses -/

/-- What is listed is what stands at the addresses, in their order. -/
structure Lists (entries : List (List Nat × β)) (Stands : List Nat → β → Prop) : Prop where
  ordered : entries.Pairwise fun entry entry' => entry.1 < entry'.1
  mem_iff : ∀ address b, (address, b) ∈ entries ↔ Stands address b

/-- What is listed for each element, with the position of the element in front of the addresses. -/
def numberedFrom (list : α → List (List Nat × β)) : Nat → List α → List (List Nat × β)
  | _, [] => []
  | i, a :: rest =>
    (list a).map (fun entry => (i :: entry.1, entry.2)) ++ numberedFrom list (i + 1) rest

/-- What stands in an element, at the position of the element and an address in it. -/
inductive StandsWithin (l : List α) (Stands : α → List Nat → β → Prop) : List Nat → β → Prop
  | mk {i a address b} : l[i]? = some a → Stands a address b →
      StandsWithin l Stands (i :: address) b

section

variable {list : α → List (List Nat × β)}

theorem numberedFrom_eq (list : α → List (List Nat × β)) (i : Nat) (l : List α) :
    numberedFrom list i l = (l.zipIdx i).flatMap fun item =>
      (list item.1).map fun entry => (item.2 :: entry.1, entry.2) := by
  induction l generalizing i with
  | nil => rfl
  | cons a rest ih => rw [numberedFrom, ih, List.zipIdx_cons, List.flatMap_cons]

/-- Without the addresses the lists are put end to end. -/
theorem numberedFrom_map (list : α → List (List Nat × β)) (i : Nat) (l : List α) :
    (numberedFrom list i l).map (·.2) = l.flatMap fun a => (list a).map (·.2) := by
  induction l generalizing i with
  | nil => rfl
  | cons a rest ih =>
    rw [numberedFrom, List.map_append, ih, List.map_map, List.flatMap_cons]
    rfl

/-- What stands in each of several things, listed with its addresses in order, is so in all. -/
theorem Lists.numbered {Stands : α → List Nat → β → Prop} {l : List α}
    (h : ∀ a ∈ l, Lists (list a) (Stands a)) :
    Lists (numberedFrom list 0 l) (StandsWithin l Stands) where
  ordered := by
    rw [numberedFrom_eq, List.pairwise_flatMap]
    refine ⟨fun item hitem => ?_, (zipIdx_ascending l).imp fun hlt entry hentry other hother => ?_⟩
    · have hmem : item.1 ∈ l := List.mem_of_getElem? (List.mem_zipIdx_iff_getElem?.mp hitem)
      rw [List.pairwise_map]
      exact (h item.1 hmem).ordered.imp fun hlt => List.cons_lt_cons_iff.mpr (.inr ⟨rfl, hlt⟩)
    · obtain ⟨_, -, rfl⟩ := List.mem_map.mp hentry
      obtain ⟨_, -, rfl⟩ := List.mem_map.mp hother
      exact List.cons_lt_cons_iff.mpr (.inl hlt)
  mem_iff address b := by
    rw [numberedFrom_eq, List.mem_flatMap]
    constructor
    · rintro ⟨⟨a, i⟩, hitem, hentry⟩
      have hget := List.mem_zipIdx_iff_getElem?.mp hitem
      obtain ⟨⟨rest, b⟩, hlisted, heq⟩ := List.mem_map.mp hentry
      obtain ⟨rfl, rfl⟩ := Prod.mk.inj heq
      exact .mk hget (((h a (List.mem_of_getElem? hget)).mem_iff _ _).mp hlisted)
    · rintro (@⟨i, a, rest, b, hget, hstands⟩)
      have hlisted := ((h a (List.mem_of_getElem? hget)).mem_iff rest b).mpr hstands
      exact ⟨(a, i), List.mem_zipIdx_iff_getElem?.mpr hget, List.mem_map.mpr ⟨_, hlisted, rfl⟩⟩

end

/-! ## Steps of an item -/

namespace StepItem

/-- The plain step stands in the item at the address. -/
inductive Has : StepItem → List Nat → Step → Prop
  | step (s : Step) : Has (.step s) [] s
  | part {text line parts i part address s} : parts[i]? = some part → Has part address s →
      Has (.concept text line parts) (i :: address) s

mutual
/-- The plain steps of an item with their addresses in it. -/
def uses : StepItem → List (List Nat × Step)
  | .step s => [([], s)]
  | .concept _ _ parts => usesFrom 0 parts
/-- The plain steps of items that are numbered from a position on. -/
def usesFrom : Nat → List StepItem → List (List Nat × Step)
  | _, [] => []
  | i, item :: rest =>
    item.uses.map (fun entry => (i :: entry.1, entry.2)) ++ usesFrom (i + 1) rest
end

theorem usesFrom_eq (i : Nat) (items : List StepItem) :
    usesFrom i items = numberedFrom uses i items := by
  induction items generalizing i with
  | nil => rfl
  | cons item rest ih => rw [usesFrom, numberedFrom, ih]

theorem flattenAll_eq (items : List StepItem) : flattenAll items = items.flatMap flatten := by
  induction items with
  | nil => rfl
  | cons item rest ih => rw [flattenAll, ih, List.flatMap_cons]

mutual
/-- Without the addresses the uses are the flattened item. -/
theorem uses_map : (item : StepItem) → item.uses.map (·.2) = item.flatten
  | .step s => rfl
  | .concept text line parts => by rw [uses, flatten, usesFrom_map 0 parts]
theorem usesFrom_map (i : Nat) : (items : List StepItem) →
    (usesFrom i items).map (·.2) = flattenAll items
  | [] => rfl
  | item :: rest => by
    rw [usesFrom, flattenAll, List.map_append, usesFrom_map (i + 1) rest, List.map_map,
      ← uses_map item]
    rfl
end

theorem has_concept_iff {text : String} {line : UInt64} {parts : List StepItem}
    {address : List Nat} {s : Step} :
    Has (.concept text line parts) address s ↔ StandsWithin parts Has address s := by
  constructor
  · rintro ⟨⟩
    exact .mk ‹_› ‹_›
  · rintro ⟨hpart, hhas⟩
    exact .part hpart hhas

mutual
/-- The uses of an item are the plain steps in it, in order. -/
theorem uses_lists : (item : StepItem) → Lists item.uses item.Has
  | .step s => by
    refine ⟨List.pairwise_singleton _ _, fun address t => ?_⟩
    rw [uses, List.mem_singleton, Prod.mk.injEq]
    constructor
    · rintro ⟨rfl, rfl⟩
      exact .step _
    · rintro ⟨⟩
      exact ⟨rfl, rfl⟩
  | .concept text line parts => by
    obtain ⟨hordered, hmem⟩ := Lists.numbered (allUses_lists parts)
    rw [← usesFrom_eq] at hordered hmem
    exact ⟨hordered, fun address s => (hmem address s).trans has_concept_iff.symm⟩
theorem allUses_lists : (items : List StepItem) → ∀ item ∈ items, Lists item.uses item.Has
  | [] => fun _ hitem => nomatch hitem
  | item :: rest => List.forall_mem_cons.mpr ⟨uses_lists item, allUses_lists rest⟩
end

end StepItem

/-! ## Steps of a collection -/

/-- A step that a scenario of a specification uses. -/
structure Use where
  spec : Specification
  scenario : Scenario
  step : Step

/-- At the address stands this use of a step: of an item of the scenario, which is in the
specification, which is in the collection, each at its position. -/
inductive Collection.UsedAt (specs : Collection) : List Nat → Use → Prop
  | mk {i j k spec sc item address step} : specs[i]? = some spec → spec.scenarios[j]? = some sc →
      sc.steps[k]? = some item → item.Has address step →
      UsedAt specs (i :: j :: k :: address) ⟨spec, sc, step⟩

/-- The uses of steps in an item of a scenario. -/
def itemUses (spec : Specification) (sc : Scenario) (item : StepItem) : List (List Nat × Use) :=
  item.uses.map fun entry => (entry.1, ⟨spec, sc, entry.2⟩)

/-- The uses of steps in a scenario. -/
def scenarioUses (spec : Specification) (sc : Scenario) : List (List Nat × Use) :=
  numberedFrom (itemUses spec sc) 0 sc.steps

/-- The uses of steps in a collection. -/
def Collection.uses (specs : Collection) : List (List Nat × Use) :=
  numberedFrom (fun spec => numberedFrom (scenarioUses spec) 0 spec.scenarios) 0 specs

theorem scenarioUses_map (spec : Specification) (sc : Scenario) :
    (scenarioUses spec sc).map (·.2) = sc.flatSteps.map (Use.mk spec sc) := by
  rw [scenarioUses, numberedFrom_map, Scenario.flatSteps, StepItem.flattenAll_eq, List.map_flatMap]
  refine List.flatMap_congr fun item _ => ?_
  rw [itemUses, ← StepItem.uses_map, List.map_map, List.map_map]
  rfl

/-- Without the addresses the uses are the flattened steps of all scenarios. -/
theorem uses_map (specs : Collection) :
    specs.uses.map (·.2) = specs.flatMap fun spec => spec.scenarios.flatMap fun sc =>
      sc.flatSteps.map (Use.mk spec sc) := by
  rw [Collection.uses, numberedFrom_map]
  refine List.flatMap_congr fun spec _ => ?_
  rw [numberedFrom_map]
  exact List.flatMap_congr fun sc _ => scenarioUses_map spec sc

theorem itemUses_lists (spec : Specification) (sc : Scenario) (item : StepItem) :
    Lists (itemUses spec sc item) fun address use =>
      item.Has address use.step ∧ use = ⟨spec, sc, use.step⟩ where
  ordered := List.pairwise_map.mpr item.uses_lists.ordered
  mem_iff := by
    rintro address ⟨spec', sc', step⟩
    simp only [itemUses, List.mem_map, Prod.exists, item.uses_lists.mem_iff, Prod.mk.injEq,
      Use.mk.injEq, and_true]
    constructor
    · rintro ⟨_, _, hhas, rfl, rfl, rfl, rfl⟩
      exact ⟨hhas, rfl, rfl⟩
    · rintro ⟨hhas, rfl, rfl⟩
      exact ⟨address, step, hhas, rfl, rfl, rfl, rfl⟩

/-- The uses of a collection are the steps that stand in it, in order. -/
theorem uses_lists (specs : Collection) : Lists specs.uses specs.UsedAt := by
  have hlists : Lists specs.uses (StandsWithin specs fun spec =>
      StandsWithin spec.scenarios fun sc => StandsWithin sc.steps fun item address use =>
        item.Has address use.step ∧ use = ⟨spec, sc, use.step⟩) :=
    Lists.numbered fun spec _ => Lists.numbered fun sc _ => Lists.numbered fun item _ =>
      itemUses_lists spec sc item
  refine ⟨hlists.ordered, fun address use => (hlists.mem_iff address use).trans ?_⟩
  constructor
  · rintro ⟨hspec, ⟨hsc, ⟨hitem, hhas, huse⟩⟩⟩
    rw [huse]
    exact .mk hspec hsc hitem hhas
  · rintro ⟨hspec, hsc, hitem, hhas⟩
    exact .mk hspec (.mk hsc (.mk hitem ⟨hhas, rfl⟩))

end SpecEngine.Item
