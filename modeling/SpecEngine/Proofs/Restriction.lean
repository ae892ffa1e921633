/-
# SpecEngine.Proofs.Restriction -- what a restricted collection keeps

A restricted collection is an excerpt of the collection. It is read off at places, which are
positions of specifications, each with positions of scenarios in it. The places ascend, so that the
order is kept, and a specification is taken with everything but the scenarios that are left out of
it. Places are what tells scenarios apart, as two of them may be equal.
-/
import Mathlib.Data.List.Forall2
import Mathlib.Data.List.Lemmas
import SpecEngine.Item.Spec

namespace SpecEngine.Item

/-! ## Lists -/

/-- Two ways to pick from a list pick related things if they do so from every element. -/
theorem forall₂_filterMap {α β γ : Type} {R : β → γ → Prop} {f : α → Option β} {g : α → Option γ}
    {l : List α} (h : ∀ a ∈ l, Option.Rel R (f a) (g a)) :
    List.Forall₂ R (l.filterMap f) (l.filterMap g) := by
  have hself : List.Forall₂ (fun a b => a = b ∧ a ∈ l) l l :=
    List.forall₂_same.mpr fun a ha => ⟨rfl, ha⟩
  exact List.rel_filterMap (fun a b hab => hab.1 ▸ h a hab.2) hself

/-- The positions of a list ascend. -/
theorem zipIdx_ascending {α : Type} (l : List α) :
    l.zipIdx.Pairwise fun item item' => item.2 < item'.2 := by
  rw [← List.pairwise_map, List.zipIdx_map_snd]
  exact List.pairwise_lt_range'

/-- The elements that satisfy a test stand at the positions that the search for it finds. -/
theorem forall₂_findIdxs {α : Type} (p : α → Bool) (l : List α) :
    List.Forall₂ (fun i a => l[i]? = some a) (l.findIdxs p) (l.filter p) := by
  have hfilter : l.filter p = l.zipIdx.filterMap fun (a, _) => if p a then some a else none := by
    conv_lhs => rw [← List.zipIdx_map_fst 0 l]
    rw [List.filter_map, ← List.filterMap_eq_filter, List.map_filterMap]
    refine List.filterMap_congr fun (a, i) _ => ?_
    simp only [Option.guard, Function.comp_apply]
    split <;> rfl
  rw [hfilter, List.findIdxs_eq_filterMap_zipIdx]
  refine forall₂_filterMap fun (a, i) hmem => ?_
  dsimp only
  cases p a with
  | true => exact .some (List.mem_zipIdx_iff_getElem?.mp hmem)
  | false => exact .none

/-! ## Excerpts -/

/-- Positions of specifications, each with positions of scenarios in it. -/
abbrev Places := List (Nat × List Nat)

/-- The scenario at a position of the specification at a position is among the places. -/
def Places.Has (places : Places) (i j : Nat) : Prop := ∃ js, (i, js) ∈ places ∧ j ∈ js

/-- A specification is taken over with some of its scenarios, which stand at the positions. -/
structure Specification.TakenFrom (kept spec : Specification) (positions : List Nat) : Prop where
  /-- Nothing but the scenarios differs. -/
  unchanged : kept = { spec with scenarios := kept.scenarios }
  scenarios : List.Forall₂ (fun j sc => spec.scenarios[j]? = some sc) positions kept.scenarios

/-- The specifications are those of the collection at the places, in their order, and none is left
without scenarios. -/
structure Collection.Excerpt (specs kept : Collection) (places : Places) : Prop where
  ordered : places.Pairwise fun p q => p.1 < q.1
  scenariosOrdered : ∀ p ∈ places, p.2.Pairwise (· < ·)
  taken : List.Forall₂ (fun p spec' => ∃ spec, specs[p.1]? = some spec ∧ spec'.TakenFrom spec p.2)
    places kept
  nonempty : ∀ spec ∈ kept, spec.scenarios ≠ []

/-- The place of a specification at a position with the scenarios that are wanted, if there are any.
-/
def Specification.wantedPlace (spec : Specification) (i : Nat) (wanted : Scenario → Bool) :
    Option (Nat × List Nat) :=
  match spec.scenarios.findIdxs wanted with
  | [] => none
  | js => some (i, js)

/-- The places of the scenarios that are wanted. -/
def Collection.wantedPlaces (specs : Collection) (wanted : Specification → Scenario → Bool) :
    Places :=
  specs.zipIdx.filterMap fun item => item.1.wantedPlace item.2 (wanted item.1)

section

variable {specs : Collection} {wanted : Specification → Scenario → Bool}

theorem wantedPlace_eq_some {spec : Specification} {i k : Nat} {js : List Nat}
    {wanted : Scenario → Bool} :
    spec.wantedPlace i wanted = some (k, js) ↔
      i = k ∧ js = spec.scenarios.findIdxs wanted ∧ js ≠ [] := by
  rw [Specification.wantedPlace]
  split
  next hnil =>
    refine ⟨nofun, ?_⟩
    rintro ⟨-, rfl, hne⟩
    exact absurd hnil hne
  next hne =>
    rw [Option.some.injEq, Prod.mk.injEq]
    refine and_congr_right fun _ => ⟨?_, fun h => h.1.symm⟩
    rintro rfl
    exact ⟨rfl, hne⟩

theorem mem_wantedPlaces {i : Nat} {js : List Nat} :
    (i, js) ∈ specs.wantedPlaces wanted ↔
      ∃ spec, specs[i]? = some spec ∧ js = spec.scenarios.findIdxs (wanted spec) ∧ js ≠ [] := by
  simp only [Collection.wantedPlaces, List.mem_filterMap, Prod.exists,
    List.mem_zipIdx_iff_getElem?, wantedPlace_eq_some]
  constructor
  · rintro ⟨spec, k, hspec, rfl, hjs⟩
    exact ⟨spec, hspec, hjs⟩
  · rintro ⟨spec, hspec, hjs⟩
    exact ⟨spec, i, hspec, rfl, hjs⟩

/-- The wanted places are those of the scenarios that satisfy the test. -/
theorem has_wantedPlaces {i j : Nat} :
    (specs.wantedPlaces wanted).Has i j ↔
      ∃ spec sc, specs[i]? = some spec ∧ spec.scenarios[j]? = some sc ∧ wanted spec sc = true := by
  have hfound : ∀ {spec : Specification}, j ∈ spec.scenarios.findIdxs (wanted spec) ↔
      ∃ sc, spec.scenarios[j]? = some sc ∧ wanted spec sc = true := by
    intro spec
    rw [List.mem_findIdxs_iff_exists_getElem_pos]
    simp only [List.getElem?_eq_some_iff]
    exact ⟨fun ⟨hj, hw⟩ => ⟨_, ⟨hj, rfl⟩, hw⟩, fun ⟨_, ⟨hj, hsc⟩, hw⟩ => ⟨hj, hsc ▸ hw⟩⟩
  constructor
  · rintro ⟨js, hmem, hj⟩
    obtain ⟨spec, hspec, rfl, -⟩ := mem_wantedPlaces.mp hmem
    obtain ⟨sc, hsc, hw⟩ := hfound.mp hj
    exact ⟨spec, sc, hspec, hsc, hw⟩
  · rintro ⟨spec, sc, hspec, hsc, hw⟩
    have hj := hfound.mpr ⟨sc, hsc, hw⟩
    exact ⟨_, mem_wantedPlaces.mpr ⟨spec, hspec, rfl, List.ne_nil_of_mem hj⟩, hj⟩

/-- A specification that is left with scenarios is taken over with those that are wanted. -/
theorem restrict_takenFrom {spec : Specification} {i : Nat} (h : specs[i]? = some spec)
    (wanted : Scenario → Bool) :
    Option.Rel (fun p spec' => ∃ spec, specs[p.1]? = some spec ∧ spec'.TakenFrom spec p.2)
      (spec.wantedPlace i wanted) (spec.restrict wanted) := by
  have hstand := forall₂_findIdxs wanted spec.scenarios
  rw [Specification.restrict, Specification.wantedPlace]
  cases hjs : spec.scenarios.findIdxs wanted <;> cases hkept : spec.scenarios.filter wanted <;>
    rw [hjs, hkept] at hstand
  · exact .none
  · cases hstand
  · cases hstand
  · exact .some ⟨spec, h, rfl, hstand⟩

theorem restrict_nonempty {spec kept : Specification} {wanted : Scenario → Bool}
    (h : spec.restrict wanted = some kept) : kept.scenarios ≠ [] := by
  rw [Specification.restrict] at h
  split at h
  next => cases h
  next hne =>
    obtain rfl := Option.some.inj h
    exact hne

/-- A restricted collection is the excerpt at the places of the scenarios that are wanted. -/
theorem restrict_excerpt (specs : Collection) (wanted : Specification → Scenario → Bool) :
    specs.Excerpt (specs.restrict wanted) (specs.wantedPlaces wanted) where
  ordered := by
    rw [Collection.wantedPlaces, List.pairwise_filterMap]
    refine (zipIdx_ascending specs).imp fun {p q} hlt b hb b' hb' => ?_
    rw [← (wantedPlace_eq_some.mp hb).1, ← (wantedPlace_eq_some.mp hb').1]
    exact hlt
  scenariosOrdered := by
    rintro ⟨i, js⟩ hmem
    obtain ⟨spec, -, rfl, -⟩ := mem_wantedPlaces.mp hmem
    exact List.pairwise_findIdxs
  taken := by
    have hrestrict : specs.restrict wanted =
        specs.zipIdx.filterMap fun item => item.1.restrict (wanted item.1) := by
      conv_lhs => rw [Collection.restrict, ← List.zipIdx_map_fst 0 specs, List.filterMap_map]
      rfl
    rw [hrestrict]
    refine forall₂_filterMap fun item hmem => ?_
    exact restrict_takenFrom (List.mem_zipIdx_iff_getElem?.mp hmem) (wanted item.1)
  nonempty := by
    intro kept hkept
    obtain ⟨spec, -, hrestrict⟩ := List.mem_filterMap.mp hkept
    exact restrict_nonempty hrestrict

end

end SpecEngine.Item
