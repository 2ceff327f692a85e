import Mathlib.Data.List.Nodup
import PageBinding.Edit
import PageBinding.Proofs.Collection
import PageBinding.Proofs.Expression.Names

/-!
This module contains what is seen from an instance: stored variables, under the identifiers that are
written for them.
-/

namespace PageBinding

namespace Scope

theorem mem_of_mem_visible {tree : InstanceTree} {collectionComponent : Text}
    {selector : Option Selector} {vars : List Variable} {v : Variable}
    (h : v ∈ visible tree collectionComponent selector vars) : v ∈ vars := by
  unfold visible at h
  split at h
  . cases h
  . cases h
  . exact (List.mem_filter.mp h).1

def IsShown (tree : InstanceTree) (collectionComponent : Text) (selector : Selector)
    (v : Variable) : Prop :=
  match selector with
  | [] => False
  | instanceId :: _ =>
    isHidden tree collectionComponent instanceId v = false ∧ v.scope ∈ selector

theorem mem_visible_iff {tree : InstanceTree} {collectionComponent : Text} {selector : Selector}
    {vars : List Variable} {v : Variable} :
    v ∈ visible tree collectionComponent (some selector) vars ↔
      v ∈ vars ∧ IsShown tree collectionComponent selector v := by
  cases selector with
  | nil => simp [visible, IsShown]
  | cons instanceId ancestors =>
    simp only [visible, IsShown, List.mem_filter, Bool.and_eq_true, Bool.not_eq_true',
      decide_eq_true_eq]

theorem aliases_eq {vars : List Variable} (h : ∀ v ∈ vars, v.id ≠ []) :
    Scope.aliases vars =
      .ok (.ofPairs (vars.map fun v => (Reference.encode v.id, v.name))) := by
  have hpairs : (vars.mapM fun v => do return (← Reference.encode? v.id, v.name)) =
      Except.ok (ε := Failure) (vars.map fun v => (Reference.encode v.id, v.name)) := by
    apply Traversal.mapM_eq_ok
    intro v hv
    rw [Reference.encode?_eq_ok_iff.mpr ⟨h v hv, rfl⟩]
    rfl
  rw [Scope.aliases, hpairs]
  rfl

theorem aliases_eq_ok {vars : List Variable} (h : ∀ v ∈ vars, v.id ≠ []) :
    ∃ aliases, Scope.aliases vars = .ok aliases ∧
      ∀ name, aliases.contains name = true ↔ ∃ v ∈ vars, Reference.encode v.id = name := by
  refine ⟨_, aliases_eq h, ?_⟩
  intro name
  rw [Collection.contains_ofPairs_iff]
  constructor
  . rintro ⟨a, hmem⟩
    obtain ⟨v, hv, heq⟩ := List.mem_map.mp hmem
    cases heq
    exact ⟨v, hv, rfl⟩
  . rintro ⟨v, hv, rfl⟩
    exact ⟨v.name, List.mem_map_of_mem hv⟩

/--
The aliases of variables are their identifiers, one for each of them in order, and each identifier
refers to its own variable.
-/
structure Names (vars : List Variable) (aliases : Collection Text) : Prop where
  entries : aliases.entries = vars.map fun v => (Reference.encode v.id, v.name)
  decoded : aliases.keys.map Reference.decode? = vars.map fun v => some v.id

theorem exists_names {vars : List Variable} (nodup : (vars.map Variable.id).Nodup)
    (h : ∀ v ∈ vars, v.id ≠ []) :
    ∃ aliases, Scope.aliases vars = .ok aliases ∧ Names vars aliases := by
  have hdecoded : (vars.map fun v => Reference.encode v.id).map Reference.decode? =
      vars.map fun v => some v.id := by
    rw [List.map_map]
    exact List.map_congr_left fun v hv => Reference.decode?_encode (h v hv)
  have hkeys : ((vars.map fun v => (Reference.encode v.id, v.name)).map Prod.fst) =
      vars.map fun v => Reference.encode v.id := by
    rw [List.map_map]
    rfl
  -- What the identifiers decode to is distinct, and so are the identifiers.
  have hdistinct : (vars.map fun v => Reference.encode v.id).Nodup := by
    apply List.Nodup.of_map Reference.decode?
    rw [hdecoded]
    have hsome := nodup.map (f := some) fun _ _ => Option.some.inj
    rwa [List.map_map] at hsome
  have hentries := Collection.entries_ofPairs (hkeys ▸ hdistinct)
  refine ⟨_, aliases_eq h, hentries, ?_⟩
  rw [Collection.keys, hentries, Entries.keys, hkeys, hdecoded]

theorem failsOnly_aliases (vars : List Variable) :
    Traversal.FailsOnly (· = .emptyId) (Scope.aliases vars) := by
  refine Traversal.FailsOnly.bind (.mapM fun v _ => ?_) fun _ _ => .ok _
  refine Traversal.FailsOnly.bind ?_ fun _ _ => .ok _
  unfold Reference.encode?
  split
  . exact .error rfl
  . exact .ok _

theorem aliases_eq_error_iff {vars : List Variable} :
    Scope.aliases vars = .error .emptyId ↔ ∃ v ∈ vars, v.id = [] := by
  constructor
  . intro h
    by_contra hnone
    have hnamed : ∀ v ∈ vars, v.id ≠ [] := fun v hv hempty => hnone ⟨v, hv, hempty⟩
    rw [aliases_eq hnamed] at h
    cases h
  . rintro ⟨v, hv, hempty⟩
    cases h : Scope.aliases vars with
    | error failure => rw [failsOnly_aliases vars failure h]
    | ok aliases =>
      obtain ⟨pairs, hpairs, -⟩ := Traversal.bind_eq_ok_iff.mp h
      obtain ⟨pair, -, hpair⟩ := Traversal.exists_of_mem_of_mapM hpairs hv
      rw [hempty] at hpair
      cases hpair

theorem exists_of_contains_aliases {vars : List Variable} {aliases : Collection Text}
    (h : Scope.aliases vars = .ok aliases) {name : Text} (hname : aliases.contains name = true) :
    ∃ v ∈ vars, Reference.encode? v.id = .ok name := by
  unfold Scope.aliases at h
  rw [Traversal.bind_eq_ok_iff] at h
  obtain ⟨pairs, hpairs, heq⟩ := h
  cases heq
  obtain ⟨a, hget⟩ := Collection.contains_iff.mp hname
  obtain ⟨v, hv, hpair⟩ := Traversal.exists_of_mem_mapM hpairs (Collection.mem_of_get?_ofPairs hget)
  rw [Traversal.bind_eq_ok_iff] at hpair
  obtain ⟨identifier, hidentifier, hsame⟩ := hpair
  cases hsame
  exact ⟨v, hv, hidentifier⟩

end Scope

namespace Edit

theorem mem_values_of_visible {s : Store} {collectionComponent : Text} {selector : Option Selector}
    {seen : List Variable} (h : visible s collectionComponent selector = .ok seen) {v : Variable}
    (hv : v ∈ seen) : Entity.variable_ v ∈ s.collections.vars.values := by
  unfold visible at h
  split at h
  . cases h
    cases hv
  . obtain ⟨vars, hvars, hseen⟩ := Traversal.map_eq_ok_iff.mp h
    subst hseen
    obtain ⟨entity, hentity, htoVariable⟩ :=
      Traversal.exists_of_mem_mapM hvars (Scope.mem_of_mem_visible hv)
    cases entity with
    | variable_ w =>
      cases htoVariable
      exact hentity
    | resource r => cases htoVariable
    | property p => cases htoVariable
    | raw value => cases htoVariable

end Edit

end PageBinding
