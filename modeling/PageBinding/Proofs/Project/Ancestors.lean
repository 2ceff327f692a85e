import Mathlib.Data.List.Perm.Subperm
import PageBinding.Proofs.Project

/-!
This module contains where the parent links of a page tree lead: up to an instance that has no
parent, to a parent that is not declared, or round in a circle. The path of an instance is all that
they lead to. There is none if they come back to an instance.
-/

namespace PageBinding

namespace Project

variable {p : Project} {id : Text}

/--
The instance that the parent link of an instance leads to. There is none at the root, and none where
an instance is not declared.
-/
def parent? (p : Project) (id : Text) : Option Text :=
  (p.tree.get? id).bind Instance.parent

def ancestor? (p : Project) (n : Nat) (id : Text) : Option Text :=
  match n with
  | 0 => some id
  | n + 1 => (p.parent? id).bind (ancestor? p n)

def Returns (p : Project) (id other : Text) : Prop :=
  ∃ m n, m < n ∧ p.ancestor? m id = some other ∧ p.ancestor? n id = some other

/--
A list of ids is all that the parent links of an instance lead to, up to an instance that has no
parent or is not declared.
-/
structure IsPath (p : Project) (id : Text) (path : Selector) : Prop where
  starts : path.head? = some id
  follows : ∀ n, path[n]? = p.ancestor? n id
  ends : ∃ top, path.getLast? = some top ∧ p.parent? top = none
  nodup : path.Nodup
  bounded : path.length ≤ p.instances.length + 1

theorem ancestor?_succ_of_parent? {parent : Text} (h : p.parent? id = some parent) (n : Nat) :
    p.ancestor? (n + 1) id = p.ancestor? n parent := by
  rw [ancestor?, h, Option.bind_some]

theorem ancestor?_succ (n : Nat) (id : Text) :
    p.ancestor? (n + 1) id = (p.ancestor? n id).bind p.parent? := by
  induction n generalizing id with
  | zero =>
    change (p.parent? id).bind (p.ancestor? 0) = p.parent? id
    cases p.parent? id <;> rfl
  | succ n ih =>
    rw [ancestor?, ancestor?]
    cases p.parent? id with
    | none => rfl
    | some parent => exact ih parent

theorem contains_tree_iff : p.tree.contains id = true ↔ id ∈ p.instances.map Instance.id := by
  rw [tree, InstanceTree.ofInstances, Collection.contains_ofPairs_iff]
  simp [eq_comm]

theorem mem_instances_of_parent? {parent : Text} (h : p.parent? id = some parent) :
    id ∈ p.instances.map Instance.id := by
  obtain ⟨i, hget, -⟩ := Option.bind_eq_some_iff.mp h
  rw [← contains_tree_iff, Collection.contains_iff]
  exact ⟨i, hget⟩

theorem follows_of_top (h : p.parent? id = none) (n : Nat) : [id][n]? = p.ancestor? n id := by
  cases n with
  | zero => rfl
  | succ n =>
    rw [ancestor?, h]
    rfl

theorem follows_of_climb {below path : Selector} (h : p.climb below id = .ok path) :
    ∃ up, path = below ++ up ∧ (∀ n, up[n]? = p.ancestor? n id) ∧ up.Nodup ∧
      ∀ x ∈ up, x ∉ below := by
  induction below, id using Project.climb.induct (p := p) generalizing path with
  | case1 below id hmem =>
    rw [climb, if_pos hmem] at h
    cases h
  | case2 below id hmem hget =>
    have hparent : p.parent? id = none := by rw [parent?, hget]; rfl
    rw [climb_of_none hmem hparent] at h
    cases h
    exact ⟨[id], rfl, follows_of_top hparent, List.nodup_singleton id,
      List.forall_mem_singleton.mpr hmem⟩
  | case3 below id hmem i hget hlink =>
    have hparent : p.parent? id = none := by rw [parent?, hget]; exact hlink
    rw [climb_of_none hmem hparent] at h
    cases h
    exact ⟨[id], rfl, follows_of_top hparent, List.nodup_singleton id,
      List.forall_mem_singleton.mpr hmem⟩
  | case4 below id hmem i hget parent hlink ih =>
    have hparent : p.parent? id = some parent := by rw [parent?, hget]; exact hlink
    rw [climb_of_some hmem hparent] at h
    obtain ⟨up, rfl, hfollows, hnodup, hfresh⟩ := ih h
    simp only [List.mem_append, List.mem_singleton, not_or] at hfresh
    refine ⟨id :: up, by simp, ?_, ?_, ?_⟩
    . intro n
      cases n with
      | zero => rfl
      | succ n => rw [ancestor?_succ_of_parent? hparent, List.getElem?_cons_succ, hfollows]
    . rw [List.nodup_cons]
      exact ⟨fun hid => (hfresh id hid).2 rfl, hnodup⟩
    . rw [List.forall_mem_cons]
      exact ⟨hmem, fun x hx => (hfresh x hx).1⟩

theorem returns_of_climb {below : Selector} {failure : Failure}
    (h : p.climb below id = .error failure) :
    ∃ n other, failure = .projectFile "instances" (.cycle other) ∧
      p.ancestor? n id = some other ∧
      (other ∈ below ∨ ∃ m < n, p.ancestor? m id = some other) := by
  induction below, id using Project.climb.induct (p := p) with
  | case1 below id hmem =>
    rw [climb, if_pos hmem] at h
    cases h
    exact ⟨0, id, rfl, rfl, .inl hmem⟩
  | case2 below id hmem hget =>
    rw [climb_of_none hmem (by rw [hget]; rfl)] at h
    cases h
  | case3 below id hmem i hget hlink =>
    rw [climb_of_none hmem (by rw [hget]; exact hlink)] at h
    cases h
  | case4 below id hmem i hget parent hlink ih =>
    have hparent : p.parent? id = some parent := by rw [parent?, hget]; exact hlink
    rw [climb_of_some hmem hparent] at h
    obtain ⟨n, other, hfailure, hother, hpassed⟩ := ih h
    refine ⟨n + 1, other, hfailure, ?_, ?_⟩
    . rw [ancestor?_succ_of_parent? hparent, hother]
    . rcases hpassed with hbelow | ⟨m, hlt, hm⟩
      . rcases List.mem_append.mp hbelow with hbelow | hid
        . exact .inl hbelow
        . rw [List.mem_singleton] at hid
          exact .inr ⟨0, by omega, congrArg some hid.symm⟩
      . exact .inr ⟨m + 1, by omega, by rw [ancestor?_succ_of_parent? hparent, hm]⟩

theorem selector_eq_climb (h : id ∈ p.instances.map Instance.id) :
    p.selector id = p.climb [] id := by
  rw [selector, if_pos (contains_tree_iff.mpr h)]

theorem selector_eq_error (h : id ∉ p.instances.map Instance.id) :
    p.selector id = .error (.instanceNotFound id) := by
  rw [selector, if_neg (by rwa [contains_tree_iff])]

theorem mem_instances_of_selector {path : Selector} (h : p.selector id = .ok path) :
    id ∈ p.instances.map Instance.id := by
  by_contra hid
  rw [selector_eq_error hid] at h
  cases h

theorem follows_of_selector {path : Selector} (h : p.selector id = .ok path) :
    (∀ n, path[n]? = p.ancestor? n id) ∧ path.Nodup := by
  rw [selector_eq_climb (mem_instances_of_selector h)] at h
  obtain ⟨up, rfl, hfollows, hnodup, -⟩ := follows_of_climb h
  exact ⟨hfollows, hnodup⟩

theorem not_returns_of_selector {path : Selector} (h : p.selector id = .ok path) (other : Text) :
    ¬ p.Returns id other := by
  rintro ⟨m, n, hlt, hm, hn⟩
  obtain ⟨hfollows, hnodup⟩ := follows_of_selector h
  rw [← hfollows] at hm hn
  obtain ⟨hbound, -⟩ := List.getElem?_eq_some_iff.mp hm
  have heq : m = n := (List.getElem?_inj hbound hnodup).mp (hm.trans hn.symm)
  omega

theorem selector_cases (h : id ∈ p.instances.map Instance.id) :
    (∃ path, p.selector id = .ok path) ∨
      ∃ other, p.selector id = .error (.projectFile "instances" (.cycle other)) ∧
        p.Returns id other := by
  cases hselector : p.selector id with
  | ok path => exact .inl ⟨path, rfl⟩
  | error failure =>
    rw [selector_eq_climb h] at hselector
    obtain ⟨n, other, rfl, hother, hpassed⟩ := returns_of_climb hselector
    rcases hpassed with hmem | ⟨m, hlt, hm⟩
    . cases hmem
    . exact .inr ⟨other, rfl, m, n, hlt, hm, hother⟩

theorem isPath_of_selector {path : Selector} (h : p.selector id = .ok path) : p.IsPath id path := by
  obtain ⟨ancestors, rfl⟩ := selector_eq_cons h
  obtain ⟨hfollows, hnodup⟩ := follows_of_selector h
  have hlast : (id :: ancestors)[ancestors.length]? = (id :: ancestors).getLast? := by
    rw [List.getLast?_eq_getElem?, List.length_cons, Nat.add_sub_cancel]
  obtain ⟨top, htop⟩ : ∃ top, (id :: ancestors).getLast? = some top :=
    ⟨_, List.getLast?_eq_getLast_of_ne_nil (List.cons_ne_nil id ancestors)⟩
  refine ⟨rfl, hfollows, ⟨top, htop, ?_⟩, hnodup, ?_⟩
  . -- Nothing follows the last one.
    have hnone := hfollows (ancestors.length + 1)
    rw [ancestor?_succ, ← hfollows, hlast, htop, Option.bind_some] at hnone
    rw [← hnone]
    exact List.getElem?_eq_none (Nat.le_refl _)
  . -- All but the last one have a parent, so they are declared.
    have hdeclared : (id :: ancestors).dropLast ⊆ p.instances.map Instance.id := by
      intro x hx
      obtain ⟨n, hn, rfl⟩ := List.getElem_of_mem hx
      rw [List.length_dropLast, List.length_cons, Nat.add_sub_cancel] at hn
      obtain ⟨parent, hparent⟩ : ∃ parent, (id :: ancestors)[n + 1]? = some parent :=
        ⟨ancestors[n], List.getElem?_eq_getElem (Nat.succ_lt_succ hn)⟩
      rw [hfollows, ancestor?_succ, ← hfollows, List.getElem?_eq_getElem (by simp; omega),
        Option.bind_some] at hparent
      rw [List.getElem_dropLast]
      exact mem_instances_of_parent? hparent
    have hdistinct := hnodup.sublist (List.dropLast_sublist (id :: ancestors))
    have hle := (List.Nodup.subperm hdistinct hdeclared).length_le
    rw [List.length_dropLast, List.length_map] at hle
    omega

/--
An instance that is not declared has no path, and neither has one whose parent links come back to an
instance. Every other one has.
-/
theorem selector_classifies (p : Project) (id : Text) :
    (p.selector id = .error (.instanceNotFound id) ↔ id ∉ p.instances.map Instance.id) ∧
      ((∃ other, p.selector id = .error (.projectFile "instances" (.cycle other))) ↔
        id ∈ p.instances.map Instance.id ∧ ∃ other, p.Returns id other) ∧
      ((∃ path, p.selector id = .ok path ∧ p.IsPath id path) ↔
        id ∈ p.instances.map Instance.id ∧ ¬ ∃ other, p.Returns id other) := by
  by_cases hid : id ∈ p.instances.map Instance.id
  . rcases selector_cases hid with ⟨path, hpath⟩ | ⟨other, hother, hreturns⟩
    . have hnot : ¬ ∃ other, p.Returns id other :=
        fun ⟨other, hother⟩ => not_returns_of_selector hpath other hother
      simp [hpath, hid, hnot, isPath_of_selector hpath]
    . simp only [hother, hid, not_true_eq_false, iff_false, true_and]
      refine ⟨by simp, ⟨fun _ => ⟨other, hreturns⟩, fun _ => ⟨other, rfl⟩⟩, ?_⟩
      simpa using ⟨other, hreturns⟩
  . simp [selector_eq_error hid, hid]

end Project

end PageBinding
