import PageBinding.Proofs.Project.Ancestors
import PageBinding.Proofs.Scope

/-!
This module contains how scopes are inherited in the page tree. An instance sees what its parent
sees, and besides only what belongs to itself and what a collection has for its children.
-/

namespace PageBinding

namespace Project

variable {p : Project}

theorem get?_tree_of_mem (loaded : p.conflict? = none) {i : Instance} (h : i ∈ p.instances) :
    p.tree.get? i.id = some i := by
  obtain ⟨⟨hnodup, -⟩, -⟩ := conflict?_eq_none_iff.mp loaded
  have hkeys : ((p.instances.map fun i => (i.id, i)).map Prod.fst).Nodup := by
    rwa [List.map_map]
  rw [← Collection.mem_entries_iff, tree, InstanceTree.ofInstances,
    Collection.entries_ofPairs hkeys]
  exact List.mem_map_of_mem h

theorem componentOf?_tree_of_mem (loaded : p.conflict? = none) {i : Instance}
    (h : i ∈ p.instances) : p.tree.componentOf? i.id = some i.component := by
  rw [InstanceTree.componentOf?, get?_tree_of_mem loaded h, Option.map_some]

theorem Returns.of_parent? {id parent other : Text} (h : p.Returns parent other)
    (hparent : p.parent? id = some parent) : p.Returns id other := by
  obtain ⟨m, n, hlt, hm, hn⟩ := h
  refine ⟨m + 1, n + 1, Nat.succ_lt_succ hlt, ?_, ?_⟩
  . rw [ancestor?_succ_of_parent? hparent, hm]
  . rw [ancestor?_succ_of_parent? hparent, hn]

theorem selector_of_parent? {id parent : Text} {path : Selector} (h : p.selector id = .ok path)
    (hparent : p.parent? id = some parent) (hdeclared : parent ∈ p.instances.map Instance.id) :
    ∃ up, p.selector parent = .ok up ∧ path = id :: up := by
  rcases selector_cases hdeclared with ⟨up, hup⟩ | ⟨other, -, hreturns⟩
  . refine ⟨up, hup, ?_⟩
    apply List.ext_getElem?
    intro n
    rw [(follows_of_selector h).1]
    cases n with
    | zero => rfl
    | succ n =>
      rw [ancestor?_succ_of_parent? hparent, List.getElem?_cons_succ, (follows_of_selector hup).1]
  . exact absurd (hreturns.of_parent? hparent) (not_returns_of_selector h other)

end Project

namespace Scope

variable {tree : InstanceTree} {collectionComponent id parent : Text} {ancestors : Selector}
  {v : Variable}

theorem scope_of_isHidden (h : isHidden tree collectionComponent id v = true) : v.scope = id := by
  simp only [isHidden, Bool.and_eq_true, decide_eq_true_eq] at h
  exact h.1.2

theorem IsShown.below (h : IsShown tree collectionComponent (parent :: ancestors) v)
    (hid : id ∉ parent :: ancestors) :
    IsShown tree collectionComponent (id :: parent :: ancestors) v := by
  obtain ⟨-, hscope⟩ := h
  refine ⟨?_, List.mem_cons_of_mem id hscope⟩
  rw [Bool.eq_false_iff]
  intro hhidden
  rw [scope_of_isHidden hhidden] at hscope
  exact hid hscope

theorem isShown_only_iff (hid : id ∉ parent :: ancestors) :
    IsShown tree collectionComponent (id :: parent :: ancestors) v ∧
        ¬ IsShown tree collectionComponent (parent :: ancestors) v ↔
      isHidden tree collectionComponent id v = false ∧ v.scope = id ∨
        isHidden tree collectionComponent parent v = true := by
  constructor
  . rintro ⟨⟨hshown, hscope⟩, hnot⟩
    rcases List.mem_cons.mp hscope with hown | hrest
    . exact .inl ⟨hshown, hown⟩
    . right
      rw [← Bool.not_eq_false]
      exact fun hparent => hnot ⟨hparent, hrest⟩
  . rintro (⟨hshown, hown⟩ | hhidden)
    . refine ⟨⟨hshown, hown ▸ List.mem_cons_self⟩, ?_⟩
      rintro ⟨-, hscope⟩
      exact hid (hown ▸ hscope)
    . have hscope := scope_of_isHidden hhidden
      refine ⟨⟨?_, ?_⟩, ?_⟩
      . rw [Bool.eq_false_iff]
        intro hchild
        rw [← scope_of_isHidden hchild, hscope] at hid
        exact hid List.mem_cons_self
      . rw [hscope]
        exact List.mem_cons_of_mem id List.mem_cons_self
      . rintro ⟨hshown, -⟩
        rw [hhidden] at hshown
        cases hshown

instance (selector : Selector) :
    DecidablePred (IsShown tree collectionComponent selector) := fun v =>
  match selector with
  | [] => instDecidableFalse
  | instanceId :: ancestors => inferInstanceAs (Decidable
      (isHidden tree collectionComponent instanceId v = false ∧
        v.scope ∈ instanceId :: ancestors))

theorem visible_eq_filter (selector : Selector) (vars : List Variable) :
    visible tree collectionComponent (some selector) vars =
      vars.filter fun v => IsShown tree collectionComponent selector v := by
  cases selector with
  | nil =>
    rw [eq_comm, visible, List.filter_eq_nil_iff]
    exact fun v _ hshown => of_decide_eq_true hshown
  | cons instanceId ancestors =>
    apply List.filter_congr
    intro v _
    simp [IsShown]

theorem sublist_visible (hid : id ∉ parent :: ancestors) (vars : List Variable) :
    (visible tree collectionComponent (some (parent :: ancestors)) vars).Sublist
      (visible tree collectionComponent (some (id :: parent :: ancestors)) vars) := by
  rw [visible_eq_filter, visible_eq_filter]
  apply List.monotone_filter_right
  intro v hshown
  rw [decide_eq_true_eq] at hshown ⊢
  exact hshown.below hid

theorem filter_not_mem_visible (hid : id ∉ parent :: ancestors) (vars : List Variable) :
    (visible tree collectionComponent (some (id :: parent :: ancestors)) vars).filter
        (fun v => v ∉ visible tree collectionComponent (some (parent :: ancestors)) vars) =
      vars.filter fun v => isHidden tree collectionComponent id v = false ∧ v.scope = id ∨
        isHidden tree collectionComponent parent v = true := by
  rw [visible_eq_filter (id :: parent :: ancestors), List.filter_filter]
  apply List.filter_congr
  intro v hv
  rw [← Bool.decide_and, decide_eq_decide, and_comm, mem_visible_iff, ← isShown_only_iff hid]
  simp [hv]

end Scope

namespace Project

variable {p : Project}

theorem isHidden_iff (loaded : p.conflict? = none) {i : Instance} (h : i ∈ p.instances)
    {collectionComponent : Text} {v : Variable} :
    Scope.isHidden p.tree collectionComponent i.id v = true ↔
      v.scope = i.id ∧ v.isParameter = true ∧ i.component = collectionComponent := by
  simp only [Scope.isHidden, componentOf?_tree_of_mem loaded h, Bool.and_eq_true,
    decide_eq_true_eq, Option.some.injEq]
  grind

/--
The path of an instance below a declared parent is the instance and the path of its parent. It sees
all that its parent sees, in the same order, and besides just what belongs to it, without its own
parameters if it is a collection, and the parameters of its parent if that is one. This is so
whatever the variables are.
-/
theorem visible_inherited (loaded : p.check = .ok p) (collectionComponent : Text)
    (vars : List Variable) {child parent : Instance} (hchild : child ∈ p.instances)
    (hparent : parent ∈ p.instances) (hlink : child.parent = some parent.id) {path : Selector}
    (hpath : p.selector child.id = .ok path) :
    ∃ up, p.selector parent.id = .ok up ∧ path = child.id :: up ∧
      (Scope.visible p.tree collectionComponent (some up) vars).Sublist
        (Scope.visible p.tree collectionComponent (some path) vars) ∧
      (Scope.visible p.tree collectionComponent (some path) vars).filter
          (fun v => v ∉ Scope.visible p.tree collectionComponent (some up) vars) =
        vars.filter fun v =>
          v.scope = child.id ∧ ¬ (v.isParameter ∧ child.component = collectionComponent) ∨
          v.scope = parent.id ∧ v.isParameter ∧ parent.component = collectionComponent := by
  rw [check_eq_ok_iff] at loaded
  have hparent? : p.parent? child.id = some parent.id := by
    rw [parent?, get?_tree_of_mem loaded hchild, Option.bind_some, hlink]
  obtain ⟨up, hup, rfl⟩ := selector_of_parent? hpath hparent? (List.mem_map_of_mem hparent)
  obtain ⟨ancestors, rfl⟩ := selector_eq_cons hup
  -- The path of the child comes to no instance twice, so the child is none of its ancestors.
  have hid : child.id ∉ parent.id :: ancestors :=
    (List.nodup_cons.mp (follows_of_selector hpath).2).1
  refine ⟨_, hup, rfl, Scope.sublist_visible hid vars, ?_⟩
  rw [Scope.filter_not_mem_visible hid]
  apply List.filter_congr
  intro v _
  rw [decide_eq_decide, isHidden_iff loaded hparent, ← Bool.not_eq_true, isHidden_iff loaded hchild]
  grind

def outerList : Instance :=
  ⟨"outer", "List", none, some "page"⟩

def innerList : Instance :=
  ⟨"inner", "List", none, some "outer"⟩

def item (id scope : Text) : Variable :=
  ⟨id, "item", scope, .parameter⟩

def nestedLists : Project where
  instances := [⟨"page", "Body", none, none⟩, outerList, innerList]
  vars := [item "i" "inner", item "o" "outer", ⟨"t", "title", "page", .value (.string "Lists")⟩]
  resources := []
  props := []

def innerPath : Selector :=
  ["inner", "outer", "page"]

theorem selector_innerList : nestedLists.selector innerList.id = .ok innerPath :=
  calc nestedLists.climb [] "inner"
      = nestedLists.climb ["inner"] "outer" := climb_of_some (by decide) rfl
    _ = nestedLists.climb ["inner", "outer"] "page" := climb_of_some (by decide) rfl
    _ = .ok innerPath := climb_of_none (by decide) rfl

/--
The inner list sees what the outer one does, and besides only the item of the outer list.
-/
theorem visible_inherited_nestedLists :
    ∃ up, nestedLists.selector outerList.id = .ok up ∧ innerPath = innerList.id :: up ∧
      (Scope.visible nestedLists.tree "List" (some up) nestedLists.vars).Sublist
        (Scope.visible nestedLists.tree "List" (some innerPath) nestedLists.vars) ∧
      (Scope.visible nestedLists.tree "List" (some innerPath) nestedLists.vars).filter
          (fun v => v ∉ Scope.visible nestedLists.tree "List" (some up) nestedLists.vars) =
        [item "o" "outer"] := by
  have hchild : innerList ∈ nestedLists.instances := by decide
  have hparent : outerList ∈ nestedLists.instances := by decide
  obtain ⟨up, hup, hpath, hsublist, honly⟩ :=
    visible_inherited (by decide) "List" nestedLists.vars hchild hparent rfl selector_innerList
  exact ⟨up, hup, hpath, hsublist, honly.trans (by decide)⟩

end Project

end PageBinding
