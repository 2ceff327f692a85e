import PageBinding.Proofs.Edit.Filed

/-!
This module contains how a project and the collections of its store correspond, and what is known of
the paths in its page tree.
-/

namespace PageBinding

theorem Collection.eq_of_entries_eq {α : Type} {c d : Collection α} (h : c.entries = d.entries) :
    c = d := by
  cases c
  cases d
  cases h
  rfl

namespace Collection.FiledAs

variable {α : Type} {wrap : α → Entity} {id : α → Text} {c : Collection Entity}

theorem map_filterMap_eq (unwrap : Entity → Option α) (hunwrap : ∀ a, unwrap (wrap a) = some a)
    {entries : List (Text × Entity)} (h : ∀ entry ∈ entries, ∃ a, entry = (id a, wrap a)) :
    ((entries.map Prod.snd).filterMap unwrap).map (fun a => (id a, wrap a)) = entries := by
  induction entries with
  | nil => rfl
  | cons entry rest ih =>
    obtain ⟨a, rfl⟩ := h entry List.mem_cons_self
    rw [List.map_cons, List.filterMap_cons_some (hunwrap a), List.map_cons,
      ih fun other hmem => h other (List.mem_cons_of_mem _ hmem)]

theorem map_filterMap_values (h : c.FiledAs wrap id) (unwrap : Entity → Option α)
    (hunwrap : ∀ a, unwrap (wrap a) = some a) :
    (c.values.filterMap unwrap).map (fun a => (id a, wrap a)) = c.entries := by
  apply map_filterMap_eq unwrap hunwrap
  rintro ⟨key, entity⟩ hmem
  obtain ⟨a, rfl, rfl⟩ := h key entity (Collection.mem_entries_iff.mp hmem)
  exact ⟨a, rfl⟩

theorem ofPairs_filterMap (h : c.FiledAs wrap id) (unwrap : Entity → Option α)
    (hunwrap : ∀ a, unwrap (wrap a) = some a) :
    Collection.ofPairs ((c.values.filterMap unwrap).map fun a => (id a, wrap a)) = c := by
  apply Collection.eq_of_entries_eq
  rw [h.map_filterMap_values unwrap hunwrap]
  exact Collection.entries_ofPairs c.nodup

theorem nodup_filterMap (h : c.FiledAs wrap id) (unwrap : Entity → Option α)
    (hunwrap : ∀ a, unwrap (wrap a) = some a) : ((c.values.filterMap unwrap).map id).Nodup := by
  have hkeys := congrArg (List.map Prod.fst) (h.map_filterMap_values unwrap hunwrap)
  rw [List.map_map] at hkeys
  exact hkeys ▸ c.nodup

theorem values_ofPairs {as : List α} (nodup : (as.map id).Nodup) :
    (Collection.ofPairs (as.map fun a => (id a, wrap a))).values = as.map wrap := by
  have hkeys : ((as.map fun a => (id a, wrap a)).map Prod.fst).Nodup := by
    rw [List.map_map]
    exact nodup
  rw [Collection.values, Collection.entries_ofPairs hkeys, List.map_map]
  rfl

theorem filterMap_ofPairs (unwrap : Entity → Option α) (hunwrap : ∀ a, unwrap (wrap a) = some a)
    {as : List α} (nodup : (as.map id).Nodup) :
    (Collection.ofPairs (as.map fun a => (id a, wrap a))).values.filterMap unwrap = as := by
  have hsome : unwrap ∘ wrap = some := funext hunwrap
  rw [values_ofPairs nodup, List.filterMap_map, hsome, List.filterMap_some]

end Collection.FiledAs

namespace Project

variable {p q : Project}

def withCollections (p : Project) (c : Collections) : Project where
  instances := p.instances
  vars := c.variableList
  resources := c.resources.values.filterMap Entity.asResource?
  props := c.propertyList

theorem toCollections_withCollections {c : Collections} (h : c.Filed) :
    (p.withCollections c).toCollections = c := by
  have hvars : (p.withCollections c).toCollections.vars = c.vars :=
    (h .vars).ofPairs_filterMap Entity.asVariable? fun _ => rfl
  have hresources : (p.withCollections c).toCollections.resources = c.resources :=
    (h .resources).ofPairs_filterMap Entity.asResource? fun _ => rfl
  have hprops : (p.withCollections c).toCollections.props = c.props :=
    (h .props).ofPairs_filterMap Entity.asProperty? fun _ => rfl
  calc (p.withCollections c).toCollections
      = ⟨c.vars, c.resources, c.props⟩ := by rw [← hvars, ← hresources, ← hprops]
    _ = c := rfl

theorem climb_of_none {below : Selector} {id : Text} (hid : id ∉ below)
    (h : (p.tree.get? id).bind Instance.parent = none) :
    p.climb below id = .ok (below ++ [id]) := by
  rw [climb, if_neg hid]
  split
  . rfl
  . next i hget =>
    simp only [hget, Option.bind_some] at h
    simp only [h]

theorem climb_of_some {below : Selector} {id parent : Text} (hid : id ∉ below)
    (h : (p.tree.get? id).bind Instance.parent = some parent) :
    p.climb below id = p.climb (below ++ [id]) parent := by
  rw [climb, if_neg hid]
  split
  . next hget => simp [hget] at h
  . next i hget =>
    simp only [hget, Option.bind_some] at h
    simp only [h]

theorem climb_eq_append {below : Selector} {id : Text} {path : Selector}
    (h : p.climb below id = .ok path) : ∃ ancestors, path = below ++ id :: ancestors := by
  induction below, id using Project.climb.induct (p := p) generalizing path with
  | case1 below id hmem =>
    rw [climb, if_pos hmem] at h
    cases h
  | case2 below id hmem hget =>
    rw [climb_of_none hmem (by rw [hget]; rfl)] at h
    cases h
    exact ⟨[], rfl⟩
  | case3 below id hmem i hget hparent =>
    rw [climb_of_none hmem (by rw [hget]; exact hparent)] at h
    cases h
    exact ⟨[], rfl⟩
  | case4 below id hmem i hget parent hparent ih =>
    rw [climb_of_some hmem (by rw [hget]; exact hparent)] at h
    obtain ⟨ancestors, rfl⟩ := ih h
    exact ⟨parent :: ancestors, by simp⟩

theorem selector_eq_cons {id : Text} {path : Selector} (h : p.selector id = .ok path) :
    ∃ ancestors, path = id :: ancestors := by
  unfold selector at h
  split at h
  . exact climb_eq_append h
  . cases h

theorem climb_congr (h : p.instances = q.instances) (below : Selector) (id : Text) :
    p.climb below id = q.climb below id := by
  have htree : p.tree = q.tree := congrArg InstanceTree.ofInstances h
  -- Both climbs take the same branch at every step, since they look into the same tree.
  induction below, id using Project.climb.induct (p := p) with
  | case1 below id hmem => rw [climb, if_pos hmem, climb, if_pos hmem]
  | case2 below id hmem hget =>
    have hnone : (p.tree.get? id).bind Instance.parent = none := by rw [hget]; rfl
    rw [climb_of_none hmem hnone, climb_of_none hmem (htree ▸ hnone)]
  | case3 below id hmem i hget hparent =>
    have hnone : (p.tree.get? id).bind Instance.parent = none := by rw [hget]; exact hparent
    rw [climb_of_none hmem hnone, climb_of_none hmem (htree ▸ hnone)]
  | case4 below id hmem i hget parent hparent ih =>
    have hsome : (p.tree.get? id).bind Instance.parent = some parent := by
      rw [hget]
      exact hparent
    rw [climb_of_some hmem hsome, climb_of_some hmem (htree ▸ hsome), ih]

theorem selector_congr (h : p.instances = q.instances) (id : Text) :
    p.selector id = q.selector id := by
  have htree : p.tree = q.tree := congrArg InstanceTree.ofInstances h
  unfold selector
  rw [climb_congr h, htree]

theorem mem_instances_of_componentOf? {id : Text} (h : p.tree.componentOf? id ≠ none) :
    id ∈ p.instances.map Instance.id := by
  unfold InstanceTree.componentOf? at h
  cases hget : p.tree.get? id with
  | none => simp [hget] at h
  | some i =>
    obtain ⟨j, hmem, heq⟩ := List.mem_map.mp (Collection.mem_of_get?_ofPairs hget)
    cases heq
    exact List.mem_map_of_mem hmem

theorem repeated?_eq_none_iff {seen ts : List Text} :
    repeated? seen ts = none ↔ ts.Nodup ∧ ∀ t ∈ ts, t ∉ seen := by
  induction ts generalizing seen with
  | nil => simp [repeated?]
  | cons t rest ih =>
    unfold repeated?
    split
    . next hmem => simp [hmem]
    . next hmem =>
      rw [ih, List.nodup_cons]
      simp only [List.mem_cons, not_or, forall_eq_or_imp]
      constructor
      . rintro ⟨hnodup, hrest⟩
        exact ⟨⟨fun ht => (hrest t ht).1 rfl, hnodup⟩, hmem, fun u hu => (hrest u hu).2⟩
      . rintro ⟨⟨ht, hnodup⟩, -, hrest⟩
        refine ⟨hnodup, fun u hu => ⟨?_, hrest u hu⟩⟩
        rintro rfl
        exact ht hu

theorem conflict?_eq_none_iff :
    p.conflict? = none ↔ ((p.instances.map Instance.id).Nodup ∧ (p.vars.map Variable.id).Nodup ∧
      (p.resources.map Resource.id).Nodup ∧ (p.props.map Property.id).Nodup) ∧
      ∀ v ∈ p.vars, v.scope ∈ p.instances.map Instance.id := by
  have horphan : p.vars.find? (fun v => v.scope ∉ p.instances.map Instance.id) = none ↔
      ∀ v ∈ p.vars, v.scope ∈ p.instances.map Instance.id := by
    rw [List.find?_eq_none]
    simp
  simp only [conflict?, idsByPart, Option.or_eq_none_iff, Option.map_eq_none_iff, horphan,
    List.findSome?_eq_none_iff, List.mem_cons, List.not_mem_nil, or_false, forall_eq_or_imp,
    forall_eq, repeated?_eq_none_iff, not_false_eq_true, implies_true, and_true]

theorem check_eq_ok_iff : p.check = .ok p ↔ p.conflict? = none := by
  unfold check
  cases p.conflict? with
  | none => simp
  | some kind => simp [Checked.problem]

theorem lists_toCollections (h : p.conflict? = none) :
    p.toCollections.variableList = p.vars ∧ p.toCollections.propertyList = p.props := by
  obtain ⟨⟨-, hvars, -, hprops⟩, -⟩ := conflict?_eq_none_iff.mp h
  exact ⟨Collection.FiledAs.filterMap_ofPairs Entity.asVariable? (fun _ => rfl) hvars,
    Collection.FiledAs.filterMap_ofPairs Entity.asProperty? (fun _ => rfl) hprops⟩

theorem withCollections_toCollections (h : p.conflict? = none) :
    p.withCollections p.toCollections = p := by
  obtain ⟨⟨-, -, hresources, -⟩, -⟩ := conflict?_eq_none_iff.mp h
  have hlist : p.toCollections.resources.values.filterMap Entity.asResource? = p.resources :=
    Collection.FiledAs.filterMap_ofPairs Entity.asResource? (fun _ => rfl) hresources
  obtain ⟨hvars, hprops⟩ := lists_toCollections h
  rw [withCollections, hvars, hlist, hprops]

theorem conflict?_withCollections (h : p.conflict? = none) {c : Collections} (hc : c.Filed)
    (hscopes : ∀ v ∈ c.variableList, v.scope ∈ p.instances.map Instance.id) :
    (p.withCollections c).conflict? = none := by
  obtain ⟨⟨hinstances, -⟩, -⟩ := conflict?_eq_none_iff.mp h
  rw [conflict?_eq_none_iff]
  exact ⟨⟨hinstances, (hc .vars).nodup_filterMap Entity.asVariable? fun _ => rfl,
    (hc .resources).nodup_filterMap Entity.asResource? fun _ => rfl,
    (hc .props).nodup_filterMap Entity.asProperty? fun _ => rfl⟩, hscopes⟩

end Project

end PageBinding
