import PageBinding.Proofs.Edit.Filed

/-!
This module contains what the collections hold after a write: the props and variables that they have
held before, and the one that has been written.
-/

namespace PageBinding

namespace Edit

theorem dropResource_vars (c : Collections) (variableId : Text) (kept : Option Text) :
    (dropResource c variableId kept).vars = c.vars := by
  unfold dropResource
  split
  . split <;> rfl
  . rfl

theorem dropResource_props (c : Collections) (variableId : Text) (kept : Option Text) :
    (dropResource c variableId kept).props = c.props := by
  unfold dropResource
  split
  . split <;> rfl
  . rfl

namespace Write

def putVariable? : Write → Option (Text × Variable)
  | rename id v => some (id, v)
  | save v _ => some (v.id, v)
  | _ => none

variable {c : Collections} {w : Write}

theorem vars_apply_save (c : Collections) (v : Variable) (resource : Option Resource) :
    ((save v resource).apply c).vars = c.vars.insert v.id (.variable_ v) := by
  cases resource with
  | none => rw [apply, Collections.putVariable, dropResource_vars]
  | some resource => rw [apply, Collections.putVariable, Collections.putResource, dropResource_vars]

theorem props_apply_save (c : Collections) (v : Variable) (resource : Option Resource) :
    ((save v resource).apply c).props = c.props := by
  cases resource with
  | none => rw [apply, Collections.putVariable, dropResource_props]
  | some resource =>
    rw [apply, Collections.putVariable, Collections.putResource, dropResource_props]

theorem get?_vars_cases (c : Collections) (w : Write) (key : Text) :
    (w.apply c).vars.get? key = c.vars.get? key ∨
      w = erase key ∧ (w.apply c).vars.get? key = none ∨
      ∃ v, w.putVariable? = some (key, v) ∧ (w.apply c).vars.get? key = some (.variable_ v) := by
  cases w with
  | nothing => exact .inl rfl
  | rename id v =>
    simp only [apply, Collection.get?_insert]
    split
    . next heq => exact .inr (.inr ⟨v, by rw [heq]; rfl, rfl⟩)
    . exact .inl rfl
  | save v resource =>
    simp only [vars_apply_save, Collection.get?_insert]
    split
    . next heq => exact .inr (.inr ⟨v, by rw [heq]; rfl, rfl⟩)
    . exact .inl rfl
  | erase id =>
    simp only [apply, Collection.get?_erase]
    split
    . next heq => exact .inr (.inl ⟨by rw [heq], rfl⟩)
    . exact .inl rfl
  | setProperty p => exact .inl rfl
  | eraseProperty id => exact .inl rfl

theorem mem_variableList_apply {v : Variable} (h : v ∈ (w.apply c).variableList) :
    v ∈ c.variableList ∨ ∃ key, w.putVariable? = some (key, v) := by
  rw [Collections.mem_variableList_iff] at h ⊢
  obtain ⟨key, hget⟩ := Collection.mem_values_iff.mp h
  rcases get?_vars_cases c w key with hsame | ⟨-, hnone⟩ | ⟨v', hput, hget'⟩
  . rw [hsame] at hget
    exact .inl (Collection.mem_values_iff.mpr ⟨key, hget⟩)
  . rw [hnone] at hget
    cases hget
  . rw [hget'] at hget
    cases hget
    exact .inr ⟨key, hput⟩

theorem mem_propertyList_apply {p : Property} (h : p ∈ (w.apply c).propertyList) :
    w = setProperty p ∨ p ∈ c.propertyList := by
  rw [Collections.mem_propertyList_iff] at h ⊢
  cases w with
  | nothing => exact .inr h
  | rename id v => exact .inr h
  | save v resource => exact .inr (props_apply_save c v resource ▸ h)
  | erase id => exact .inr h
  | setProperty q =>
    obtain ⟨key, hget⟩ := Collection.mem_values_iff.mp h
    simp only [apply, Collections.putProperty, Collection.get?_insert] at hget
    split at hget
    . cases hget
      exact .inl rfl
    . exact .inr (Collection.mem_values_iff.mpr ⟨key, hget⟩)
  | eraseProperty id =>
    obtain ⟨key, hget⟩ := Collection.mem_values_iff.mp h
    simp only [apply, Collection.get?_erase] at hget
    split at hget
    . cases hget
    . exact .inr (Collection.mem_values_iff.mpr ⟨key, hget⟩)

theorem get_apply_of_not_mem {name : CollectionName} (h : name ∉ w.names) :
    (w.apply c).get name = c.get name := by
  cases w with
  | nothing => rfl
  | rename id v => cases name <;> first | rfl | exact absurd List.mem_cons_self h
  | save v resource =>
    cases name with
    | vars => simp [names] at h
    | resources => simp [names] at h
    | props => exact props_apply_save c v resource
  | erase id => cases name <;> first | rfl | exact absurd List.mem_cons_self h
  | setProperty p => cases name <;> first | rfl | exact absurd List.mem_cons_self h
  | eraseProperty id => cases name <;> first | rfl | exact absurd List.mem_cons_self h

end Write

end Edit

variable {a b : Ledger} {w : Edit.Write}

theorem Ledger.Edited.stays_apply (h : Ledger.Edited w.names (w.apply a.collections) a b)
    (name : CollectionName) (key : Text) :
    Stays (b.collections.under? name key) ((w.apply a.collections).under? name key) := by
  unfold Collections.under?
  rcases h.each name with ⟨hsame, -⟩ | ⟨-, htaken, -⟩
  . rw [hsame]
    by_cases hname : name ∈ w.names
    . rcases h.stays name hname with htaken | hstays
      . rw [← hsame, htaken]
        exact Stays.refl _
      . exact hstays key
    . rw [Edit.Write.get_apply_of_not_mem hname]
      exact Stays.refl _
  . rw [htaken]
    exact Stays.refl _

theorem Ledger.Edited.mem_propertyList (h : Ledger.Edited w.names (w.apply a.collections) a b)
    {p : Property} (hp : p ∈ b.collections.propertyList) :
    w = .setProperty p ∨ p ∈ a.collections.propertyList := by
  rcases h.each .props with ⟨hsame, -⟩ | ⟨-, htaken, -⟩
  . have hprops : b.collections.props = a.collections.props := hsame
    rw [Collections.propertyList, hprops] at hp
    exact .inr hp
  . have hprops : b.collections.props = (w.apply a.collections).props := htaken
    rw [Collections.propertyList, hprops] at hp
    exact Edit.Write.mem_propertyList_apply hp

theorem Ledger.Edited.vars_cases (h : Ledger.Edited w.names (w.apply a.collections) a b) :
    b.collections.vars = a.collections.vars ∨
      b.collections.vars = (w.apply a.collections).vars := by
  rcases h.each .vars with ⟨hsame, -⟩ | ⟨-, htaken, -⟩
  . exact .inl hsame
  . exact .inr htaken

theorem Ledger.Edited.mem_variableList (h : Ledger.Edited w.names (w.apply a.collections) a b)
    {v : Variable} (hv : v ∈ b.collections.variableList) :
    v ∈ a.collections.variableList ∨ ∃ key, w.putVariable? = some (key, v) := by
  rcases h.vars_cases with hsame | htaken
  . rw [Collections.variableList, hsame] at hv
    exact .inl hv
  . rw [Collections.variableList, htaken] at hv
    exact Edit.Write.mem_variableList_apply hv

end PageBinding
