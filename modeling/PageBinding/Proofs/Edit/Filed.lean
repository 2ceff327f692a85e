import PageBinding.Proofs.Edit.Spec
import PageBinding.Project

/-!
This module contains the invariant that every collection holds entities of its own kind, each under
its id. It is true of the collections of a project, and the operations keep it.
-/

namespace PageBinding

def Collection.FiledAs {α : Type} (wrap : α → Entity) (id : α → Text) (c : Collection Entity) :
    Prop :=
  ∀ key entity, c.get? key = some entity → ∃ a, entity = wrap a ∧ id a = key

namespace Collection.FiledAs

variable {α : Type} {wrap : α → Entity} {id : α → Text} {c : Collection Entity}

theorem insert (h : c.FiledAs wrap id) (a : α) : (c.insert (id a) (wrap a)).FiledAs wrap id := by
  intro key entity hget
  rw [Collection.get?_insert] at hget
  split at hget
  . next heq =>
    cases hget
    exact ⟨a, rfl, heq.symm⟩
  . exact h key entity hget

theorem erase (h : c.FiledAs wrap id) (key : Text) : (c.erase key).FiledAs wrap id := by
  intro other entity hget
  rw [Collection.get?_erase] at hget
  split at hget
  . cases hget
  . exact h other entity hget

theorem ofPairs (as : List α) :
    (Collection.ofPairs (as.map fun a => (id a, wrap a))).FiledAs wrap id := by
  intro key entity hget
  obtain ⟨a, -, heq⟩ := List.mem_map.mp (Collection.mem_of_get?_ofPairs hget)
  cases heq
  exact ⟨a, rfl, rfl⟩

end Collection.FiledAs

def Collection.FiledIn (name : CollectionName) (c : Collection Entity) : Prop :=
  match name with
  | .vars => c.FiledAs .variable_ Variable.id
  | .resources => c.FiledAs .resource Resource.id
  | .props => c.FiledAs .property Property.id

def Collections.Filed (c : Collections) : Prop :=
  ∀ name, (c.get name).FiledIn name

theorem Project.filed_toCollections (p : Project) : p.toCollections.Filed := by
  intro name
  cases name with
  | vars => exact .ofPairs p.vars
  | resources => exact .ofPairs p.resources
  | props => exact .ofPairs p.props

namespace Collections.Filed

variable {c : Collections}

theorem set (h : c.Filed) (name : CollectionName) {collection : Collection Entity}
    (hcollection : collection.FiledIn name) : (c.set name collection).Filed := by
  intro other
  rw [Collections.get_set]
  split
  . next heq =>
    rw [heq]
    exact hcollection
  . exact h other

theorem get?_vars_of_mem (h : c.Filed) {v : Variable} (hmem : .variable_ v ∈ c.vars.values) :
    c.vars.get? v.id = some (.variable_ v) := by
  obtain ⟨key, hget⟩ := Collection.mem_values_iff.mp hmem
  obtain ⟨w, heq, hkey⟩ := h .vars key _ hget
  cases heq
  rw [hkey]
  exact hget

theorem get?_props_of_mem (h : c.Filed) {p : Property} (hmem : .property p ∈ c.props.values) :
    c.props.get? p.id = some (.property p) := by
  obtain ⟨key, hget⟩ := Collection.mem_values_iff.mp hmem
  obtain ⟨q, heq, hkey⟩ := h .props key _ hget
  cases heq
  rw [hkey]
  exact hget

theorem contains_of_mem_vars (h : c.Filed) {v : Variable} (hmem : .variable_ v ∈ c.vars.values) :
    c.vars.contains v.id = true :=
  Collection.contains_iff.mpr ⟨_, h.get?_vars_of_mem hmem⟩

end Collections.Filed

theorem Collections.mem_variableList_iff {c : Collections} {v : Variable} :
    v ∈ c.variableList ↔ .variable_ v ∈ c.vars.values := by
  unfold Collections.variableList
  rw [List.mem_filterMap]
  constructor
  . rintro ⟨entity, hmem, heq⟩
    cases entity <;> cases heq
    exact hmem
  . intro hmem
    exact ⟨.variable_ v, hmem, rfl⟩

theorem Collections.mem_propertyList_iff {c : Collections} {p : Property} :
    p ∈ c.propertyList ↔ .property p ∈ c.props.values := by
  unfold Collections.propertyList
  rw [List.mem_filterMap]
  constructor
  . rintro ⟨entity, hmem, heq⟩
    cases entity <;> cases heq
    exact hmem
  . intro hmem
    exact ⟨.property p, hmem, rfl⟩

theorem Collections.stored?_eq_some {c : Collections} {name : CollectionName} {key : Text}
    {entity : Entity} (h : (c.get name).get? key = some entity) (hne : entity ≠ .raw .null) :
    c.stored? name key = some entity := by
  simp [stored?, h, hne]

namespace Edit

theorem scopeFor_cases {c : Collections} (h : c.Filed) {variableId instanceId scope : Text}
    (hscope : scopeFor c variableId instanceId = .ok scope) :
    c.vars.contains variableId = false ∧ scope = instanceId ∨
      ∃ existing, c.vars.get? variableId = some (.variable_ existing) ∧ scope = existing.scope := by
  unfold scopeFor at hscope
  cases hget : c.vars.get? variableId with
  | none =>
    have hnone : c.stored? .vars variableId = none := by
      simp [Collections.stored?, Collections.get, hget]
    rw [hnone] at hscope
    cases hscope
    exact .inl ⟨Collection.contains_eq_false_iff.mpr hget, rfl⟩
  | some entity =>
    obtain ⟨existing, rfl, -⟩ := h .vars variableId entity hget
    have hstored : c.stored? .vars variableId = some (.variable_ existing) :=
      Collections.stored?_eq_some hget (by simp)
    rw [hstored] at hscope
    cases hscope
    exact .inr ⟨existing, rfl, rfl⟩

theorem deletable_cases {c : Collections} (h : c.Filed) {variableId : Text} {entity : Entity}
    (hentity : requireVariable c variableId = .ok entity) {used : List Text}
    (hdeletable : Usage.ensureDeletable used entity = .ok ()) :
    ∃ v, c.vars.get? variableId = some (.variable_ v) ∧ v.isParameter = false ∧
      variableId ∉ used := by
  unfold requireVariable Collections.stored? at hentity
  split at hentity
  . next hget =>
    cases hentity
    rw [Option.filter_eq_some_iff] at hget
    obtain ⟨v, rfl, rfl⟩ := h .vars variableId _ hget.1
    simp only [Usage.ensureDeletable] at hdeletable
    split at hdeletable
    . cases hdeletable
    . next hparameter =>
      split at hdeletable
      . cases hdeletable
      . next hunused => exact ⟨v, hget.1, Bool.eq_false_iff.mpr hparameter, hunused⟩
  . cases hentity

def Write.IsFiled : Write → Prop
  | .rename id v => v.id = id
  | _ => True

theorem filed_dropResource {c : Collections} (h : c.Filed) (variableId : Text)
    (kept : Option Text) : (dropResource c variableId kept).Filed := by
  unfold dropResource
  split
  . split
    . exact h
    . exact h.set .resources ((h .resources).erase _)
  . exact h

theorem Write.filed_apply {c : Collections} (h : c.Filed) {w : Write} (hw : w.IsFiled) :
    (w.apply c).Filed := by
  cases w with
  | nothing => exact h
  | rename id v =>
    cases hw
    exact h.set .vars ((h .vars).insert v)
  | save v resource =>
    have hput {c' : Collections} (h' : c'.Filed) : (c'.putVariable v).Filed :=
      h'.set .vars ((h' .vars).insert v)
    cases resource with
    | none => exact hput (filed_dropResource h v.id none)
    | some resource =>
      have hdropped := filed_dropResource h v.id (some resource.id)
      exact hput (hdropped.set .resources ((hdropped .resources).insert resource))
  | erase id => exact h.set .vars ((h .vars).erase id)
  | setProperty p => exact h.set .props ((h .props).insert p)
  | eraseProperty id => exact h.set .props ((h .props).erase id)

end Edit

theorem Collections.Filed.existing {c : Collections} (h : c.Filed) {v : Variable} {name : Text}
    {saved : Variable} {w : Edit.Write} (hrenames : Edit.Renames c v name saved w) :
    w.IsFiled := by
  obtain ⟨existing, hget, rfl⟩ := hrenames.stored
  obtain ⟨u, heq, hid⟩ := h .vars v.id _ hget
  cases heq
  rw [hrenames.write]
  exact hid

theorem Ledger.Edited.filed {names : List CollectionName} {c : Collections} {a b : Ledger}
    (h : Ledger.Edited names c a b) (ha : a.collections.Filed) (hc : c.Filed) :
    b.collections.Filed := by
  intro name
  rcases h.each name with ⟨hsame, -⟩ | ⟨-, htaken, -⟩
  . rw [hsame]
    exact ha name
  . rw [htaken]
    exact hc name

end PageBinding
