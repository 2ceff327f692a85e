import PageBinding.Proofs.Edit.Written
import PageBinding.Proofs.Project
import PageBinding.Proofs.Service.Operation

/-!
This module contains why a project can be loaded again after any operations on its store, whatever
arguments they are given: each entity stays filed under its own id, and each variable belongs to an
instance of the project.
-/

namespace PageBinding

/--
Everything is filed where it belongs, and every variable belongs to an instance of a project.
-/
structure Collections.Placed (p : Project) (c : Collections) : Prop where
  filed : c.Filed
  scopes : ∀ v ∈ c.variableList, v.scope ∈ p.instances.map Instance.id

variable {p : Project}

namespace Edit

def Write.Places (p : Project) (w : Write) : Prop :=
  ∀ key v, w.putVariable? = some (key, v) → v.id = key ∧ v.scope ∈ p.instances.map Instance.id

variable {selector : Option Selector} {v : Option Variable} {name : Text} {saved : Variable}
  {w : Write}

theorem Write.Places.isFiled (h : w.Places p) : w.IsFiled := by
  cases w with
  | rename id v => exact (h id v rfl).1
  | nothing => trivial
  | save v resource => trivial
  | erase id => trivial
  | setProperty q => trivial
  | eraseProperty id => trivial

theorem places_of_putVariable?_eq_none (h : w.putVariable? = none) : w.Places p := by
  intro key v hput
  rw [h] at hput
  cases hput

-- A scope is checked only for an id that is new, before the write. A scope that is kept is that of
-- a variable which is stored.
theorem scope_of_saves {s : Store} (h : s.collections.Placed p) (hinstances : s.instances = p.tree)
    (hsaves : Saves s selector v name saved) : saved.scope ∈ p.instances.map Instance.id := by
  obtain ⟨selected, -, hcheck, hscopeFor⟩ := hsaves.scope
  rcases scopeFor_cases h.filed hscopeFor with ⟨hnew, hsame⟩ | ⟨existing, hget, hsame⟩
  . rw [hsame]
    apply Project.mem_instances_of_componentOf?
    rw [← hinstances]
    intro hnone
    simp [checkScope, hnew, hnone] at hcheck
  . rw [hsame]
    apply h.scopes
    rw [Collections.mem_variableList_iff, Collection.mem_values_iff]
    exact ⟨saved.id, hget⟩

theorem places_of_renames {c : Collections} (h : c.Placed p) {v : Variable}
    (hrenames : Renames c v name saved w) : w.Places p := by
  obtain ⟨rfl, existing, hget, rfl⟩ := hrenames
  obtain ⟨_, heq, hid⟩ := h.filed .vars v.id _ hget
  cases heq
  intro key renamed hput
  cases hput
  refine ⟨hid, h.scopes existing ?_⟩
  rw [Collections.mem_variableList_iff, Collection.mem_values_iff]
  exact ⟨v.id, hget⟩

theorem places_of_savesAs {s : Store} (h : s.collections.Placed p)
    (hinstances : s.instances = p.tree) {content : Content → Prop} {resource : Option Resource}
    (hsaves : SavesAs s selector v name content resource saved w) : w.Places p := by
  unfold SavesAs at hsaves
  split at hsaves
  . exact places_of_renames h hsaves
  . obtain ⟨hsaved, -, rfl⟩ := hsaves
    intro key put hput
    cases hput
    exact ⟨rfl, scope_of_saves h hinstances hsaved⟩

end Edit

theorem Project.placed_toCollections (h : p.conflict? = none) : p.toCollections.Placed p := by
  refine ⟨p.filed_toCollections, ?_⟩
  rw [(Project.lists_toCollections h).1]
  exact (Project.conflict?_eq_none_iff.mp h).2

theorem Collections.Placed.edited {a b : Ledger} {w : Edit.Write} (h : a.collections.Placed p)
    (hedited : Ledger.Edited w.names (w.apply a.collections) a b) (hw : w.Places p) :
    b.collections.Placed p := by
  refine ⟨hedited.filed h.filed (Edit.Write.filed_apply h.filed hw.isFiled), ?_⟩
  intro v hv
  rcases hedited.mem_variableList hv with hold | ⟨key, hput⟩
  . exact h.scopes v hold
  . exact (hw key v hput).2

/--
A service whose store has the page tree of a project, with every variable on one of its instances.
-/
structure Service.Placed (p : Project) (s : Service) : Prop where
  collections : s.store.collections.Placed p
  instances : s.store.instances = p.tree
  observe : ∀ listener ∈ s.store.listeners, listener.Observes

namespace Operation

variable {s : Service}

theorem places_of_resets {selector : Option Selector} {propertyId : Option Text} {name : Text}
    {q : Option Property} {w : Edit.Write}
    (h : Edit.Resets s.store selector propertyId name q w) : w.Places p := by
  apply Edit.places_of_putVariable?_eq_none
  cases h with
  | starts _ hsets => rw [hsets.write]; rfl
  | erases _ => rfl
  | nothing _ => rfl

theorem places_of_allows [Limits] (h : s.Placed p) {op : Operation} {result : Result}
    {w : Edit.Write}
    (hallows : Allows s op result w) : w.Places p := by
  cases hallows with
  | save hsaves => exact Edit.places_of_savesAs h.collections h.instances hsaves
  | saveResource hsaves => exact Edit.places_of_savesAs h.collections h.instances hsaves
  | rename hrenames => exact Edit.places_of_renames h.collections hrenames
  | delete _ _ _ => exact Edit.places_of_putVariable?_eq_none rfl
  | bind _ _ _ hsets =>
    rw [hsets.write]
    exact Edit.places_of_putVariable?_eq_none rfl
  | setExpression _ _ _ hsets =>
    rw [hsets.write]
    exact Edit.places_of_putVariable?_eq_none rfl
  | blank hresets => exact places_of_resets hresets
  | removeExpression hresets => exact places_of_resets hresets

theorem placed_perform [Limits] (h : s.Placed p) (op : Operation) : (op.perform s).2.Placed p := by
  have hperformed := performed op s
  obtain ⟨w, hallows, hedited⟩ := hperformed.edited h.observe
  have hplaces : w.Places p := by
    rcases hallows with rfl | ⟨result, hallows⟩
    . exact Edit.places_of_putVariable?_eq_none rfl
    . exact places_of_allows h hallows
  constructor
  . exact Collections.Placed.edited (a := s.store.ledger) h.collections hedited hplaces
  . exact hperformed.follows.instances.trans h.instances
  . exact hperformed.follows.observes h.observe

theorem placed_performAll [Limits] (h : s.Placed p) (ops : List Operation) :
    (performAll ops s).Placed p := by
  unfold performAll
  induction ops generalizing s with
  | nil => exact h
  | cons op rest ih => exact ih (placed_perform h op)

/--
After any operations on the store of an accepted project, every entity is filed under its own id and
every variable belongs to an instance of the project. The project with these entities is accepted
again, and they make the same collections in the same order.
-/
theorem performAll_accepted [Limits] (p : Project) (settings : Settings)
    (ids transactionIds : IdSupply)
    (ops : List Operation) (h : p.check = .ok p) :
    let c := (performAll ops (.new (p.toStore ids transactionIds) settings)).store.collections
    c.Filed ∧ (∀ v ∈ c.variableList, v.scope ∈ p.instances.map Instance.id) ∧
      (p.withCollections c).check = .ok (p.withCollections c) ∧
      (p.withCollections c).toCollections = c := by
  have haccepted : p.conflict? = none := Project.check_eq_ok_iff.mp h
  have hplaced : Service.Placed p (.new (p.toStore ids transactionIds) settings) :=
    ⟨Project.placed_toCollections haccepted, rfl, fun _ hmem => absurd hmem List.not_mem_nil⟩
  obtain ⟨hfiled, hscopes⟩ := (placed_performAll hplaced ops).collections
  intro c
  refine ⟨hfiled, hscopes, ?_, Project.toCollections_withCollections hfiled⟩
  rw [Project.check_eq_ok_iff]
  exact Project.conflict?_withCollections haccepted hfiled hscopes

def labelledProject : Project where
  instances := [⟨"root", "page", none, none⟩]
  vars := [⟨"title", "Title", "root", .value (.string "Welcome")⟩]
  resources := []
  props := [⟨"p1", "root", "label", .action []⟩]

/--
Operations that are given variables, instances and scopes which are not those of the project.
-/
def strayOperations : List Operation :=
  let ghost (content : Content) : Variable := ⟨"ghost", "Ghost", "attic", content⟩
  let weather : Resource := ⟨"r1", "Weather", .get, "/weather", [], none⟩
  [.saveResource (some ["root"]) (some (ghost .parameter)) "Weather" weather,
    .saveResource (some ["root"]) (some (ghost (.resource "r2"))) "Weather" weather,
    .save (some ["attic"]) none "Lost" "1",
    .rename ⟨"title", [], "attic", .parameter⟩ "Heading",
    .delete "title",
    .removeExpression none (some "p1") "label" none]

theorem performAll_accepted_strayOperations :
    let c := (performAll strayOperations
      (.new (labelledProject.toStore ⟨"v", 0⟩ ⟨"t", 0⟩) .default)).store.collections
    c.Filed ∧ (∀ v ∈ c.variableList, v.scope ∈ labelledProject.instances.map Instance.id) ∧
      (labelledProject.withCollections c).check = .ok (labelledProject.withCollections c) ∧
      (labelledProject.withCollections c).toCollections = c :=
  performAll_accepted labelledProject .default ⟨"v", 0⟩ ⟨"t", 0⟩ strayOperations (by decide)

end Operation

end PageBinding
