import PageBinding.Proofs.Scope
import PageBinding.Proofs.Service.Informed

/-!
This module contains the invariant that all variables that props refer to are stored. It takes the
tracker to be right about the used variables, so the two are kept together.
-/

namespace PageBinding

def Collections.ReferencesStored [Limits] (effects : List Text) (c : Collections) : Prop :=
  ∀ p ∈ c.propertyList, ∀ id, Usage.Refers effects p id → c.vars.contains id = true

namespace Edit

/--
A write leaves no prop that refers to a variable which is not stored.
-/
def Write.Keeps [Limits] (effects : List Text) (c : Collections) : Write → Prop
  | .erase id => ∀ p ∈ c.propertyList, ¬ Usage.Refers effects p id
  | .setProperty p => ∀ id, Usage.Refers effects p id → c.vars.contains id = true
  | _ => True

theorem Write.contains_vars_apply {c : Collections} {w : Write} {id : Text}
    (h : c.vars.contains id = true) (hw : ∀ other, w = .erase other → id ≠ other) :
    (w.apply c).vars.contains id = true := by
  rcases get?_vars_cases c w id with hsame | ⟨herased, -⟩ | ⟨v, -, hput⟩
  . rw [Collection.contains, hsame]
    exact h
  . exact absurd rfl (hw id herased)
  . exact Collection.contains_iff.mpr ⟨_, hput⟩

end Edit

variable {effects : List Text}

theorem Collections.ReferencesStored.edited [Limits] {a b : Ledger} {w : Edit.Write}
    (h : a.collections.ReferencesStored effects)
    (hedited : Ledger.Edited w.names (w.apply a.collections) a b)
    (hw : w.Keeps effects a.collections) : b.collections.ReferencesStored effects := by
  intro p hp id hrefers
  have hcontains : a.collections.vars.contains id = true ∧
      ∀ other, w = .erase other → id ≠ other := by
    rcases hedited.mem_propertyList hp with rfl | hold
    . exact ⟨hw id hrefers, fun other heq => by cases heq⟩
    . refine ⟨h p hold id hrefers, ?_⟩
      rintro other rfl rfl
      exact hw p hold hrefers
  rcases hedited.vars_cases with hvars | hvars
  . rw [hvars]
    exact hcontains.1
  . rw [hvars]
    exact Edit.Write.contains_vars_apply hcontains.1 hcontains.2

namespace Service

variable [Limits]

structure Sound (effects : List Text) (s : Service) : Prop where
  filed : s.store.collections.Filed
  allowed : s.tracker.effects = some effects
  current : s.tracker.Current s.store
  observe : ∀ listener ∈ s.store.listeners, listener.Observes
  references : s.store.collections.ReferencesStored effects

theorem sound_new {p : Project} {settings : Settings} (ids transactionIds : IdSupply)
    (h : p.toCollections.ReferencesStored settings.effects) :
    (new (p.toStore ids transactionIds) settings).Sound settings.effects :=
  ⟨p.filed_toCollections, rfl, Tracker.current_new _ _,
    fun _ hmem => absurd hmem List.not_mem_nil, h⟩

theorem Sound.informed {effects : List Text} {s : Service} (h : s.Sound effects) :
    s.Informed effects :=
  ⟨h.filed, h.allowed, h.current, h.observe⟩

end Service

namespace Operation

variable {s : Service}

theorem keeps_of_savesAs [Limits] {c : Collections} {selector : Option Selector}
    {v : Option Variable} {name : Text} {content : Content → Prop} {resource : Option Resource}
    {saved : Variable} {w : Edit.Write}
    (hsaves : Edit.SavesAs s.store selector v name content resource saved w) :
    w.Keeps effects c := by
  unfold Edit.SavesAs at hsaves
  split at hsaves
  . rw [hsaves.write]
    trivial
  . rw [hsaves.2.2]
    trivial

theorem startingValue_cases {declared : PropertyMeta} {value : PropertyValue}
    (h : declared.startingValue = .ok (some value)) :
    (∃ type literal, value = .literal type literal) ∨ value = .action [] := by
  unfold PropertyMeta.startingValue at h
  extract_lets defaultOr at h
  clear_value defaultOr
  split at h
  . cases h
    exact .inl ⟨_, _, rfl⟩
  . split at h
    . cases h
      exact .inl ⟨_, _, rfl⟩
    . split at h
      . cases h
        exact .inl ⟨_, _, rfl⟩
      . split at h
        . obtain ⟨items, -, heq⟩ := Traversal.bind_eq_ok_iff.mp h
          cases heq
          exact .inl ⟨_, _, rfl⟩
        . split at h
          . cases h
            exact .inr rfl
          . cases h

theorem not_refers_of_startingValue [Limits] {declared : PropertyMeta} {value : PropertyValue}
    (h : declared.startingValue = .ok (some value)) {p : Property} (hp : p.value = value)
    (id : Text) : ¬ Usage.Refers effects p id := by
  rintro ⟨mode, t, hmem, -⟩
  rcases startingValue_cases h with ⟨type, literal, rfl⟩ | rfl
  . simp [Usage.texts, hp] at hmem
  . simp [Usage.texts, hp] at hmem

theorem keeps_of_resets [Limits] {c : Collections} {selector : Option Selector}
    {propertyId : Option Text}
    {name : Text} {p : Option Property} {w : Edit.Write}
    (h : Edit.Resets s.store selector propertyId name p w) : w.Keeps effects c := by
  cases h with
  | starts hdeclared hsets =>
    rw [hsets.write]
    intro id hrefers
    exact absurd hrefers (not_refers_of_startingValue hdeclared hsets.bound id)
  | erases _ => trivial
  | nothing _ => trivial

theorem exists_of_refers_expression [Limits] {p : Property} {t : Text}
    (hp : p.value = .expression t)
    {id : Text} (h : Usage.Refers effects p id) :
    ∃ ids, Expression.identifiers? .expression false t = .ok (some ids) ∧
      ∃ identifier ∈ ids, Reference.decode? identifier.name = some id := by
  obtain ⟨mode, t', hmem, referenced, hreferenced, hid⟩ := h
  simp only [Usage.texts, hp, List.mem_singleton, Prod.mk.injEq] at hmem
  obtain ⟨rfl, rfl⟩ := hmem
  exact (Expression.mem_referencedIds hreferenced).mp hid

theorem contains_of_visible (h : s.store.collections.Filed) {selector : Option Selector}
    {seen : List Variable} (hseen : s.visible selector = .ok seen) {v : Variable} (hv : v ∈ seen) :
    s.store.collections.vars.contains v.id = true :=
  h.contains_of_mem_vars (Edit.mem_values_of_visible hseen hv)

theorem not_refers_of_deletable [Limits] (h : s.store.collections.Filed)
    (allowed : s.tracker.effects = some effects) (current : s.tracker.Current s.store)
    {variableId : Text} {entity : Entity} {used : List Text}
    (hentity : Edit.requireVariable s.store.collections variableId = .ok entity)
    (hused : (s.tracker.used s.store).1 = .ok used)
    (hdeletable : Usage.ensureDeletable used entity = .ok ()) {p : Property}
    (hp : p ∈ s.store.collections.propertyList) : ¬ Usage.Refers effects p variableId := by
  intro hrefers
  rw [Collections.mem_propertyList_iff] at hp
  rw [Tracker.used_eq current, allowed] at hused
  obtain ⟨-, -, -, hunused⟩ := Edit.deletable_cases h hentity hdeletable
  exact hunused (Usage.mem_used hused hp hrefers)

theorem keeps_of_allows [Limits] (h : s.Sound effects) {op : Operation} {result : Result}
    {w : Edit.Write}
    (hallows : Allows s op result w) : w.Keeps effects s.store.collections := by
  cases hallows with
  | save hsaves => exact keeps_of_savesAs hsaves
  | saveResource hsaves => exact keeps_of_savesAs hsaves
  | rename hrenames =>
    rw [hrenames.write]
    trivial
  | delete hentity hused hdeletable =>
    intro p hp
    exact not_refers_of_deletable h.filed h.allowed h.current hentity hused hdeletable hp
  | bind hseen hidentifier hcandidate hsets =>
    rw [hsets.write]
    intro id hrefers
    obtain ⟨ids, hids, identifier, hmem, hdecode⟩ :=
      exists_of_refers_expression hsets.bound hrefers
    obtain ⟨hne, rfl⟩ := Reference.encode?_eq_ok_iff.mp hidentifier
    rw [(Expression.isName_encode _).identifiers?_eq] at hids
    cases hids
    rw [List.mem_singleton.mp hmem, Reference.decode?_encode hne] at hdecode
    cases hdecode
    obtain ⟨candidate, hcandidate, heq⟩ := hcandidate
    exact heq ▸ contains_of_visible h.filed hseen hcandidate
  | setExpression hseen haliases hcode hsets =>
    rw [hsets.write]
    intro id hrefers
    obtain ⟨ids, hids, identifier, hmem, hdecode⟩ :=
      exists_of_refers_expression hsets.bound hrefers
    obtain ⟨rfl, ids', hids', hknown⟩ := Expression.checkNames_eq_ok_iff.mp hcode
    rw [hids] at hids'
    cases hids'
    obtain ⟨v, hv, hencode⟩ := Scope.exists_of_contains_aliases haliases (hknown identifier hmem)
    rw [Reference.decode?_of_encode? hencode] at hdecode
    cases hdecode
    exact contains_of_visible h.filed hseen hv
  | blank hresets => exact keeps_of_resets hresets
  | removeExpression hresets => exact keeps_of_resets hresets

theorem sound_perform [Limits] (h : s.Sound effects) (op : Operation) :
    (op.perform s).2.Sound effects := by
  have hinformed := informed_perform h.informed op
  obtain ⟨w, hallows, hedited⟩ := (performed op s).edited h.observe
  have hkeeps : w.Keeps effects s.store.collections := by
    rcases hallows with rfl | ⟨result, hallows⟩
    . trivial
    . exact keeps_of_allows h hallows
  exact ⟨hinformed.filed, hinformed.allowed, hinformed.current, hinformed.observe,
    h.references.edited (a := s.store.ledger) hedited hkeeps⟩

theorem sound_performAll [Limits] (h : s.Sound effects) (ops : List Operation) :
    (performAll ops s).Sound effects := by
  unfold performAll
  induction ops generalizing s with
  | nil => exact h
  | cons op rest ih => exact ih (sound_perform h op)

/--
No run of operations leaves a prop that refers to a variable which is not stored, on the store of
any project, with any settings.
-/
theorem performAll_referencesStored [Limits] (p : Project) (settings : Settings)
    (ids transactionIds : IdSupply) (ops : List Operation)
    (h : p.toCollections.ReferencesStored settings.effects) :
    (performAll ops
      (.new (p.toStore ids transactionIds) settings)).store.collections.ReferencesStored
        settings.effects :=
  (sound_performAll (Service.sound_new ids transactionIds h) ops).references

def boundProject : Project where
  instances := [⟨"root", "page", none, none⟩]
  vars := [⟨"title", "Title", "root", .value (.string "Welcome")⟩]
  resources := []
  props := [⟨"p1", "root", "label", .expression (Reference.encode "title")⟩]

theorem referencesStored_boundProject [Limits] (effects : List Text) :
    boundProject.toCollections.ReferencesStored effects := by
  have hprops : boundProject.toCollections.propertyList = boundProject.props := rfl
  intro p hp id hrefers
  rw [hprops, boundProject, List.mem_singleton] at hp
  subst hp
  obtain ⟨ids, hids, identifier, hmem, hdecode⟩ := exists_of_refers_expression rfl hrefers
  rw [(Expression.isName_encode _).identifiers?_eq] at hids
  cases hids
  rw [List.mem_singleton.mp hmem, Reference.decode?_encode (by decide)] at hdecode
  cases hdecode
  decide

theorem performAll_referencesStored_boundProject :
    (performAll [.delete "title", .rename ⟨"title", [], [], .parameter⟩ "Heading"]
      (.new (boundProject.toStore ⟨"v", 0⟩ ⟨"t", 0⟩) default)).store.collections.ReferencesStored
        Settings.default.effects :=
  performAll_referencesStored boundProject Settings.default ⟨"v", 0⟩ ⟨"t", 0⟩ _
    (referencesStored_boundProject _)

end Operation

end PageBinding
