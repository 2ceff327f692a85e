import PageBinding.Proofs.Edit.Held
import PageBinding.Proofs.Workspace.Edit

/-!
This module contains what holds of an expression that has been written to a prop. Its identifiers
are looked up where the selector says, but a prop that exists keeps its instance, and the check of
the prop looks from there.
-/

namespace PageBinding

namespace Edit

variable {s : Store} {collectionComponent : Text} {selector : Option Selector}
  {propertyId : Option Text}

def Expresses [Limits] (s : Store) (collectionComponent : Text) (selector : Option Selector)
    (propertyId : Option Text) (q : Property) (w : Write) : Prop :=
  ∃ seen t ids name, visible s collectionComponent selector = .ok seen ∧
    Expression.identifiers? .expression false t = .ok (some ids) ∧
    (∀ id ∈ ids, ∃ v ∈ seen, Reference.encode? v.id = .ok id.name) ∧
    Sets s selector propertyId name (.expression t) q w

theorem ensures_bind_expresses [Limits] (name : Text) (v : Variable) :
    Ensures (bind collectionComponent selector propertyId name v) s
      (Expresses s collectionComponent selector propertyId) := by
  apply ensures_mono (ensures_bind collectionComponent selector propertyId name v)
  rintro q w ⟨seen, identifier, hseen, hidentifier, ⟨candidate, hmem, hid⟩, hsets⟩
  obtain ⟨-, rfl⟩ := Reference.encode?_eq_ok_iff.mp hidentifier
  refine ⟨seen, _, _, name, hseen, (Expression.isName_encode _).identifiers?_eq, ?_, hsets⟩
  intro id hid'
  rw [List.mem_singleton.mp hid']
  exact ⟨candidate, hmem, hid ▸ hidentifier⟩

theorem ensures_setExpression_expresses [Limits] (name : Text) {text : Text}
    (declared : Option PropertyMeta) (hblank : text.isBlank = false) :
    Ensures (setExpression collectionComponent selector propertyId name text declared) s
      fun result w =>
        ∃ q, result = some q ∧ Expresses s collectionComponent selector propertyId q w := by
  apply ensures_mono
    (ensures_setExpression collectionComponent selector propertyId name text declared)
  intro result w h
  rw [hblank] at h
  obtain ⟨seen, aliases, code, q, hseen, haliases, hcode, rfl, hsets⟩ := h
  obtain ⟨rfl, ids, hids, hknown⟩ := Expression.checkNames_eq_ok_iff.mp hcode
  refine ⟨q, rfl, seen, _, ids, name, hseen, hids, ?_, hsets⟩
  exact fun id hid => Scope.exists_of_contains_aliases haliases (hknown id hid)

theorem mem_propertyList_of_existingProperty {c : Collections} (h : c.Filed) {id : Text}
    {existing : Property} (hexisting : existingProperty c id = .ok (some existing)) :
    existing ∈ c.propertyList ∧ existing.id = id := by
  unfold existingProperty at hexisting
  split at hexisting
  . cases hexisting
  . next hstored =>
    cases hexisting
    have hget := (Option.filter_eq_some_iff.mp hstored).1
    obtain ⟨_, heq, hid⟩ := h .props id _ hget
    cases heq
    exact ⟨Collections.mem_propertyList_iff.mpr (Collection.mem_values_iff.mpr ⟨id, hget⟩), hid⟩
  . cases hexisting
  . cases hexisting

end Edit

namespace Operation

inductive Expresses (selector : Option Selector) (propertyId : Option Text) : Operation → Prop where
  | bind (name : Text) (v : Variable) :
    Expresses selector propertyId (.bind selector propertyId name v)
  | setExpression (name : Text) {text : Text} (declared : Option PropertyMeta) :
    text.isBlank = false →
      Expresses selector propertyId (.setExpression selector propertyId name text declared)

variable {s s' : Service} {op : Operation} {selector : Option Selector} {propertyId : Option Text}
  {q : Property}

theorem edited_of_returning {α : Type} {edit : Edit α} {holds : α → Edit.Write → Prop}
    {f : α → Result} {result : Result} (hensures : Edit.Ensures edit s.store holds)
    (h : perform.returning f (s.run edit) = (.ok result, s')) :
    ∃ a w, result = f a ∧ s'.settings = s.settings ∧ holds a w ∧
      s.store.Edited w.names (w.apply s.store.collections) s'.store := by
  unfold Edit.Ensures at hensures
  rcases hrun : edit.run s.store with ⟨outcome, store⟩
  rw [hrun] at hensures
  simp only [perform.returning, Service.run, hrun] at h
  cases outcome with
  | error failure => cases h
  | ok a =>
    cases h
    obtain ⟨w, hw, hedited⟩ := hensures
    exact ⟨a, w, rfl, rfl, hw, hedited⟩

theorem edited_of_expresses [Limits] (hop : op.Expresses selector propertyId)
    (h : op.perform s = (.ok (.property (some q)), s')) :
    s'.settings = s.settings ∧
      ∃ w, Edit.Expresses s.store s.settings.collectionComponent selector propertyId q w ∧
        s.store.Edited w.names (w.apply s.store.collections) s'.store := by
  cases hop with
  | bind name v =>
    obtain ⟨_, w, heq, hsettings, hw, hedited⟩ :=
      edited_of_returning (Edit.ensures_bind_expresses name v) h
    cases heq
    exact ⟨hsettings, w, hw, hedited⟩
  | setExpression name declared hblank =>
    obtain ⟨_, w, heq, hsettings, ⟨_, rfl, hw⟩, hedited⟩ :=
      edited_of_returning (Edit.ensures_setExpression_expresses name declared hblank) h
    cases heq
    exact ⟨hsettings, w, hw, hedited⟩

end Operation

namespace Workspace

def SeesAll (project : Project) (settings : Settings) (selector : Selector) (c : Collections)
    (ids : List Expression.Identifier) : Prop :=
  ∀ id ∈ ids, ∃ v ∈ c.variableList,
    Scope.IsShown project.tree settings.collectionComponent selector v ∧
      Reference.encode? v.id = .ok id.name

def NamesAll (project : Project) (settings : Settings) (instanceId : Text) (c : Collections) :
    Prop :=
  ∀ selector, project.selector instanceId = .ok selector → ∀ v ∈ c.variableList,
    Scope.IsShown project.tree settings.collectionComponent selector v → v.id ≠ []

structure Expressed [Limits] (project : Project) (s : Service) (selector : Selector)
    (instanceId : Text)
    (propertyId : Option Text) (q : Property) (s' : Service) : Prop where
  stored : s'.store.collections.props.get? q.id = some (.property q)
  place : q.instanceId = instanceId ∨ ∃ existing ∈ s.store.collections.propertyList,
    propertyId = some existing.id ∧ q = { existing with value := q.value }
  seen : ∃ t ids, q.value = .expression t ∧
    Expression.identifiers? .expression false t = .ok (some ids) ∧
    SeesAll project s'.settings selector s'.store.collections ids ∧
    ∀ location, NamesAll project s'.settings q.instanceId s'.store.collections →
      ((⟨location, project, s'⟩ : Workspace).problems q = .ok [] ↔
        ∃ path, project.selector q.instanceId = .ok path ∧
          SeesAll project s'.settings path s'.store.collections ids)
  here : q.instanceId = instanceId →
    NamesAll project s'.settings q.instanceId s'.store.collections →
      ∀ location, (⟨location, project, s'⟩ : Workspace).problems q = .ok []

variable {project : Project} {settings : Settings} {c : Collections} {q : Property} {t : Text}
  {ids : List Expression.Identifier}

theorem seesAll_iff {selector : Selector} (named : ∀ v ∈ c.variableList,
      Scope.IsShown project.tree settings.collectionComponent selector v → v.id ≠ []) :
    SeesAll project settings selector c ids ↔
      ∀ id ∈ ids, Sees project settings selector c id.name := by
  unfold SeesAll Sees
  constructor
  . intro h id hid
    obtain ⟨v, hv, hshown, hencode⟩ := h id hid
    exact ⟨v, hv, hshown, (Reference.encode?_eq_ok_iff.mp hencode).2.symm⟩
  . intro h id hid
    obtain ⟨v, hv, hshown, hencode⟩ := h id hid
    exact ⟨v, hv, hshown, Reference.encode?_eq_ok_iff.mpr ⟨named v hv hshown, hencode.symm⟩⟩

theorem fits_iff_of_expression [Limits] (hvalue : q.value = .expression t)
    (hids : Expression.identifiers? .expression false t = .ok (some ids))
    (named : NamesAll project settings q.instanceId c) :
    Fits project settings c q ↔
      ∃ path, project.selector q.instanceId = .ok path ∧ SeesAll project settings path c ids := by
  have hsource (path : Selector) : (∀ source ∈ sources settings.effects q,
      source.Fits project settings path c) ↔ ∀ id ∈ ids, Sees project settings path c id.name := by
    simp [sources, hvalue, Source.Fits, hids]
  unfold Fits
  simp only [hvalue, reduceCtorEq, exists_false, false_or, hsource]
  constructor
  . rintro ⟨path, hpath, hsees⟩
    exact ⟨path, hpath, (seesAll_iff (named path hpath)).mpr hsees⟩
  . rintro ⟨path, hpath, hsees⟩
    exact ⟨path, hpath, (seesAll_iff (named path hpath)).mp hsees⟩

theorem get?_props_of_edited {a b : Ledger} (hvalue : q.value = .expression t)
    (h : Ledger.Edited [.props] (a.collections.putProperty q) a b) :
    b.collections.props.get? q.id = some (.property q) := by
  have hput : (a.collections.putProperty q).under? .props q.id = some (.property q) :=
    Collection.get?_insert_self a.collections.props q.id (.property q)
  rcases h.holds List.mem_cons_self hput with hstored | ⟨before, -, hagrees, hstored⟩
  . exact hstored
  . have hsame : before = .property q := by
      cases before with
      | property other =>
        obtain ⟨id, instanceId, name, value⟩ := q
        obtain ⟨id', instanceId', name', value'⟩ := other
        simp only at hvalue
        subst hvalue
        cases value' with
        | expression t' => simp_all [Entity.agrees, Property.agrees, PropertyValue.agrees]
        | literal type literal =>
          simp [Entity.agrees, Property.agrees, PropertyValue.agrees] at hagrees
        | action steps => simp [Entity.agrees, Property.agrees, PropertyValue.agrees] at hagrees
      | variable_ v => cases hagrees
      | resource r => cases hagrees
      | raw v => cases hagrees
    rw [hsame] at hstored
    exact hstored

theorem seesAll_of_visible {s : Store} (filed : s.collections.Filed)
    (hinstances : s.instances = project.tree) {selector : Selector} {seen : List Variable}
    (hseen : Edit.visible s settings.collectionComponent (some selector) = .ok seen)
    (hknown : ∀ id ∈ ids, ∃ v ∈ seen, Reference.encode? v.id = .ok id.name) :
    SeesAll project settings selector s.collections ids := by
  rw [Edit.visible_eq filed, hinstances] at hseen
  cases hseen
  intro id hid
  obtain ⟨v, hv, hencode⟩ := hknown id hid
  obtain ⟨hmem, hshown⟩ := Scope.mem_visible_iff.mp hv
  exact ⟨v, hmem, hshown, hencode⟩

theorem expressed_of_perform [Limits] {s s' : Service} {op : Operation} {instanceId : Text}
    {selector : Selector} {propertyId : Option Text} (h : s.Placed project)
    (hselector : project.selector instanceId = .ok selector)
    (hop : op.Expresses (some selector) propertyId)
    (hperform : op.perform s = (.ok (.property (some q)), s')) :
    Expressed project s selector instanceId propertyId q s' := by
  obtain ⟨hsettings, w, ⟨seen, t, ids, name, hseen, hids, hknown, hsets⟩, hstore⟩ :=
    Operation.edited_of_expresses hop hperform
  have hedited := hstore.ledger h.observe
  obtain ⟨rfl, hvalue, selected, hselected, hplace⟩ := hsets
  have h' : s'.Placed project := by
    have hplaced := Operation.placed_perform h op
    rwa [hperform] at hplaced
  have hvars : s'.store.collections.vars = s.store.collections.vars := by
    rcases Ledger.Edited.vars_cases (a := s.store.ledger) hedited with hsame | hsame <;> exact hsame
  have hsees : SeesAll project s'.settings selector s'.store.collections ids := by
    have hbefore := seesAll_of_visible h.collections.filed h.instances hseen hknown
    unfold SeesAll Collections.variableList at hbefore ⊢
    rwa [hsettings, hvars]
  have hproblems (location : Location)
      (named : NamesAll project s'.settings q.instanceId s'.store.collections) :
      (⟨location, project, s'⟩ : Workspace).problems q = .ok [] ↔
        ∃ path, project.selector q.instanceId = .ok path ∧
          SeesAll project s'.settings path s'.store.collections ids := by
    rw [← fits_iff_of_expression hvalue hids named]
    exact problems_eq_nil_iff_of_shown (w := ⟨location, project, s'⟩) h'.collections.filed
      h'.instances q named
  constructor
  . exact get?_props_of_edited (a := s.store.ledger) hvalue hedited
  . obtain ⟨ancestors, rfl⟩ := Project.selector_eq_cons hselector
    cases hselected
    rcases hplace with ⟨existing, id, hid, hexisting, rfl⟩ | ⟨-, rfl⟩
    . obtain ⟨hmem, rfl⟩ :=
        Edit.mem_propertyList_of_existingProperty h.collections.filed hexisting
      exact .inr ⟨existing, hmem, hid, rfl⟩
    . exact .inl rfl
  . exact ⟨t, ids, hvalue, hids, hsees, hproblems⟩
  . intro hhere named location
    rw [hproblems location named, hhere]
    exact ⟨selector, hselector, hsees⟩

/--
An expression that is written to a prop of a loaded project refers to nothing but variables that are
visible where the selector says. The prop is on that instance unless it is one that is stored
elsewhere, and its check finds nothing if its own instance has a path from which these variables are
visible too.
-/
theorem performAll_expressed [Limits] (project : Project) (settings : Settings)
    (ids transactionIds : IdSupply) (listeners : List Listener) (ops : List Operation)
    {op : Operation} {instanceId : Text} {selector : Selector} {propertyId : Option Text}
    {q : Property} {s' : Service} (loaded : project.check = .ok project)
    (observe : ∀ listener ∈ listeners, listener.Observes)
    (hselector : project.selector instanceId = .ok selector)
    (hop : op.Expresses (some selector) propertyId) :
    let s := Operation.performAll ops
      (.new { project.toStore ids transactionIds with listeners } settings)
    op.perform s = (.ok (.property (some q)), s') →
      Expressed project s selector instanceId propertyId q s' := by
  have hplaced : Service.Placed project
      (.new { project.toStore ids transactionIds with listeners } settings) :=
    ⟨Project.placed_toCollections (Project.check_eq_ok_iff.mp loaded), rfl, observe⟩
  exact expressed_of_perform (Operation.placed_performAll hplaced ops) hselector hop

def cardTitle : Variable :=
  ⟨"title", "Title", "card", .value (.string "Welcome")⟩

def cardProject : Project where
  instances := [⟨"page", "Body", none, none⟩, ⟨"card", "Box", none, some "page"⟩]
  vars := [cardTitle]
  resources := []
  props := [⟨"p1", "page", "label", .action []⟩]

def cardService : Service :=
  .new (cardProject.toStore ⟨"p", 1⟩ ⟨"t", 0⟩) .default

/--
A prop is bound to the variable of the card, which is selected.
-/
def bindTitle (propertyId : Option Text) : Operation :=
  .bind (some ["card", "page"]) propertyId "label" cardTitle

def titled (id instanceId : Text) : Property :=
  ⟨id, instanceId, "label", .expression (Reference.encode "title")⟩

theorem selector_card : cardProject.selector "card" = .ok ["card", "page"] :=
  (Project.climb_of_some (by decide) rfl).trans (Project.climb_of_none (by decide) rfl)

theorem selector_page : cardProject.selector "page" = .ok ["page"] :=
  Project.climb_of_none (by decide) rfl

theorem returned_bindTitle :
    ((bindTitle none).perform cardService).1 = .ok (.property (some (titled "p2" "card"))) ∧
      ((bindTitle (some "p1")).perform cardService).1 =
        .ok (.property (some (titled "p1" "page"))) := by
  constructor <;> cbv

theorem performAll_expressed_newProperty :
    Expressed cardProject cardService ["card", "page"] "card" none (titled "p2" "card")
      ((bindTitle none).perform cardService).2 :=
  performAll_expressed cardProject .default ⟨"p", 1⟩ ⟨"t", 0⟩ [] [] (by decide) nofun selector_card
    (.bind "label" cardTitle) (Prod.ext returned_bindTitle.1 rfl)

/--
A prop of the page that is bound with the selector of the card refers to a variable of the card,
which the page cannot see, and the check says so.
-/
theorem not_forall_expressed_seen :
    ¬ ∀ (project : Project) (settings : Settings) (ids transactionIds : IdSupply) (op : Operation)
      (instanceId : Text) (selector path : Selector) (propertyId : Option Text) (q : Property)
      (s' : Service), project.check = .ok project → project.selector instanceId = .ok selector →
      op.Expresses (some selector) propertyId →
      op.perform (.new (project.toStore ids transactionIds) settings) =
        (.ok (.property (some q)), s') →
      project.selector q.instanceId = .ok path →
        (∃ t ids, q.value = .expression t ∧
          Expression.identifiers? .expression false t = .ok (some ids) ∧
          SeesAll project s'.settings path s'.store.collections ids) ∨
        (⟨[], project, s'⟩ : Workspace).problems q = .ok [] := by
  intro h
  obtain ⟨s', hperform, hvars⟩ : ∃ s', (bindTitle (some "p1")).perform cardService =
      (.ok (.property (some (titled "p1" "page"))), s') ∧
        s'.store.collections.variableList = [cardTitle] :=
    ⟨_, Prod.ext returned_bindTitle.2 rfl, by cbv⟩
  have hplaced : cardService.Placed cardProject :=
    ⟨Project.placed_toCollections (by decide), rfl, fun _ hmem => absurd hmem List.not_mem_nil⟩
  have hexpressed := expressed_of_perform hplaced selector_card (.bind "label" cardTitle) hperform
  -- The page sees no variable, so it is enough that the text has an identifier.
  have hunseen (ids : List Expression.Identifier)
      (hids : Expression.identifiers? .expression false (Reference.encode "title") =
        .ok (some ids)) :
      ¬ SeesAll cardProject s'.settings ["page"] s'.store.collections ids := by
    intro hsees
    rw [(Expression.isName_encode _).identifiers?_eq] at hids
    cases hids
    obtain ⟨v, hv, ⟨-, hscope⟩, -⟩ := hsees _ List.mem_cons_self
    rw [hvars, List.mem_singleton] at hv
    subst hv
    revert hscope
    decide
  obtain ⟨_, ids, ⟨⟩, hids, -, hproblems⟩ := hexpressed.seen
  rcases h cardProject .default ⟨"p", 1⟩ ⟨"t", 0⟩ (bindTitle (some "p1")) "card" _ ["page"] _ _ s'
    (by decide) selector_card (.bind "label" cardTitle) hperform selector_page with
    ⟨_, ids', ⟨⟩, hids', hsees⟩ | hnone
  . exact hunseen ids' hids' hsees
  . have hnamed : NamesAll cardProject s'.settings "page" s'.store.collections := by
      intro path _ v hv _
      rw [hvars, List.mem_singleton] at hv
      subst hv
      decide
    obtain ⟨path, hpath, hsees⟩ := (hproblems [] hnamed).mp hnone
    rw [show (titled "p1" "page").instanceId = "page" from rfl, selector_page] at hpath
    cases hpath
    exact hunseen ids hids hsees

end Workspace

end PageBinding
