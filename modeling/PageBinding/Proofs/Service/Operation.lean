import PageBinding.Proofs.Edit.Spec
import PageBinding.Service

/-!
This module contains the operations of a service as data, and what each of them may write.
-/

namespace PageBinding

inductive Operation where
  | save (selector : Option Selector) (v : Option Variable) (name text : Text)
  | saveResource (selector : Option Selector) (v : Option Variable) (name : Text)
    (resource : Resource)
  | rename (v : Variable) (name : Text)
  | delete (variableId : Text)
  | bind (selector : Option Selector) (propertyId : Option Text) (name : Text) (v : Variable)
  | setExpression (selector : Option Selector) (propertyId : Option Text) (name text : Text)
    (declared : Option PropertyMeta)
  | removeExpression (selector : Option Selector) (propertyId : Option Text) (name : Text)
    (declared : Option PropertyMeta)

namespace Operation

inductive Result where
  | nothing
  | saved (v : Variable)
  | property (p : Option Property)

def perform [Limits] (op : Operation) (s : Service) : Except Failure Result × Service :=
  match op with
  | .save selector v name text => returning .saved (s.save selector v name text)
  | .saveResource selector v name resource =>
    returning .saved (s.saveResource selector v name resource)
  | .rename v name => returning .saved (s.rename v name)
  | .delete variableId => returning (fun _ => .nothing) (s.delete variableId)
  | .bind selector propertyId name v =>
    returning (fun p => .property (some p)) (s.bind selector propertyId name v)
  | .setExpression selector propertyId name text declared =>
    returning .property (s.setExpression selector propertyId name text declared)
  | .removeExpression selector propertyId name declared =>
    returning .property (s.removeExpression selector propertyId name declared)
where
  returning {α : Type} (f : α → Result) (outcome : Except Failure α × Service) :
      Except Failure Result × Service :=
    (outcome.1.map f, outcome.2)

def performAll [Limits] (ops : List Operation) (s : Service) : Service :=
  ops.foldl (fun s op => (op.perform s).2) s

inductive Allows [Limits] (s : Service) : Operation → Result → Edit.Write → Prop where
  | save {selector : Option Selector} {v : Option Variable} {name text : Text} {saved : Variable}
      {w : Edit.Write} :
      Edit.SavesAs s.store selector v name (fun content => ∃ value, content = .value value) none
        saved w → Allows s (.save selector v name text) (.saved saved) w
  | saveResource {selector : Option Selector} {v : Option Variable} {name : Text}
      {resource : Resource} {saved : Variable} {w : Edit.Write} :
      Edit.SavesAs s.store selector v name (fun content => content = .resource resource.id)
        (some resource) saved w →
      Allows s (.saveResource selector v name resource) (.saved saved) w
  | rename {v : Variable} {name : Text} {saved : Variable} {w : Edit.Write} :
      Edit.Renames s.store.collections v name saved w → Allows s (.rename v name) (.saved saved) w
  | delete {variableId : Text} {entity : Entity} {used : List Text} :
      Edit.requireVariable s.store.collections variableId = .ok entity →
      (s.tracker.used s.store).1 = .ok used → Usage.ensureDeletable used entity = .ok () →
        Allows s (.delete variableId) .nothing (.erase variableId)
  | bind {selector : Option Selector} {propertyId : Option Text} {name : Text} {v : Variable}
      {seen : List Variable} {identifier : Text} {p : Property} {w : Edit.Write} :
      s.visible selector = .ok seen → Reference.encode? v.id = .ok identifier →
      (∃ candidate ∈ seen, candidate.id = v.id) →
      Edit.Sets s.store selector propertyId name (.expression identifier) p w →
        Allows s (.bind selector propertyId name v) (.property (some p)) w
  | setExpression {selector : Option Selector} {propertyId : Option Text} {name text : Text}
      {declared : Option PropertyMeta} {seen : List Variable} {aliases : Collection Text}
      {code : Text} {p : Property} {w : Edit.Write} :
      s.visible selector = .ok seen → Scope.aliases seen = .ok aliases →
      Expression.checkNames .expression aliases.contains text = .ok code →
      Edit.Sets s.store selector propertyId name (.expression code) p w →
        Allows s (.setExpression selector propertyId name text declared) (.property (some p)) w
  | blank {selector : Option Selector} {propertyId : Option Text} {name text : Text}
      {declared : Option PropertyMeta} {p : Option Property} {w : Edit.Write} :
      Edit.Resets s.store selector propertyId name p w →
        Allows s (.setExpression selector propertyId name text declared) (.property p) w
  | removeExpression {selector : Option Selector} {propertyId : Option Text} {name : Text}
      {declared : Option PropertyMeta} {p : Option Property} {w : Edit.Write} :
      Edit.Resets s.store selector propertyId name p w →
        Allows s (.removeExpression selector propertyId name declared) (.property p) w

/--
What an operation has made of a service: it has failed and left the ledger alone, or made a write
that it may make. The tracker may have been asked.
-/
structure Performed [Limits] (s : Service) (op : Operation)
    (outcome : Except Failure Result × Service) :
    Prop where
  settings : outcome.2.settings = s.settings
  tracker : outcome.2.tracker = s.tracker ∨ outcome.2.tracker = (s.tracker.used s.store).2
  store : match outcome.1 with
    | .error _ => outcome.2.store.ledger = s.store.ledger ∧ s.store.Follows outcome.2.store
    | .ok result => ∃ w : Edit.Write, Allows s op result w ∧
        s.store.Edited w.names (w.apply s.store.collections) outcome.2.store

variable {s : Service}

theorem Performed.follows [Limits] {op : Operation} {outcome : Except Failure Result × Service}
    (h : Performed s op outcome) : s.store.Follows outcome.2.store := by
  have hstore := h.store
  split at hstore
  . exact hstore.2
  . obtain ⟨-, -, mid, hmid, -, hpublishes⟩ := hstore
    exact hmid.trans hpublishes.follows

theorem Performed.edited [Limits] {op : Operation} {outcome : Except Failure Result × Service}
    (h : Performed s op outcome) (observe : ∀ listener ∈ s.store.listeners, listener.Observes) :
    ∃ w : Edit.Write, (w = .nothing ∨ ∃ result, Allows s op result w) ∧
      Ledger.Edited w.names (w.apply s.store.collections) s.store.ledger
        outcome.2.store.ledger := by
  have hstore := h.store
  split at hstore
  . rw [hstore.1]
    exact ⟨.nothing, .inl rfl, .nothing s.store.ledger⟩
  . next result _ =>
    obtain ⟨w, hallows, hedited⟩ := hstore
    exact ⟨w, .inr ⟨result, hallows⟩, hedited.ledger observe⟩

theorem performed_run [Limits] {α : Type} {edit : Edit α} {holds : α → Edit.Write → Prop}
    {op : Operation}
    {f : α → Result} {tracker : Tracker}
    (htracker : tracker = s.tracker ∨ tracker = (s.tracker.used s.store).2)
    (h : Edit.Ensures edit s.store holds) (allows : ∀ a w, holds a w → Allows s op (f a) w) :
    Performed s op (perform.returning f ({ s with tracker }.run edit)) := by
  unfold Edit.Ensures at h
  simp only [perform.returning, Service.run]
  rcases hrun : edit.run s.store with ⟨result, store⟩
  rw [hrun] at h
  cases result with
  | error failure => exact ⟨rfl, htracker, h⟩
  | ok a =>
    obtain ⟨w, hw, hedited⟩ := h
    exact ⟨rfl, htracker, w, allows a w hw, hedited⟩

theorem performed_delete [Limits] (variableId : Text) :
    Performed s (.delete variableId)
      (perform.returning (fun _ => .nothing) (s.delete variableId)) := by
  unfold Service.delete
  cases hentity : Edit.requireVariable s.store.collections variableId with
  | error failure => exact ⟨rfl, .inl rfl, rfl, .refl _⟩
  | ok entity =>
    simp only [Service.ask, Tracker.ensureDeletable]
    cases hused : (s.tracker.used s.store).1 with
    | error failure => exact ⟨rfl, .inr rfl, rfl, .refl _⟩
    | ok used =>
      simp only [Except.bind]
      cases hdeletable : Usage.ensureDeletable used entity with
      | error failure => exact ⟨rfl, .inr rfl, rfl, .refl _⟩
      | ok _ =>
        refine performed_run (.inr rfl) (Edit.ensures_eraseVariable variableId) ?_
        rintro _ _ rfl
        exact .delete hentity hused hdeletable

theorem performed [Limits] (op : Operation) (s : Service) : Performed s op (op.perform s) := by
  cases op with
  | save selector v name text =>
    exact performed_run (.inl rfl) (Edit.ensures_save selector v name text) fun _ _ h => .save h
  | saveResource selector v name resource =>
    exact performed_run (.inl rfl) (Edit.ensures_saveResource selector v name resource)
      fun _ _ h => .saveResource h
  | rename v name =>
    exact performed_run (.inl rfl) (Edit.ensures_rename v name) fun _ _ h => .rename h
  | delete variableId => exact performed_delete variableId
  | bind selector propertyId name v =>
    refine performed_run (.inl rfl) (Edit.ensures_bind s.settings.collectionComponent selector
      propertyId name v) ?_
    rintro p w ⟨seen, identifier, hseen, hidentifier, hcandidate, hsets⟩
    exact .bind hseen hidentifier hcandidate hsets
  | setExpression selector propertyId name text declared =>
    refine performed_run (.inl rfl) (Edit.ensures_setExpression s.settings.collectionComponent
      selector propertyId name text declared) ?_
    intro result w h
    split at h
    . exact .blank h
    . obtain ⟨seen, aliases, code, p, hseen, haliases, hcode, rfl, hsets⟩ := h
      exact .setExpression hseen haliases hcode hsets
  | removeExpression selector propertyId name declared =>
    exact performed_run (.inl rfl) (Edit.ensures_removeExpression selector propertyId name declared)
      fun _ _ h => .removeExpression h

theorem performAll_append_singleton [Limits] (ops : List Operation) (op : Operation) (s : Service) :
    performAll (ops ++ [op]) s = (op.perform (performAll ops s)).2 := by
  rw [performAll, List.foldl_append]
  rfl

theorem observes_performAll [Limits] (observe : ∀ listener ∈ s.store.listeners, listener.Observes)
    (ops : List Operation) :
    ∀ listener ∈ (performAll ops s).store.listeners, listener.Observes := by
  unfold performAll
  induction ops generalizing s with
  | nil => exact observe
  | cons op rest ih =>
    apply ih
    exact (performed op s).follows.observes observe

/--
The variable that an operation is given to save, if it is one that is stored already, and the
resource that the variable is to have.
-/
def saving? : Operation → Option (Option Variable × Option Resource)
  | .save _ v _ _ => some (v, none)
  | .saveResource _ v _ resource => some (v, some resource)
  | _ => none

/--
The id under which an operation saves a variable, with the id of its resource. Parameters are only
renamed.
-/
def target? (s : Store) (op : Operation) : Option (Text × Option Text) :=
  match op.saving? with
  | none => none
  | some (v, resource) =>
    match v.filter Variable.isParameter with
    | some _ => none
    | none => some ((v.map Variable.id).getD s.takeId.1, resource.map Resource.id)

theorem not_resets_save {s : Store} {selector : Option Selector} {propertyId : Option Text}
    {name : Text} {p : Option Property} {v : Variable} {resource : Option Resource} :
    ¬ Edit.Resets s selector propertyId name p (.save v resource) := by
  intro h
  cases h with
  | starts _ hsets => cases hsets.write

theorem target?_of_savesAs {store : Store} {op : Operation} {selector : Option Selector}
    {v : Option Variable} {name : Text} {content : Content → Prop} {resource kept : Option Resource}
    {saved written : Variable} (hop : op.saving? = some (v, resource))
    (h : Edit.SavesAs store selector v name content resource saved (.save written kept)) :
    op.target? store = some (written.id, kept.map Resource.id) := by
  unfold target?
  rw [hop]
  unfold Edit.SavesAs at h
  split at h
  . cases h.write
  . next hparameter =>
    obtain ⟨hsaves, -, hwrite⟩ := h
    cases hwrite
    simp only [hparameter, hsaves.id]

theorem target?_of_allows [Limits] {op : Operation} {result : Result} {v : Variable}
    {resource : Option Resource} (h : Allows s op result (.save v resource)) :
    op.target? s.store = some (v.id, resource.map Resource.id) := by
  cases h with
  | save h => exact target?_of_savesAs rfl h
  | saveResource h => exact target?_of_savesAs rfl h
  | rename h => cases h.write
  | bind _ _ _ h => cases h.write
  | setExpression _ _ _ h => cases h.write
  | blank h => exact absurd h not_resets_save
  | removeExpression h => exact absurd h not_resets_save

end Operation

end PageBinding
