import PageBinding.Command
import PageBinding.Proofs.Workspace.Edit

/-!
This module contains runs of commands: each one works on the project that the one before it has
left. Where the check of a project finds nothing, it finds nothing after any run.
-/

namespace PageBinding

def Workspace.ofProject (p : Project) (settings : Settings) (supplies : IdSupplies) : Workspace :=
  ⟨[], p, .new (p.toStore supplies.entities supplies.transactions) settings⟩

namespace Workspace

def edit? [Limits] (w : Workspace) : Command → Option (Except Failure Unit × Service)
  | .setValue instanceId name text variableId =>
    some (forget (w.setValue instanceId name text variableId))
  | .delete variableId => some (forget (w.delete variableId))
  | .bind instanceId name variableId => some (forget (w.bind instanceId name variableId))
  | .expr instanceId name text type =>
    some (forget (w.setExpression instanceId name text (type.map PropertyMeta.ofType)))
  | .check | .scope _ | .usage | .eval _ => none
where
  forget {α : Type} (outcome : Except Failure α × Service) : Except Failure Unit × Service :=
    (outcome.1.map fun _ => (), outcome.2)

def Passes [Limits] (w : Workspace) : Prop :=
  ∀ q ∈ w.service.store.collections.propertyList, w.problems q = .ok []

def after [Limits] (w : Workspace) (command : Command) : Project :=
  match w.edit? command with
  | some (.ok (), service) => w.project.withCollections service.store.collections
  | _ => w.project

variable {w : Workspace}

inductive Asks (w : Workspace) : Command → Operation → Prop where
  | setValue {instanceId name text : Text} {variableId : Option Text} {selector : Selector}
      {v : Option Variable} :
      variableId.mapM w.requireVariable = .ok v → w.project.selector instanceId = .ok selector →
        Asks w (.setValue instanceId name text variableId) (.save (some selector) v name text)
  | delete (variableId : Text) : Asks w (.delete variableId) (.delete variableId)
  | bind {instanceId name variableId : Text} {selector : Selector} {v : Variable} :
      w.requireVariable variableId = .ok v → w.project.selector instanceId = .ok selector →
        Asks w (.bind instanceId name variableId)
          (.bind (some selector) ((w.propertyOf? instanceId name).map Property.id) name v)
  | expr {instanceId name : Text} {selector : Selector} (text : Text) (type : Option Text) :
      w.project.selector instanceId = .ok selector →
        Asks w (.expr instanceId name text type)
          (.setExpression (some selector) ((w.propertyOf? instanceId name).map Property.id) name
            text (type.map PropertyMeta.ofType))

theorem mem_of_requireVariable {variableId : Text} {v : Variable}
    (h : w.requireVariable variableId = .ok v) :
    v ∈ w.service.store.collections.variableList := by
  unfold requireVariable at h
  split at h
  . next found hfound =>
    cases h
    obtain ⟨entity, hget, hentity⟩ := Option.bind_eq_some_iff.mp hfound
    exact List.mem_filterMap.mpr ⟨entity, Collection.mem_values_iff.mpr ⟨variableId, hget⟩, hentity⟩
  . cases h

theorem mem_of_mapM_requireVariable {variableId : Option Text} {v : Option Variable}
    (h : variableId.mapM w.requireVariable = .ok v) :
    ∀ given, v = some given → given ∈ w.service.store.collections.variableList := by
  cases variableId with
  | none =>
    cases h
    exact nofun
  | some variableId =>
    obtain ⟨found, hfound, rfl⟩ := Traversal.map_eq_ok_iff.mp h
    rintro _ ⟨⟩
    exact mem_of_requireVariable hfound

theorem Asks.requests {command : Command} {op : Operation} (h : w.Asks command op) :
    w.Requests op := by
  cases h with
  | setValue hgiven hselector => exact .save (mem_of_mapM_requireVariable hgiven) hselector
  | delete variableId => exact .delete variableId
  | bind _ hselector => exact .bind _ hselector
  | expr text type hselector => exact .setExpression text _ hselector

theorem setValue_cases [Limits] (instanceId name text : Text) (variableId : Option Text) :
    (∃ failure, w.setValue instanceId name text variableId = (.error failure, w.service)) ∨
      ∃ v selector, variableId.mapM w.requireVariable = .ok v ∧
        w.project.selector instanceId = .ok selector ∧
        w.setValue instanceId name text variableId =
          w.service.save (some selector) v name text := by
  unfold setValue
  extract_lets select arguments
  have harguments : arguments = variableId.mapM w.requireVariable >>= select := by
    cases variableId <;> rfl
  rcases heq : arguments with failure | ⟨v, selector⟩
  . exact .inl ⟨failure, rfl⟩
  . rw [harguments] at heq
    obtain ⟨v', hgiven, hselect⟩ := Traversal.bind_eq_ok_iff.mp heq
    obtain ⟨selector', hselector, hpair⟩ := Traversal.bind_eq_ok_iff.mp hselect
    cases hpair
    exact .inr ⟨v, selector, hgiven, hselector, rfl⟩

section Asks

variable {service : Service} {instanceId name variableId text : Text}

theorem asks_setValue [Limits] {given : Option Text} {saved : Variable}
    (h : w.setValue instanceId name text given = (.ok saved, service)) :
    ∃ op, w.Asks (.setValue instanceId name text given) op ∧
      op.perform w.service = (.ok (.saved saved), service) := by
  rcases setValue_cases (w := w) instanceId name text given with
    ⟨failure, heq⟩ | ⟨v, selector, hgiven, hselector, heq⟩
  . rw [heq] at h
    cases h
  . rw [heq] at h
    refine ⟨_, .setValue hgiven hselector, ?_⟩
    rw [Operation.perform, h]
    rfl

theorem asks_delete [Limits] (h : w.delete variableId = (.ok (), service)) :
    ∃ op, w.Asks (.delete variableId) op ∧ op.perform w.service = (.ok .nothing, service) := by
  refine ⟨_, .delete variableId, ?_⟩
  unfold delete at h
  rw [Operation.perform, h]
  rfl

theorem asks_bind [Limits] {v : Variable} {p : Property}
    (h : w.bind instanceId name variableId = (.ok (v, p), service)) :
    ∃ selector propertyId, w.Asks (.bind instanceId name variableId)
        (.bind (some selector) propertyId name v) ∧
      (Operation.bind (some selector) propertyId name v).perform w.service =
        (.ok (.property (some p)), service) := by
  unfold bind at h
  extract_lets arguments propertyId at h
  cases harguments : arguments with
  | error failure =>
    rw [harguments] at h
    cases h
  | ok given =>
    obtain ⟨found, hfound, hselected⟩ := Traversal.bind_eq_ok_iff.mp harguments
    obtain ⟨selector, hselector, heq⟩ := Traversal.bind_eq_ok_iff.mp hselected
    cases heq
    simp only [harguments] at h
    rcases hbind : w.service.bind (some selector) propertyId name found with
      ⟨failure | bound, service'⟩
    . rw [hbind] at h
      cases h
    . rw [hbind] at h
      cases h
      refine ⟨selector, propertyId, .bind hfound hselector, ?_⟩
      rw [Operation.perform, hbind]
      rfl

theorem asks_setExpression [Limits] {type : Option Text} {p : Option Property}
    (h : w.setExpression instanceId name text (type.map PropertyMeta.ofType) =
      (.ok p, service)) :
    ∃ op, w.Asks (.expr instanceId name text type) op ∧
      op.perform w.service = (.ok (.property p), service) := by
  unfold setExpression at h
  cases hselector : w.project.selector instanceId with
  | error failure =>
    rw [hselector] at h
    cases h
  | ok selector =>
    rw [hselector] at h
    refine ⟨_, .expr text type hselector, ?_⟩
    simp only at h
    rw [Operation.perform, h]
    rfl

theorem eq_ok_of_forget {α : Type} {outcome : Except Failure α × Service}
    (h : edit?.forget outcome = (.ok (), service)) : ∃ a, outcome = (.ok a, service) := by
  obtain ⟨_ | a, service'⟩ := outcome
  . cases h
  . cases h
    exact ⟨a, rfl⟩

theorem asks_of_edit? [Limits] {command : Command} (h : w.edit? command = some (.ok (), service)) :
    ∃ op result, w.Asks command op ∧ op.perform w.service = (.ok result, service) := by
  cases command with
  | setValue instanceId name text given =>
    obtain ⟨saved, hsaved⟩ := eq_ok_of_forget (Option.some.inj h)
    obtain ⟨op, hasks, hperform⟩ := asks_setValue hsaved
    exact ⟨op, _, hasks, hperform⟩
  | delete variableId =>
    obtain ⟨⟨⟩, hdeleted⟩ := eq_ok_of_forget (Option.some.inj h)
    obtain ⟨op, hasks, hperform⟩ := asks_delete hdeleted
    exact ⟨op, _, hasks, hperform⟩
  | bind instanceId name variableId =>
    obtain ⟨bound, hbound⟩ := eq_ok_of_forget (Option.some.inj h)
    obtain ⟨selector, propertyId, hasks, hperform⟩ := asks_bind hbound
    exact ⟨_, _, hasks, hperform⟩
  | expr instanceId name text type =>
    obtain ⟨set, hset⟩ := eq_ok_of_forget (Option.some.inj h)
    obtain ⟨op, hasks, hperform⟩ := asks_setExpression hset
    exact ⟨op, _, hasks, hperform⟩
  | check => cases h
  | scope instanceId => cases h
  | usage => cases h
  | eval text => cases h

end Asks

variable [Limits]

/--
An edit fails, or an operation that it comes down to returns a result.
-/
def ComesDown (w : Workspace) (outcome : Except Failure Unit × Service) : Prop :=
  (∃ failure, outcome.1 = .error failure) ∨
    ∃ op result, w.Requests op ∧ op.perform w.service = (.ok result, outcome.2)

theorem comesDown_edit? {command : Command} {outcome : Except Failure Unit × Service}
    (h : w.edit? command = some outcome) : w.ComesDown outcome := by
  obtain ⟨failure | ⟨⟩, service⟩ := outcome
  . exact .inl ⟨failure, rfl⟩
  . obtain ⟨op, result, hasks, hperform⟩ := asks_of_edit? h
    exact .inr ⟨op, result, hasks.requests, hperform⟩

theorem valid_of_comesDown (h : w.Ready)
    (observe : ∀ listener ∈ w.service.store.listeners, listener.Observes) {service : Service}
    (hcomes : w.ComesDown (.ok (), service)) :
    service.store.collections.Valid w.project w.service.settings := by
  rcases hcomes with ⟨failure, heq⟩ | ⟨op, result, hrequests, hperform⟩
  . cases heq
  . have hperformed := Operation.performed op w.service
    rw [hperform] at hperformed
    obtain ⟨write, hallows, hedited⟩ := hperformed.store
    have hharmless := harmless_of_allows h hrequests hallows
    exact Collections.Valid.edited (a := w.service.store.ledger) h.valid (hedited.ledger observe)
      hharmless

end Workspace

namespace Project

variable [Limits] {p q : Project} {settings : Settings}

theorem fits_congr (h : p.instances = q.instances) {c : Collections} {prop : Property}
    (hfits : Workspace.Fits p settings c prop) : Workspace.Fits q settings c prop := by
  have htree : p.tree = q.tree := congrArg InstanceTree.ofInstances h
  unfold Workspace.Fits Workspace.Source.Fits Workspace.Sees at hfits ⊢
  simp only [← selector_congr h, ← htree]
  exact hfits

structure IsValid (settings : Settings) (p : Project) : Prop where
  accepted : p.conflict? = none
  valid : p.toCollections.Valid p settings

theorem IsValid.withCollections (h : p.IsValid settings) {c : Collections}
    (hc : c.Valid p settings) : (p.withCollections c).IsValid settings := by
  refine ⟨conflict?_withCollections h.accepted hc.filed hc.placed, ?_⟩
  rw [toCollections_withCollections hc.filed]
  have hinstances : p.instances = (p.withCollections c).instances := rfl
  exact ⟨hc.toUsable, hc.placed, fun prop hprop => fits_congr hinstances (hc.fits prop hprop)⟩

theorem IsValid.ready (h : p.IsValid settings) (supplies : IdSupplies) :
    (Workspace.ofProject p settings supplies).Ready :=
  ⟨h.valid, rfl, rfl, Tracker.current_new _ _⟩

theorem isValid_iff (supplies : IdSupplies) :
    p.IsValid settings ↔ p.conflict? = none ∧ (∀ v ∈ p.vars, v.id ≠ []) ∧
      (Workspace.ofProject p settings supplies).Passes := by
  have hproblems (hnamed : ∀ v ∈ p.toCollections.variableList, v.id ≠ []) (prop : Property) :
      (Workspace.ofProject p settings supplies).problems prop = .ok [] ↔
        Workspace.Fits p settings p.toCollections prop :=
    Workspace.problems_eq_nil_iff (w := Workspace.ofProject p settings supplies)
      ⟨p.filed_toCollections, hnamed⟩ rfl prop
  constructor
  . rintro ⟨haccepted, hvalid⟩
    refine ⟨haccepted, ?_, ?_⟩
    . rw [← (lists_toCollections haccepted).1]
      exact hvalid.named
    . intro prop hprop
      exact (hproblems hvalid.named prop).mpr (hvalid.fits prop hprop)
  . rintro ⟨haccepted, hnamed, hpasses⟩
    rw [← (lists_toCollections haccepted).1] at hnamed
    refine ⟨haccepted, ⟨p.filed_toCollections, hnamed⟩, ?_, ?_⟩
    . rw [(lists_toCollections haccepted).1]
      exact (conflict?_eq_none_iff.mp haccepted).2
    . intro prop hprop
      exact (hproblems hnamed prop).mp (hpasses prop hprop)

theorem IsValid.after (h : p.IsValid settings) (supplies : IdSupplies)
    (command : Command) :
    ((Workspace.ofProject p settings supplies).after command).IsValid settings := by
  unfold Workspace.after
  split
  . next service hedit =>
    apply h.withCollections
    exact Workspace.valid_of_comesDown (h.ready supplies)
      (fun _ hmem => absurd hmem List.not_mem_nil) (Workspace.comesDown_edit? hedit)
  . exact h

end Project

structure Invocation where
  command : Command
  supplies : IdSupplies

namespace Project

def afterAll [Limits] (settings : Settings) (p : Project) (invocations : List Invocation) :
    Project :=
  invocations.foldl
    (fun p invocation => (Workspace.ofProject p settings invocation.supplies).after
      invocation.command) p

variable {p : Project} {settings : Settings}

theorem IsValid.afterAll [Limits] (h : p.IsValid settings) (invocations : List Invocation) :
    (p.afterAll settings invocations).IsValid settings := by
  unfold Project.afterAll
  induction invocations generalizing p with
  | nil => exact h
  | cons invocation rest ih => exact ih (h.after invocation.supplies invocation.command)

/--
Where the check of an accepted project without empty variable ids finds nothing, it finds nothing
after any run of commands.
-/
theorem passes_afterAll [Limits] (p : Project) (settings : Settings) (accepted : p.conflict? = none)
    (named : ∀ v ∈ p.vars, v.id ≠ []) (supplies supplies' : IdSupplies)
    (invocations : List Invocation) (h : (Workspace.ofProject p settings supplies).Passes) :
    (p.afterAll settings invocations).conflict? = none ∧
      (Workspace.ofProject (p.afterAll settings invocations) settings supplies').Passes := by
  have hvalid : p.IsValid settings := (isValid_iff supplies).mpr ⟨accepted, named, h⟩
  obtain ⟨haccepted, -, hpasses⟩ := (isValid_iff supplies').mp (hvalid.afterAll invocations)
  exact ⟨haccepted, hpasses⟩

theorem passes_boundProject [Limits] (supplies : IdSupplies) :
    (Workspace.ofProject Operation.boundProject .default supplies).Passes := by
  have hvars : Operation.boundProject.toCollections.variableList = Operation.boundProject.vars :=
    rfl
  have hprops : Operation.boundProject.toCollections.propertyList = Operation.boundProject.props :=
    rfl
  have husable : Operation.boundProject.toCollections.Usable :=
    ⟨Operation.boundProject.filed_toCollections, by rw [hvars]; decide⟩
  have hselector : Operation.boundProject.selector "root" = .ok ["root"] :=
    climb_of_none (by decide) rfl
  intro prop hprop
  have hmem : prop ∈ Operation.boundProject.props := hprops ▸ hprop
  rw [Workspace.problems_eq_nil_iff husable rfl, List.mem_singleton.mp hmem]
  refine .inr ⟨_, hselector, ?_⟩
  intro source hsource
  rw [Workspace.sources, List.mem_singleton] at hsource
  subst hsource
  refine ⟨_, (Expression.isName_encode _).identifiers?_eq, ?_⟩
  intro id hid
  rw [List.mem_singleton.mp hid]
  have htitle : (⟨"title", "Title", "root", .value (.string "Welcome")⟩ : Variable) ∈
      Operation.boundProject.toCollections.variableList := by
    rw [hvars]
    exact List.mem_singleton.mpr rfl
  exact .inl ⟨_, htitle, ⟨rfl, by decide⟩, rfl⟩

/--
The variable of the label is not deleted, and another one is added that the label is then bound to.
-/
def rebinding : List Invocation := [
  ⟨.delete "title", ⟨"v", 0⟩, ⟨"t", 0⟩⟩,
  ⟨.setValue "root" "Heading" "1 + 1" none, ⟨"v", 0⟩, ⟨"t", 0⟩⟩,
  ⟨.bind "root" "label" "v1", ⟨"v", 1⟩, ⟨"t", 1⟩⟩]

theorem passes_afterAll_rebinding :
    (Operation.boundProject.afterAll .default rebinding).conflict? = none ∧
      (Workspace.ofProject (Operation.boundProject.afterAll .default rebinding) .default
        ⟨⟨"v", 1⟩, ⟨"t", 2⟩⟩).Passes :=
  passes_afterAll Operation.boundProject .default (by decide) (by decide) ⟨⟨"v", 0⟩, ⟨"t", 0⟩⟩
    ⟨⟨"v", 1⟩, ⟨"t", 2⟩⟩ rebinding (passes_boundProject _)

end Project

end PageBinding
