import PageBinding.Proofs.Edit.Naming
import PageBinding.Session

/-!
This module contains what holds of an edit session in each state that it can get to, and what each
action on it does to the store.
-/

namespace PageBinding

namespace Session

inductive Action where
  | openList
  | add
  | edit (v : Variable)
  | selectTab (tab : Tab)
  | cancel
  | close
  | saveValue (name text : Text)
  | saveResource (name : Text) (resource : Resource)

namespace Action

def savedName? : Action → Option Text
  | .saveValue name _ => some name
  | .saveResource name _ => some name
  | _ => none

def perform [Limits] (action : Action) (s : Session) (service : Service) :
    Except Failure (Option Variable) × Session × Service :=
  match action with
  | .openList => moving s.openList
  | .add => moving s.add
  | .edit v => moving (s.edit v)
  | .selectTab tab => moving (s.selectTab tab)
  | .cancel => moving (.ok s.cancel)
  | .close => moving (.ok s.close)
  | .saveValue name text => saving (s.saveValue service name text)
  | .saveResource name resource => saving (s.saveResource service name resource)
where
  moving (result : Except Failure Session) : Except Failure (Option Variable) × Session × Service :=
    match result with
    | .ok s' => (.ok none, s', service)
    | .error failure => (.error failure, s, service)
  saving (outcome : Except Failure Variable × Session × Service) :
      Except Failure (Option Variable) × Session × Service :=
    (outcome.1.map some, outcome.2)

def performAll [Limits] (actions : List Action) (s : Session) (service : Service) :
    Session × Service :=
  actions.foldl (fun (s, service) action => (action.perform s service).2) (s, service)

end Action

structure Consistent (s : Session) : Prop where
  tab : s.tab?.isSome = true ↔ s.stage = .one
  outside : s.stage ≠ .one → s.current? = none ∧ s.nameErrors = [] ∧ s.valueErrors = []
  parameter : ∀ v, s.current? = some v → v.isParameter = true → s.tab? = some .value
  errors : (s.nameErrors ++ s.valueErrors).length ≤ 1

section Consistent

variable {s s' : Session} {service service' : Service}

theorem require_of_eq {stage : Stage} (h : s.stage = stage) (action : Text) :
    s.require action stage = .ok () :=
  if_pos h

theorem require_of_ne {stage : Stage} (h : s.stage ≠ stage) (action : Text) :
    s.require action stage = .error (s.refuse action) :=
  if_neg h

theorem of_require_bind {action : Text} {stage : Stage} {next : Unit → Except Failure Session}
    (h : (s.require action stage >>= next) = .ok s') : s.stage = stage ∧ next () = .ok s' := by
  obtain ⟨_, hrequire, hnext⟩ := Traversal.bind_eq_ok_iff.mp h
  unfold require at hrequire
  split at hrequire
  . next hstage => exact ⟨hstage, hnext⟩
  . cases hrequire

theorem consistent_resetOne (s : Session) {stage : Stage} (h : stage ≠ .one) :
    Consistent { s.resetOne with stage } := by
  constructor
  . exact iff_of_false nofun h
  . exact fun _ => ⟨rfl, rfl, rfl⟩
  . exact fun _ => nofun
  . exact Nat.zero_le 1

theorem Consistent.with_stage (h : s.Consistent) (hs : s.stage ≠ .one) {stage : Stage}
    (hstage : stage ≠ .one) : Consistent { s with stage } := by
  constructor
  . exact iff_of_false (fun htab => hs (h.tab.mp htab)) hstage
  . exact fun _ => h.outside hs
  . exact h.parameter
  . exact h.errors

theorem consistent_begin (s : Session) {v : Option Variable} {tab : Tab}
    (h : ∀ v', v = some v' → v'.isParameter = true → tab = .value) :
    Consistent { s.resetOne with stage := .one, current? := v, tab? := some tab } := by
  constructor
  . exact iff_of_true rfl rfl
  . exact fun hne => absurd rfl hne
  . exact fun v' hv hparameter => congrArg some (h v' hv hparameter)
  . exact Nat.zero_le 1

theorem consistent_new (selector : Option Selector) : (new selector).Consistent := by
  constructor
  . exact iff_of_false nofun nofun
  . exact fun _ => ⟨rfl, rfl, rfl⟩
  . exact fun _ => nofun
  . exact Nat.zero_le 1

theorem consistent_openList (h : s.Consistent) (hs : s.openList = .ok s') : s'.Consistent := by
  obtain ⟨hstage, ⟨⟩⟩ := of_require_bind hs
  exact h.with_stage (hstage ▸ nofun) nofun

theorem consistent_add (hs : s.add = .ok s') : s'.Consistent := by
  obtain ⟨-, ⟨⟩⟩ := of_require_bind hs
  exact consistent_begin s nofun

theorem tabOf_of_isParameter {v : Variable} (h : v.isParameter = true) : tabOf v = .value := by
  unfold Variable.isParameter at h
  unfold tabOf
  split
  . next hcontent =>
    rw [hcontent] at h
    cases h
  . rfl

theorem consistent_edit {v : Variable} (hs : s.edit v = .ok s') : s'.Consistent := by
  obtain ⟨-, ⟨⟩⟩ := of_require_bind hs
  apply consistent_begin
  rintro _ ⟨⟩ hparameter
  exact tabOf_of_isParameter hparameter

theorem consistent_selectTab {tab : Tab} (h : s.Consistent) (hs : s.selectTab tab = .ok s') :
    s'.Consistent := by
  obtain ⟨hstage, hs⟩ := of_require_bind hs
  split at hs
  . cases hs
  . next hparameter =>
    cases hs
    constructor
    . exact iff_of_true rfl hstage
    . exact fun hne => absurd hstage hne
    . intro v hv hisParameter
      refine absurd ?_ hparameter
      rw [show s.current? = some v from hv]
      exact hisParameter
    . exact h.errors

theorem consistent_cancel (h : s.Consistent) : s.cancel.Consistent := by
  unfold cancel
  split
  . exact consistent_resetOne s nofun
  . next hstage => exact h.with_stage (hstage ▸ nofun) nofun
  . exact h

section SaveBy

variable {operation : Option Variable → Service → Except Failure Variable × Service}

theorem saveBy_of_ne (h : s.stage ≠ .one) :
    s.saveBy service operation = (.error (s.refuse "save"), s, service) := by
  rw [saveBy, require_of_ne h]

theorem saveBy_of_ok {saved : Variable} (h : s.stage = .one)
    (hrun : operation s.current? service = (.ok saved, service')) :
    s.saveBy service operation = (.ok saved, { s.resetOne with stage := .list }, service') := by
  simp only [saveBy, require_of_eq h, hrun]
  rfl

theorem saveBy_of_error {failure : Failure} (h : s.stage = .one)
    (hrun : operation s.current? service = (.error failure, service')) :
    s.saveBy service operation =
      (.error failure,
        ({ s with nameErrors := [], valueErrors := [] } : Session).showing failure, service') := by
  simp only [saveBy, require_of_eq h, hrun]

theorem showing_of_ne {failure : Failure} (h : failure ≠ .nameRequired) :
    s.showing failure =
      if failure.isReported then { s with valueErrors := [failure.message] } else s := by
  unfold showing
  split
  . exact absurd rfl h
  . rfl

theorem showing_rest (s : Session) (failure : Failure) :
    ∃ nameErrors valueErrors, (nameErrors ++ valueErrors).length ≤ 1 ∧
      ({ s with nameErrors := [], valueErrors := [] } : Session).showing failure =
        { s with nameErrors, valueErrors } := by
  by_cases hname : failure = .nameRequired
  . exact ⟨[failure.message], [], Nat.le_refl 1, by rw [hname]; rfl⟩
  . rw [showing_of_ne hname]
    split
    . exact ⟨[], [failure.message], Nat.le_refl 1, rfl⟩
    . exact ⟨[], [], Nat.zero_le 1, rfl⟩

theorem consistent_saveBy (h : s.Consistent) (service : Service)
    (operation : Option Variable → Service → Except Failure Variable × Service) :
    (s.saveBy service operation).2.1.Consistent := by
  by_cases hstage : s.stage = .one
  . rcases hrun : operation s.current? service with ⟨failure | saved, service'⟩
    . rw [saveBy_of_error hstage hrun]
      obtain ⟨nameErrors, valueErrors, hlength, heq⟩ := showing_rest s failure
      rw [heq]
      exact ⟨h.tab, fun hne => absurd hstage hne, h.parameter, hlength⟩
    . rw [saveBy_of_ok hstage hrun]
      exact consistent_resetOne s nofun
  . rw [saveBy_of_ne hstage]
    exact h

end SaveBy

theorem consistent_perform [Limits] (h : s.Consistent) (action : Action) (service : Service) :
    (action.perform s service).2.1.Consistent := by
  have hmoving (result : Except Failure Session) (hresult : ∀ s', result = .ok s' → s'.Consistent) :
      (Action.perform.moving s service result).2.1.Consistent := by
    unfold Action.perform.moving
    split
    . exact hresult _ rfl
    . exact h
  cases action with
  | openList => exact hmoving _ fun _ => consistent_openList h
  | add => exact hmoving _ fun _ => consistent_add
  | edit v => exact hmoving _ fun _ => consistent_edit
  | selectTab tab => exact hmoving _ fun _ => consistent_selectTab h
  | cancel => exact consistent_cancel h
  | close => exact consistent_resetOne s nofun
  | saveValue name text => exact consistent_saveBy h service _
  | saveResource name resource => exact consistent_saveBy h service _

theorem consistent_performAll [Limits] (h : s.Consistent) (actions : List Action)
    (service : Service) :
    (Action.performAll actions s service).1.Consistent := by
  unfold Action.performAll
  induction actions generalizing s service with
  | nil => exact h
  | cons action rest ih => exact ih (consistent_perform h action service) _

end Consistent

structure Acts (action : Action) (s : Session) (service : Service)
    (outcome : Except Failure (Option Variable) × Session × Service) : Prop where
  navigation : action.savedName? = none → outcome.2.2 = service
  /-- Navigation that is refused and saving elsewhere than at a variable change nothing. -/
  refused : action.savedName? = none ∨ s.stage ≠ .one →
    ∀ failure, outcome.1 = .error failure → outcome.2 = (s, service)
  failed : ∀ failure, outcome.1 = .error failure →
    outcome.2.2.store.ledger = service.store.ledger ∧ outcome.2.1.stage = s.stage ∧
      outcome.2.1.current? = s.current? ∧ outcome.2.1.tab? = s.tab?
  shown : s.stage = .one → ∀ name, action.savedName? = some name →
    ∀ failure, outcome.1 = .error failure →
      (failure = .nameRequired ↔ name = []) ∧
        (outcome.2.1.nameErrors, outcome.2.1.valueErrors) =
          if failure.isReported then
            if name.isEmpty then ([failure.message], []) else ([], [failure.message])
          else ([], [])
  returned : action.savedName?.isSome = true → ∀ result, outcome.1 = .ok result →
    s.stage = .one ∧ outcome.2.1.stage = .list ∧ result.isSome = true

section Acts

variable {s : Session} {service : Service} {action : Action}

theorem acts_moving (haction : action.savedName? = none) (result : Except Failure Session) :
    Acts action s service (Action.perform.moving s service result) := by
  unfold Action.perform.moving
  cases result with
  | ok s' =>
    constructor
    . exact fun _ => rfl
    . exact fun _ _ => nofun
    . exact fun _ => nofun
    . exact fun _ _ _ _ => nofun
    . simp [haction]
  | error failure =>
    constructor
    . exact fun _ => rfl
    . exact fun _ _ _ => rfl
    . exact fun _ _ => ⟨rfl, rfl, rfl, rfl⟩
    . simp [haction]
    . exact fun _ _ => nofun

/--
An operation that saves a variable under a name. Where it fails it leaves the ledger alone, and it
fails for want of a name where that is empty.
-/
def SavesUnder (name : Text) (edit : Edit Variable) : Prop :=
  ∀ store failure store', edit.run store = (.error failure, store') →
    store'.ledger = store.ledger ∧ (failure = .nameRequired ↔ name = [])

theorem savesUnder_of_ensures {name : Text} {edit : Edit Variable}
    {holds : Store → Variable → Edit.Write → Prop}
    (hensures : ∀ store, Edit.Ensures edit store (holds store))
    (hnamed : name ≠ [] → edit.Named)
    (hnameless : name = [] → ∀ store, edit.run store = (.error .nameRequired, store)) :
    SavesUnder name edit := by
  intro store failure store' hrun
  constructor
  . have h := hensures store
    unfold Edit.Ensures at h
    rw [hrun] at h
    exact h.1
  . constructor
    . rintro rfl
      by_contra hne
      exact hnamed hne store (congrArg Prod.fst hrun)
    . intro hname
      rw [hnameless hname] at hrun
      cases hrun
      rfl

theorem savesUnder_save [Limits] (selector : Option Selector) (v : Option Variable)
    (name text : Text) :
    SavesUnder name (Edit.save selector v name text) := by
  apply savesUnder_of_ensures (fun _ => Edit.ensures_save selector v name text)
  . exact fun hne => Edit.named_save selector v hne text
  . rintro rfl store
    exact Edit.run_requireName_bind_nil _ store

theorem savesUnder_saveResource [Limits] (selector : Option Selector) (v : Option Variable)
    (name : Text)
    (resource : Resource) : SavesUnder name (Edit.saveResource selector v name resource) := by
  apply savesUnder_of_ensures (fun _ => Edit.ensures_saveResource selector v name resource)
  . exact fun hne => Edit.named_saveResource selector v hne resource
  . rintro rfl store
    exact Edit.run_requireName_bind_nil _ store

theorem errors_showing {failure : Failure} {name : Text}
    (h : failure = .nameRequired ↔ name = []) :
    let shown := ({ s with nameErrors := [], valueErrors := [] } : Session).showing failure
    (shown.nameErrors, shown.valueErrors) =
      if failure.isReported then
        if name.isEmpty then ([failure.message], []) else ([], [failure.message])
      else ([], []) := by
  by_cases hname : name = []
  . cases h.mpr hname
    rw [hname]
    rfl
  . rw [showing_of_ne (mt h.mp hname), if_neg (mt List.isEmpty_iff.mp hname)]
    split <;> rfl

theorem acts_saveBy {edit : Option Variable → Edit Variable} {name : Text}
    (haction : action.savedName? = some name) (h : ∀ v, SavesUnder name (edit v)) :
    Acts action s service
      (Action.perform.saving (s.saveBy service fun v service => service.run (edit v))) := by
  by_cases hstage : s.stage = .one
  . rcases hrun : (edit s.current?).run service.store with ⟨failure | saved, store⟩
    . obtain ⟨hledger, hnamed⟩ := h s.current? service.store failure store hrun
      have hservice : service.run (edit s.current?) = (.error failure, { service with store }) := by
        rw [Service.run, hrun]
      rw [saveBy_of_error hstage hservice]
      constructor
      . simp [haction]
      . simp [haction, hstage]
      . obtain ⟨nameErrors, valueErrors, -, heq⟩ := showing_rest s failure
        rw [heq]
        exact fun _ _ => ⟨hledger, rfl, rfl, rfl⟩
      . rintro - _ hname _ ⟨⟩
        rw [haction] at hname
        cases hname
        exact ⟨hnamed, errors_showing hnamed⟩
      . exact fun _ _ => nofun
    . have hservice : service.run (edit s.current?) = (.ok saved, { service with store }) := by
        rw [Service.run, hrun]
      rw [saveBy_of_ok hstage hservice]
      constructor
      . simp [haction]
      . exact fun _ _ => nofun
      . exact fun _ => nofun
      . exact fun _ _ _ _ => nofun
      . rintro - _ ⟨⟩
        exact ⟨hstage, rfl, rfl⟩
  . rw [saveBy_of_ne hstage]
    constructor
    . simp [haction]
    . exact fun _ _ _ => rfl
    . exact fun _ _ => ⟨rfl, rfl, rfl, rfl⟩
    . exact fun h => absurd h hstage
    . exact fun _ _ => nofun

theorem acts_perform [Limits] (action : Action) (s : Session) (service : Service) :
    Acts action s service (action.perform s service) := by
  cases action with
  | openList => exact acts_moving rfl _
  | add => exact acts_moving rfl _
  | edit v => exact acts_moving rfl _
  | selectTab tab => exact acts_moving rfl _
  | cancel => exact acts_moving rfl (.ok s.cancel)
  | close => exact acts_moving rfl (.ok s.close)
  | saveValue name text => exact acts_saveBy rfl fun v => savesUnder_save s.selector v name text
  | saveResource name resource =>
    exact acts_saveBy rfl fun v => savesUnder_saveResource s.selector v name resource

end Acts

/--
After any actions the parts of a session belong together. Whatever the next action is, it touches
the store only if it saves and succeeds.
-/
theorem performAll_consistent [Limits] (selector : Option Selector) (service : Service)
    (actions : List Action) :
    let (s, service) := Action.performAll actions (new selector) service
    s.Consistent ∧ ∀ action, Acts action s service (action.perform s service) :=
  ⟨consistent_performAll (consistent_new selector) actions service, fun action =>
    acts_perform action _ _⟩

end Session

end PageBinding
