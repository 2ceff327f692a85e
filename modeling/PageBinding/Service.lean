import PageBinding.Edit

/-!
This module contains the service: a store with its settings and a tracker of the used variables.
-/

namespace PageBinding

variable [Limits]

structure Service where
  store : Store
  settings : Settings
  tracker : Tracker

namespace Service

variable {α : Type}

def new (store : Store) (settings : Settings) : Service :=
  ⟨store, settings, .new (some settings.effects)⟩

def run (s : Service) (edit : Edit α) : Except Failure α × Service :=
  let (result, store) := edit.run s.store
  (result, { s with store })

def ask (s : Service) (question : Tracker → Store → Except Failure α × Tracker) :
    Except Failure α × Service :=
  let (result, tracker) := question s.tracker s.store
  (result, { s with tracker })

def visible (s : Service) (selector : Option Selector) : Except Failure (List Variable) :=
  Edit.visible s.store s.settings.collectionComponent selector

def save (s : Service) (selector : Option Selector) (v : Option Variable) (name text : Text) :
    Except Failure Variable × Service :=
  s.run (Edit.save selector v name text)

def saveResource (s : Service) (selector : Option Selector) (v : Option Variable) (name : Text)
    (resource : Resource) : Except Failure Variable × Service :=
  s.run (Edit.saveResource selector v name resource)

def rename (s : Service) (v : Variable) (name : Text) : Except Failure Variable × Service :=
  s.run (Edit.rename v name)

def delete (s : Service) (variableId : Text) : Except Failure Unit × Service :=
  match Edit.requireVariable s.store.collections variableId with
  | .error failure => (.error failure, s)
  | .ok entity =>
    match s.ask fun tracker store => tracker.ensureDeletable store entity with
    | (.error failure, s) => (.error failure, s)
    | (.ok (), s) => s.run (Edit.eraseVariable variableId)

def bind (s : Service) (selector : Option Selector) (propertyId : Option Text) (name : Text)
    (v : Variable) : Except Failure Property × Service :=
  s.run (Edit.bind s.settings.collectionComponent selector propertyId name v)

def setExpression (s : Service) (selector : Option Selector) (propertyId : Option Text)
    (name text : Text) (declared : Option PropertyMeta) :
    Except Failure (Option Property) × Service :=
  s.run (Edit.setExpression s.settings.collectionComponent selector propertyId name text declared)

def removeExpression (s : Service) (selector : Option Selector) (propertyId : Option Text)
    (name : Text) (declared : Option PropertyMeta) : Except Failure (Option Property) × Service :=
  s.run (Edit.removeExpression selector propertyId name declared)

def isDeletable (s : Service) (v : Variable) : Except Failure Bool × Service :=
  s.ask fun tracker store => tracker.isDeletable store v

end Service

end PageBinding
