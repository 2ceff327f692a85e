import PageBinding.Workspace

/-!
This module contains the edits of a workspace, with instances, variables and props given by their
ids and names.
-/

namespace PageBinding

variable [Limits]

namespace Workspace

def propertyOf? (w : Workspace) (instanceId name : Text) : Option Property :=
  w.service.store.collections.propertyList.find? fun p => p.instanceId = instanceId && p.name = name

def requireVariable (w : Workspace) (variableId : Text) : Except Failure Variable :=
  match w.service.store.collections.findVariable? variableId with
  | some v => .ok v
  | none => .error (.variableNotFound variableId)

def setValue (w : Workspace) (instanceId name text : Text) (variableId : Option Text) :
    Except Failure Variable × Service :=
  let arguments : Except Failure (Option Variable × Selector) := do
    let v ← match variableId with
      | none => pure none
      | some variableId => (w.requireVariable variableId).map some
    return (v, ← w.project.selector instanceId)
  match arguments with
  | .error failure => (.error failure, w.service)
  | .ok (v, selector) => w.service.save (some selector) v name text

def delete (w : Workspace) (variableId : Text) : Except Failure Unit × Service :=
  w.service.delete variableId

def bind (w : Workspace) (instanceId name variableId : Text) :
    Except Failure (Variable × Property) × Service :=
  let arguments : Except Failure (Variable × Selector) := do
    let v ← w.requireVariable variableId
    return (v, ← w.project.selector instanceId)
  match arguments with
  | .error failure => (.error failure, w.service)
  | .ok (v, selector) =>
    let propertyId := (w.propertyOf? instanceId name).map Property.id
    let (result, service) := w.service.bind (some selector) propertyId name v
    (result.map fun p => (v, p), service)

def setExpression (w : Workspace) (instanceId name text : Text) (declared : Option PropertyMeta) :
    Except Failure (Option Property) × Service :=
  match w.project.selector instanceId with
  | .error failure => (.error failure, w.service)
  | .ok selector =>
    let propertyId := (w.propertyOf? instanceId name).map Property.id
    w.service.setExpression (some selector) propertyId name text declared

end Workspace

end PageBinding
