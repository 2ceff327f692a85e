import PageBinding.Expression.Names
import PageBinding.Model.Settings
import PageBinding.Store

/-!
This module contains the usage of variables: which of them the props refer to, and which may be
deleted for all that.
-/

namespace PageBinding

variable [Limits]

namespace Usage

/--
The ids that a text refers to. A text that is no expression or action refers to none.
-/
def ofText (mode : Expression.Mode) (t : Text) : Except Failure (List Text) :=
  match Expression.referencedIds mode t with
  | .ok ids => .ok ids
  | .error failure => if failure.isParse then .ok [] else .error failure

def texts (effects : Option (List Text)) (p : Property) : List (Expression.Mode × Text) :=
  match p.value with
  | .literal .. => []
  | .expression text => [(.expression, text)]
  | .action steps => steps.map fun step => (.ofEffects effects, step.code)

/--
The ids that an entity among the props refers to. A variable there refers to none.
-/
def ofEntity (effects : Option (List Text)) (entity : Entity) : Except Failure (List Text) :=
  match entity with
  | .property p => (texts effects p).flatMapM fun (mode, t) => ofText mode t
  | .variable_ _ => .ok []
  | .resource _ | .raw _ => .error (entity.lacks "kind")

def used (effects : Option (List Text)) (props : List Entity) : Except Failure (List Text) :=
  (props.flatMapM (ofEntity effects)).map Text.distinct

/--
Refuse to delete a parameter, which belongs to its instance, or a variable that is used. A prop
among the variables is neither, unless its id is that of a used one.
-/
def ensureDeletable (used : List Text) (entity : Entity) : Except Failure Unit :=
  match entity with
  | .variable_ v =>
    if v.isParameter then .error (.parameterKept v.id)
    else if v.id ∈ used then .error (.variableInUse v.id)
    else .ok ()
  | .property p => if p.id ∈ used then .error (.variableInUse p.id) else .ok ()
  | .resource _ | .raw _ => .error (entity.lacks "kind")

end Usage

/--
The used variables of a store, remembered together with the version of the props that they were
found in.
-/
structure Tracker where
  effects : Option (List Text)
  version : Option Nat
  remembered : List Text

namespace Tracker

def new (effects : Option (List Text)) : Tracker :=
  ⟨effects, none, []⟩

/--
The used variables of a store. The props are only scanned if they have changed since the last time.
-/
def used (t : Tracker) (s : Store) : Except Failure (List Text) × Tracker :=
  if t.version = some s.versions.props then
    (.ok t.remembered, t)
  else
    match Usage.used t.effects s.collections.props.values with
    | .ok ids => (.ok ids, { t with version := some s.versions.props, remembered := ids })
    | .error failure => (.error failure, t)

def isUsed (t : Tracker) (s : Store) (variableId : Text) : Except Failure Bool × Tracker :=
  let (ids, t) := t.used s
  (ids.map fun ids => decide (variableId ∈ ids), t)

/--
Whether a variable may be deleted. The props do not matter for parameters.
-/
def isDeletable (t : Tracker) (s : Store) (v : Variable) : Except Failure Bool × Tracker :=
  if v.isParameter then
    (.ok false, t)
  else
    let (isUsed, t) := t.isUsed s v.id
    (isUsed.map (!·), t)

def ensureDeletable (t : Tracker) (s : Store) (entity : Entity) : Except Failure Unit × Tracker :=
  let (ids, t) := t.used s
  (ids.bind fun ids => Usage.ensureDeletable ids entity, t)

end Tracker

end PageBinding
