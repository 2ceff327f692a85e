import PageBinding.Expression.Evaluate
import PageBinding.Usage

/-!
This module contains the operations that edit variables and props. Each one checks its arguments
first and then commits at most one transaction, so one that fails leaves nothing behind but fresh
ids that it has taken.
-/

namespace PageBinding

variable [Limits]

/--
An operation on a store. It may fail, and the store it leaves then still counts.
-/
abbrev Edit (α : Type) := ExceptT Failure (StateM Store) α

namespace Edit

variable {α : Type}

def run (edit : Edit α) (s : Store) : Except Failure α × Store :=
  edit s

def ofExcept (result : Except Failure α) : Edit α :=
  ExceptT.mk (pure result)

/--
An operation that commits one transaction on the named collections. It tells the keys under which it
puts entities of its own.
-/
def commit (names : List CollectionName) (written : α → List (CollectionName × Text))
    (change : Collections → IdSupply → Except Failure (α × Collections × IdSupply)) : Edit α :=
  ExceptT.mk fun s => s.edit names change written

def takeId : Edit Text :=
  ExceptT.mk fun s =>
    let (id, s) := s.takeId
    (.ok id, s)

def requireInstance (selector : Option Selector) : Except Failure Text :=
  match selector with
  | none | some [] => .error .noInstance
  | some (instanceId :: _) => .ok instanceId

def requireName (name : Text) : Except Failure Unit :=
  if name.isEmpty then .error .nameRequired else .ok ()

def checkScope (s : Store) (variableId instanceId : Text) : Except Failure Unit :=
  if s.collections.vars.contains variableId then .ok ()
  else if (s.instances.componentOf? instanceId).isNone then .error (.instanceNotFound instanceId)
  else .ok ()

/--
The scope of a saved variable: its own if it exists, else the selected instance.
-/
def scopeFor (c : Collections) (variableId instanceId : Text) : Except Failure Text :=
  match c.stored? .vars variableId with
  | none => .ok instanceId
  | some (.variable_ existing) => .ok existing.scope
  | some entity => .error (entity.lacks "scope_instance_id")

def dropResource (c : Collections) (variableId : Text) (kept : Option Text) : Collections :=
  match (c.findVariable? variableId).map Variable.content with
  | some (.resource resourceId) =>
    if kept = some resourceId then c else { c with resources := c.resources.erase resourceId }
  | _ => c

/--
The variable under an id with a new name. What is stored there has to be a variable that can be
copied.
-/
def renamed (c : Collections) (variableId name : Text) : Except Failure Variable :=
  match c.vars.get? variableId with
  | none => .error (.unknownKey variableId)
  | some (.variable_ existing) => .ok { existing with name }
  | some entity => .error (entity.lacks "model_copy")

/--
Rename a variable of any kind. The stored variable is renamed, not the one that is given.
-/
def rename (v : Variable) (name : Text) : Edit Variable := do
  ofExcept (requireName name)
  if !(← getThe Store).collections.vars.contains v.id then throw (.variableNotFound v.id)
  commit [.vars] (fun _ => []) fun c ids => do
    let renamed ← renamed c v.id name
    return (renamed, { c with vars := c.vars.insert v.id (.variable_ renamed) }, ids)

def targetId (v : Option Variable) (instanceId : Text) : Edit Text := do
  let id ← match v with
    | some v => pure v.id
    | none => takeId
  ofExcept (checkScope (← getThe Store) id instanceId)
  return id

/--
Create a variable from the text of its value, or give an existing one that value. Parameters are
only renamed. A variable with a resource loses it.
-/
def save (selector : Option Selector) (v : Option Variable) (name text : Text) : Edit Variable := do
  ofExcept (requireName name)
  match v.filter Variable.isParameter with
  | some parameter => rename parameter name
  | none =>
    let value ← ofExcept (Expression.evaluate text)
    let instanceId ← ofExcept (requireInstance selector)
    let id ← targetId v instanceId
    commit [.vars, .resources] (fun saved => [(.vars, saved.id)]) fun c ids => do
      let scope ← scopeFor c id instanceId
      let saved : Variable := ⟨id, name, scope, .value (TypedValue.ofValue value)⟩
      return (saved, (dropResource c id none).putVariable saved, ids)

/--
Create a variable together with the resource that supplies its value, or give an existing one that
resource. Parameters are only renamed.
-/
def saveResource (selector : Option Selector) (v : Option Variable) (name : Text)
    (resource : Resource) : Edit Variable := do
  ofExcept (requireName name)
  match v.filter Variable.isParameter with
  | some parameter => rename parameter name
  | none =>
    let instanceId ← ofExcept (requireInstance selector)
    let id ← targetId v instanceId
    let written (saved : Variable) : List (CollectionName × Text) :=
      [(.vars, saved.id), (.resources, resource.id)]
    commit [.vars, .resources] written fun c ids => do
      let saved : Variable := ⟨id, name, ← scopeFor c id instanceId, .resource resource.id⟩
      let c := (dropResource c id (some resource.id)).putResource resource
      return (saved, c.putVariable saved, ids)

def requireVariable (c : Collections) (variableId : Text) : Except Failure Entity :=
  match c.stored? .vars variableId with
  | some entity => .ok entity
  | none => .error (.variableNotFound variableId)

def eraseVariable (variableId : Text) : Edit Unit :=
  commit [.vars] (fun _ => []) fun c ids =>
    .ok ((), { c with vars := c.vars.erase variableId }, ids)

/--
Delete a variable that no prop refers to. The props are scanned here, with the given effects allowed
in actions.
-/
def delete (variableId : Text) (effects : Option (List Text)) : Edit Unit := do
  let collections := (← getThe Store).collections
  let entity ← ofExcept (requireVariable collections variableId)
  let used ← ofExcept (Usage.used effects collections.props.values)
  ofExcept (Usage.ensureDeletable used entity)
  eraseVariable variableId

def existingProperty (c : Collections) (propertyId : Text) : Except Failure (Option Property) :=
  match c.stored? .props propertyId with
  | none => .ok none
  | some (.property existing) => .ok (some existing)
  | some entity@(.raw _) => .error (entity.lacks "id")
  | some entity => .error (entity.lacks "instance_id")

/--
Give a prop a value, or create one on the selected instance. A prop that exists keeps its instance
and its name.
-/
def setProperty (selector : Option Selector) (propertyId : Option Text) (name : Text)
    (value : PropertyValue) : Edit Property := do
  let instanceId ← ofExcept (requireInstance selector)
  commit [.props] (fun property => [(.props, property.id)]) fun c ids => do
    let existing ← match propertyId with
      | some propertyId => existingProperty c propertyId
      | none => pure none
    let (property, ids) := match existing with
      | some existing => ({ existing with value }, ids)
      | none =>
        let (id, ids) := ids.take
        (⟨id, instanceId, name, value⟩, ids)
    return (property, c.putProperty property, ids)

/--
The variables that a selector sees. If there is an instance to see anything from, nothing but
variables may be stored with them.
-/
def visible (s : Store) (collectionComponent : Text) (selector : Option Selector) :
    Except Failure (List Variable) :=
  if (selector.getD []).isEmpty then
    .ok []
  else
    (s.collections.vars.values.mapM Entity.toVariable).map
      (Scope.visible s.instances collectionComponent selector)

def bind (collectionComponent : Text) (selector : Option Selector) (propertyId : Option Text)
    (name : Text) (v : Variable) : Edit Property := do
  let seen ← ofExcept (visible (← getThe Store) collectionComponent selector)
  let identifier ← ofExcept (Reference.encode? v.id)
  if seen.all fun candidate => candidate.id ≠ v.id then throw (.unknownIdentifier identifier)
  setProperty selector propertyId name (.expression identifier)

def reset (selector : Option Selector) (propertyId : Option Text) (name : Text)
    (starting : Option PropertyValue) : Edit (Option Property) :=
  match starting, propertyId with
  | some value, _ => do return some (← setProperty selector propertyId name value)
  | none, some propertyId => do
    commit [.props] (fun _ => []) fun c ids =>
      .ok ((), { c with props := c.props.erase propertyId }, ids)
    return none
  | none, none => return none

def removeExpression (selector : Option Selector) (propertyId : Option Text) (name : Text)
    (declared : Option PropertyMeta) : Edit (Option Property) :=
  match declared with
  | some declared => do reset selector propertyId name (← ofExcept declared.startingValue)
  | none => reset selector propertyId name none

/--
Bind a prop to an expression, all of whose identifiers must be variables that the selector sees. A
blank text removes the expression.
-/
def setExpression (collectionComponent : Text) (selector : Option Selector)
    (propertyId : Option Text) (name text : Text) (declared : Option PropertyMeta) :
    Edit (Option Property) := do
  if text.isBlank then
    removeExpression selector propertyId name declared
  else
    let seen ← ofExcept (visible (← getThe Store) collectionComponent selector)
    let aliases ← ofExcept (Scope.aliases seen)
    let code ← ofExcept (Expression.checkNames .expression aliases.contains text)
    return some (← setProperty selector propertyId name (.expression code))

end Edit

end PageBinding
