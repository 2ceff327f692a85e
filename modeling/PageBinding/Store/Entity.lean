import PageBinding.Model.Property
import PageBinding.Model.Resource
import PageBinding.Model.Variable

/-!
This module contains what the collections of a store hold. A transaction may put any data under a
key, so each collection can hold every kind of entity.
-/

namespace PageBinding

inductive Entity where
  | variable_ (v : Variable)
  | resource (r : Resource)
  | property (p : Property)
  | raw (v : Value)
  deriving DecidableEq, Repr

namespace Entity

def asVariable? : Entity → Option Variable
  | .variable_ v => some v
  | _ => none

def asResource? : Entity → Option Resource
  | .resource r => some r
  | _ => none

def asProperty? : Entity → Option Property
  | .property p => some p
  | _ => none

def kindName : Entity → Text
  | .variable_ v =>
    match v.content with
    | .value _ => "ValueVariable"
    | .resource _ => "ResourceVariable"
    | .parameter => "ParameterVariable"
  | .resource _ => "Resource"
  | .property p =>
    match p.value with
    | .literal .. => "LiteralProp"
    | .expression _ => "ExpressionProp"
    | .action _ => "ActionProp"
  | .raw v => v.kindName

def lacks (entity : Entity) (field : Text) : Failure :=
  .missingField entity.kindName field

/--
The variable that an entity is, where only variables can be used. Of what a variable has, its kind
is looked at first and its scope next; props have a kind too.
-/
def toVariable : Entity → Except Failure Variable
  | .variable_ v => .ok v
  | entity@(.property _) => .error (entity.lacks "scope_instance_id")
  | entity => .error (entity.lacks "kind")

def describe : Entity → Value
  | .variable_ v => v.describe
  | .resource r => r.describe
  | .property p => p.describe
  | .raw v => v.finite

/--
Whether two entities are worth the same. A value that is not a number is never worth the same as
another one, so an entity that holds one does not even agree with itself.
-/
def agrees : Entity → Entity → Bool
  | .variable_ a, .variable_ b => a.agrees b
  | .resource a, .resource b => a = b
  | .property a, .property b => a.agrees b
  | .raw a, .raw b => a.agrees b
  | _, _ => false

/--
Whether an entity that has been carried over counts as the one it was: it has to be the same in
every part, and a value that is not a number may be one of the parts but not the whole.
-/
def remains (after before : Entity) : Bool :=
  after = before && after ≠ .raw (.number (.float .nan))

end Entity

end PageBinding
