import PageBinding.Collection
import PageBinding.Model.Instance
import PageBinding.Model.Variable
import PageBinding.Reference

/-!
This module contains scopes: which variables an instance can see, and under which identifiers.
-/

namespace PageBinding

abbrev InstanceTree := Collection Instance

namespace InstanceTree

def ofInstances (instances : List Instance) : InstanceTree :=
  Collection.ofPairs (instances.map fun i => (i.id, i))

def componentOf? (tree : InstanceTree) (instanceId : Text) : Option Text :=
  (tree.get? instanceId).map Instance.component

end InstanceTree

namespace Scope

/--
Whether a variable is a parameter of a collection that exists only for the children of the
collection, and the instance is that collection.
-/
def isHidden (tree : InstanceTree) (collectionComponent instanceId : Text) (v : Variable) : Bool :=
  v.isParameter && v.scope = instanceId && tree.componentOf? instanceId = some collectionComponent

/--
The variables that belong to an instance or to one of its ancestors, in the given order. The
parameters of a collection are hidden from itself.
-/
def visible (tree : InstanceTree) (collectionComponent : Text) (selector : Option Selector)
    (vars : List Variable) : List Variable :=
  match selector with
  | none | some [] => []
  | some (instanceId :: ancestors) =>
    vars.filter fun v =>
      !isHidden tree collectionComponent instanceId v && v.scope ∈ instanceId :: ancestors

def aliases (vars : List Variable) : Except Failure (Collection Text) := do
  let pairs ← vars.mapM fun v => do return (← Reference.encode? v.id, v.name)
  return Collection.ofPairs pairs

end Scope

end PageBinding
