import PageBinding.Collection
import PageBinding.Store.Entity

/-!
This module contains the three collections of a store and their versions.
-/

namespace PageBinding

inductive CollectionName where
  | vars
  | resources
  | props
  deriving DecidableEq, Repr

namespace CollectionName

def text : CollectionName → Text
  | .vars => "variables"
  | .resources => "resources"
  | .props => "props"

def all : List CollectionName :=
  [.vars, .resources, .props]

def ofText? (t : Text) : Option CollectionName :=
  all.find? (·.text = t)

theorem ofText?_text (name : CollectionName) : ofText? name.text = some name := by
  cases name <;> rfl

end CollectionName

structure Collections where
  vars : Collection Entity
  resources : Collection Entity
  props : Collection Entity

namespace Collections

def empty : Collections :=
  ⟨.empty, .empty, .empty⟩

def get (c : Collections) : CollectionName → Collection Entity
  | .vars => c.vars
  | .resources => c.resources
  | .props => c.props

def set (c : Collections) (name : CollectionName) (collection : Collection Entity) : Collections :=
  match name with
  | .vars => { c with vars := collection }
  | .resources => { c with resources := collection }
  | .props => { c with props := collection }

@[simp]
theorem get_set_self (c : Collections) (name : CollectionName) (collection : Collection Entity) :
    (c.set name collection).get name = collection := by
  cases name <;> rfl

theorem get_set_of_ne (c : Collections) {name other : CollectionName}
    (collection : Collection Entity) (h : other ≠ name) :
    (c.set name collection).get other = c.get other := by
  cases name <;> cases other <;> first | rfl | exact absurd rfl h

/--
What is under a key. Null counts as nothing.
-/
def stored? (c : Collections) (name : CollectionName) (key : Text) : Option Entity :=
  ((c.get name).get? key).filter (· ≠ .raw .null)

def findVariable? (c : Collections) (id : Text) : Option Variable :=
  (c.vars.get? id).bind Entity.asVariable?

def variableList (c : Collections) : List Variable :=
  c.vars.values.filterMap Entity.asVariable?

def propertyList (c : Collections) : List Property :=
  c.props.values.filterMap Entity.asProperty?

def putVariable (c : Collections) (v : Variable) : Collections :=
  { c with vars := c.vars.insert v.id (.variable_ v) }

def putResource (c : Collections) (r : Resource) : Collections :=
  { c with resources := c.resources.insert r.id (.resource r) }

def putProperty (c : Collections) (p : Property) : Collections :=
  { c with props := c.props.insert p.id (.property p) }

end Collections

structure Versions where
  vars : Nat
  resources : Nat
  props : Nat
  deriving DecidableEq, Repr

namespace Versions

def zero : Versions :=
  ⟨0, 0, 0⟩

def get (v : Versions) : CollectionName → Nat
  | .vars => v.vars
  | .resources => v.resources
  | .props => v.props

def bump (v : Versions) : CollectionName → Versions
  | .vars => { v with vars := v.vars + 1 }
  | .resources => { v with resources := v.resources + 1 }
  | .props => { v with props := v.props + 1 }

end Versions

end PageBinding
