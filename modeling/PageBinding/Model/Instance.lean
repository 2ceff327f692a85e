import PageBinding.Model.Checked

/-!
This module contains the instances of components that make up the page tree.
-/

namespace PageBinding

/--
An instance of a component. The root of the tree has no parent.
-/
structure Instance where
  id : Text
  component : Text
  label : Option Text
  parent : Option Text
  deriving DecidableEq, Repr

/--
A path in the page tree: the ids of an instance and of its ancestors, that instance first.
-/
abbrev Selector := List Text

namespace Instance

def ofOptional (t : Option Text) : Value :=
  match t with
  | some t => .text t
  | none => .null

def read (linked : Bool) : Reader Instance := fun path v => do
  let entries ← Reader.entries path v
  Checked.apply Instance.mk (Reader.required "id" Reader.text path entries)
    |>.and (Reader.required "component" Reader.text path entries)
    |>.and (Reader.optional "label" none (Reader.nullable Reader.text) path entries)
    |>.and (if linked then
        Reader.optional "parent" none (Reader.nullable Reader.text) path entries
      else .ok none)

def describe (i : Instance) : Value :=
  .object [
    ("id", .text i.id), ("component", .text i.component), ("label", ofOptional i.label),
    ("parent", ofOptional i.parent)]

end Instance

end PageBinding
