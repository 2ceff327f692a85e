import PageBinding.Model.Settings
import PageBinding.Store

/-!
This module contains projects: the page tree with the variables, resources and props of its
instances, as they are kept in one file.
-/

namespace PageBinding

structure Project where
  instances : List Instance
  vars : List Variable
  resources : List Resource
  props : List Property
  deriving DecidableEq, Repr

namespace Project

def repeated? (seen ts : List Text) : Option Text :=
  match ts with
  | [] => none
  | t :: rest => if t ∈ seen then some t else repeated? (t :: seen) rest

def idsByPart (p : Project) : List (Text × List Text) := [
  ("instances", p.instances.map Instance.id),
  ("variables", p.vars.map Variable.id),
  ("resources", p.resources.map Resource.id),
  ("props", p.props.map Property.id)]

/--
What is wrong between the parts of a project: an id that is given twice, or a variable that belongs
to no instance. Only the first such problem counts.
-/
def conflict? (p : Project) : Option Problem.Kind :=
  let duplicate := p.idsByPart.findSome? fun (part, ids) =>
    (repeated? [] ids).map (Problem.Kind.duplicateId · part)
  let orphan := p.vars.find? fun v => v.scope ∉ p.instances.map Instance.id
  duplicate.or (orphan.map fun v => .unknownScope v.id v.scope)

def check (p : Project) : Checked Project :=
  match p.conflict? with
  | some kind => Checked.problem [] kind
  | none => .ok p

/--
Read a project. Ids that are missing are taken from the supply, in the order of the parts.
-/
def read (supply : IdSupply) (v : Value) : Checked Project × IdSupply :=
  match Reader.entries [] v with
  | .error problems => (.error problems, supply)
  | .ok entries =>
    let instances := Reader.optional "instances" [] (Reader.list (Instance.read true)) [] entries
    let (vars, supply) := Reader.entities "variables" Variable.read supply [] entries
    let (resources, supply) := Reader.entities "resources" Resource.read supply [] entries
    let (props, supply) := Reader.entities "props" Property.read supply [] entries
    let parts := (Checked.apply Project.mk instances).and vars |>.and resources |>.and props
    (parts.bind check, supply)

def describeWith (p : Project) (c : Collections) : Value :=
  let entities (c : Collection Entity) : Value := .list (c.values.map Entity.describe)
  .object [
    ("instances", .list (p.instances.map Instance.describe)),
    ("variables", entities c.vars),
    ("resources", entities c.resources),
    ("props", entities c.props)]

def fileWith (p : Project) (c : Collections) : Value :=
  (p.describeWith c).kept

def toCollections (p : Project) : Collections where
  vars := .ofPairs (p.vars.map fun v => (v.id, .variable_ v))
  resources := .ofPairs (p.resources.map fun r => (r.id, .resource r))
  props := .ofPairs (p.props.map fun prop => (prop.id, .property prop))

def tree (p : Project) : InstanceTree :=
  .ofInstances p.instances

def toStore (p : Project) (ids transactionIds : IdSupply) : Store :=
  .new p.toCollections p.tree ids transactionIds

def unvisited (p : Project) (visited : Selector) : List Text :=
  p.tree.keys.filter (· ∉ visited)

theorem length_unvisited_append_lt {p : Project} {visited : Selector} {id : Text} {i : Instance}
    (h : p.tree.get? id = some i) (hid : id ∉ visited) :
    (p.unvisited (visited ++ [id])).length < (p.unvisited visited).length := by
  have hsplit : p.unvisited (visited ++ [id]) = (p.unvisited visited).filter (· ≠ id) := by
    unfold unvisited
    rw [List.filter_filter]
    congr 1
    funext key
    simp [not_or, and_comm]
  rw [hsplit]
  apply List.length_filter_lt_length_iff_exists.mpr
  exact ⟨id, by simp [unvisited, Collection.mem_keys_of_get? h, hid], by simp⟩

/--
The way from an instance up to the root or to a parent that is not declared, below which the given
instances have been passed.
-/
def climb (p : Project) (below : Selector) (id : Text) : Except Failure Selector :=
  if id ∈ below then
    .error (.projectFile "instances" (.cycle id))
  else
    match _h : p.tree.get? id with
    | none => .ok (below ++ [id])
    | some i =>
      match i.parent with
      | none => .ok (below ++ [id])
      | some parent => climb p (below ++ [id]) parent
termination_by (p.unvisited below).length
decreasing_by exact length_unvisited_append_lt (by assumption) (by assumption)

def selector (p : Project) (id : Text) : Except Failure Selector :=
  if p.tree.contains id then p.climb [] id else .error (.instanceNotFound id)

/--
Whether two projects that have been read from files are the same, as far as the values of their
entities go. In files there is only one value that is not a number.
-/
def agrees (a b : Project) : Bool :=
  a.instances = b.instances && a.resources = b.resources &&
    allAgree Variable.agrees a.vars b.vars && allAgree Property.agrees a.props b.props
where
  allAgree {α : Type} [DecidableEq α] (agree : α → α → Bool) (xs ys : List α) : Bool :=
    xs.length == ys.length && (xs.zip ys).all fun (x, y) => x = y || agree x y

end Project

end PageBinding
