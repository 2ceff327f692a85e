import PageBinding.Failure
import PageBinding.Model.Checked

/-!
This module contains props: named bindings of an instance to a literal, to an expression, or to the
steps of an action.
-/

namespace PageBinding

inductive LiteralType where
  | string
  | number
  | boolean
  | stringList
  | json
  deriving DecidableEq, Repr

def LiteralType.name : LiteralType → Text
  | .string => "string"
  | .number => "number"
  | .boolean => "boolean"
  | .stringList => "string[]"
  | .json => "json"

/--
A step of an action. The arguments are names that its code may use besides the variables in scope.
-/
structure ActionStep where
  args : List Text
  code : Text
  deriving DecidableEq, Repr

namespace ActionStep

def read : Reader ActionStep := fun path v => do
  let entries ← Reader.entries path v
  Checked.apply (fun _ => mk)
      (Reader.optional "type" () (Reader.word [("execute", ())]) path entries)
    |>.and (Reader.optional "args" [] (Reader.list Reader.text) path entries)
    |>.and (Reader.required "code" Reader.text path entries)

def describe (step : ActionStep) : Value :=
  .object [
    ("type", .text "execute"), ("args", .list (step.args.map Value.text)),
    ("code", .text step.code)]

end ActionStep

inductive PropertyValue where
  | literal (type : LiteralType) (value : Value)
  | expression (text : Text)
  | action (steps : List ActionStep)
  deriving DecidableEq, Repr

namespace PropertyValue

def kindName : PropertyValue → Text
  | .literal .. => "literal"
  | .expression _ => "expression"
  | .action _ => "action"

def agrees : PropertyValue → PropertyValue → Bool
  | .literal s v, .literal t w => s = t && v.agrees w
  | .expression a, .expression b => a = b
  | .action a, .action b => a = b
  | _, _ => false

inductive Tag where
  | literal
  | expression
  | action

def tags : List (Text × Tag) :=
  [("literal", .literal), ("expression", .expression), ("action", .action)]

def literalTypes : List (Text × LiteralType) :=
  [.string, .number, .boolean, .stringList, .json].map fun type => (LiteralType.name type, type)

def readFields (tag : Tag) (path : Path) (entries : List (Text × Value)) : Checked PropertyValue :=
  match tag with
  | .literal =>
    Checked.apply PropertyValue.literal
        (Reader.required "type" (Reader.word literalTypes) path entries)
      |>.and (Reader.required "value" Reader.any path entries)
  | .expression => (Reader.required "value" Reader.text path entries).map .expression
  | .action => (Reader.optional "value" [] (Reader.list ActionStep.read) path entries).map .action

def read : Reader PropertyValue := fun path v => do
  let (tag, path, entries) ← Reader.tagged "kind" tags path v
  readFields tag path entries

/--
The fields that describe a binding. Literals have no place for numbers that are not finite.
-/
def fields (v : PropertyValue) : List (Text × Value) :=
  match v with
  | .literal type value =>
    [("kind", .text "literal"), ("type", .text type.name), ("value", value.finite)]
  | .expression text => [("kind", .text "expression"), ("value", .text text)]
  | .action steps =>
    [("kind", .text "action"), ("value", .list (steps.map ActionStep.describe))]

end PropertyValue

structure Property where
  id : Text
  instanceId : Text
  name : Text
  value : PropertyValue
  deriving DecidableEq, Repr

namespace Property

def agrees (a b : Property) : Bool :=
  a.id = b.id && a.instanceId = b.instanceId && a.name = b.name && a.value.agrees b.value

def read (supply : IdSupply) (path : Path) (v : Value) : Checked Property × IdSupply :=
  match Reader.tagged "kind" PropertyValue.tags path v with
  | .error problems => (.error problems, supply)
  | .ok (tag, path, entries) =>
    let (id, supply) := Reader.id supply path entries
    let build (value : PropertyValue) (id instanceId name : Text) : Property :=
      ⟨id, instanceId, name, value⟩
    let result := (Checked.apply build (PropertyValue.readFields tag path entries)).and id
      |>.and (Reader.required "instance_id" Reader.text path entries)
      |>.and (Reader.required "name" Reader.text path entries)
    (result, supply)

def describe (p : Property) : Value :=
  let own : List (Text × Value) :=
    [("id", .text p.id), ("instance_id", .text p.instanceId), ("name", .text p.name)]
  .object (p.value.fields ++ own)

end Property

/--
What is declared of a prop: the type of its values and a hint at how it is edited.
-/
structure PropertyMeta where
  type : Text
  control : Option Text
  required : Bool
  default : Value
  deriving DecidableEq, Repr

namespace PropertyMeta

def ofType (type : Text) : PropertyMeta :=
  ⟨type, none, false, .null⟩

def read : Reader PropertyMeta := fun path v => do
  let entries ← Reader.entries path v
  Checked.apply PropertyMeta.mk (Reader.required "type" Reader.text path entries)
    |>.and (Reader.optional "control" none (Reader.nullable Reader.text) path entries)
    |>.and (Reader.optional "required" false Reader.boolWord path entries)
    |>.and (Reader.optional "default_value" .null Reader.any path entries)

/--
The parts of a piece of data one by one: items, keys or code points.
-/
def parts (v : Value) : Except Failure (List Value) :=
  match v with
  | .list items => .ok items
  | .object entries => .ok (entries.map fun entry => .text entry.1)
  | .text t => .ok (t.map fun c => .text [c])
  | .null | .bool _ | .number _ => .error (.notIterable v.kindName)

/--
The binding that a prop gets back when its expression is removed, if one can be told from what is
declared.
-/
def startingValue (m : PropertyMeta) : Except Failure (Option PropertyValue) :=
  let defaultOr (v : Value) : Value := if m.default = .null then v else m.default
  if m.type = Text.ofString "string" && m.control ≠ some "file" && m.control ≠ some "url" then
    .ok (some (.literal .string (defaultOr (.text []))))
  else if m.type = Text.ofString "number" then
    .ok (some (.literal .number (defaultOr (.number (.int 0)))))
  else if m.type = Text.ofString "boolean" then
    .ok (some (.literal .boolean (defaultOr (.bool false))))
  else if m.type = Text.ofString "string[]" then do
    let items ← parts (defaultOr (.list []))
    return some (.literal .stringList (.list items))
  else if m.type = Text.ofString "action" || m.control = some "action" then
    .ok (some (.action []))
  else
    .ok none

end PropertyMeta

end PageBinding
