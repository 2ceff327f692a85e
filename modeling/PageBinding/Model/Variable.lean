import PageBinding.Model.Checked

/-!
This module contains variables: named values that belong to an instance of the page tree and that
expressions at that instance and below it can refer to.
-/

namespace PageBinding

inductive TypedValue where
  | string (t : Text)
  | number (n : Number)
  | boolean (b : Bool)
  /-- Structured data: lists, objects and null. -/
  | json (v : Value)
  deriving DecidableEq, Repr

namespace TypedValue

def ofValue : Value → TypedValue
  | .text t => .string t
  | .bool b => .boolean b
  | .number n => .number n
  | v => .json v

def toValue : TypedValue → Value
  | .string t => .text t
  | .number n => .number n
  | .boolean b => .bool b
  | .json v => v

@[simp]
theorem toValue_ofValue (v : Value) : (ofValue v).toValue = v := by
  cases v <;> rfl

def typeName : TypedValue → Text
  | .string _ => "string"
  | .number _ => "number"
  | .boolean _ => "boolean"
  | .json _ => "json"

/--
Whether two literals are worth the same. Literals of different types never are.
-/
def agrees (a b : TypedValue) : Bool :=
  a.typeName = b.typeName && a.toValue.agrees b.toValue

inductive Tag where
  | string
  | number
  | boolean
  | json

def tags : List (Text × Tag) :=
  [("string", .string), ("number", .number), ("boolean", .boolean), ("json", .json)]

def read : Reader TypedValue := fun path v => do
  let (tag, path, entries) ← Reader.tagged "type" tags path v
  match tag with
  | .string => (Reader.required "value" Reader.text path entries).map .string
  | .number => (Reader.required "value" Reader.number path entries).map .number
  | .boolean => (Reader.required "value" Reader.bool path entries).map .boolean
  | .json => (Reader.optional "value" .null Reader.any path entries).map .json

/--
The data that describes a literal. Structured data has no place for numbers that are not finite.
-/
def describe (v : TypedValue) : Value :=
  let value := match v with
    | .json v => v.finite
    | v => v.toValue
  .object [("type", .text v.typeName), ("value", value)]

end TypedValue

inductive Content where
  | value (v : TypedValue)
  | resource (resourceId : Text)
  /-- A value that is supplied when the page is rendered, such as the item of a collection. -/
  | parameter
  deriving DecidableEq, Repr

namespace Content

def kindName : Content → Text
  | .value _ => "value"
  | .resource _ => "resource"
  | .parameter => "parameter"

def isParameter : Content → Bool
  | .parameter => true
  | _ => false

def agrees : Content → Content → Bool
  | .value a, .value b => a.agrees b
  | .resource a, .resource b => a = b
  | .parameter, .parameter => true
  | _, _ => false

end Content

/--
A variable. Its id and its scope, the instance that it belongs to, stay as long as it exists.
-/
structure Variable where
  id : Text
  name : Text
  scope : Text
  content : Content
  deriving DecidableEq, Repr

namespace Variable

def isParameter (v : Variable) : Bool :=
  v.content.isParameter

def literal? (v : Variable) : Option Value :=
  match v.content with
  | .value literal => some literal.toValue
  | _ => none

def agrees (a b : Variable) : Bool :=
  a.id = b.id && a.name = b.name && a.scope = b.scope && a.content.agrees b.content

inductive Tag where
  | value
  | resource
  | parameter

def tags : List (Text × Tag) :=
  [("value", .value), ("resource", .resource), ("parameter", .parameter)]

def read (supply : IdSupply) (path : Path) (v : Value) : Checked Variable × IdSupply :=
  match Reader.tagged "kind" tags path v with
  | .error problems => (.error problems, supply)
  | .ok (tag, path, entries) =>
    let (id, supply) := Reader.id supply path entries
    let content : Checked Content := match tag with
      | .value => (Reader.required "value" TypedValue.read path entries).map .value
      | .resource => (Reader.required "resource_id" Reader.text path entries).map .resource
      | .parameter => .ok .parameter
    let result := (Checked.apply Variable.mk id)
      |>.and (Reader.required "name" Reader.text path entries)
      |>.and (Reader.required "scope_instance_id" Reader.text path entries)
      |>.and content
    (result, supply)

def describe (v : Variable) : Value :=
  let own : List (Text × Value) := match v.content with
    | .value literal => [("value", literal.describe)]
    | .resource resourceId => [("resource_id", .text resourceId)]
    | .parameter => []
  let shared : List (Text × Value) := [
    ("id", .text v.id), ("name", .text v.name), ("scope_instance_id", .text v.scope),
    ("kind", .text v.content.kindName)]
  .object (shared ++ own)

end Variable

end PageBinding
