import PageBinding.Model.Checked

/-!
This module contains resources: descriptions of the fetches that supply the values of variables.
-/

namespace PageBinding

inductive Method where
  | get
  | post
  | put
  | delete
  deriving DecidableEq, Repr

namespace Method

def name : Method → Text
  | .get => "get"
  | .post => "post"
  | .put => "put"
  | .delete => "delete"

def table : List (Text × Method) :=
  [.get, .post, .put, .delete].map fun m => (name m, m)

end Method

structure Header where
  name : Text
  value : Text
  deriving DecidableEq, Repr

namespace Header

def read : Reader Header := fun path v => do
  let entries ← Reader.entries path v
  Checked.apply Header.mk (Reader.required "name" Reader.text path entries)
    |>.and (Reader.required "value" Reader.text path entries)

def describe (h : Header) : Value :=
  .object [("name", .text h.name), ("value", .text h.value)]

end Header

structure Resource where
  id : Text
  name : Text
  method : Method
  url : Text
  headers : List Header
  body : Option Text
  deriving DecidableEq, Repr

namespace Resource

def read (supply : IdSupply) (path : Path) (v : Value) : Checked Resource × IdSupply :=
  match Reader.entries path v with
  | .error problems => (.error problems, supply)
  | .ok entries =>
    let (id, supply) := Reader.id supply path entries
    let result := (Checked.apply Resource.mk id)
      |>.and (Reader.required "name" Reader.text path entries)
      |>.and (Reader.optional "method" .get (Reader.word Method.table) path entries)
      |>.and (Reader.required "url" Reader.text path entries)
      |>.and (Reader.optional "headers" [] (Reader.list Header.read) path entries)
      |>.and (Reader.optional "body" none (Reader.nullable Reader.text) path entries)
    (result, supply)

def describe (r : Resource) : Value :=
  .object [
    ("id", .text r.id), ("name", .text r.name), ("method", .text r.method.name),
    ("url", .text r.url), ("headers", .list (r.headers.map Header.describe)),
    ("body", match r.body with
      | some t => .text t
      | none => .null)]

end Resource

end PageBinding
