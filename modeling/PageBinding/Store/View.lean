import PageBinding.Store.Collections

/-!
This module contains the views of collections that a transaction works on, and the changes that
they amount to.
-/

namespace PageBinding

/--
What became of one key. Nothing before is an insertion, nothing after is a deletion.
-/
structure Change where
  collection : CollectionName
  key : Text
  before : Option Entity
  after : Option Entity
  deriving DecidableEq, Repr

def Change.describe (c : Change) : Value :=
  let side (entity : Option Entity) : Value := (entity.map Entity.describe).getD .null
  .object [
    ("collection", .text c.collection.text), ("key", .text c.key), ("before", side c.before),
    ("after", side c.after)]

/--
A view of a collection: what it was when the transaction began, and what the transaction has made of
it. Nothing of that reaches the store before the transaction is committed.
-/
structure View where
  name : CollectionName
  base : Collection Entity
  staged : Collection Entity
  written : List Text

namespace View

def start (name : CollectionName) (collection : Collection Entity) : View :=
  ⟨name, collection, collection, []⟩

def get? (v : View) (key : Text) : Option Entity :=
  v.staged.get? key

def contains (v : View) (key : Text) : Bool :=
  v.staged.contains key

def set (v : View) (key : Text) (entity : Entity) : View :=
  { v with staged := v.staged.insert key entity, written := key :: v.written }

/--
Put the very entity back that was under a key when the transaction began.
-/
def restore (v : View) (key : Text) : View :=
  match v.base.get? key with
  | some entity =>
    { v with staged := v.staged.insert key entity, written := v.written.filter (· ≠ key) }
  | none => v

def erase (v : View) (key : Text) : View :=
  { v with staged := v.staged.erase key }

def get (v : View) (key : Text) : Except Failure Entity :=
  match v.get? key with
  | some entity => .ok entity
  | none => .error (.unknownKey key)

def pop (v : View) (key : Text) (default : Option Entity) : Except Failure (Entity × View) :=
  match v.get? key, default with
  | some entity, _ => .ok (entity, v.erase key)
  | none, some entity => .ok (entity, v)
  | none, none => .error (.unknownKey key)

def popFirst (v : View) : Except Failure ((Text × Entity) × View) :=
  match v.staged.entries with
  | [] => .error .emptyCollection
  | entry :: _ => .ok (entry, v.erase entry.1)

def getOrSet (v : View) (key : Text) (entity : Entity) : Entity × View :=
  match v.get? key with
  | some found => (found, v)
  | none => (entity, v.set key entity)

def setAll (v : View) (pairs : List (Text × Entity)) : View :=
  pairs.foldl (fun v (key, entity) => v.set key entity) v

def clear (v : View) : View :=
  { v with staged := .empty }

/--
Whether what stands under a key counts as what stood there before. An entity that the transaction
has put there does if the two are worth the same. One that it has carried over also does if it is
still the same entity.
-/
def isUnchanged (v : View) (key : Text) (before after : Entity) : Bool :=
  after.agrees before || !v.written.contains key && after.remains before

def changeOf? (v : View) (key : Text) (before : Entity) : Option Change :=
  match v.staged.get? key with
  | none => some ⟨v.name, key, some before, none⟩
  | some after =>
    if v.isUnchanged key before after then none else some ⟨v.name, key, some before, some after⟩

/--
The changes to the entries that were there, in their order, and then the new entries in theirs.
-/
def changes (v : View) : List Change :=
  v.base.entries.filterMap (fun (key, before) => v.changeOf? key before) ++
    v.staged.entries.filterMap fun (key, after) =>
      if v.base.contains key then none else some ⟨v.name, key, none, some after⟩

end View

end PageBinding
