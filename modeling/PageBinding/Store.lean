import PageBinding.Limits
import PageBinding.Scope
import PageBinding.Store.View
import PageBinding.Value.Json

/-!
This module contains the store: the owner of the collections. All writes are transactions on staged
views, which reach the collections together or not at all. Committed transactions are published to
the listeners.
-/

namespace PageBinding

variable [Limits]

structure Transaction where
  id : Text
  collections : List CollectionName
  changes : List Change
  deriving DecidableEq, Repr

namespace Transaction

/--
The data that describes a transaction. It has no place for numbers that are not finite.
-/
def describe (t : Transaction) : Value :=
  Value.finite <| .object [
    ("id", .text t.id),
    ("collections", .list (t.collections.map fun name => .text name.text)),
    ("changes", .list (t.changes.map Change.describe))]

def record? (t : Transaction) : Option Text :=
  (t.describe.json? none).filter fun line => !line.any CodePoint.isSurrogate

end Transaction

inductive Step (L : Type) where
  | subscribe (listener : L)
  /-- It ends the first registration of a listener. -/
  | unsubscribe (key : Text)
  | transact (names : List Text) (mutate : List View → Except Failure (List View))

/--
What a listener does when a transaction is published to it: one step after another, by what has come
of the steps before.
-/
inductive Reaction (L : Type) where
  | nothing
  /-- It fails, which has no effect on anybody else. -/
  | fail
  | leave
  | step (step : Step L) (next : Except Failure Unit → Collections → Reaction L)

def Reaction.commit {L : Type} (names : List CollectionName) (mutate : List View → List View) :
    Reaction L :=
  .step (.transact (names.map CollectionName.text) fun views => .ok (mutate views))
    fun _ _ => .nothing

/--
A listener. Its key tells it from other listeners, its label tells who has been called.
-/
structure Listener where
  key : Text
  label : Text
  respond : Transaction → Collections → Reaction Listener

abbrev Response :=
  Reaction Listener

structure Delivery where
  label : Text
  transactionId : Text
  deriving DecidableEq, Repr

/--
A store. Besides the collections it keeps the page tree, which it only reads, the listeners and all
that has been published so far, oldest first.
-/
structure Store where
  collections : Collections
  versions : Versions
  instances : InstanceTree
  listeners : List Listener
  published : List Transaction
  deliveries : List Delivery
  inTransaction : Bool
  ids : IdSupply
  transactionIds : IdSupply

namespace Store

def new (collections : Collections) (instances : InstanceTree) (ids transactionIds : IdSupply) :
    Store where
  collections
  versions := .zero
  instances
  listeners := []
  published := []
  deliveries := []
  inTransaction := false
  ids
  transactionIds

def get (s : Store) (name : Text) : Except Failure (Collection Entity) :=
  match CollectionName.ofText? name with
  | some name => .ok (s.collections.get name)
  | none => .error (.unknownCollection name)

def version (s : Store) (name : Text) : Except Failure Nat :=
  match CollectionName.ofText? name with
  | some name => .ok (s.versions.get name)
  | none => .error (.unknownKey name)

/--
Put data under a key of the collection with a given name, outside of transactions. That is never
possible.
-/
def writeOutside (s : Store) (name : Text) : Except Failure Unit := do
  let _ ← s.get name
  throw .readOnly

def takeId (s : Store) : Text × Store :=
  let (id, ids) := s.ids.take
  (id, { s with ids })

def subscribe (s : Store) (listener : Listener) : Store :=
  { s with listeners := s.listeners ++ [listener] }

def unsubscribe (s : Store) (key : Text) : Store :=
  { s with listeners := s.listeners.eraseP fun listener => listener.key = key }

def begin (s : Store) (names : List Text) : Except Failure (List View × Store) :=
  if s.inTransaction then
    .error .nestedTransaction
  else
    let unknown := names.filter fun name => (CollectionName.ofText? name).isNone
    if unknown.isEmpty then
      let views := (names.filterMap CollectionName.ofText?).map fun name =>
        View.start name (s.collections.get name)
      .ok (views, { s with inTransaction := true })
    else
      .error (.unknownCollections unknown)

def abort (s : Store) : Store :=
  { s with inTransaction := false }

def takeOver (changed : List CollectionName) (s : Store) (view : View) : Store :=
  if view.name ∈ changed then
    { s with
      collections := s.collections.set view.name view.staged
      versions := s.versions.bump view.name }
  else
    s

/--
Take over all views that amount to changes, as a transaction with a fresh id. There is none if
nothing has changed.
-/
def takeOverAll (s : Store) (views : List View) : Option Transaction × Store :=
  let changes := views.flatMap View.changes
  if changes.isEmpty then
    (none, s)
  else
    let s := views.foldl (takeOver (changes.map Change.collection)) s
    let (id, transactionIds) := s.transactionIds.take
    let transaction : Transaction := ⟨id, views.map View.name, changes⟩
    (some transaction,
      { s with transactionIds, published := s.published ++ [transaction] })

def settle (publish : Store → Transaction → Store) (s : Store) (views : List View) : Store :=
  match { s with inTransaction := false }.takeOverAll views with
  | (some transaction, s) => publish s transaction
  | (none, s) => s

/--
Run a mutator on views of the named collections and commit what it makes of them. If it fails,
nothing is committed. The mutator also gets the store itself, in which a transaction is under way.
-/
def transactWith {α : Type} (publish : Store → Transaction → Store) (s : Store) (names : List Text)
    (mutate : List View → Store → Except Failure (α × List View) × Store) :
    Except Failure α × Store :=
  match s.begin names with
  | .error failure => (.error failure, s)
  | .ok (views, s) =>
    match mutate views s with
    | (.error failure, s) => (.error (.aborted failure), s.abort)
    | (.ok (a, views), s) => (.ok a, s.settle publish views)

def take (publish : Store → Transaction → Store) (s : Store) :
    Step Listener → Except Failure Unit × Store
  | .subscribe listener => (.ok (), s.subscribe listener)
  | .unsubscribe key => (.ok (), s.unsubscribe key)
  | .transact names mutate =>
    s.transactWith publish names fun views s => ((mutate views).map ((), ·), s)

def react (publish : Store → Transaction → Store) (key : Text) : Response → Store → Store
  | .nothing, s | .fail, s => s
  | .leave, s => s.unsubscribe key
  | .step step next, s =>
    let (result, s) := s.take publish step
    react publish key (next result s.collections) s

/--
Call a listener of a transaction. What it commits is published at once.
-/
def call (publish : Store → Transaction → Store) (transaction : Transaction) (s : Store)
    (listener : Listener) : Store :=
  let s := { s with deliveries := s.deliveries ++ [⟨listener.label, transaction.id⟩] }
  react publish listener.key (listener.respond transaction s.collections) s

/--
Call the listeners of a transaction in order. The fuel is how many publications may still begin
inside of one another.
-/
def publish (fuel : Nat) (s : Store) (transaction : Transaction) : Store :=
  match fuel with
  | 0 => s
  | fuel + 1 => s.listeners.foldl (call (publish fuel) transaction) s

def commit (s : Store) (views : List View) : Store :=
  s.settle (publish Limits.maxPublications) views

def transact {α : Type} (s : Store) (names : List Text)
    (mutate : List View → Store → Except Failure (α × List View) × Store) :
    Except Failure α × Store :=
  s.transactWith (publish Limits.maxPublications) names mutate

/--
Commit a change to the named collections. It tells the keys under which it puts entities of its own;
under the others is what has been carried over.
-/
def edit {α : Type} (s : Store) (names : List CollectionName)
    (change : Collections → IdSupply → Except Failure (α × Collections × IdSupply))
    (written : α → List (CollectionName × Text)) : Except Failure α × Store :=
  s.transact (names.map CollectionName.text) fun views s =>
    match change s.collections s.ids with
    | .error failure => (.error failure, s)
    | .ok (a, collections, ids) =>
      let views := views.map fun view =>
        let keys := ((written a).filter (·.1 = view.name)).map Prod.snd
        { view with staged := collections.get view.name, written := keys }
      (.ok (a, views), { s with ids })

end Store

end PageBinding
