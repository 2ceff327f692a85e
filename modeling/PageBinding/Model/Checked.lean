import PageBinding.Model.Ids
import PageBinding.Model.Problem
import PageBinding.Value

/-!
This module contains the parts from which the readers of entities are built. A reader turns a piece
of data into an entity or finds all its problems, in the order of the fields.
-/

namespace PageBinding

abbrev Path := List PathStep

namespace Path

def field (path : Path) (name : Text) : Path :=
  path ++ [.field name]

def index (path : Path) (i : Nat) : Path :=
  path ++ [.index i]

end Path

abbrev Checked (α : Type) := Except (List Problem) α

namespace Checked

variable {α β : Type}

def problem (path : Path) (kind : Problem.Kind) : Checked α :=
  .error [⟨path, kind⟩]

def apply (f : α → β) (a : Checked α) : Checked β :=
  a.map f

/--
Apply what has been read to what is read next. The problems of both are kept.
-/
def and (f : Checked (α → β)) (a : Checked α) : Checked β :=
  match f, a with
  | .ok f, .ok a => .ok (f a)
  | .ok _, .error problems => .error problems
  | .error problems, .ok _ => .error problems
  | .error problems, .error more => .error (problems ++ more)

end Checked

abbrev Reader (α : Type) := Path → Value → Checked α

namespace Reader

variable {α : Type}

def any : Reader Value :=
  fun _ v => .ok v

def text : Reader Text := fun path v =>
  match v with
  | .text t => .ok t
  | _ => Checked.problem path .notText

def bool : Reader Bool := fun path v =>
  match v with
  | .bool b => .ok b
  | _ => Checked.problem path .notBool

/--
Numbers only; truth values are none. A number fails as an integer and as a floating point number.
-/
def number : Reader Number := fun path v =>
  match v with
  | .number n => .ok n
  | _ =>
    .error [⟨path.field "int", .notInteger⟩, ⟨path.field "float", .notFloat⟩]

def boolOfWord? (word : Text) : Option Bool :=
  let lower := Text.asciiLower word
  if lower ∈ List.map Text.ofString ["0", "off", "f", "false", "n", "no"] then some false
  else if lower ∈ List.map Text.ofString ["1", "on", "t", "true", "y", "yes"] then some true
  else none

def wholeBound : Nat :=
  Nat.pow 2 63

/--
A truth value, or a word, zero or one for it. The least integer that is compared is `-wholeBound`,
the floating point numbers begin above it.
-/
def boolWord : Reader Bool := fun path v =>
  let ofWhole (least i : Int) : Checked Bool :=
    if i = 0 then .ok false else if i = 1 then .ok true
    else if least ≤ i && i < wholeBound then Checked.problem path .notBoolWord
    else Checked.problem path .notBool
  match v with
  | .bool b => .ok b
  | .text t =>
    match boolOfWord? t with
    | some b => .ok b
    | none => Checked.problem path .notBoolWord
  | .number (.int i) => ofWhole (-wholeBound) i
  | .number (.float x) =>
    match x.toInt? with
    | some i => ofWhole (1 - wholeBound) i
    | none => Checked.problem path .notBool
  | _ => Checked.problem path .notBool

def word (table : List (Text × α)) : Reader α := fun path v =>
  match v with
  | .text t =>
    match table.find? fun entry => entry.1 = t with
    | some (_, a) => .ok a
    | none => Checked.problem path .notAllowed
  | _ => Checked.problem path .notAllowed

def nullable (reader : Reader α) : Reader (Option α) := fun path v =>
  match v with
  | .null => .ok none
  | v => (reader path v).map some

def items (reader : Reader α) (path : Path) (i : Nat) (vs : List Value) : Checked (List α) :=
  match vs with
  | [] => .ok []
  | v :: rest =>
    (Checked.apply List.cons (reader (path.index i) v)).and (items reader path (i + 1) rest)

def list (reader : Reader α) : Reader (List α) := fun path v =>
  match v with
  | .list vs => items reader path 0 vs
  | _ => Checked.problem path .notList

def entries (path : Path) (v : Value) : Checked (List (Text × Value)) :=
  match v with
  | .object entries => .ok entries
  | _ => Checked.problem path .notObject

def required (name : Text) (reader : Reader α) (path : Path) (entries : List (Text × Value)) :
    Checked α :=
  match Entries.lookup name entries with
  | some v => reader (path.field name) v
  | none => Checked.problem (path.field name) .missing

def optional (name : Text) (default : α) (reader : Reader α) (path : Path)
    (entries : List (Text × Value)) : Checked α :=
  match Entries.lookup name entries with
  | some v => reader (path.field name) v
  | none => .ok default

def id (supply : IdSupply) (path : Path) (entries : List (Text × Value)) :
    Checked Text × IdSupply :=
  match Entries.lookup "id" entries with
  | some v => (text (path.field "id") v, supply)
  | none =>
    let (fresh, supply) := supply.take
    (.ok fresh, supply)

def tagged (name : Text) (table : List (Text × α)) (path : Path) (v : Value) :
    Checked (α × Path × List (Text × Value)) :=
  match v with
  | .object entries =>
    match Entries.lookup name entries with
    | none => Checked.problem path .tagMissing
    | some (.text tag) =>
      match table.find? fun entry => entry.1 = tag with
      | some (_, a) => .ok (a, path.field tag, entries)
      | none => Checked.problem path .tagUnknown
    | some _ => Checked.problem path .tagUnknown
  | _ => Checked.problem path .notTaggable

def entityItems (reader : IdSupply → Path → Value → Checked α × IdSupply) (supply : IdSupply)
    (path : Path) (i : Nat) (vs : List Value) : Checked (List α) × IdSupply :=
  match vs with
  | [] => (.ok [], supply)
  | v :: rest =>
    let (entity, supply) := reader supply (path.index i) v
    let (entities, supply) := entityItems reader supply path (i + 1) rest
    ((Checked.apply List.cons entity).and entities, supply)

def entities (name : Text) (reader : IdSupply → Path → Value → Checked α × IdSupply)
    (supply : IdSupply) (path : Path) (entries : List (Text × Value)) :
    Checked (List α) × IdSupply :=
  match Entries.lookup name entries with
  | none => (.ok [], supply)
  | some (.list vs) => entityItems reader supply (path.field name) 0 vs
  | some _ => (Checked.problem (path.field name) .notList, supply)

end Reader

end PageBinding
