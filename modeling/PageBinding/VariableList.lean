import PageBinding.Service

/-!
This module contains the list of variables that an instance sees, as it is shown while one of its
props is edited.
-/

namespace PageBinding

variable [Limits]

namespace VariableList

/--
The current values of variables under their ids: those known at run time, and else the literals.
-/
def values (vars : List Variable) (runtime : List (Text × Value)) : List (Text × Value) :=
  Entries.ofPairs <| vars.filterMap fun v =>
    match Entries.lookup v.id runtime, v.literal? with
    | some value, _ => some (v.id, value)
    | none, some value => some (v.id, value)
    | none, none => none

def selected (p : Option Property) : Except Failure (List Text) :=
  match p.map Property.value with
  | some (.expression text) => Usage.ofText .expression text
  | _ => .ok []

structure Row where
  variableId : Text
  value : Value
  label : Text
  selected : Bool
  deletable : Bool

def row (service : Service) (values : List (Text × Value)) (selected : List Text) (v : Variable) :
    Except Failure Row × Service :=
  let value := Entries.lookup v.id values
  let label : Except Failure Text := match value with
    | some value => (Expression.preview value).map fun t => Text.concat [v.name, ": ", t]
    | none => .ok v.name
  match label with
  | .error failure => (.error failure, service)
  | .ok label =>
    let (deletable, service) := service.isDeletable v
    (deletable.map fun deletable =>
      ⟨v.id, value.getD .null, label, decide (v.id ∈ selected), deletable⟩, service)

def rowsOf (service : Service) (values : List (Text × Value)) (selected : List Text)
    (vars : List Variable) : Except Failure (List Row) × Service :=
  match vars with
  | [] => (.ok [], service)
  | v :: rest =>
    match row service values selected v with
    | (.error failure, service) => (.error failure, service)
    | (.ok first, service) =>
      let (others, service) := rowsOf service values selected rest
      (others.map (first :: ·), service)

def rows (service : Service) (selector : Option Selector) (p : Option Property)
    (runtime : List (Text × Value)) : Except Failure (List Row) × Service :=
  let arguments : Except Failure (List Variable × List Text) := do
    return (← service.visible selector, ← selected p)
  match arguments with
  | .error failure => (.error failure, service)
  | .ok (vars, selected) => rowsOf service (values vars runtime) selected vars

end VariableList

end PageBinding
