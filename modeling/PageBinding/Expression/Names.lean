import PageBinding.Expression.Resolve
import PageBinding.Reference

/-!
This module contains the one pass over the identifiers of a text that collecting, refusing and
renaming them have in common.
-/

namespace PageBinding

variable [Limits]

namespace Expression

inductive Mode where
  | expression
  | action (effects : List Text)

def defaultEffects : List Text :=
  ["emit", "navigate"]

def Mode.ofEffects (effects : Option (List Text)) : Mode :=
  .action (effects.getD defaultEffects)

def checkEffects (allowed : List Text) (effects : List Effect) : Except Failure Unit :=
  match effects with
  | [] => .ok ()
  | .call name _ :: rest =>
    if name ∈ allowed then checkEffects allowed rest
    else .error (.parse (.effectNotAllowed name) none)
  | .assignment .. :: rest => checkEffects allowed rest

/--
The identifiers of a text in order. There are none to speak of where the text is blank, or an action
without effects, and that is allowed.
-/
def identifiers? (mode : Mode) (optional : Bool) (t : Text) :
    Except Failure (Option (List Identifier)) :=
  if t.isBlank then
    if optional then .ok none else .error (.parse .emptyExpression none)
  else
    match mode with
    | .expression => do
      let e ← parse t
      return some e.identifiers
    | .action allowed => do
      let effects ← parseAction t
      if effects.isEmpty then
        if optional then return none else throw (.parse .emptyAction none)
      checkEffects allowed effects
      return some (identifiersOfEffects effects)

/--
What is written for an identifier that is renamed. The key of a shorthand stays.
-/
def replacement (id : Identifier) (name : Text) : Text :=
  if id.shorthand then Text.concat [id.name, ": ", name] else name

def splice (offset : Nat) (t : Text) (renamed : List (Identifier × Text)) : Text :=
  match renamed with
  | [] => t
  | (id, name) :: rest =>
    t.take (id.start - offset) ++ replacement id name ++
      splice id.stop (t.drop (id.stop - offset)) rest

/--
Ask for a new name of each identifier of a text in order, and put the answers in place that differ
from the names. Asking may have effects of its own and may fail, which ends the pass.
-/
def replaceNames {m : Type → Type} [Monad m] [MonadExceptOf Failure m] (mode : Mode)
    (optional : Bool) (rename : Text → m Text) (t : Text) : m Text := do
  match identifiers? mode optional t with
  | .error failure => throw failure
  | .ok none => return []
  | .ok (some ids) =>
    let names ← ids.mapM fun id => rename id.name
    return splice 0 t ((ids.zip names).filter fun (id, name) => name ≠ id.name)

def checkNames (mode : Mode) (known : Text → Bool) (t : Text) : Except Failure Text :=
  replaceNames mode false
    (fun name => if known name then .ok name else .error (.unknownIdentifier name)) t

/--
The ids of the variables that a text refers to, each once. A blank text refers to none.
-/
def referencedIds (mode : Mode) (t : Text) : Except Failure (List Text) := do
  match ← identifiers? mode true t with
  | none => return []
  | some ids => return Text.distinct (ids.filterMap fun id => Reference.decode? id.name)

end Expression

end PageBinding
