import PageBinding.Text.Quoted

/-!
This module contains the problems that are found in data that should describe an entity.
-/

namespace PageBinding

inductive PathStep where
  | field (name : Text)
  | index (i : Nat)
  deriving DecidableEq, Repr

inductive Problem.Kind where
  | missing
  | notText
  | notList
  | notBool
  | notBoolWord
  | notInteger
  | notFloat
  | notAllowed
  | notObject
  | notTaggable
  | tagMissing
  | tagUnknown
  | duplicateId (id collection : Text)
  | unknownScope (variableId instanceId : Text)
  deriving DecidableEq, Repr

structure Problem where
  path : List PathStep
  kind : Problem.Kind
  deriving DecidableEq, Repr

namespace Problem

def message? (p : Problem) : Option Text :=
  match p.kind with
  | .duplicateId id collection =>
    some (Text.concat ["duplicate id ", id.quoted, " in ", collection])
  | .unknownScope variableId instanceId =>
    some (Text.concat
      ["variable ", variableId.quoted, " is scoped to unknown instance ", instanceId.quoted])
  | _ => none

end Problem

end PageBinding
