import PageBinding.Expression.Names
import PageBinding.Model.Checked

/-!
This module contains the settings that projects are edited with.
-/

namespace PageBinding

/--
The settings: the component whose own parameters are hidden from it, the effects that actions may
call, and a file that committed transactions are recorded in.
-/
structure Settings where
  collectionComponent : Text
  effects : List Text
  transactionLog : Option Text
  deriving DecidableEq, Repr

namespace Settings

def default : Settings :=
  ⟨"ws:collection", Expression.defaultEffects, none⟩

instance : Inhabited Settings := ⟨default⟩

def read : Reader Settings := fun path v => do
  let entries ← Reader.entries path v
  Checked.apply Settings.mk
      (Reader.optional "collection_component" default.collectionComponent Reader.text path entries)
    |>.and (Reader.optional "effects" default.effects (Reader.list Reader.text) path entries)
    |>.and (Reader.optional "transaction_log" none (Reader.nullable Reader.text) path entries)

end Settings

end PageBinding
