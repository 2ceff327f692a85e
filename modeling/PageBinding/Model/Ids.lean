import PageBinding.Text

/-!
This module contains the supply of fresh ids.
-/

namespace PageBinding

structure IdSupply where
  stem : Text
  taken : Nat
  deriving DecidableEq, Repr

namespace IdSupply

def take (supply : IdSupply) : Text × IdSupply :=
  (supply.stem ++ Text.ofNat (supply.taken + 1), { supply with taken := supply.taken + 1 })

end IdSupply

end PageBinding
