/-!
# Instances of the core library

Powers of numbers and the comparison of byte arrays can be found along several ways, and which one is
taken depends on what else is imported. A module that opens this namespace takes those of the core
library.
-/
namespace MemoryLimit.Instances

scoped instance (priority := high) powCore {α : Type} [NatPow α] : Pow α Nat := instPowNat

scoped instance (priority := high) decidableEqBytes : DecidableEq ByteArray :=
  ByteArray.instDecidableEq

end MemoryLimit.Instances
