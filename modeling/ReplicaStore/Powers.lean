/-! # Powers of numbers

    Bounds and positions are written as powers. The library knows more than one reading of a power,
    and which one a module sees depends on what it imports; here the plain reading comes first, so
    that a bound is the same term in every module. A power of bare numerals is one of natural
    numbers. -/

namespace ReplicaStore

@[default_instance 20001]
instance (priority := high) natPower : Pow Nat Nat := instPowNat

@[default_instance 20000]
instance (priority := high) intPower : Pow Int Nat := instPowNat

end ReplicaStore
