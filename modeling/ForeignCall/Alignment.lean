/-!
# Rounding to an alignment

An alignment is a power of two, so rounding up to it is done by clearing the bits below it
(`alignUp`).
-/

namespace ForeignCall

/-- `n` with the bits of `mask` cleared. -/
def clearBits (n mask : Nat) : Nat := n - (n &&& mask)

/-- Rounds `n` up to `align`, a power of two, by clearing the bits below it in `n + (align - 1)`. -/
def alignUp (n align : Nat) : Nat := clearBits (n + (align - 1)) (align - 1)

end ForeignCall
