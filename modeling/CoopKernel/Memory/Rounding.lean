/-!
# Rounding to a granularity

Addresses and sizes are below `addressSpace`. A size is rounded up to a multiple of a power of two
by adding one less than the granularity, unless that leaves the address space, and then clearing the
low bits.
-/

namespace CoopKernel.Memory

/-- The number of addresses; addresses and sizes are below it. -/
def addressSpace : Nat := 1 <<< 64

/-- Whether a number is a power of two. -/
def isPowerOfTwo (n : Nat) : Bool := 1 <<< n.log2 == n

/-- Rounds a size up to a multiple of a power of two; nothing if the sum that is cut down to the
multiple lies outside the address space. -/
def roundUp (size granularity : Nat) : Option Nat :=
  let sum := size + (granularity - 1)
  if sum < addressSpace then some (sum &&& (addressSpace - granularity)) else none

end CoopKernel.Memory
