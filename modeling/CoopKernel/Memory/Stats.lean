import CoopKernel.Memory.Rounding

/-!
# Pool statistics

The figures of a pool at one moment, and the share of it that is in use.
-/

namespace CoopKernel.Memory

/-- The figures of a pool. -/
structure Stats where
  /-- The bytes the pool manages. -/
  size : Nat
  /-- The bytes that are free now. -/
  freeBytes : Nat
  /-- The bytes that are handed out now. -/
  usedBytes : Nat
  /-- The number of free segments. -/
  freeSegments : Nat
  /-- The number of live allocations. -/
  liveAllocations : Nat
  /-- The least number of free bytes there has ever been. -/
  minFreeBytes : Nat
deriving DecidableEq, Repr

namespace Stats

/-- Whether nothing is handed out. -/
def isPristine (stats : Stats) : Bool := stats.usedBytes == 0

/-- The share in use in percent, as a byte. The product is taken modulo the address space and the
quotient modulo 256; neither matters for a pool of up to a hundredth of the address space. -/
def utilization (stats : Stats) : Nat :=
  if stats.size = 0 then 0 else stats.usedBytes * 100 % addressSpace / stats.size % 256

end Stats

end CoopKernel.Memory
