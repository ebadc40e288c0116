import CoopKernel.Memory.Rounding
import CoopKernel.Trace.Event

/-!
# Where the host's memory lies

The two built-in pools of a kernel lie wherever its host has memory. What is shown to people should
not depend on that, so an address in a built-in pool is written relative to the start of the pool,
and an address in any other pool as it is.
-/

namespace CoopKernel

/-- The addresses of the memory that a host provides for the system pool and the shared pool. -/
structure Arena where
  heap : Nat := 1 <<< 32
  shared : Nat := 1 <<< 48
deriving DecidableEq, Repr

namespace Arena

/-- The address that addresses of a pool are written relative to. The built-in pools are the first
two that a kernel creates. -/
def origin (arena : Arena) (pool : PoolId) : Nat :=
  match pool.number with
  | 1 => arena.heap
  | 2 => arena.shared
  | _ => 0

/-- An address of a pool as it is written. -/
def written (arena : Arena) (pool : PoolId) (address : Nat) : Nat := address - arena.origin pool

/-- The address of a pool that is written as `offset`; it wraps around at the end of the address
space. -/
def absolute (arena : Arena) (pool : PoolId) (offset : Nat) : Nat :=
  (arena.origin pool + offset) % Memory.addressSpace

/-- An event as it is written. -/
def writtenEvent (arena : Arena) : Trace.Event → Trace.Event
  | .alloc pool address size => .alloc pool (arena.written pool address) size
  | .free pool address => .free pool (arena.written pool address)
  | event => event

end Arena

end CoopKernel
