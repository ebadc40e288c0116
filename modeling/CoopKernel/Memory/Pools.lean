import CoopKernel.Memory.Pool
import CoopKernel.Memory.Waiters
import CoopKernel.Registry

/-!
# The pools of a system

All pools of a system share one granularity. The registry of pools also keeps the threads that wait
for memory, because a pool may not go away while a thread waits for it. Handles are never used
again, within the limit of a `Registry`.
-/

namespace CoopKernel.Memory

/-- The pools, their granularity, and the threads that wait for memory. -/
structure Pools where
  registry : Registry .pool Pool := {}
  alignment : Nat := 64
  waiters : Waiters := {}
deriving Repr

namespace Pools

/-- No pools yet, with a granularity for those to come. -/
def new (alignment : Nat) : Except PoolError Pools :=
  if isPowerOfTwo alignment then .ok { alignment } else .error (.badAlignment alignment)

/-- The pool with a handle. -/
def get (pools : Pools) (pool : PoolId) : Except PoolError Pool :=
  match pools.registry.get? pool with
  | none => .error (.unknownPool pool)
  | some books => .ok books

/-- Writes the books of a pool back. -/
def put (pools : Pools) (pool : PoolId) (books : Pool) : Pools :=
  { pools with registry := pools.registry.modify pool fun _ => books }

/-- Adds a pool over a region. -/
def create (pools : Pools) (base size : Nat) : Except PoolError (PoolId × Pools) := do
  let books ← Pool.new base size pools.alignment
  return (pools.registry.nextHandle, { pools with registry := pools.registry.add books })

/-- Removes a pool that has neither waiting threads nor allocations. -/
def delete (pools : Pools) (pool : PoolId) : Except PoolError Pools := do
  let books ← pools.get pool
  let waiting := pools.waiters.waitingOn pool
  if 0 < waiting then
    throw (.hasWaiters pool waiting)
  if books.freeBytes ≠ books.size then
    throw (.inUse pool (books.size - books.freeBytes))
  return { pools with registry := pools.registry.erase pool }

/-- Allocates from a pool. An empty request is refused before the pool is looked up. -/
def allocate (pools : Pools) (pool : PoolId) (size : Nat) : Except PoolError (Nat × Pools) := do
  if size = 0 then
    throw .zeroSize
  let (address, books) ← (← pools.get pool).allocate size
  return (address, pools.put pool books)

/-- Releases an allocation of a pool, and answers its granted size. -/
def deallocate (pools : Pools) (pool : PoolId) (address : Nat) :
    Except PoolError (Nat × Pools) := do
  let (released, books) ← (← pools.get pool).deallocate address
  return (released, pools.put pool books)

/-- The free bytes of a pool. -/
def query (pools : Pools) (pool : PoolId) : Except PoolError Nat := do
  return (← pools.get pool).freeBytes

/-- The figures of a pool. -/
def stats (pools : Pools) (pool : PoolId) : Except PoolError Stats := do
  return (← pools.get pool).stats

/-- Whether a request fits into a pool when nothing is allocated in it. -/
def canEverFit (pools : Pools) (pool : PoolId) (size : Nat) : Except PoolError Bool := do
  return (← pools.get pool).canEverFit size

/-- Lets a thread wait for a pool. -/
def wait (pools : Pools) (thread : ThreadId) (rank : Nat) (pool : PoolId) : Pools :=
  { pools with waiters := pools.waiters.enqueue thread rank pool }

/-- Takes the thread to be served next when a pool gets memory back. -/
def wakeNext (pools : Pools) (pool : PoolId) : Option ThreadId × Pools :=
  match pools.waiters.nextFor? pool with
  | none => (none, pools)
  | some (thread, waiters) => (some thread, { pools with waiters })

/-- Ends a thread's wait for memory, and answers the pool it waited for. -/
def cancelWait (pools : Pools) (thread : ThreadId) : Option PoolId × Pools :=
  match pools.waiters.remove? thread with
  | none => (none, pools)
  | some (pool, waiters) => (some pool, { pools with waiters })

end Pools

end CoopKernel.Memory
