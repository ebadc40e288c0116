import CoopKernel.Handle
import CoopKernel.LevelQueue

/-!
# Threads waiting for memory

Threads that wait for a pool to get memory back stand in one level queue for all pools, each with
the pool it waits for.
-/

namespace CoopKernel.Memory

/-- The waiting threads with their pools. -/
abbrev Waiters := LevelQueue (ThreadId × PoolId)

namespace Waiters

/-- Appends a thread to the level of a rank; ranks past the highest count as the highest. -/
def enqueue (waiters : Waiters) (thread : ThreadId) (rank : Nat) (pool : PoolId) : Waiters :=
  waiters.push (.ofRank rank) (thread, pool)

/-- Unlinks a thread, with the pool it waited for. -/
def remove? (waiters : Waiters) (thread : ThreadId) : Option (PoolId × Waiters) :=
  (waiters.takeLowest? fun entry => entry.1 == thread).map fun (entry, rest) => (entry.2, rest)

/-- Takes the thread to be served next when a pool gets memory back: the first of the highest level
that waits for it. -/
def nextFor? (waiters : Waiters) (pool : PoolId) : Option (ThreadId × Waiters) :=
  (waiters.takeHighest? fun entry => entry.2 == pool).map fun (entry, rest) => (entry.1, rest)

/-- Whether a thread waits for memory. -/
def contains (waiters : Waiters) (thread : ThreadId) : Bool :=
  waiters.any fun entry => entry.1 == thread

/-- The number of threads that wait for a pool. -/
def waitingOn (waiters : Waiters) (pool : PoolId) : Nat :=
  waiters.count fun entry => entry.2 == pool

end Waiters

end CoopKernel.Memory
