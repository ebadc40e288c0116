import CoopKernel.Kernel.Basic

/-!
# Looking at a kernel

Questions that are answered without delivering interrupts, and the picture of a kernel at one
moment.
-/

namespace CoopKernel

/-- A picture of a kernel: what exists, in ascending order of handles. -/
structure Snapshot where
  current : Option ThreadId
  ticks : Nat
  /-- The number of interrupts that wait to be delivered. -/
  pending : Nat
  threads : List (ThreadId × Priority × ThreadState)
  mutexes : List (MutexId × Option ThreadId)
  pools : List (PoolId × Memory.Stats)
deriving DecidableEq, Repr

namespace Kernel

variable {ε : Type}

/-- The picture of a kernel now. -/
def snapshot (kernel : Kernel ε) : Snapshot where
  current := kernel.sched.current
  ticks := kernel.sched.ticks
  pending := kernel.line.pending.length
  threads := kernel.sched.threads.entries.map fun (id, thread) =>
    (id, thread.priority, thread.state)
  mutexes := kernel.sched.mutexes.entries.map fun (id, mutex) => (id, mutex.owner)
  pools := kernel.pools.registry.entries.map fun (id, pool) => (id, pool.stats)

/-- The state of a thread. -/
def threadState (kernel : Kernel ε) (id : ThreadId) : Except Status ThreadState :=
  (kernel.sched.find id).map (·.state)

/-- The priority of a thread. -/
def threadPriority (kernel : Kernel ε) (id : ThreadId) : Except Status Priority :=
  (kernel.sched.find id).map (·.priority)

/-- The owner of a mutex. -/
def mutexOwner (kernel : Kernel ε) (id : MutexId) : Except Status (Option ThreadId) :=
  (kernel.sched.findMutex id).map (·.owner)

/-- The free bytes of a pool. -/
def poolQuery (kernel : Kernel ε) (id : PoolId) : Except Status Nat :=
  (kernel.pools.query id).mapError Status.ofPoolError

/-- The figures of a pool. -/
def poolStats (kernel : Kernel ε) (id : PoolId) : Except Status Memory.Stats :=
  (kernel.pools.stats id).mapError Status.ofPoolError

/-- The kernel in diagnostic text. -/
def describe (kernel : Kernel ε) : String :=
  Text.fields "Runtime"
    [("config", kernel.config.describe), ("pending", toString kernel.line.pending.length)]

end Kernel

end CoopKernel
