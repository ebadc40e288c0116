import CoopKernel.Kernel.Basic

/-!
# Memory calls

Allocation with and without waiting, and release. A thread that waits for memory tries again each
time memory is released for it; a release serves one waiting thread.
-/

namespace CoopKernel.Kernel

variable {ε : Type}

/-- Uses an allocation that was made for a purpose, and replies. -/
def obtained (kernel : Kernel ε) (address size : Nat) : Purpose ε → Kernel ε
  | .address => kernel.reply (.ok (.address address))
  | .stack entry priority =>
    let (thread, sched) :=
      kernel.sched.addThread kernel.config.threadStem priority (some { address, size })
    let entries := kernel.entries ++ [(thread, Destination.start entry)]
    let kernel := { kernel with sched, entries }
    (kernel.emit (.threadCreate thread priority)).reply (.ok (.thread thread))

/-- Lets the running thread wait for memory of a pool. -/
def awaitMemory (kernel : Kernel ε) (pool : PoolId) (size : Nat) (purpose : Purpose ε) :
    Except Invariant (Kernel ε) := do
  let me ← kernel.me
  kernel.orRefuse (kernel.sched.find me) fun thread => do
    let pools := kernel.pools.wait me thread.priority.rank pool
    let sched ← kernel.sched.block me .memory .infinite
    ({ kernel with pools, sched }.emit (.wait pool me)).switchNext
      (.inside (.allocate pool size purpose))

/-- Allocates, waiting while the pool is exhausted. A request that the pool could not meet even if
it were empty is refused. -/
def allocateBlocking (kernel : Kernel ε) (pool : PoolId) (size : Nat) (purpose : Purpose ε) :
    Except Invariant (Kernel ε) :=
  if size = 0 then
    .ok (kernel.refuse .invalidParameter)
  else
    match kernel.pools.allocate pool size with
    | .ok (address, pools) =>
      .ok (({ kernel with pools }.emit (.alloc pool address size)).obtained address size purpose)
    | .error (.exhausted _) =>
      kernel.orRefusePool (kernel.pools.canEverFit pool size) fun fits =>
        if fits then kernel.awaitMemory pool size purpose
        else .ok (kernel.refuse .insufficientResources)
    | .error error => .ok (kernel.refuse (.ofPoolError error))

/-- Allocates if there is room now. -/
def allocate (kernel : Kernel ε) (pool : PoolId) (size : Nat) : Except Invariant (Kernel ε) :=
  kernel.orRefusePool (kernel.pools.allocate pool size) fun (address, pools) =>
    .ok (({ kernel with pools }.emit (.alloc pool address size)).reply (.ok (.address address)))

/-- Releases an allocation and serves the thread that waits for the pool, if there is one. -/
def free (kernel : Kernel ε) (pool : PoolId) (address : Nat) : Except Invariant (Kernel ε) :=
  kernel.orRefusePool (kernel.pools.deallocate pool address) fun (_, pools) =>
    let kernel := { kernel with pools }.emit (.free pool address)
    match kernel.pools.wakeNext pool with
    | (none, _) => .ok (kernel.reply (.ok .done))
    | (some waiter, pools) => do
      let sched ← kernel.sched.wake waiter
      { kernel with pools, sched }.preemptFor waiter (.ok .done)

/-- Adds a pool. -/
def poolCreate (kernel : Kernel ε) (base size : Nat) : Except Invariant (Kernel ε) :=
  kernel.orRefusePool (kernel.pools.create base size) fun (pool, pools) =>
    .ok (({ kernel with pools }.emit (.poolCreate pool base size)).reply (.ok (.pool pool)))

/-- Removes a pool. -/
def poolDelete (kernel : Kernel ε) (pool : PoolId) : Except Invariant (Kernel ε) :=
  kernel.orRefusePool (kernel.pools.delete pool) fun pools =>
    .ok (({ kernel with pools }.emit (.poolDelete pool)).reply (.ok .done))

end CoopKernel.Kernel
