import CoopKernel.Arena
import CoopKernel.Kernel.Step

/-!
# Starting a kernel

A kernel starts with two pools, over memory that its host provides, and two threads: the one that
starts it, which runs on, and the idle thread, which is activated at once.
-/

namespace CoopKernel

namespace Kernel

variable {ε : Type}

/-- The kernel before its idle thread is activated. -/
def prepare (config : Config) (arena : Arena) : Except Status (Kernel ε) := do
  config.validate
  let pools ← (Memory.Pools.new config.alignment).mapError Status.ofPoolError
  let (systemPool, pools) ←
    (pools.create arena.heap config.heapSize).mapError Status.ofPoolError
  let (sharedPool, pools) ←
    (pools.create arena.shared config.sharedSize).mapError Status.ofPoolError
  let (main, sched) := ({} : Scheduler (Position ε)).addThread config.threadStem .normal none
  let sched ← sched.setPosition main (.delivering (.reply (.ok .done)))
  let sched ← sched.adopt main
  let (address, pools) ←
    (pools.allocate systemPool config.idleStackSize).mapError Status.ofPoolError
  let (idle, sched) := sched.addThread config.threadStem .idle
    (some { address, size := config.idleStackSize })
  return { config, sched, pools, entries := [(idle, .rest)], main, idle, systemPool, sharedPool }

/-- Starts a kernel in the thread that asks for it, which becomes the main thread and runs on. -/
def start (config : Config) (arena : Arena) : Except Failure (Kernel ε) := do
  let kernel ← (prepare config arena).mapError .refused
  let kernel ← (kernel.call (.threadActivate kernel.idle)).mapError .broken
  let kernel ← kernel.advance.mapError .broken
  match kernel.activity with
  | .arriving (.returned (.error status)) => throw (.refused status)
  | _ => return { kernel with activity := .program }

end Kernel

end CoopKernel
