import CoopKernel.Status

/-!
# Invariants that the kernel relies on

Some operations are only called in states that the kernel keeps up by itself: a queued thread is
registered, the idle thread is always there to run, critical sections do not nest. Each such
condition has a name here, so that an operation can say which one it found broken instead of going
on with nonsense.
-/

namespace CoopKernel

/-- A condition that the kernel keeps up; finding it broken is a defect, not a refusal. -/
inductive Invariant
  /-- A thread that is queued, running or named by the kernel is registered. -/
  | threadRegistered
  /-- A mutex that a thread holds is registered. -/
  | mutexRegistered
  /-- Some thread is ready whenever the processor is given away. -/
  | threadReady
  /-- Some thread is running. -/
  | threadRunning
  /-- A ready thread has a position to go on from. -/
  | readyPosition
  /-- The running thread has a position to be overwritten. -/
  | runningPosition
  /-- The section is held where kernel state is used. -/
  | sectionHeld
  /-- The section is free where it is entered. -/
  | sectionFree
deriving DecidableEq, Repr

namespace Invariant

/-- What is reported when the invariant is found broken. -/
def message : Invariant → String
  | threadRegistered => "scheduler registry invariant broken"
  | mutexRegistered => "mutex registry invariant broken"
  | threadReady => "ready queues empty: idle thread invariant broken"
  | threadRunning => "runtime invariant broken: no running thread"
  | readyPosition => "runtime invariant broken: ready thread without context"
  | runningPosition => "runtime invariant broken: running thread without context"
  | sectionHeld => "critical section held"
  | sectionFree =>
    "assertion `left == right` failed: critical sections must not nest\n  left: 1\n right: 0"

end Invariant

/-- How a scheduling operation can fail: it is refused, or it finds an invariant broken. -/
inductive Failure
  | refused (status : Status)
  | broken (invariant : Invariant)
deriving DecidableEq, Repr

end CoopKernel
