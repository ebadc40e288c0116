import CoopKernel.Scheduler.Ownership

/-!
# Termination

A terminated thread leaves every queue of the scheduler, and every mutex it holds goes to the next
thread that waits for it. Threads that wait for memory stand in a queue of the pools, which is not
touched here.
-/

namespace CoopKernel

/-- What a termination changed. -/
structure Termination where
  /-- The state the thread was in. -/
  previous : ThreadState
  /-- The mutexes that found a new owner, with that owner, in ascending order. -/
  handoffs : List (MutexId × ThreadId)
  /-- Whether a new owner outranks the running thread. -/
  preempt : Bool
deriving DecidableEq, Repr

namespace Scheduler

variable {κ : Type}

/-- Takes a thread out of the queues in which its state says it stands. -/
def unlink (scheduler : Scheduler κ) (id : ThreadId) (thread : Thread κ) :
    Except Invariant (Scheduler κ) :=
  match thread.state with
  | .ready =>
    match scheduler.ready.takeLowest? (· == id) with
    | none => .ok scheduler
    | some (_, ready) => .ok { scheduler with ready }
  | .waiting =>
    let scheduler := scheduler.update id fun thread => { thread with wanted := none }
    match thread.wanted with
    | none => scheduler.stopWaiting id
    | some mutex => (scheduler.updateMutex mutex (·.stopWaiting id)).stopWaiting id
  | .running => .ok scheduler
  | .dead => .ok scheduler

/-- Hands over mutexes one after the other, and answers those that found a new owner. -/
def handOverAll (scheduler : Scheduler κ) (owner : ThreadId) : List MutexId →
    Except Invariant (List (MutexId × ThreadId) × Scheduler κ)
  | [] => .ok ([], scheduler)
  | mutex :: rest => do
    let (next, scheduler) ← scheduler.handOver mutex owner
    let (handoffs, scheduler) ← scheduler.handOverAll owner rest
    match next with
    | none => return (handoffs, scheduler)
    | some next => return ((mutex, next) :: handoffs, scheduler)

/-- Whether some new owner outranks the running thread. -/
def anyOutranks (scheduler : Scheduler κ) : List (MutexId × ThreadId) → Except Invariant Bool
  | [] => .ok false
  | (_, owner) :: rest => do
    if ← scheduler.outranksCurrent owner then return true else scheduler.anyOutranks rest

/-- Ends the life of a thread that is not dead. -/
def terminate (scheduler : Scheduler κ) (id : ThreadId) :
    Except Failure (Termination × Scheduler κ) := do
  let thread ← (scheduler.find id).mapError .refused
  if thread.isDead then
    throw (.refused .invalidState)
  Except.mapError .broken do
    let scheduler ← scheduler.unlink id thread
    let scheduler := scheduler.update id fun thread => { thread with state := .dead }
    let (handoffs, scheduler) ← scheduler.handOverAll id thread.held
    let preempt ← if thread.state = .running then pure false else scheduler.anyOutranks handoffs
    return ({ previous := thread.state, handoffs, preempt }, scheduler)

end Scheduler

end CoopKernel
