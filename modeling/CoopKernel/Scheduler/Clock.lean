import CoopKernel.Scheduler.Basic

/-!
# The clock

A tick is the unit in which waits are measured. It counts down the sleeping threads and then the
threads that wait for a mutex, each group in order of arrival, and makes those ready whose wait is
over. Waits for input, output and memory are not timed.

A thread that has been given its mutex is ready whatever its countdown says. One whose wait has run
out leaves the mutex's queue as well, so that nobody can pass the mutex to it later.
-/

namespace CoopKernel

/-- What a tick did. -/
structure TickReport where
  /-- The number of the tick. -/
  tick : Nat
  /-- The threads whose sleep is over, and those that already own their mutex. -/
  woken : List ThreadId := []
  /-- The threads whose wait for a mutex ran out, with the mutex. -/
  timedOut : List (ThreadId × MutexId) := []
deriving DecidableEq, Repr

namespace Scheduler

variable {κ : Type}

/-- Counts a thread down by one tick, and says whether its wait has run out. -/
def countDown (scheduler : Scheduler κ) (id : ThreadId) :
    Except Invariant (Bool × Scheduler κ) := do
  let thread ← scheduler.expect id
  let countdown := thread.countdown.next
  return (countdown.expired, scheduler.update id fun thread => { thread with countdown })

/-- One sleeping thread at a tick. -/
def tickSleeper (state : Scheduler κ × TickReport) (id : ThreadId) :
    Except Invariant (Scheduler κ × TickReport) := do
  let (scheduler, report) := state
  let (expired, scheduler) ← scheduler.countDown id
  if expired then
    let scheduler ← (scheduler.update id Thread.disarm).makeReady id
    return (scheduler, { report with woken := report.woken ++ [id] })
  else
    return ({ scheduler with waiting := scheduler.waiting.add .sleep id }, report)

/-- One thread that waits for a mutex at a tick. -/
def tickMutexWaiter (state : Scheduler κ × TickReport) (id : ThreadId) :
    Except Invariant (Scheduler κ × TickReport) := do
  let (scheduler, report) := state
  let (expired, scheduler) ← scheduler.countDown id
  let thread ← scheduler.expect id
  if thread.ownsWanted then
    let scheduler ← (scheduler.update id Thread.disarm).makeReady id
    return (scheduler, { report with woken := report.woken ++ [id] })
  else if expired then
    let scheduler := scheduler.update id fun thread => { thread.disarm with wanted := none }
    match thread.wanted with
    | none => return (← scheduler.makeReady id, report)
    | some mutex =>
      let scheduler :=
        { scheduler with mutexes := scheduler.mutexes.modify mutex (·.stopWaiting id) }
      return (← scheduler.makeReady id,
        { report with timedOut := report.timedOut ++ [(id, mutex)] })
  else
    return ({ scheduler with waiting := scheduler.waiting.add .mutex id }, report)

/-- Advances time by one tick. The running thread is left where it is. -/
def tick (scheduler : Scheduler κ) : Except Invariant (TickReport × Scheduler κ) := do
  let scheduler := { scheduler with ticks := scheduler.ticks + 1 }
  let (scheduler, report) ← scheduler.waiting.sleep.foldlM tickSleeper
    ({ scheduler with waiting := scheduler.waiting.set .sleep [] }, { tick := scheduler.ticks })
  let (scheduler, report) ← scheduler.waiting.mutex.foldlM tickMutexWaiter
    ({ scheduler with waiting := scheduler.waiting.set .mutex [] }, report)
  return (report, scheduler)

end Scheduler

end CoopKernel
