import CoopKernel.Scheduler.Basic

/-!
# Mutex ownership

A mutex is taken if it is free, waited for if it is not, and handed over when its owner gives it up.
A hand-over is direct: the next owner is chosen and made ready at once, so a mutex that threads wait
for is never free in between.
-/

namespace CoopKernel.Scheduler

variable {κ : Type}

/-- The mutex that a caller names. -/
def findMutex (scheduler : Scheduler κ) (id : MutexId) : Except Status Mutex :=
  match scheduler.mutexes.get? id with
  | none => .error .invalidId
  | some mutex => .ok mutex

/-- Changes a mutex. -/
def updateMutex (scheduler : Scheduler κ) (id : MutexId) (change : Mutex → Mutex) :
    Scheduler κ :=
  { scheduler with mutexes := scheduler.mutexes.modify id change }

/-- Adds a free mutex. -/
def createMutex (scheduler : Scheduler κ) : MutexId × Scheduler κ :=
  (scheduler.mutexes.nextHandle, { scheduler with mutexes := scheduler.mutexes.add {} })

/-- Removes a mutex that is not locked. -/
def deleteMutex (scheduler : Scheduler κ) (id : MutexId) : Except Status (Scheduler κ) := do
  let mutex ← scheduler.findMutex id
  if mutex.isLocked then
    throw .invalidState
  return { scheduler with mutexes := scheduler.mutexes.erase id }

/-- Takes a mutex for a thread if it is free. The answer is whether it was; asking for a mutex that
one owns is refused. -/
def tryLock (scheduler : Scheduler κ) (id : MutexId) (thread : ThreadId) :
    Except Failure (Bool × Scheduler κ) := do
  let mutex ← (scheduler.findMutex id).mapError .refused
  match mutex.owner with
  | some owner =>
    if owner = thread then
      throw (.refused .invalidState)
    return (false, scheduler)
  | none =>
    let _ ← (scheduler.expect thread).mapError .broken
    return (true,
      (scheduler.updateMutex id fun mutex => { mutex with owner := some thread }).update thread
        (·.hold id))

/-- Lets a thread wait for a mutex. -/
def waitForMutex (scheduler : Scheduler κ) (id : MutexId) (thread : ThreadId) (timeout : Timeout) :
    Except Failure (Scheduler κ) := do
  let record ← (scheduler.find thread).mapError .refused
  let _ ← (scheduler.findMutex id).mapError .refused
  let scheduler := (scheduler.updateMutex id (·.addWaiter thread record.priority)).update thread
    fun record => { record with wanted := some id }
  (scheduler.block thread .mutex timeout).mapError .broken

/-- Settles a wait for a mutex that is over, and says whether the thread owns it now. -/
def finishMutexWait (scheduler : Scheduler κ) (id : MutexId) (thread : ThreadId) :
    Except Invariant (Bool × Scheduler κ) := do
  let _ ← scheduler.expect thread
  let scheduler := scheduler.update thread fun record => { record with wanted := none }
  match scheduler.mutexes.get? id with
  | none => return (false, scheduler)
  | some mutex =>
    return (mutex.owner == some thread, scheduler.updateMutex id (·.stopWaiting thread))

/-- Passes a mutex from its owner to the next thread that waits for it, which becomes ready. The
answer is the new owner, if there is one. -/
def handOver (scheduler : Scheduler κ) (id : MutexId) (owner : ThreadId) :
    Except Invariant (Option ThreadId × Scheduler κ) := do
  let _ ← scheduler.expect owner
  let scheduler := scheduler.update owner (·.letGo id)
  match scheduler.mutexes.get? id with
  | none => throw .mutexRegistered
  | some mutex =>
    let (next, mutex) := mutex.pass
    let scheduler := scheduler.updateMutex id fun _ => mutex
    match next with
    | none => return (none, scheduler)
    | some next =>
      let _ ← scheduler.expect next
      let scheduler := scheduler.update next fun record => { record.hold id with wanted := none }
      return (some next, ← scheduler.wake next)

/-- Gives up a mutex that a thread owns, and answers its new owner, if there is one. -/
def release (scheduler : Scheduler κ) (id : MutexId) (thread : ThreadId) :
    Except Failure (Option ThreadId × Scheduler κ) := do
  let mutex ← (scheduler.findMutex id).mapError .refused
  if mutex.owner ≠ some thread then
    throw (.refused .invalidState)
  (scheduler.handOver id thread).mapError .broken

end CoopKernel.Scheduler
