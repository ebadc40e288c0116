import CoopKernel.Invariant
import CoopKernel.Mutex
import CoopKernel.Registry
import CoopKernel.Thread

/-!
# The scheduler

The scheduler keeps the threads and mutexes of a system, the threads that are ready to run, the
threads that wait, and which thread has the processor. It is plain data: it decides who runs next
but never runs anybody.

## Policy

Ready threads stand in a level queue; the next one is the first of the highest level. A thread that
is interrupted by the clock goes to the back of its level, so threads of one priority take turns.
The idle thread is alone at the lowest level and ready whenever it is not running, so there is
always somebody to pick.

## Conventions

An operation that a caller may get wrong answers a `Status`. An operation on threads that the kernel
itself names answers an `Invariant` instead, which it finds broken if such a thread is missing.

Threads and mutexes get their handles from a `Registry`, and the laws hold within its limit: for
fewer than `2 ^ 32` of each.
-/

namespace CoopKernel

/-- The waiting threads, a list in order of arrival for each reason. -/
structure WaitLists where
  io : List ThreadId := []
  mutex : List ThreadId := []
  sleep : List ThreadId := []
  memory : List ThreadId := []
deriving DecidableEq, Repr

namespace WaitLists

/-- The threads that wait for a reason. -/
def get (lists : WaitLists) : WaitReason → List ThreadId
  | .io => lists.io
  | .mutex => lists.mutex
  | .sleep => lists.sleep
  | .memory => lists.memory

/-- Replaces the threads that wait for a reason. -/
def set (lists : WaitLists) (reason : WaitReason) (threads : List ThreadId) : WaitLists :=
  match reason with
  | .io => { lists with io := threads }
  | .mutex => { lists with mutex := threads }
  | .sleep => { lists with sleep := threads }
  | .memory => { lists with memory := threads }

/-- Appends a thread to a list. -/
def add (lists : WaitLists) (reason : WaitReason) (thread : ThreadId) : WaitLists :=
  lists.set reason (lists.get reason ++ [thread])

/-- Removes a thread from a list, wherever it stands there. -/
def remove (lists : WaitLists) (reason : WaitReason) (thread : ThreadId) : WaitLists :=
  lists.set reason ((lists.get reason).filter (· != thread))

@[simp] theorem get_set_self (lists : WaitLists) (reason : WaitReason) (threads : List ThreadId) :
    (lists.set reason threads).get reason = threads := by
  cases reason <;> rfl

theorem get_set_of_ne {lists : WaitLists} {reason other : WaitReason} {threads : List ThreadId}
    (h : other ≠ reason) : (lists.set reason threads).get other = lists.get other := by
  cases reason <;> cases other <;> simp_all [set, get]

end WaitLists

/-- A decision about the processor: who had it and who gets it. -/
structure Switch where
  source : Option ThreadId
  target : ThreadId
deriving DecidableEq, Repr

/-- Whether the processor changes hands. -/
def Switch.isSwitch (switch : Switch) : Bool := switch.source != some switch.target

/-- The threads and mutexes of a system with their queues. -/
structure Scheduler (κ : Type) where
  threads : Registry .thread (Thread κ) := {}
  mutexes : Registry .mutex Mutex := {}
  ready : LevelQueue ThreadId := {}
  waiting : WaitLists := {}
  current : Option ThreadId := none
  /-- The number of ticks so far. -/
  ticks : Nat := 0

namespace Scheduler

variable {κ : Type}

/-! ## Threads -/

/-- The thread that a caller names. -/
def find (scheduler : Scheduler κ) (id : ThreadId) : Except Status (Thread κ) :=
  match scheduler.threads.get? id with
  | none => .error .invalidId
  | some thread => .ok thread

/-- A thread that the kernel itself names. -/
def expect (scheduler : Scheduler κ) (id : ThreadId) : Except Invariant (Thread κ) :=
  match scheduler.threads.get? id with
  | none => .error .threadRegistered
  | some thread => .ok thread

/-- Changes what is known about a thread. -/
def update (scheduler : Scheduler κ) (id : ThreadId) (change : Thread κ → Thread κ) :
    Scheduler κ :=
  { scheduler with threads := scheduler.threads.modify id change }

/-- Adds a dead thread, named after its number. -/
def addThread (scheduler : Scheduler κ) (stem : String) (priority : Priority)
    (stack : Option Stack) : ThreadId × Scheduler κ :=
  let id := scheduler.threads.nextHandle
  let thread : Thread κ := { name := stem ++ "-" ++ toString id.number, priority, stack }
  (id, { scheduler with threads := scheduler.threads.add thread })

/-- Removes a dead thread. -/
def removeThread (scheduler : Scheduler κ) (id : ThreadId) :
    Except Status (Thread κ × Scheduler κ) := do
  let thread ← scheduler.find id
  if !thread.isDead then
    throw .invalidState
  return (thread, { scheduler with threads := scheduler.threads.erase id })

/-- Declares a thread to be the one that has the processor. -/
def adopt (scheduler : Scheduler κ) (id : ThreadId) : Except Status (Scheduler κ) := do
  let _ ← scheduler.find id
  return { scheduler.update id fun thread => { thread with state := .running } with
    current := some id }

/-- Notes where a thread goes on. -/
def setPosition (scheduler : Scheduler κ) (id : ThreadId) (position : κ) :
    Except Status (Scheduler κ) := do
  let _ ← scheduler.find id
  return scheduler.update id fun thread => { thread with position := some position }

/-- Where a thread goes on, if it is known. -/
def position? (scheduler : Scheduler κ) (id : ThreadId) : Option κ :=
  (scheduler.threads.get? id).bind (·.position)

/-- Forgets where a thread goes on. -/
def forgetPosition (scheduler : Scheduler κ) (id : ThreadId) : Scheduler κ :=
  scheduler.update id fun thread => { thread with position := none }

/-- The priority of the running thread; the lowest if no thread runs yet. -/
def currentPriority (scheduler : Scheduler κ) : Except Invariant Priority :=
  match scheduler.current with
  | none => .ok .idle
  | some id => do return (← scheduler.expect id).priority

/-- Whether a thread has a higher priority than the running one. -/
def outranksCurrent (scheduler : Scheduler κ) (id : ThreadId) : Except Invariant Bool := do
  let thread ← scheduler.expect id
  return (← scheduler.currentPriority) < thread.priority

/-! ## Ready threads -/

/-- Queues a thread for the processor, at the back of its level. -/
def makeReady (scheduler : Scheduler κ) (id : ThreadId) : Except Invariant (Scheduler κ) := do
  let thread ← scheduler.expect id
  return { scheduler.update id fun thread => { thread with state := .ready } with
    ready := scheduler.ready.push thread.priority id }

/-- Queues the running thread again, if it is still running. -/
def requeueCurrent (scheduler : Scheduler κ) : Except Invariant (Scheduler κ) :=
  match scheduler.current with
  | none => .ok scheduler
  | some id => do
    let thread ← scheduler.expect id
    if thread.state = .running then scheduler.makeReady id else return scheduler

/-- Gives the processor to the next ready thread. -/
def pickNext (scheduler : Scheduler κ) : Except Invariant (Switch × Scheduler κ) :=
  match scheduler.ready.takeHighest? fun _ => true with
  | none => .error .threadReady
  | some (target, ready) => do
    let _ ← scheduler.expect target
    return ({ source := scheduler.current, target },
      { scheduler.update target fun thread => { thread with state := .running } with
        ready, current := some target })

/-! ## Waiting threads -/

/-- Lets a thread wait. -/
def block (scheduler : Scheduler κ) (id : ThreadId) (reason : WaitReason) (timeout : Timeout) :
    Except Invariant (Scheduler κ) := do
  let _ ← scheduler.expect id
  return { scheduler.update id fun thread =>
      { thread.arm reason timeout with state := .waiting } with
    waiting := scheduler.waiting.add reason id }

/-- Ends a thread's wait without saying what it does next. -/
def stopWaiting (scheduler : Scheduler κ) (id : ThreadId) : Except Invariant (Scheduler κ) := do
  let thread ← scheduler.expect id
  let scheduler := scheduler.update id Thread.disarm
  match thread.waitingFor with
  | none => return scheduler
  | some reason => return { scheduler with waiting := scheduler.waiting.remove reason id }

/-- Ends a thread's wait and queues it for the processor. -/
def wake (scheduler : Scheduler κ) (id : ThreadId) : Except Invariant (Scheduler κ) := do
  (← scheduler.stopWaiting id).makeReady id

end Scheduler

end CoopKernel
