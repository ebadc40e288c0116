import CoopKernel.Config
import CoopKernel.Critical
import CoopKernel.Interrupt
import CoopKernel.Memory.Pools
import CoopKernel.Scheduler.Clock
import CoopKernel.Scheduler.Termination
import CoopKernel.Trace.Event

/-!
# The kernel

The kernel carries out the calls of the running thread, delivers interrupts, and moves the processor
from thread to thread. Its threads run programs that it knows nothing about: a program is named by
an entry of type `ε`, which the kernel keeps and hands back when the program is to be begun.

## Where threads stand

A thread that does not run is suspended in one of two places. Either it made a call that gave the
processor away, and goes on inside the critical section with what is left of the call (`Pending`).
Or it was interrupted while it left the section, and goes on delivering interrupts before it gets to
its `Destination`. A thread that has just been activated is in the second place too: it delivers
what is pending and then begins.

The running thread is either in its own program, or in the kernel at one of the same places; the
kernel's `Activity` says which.

## The shape of a call

A call enters the critical section, changes the state, and either replies or suspends its thread.
A reply leaves the section; before the program sees it, the pending interrupts are delivered one
after the other, and any of them may give the processor to somebody else.

## What programs leave behind

The kernel holds the entries of threads, and the frames of threads that do not run. It gives them up
inside the section, when a thread is activated again or removed, and nothing comes of that here: the
values of a program are taken not to call the kernel when they are dropped, and a reply is taken to
go to a program that does not come down in a panic. What becomes of a kernel whose programs are not
like that is told by `Laden`.
-/

namespace CoopKernel

/-- What a call that succeeds gives back. -/
inductive Reply
  | done
  | thread (id : ThreadId)
  | mutex (id : MutexId)
  | pool (id : PoolId)
  | address (value : Nat)
  | result (value : Int32)
deriving DecidableEq, Repr

/-- What a call gives back. -/
abbrev Answer := Except Status Reply

/-- What beginning an asynchronous operation does while its thread is still in the section. -/
inductive Issue
  /-- It puts interrupts on the line; most operations put none. -/
  | raising (interrupts : List Interrupt)
  /-- It calls the kernel again, which is not allowed. -/
  | reentrant
deriving DecidableEq, Repr

/-- What a program can ask of the kernel. -/
inductive Call (ε : Type)
  | threadCreate (entry : ε) (stackSize : Nat) (priority : Priority)
  | threadActivate (thread : ThreadId)
  | threadTerminate (thread : ThreadId)
  | threadDelete (thread : ThreadId)
  | sleep (timeout : Timeout)
  | mutexCreate
  | mutexDelete (mutex : MutexId)
  | mutexAcquire (mutex : MutexId) (timeout : Timeout)
  | mutexRelease (mutex : MutexId)
  | poolCreate (base size : Nat)
  | poolDelete (pool : PoolId)
  | allocate (pool : PoolId) (size : Nat)
  | allocateBlocking (pool : PoolId) (size : Nat)
  | free (pool : PoolId) (address : Nat)
  | bufferAcquire
  | bufferRelease (address : Nat)
  | tick
  | ioComplete (thread : ThreadId) (result : Int32)
  | poll
  | awaitIo (issue : Issue)
  | shutdown
deriving Repr

/-- What an allocation is for. -/
inductive Purpose (ε : Type)
  /-- The address itself. -/
  | address
  /-- The stack of a new thread. -/
  | stack (entry : ε) (priority : Priority)
deriving Repr

/-- What is left to do, inside the section, of a call that gave the processor away. -/
inductive Pending (ε : Type)
  /-- Nothing but the reply. -/
  | reply (answer : Answer)
  /-- To see whether the mutex was got. -/
  | acquire (mutex : MutexId) (thread : ThreadId)
  /-- To try the allocation again. -/
  | allocate (pool : PoolId) (size : Nat) (purpose : Purpose ε)
  /-- To fetch the result. -/
  | awaitIo (thread : ThreadId)
deriving Repr

/-- Where a thread gets to when no interrupt is pending any more. -/
inductive Destination (ε : Type)
  /-- Back to its program, with the answer to its call. -/
  | reply (answer : Answer)
  /-- To the beginning of its program. -/
  | start (entry : ε)
  /-- To rest until the next interrupt; this is all the idle thread does. -/
  | rest
deriving Repr

/-- Where a suspended thread goes on. -/
inductive Position (ε : Type)
  | inside (pending : Pending ε)
  | delivering (destination : Destination ε)
deriving Repr

/-- How control comes to a program. -/
inductive Arrival (ε : Type)
  /-- The program begins. -/
  | started (entry : ε)
  /-- A call of the program is answered. -/
  | returned (answer : Answer)
  /-- A call of the program ended by a broken invariant that the program itself broke. -/
  | unwound (invariant : Invariant)
deriving Repr

/-- What the running thread is doing. -/
inductive Activity (ε : Type)
  /-- It is in its program. -/
  | program
  /-- It is coming to its program. -/
  | arriving (arrival : Arrival ε)
  /-- It rests until an interrupt is pending. -/
  | resting
  /-- It goes on with a call, inside the section. -/
  | resuming (pending : Pending ε)
  /-- It is leaving the section and delivers interrupts. -/
  | delivering (destination : Destination ε)
deriving Repr

/-- The whole state of a kernel. -/
structure Kernel (ε : Type) where
  config : Config
  sched : Scheduler (Position ε)
  pools : Memory.Pools
  /-- What each thread does when it is activated. -/
  entries : List (ThreadId × Destination ε)
  /-- The thread that started the kernel. -/
  main : ThreadId
  /-- The thread that runs when no other can. -/
  idle : ThreadId
  /-- The pool that stacks are taken from. -/
  systemPool : PoolId
  /-- The pool that transfer buffers are taken from. -/
  sharedPool : PoolId
  line : Line := {}
  stopped : Bool := false
  gate : CriticalSection := {}
  activity : Activity ε := .program
  /-- What the kernel has reported so far, in order. -/
  journal : List Trace.Stamped := []

namespace Kernel

variable {ε : Type}

/-! ## The section and the reply -/

/-- Enters the critical section. -/
def enter (kernel : Kernel ε) : Except Invariant (Kernel ε) := do
  return { kernel with gate := ← kernel.gate.enter }

/-- Leaves the critical section. -/
def leave (kernel : Kernel ε) : Kernel ε := { kernel with gate := kernel.gate.leave }

/-- Reports an event. -/
def emit (kernel : Kernel ε) (event : Trace.Event) : Kernel ε :=
  { kernel with journal := kernel.journal ++ [{ event, tick := kernel.sched.ticks }] }

/-- Leaves the section towards the program, with the answer to its call. -/
def reply (kernel : Kernel ε) (answer : Answer) : Kernel ε :=
  { kernel.leave with activity := .delivering (.reply answer) }

/-- Leaves the section with a refusal. -/
def refuse (kernel : Kernel ε) (status : Status) : Kernel ε := kernel.reply (.error status)

/-- Comes to the program. -/
def arrive (kernel : Kernel ε) (arrival : Arrival ε) : Kernel ε :=
  { kernel with activity := .arriving arrival }

/-- Answers a call that was refused before it entered the section. -/
def refuseAtOnce (kernel : Kernel ε) (status : Status) : Kernel ε :=
  kernel.arrive (.returned (.error status))

/-- Carries out a call inside the section, unless the kernel is shut down. -/
def inSection (kernel : Kernel ε) (body : Kernel ε → Except Invariant (Kernel ε)) :
    Except Invariant (Kernel ε) := do
  let kernel ← kernel.enter
  if kernel.stopped then
    return kernel.refuse .invalidState
  body kernel

/-- Goes on with the outcome of an operation, or replies with its refusal. -/
def orRefuse {α : Type} (kernel : Kernel ε) (outcome : Except Status α)
    (next : α → Except Invariant (Kernel ε)) : Except Invariant (Kernel ε) :=
  match outcome with
  | .ok value => next value
  | .error status => .ok (kernel.refuse status)

/-- Goes on with the outcome of a scheduling operation, replies with its refusal, or stops at the
invariant that it found broken. -/
def orFail {α : Type} (kernel : Kernel ε) (outcome : Except Failure α)
    (next : α → Except Invariant (Kernel ε)) : Except Invariant (Kernel ε) :=
  match outcome with
  | .ok value => next value
  | .error (.refused status) => .ok (kernel.refuse status)
  | .error (.broken invariant) => .error invariant

/-- Goes on with the outcome of an operation on pools, or replies with its refusal. -/
def orRefusePool {α : Type} (kernel : Kernel ε) (outcome : Except Memory.PoolError α)
    (next : α → Except Invariant (Kernel ε)) : Except Invariant (Kernel ε) :=
  kernel.orRefuse (outcome.mapError Status.ofPoolError) next

/-- The running thread. -/
def me (kernel : Kernel ε) : Except Invariant ThreadId :=
  match kernel.sched.current with
  | none => .error .threadRunning
  | some thread => .ok thread

/-! ## Giving the processor away -/

/-- Goes on at a position. -/
def resume (kernel : Kernel ε) : Position ε → Kernel ε
  | .inside pending =>
    { kernel with gate := { inside := true }, activity := .resuming pending }
  | .delivering destination =>
    { kernel with gate := { inside := false }, activity := .delivering destination }

/-- Gives the processor to the next ready thread; the running thread will go on at `here`. If the
running thread itself is picked it goes on at once and nothing is reported. -/
def switchNext (kernel : Kernel ε) (here : Position ε) : Except Invariant (Kernel ε) := do
  if !kernel.gate.inside then
    throw .sectionHeld
  let (switch, sched) ← kernel.sched.pickNext
  let kernel := { kernel with sched }
  if !switch.isSwitch then
    return kernel.resume here
  let source := switch.source.getD ⟨0⟩
  let kernel := kernel.emit
    (if switch.target = kernel.idle then .idle source switch.target
      else .switch source switch.target)
  match kernel.sched.position? switch.target with
  | none => throw .readyPosition
  | some there =>
    if (switch.source.bind kernel.sched.position?).isNone then
      throw .runningPosition
    let sched := kernel.sched.update source fun thread => { thread with position := some here }
    return { kernel with sched }.resume there

/-- Queues the running thread again and gives the processor away. -/
def yield (kernel : Kernel ε) (here : Position ε) : Except Invariant (Kernel ε) := do
  let sched ← kernel.sched.requeueCurrent
  { kernel with sched }.switchNext here

/-- Replies, but not before a candidate that outranks the running thread has had the processor. -/
def preemptFor (kernel : Kernel ε) (candidate : ThreadId) (answer : Answer) :
    Except Invariant (Kernel ε) := do
  if ← kernel.sched.outranksCurrent candidate then
    (kernel.emit (.preempt candidate)).yield (.inside (.reply answer))
  else
    return kernel.reply answer

end Kernel

end CoopKernel
