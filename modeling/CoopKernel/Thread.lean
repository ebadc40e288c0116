import CoopKernel.Handle
import CoopKernel.Priority
import CoopKernel.Text.Quoted
import CoopKernel.Timeout

/-!
# Threads

What the kernel knows about a thread: its name and priority, where it stands in its life, what it
waits for and how long, the mutexes it holds, its stack, and the position from which it goes on when
it gets the processor. What a position is depends on who runs the threads, so its type is left open.

## Mutexes held

The mutexes a thread holds are listed in ascending order and each once; `hold` and `letGo` keep it
so.
-/

namespace CoopKernel

/-- Where a thread stands in its life. -/
inductive ThreadState
  /-- Created or terminated; it may be activated or deleted. -/
  | dead
  /-- Queued for the processor. -/
  | ready
  /-- Has the processor. -/
  | running
  /-- Waits for something. -/
  | waiting
deriving DecidableEq, Repr

/-- The name of a state in diagnostic text. -/
def ThreadState.name : ThreadState → String
  | dead => "Dead"
  | ready => "Ready"
  | running => "Running"
  | waiting => "Waiting"

/-- What a thread waits for. -/
inductive WaitReason
  | io
  | mutex
  | sleep
  | memory
deriving DecidableEq, Repr

namespace WaitReason

/-- Every reason, in order of rank. -/
def all : List WaitReason := [io, mutex, sleep, memory]

/-- The rank of a reason. -/
def rank : WaitReason → Nat
  | io => 0
  | mutex => 1
  | sleep => 2
  | memory => 3

/-- The name of a reason in diagnostic text. -/
def name : WaitReason → String
  | io => "Io"
  | mutex => "Mutex"
  | sleep => "Sleep"
  | memory => "Memory"

end WaitReason

/-- The memory set aside for a thread's stack. -/
structure Stack where
  address : Nat
  size : Nat
deriving DecidableEq, Repr

/-- What is known about a thread whose positions are of type `κ`. -/
structure Thread (κ : Type) where
  name : String
  priority : Priority
  stack : Option Stack
  state : ThreadState := .dead
  waitingFor : Option WaitReason := none
  countdown : Countdown := .none
  /-- The result of the last asynchronous operation that was reported to the thread. -/
  result : Int32 := 0
  /-- The mutexes it owns, in ascending order. -/
  held : List MutexId := []
  /-- The mutex it has asked for and not got yet. -/
  wanted : Option MutexId := none
  /-- Where it goes on. -/
  position : Option κ := none

namespace Thread

variable {κ : Type}

/-- Whether the thread has the mutex it waits for. -/
def ownsWanted (thread : Thread κ) : Bool :=
  thread.wanted.any fun mutex => thread.held.contains mutex

/-- Whether the thread is dead. -/
def isDead (thread : Thread κ) : Bool := thread.state == .dead

/-- Begins a wait. -/
def arm (thread : Thread κ) (reason : WaitReason) (timeout : Timeout) : Thread κ :=
  { thread with waitingFor := some reason, countdown := .start timeout }

/-- Ends a wait. -/
def disarm (thread : Thread κ) : Thread κ :=
  { thread with waitingFor := none, countdown := .none }

/-- Puts a mutex among ascending ones, if it is not there already. -/
def insertMutex (mutex : MutexId) : List MutexId → List MutexId
  | [] => [mutex]
  | first :: rest =>
    if first.number < mutex.number then first :: insertMutex mutex rest
    else if first = mutex then first :: rest
    else mutex :: first :: rest

/-- Adds a mutex to those the thread holds. -/
def hold (thread : Thread κ) (mutex : MutexId) : Thread κ :=
  { thread with held := insertMutex mutex thread.held }

/-- Removes a mutex from those the thread holds. -/
def letGo (thread : Thread κ) (mutex : MutexId) : Thread κ :=
  { thread with held := thread.held.filter (· != mutex) }

/-- The thread in diagnostic text. -/
def describe (thread : Thread κ) (id : ThreadId) : String :=
  Text.fields "Tcb"
    [("id", id.describe), ("name", Text.quoted thread.name), ("priority", thread.priority.name),
      ("state", thread.state.name), ("waiting_for", Text.optional (thread.waitingFor.map (·.name))),
      ("held", Text.braced (thread.held.map (·.describe)))]

end Thread

end CoopKernel
