/-!
# Record kinds

Every trace record carries a one-byte code that says what kind of happening it describes. The codes
are grouped by subject, sixteen to a group: scheduling, threads, mutexes, memory. A code that names
no kind belongs to a user of the library and is shown as such.

## Laws

`Kind.ofCode?_code` reads a kind back from its code.
-/

namespace CoopKernel.Trace

/-- What a trace record describes. -/
inductive Kind
  | schedNext
  | schedIdle
  | schedTick
  | schedPreempt
  | threadCreate
  | threadActivate
  | threadTerminate
  | threadDelete
  | threadSleep
  | threadWake
  | threadIoDone
  | mutexCreate
  | mutexDelete
  | mutexAcquire
  | mutexBlock
  | mutexRelease
  | mutexHandoff
  | mutexTimeout
  | poolCreate
  | poolDelete
  | poolAlloc
  | poolFree
  | poolWait
deriving DecidableEq, Repr

namespace Kind

/-- Every kind, in the order of the codes. -/
def all : List Kind :=
  [schedNext, schedIdle, schedTick, schedPreempt,
    threadCreate, threadActivate, threadTerminate, threadDelete, threadSleep, threadWake,
    threadIoDone,
    mutexCreate, mutexDelete, mutexAcquire, mutexBlock, mutexRelease, mutexHandoff, mutexTimeout,
    poolCreate, poolDelete, poolAlloc, poolFree, poolWait]

/-- The byte that stands for a kind in a record. -/
def code : Kind → UInt8
  | schedNext => 1
  | schedIdle => 2
  | schedTick => 3
  | schedPreempt => 4
  | threadCreate => 16
  | threadActivate => 17
  | threadTerminate => 18
  | threadDelete => 19
  | threadSleep => 20
  | threadWake => 21
  | threadIoDone => 22
  | mutexCreate => 32
  | mutexDelete => 33
  | mutexAcquire => 34
  | mutexBlock => 35
  | mutexRelease => 36
  | mutexHandoff => 37
  | mutexTimeout => 38
  | poolCreate => 48
  | poolDelete => 49
  | poolAlloc => 50
  | poolFree => 51
  | poolWait => 52

/-- The symbolic name shown for a kind. -/
def name : Kind → String
  | schedNext => "SCHED_NEXT"
  | schedIdle => "SCHED_IDLE"
  | schedTick => "SCHED_TICK"
  | schedPreempt => "SCHED_PREEMPT"
  | threadCreate => "THREAD_CREATE"
  | threadActivate => "THREAD_ACTIVATE"
  | threadTerminate => "THREAD_TERMINATE"
  | threadDelete => "THREAD_DELETE"
  | threadSleep => "THREAD_SLEEP"
  | threadWake => "THREAD_WAKE"
  | threadIoDone => "THREAD_IO_DONE"
  | mutexCreate => "MUTEX_CREATE"
  | mutexDelete => "MUTEX_DELETE"
  | mutexAcquire => "MUTEX_ACQUIRE"
  | mutexBlock => "MUTEX_BLOCK"
  | mutexRelease => "MUTEX_RELEASE"
  | mutexHandoff => "MUTEX_HANDOFF"
  | mutexTimeout => "MUTEX_TIMEOUT"
  | poolCreate => "POOL_CREATE"
  | poolDelete => "POOL_DELETE"
  | poolAlloc => "POOL_ALLOC"
  | poolFree => "POOL_FREE"
  | poolWait => "POOL_WAIT"

/-- The kind a code stands for, if it stands for one. -/
def ofCode? (code : UInt8) : Option Kind := all.find? fun kind => kind.code == code

theorem ofCode?_code (kind : Kind) : ofCode? kind.code = some kind := by
  cases kind <;> rfl

end Kind

/-- The name shown for a record code; a code without a kind is a user's own. -/
def codeName (code : UInt8) : String := ((Kind.ofCode? code).map Kind.name).getD "USER"

end CoopKernel.Trace
