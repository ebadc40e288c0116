import CoopKernel.Priority
import CoopKernel.Trace.Record
import CoopKernel.Handle

/-!
# Kernel events

What the kernel reports about itself, in terms of threads, mutexes and pools. An event determines
the code and the payload of the record that it is written as.
-/

namespace CoopKernel.Trace

/-- A happening in the kernel. -/
inductive Event
  /-- Another thread than the idle one got the processor. -/
  | switch (source target : ThreadId)
  /-- The idle thread got the processor. -/
  | idle (source target : ThreadId)
  /-- A tick was processed; this is its number. -/
  | tick (count : Nat)
  /-- The running thread gives way to one that outranks it. -/
  | preempt (thread : ThreadId)
  | threadCreate (thread : ThreadId) (priority : Priority)
  | threadActivate (thread : ThreadId)
  | threadTerminate (thread : ThreadId)
  | threadDelete (thread : ThreadId)
  | sleep (thread : ThreadId) (ticks : Nat)
  /-- A timed wait of the thread is over. -/
  | wake (thread : ThreadId)
  /-- An asynchronous result reached the thread. -/
  | ioDone (thread : ThreadId) (result : Int32)
  | mutexCreate (mutex : MutexId)
  | mutexDelete (mutex : MutexId)
  | acquire (mutex : MutexId) (thread : ThreadId)
  /-- The thread begins to wait for the mutex. -/
  | block (mutex : MutexId) (thread : ThreadId)
  | release (mutex : MutexId) (thread : ThreadId)
  /-- The mutex was passed on to the thread. -/
  | handoff (mutex : MutexId) (thread : ThreadId)
  /-- The thread stopped waiting for the mutex without getting it. -/
  | timeout (mutex : MutexId) (thread : ThreadId)
  | poolCreate (pool : PoolId) (base size : Nat)
  | poolDelete (pool : PoolId)
  | alloc (pool : PoolId) (address size : Nat)
  | free (pool : PoolId) (address : Nat)
  /-- The thread begins to wait for memory. -/
  | wait (pool : PoolId) (thread : ThreadId)
deriving DecidableEq, Repr

namespace Event

/-- The kind of record an event is written as. -/
def kind : Event → Kind
  | switch _ _ => .schedNext
  | idle _ _ => .schedIdle
  | tick _ => .schedTick
  | preempt _ => .schedPreempt
  | threadCreate _ _ => .threadCreate
  | threadActivate _ => .threadActivate
  | threadTerminate _ => .threadTerminate
  | threadDelete _ => .threadDelete
  | sleep _ _ => .threadSleep
  | wake _ => .threadWake
  | ioDone _ _ => .threadIoDone
  | mutexCreate _ => .mutexCreate
  | mutexDelete _ => .mutexDelete
  | acquire _ _ => .mutexAcquire
  | block _ _ => .mutexBlock
  | release _ _ => .mutexRelease
  | handoff _ _ => .mutexHandoff
  | timeout _ _ => .mutexTimeout
  | poolCreate _ _ _ => .poolCreate
  | poolDelete _ => .poolDelete
  | alloc _ _ _ => .poolAlloc
  | free _ _ => .poolFree
  | wait _ _ => .poolWait

/-- A handle as a field: its number in four bytes. -/
def handleField {sort : ObjectSort} (handle : Handle sort) : Field :=
  .word (UInt32.ofNat handle.number)

/-- A count, a size or an address as a field of eight bytes. -/
def sizeField (n : Nat) : Field := .long (UInt64.ofNat n)

/-- The fields of the record an event is written as. -/
def fields : Event → List Field
  | switch source target => [handleField source, handleField target]
  | idle source target => [handleField source, handleField target]
  | tick count => [sizeField count]
  | preempt thread => [handleField thread]
  | threadCreate thread priority => [handleField thread, .byte (UInt8.ofNat priority.rank)]
  | threadActivate thread => [handleField thread]
  | threadTerminate thread => [handleField thread]
  | threadDelete thread => [handleField thread]
  | sleep thread ticks => [handleField thread, sizeField ticks]
  | wake thread => [handleField thread]
  | ioDone thread result => [handleField thread, .signed result]
  | mutexCreate mutex => [handleField mutex]
  | mutexDelete mutex => [handleField mutex]
  | acquire mutex thread => [handleField mutex, handleField thread]
  | block mutex thread => [handleField mutex, handleField thread]
  | release mutex thread => [handleField mutex, handleField thread]
  | handoff mutex thread => [handleField mutex, handleField thread]
  | timeout mutex thread => [handleField mutex, handleField thread]
  | poolCreate pool base size => [handleField pool, sizeField base, sizeField size]
  | poolDelete pool => [handleField pool]
  | alloc pool address size => [handleField pool, sizeField address, sizeField size]
  | free pool address => [handleField pool, sizeField address]
  | wait pool thread => [handleField pool, handleField thread]

/-- The payload of the record an event is written as. -/
def payload (event : Event) : List UInt8 := encode event.fields

end Event

/-- An event with the number of ticks at which it happened. -/
structure Stamped where
  event : Event
  tick : Nat
deriving DecidableEq, Repr

end CoopKernel.Trace
