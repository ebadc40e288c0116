import CoopKernel.Kernel.Snapshot
import CoopKernel.Kernel.Step

/-!
# Scripts

A script is a program written down as a list of steps. A step makes a call, asks a question, raises
an interrupt, or controls the script itself. Scripts of one system know each other by name.
-/

namespace CoopKernel.Script

/-- An address in a script. -/
inductive AddressRef
  /-- As it is written: relative to its pool if the pool is a built-in one. -/
  | written (offset : Nat)
  /-- The last address that the thread obtained. -/
  | last
deriving DecidableEq, Repr

/-- What beginning an asynchronous operation does with the token that completes it. -/
inductive TokenUse
  /-- It completes the operation at once. -/
  | complete (result : Int32)
  /-- It keeps the token in a slot, where any thread can find it. -/
  | store (slot : Nat)
  /-- It drops the token, so that nobody ever completes the operation. -/
  | drop
  /-- It calls the kernel, which is not allowed there. -/
  | nested
deriving DecidableEq, Repr

/-- A question that is answered without delivering interrupts. -/
inductive Question
  | current
  | state (thread : ThreadId)
  | priority (thread : ThreadId)
  | mutexOwner (mutex : MutexId)
  | poolFree (pool : PoolId)
  | poolStats (pool : PoolId)
  | ticks
  | pending
  /-- The built-in threads and pools, and the tick period. -/
  | builtIn
  | describe
  | snapshot
deriving DecidableEq, Repr

/-- One step of a script. -/
inductive Step
  | call (call : Call String)
  | terminateSelf
  | free (pool : PoolId) (address : AddressRef)
  | releaseBuffer (address : AddressRef)
  | awaitIo (use : TokenUse)
  | ask (question : Question)
  | raise (interrupt : Interrupt)
  /-- Completes the operation whose token is in a slot. -/
  | complete (slot : Nat) (result : Int32)
  | panic (message : String)
  | exit
  /-- Runs steps a number of times. -/
  | times (count : Nat) (body : List Step)

/-- What a step gives. -/
inductive Value
  | nothing
  | number (n : Int)
  | text (s : String)
  | numbers (ns : List Nat)
  | stats (figures : Memory.Stats)
  | snapshot (picture : Snapshot)
  | refusal (status : Status)
deriving Repr

namespace Value

/-- A handle as a value. -/
def ofHandle {sort : ObjectSort} (handle : Handle sort) : Value := .number handle.number

/-- The value of an outcome, or its refusal. -/
def ofExcept {α : Type} (value : α → Value) : Except Status α → Value
  | .ok a => value a
  | .error status => .refusal status

end Value

/-- The answer to a question. -/
def Question.answer {ε : Type} (kernel : Kernel ε) : Question → Value
  | current => (kernel.sched.current.map Value.ofHandle).getD .nothing
  | state thread => .ofExcept (fun state => .text state.name) (kernel.threadState thread)
  | priority thread => .ofExcept (fun level => .text level.name) (kernel.threadPriority thread)
  | mutexOwner mutex =>
    .ofExcept (fun owner => (owner.map Value.ofHandle).getD .nothing) (kernel.mutexOwner mutex)
  | poolFree pool => .ofExcept (fun free => .number free) (kernel.poolQuery pool)
  | poolStats pool => .ofExcept .stats (kernel.poolStats pool)
  | ticks => .number kernel.sched.ticks
  | pending => .number kernel.line.pending.length
  | builtIn =>
    .numbers [kernel.main.number, kernel.idle.number, kernel.systemPool.number,
      kernel.sharedPool.number, kernel.config.tickMs]
  | describe => .text kernel.describe
  | snapshot => .snapshot kernel.snapshot

/-- The scripts of a system by name. -/
abbrev Scripts := List (String × List Step)

end CoopKernel.Script
