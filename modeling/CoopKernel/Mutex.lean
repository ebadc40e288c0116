import CoopKernel.Handle
import CoopKernel.LevelQueue

/-!
# Mutexes

A mutex belongs to at most one thread; it is locked exactly while it has an owner. Threads that wait
for it stand in a level queue, and the one to be served next is the first of the highest level.
-/

namespace CoopKernel

/-- The owner of a mutex and the threads that wait for it. -/
structure Mutex where
  owner : Option ThreadId := none
  waiters : LevelQueue ThreadId := {}
deriving DecidableEq, Repr

namespace Mutex

/-- Whether a thread owns the mutex. -/
def isLocked (mutex : Mutex) : Bool := mutex.owner.isSome

/-- Lets a thread wait at its priority. -/
def addWaiter (mutex : Mutex) (thread : ThreadId) (priority : Priority) : Mutex :=
  { mutex with waiters := mutex.waiters.push priority thread }

/-- Unlinks a thread from the waiting ones, if it is there. -/
def stopWaiting (mutex : Mutex) (thread : ThreadId) : Mutex :=
  match mutex.waiters.takeLowest? (· == thread) with
  | none => mutex
  | some (_, waiters) => { mutex with waiters }

/-- Passes the mutex to the first thread of the highest level that waits, or to nobody. -/
def pass (mutex : Mutex) : Option ThreadId × Mutex :=
  match mutex.waiters.takeHighest? fun _ => true with
  | none => (none, { mutex with owner := none })
  | some (thread, waiters) => (some thread, { owner := some thread, waiters })

/-- The mutex in diagnostic text. -/
def describe (mutex : Mutex) (id : MutexId) : String :=
  let queue (priority : Priority) : String :=
    Text.sequence ((mutex.waiters.level priority).map (·.describe))
  Text.fields "Mutex"
    [("id", id.describe), ("owner", Text.optional (mutex.owner.map (·.describe))),
      ("waiters", Text.sequence (Priority.ascending.map queue))]

end Mutex

end CoopKernel
