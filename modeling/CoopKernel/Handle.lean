import CoopKernel.Text.Layout

/-!
# Handles

Threads, mutexes and pools are named by numbers that are given out from one upwards and never
reused. A handle is such a number together with the sort of object it names, so that a thread cannot
be passed where a mutex is meant.
-/

namespace CoopKernel

/-- The sorts of objects that are named by number. -/
inductive ObjectSort
  | thread
  | mutex
  | pool
deriving DecidableEq, Repr

/-- The number of an object of a given sort. -/
structure Handle (sort : ObjectSort) where
  number : Nat
deriving DecidableEq, Repr

/-- Names a thread. -/
abbrev ThreadId := Handle .thread

/-- Names a mutex. -/
abbrev MutexId := Handle .mutex

/-- Names a memory pool. -/
abbrev PoolId := Handle .pool

namespace ObjectSort

/-- The word for an object of this sort in messages. -/
def word : ObjectSort → String
  | thread => "thread"
  | mutex => "mutex"
  | pool => "pool"

/-- The name of the handles of this sort in diagnostic text. -/
def handleName : ObjectSort → String
  | thread => "ThreadId"
  | mutex => "MutexId"
  | pool => "PoolId"

end ObjectSort

namespace Handle

variable {sort : ObjectSort}

/-- How a handle is written in messages. -/
def label (handle : Handle sort) : String := sort.word ++ "#" ++ toString handle.number

/-- How a handle is written in diagnostic text. -/
def describe (handle : Handle sort) : String :=
  Text.labelled sort.handleName (toString handle.number)

end Handle

end CoopKernel
