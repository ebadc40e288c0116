import CoopKernel.Memory.Error

/-!
# Status

The ways in which a kernel operation can refuse. Callers branch on the status, so it says what kind
of refusal it is and nothing about the details.
-/

namespace CoopKernel

/-- A refusal by the kernel. -/
inductive Status
  /-- A timeout, a mutex that was not free, or a general failure. -/
  | failure
  /-- A size, priority, timeout or address that makes no sense. -/
  | invalidParameter
  /-- A handle that names nothing. -/
  | invalidId
  /-- An operation that the state of the object does not allow. -/
  | invalidState
  /-- Memory that cannot be had. -/
  | insufficientResources
deriving DecidableEq, Repr

namespace Status

/-- The text of a status for a user. -/
def message : Status → String
  | failure => "operation failed"
  | invalidParameter => "invalid parameter"
  | invalidId => "invalid id"
  | invalidState => "invalid state"
  | insufficientResources => "insufficient resources"

/-- The name of a status. -/
def name : Status → String
  | failure => "Failure"
  | invalidParameter => "InvalidParameter"
  | invalidId => "InvalidId"
  | invalidState => "InvalidState"
  | insufficientResources => "InsufficientResources"

/-- The number of a status; success has the number zero. -/
def code : Status → Nat
  | failure => 1
  | invalidParameter => 2
  | invalidId => 3
  | invalidState => 4
  | insufficientResources => 5

/-- The status that a pool error is reported as. -/
def ofPoolError : Memory.PoolError → Status
  | .zeroSize => invalidParameter
  | .invalidRegion _ _ => invalidParameter
  | .badAlignment _ => invalidParameter
  | .outOfBounds _ => invalidParameter
  | .notAllocated _ => invalidParameter
  | .unknownPool _ => invalidId
  | .exhausted _ => insufficientResources
  | .inUse _ _ => invalidState
  | .hasWaiters _ _ => invalidState

end Status

end CoopKernel
