import CoopKernel.Handle
import CoopKernel.Text.Numeral

/-!
# Pool errors

Why an operation on memory pools is refused, with what a message needs to say so.
-/

namespace CoopKernel.Memory

/-- A refusal by a pool or by the registry of pools. -/
inductive PoolError
  | zeroSize
  | invalidRegion (base size : Nat)
  | badAlignment (alignment : Nat)
  | unknownPool (pool : PoolId)
  | outOfBounds (address : Nat)
  | notAllocated (address : Nat)
  | exhausted (requested : Nat)
  | inUse (pool : PoolId) (outstanding : Nat)
  | hasWaiters (pool : PoolId) (waiters : Nat)
deriving DecidableEq, Repr

namespace PoolError

/-- A number in hexadecimal with its customary mark. -/
def hex (n : Nat) : String := "0x" ++ String.ofList (Text.hexadecimal n)

/-- The text of the error for a user. -/
def message : PoolError → String
  | zeroSize => "requested size is zero"
  | invalidRegion base size => "region " ++ hex base ++ "+" ++ hex size ++ " is not usable"
  | badAlignment alignment => "alignment " ++ toString alignment ++ " is not a power of two"
  | unknownPool pool => pool.label ++ " not found"
  | outOfBounds address => "address " ++ hex address ++ " lies outside the pool"
  | notAllocated address => "address " ++ hex address ++ " is not a live allocation"
  | exhausted requested => "no free segment can hold " ++ toString requested ++ " bytes"
  | inUse pool outstanding =>
    pool.label ++ " still has " ++ toString outstanding ++ " bytes allocated"
  | hasWaiters pool waiters => pool.label ++ " still has " ++ toString waiters ++ " blocked threads"

/-- The name of the cause. -/
def name : PoolError → String
  | zeroSize => "ZeroSize"
  | invalidRegion _ _ => "InvalidRegion"
  | badAlignment _ => "BadAlignment"
  | unknownPool _ => "UnknownPool"
  | outOfBounds _ => "OutOfBounds"
  | notAllocated _ => "NotAllocated"
  | exhausted _ => "Exhausted"
  | inUse _ _ => "InUse"
  | hasWaiters _ _ => "HasWaiters"

/-- The error in diagnostic text. -/
def describe (error : PoolError) : String :=
  match error with
  | zeroSize => error.name
  | invalidRegion base size =>
    Text.fields error.name [("base", toString base), ("size", toString size)]
  | badAlignment alignment => Text.labelled error.name (toString alignment)
  | unknownPool pool => Text.labelled error.name pool.describe
  | outOfBounds address => Text.labelled error.name (toString address)
  | notAllocated address => Text.labelled error.name (toString address)
  | exhausted requested => Text.fields error.name [("requested", toString requested)]
  | inUse pool outstanding =>
    Text.fields error.name [("pool", pool.describe), ("outstanding", toString outstanding)]
  | hasWaiters pool waiters =>
    Text.fields error.name [("pool", pool.describe), ("waiters", toString waiters)]

end PoolError

end CoopKernel.Memory
