import CoopKernel.Invariant

/-!
# Critical sections

Kernel state is used inside a critical section, in which no interrupt is delivered. Sections do not
nest: whatever lock is asked for, a thread that is inside a section cannot enter another one.
-/

namespace CoopKernel

/-- Whether the running thread is inside a section. -/
structure CriticalSection where
  inside : Bool := false
deriving DecidableEq, Repr

namespace CriticalSection

/-- Enters a section; sections do not nest. -/
def enter (gate : CriticalSection) : Except Invariant CriticalSection :=
  if gate.inside then .error .sectionFree else .ok { inside := true }

/-- Leaves the section. -/
def leave (_ : CriticalSection) : CriticalSection := { inside := false }

end CriticalSection

/-- Numbers behind locks. A thread may use at most one of them at a time, inside a section. -/
structure LockedCells where
  gate : CriticalSection := {}
  /-- The lock that is held. -/
  guard : Option Nat := none
  /-- The number behind each lock that is not zero. -/
  values : List (Nat × Int) := []
deriving DecidableEq, Repr

namespace LockedCells

/-- The number behind a lock. -/
def value (cells : LockedCells) (lock : Nat) : Int := (cells.values.lookup lock).getD 0

/-- Enters the section of a lock, and answers the number behind it. -/
def enter (cells : LockedCells) (lock : Nat) : Except Invariant (Int × LockedCells) := do
  let gate ← cells.gate.enter
  return (cells.value lock, { cells with gate, guard := some lock })

/-- Adds to the number behind the held lock, and answers the sum. -/
def add (cells : LockedCells) (amount : Int) : Option Int × LockedCells :=
  match cells.guard with
  | none => (none, cells)
  | some lock =>
    let sum := cells.value lock + amount
    (some sum, { cells with values := (lock, sum) :: cells.values.filter (·.1 != lock) })

/-- Leaves the section, and says whether there was one. -/
def leave (cells : LockedCells) : Bool × LockedCells :=
  match cells.guard with
  | none => (false, cells)
  | some _ => (true, { cells with gate := cells.gate.leave, guard := none })

end LockedCells

end CoopKernel
