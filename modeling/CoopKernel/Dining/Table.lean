import CoopKernel.Handle

/-!
# The dining table

Philosophers sit around a table with a fork between any two neighbours, and each needs the fork on
either side to eat. A fork is a mutex. A philosopher asks for the fork with the lower number first,
so no circle of philosophers can wait for each other.

The table shows what each philosopher is doing and how many meals it has begun.
-/

namespace CoopKernel.Dining

/-- What a philosopher is doing. -/
inductive Phase
  | thinking
  | hungry
  | eating
deriving DecidableEq, Repr

namespace Phase

/-- The word that is announced when a philosopher enters a phase. -/
def label : Phase → String
  | thinking => "THINKING"
  | hungry => "HUNGRY"
  | eating => "EATING"

/-- The name of a phase in diagnostic text. -/
def name : Phase → String
  | thinking => "Thinking"
  | hungry => "Hungry"
  | eating => "Eating"

end Phase

/-- What is shown of one seat. -/
structure Seat where
  phase : Phase := .thinking
  meals : Nat := 0
deriving DecidableEq, Repr

/-- The forks and the seats of a table, in order. -/
structure Table where
  forks : List MutexId := []
  seats : List Seat := []
deriving DecidableEq, Repr

namespace Table

/-- Adds a seat with the fork on its left. -/
def addSeat (table : Table) (fork : MutexId) : Table :=
  { forks := table.forks ++ [fork], seats := table.seats ++ [{}] }

/-- The two forks of a seat, the one with the lower number first. -/
def forksOf (table : Table) (seat : Nat) : Option (MutexId × MutexId) := do
  let left ← table.forks[seat]?
  let right ← table.forks[(seat + 1) % table.forks.length]?
  return if left.number < right.number then (left, right) else (right, left)

/-- Shows a philosopher in a phase. -/
def enter (table : Table) (seat : Nat) (phase : Phase) : Table :=
  { table with seats := table.seats.modify seat fun shown => { shown with phase } }

/-- Counts a meal. -/
def serve (table : Table) (seat : Nat) : Table :=
  { table with
    seats := table.seats.modify seat fun shown => { shown with meals := shown.meals + 1 } }

/-- The number of meals so far. -/
def totalMeals (table : Table) : Nat := table.seats.foldr (fun seat meals => seat.meals + meals) 0

end Table

end CoopKernel.Dining
