import CoopKernel.Hosted.Alarm
import CoopKernel.Script.Run

/-!
# Booting a hosted kernel

A hosted kernel starts with or without an alarm. A first tour of it looks at what is built in, lets
time pass, shuts it down and tries to use it once more.
-/

namespace CoopKernel.Hosted

/-- How time passes on a tour. -/
inductive Pastime
  /-- It does not. -/
  | none
  /-- By one tick that the tour delivers itself. -/
  | tick
  /-- By a sleep of some ticks, which an alarm supplies. -/
  | sleep (ticks : Nat)
deriving DecidableEq, Repr

/-- What a tour finds. -/
structure Tour where
  /-- The numbers of the main and the idle thread and of the system and the shared pool. -/
  ids : List Nat
  system : Memory.Stats
  shared : Memory.Stats
  /-- The states of the main and the idle thread. -/
  states : List String
  /-- What the call that let time pass gave. -/
  passed : Script.Value
  /-- The number of ticks after that. -/
  ticks : Nat
  shutdown : Script.Value
  /-- What a call after the shutdown gave. -/
  after : Script.Value

namespace Tour

/-- The steps of a tour. -/
def steps (pastime : Pastime) : List Script.Step :=
  [.ask .builtIn, .ask (.poolStats ⟨1⟩), .ask (.poolStats ⟨2⟩), .ask (.state ⟨1⟩),
    .ask (.state ⟨2⟩),
    match pastime with
    | .none => .ask .pending
    | .tick => .call .tick
    | .sleep ticks => .call (.sleep (.ticks ticks)),
    .ask .ticks, .call .shutdown, .call .poll]

/-- What the steps gave, in order. -/
def values (notes : List (Note Script.Saying)) : List Script.Value :=
  notes.filterMap fun
    | .said (.completed _ _ value) => some value
    | _ => none

/-- Reads what the steps of a tour gave. -/
def ofValues : List Script.Value → Option Tour
  | [.numbers builtIn, .stats system, .stats shared, .text mainState, .text idleState, passed,
      .number ticks, shutdown, after] =>
    some { ids := builtIn.take 4, system, shared, states := [mainState, idleState], passed
           ticks := ticks.toNat, shutdown, after }
  | _ => none

/-- Boots a kernel and takes a tour; nothing if the tour is not over within `fuel` steps. -/
def take (fuel : Nat) (config : Config) (pastime : Pastime) : Except Failure (Option Tour) := do
  let report ← Script.run fuel config {} [("main", steps pastime)] none
  return ofValues (values report.notes)

end Tour

end CoopKernel.Hosted
