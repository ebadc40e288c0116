import CoopKernel.Text.Quoted
import CoopKernel.Text.Layout

/-!
# Batons

A hosted thread is a thread of the host that runs only while it has been told to. Each has a baton,
a place for one signal: run on, or come to an end. The thread waits at its baton until there is a
signal. A signal to run is used up by the thread that sees it; a signal to end is final, it is never
used up and never replaced.
-/

namespace CoopKernel.Hosted

/-- What a baton says. -/
inductive Signal
  | parked
  | run
  | exit
deriving DecidableEq, Repr

/-- The name of a signal in diagnostic text. -/
def Signal.name : Signal → String
  | parked => "Parked"
  | run => "Run"
  | exit => "Exit"

/-- The place where a hosted thread waits. -/
structure Baton where
  signal : Signal := .parked
deriving DecidableEq, Repr

namespace Baton

/-- Puts a signal, unless the thread has been told to end. -/
def give (baton : Baton) (signal : Signal) : Baton :=
  if baton.signal = .exit then baton else { signal }

/-- The baton after its thread has seen the signal. -/
def taken (baton : Baton) : Baton :=
  if baton.signal = .run then { signal := .parked } else baton

@[simp] theorem give_exit (signal : Signal) : ({ signal := .exit } : Baton).give signal =
    { signal := .exit } := rfl

@[simp] theorem taken_exit : ({ signal := .exit } : Baton).taken = { signal := .exit } := rfl

end Baton

end CoopKernel.Hosted
