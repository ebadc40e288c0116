import CoopKernel.Handle

/-!
# Interrupts

An interrupt is news from outside the running program: time has passed, or an operation that some
thread waits for has finished. Interrupts are put on a line at any moment and taken from it, oldest
first, when the running thread is ready to hear of them.
-/

namespace CoopKernel

/-- News that waits to be delivered. -/
inductive Interrupt
  /-- One period of the clock has passed. -/
  | tick
  /-- An operation that a thread has begun is over. -/
  | ioComplete (thread : ThreadId) (result : Int32)
deriving DecidableEq, Repr

/-- The interrupts that wait to be delivered, oldest first. -/
structure Line where
  pending : List Interrupt := []
deriving DecidableEq, Repr

namespace Line

/-- Puts an interrupt on the line. -/
def raise (line : Line) (interrupt : Interrupt) : Line :=
  { pending := line.pending ++ [interrupt] }

/-- Takes the oldest interrupt off the line. -/
def take? (line : Line) : Option (Interrupt × Line) :=
  match line.pending with
  | [] => none
  | interrupt :: rest => some (interrupt, { pending := rest })

/-- The line when a halted thread goes on: a halt ends at once if something is pending, and
otherwise when the next interrupt arrives. -/
def afterHalt (line : Line) (arriving : Interrupt) : Line :=
  if line.pending.isEmpty then line.raise arriving else line

/-- The line in diagnostic text. -/
def describe (line : Line) : String :=
  Text.fields "InterruptLine" [("pending", toString line.pending.length)]

end Line

end CoopKernel
