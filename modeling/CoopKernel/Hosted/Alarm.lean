import CoopKernel.Interrupt

/-!
# The alarm

An alarm raises a tick on an interrupt line once in every period until it is stopped. The period is
at least one millisecond.
-/

namespace CoopKernel.Hosted

/-- A source of ticks. -/
structure Alarm where
  periodMs : Nat
  running : Bool := true
  /-- The number of ticks it has raised. -/
  raised : Nat := 0
deriving DecidableEq, Repr

namespace Alarm

/-- An alarm that begins to run. -/
def start (tickMs : Nat) : Alarm := { periodMs := max tickMs 1 }

/-- What happens at the end of a period. -/
def fire (alarm : Alarm) (line : Line) : Alarm × Line :=
  if alarm.running then ({ alarm with raised := alarm.raised + 1 }, line.raise .tick)
  else (alarm, line)

/-- What happens in a number of periods. -/
def elapse : Nat → Alarm → Line → Alarm × Line
  | 0, alarm, line => (alarm, line)
  | periods + 1, alarm, line =>
    let (alarm, line) := alarm.fire line
    elapse periods alarm line

/-- Stops the alarm for good. -/
def stop (alarm : Alarm) : Alarm := { alarm with running := false }

/-- What is seen of an alarm that is stopped after some periods: whether it raised enough ticks,
whether exactly those are on the line, and whether it stays as it is afterwards. -/
def trial (alarm : Alarm) (periods : Nat) : Bool × Bool × Bool :=
  let (alarm, line) := alarm.elapse periods {}
  let stopped := alarm.stop
  let (later, lineLater) := stopped.stop.elapse 1 line
  (periods ≤ stopped.raised,
    line.pending.length == stopped.raised && line.pending.all (· == .tick),
    later == stopped && lineLater == line)

end Alarm

end CoopKernel.Hosted
