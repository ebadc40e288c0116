import CoopKernel.Text.Layout

/-!
# Timeouts

How long a call may wait, and what is left of a wait that has begun. A wait of zero ticks is the
same as not waiting at all, which `Timeout.normalized` makes visible.
-/

namespace CoopKernel

/-- How long a call may wait. -/
inductive Timeout
  /-- Not at all. -/
  | immediate
  /-- Until something ends the wait. -/
  | infinite
  /-- For at most this many ticks. -/
  | ticks (count : Nat)
deriving DecidableEq, Repr

namespace Timeout

/-- The same timeout, with zero ticks written as no wait. -/
def normalized : Timeout → Timeout
  | ticks 0 => immediate
  | timeout => timeout

/-- The timeout of a number of ticks. -/
def ofTicks (count : Nat) : Timeout := (ticks count).normalized

/-- The timeout in diagnostic text. -/
def describe : Timeout → String
  | immediate => "Immediate"
  | infinite => "Infinite"
  | ticks count => Text.labelled "Ticks" (toString count)

end Timeout

/-- What is left of a wait. -/
inductive Countdown
  /-- Ticks do not end the wait. -/
  | unlimited
  /-- The wait ends after this many more ticks. -/
  | remaining (ticks : Nat)
deriving DecidableEq, Repr

namespace Countdown

/-- The countdown of a thread that does not wait. -/
def none : Countdown := remaining 0

/-- The countdown of a wait that begins now. Only a number of ticks can run out. -/
def start (timeout : Timeout) : Countdown :=
  match timeout.normalized with
  | .ticks count => remaining count
  | .infinite => unlimited
  | .immediate => unlimited

/-- The countdown after one tick. -/
def next : Countdown → Countdown
  | unlimited => unlimited
  | remaining ticks => remaining (ticks - 1)

/-- Whether the wait has run out. -/
def expired : Countdown → Bool
  | unlimited => false
  | remaining ticks => ticks == 0

end Countdown

end CoopKernel
