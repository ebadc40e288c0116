import CoopKernel.Dining.Reception
import CoopKernel.Hosted.Alarm

/-!
# The program

Serves a supper as the command line orders it. The kernel's ticks are supplied as time passes: when
nothing else can happen, the program sleeps for a period and raises a tick.
-/

namespace CoopKernel.Dining

/-- Shows what has been traced and said. -/
def showNotes (order : Order) (tracer : Trace.Tracer Trace.Discard)
    (notes : List (Note Announcement)) : IO (Trace.Tracer Trace.Discard) := do
  let (entries, tracer) := writeLog {} tracer notes
  for entry in entries do
    match entry with
    | .line text => if order.trace then IO.println text
    | .said announcement =>
      match announcement.shown order.verbose with
      | some (.output, text) => IO.println text
      | some (.log, text) => IO.eprintln text
      | none => pure ()
  (← IO.getStdout).flush
  return tracer

/-- Serves a supper until the host leaves. -/
partial def host (order : Order) (tracer : Trace.Tracer Trace.Discard) (supper : Supper) :
    IO (Except Failure Report) := do
  let (progress, supper) := supper.run (workload order.menu) 10000
  let tracer ← showNotes order tracer supper.notes
  let supper := { supper with log := [] }
  match progress with
  | .going => host order tracer supper
  | .finished => return close supper
  | .broken invariant => return .error (.broken invariant)
  | .stalled =>
    IO.sleep (UInt32.ofNat (Hosted.Alarm.start order.tickMs).periodMs)
    host order tracer { supper with kernel := supper.kernel.raise .tick }

/-- Serves an order. -/
def serveOrder (order : Order) (supper : Supper) : IO UInt32 := do
  IO.print (openingText order)
  match ← host order { backend := {} } supper with
  | .ok { meals := .ok meals, system, .. } =>
    if let .ok figures := system then
      IO.eprintln (poolLine figures)
    IO.print (closingText meals)
    return 0
  | .ok { meals := .error status, .. } =>
    IO.eprintln ("Error: " ++ status.message)
    return 1
  | .error failure =>
    IO.eprintln ("Error: " ++ failureText failure)
    return 1

end CoopKernel.Dining

/-- Serves the supper that the arguments order, or says why there is none. -/
def main (arguments : List String) : IO UInt32 := do
  match CoopKernel.Dining.receive arguments with
  | .ok (order, supper) => CoopKernel.Dining.serveOrder order supper
  | .error farewell =>
    IO.print farewell.output
    IO.eprint farewell.complaint
    return UInt32.ofNat farewell.exitCode
