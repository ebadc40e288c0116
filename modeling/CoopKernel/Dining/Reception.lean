import CoopKernel.Dining.Order
import CoopKernel.Dining.Supper

/-!
# Reception

What stands between a command line and supper. An order that can be met becomes a kernel on which
supper is about to be served, with a menu. Any other command line ends in a farewell: something to
print, a complaint, and an exit code.

Here is also how supper is shown: the line of each announcement, and the lines around them.
-/

namespace CoopKernel.Dining

/-! ## Farewells -/

/-- What a run that serves no supper leaves behind. -/
structure Farewell where
  exitCode : Nat
  output : String := ""
  complaint : String := ""
deriving DecidableEq, Repr

/-- The help line of an option or flag. -/
def Key.helpLine (key : Key) : String :=
  let short := match key.letter with
    | none => "    "
    | some letter => String.ofList ['-', letter, ',', ' ']
  let purpose := match key with
    | .setting s => s.purpose ++ " [default: " ++ toString (({} : Order).get s) ++ "]"
    | .flag f => f.purpose
  "  " ++ String.ofList (Text.padRight 35 ' ' (short ++ key.usage).toList) ++ purpose ++ "\n"

/-- How the program is called. -/
def usageLine : String := "Usage: vm-dpp [OPTIONS]\n"

/-- What is printed to who asks for help. -/
def helpText : String :=
  "Dining philosophers on the vm cooperative runtime\n\n" ++ usageLine ++ "\nOptions:\n" ++
    String.join (Key.all.map Key.helpLine)

/-- The farewell to a command line that gives no order. -/
def NoOrder.farewell : NoOrder → Farewell
  | help => { exitCode := 0, output := helpText }
  | version => { exitCode := 0, output := "vm-dpp 0.1.0\n" }
  | wrong error =>
    { exitCode := 2
      complaint := "error: " ++ error.message ++ "\n\n" ++ usageLine ++
        "\nFor more information, try '--help'.\n" }

/-! ## Orders that can be met -/

namespace Order

/-- The settings of the kernel on which supper is served. -/
def config (order : Order) : Config :=
  { name := "dpp", tickMs := order.tickMs, traced := order.trace }

/-- The ticks in a number of milliseconds, in periods of at least one. -/
def ticksIn (order : Order) (milliseconds : Nat) : Nat := milliseconds / max order.tickMs 1

/-- How supper is served: the host looks about once a second. -/
def menu (order : Order) : Menu where
  seats := order.philosophers
  think := order.think
  eat := order.eat
  every := max (order.ticksIn 1000) 1
  closing :=
    match order.ticksIn (order.seconds * 1000) with
    | 0 => .never
    | limit => .after limit
  stack := 32 * 1024

end Order

/-- What is said of a failure to start. -/
def failureText : Failure → String
  | .refused status => status.message
  | .broken invariant => invariant.message

/-- The farewell to an order whose kernel does not start. -/
def bootFarewell (config : Config) (failure : Failure) : Farewell :=
  let warning := match config.validate with
    | .ok () => ""
    | .error _ => "WARN  vmk::runtime: rejected config " ++ config.describe ++ "\n"
  { exitCode := 1
    complaint := warning ++ "Error: booting the runtime\n\nCaused by:\n    " ++
      failureText failure ++ "\n" }

/-- What an order leads to: between two and sixteen philosophers can be seated. Ticks are supplied
from outside. -/
def Order.prepare (order : Order) : Except Farewell Supper :=
  if 2 ≤ order.philosophers ∧ order.philosophers ≤ 16 then
    (begin order.config {} order.menu (some 0)).mapError (bootFarewell order.config)
  else
    .error { exitCode := 1
             complaint := "Error: between 2 and 16 philosophers can sit at the table\n" }

/-- What a command line leads to. -/
def receive (arguments : List String) : Except Farewell (Order × Supper) := do
  let order ← (Order.ofArguments arguments).mapError NoOrder.farewell
  return (order, ← order.prepare)

/-! ## How supper is shown -/

/-- The line in which a philosopher's phase is announced. -/
def phaseLine (seat : Nat) (phase : Phase) : String :=
  "philosopher " ++ toString seat ++ " " ++ phase.label

/-- What is shown of a seat beside the others: its number if it is not thinking. -/
def seatMark (number : Nat) (seat : Seat) : String :=
  if seat.phase = .thinking then "-" else toString number

/-- The line in which the host's look at the table is shown. -/
def statusLine (ticks : Nat) (seats : List Seat) : String :=
  let meals := seats.map fun seat => String.ofList (Text.padLeft 3 ' ' (Text.decimal seat.meals))
  "status tick " ++ String.ofList (Text.padLeft 6 ' ' (Text.decimal ticks)) ++
    " | table [" ++ " ".intercalate (seats.mapIdx seatMark) ++
    "] | meals [" ++ " ".intercalate meals ++ "]"

/-- What is shown before supper. -/
def openingText (order : Order) : String :=
  "\nDining Philosophers\n" ++ toString order.philosophers ++ " philosophers, tick " ++
    toString order.tickMs ++ " ms, Ctrl-C to stop\n\n"

/-- What is logged after supper. -/
def poolLine (figures : Memory.Stats) : String :=
  "INFO  vm_dpp: system pool: " ++ toString figures.usedBytes ++ " of " ++
    toString figures.size ++ " bytes in use, low water " ++ toString figures.minFreeBytes ++ " free"

/-- What is shown after supper. -/
def closingText (meals : Nat) : String := "\nDone: " ++ toString meals ++ " meals served\n"

/-- Where a line is shown. -/
inductive Channel
  | output
  | log
deriving DecidableEq, Repr

/-- The line of an announcement, if it is shown at all. -/
def Announcement.shown (verbose : Bool) : Announcement → Option (Channel × String)
  | entered seat phase => some (.output, phaseLine seat phase)
  | looked ticks seats => some (.output, statusLine ticks seats)
  | left seat status =>
    some (.log, "ERROR vm_dpp: philosopher " ++ toString seat ++ " left the table: " ++
      status.message)
  | released seat first second =>
    if verbose then
      some (.log, "DEBUG vm_dpp::table: philosopher " ++ toString seat ++ " released " ++
        first.label ++ " and " ++ second.label)
    else
      none

end CoopKernel.Dining
