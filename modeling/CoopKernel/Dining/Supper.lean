import CoopKernel.Dining.Table
import CoopKernel.Kernel.Start
import CoopKernel.Kernel.Snapshot
import CoopKernel.Session

/-!
# Supper

Supper is a workload. The main thread is the host: it lays the table, seats one thread for each
philosopher and looks at the table from time to time. A philosopher thinks, gets hungry, takes its
forks, eats, and puts the forks back, over and over; the seats think and eat for slightly different
times so that they do not move in step. A philosopher to whom the kernel refuses anything leaves the
table, and a host to whom it refuses anything ends supper.

The step of a thread is what it does next. It moves on when the call that the step makes is
answered.
-/

namespace CoopKernel.Dining

/-! ## How supper is served -/

/-- When the host stops looking. -/
inductive Closing
  /-- Before the first look that would begin at this many ticks or more. -/
  | before (ticks : Nat)
  /-- After the first look that ends at this many ticks or more. -/
  | after (ticks : Nat)
  /-- Never. -/
  | never
deriving DecidableEq, Repr

/-- How supper is served. -/
structure Menu where
  seats : Nat
  /-- The ticks that seat zero thinks. -/
  think : Nat
  /-- The ticks that seat zero eats. -/
  eat : Nat
  /-- The ticks between two looks of the host. -/
  every : Nat
  closing : Closing
  /-- The size of the stack of a philosopher's thread. -/
  stack : Nat
  /-- The priorities of the first philosophers; the others have the normal one. -/
  priorities : List Priority := []
deriving DecidableEq, Repr

namespace Menu

/-- The ticks that a seat thinks. -/
def thinkTicks (menu : Menu) (seat : Nat) : Nat := menu.think + seat

/-- The ticks that a seat eats. -/
def eatTicks (menu : Menu) (seat : Nat) : Nat := menu.eat + seat % 3

/-- The priority of a seat's thread. -/
def priority (menu : Menu) (seat : Nat) : Priority := menu.priorities.getD seat .normal

end Menu

/-- Whether the host stops before it looks again at this many ticks. -/
def Closing.stopsBefore (ticks : Nat) : Closing → Bool
  | before limit => limit ≤ ticks
  | _ => false

/-- Whether the host stops after it looked at this many ticks. -/
def Closing.stopsAfter (ticks : Nat) : Closing → Bool
  | after limit => limit ≤ ticks
  | _ => false

/-! ## The programs -/

/-- The programs of supper. -/
inductive Role
  | host
  | philosopher (seat : Nat)
deriving DecidableEq, Repr

/-- What the host does next. -/
inductive HostStep
  | lay
  /-- It makes the thread of a seat. -/
  | seat (seat : Nat)
  /-- It activates the thread of a seat. -/
  | bring (seat : Nat) (thread : ThreadId)
  | wait
  | look
  | leave
deriving DecidableEq, Repr

/-- What a philosopher does next. -/
inductive DinerStep
  | think
  | takeFirst
  | takeSecond
  | eat
  | putSecond
  | putFirst
  | leave
deriving DecidableEq, Repr

namespace DinerStep

/-- What a philosopher does after a call that was granted. -/
def next : DinerStep → DinerStep
  | think => takeFirst
  | takeFirst => takeSecond
  | takeSecond => eat
  | eat => putSecond
  | putSecond => putFirst
  | putFirst => think
  | leave => leave

end DinerStep

/-- Where a program of supper is. -/
inductive Course
  | host (step : HostStep)
  | philosopher (seat : Nat) (step : DinerStep)
deriving DecidableEq, Repr

/-- What is said at supper. -/
inductive Announcement
  /-- A philosopher entered a phase. -/
  | entered (seat : Nat) (phase : Phase)
  /-- A philosopher put both forks back. -/
  | released (seat : Nat) (first second : MutexId)
  /-- A philosopher left the table. -/
  | left (seat : Nat) (status : Status)
  /-- The host looked at the table. -/
  | looked (ticks : Nat) (seats : List Seat)
deriving DecidableEq, Repr

/-- What the threads share: the table, and what the host was refused. -/
structure Hall where
  table : Table := {}
  failure : Option Status := none
deriving DecidableEq, Repr

/-- The turns of supper. -/
abbrev SupperTurn := Turn Course Hall Announcement

/-- A program of supper begins. -/
def start (_ : ThreadId) (role : Role) (hall : Hall) : SupperTurn :=
  match role with
  | .host => { frame := .host .lay, shared := hall }
  | .philosopher seat => { frame := .philosopher seat .think, shared := hall }

/-- The host's call is granted. -/
def resumeHost (step : HostStep) (reply : Reply) (hall : Hall) : SupperTurn :=
  match step, reply with
  | .lay, .mutex fork =>
    { frame := .host .lay, shared := { hall with table := hall.table.addSeat fork } }
  | .seat seat, .thread thread => { frame := .host (.bring seat thread), shared := hall }
  | .bring seat _, _ => { frame := .host (.seat (seat + 1)), shared := hall }
  | .wait, _ => { frame := .host .look, shared := hall }
  | _, _ => { frame := .host .leave, shared := hall }

/-- A philosopher's call is granted. -/
def resumePhilosopher (seat : Nat) (step : DinerStep) (hall : Hall) : SupperTurn :=
  let said := match step, hall.table.forksOf seat with
    | .putFirst, some (first, second) => [.released seat first second]
    | _, _ => []
  { frame := .philosopher seat step.next, shared := hall, said }

/-- A call at supper is answered. -/
def resume (_ : ThreadId) (outcome : Except Invariant Answer) (course : Course) (hall : Hall) :
    SupperTurn :=
  match course, outcome with
  | .host step, .ok (.ok reply) => resumeHost step reply hall
  | .host _, .ok (.error status) =>
    { frame := .host .leave, shared := { hall with failure := some status } }
  | .philosopher seat step, .ok (.ok _) => resumePhilosopher seat step hall
  | .philosopher seat _, .ok (.error status) =>
    { frame := .philosopher seat .leave, shared := hall, said := [.left seat status] }
  | .host _, .error _ => { frame := .host .leave, shared := hall }
  | .philosopher seat _, .error _ => { frame := .philosopher seat .leave, shared := hall }

/-- What the host does. -/
def actHost (menu : Menu) (ticks : Nat) (step : HostStep) (hall : Hall) :
    SupperTurn × Action Role :=
  let stay : SupperTurn := { frame := .host step, shared := hall }
  let move (step : HostStep) : SupperTurn × Action Role :=
    ({ frame := .host step, shared := hall }, .pass)
  match step with
  | .lay =>
    if hall.table.forks.length < menu.seats then (stay, .call .mutexCreate) else move (.seat 0)
  | .seat seat =>
    if seat < menu.seats then
      (stay, .call (.threadCreate (.philosopher seat) menu.stack (menu.priority seat)))
    else
      move .wait
  | .bring _ thread => (stay, .call (.threadActivate thread))
  | .wait =>
    if menu.closing.stopsBefore ticks then move .leave
    else (stay, .call (.sleep (.ticks menu.every)))
  | .look =>
    let after : HostStep := if menu.closing.stopsAfter ticks then .leave else .wait
    ({ frame := .host after, shared := hall, said := [.looked ticks hall.table.seats] }, .pass)
  | .leave => (stay, .finish)

/-- What a philosopher does. -/
def actPhilosopher (menu : Menu) (seat : Nat) (step : DinerStep) (hall : Hall) :
    SupperTurn × Action Role :=
  let stay : SupperTurn := { frame := .philosopher seat step, shared := hall }
  let enter (phase : Phase) (table : Table) : SupperTurn :=
    { stay with shared := { hall with table := table.enter seat phase }
                said := [.entered seat phase] }
  match hall.table.forksOf seat with
  | none => (stay, .finish)
  | some (first, second) =>
    match step with
    | .think => (enter .thinking hall.table, .call (.sleep (.ticks (menu.thinkTicks seat))))
    | .takeFirst => (enter .hungry hall.table, .call (.mutexAcquire first .infinite))
    | .takeSecond => (stay, .call (.mutexAcquire second .infinite))
    | .eat =>
      (enter .eating (hall.table.serve seat), .call (.sleep (.ticks (menu.eatTicks seat))))
    | .putSecond => (stay, .call (.mutexRelease second))
    | .putFirst => (stay, .call (.mutexRelease first))
    | .leave => (stay, .finish)

/-- What a thread at supper does. -/
def act (menu : Menu) (kernel : Kernel Role) (_ : ThreadId) (course : Course) (hall : Hall) :
    SupperTurn × Action Role :=
  match course with
  | .host step => actHost menu kernel.sched.ticks step hall
  | .philosopher seat step => actPhilosopher menu seat step hall

/-- Supper as a workload. -/
def workload (menu : Menu) : Workload Role Course Hall Announcement where
  start := start
  resume := resume
  act := act menu

/-! ## A whole supper -/

/-- A supper that is being served. -/
abbrev Supper := Session Role Course Hall Announcement

/-- A supper that is about to be served on a new kernel. -/
def begin (config : Config) (arena : Arena) (menu : Menu) (supply : Option Nat) :
    Except Failure Supper := do
  let kernel ← Kernel.start config arena
  return Session.begin (workload menu) kernel .host {} supply

/-- What is known when the host has left. -/
structure Report where
  /-- The number of meals, or what the host was refused. -/
  meals : Except Status Nat
  notes : List (Note Announcement)
  /-- The figures of the system pool before the shutdown. -/
  system : Except Status Memory.Stats
  shutdown : Answer

/-- Shuts the kernel of a supper down and reports. -/
def close (supper : Supper) : Except Failure Report := do
  let (shutdown, _) ← supper.shutDown.mapError .broken
  let meals := match supper.shared.failure with
    | some status => .error status
    | none => .ok supper.shared.table.totalMeals
  return { meals, notes := supper.notes, shutdown
           system := supper.kernel.poolStats supper.kernel.systemPool }

/-- Serves a supper on a new kernel for at most `fuel` steps, with as many ticks as it needs; no
report if the host has not left by then. -/
def serve (fuel : Nat) (config : Config) (arena : Arena) (menu : Menu) :
    Except Failure (Option Report) := do
  let supper ← begin config arena menu none
  match supper.run (workload menu) fuel with
  | (.finished, supper) => some <$> close supper
  | (.broken invariant, _) => throw (.broken invariant)
  | _ => return none

end CoopKernel.Dining
