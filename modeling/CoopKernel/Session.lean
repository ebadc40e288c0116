import CoopKernel.Trace.Tracer
import CoopKernel.Workload
import CoopKernel.Arena

/-!
# Sessions

A session runs a workload on a kernel, one step at a time and in one definite order, because only
one thread runs at any time. It keeps the frames of the threads and a log of everything that was
traced or said.

Time passes only when nothing else can happen: when the idle thread rests and no interrupt is
pending, the session supplies a tick. It may have a limited number of ticks; once they are used up
the session is stalled.
-/

namespace CoopKernel

/-- One entry of a session's log. -/
inductive Note (ω : Type)
  | traced (stamped : Trace.Stamped)
  | said (saying : ω)

/-- How far a session has got. -/
inductive Progress
  /-- It goes on. -/
  | going
  /-- The program of the main thread has ended. -/
  | finished
  /-- Every thread waits for something that does not come. -/
  | stalled
  /-- The kernel found an invariant broken. -/
  | broken (invariant : Invariant)
deriving DecidableEq, Repr

/-- A kernel that runs a workload. -/
structure Session (ε σ γ ω : Type) where
  kernel : Kernel ε
  frames : List (ThreadId × σ) := []
  shared : γ
  /-- What was traced and said, the latest first. -/
  log : List (Note ω) := []
  /-- The ticks that are left to supply; no number means that there is no limit. -/
  supply : Option Nat := none

namespace Session

variable {ε σ γ ω : Type}

/-- The running thread. -/
def me (session : Session ε σ γ ω) : ThreadId := session.kernel.sched.current.getD ⟨0⟩

/-- Notes what a turn left behind. -/
def take (session : Session ε σ γ ω) (thread : ThreadId) (turn : Turn σ γ ω) :
    Session ε σ γ ω :=
  { session with
    frames := (thread, turn.frame) :: session.frames.filter (·.1 != thread)
    shared := turn.shared
    log := (turn.said.map Note.said).reverse ++ session.log }

/-- Puts a kernel in place of the session's, and moves what it has reported into the log. -/
def put (session : Session ε σ γ ω) (kernel : Kernel ε) : Session ε σ γ ω :=
  { session with
    kernel := { kernel with journal := [] }
    log := (kernel.journal.map Note.traced).reverse ++ session.log }

/-- Goes on with what the kernel answers. -/
def follow (session : Session ε σ γ ω) (outcome : Except Invariant (Kernel ε)) :
    Progress × Session ε σ γ ω :=
  match outcome with
  | .ok kernel => (.going, session.put kernel)
  | .error invariant => (.broken invariant, session)

/-- A session in which the main thread begins a program. -/
def begin (workload : Workload ε σ γ ω) (kernel : Kernel ε) (entry : ε) (shared : γ)
    (supply : Option Nat) : Session ε σ γ ω :=
  let session : Session ε σ γ ω := { kernel, shared, supply }
  (session.put kernel).take kernel.main (workload.start kernel.main entry shared)

/-- What the running thread does when it decides. -/
def act (workload : Workload ε σ γ ω) (session : Session ε σ γ ω) (frame : σ) :
    Progress × Session ε σ γ ω :=
  let me := session.me
  let (turn, action) := workload.act session.kernel me frame session.shared
  let session := session.take me turn
  match action with
  | .call call => session.follow (session.kernel.call call)
  | .raise interrupt => (.going, session.put (session.kernel.raise interrupt))
  | .pass => (.going, session)
  | .finish =>
    if me = session.kernel.main then (.finished, session) else session.follow session.kernel.exit

/-- Supplies a tick to a resting kernel, if there is one left. -/
def supplyTick (session : Session ε σ γ ω) : Progress × Session ε σ γ ω :=
  match session.supply with
  | some 0 => (.stalled, session)
  | some (left + 1) =>
    (.going, { session with kernel := session.kernel.raise .tick, supply := some left })
  | none => (.going, { session with kernel := session.kernel.raise .tick })

/-- The turn of a thread to whose program control comes. -/
def receive (workload : Workload ε σ γ ω) (session : Session ε σ γ ω) (arrival : Arrival ε) :
    Session ε σ γ ω :=
  let me := session.me
  match arrival, session.frames.lookup me with
  | .started entry, _ => session.take me (workload.start me entry session.shared)
  | .returned answer, some frame =>
    session.take me (workload.resume me (.ok answer) frame session.shared)
  | .unwound invariant, some frame =>
    session.take me (workload.resume me (.error invariant) frame session.shared)
  | _, none => session

/-- The next step of a session. -/
def step (workload : Workload ε σ γ ω) (session : Session ε σ γ ω) :
    Progress × Session ε σ γ ω :=
  match session.kernel.activity with
  | .program =>
    match session.frames.lookup session.me with
    | none => (.finished, session)
    | some frame => session.act workload frame
  | .arriving arrival => (session.receive workload arrival).follow session.kernel.advance
  | .resting =>
    if session.kernel.line.pending.isEmpty then session.supplyTick
    else session.follow session.kernel.advance
  | _ => session.follow session.kernel.advance

/-- Runs a session for at most `fuel` steps. -/
def run (workload : Workload ε σ γ ω) : Nat → Session ε σ γ ω → Progress × Session ε σ γ ω
  | 0, session => (.going, session)
  | fuel + 1, session =>
    match session.step workload with
    | (.going, session) => session.run workload fuel
    | outcome => outcome

/-- Shuts the kernel down from the main thread, and answers what the call gave back. -/
def shutDown (session : Session ε σ γ ω) : Except Invariant (Answer × Session ε σ γ ω) := do
  let kernel ← (← session.kernel.call .shutdown).advance
  match kernel.activity with
  | .arriving (.returned answer) => return (answer, session.put kernel)
  | _ => return (.ok .done, session.put kernel)

/-- What was traced and said, in order. -/
def notes (session : Session ε σ γ ω) : List (Note ω) := session.log.reverse

end Session

/-! ## Writing a log -/

/-- One entry of a written log: the line of a record, or what was said. -/
inductive Entry (ω : Type)
  | line (text : String)
  | said (saying : ω)

/-- One note as a tracer writes it: a record is numbered and becomes a line, its addresses written
relative to the built-in pools. A record that the tracer turns away leaves no entry. -/
def writeNote {ω : Type} (arena : Arena) (tracer : Trace.Tracer Trace.Discard) :
    Note ω → Option (Entry ω) × Trace.Tracer Trace.Discard
  | .said saying => (some (.said saying), tracer)
  | .traced stamped =>
    let event := arena.writtenEvent stamped.event
    let (tracer, outcome) := tracer.record event.kind.code event.payload stamped.tick
    (outcome.toOption.map fun record => .line record.line, tracer)

/-- The log as a tracer writes it, and the tracer after that. -/
def writeLog {ω : Type} (arena : Arena) (tracer : Trace.Tracer Trace.Discard) :
    List (Note ω) → List (Entry ω) × Trace.Tracer Trace.Discard
  | [] => ([], tracer)
  | note :: notes =>
    let (entry, tracer) := writeNote arena tracer note
    let (entries, tracer) := writeLog arena tracer notes
    (entry.toList ++ entries, tracer)

end CoopKernel
