import CoopKernel.Kernel.Start
import CoopKernel.Script.Step
import CoopKernel.Session

/-!
# Running scripts

Scripts are a workload: the frame of a thread is what is left of its script, and the threads share
the tokens that were stored. A thread says when it begins a script and what each step gave; steps
are counted from zero and repeated ones count again. A step that never comes back gives nothing.
-/

namespace CoopKernel.Script

/-- Where a thread is in its script. -/
structure Frame where
  todo : List Step
  /-- The number of the next step. -/
  index : Nat := 0
  /-- The last address that the thread obtained, as it is written. -/
  lastAddress : Nat := 0
  /-- The pool from which the call that is under way asks for memory. -/
  asked : Option PoolId := none
  /-- The message of the panic that is ending the script. -/
  crash : Option String := none

/-- What the threads share. -/
structure Board where
  /-- The threads whose tokens are stored, by slot. -/
  slots : List (Nat × ThreadId) := []
  /-- The message of the panic that ended the main thread's script. -/
  verdict : Option String := none

/-- What a thread says. -/
inductive Saying
  | started (thread : ThreadId)
  | completed (thread : ThreadId) (index : Nat) (value : Value)

/-- The turns of scripts. -/
abbrev ScriptTurn := Turn Frame Board Saying

/-- A turn after which the thread goes on with its next step. -/
def completed (me : ThreadId) (frame : Frame) (board : Board) (value : Value) : ScriptTurn :=
  { frame := { frame with index := frame.index + 1, asked := none }
    shared := board
    said := [.completed me frame.index value] }

/-- The pool from which a call asks for memory. -/
def askedPool {ε : Type} (kernel : Kernel ε) : Call String → Option PoolId
  | .allocate pool _ => some pool
  | .allocateBlocking pool _ => some pool
  | .bufferAcquire => some kernel.sharedPool
  | _ => none

/-- What an operation begun by `me` does with its token. -/
def TokenUse.issue (me : ThreadId) : TokenUse → Issue
  | complete result => .raising [.ioComplete me result]
  | store _ => .raising []
  | drop => .raising []
  | nested => .reentrant

/-- The stored tokens after `me` has begun an operation. A kernel that is shut down begins none. -/
def TokenUse.slots {ε : Type} (kernel : Kernel ε) (me : ThreadId) (slots : List (Nat × ThreadId)) :
    TokenUse → List (Nat × ThreadId)
  | store slot => if kernel.stopped then slots else (slot, me) :: slots.filter (·.1 != slot)
  | _ => slots

/-- A thread begins a script. -/
def start (scripts : Scripts) (me : ThreadId) (name : String) (board : Board) : ScriptTurn :=
  { frame := { todo := (scripts.lookup name).getD [] }, shared := board, said := [.started me] }

/-- A thread's call is answered. -/
def resume (arena : Arena) (me : ThreadId) (outcome : Except Invariant Answer) (frame : Frame)
    (board : Board) : ScriptTurn :=
  match outcome with
  | .error invariant =>
    { frame := { frame with crash := some invariant.message }, shared := board }
  | .ok (.error status) => completed me frame board (.refusal status)
  | .ok (.ok reply) =>
    match reply with
    | .done => completed me frame board .nothing
    | .thread id => completed me frame board (.ofHandle id)
    | .mutex id => completed me frame board (.ofHandle id)
    | .pool id => completed me frame board (.ofHandle id)
    | .result value => completed me frame board (.number value.toInt)
    | .address address =>
      let written := match frame.asked with
        | none => address
        | some pool => arena.written pool address
      completed me { frame with lastAddress := written } board (.number written)

/-- A thread's script ends by a panic. Only the main thread's message is kept. -/
def crash {ε : Type} (kernel : Kernel ε) (me : ThreadId) (frame : Frame) (board : Board)
    (message : String) : ScriptTurn × Action String :=
  let verdict := if me = kernel.main then some message else board.verdict
  ({ frame, shared := { board with verdict } }, .finish)

/-- A thread takes a step. -/
def act (arena : Arena) (kernel : Kernel String) (me : ThreadId) (frame : Frame) (board : Board) :
    ScriptTurn × Action String :=
  let resolve (pool : PoolId) : AddressRef → Nat
    | .written offset => arena.absolute pool offset
    | .last => arena.absolute pool frame.lastAddress
  match frame.crash, frame.todo with
  | some message, _ => crash kernel me frame board message
  | none, [] => ({ frame, shared := board }, .finish)
  | none, step :: todo =>
    let frame := { frame with todo }
    match step with
    | .call call =>
      ({ frame := { frame with asked := askedPool kernel call }, shared := board }, .call call)
    | .terminateSelf => ({ frame, shared := board }, .call (.threadTerminate me))
    | .free pool address =>
      ({ frame, shared := board }, .call (.free pool (resolve pool address)))
    | .releaseBuffer address =>
      ({ frame, shared := board }, .call (.bufferRelease (resolve kernel.sharedPool address)))
    | .awaitIo use =>
      ({ frame, shared := { board with slots := use.slots kernel me board.slots } },
        .call (.awaitIo (use.issue me)))
    | .ask question => (completed me frame board (question.answer kernel), .pass)
    | .raise interrupt => (completed me frame board .nothing, .raise interrupt)
    | .complete slot result =>
      match board.slots.lookup slot with
      | none => (completed me frame board .nothing, .pass)
      | some thread =>
        let board := { board with slots := board.slots.filter (·.1 != slot) }
        (completed me frame board (.ofHandle thread), .raise (.ioComplete thread result))
    | .panic message => crash kernel me frame board message
    | .exit => ({ frame, shared := board }, .finish)
    | .times 0 _ => ({ frame, shared := board }, .pass)
    | .times (count + 1) body =>
      let todo := body ++ .times count body :: todo
      ({ frame := { frame with todo }, shared := board }, .pass)

/-- Scripts as a workload. -/
def workload (scripts : Scripts) (arena : Arena) : Workload String Frame Board Saying where
  start := start scripts
  resume := resume arena
  act := act arena

/-! ## Reports -/

/-- How the main thread's script ended. -/
inductive Ending
  | done
  | stalled
  | panicked (message : String)
deriving DecidableEq, Repr

/-- What is known after a run: the log, the kernel when the main script had ended or the session had
stalled, and what the shutdown that follows an ended script answered. -/
structure Report where
  ending : Ending
  notes : List (Note Saying)
  final : Snapshot
  shutdown : Option Answer

/-- Runs the script `main` of a system on a new kernel for at most `fuel` steps. -/
def run (fuel : Nat) (config : Config) (arena : Arena) (scripts : Scripts) (supply : Option Nat) :
    Except Failure Report := do
  let kernel ← Kernel.start config arena
  let workload := workload scripts arena
  let (progress, session) :=
    (Session.begin workload kernel "main" {} supply).run workload fuel
  match progress with
  | .broken invariant => throw (.broken invariant)
  | .finished =>
    let (answer, _) ← session.shutDown.mapError .broken
    let ending := match session.shared.verdict with
      | none => .done
      | some message => .panicked message
    return { ending, notes := session.notes, final := session.kernel.snapshot
             shutdown := some answer }
  | _ =>
    return { ending := .stalled, notes := session.notes, final := session.kernel.snapshot
             shutdown := none }

end CoopKernel.Script
