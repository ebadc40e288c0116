import CoopKernel.Kernel.Step

/-!
# Workloads

A workload says what the programs of a kernel's threads do. Each thread has a frame, the local state
of its program; all threads share one state besides. A program acts in turns: it is begun, or it is
answered, or it decides what to do next. What it wants others to know it says aloud.

Nothing here depends on what the programs are, so a statement about every workload is a statement
about all programs.
-/

namespace CoopKernel

/-- What a program leaves behind after a turn. -/
structure Turn (σ γ ω : Type) where
  frame : σ
  shared : γ
  /-- What it said, in order. -/
  said : List ω := []

/-- What a program does next. -/
inductive Action (ε : Type)
  /-- It calls the kernel. -/
  | call (call : Call ε)
  /-- It puts an interrupt on the line and goes on. -/
  | raise (interrupt : Interrupt)
  /-- It goes on without the kernel. -/
  | pass
  /-- It ends. -/
  | finish

/-- The programs of a kernel's threads: entries of type `ε`, frames of type `σ`, a shared state of
type `γ`, and sayings of type `ω`. -/
structure Workload (ε σ γ ω : Type) where
  /-- The turn of a thread that begins the program of an entry. -/
  start : ThreadId → ε → γ → Turn σ γ ω
  /-- The turn of a thread whose call is answered, or ended by an invariant it broke. -/
  resume : ThreadId → Except Invariant Answer → σ → γ → Turn σ γ ω
  /-- The turn of a thread that decides what to do next. It may look at the kernel. -/
  act : Kernel ε → ThreadId → σ → γ → Turn σ γ ω × Action ε

end CoopKernel
