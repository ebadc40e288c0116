import CoopKernel.Proofs.Kernel.Consistency
import CoopKernel.Proofs.Kernel.Parting

/-!
# No invariant is ever found broken

Wherever the kernel relies on one of its invariants it looks whether the invariant holds, and stops
with its name if it does not (`Invariant`). That never happens by itself (`Laden.unbroken_of_play`):
whatever the programs do, panics included, in whatever order interrupts come, and however the
threads are interleaved, a course only ends at something that no program can do.

There are two ways for programs to break an invariant themselves, and both are calls from inside the
section. A program may call the kernel while it begins an asynchronous operation
(`Occurrence.reenters`), and what the entry of a thread has captured may call it when the thread is
removed (`Laden.exists_tripped`). Such a call ends the call that it is part of, and nothing but the
program is told so; a course without such calls has no such endings either.
-/

namespace CoopKernel

variable {ε : Type}

/-- Whether a move begins an asynchronous operation that calls the kernel from inside the
section. -/
def Move.reenters : Move ε → Bool
  | .call (.awaitIo .reentrant) => true
  | _ => false

/-- Whether such a move is made. -/
def Occurrence.reenters : Occurrence ε → Bool
  | .move request => request.reenters
  | _ => false

namespace Kernel

variable {W : PoolId → Prop} {k k' : Kernel ε} {move : Move ε} {moves : List (Move ε)}

/-- Only a call from inside the section ends by a broken invariant. -/
theorem Moved.arrivals (h : Moved move k k') (hmove : move.reenters = false)
    (harrivals : ∀ invariant, k.activity ≠ .arriving (.unwound invariant)) (invariant : Invariant) :
    k'.activity ≠ .arriving (.unwound invariant) := by
  intro hactivity
  cases h.effect with
  | still _ _ _ _ hdrift =>
    rw [hactivity] at hdrift
    generalize hafter : Activity.arriving (.unwound invariant) = after at hdrift
    cases hdrift with
    | stays => exact harrivals invariant hafter.symm
    | reaches _ _ => rename_i destination _ _; cases destination <;> cases hafter
    | unwinds hcall _ =>
      rw [hcall] at hmove
      cases hmove
    | _ => cases hafter
  | turn _ _ hturn =>
    have hunderway := hturn.underway
    rw [hactivity] at hunderway
    cases hunderway
  | shutdown _ _ _ _ _ _ answer hanswer _ =>
    rw [hactivity] at hanswer
    cases hanswer

end Kernel

namespace Laden

variable {W : PoolId → Prop} {y y' : Laden ε} {occurrence : Occurrence ε}
  {course : List (Occurrence ε)}

theorem Stirs.arrivals (h : y.Stirs occurrence y') (hsound : y.kernel.Sound W)
    (hreenters : occurrence.reenters = false) (huntripped : y.untripped occurrence = true)
    (harrivals : ∀ invariant, y.kernel.activity ≠ .arriving (.unwound invariant)) :
    ∀ invariant, y'.kernel.activity ≠ .arriving (.unwound invariant) := by
  cases h with
  | moves _ hallowed hrun =>
    rw [after_kernel]
    exact (hsound.moved hallowed hrun).arrivals hreenters harrivals
  | trips _ hparting _ => simp [untripped, hparting] at huntripped
  | seizes _ _ _ => exact harrivals
  | aside _ _ hkernel =>
    rw [hkernel]
    exact harrivals

end Laden

end CoopKernel
