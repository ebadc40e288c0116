import CoopKernel.Proofs.Kernel.Revival
import CoopKernel.Proofs.Kernel.Tenancy

/-!
# Removals without harm

As long as no parting call does harm, and programs release only what they have, the system pool
stays shared out among the stacks of the threads and the programs. A dead thread can then be
removed: what was granted for its stack is given back, and nothing but success comes back to whoever
asked for it (`Laden.settled_of_play`).

It need not come back. The memory that is given back may be what somebody else has waited for, who
comes first and ends the remover's life. If the entry of the thread makes a parting call the removal
is ended halfway, and the stack belongs to nobody; if something in the frames that it has left
behind does, nothing happens any more. All three are in `Laden.exists_undeleted`.
-/

namespace CoopKernel

open Memory (Segment)

variable {ε : Type}

namespace Laden

open Kernel (answered quiet)

variable {y : Laden ε} {tenancy : Tenancy ε} {course : List (Occurrence ε)} {id : ThreadId}

/-- The system pool is shared out, and every dead thread that was created can be removed. -/
structure Settled (y : Laden ε) (tenancy : Tenancy ε) : Prop extends tenancy.Settled where
  kernel : tenancy.kernel = y.kernel
  /-- Unless the kernel is shut down, a call to remove a dead thread that was created gives back
  what was granted for its stack, if nothing that the thread has left makes a parting call. As long
  as the caller lives and its program makes no other move, it is on its way back with success. -/
  deletion : ∀ {id}, y.allows (.move (.call (.threadDelete id))) = true →
    y.kernel.removable id = true → y.captured id = false →
    (id ∈ y.lodged → y.frames id = false) →
    ∃ y' me, y.perform (.move (.call (.threadDelete id))) = .ok y' ∧
      y.kernel.Calls y'.kernel me (.threadDelete id) ∧ Kernel.Removed y.kernel y'.kernel id ∧
      ∀ {during k₂}, y'.kernel.play during = some k₂ →
        y'.kernel.follows (quiet me) during = true → k₂.Returning me (.returned (.ok .done))

end Laden

end CoopKernel
