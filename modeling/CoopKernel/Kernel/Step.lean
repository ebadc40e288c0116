import CoopKernel.Kernel.Delivery
import CoopKernel.Kernel.Mutexes
import CoopKernel.Kernel.Threads

/-!
# The steps of a kernel

Four things move a kernel on. The running program makes a `call` or comes to its end (`exit`);
somebody puts an interrupt on the line (`raise`); and while the running thread is not in its program
the kernel goes on by itself (`advance`), one interrupt or one resumed call at a time.
-/

namespace CoopKernel.Kernel

variable {ε : Type}

/-- Begins an asynchronous operation and waits for its result. The operation is begun inside the
section, so a call from there ends the whole call, and the section is left without delivery. -/
def awaitIo (kernel : Kernel ε) (issue : Issue) : Except Invariant (Kernel ε) := do
  let me ← kernel.me
  match issue with
  | .raising interrupts =>
    let kernel := interrupts.foldl raise kernel
    let sched ← kernel.sched.block me .io .infinite
    { kernel with sched }.switchNext (.inside (.awaitIo me))
  | .reentrant =>
    match kernel.enter with
    | .error invariant => return kernel.leave.arrive (.unwound invariant)
    | .ok kernel => return kernel.reply (.ok .done)

/-- Carries out a call of the running program. Calls whose arguments make no sense are answered
without entering the section. -/
def call (kernel : Kernel ε) : Call ε → Except Invariant (Kernel ε)
  | .threadCreate entry stackSize priority =>
    if stackSize = 0 ∨ priority = .idle then
      .ok (kernel.refuseAtOnce .invalidParameter)
    else
      kernel.inSection fun kernel =>
        kernel.allocateBlocking kernel.systemPool stackSize (.stack entry priority)
  | .threadActivate thread => kernel.inSection (·.activate thread)
  | .threadTerminate thread => kernel.inSection (·.terminate thread)
  | .threadDelete thread => kernel.inSection (·.delete thread)
  | .sleep timeout =>
    if timeout = .infinite then
      .ok (kernel.refuseAtOnce .invalidParameter)
    else
      kernel.inSection (·.sleep timeout.normalized)
  | .mutexCreate => kernel.inSection (·.mutexCreate)
  | .mutexDelete mutex => kernel.inSection (·.mutexDelete mutex)
  | .mutexAcquire mutex timeout => kernel.inSection (·.acquire mutex timeout)
  | .mutexRelease mutex => kernel.inSection (·.release mutex)
  | .poolCreate base size => kernel.inSection (·.poolCreate base size)
  | .poolDelete pool => kernel.inSection (·.poolDelete pool)
  | .allocate pool size => kernel.inSection (·.allocate pool size)
  | .allocateBlocking pool size => kernel.inSection (·.allocateBlocking pool size .address)
  | .free pool address => kernel.inSection (·.free pool address)
  | .bufferAcquire =>
    kernel.inSection fun kernel =>
      kernel.allocateBlocking kernel.sharedPool kernel.config.bufferSize .address
  | .bufferRelease address =>
    kernel.inSection fun kernel => kernel.free kernel.sharedPool address
  | .tick => (kernel.raise .tick).inSection fun kernel => .ok (kernel.reply (.ok .done))
  | .ioComplete thread result =>
    (kernel.raise (.ioComplete thread result)).inSection fun kernel =>
      .ok (kernel.reply (.ok .done))
  | .poll => kernel.inSection fun kernel => .ok (kernel.reply (.ok .done))
  | .awaitIo issue => kernel.inSection (·.awaitIo issue)
  | .shutdown => kernel.inSection (·.shutdown)

/-- Goes on with what is left of a call, inside the section. -/
def resumeCall (kernel : Kernel ε) : Pending ε → Except Invariant (Kernel ε)
  | .reply answer => .ok (kernel.reply answer)
  | .acquire mutex me => kernel.finishAcquire mutex me
  | .allocate pool size purpose => kernel.allocateBlocking pool size purpose
  | .awaitIo me =>
    kernel.orRefuse (kernel.sched.find me) fun thread =>
      .ok (kernel.reply (.ok (.result thread.result)))

/-- The next step that the kernel takes by itself. A program is left alone, and a thread that rests
does so until an interrupt is pending. -/
def advance (kernel : Kernel ε) : Except Invariant (Kernel ε) :=
  match kernel.activity with
  | .program => .ok kernel
  | .arriving _ => .ok { kernel with activity := .program }
  | .resting =>
    if kernel.line.pending.isEmpty then .ok kernel
    else .ok { kernel with activity := .delivering .rest }
  | .resuming pending => kernel.resumeCall pending
  | .delivering destination => kernel.deliver destination

end CoopKernel.Kernel
