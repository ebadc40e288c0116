import CoopKernel.Kernel.Basic

/-!
# Mutex calls

Acquiring a mutex fails at once or waits, as the caller asks; a release passes the mutex to the next
thread that waits for it.
-/

namespace CoopKernel.Kernel

variable {ε : Type}

/-- Adds a mutex. -/
def mutexCreate (kernel : Kernel ε) : Except Invariant (Kernel ε) :=
  let (mutex, sched) := kernel.sched.createMutex
  .ok (({ kernel with sched }.emit (.mutexCreate mutex)).reply (.ok (.mutex mutex)))

/-- Removes a mutex that is not locked. -/
def mutexDelete (kernel : Kernel ε) (mutex : MutexId) : Except Invariant (Kernel ε) :=
  kernel.orRefuse (kernel.sched.deleteMutex mutex) fun sched =>
    .ok (({ kernel with sched }.emit (.mutexDelete mutex)).reply (.ok .done))

/-- Acquires a mutex. Without waiting, a mutex that is not free is a failure, whoever owns it;
waiting for a mutex that the caller owns makes no sense and is refused. -/
def acquire (kernel : Kernel ε) (mutex : MutexId) (timeout : Timeout) :
    Except Invariant (Kernel ε) := do
  let me ← kernel.me
  let timeout := timeout.normalized
  match kernel.sched.tryLock mutex me with
  | .ok (true, sched) =>
    return ({ kernel with sched }.emit (.acquire mutex me)).reply (.ok .done)
  | .ok (false, _) =>
    if timeout = .immediate then
      return kernel.refuse .failure
    kernel.orFail (kernel.sched.waitForMutex mutex me timeout) fun sched =>
      ({ kernel with sched }.emit (.block mutex me)).switchNext (.inside (.acquire mutex me))
  | .error (.refused .invalidState) =>
    return kernel.refuse (if timeout = .immediate then .failure else .invalidState)
  | .error (.refused status) => return kernel.refuse status
  | .error (.broken invariant) => throw invariant

/-- Settles a wait for a mutex that is over. -/
def finishAcquire (kernel : Kernel ε) (mutex : MutexId) (me : ThreadId) :
    Except Invariant (Kernel ε) := do
  let (owned, sched) ← kernel.sched.finishMutexWait mutex me
  let kernel := { kernel with sched }
  if owned then
    return (kernel.emit (.acquire mutex me)).reply (.ok .done)
  else
    return (kernel.emit (.timeout mutex me)).refuse .failure

/-- Gives up a mutex. A new owner that outranks the caller runs before the reply. -/
def release (kernel : Kernel ε) (mutex : MutexId) : Except Invariant (Kernel ε) := do
  let me ← kernel.me
  kernel.orFail (kernel.sched.release mutex me) fun (next, sched) =>
    let kernel := { kernel with sched }.emit (.release mutex me)
    match next with
    | none => .ok (kernel.reply (.ok .done))
    | some next => (kernel.emit (.handoff mutex next)).preemptFor next (.ok .done)

end CoopKernel.Kernel
