import CoopKernel.Kernel.Memory

/-!
# Thread calls

A thread is created dead, begins its program when it is activated, and is dead again when it is
terminated or its program ends; each activation begins the program anew. The main thread and the
idle thread can be neither terminated nor deleted.

To activate a thread again or to remove it is also to give up its old frames, and to remove it is to
give up its entry. Both are silent here: nothing in them calls the kernel (see `Laden` for what
may).
-/

namespace CoopKernel.Kernel

variable {ε : Type}

/-- Whether a thread is one that the kernel cannot do without. -/
def isSystemThread (kernel : Kernel ε) (thread : ThreadId) : Bool :=
  thread == kernel.main || thread == kernel.idle

/-- Lets a dead thread begin its program. What was left of an earlier activation is forgotten. -/
def activate (kernel : Kernel ε) (id : ThreadId) : Except Invariant (Kernel ε) :=
  kernel.orRefuse (kernel.sched.find id) fun thread =>
    match thread.isDead, kernel.entries.lookup id with
    | true, some entry => do
      let sched := kernel.sched.update id fun thread =>
        { thread with position := some (.delivering entry) }
      let sched ← sched.makeReady id
      ({ kernel with sched }.emit (.threadActivate id)).preemptFor id (.ok .done)
    | _, _ => .ok (kernel.refuse .invalidState)

/-- Reports the mutexes that a termination passed on. -/
def emitHandoffs (kernel : Kernel ε) (handoffs : List (MutexId × ThreadId)) : Kernel ε :=
  handoffs.foldl (fun kernel (mutex, owner) => kernel.emit (.handoff mutex owner)) kernel

/-- Ends a thread's wait for memory, if it waits for any. -/
def cancelWait (kernel : Kernel ε) (id : ThreadId) : Kernel ε :=
  { kernel with pools := (kernel.pools.cancelWait id).2 }

/-- Ends the life of a thread. The reply comes after a new owner of one of its mutexes that outranks
the caller; it never comes if the thread is the caller itself. -/
def terminate (kernel : Kernel ε) (id : ThreadId) : Except Invariant (Kernel ε) :=
  if kernel.isSystemThread id then
    .ok (kernel.refuse .invalidState)
  else
    kernel.orFail (kernel.sched.terminate id) fun (report, sched) =>
      let kernel := ({ kernel with sched }.cancelWait id).emit (.threadTerminate id)
      let kernel := kernel.emitHandoffs report.handoffs
      if report.previous = .running then kernel.switchNext (.inside (.reply (.ok .done)))
      else if report.preempt then kernel.yield (.inside (.reply (.ok .done)))
      else .ok (kernel.reply (.ok .done))

/-- Removes a dead thread and releases its stack. -/
def delete (kernel : Kernel ε) (id : ThreadId) : Except Invariant (Kernel ε) :=
  if kernel.isSystemThread id then
    .ok (kernel.refuse .invalidState)
  else
    kernel.orRefuse (kernel.sched.removeThread id) fun (thread, sched) =>
      let kernel := { kernel with sched, entries := kernel.entries.filter (·.1 != id) }
      let kernel := kernel.emit (.threadDelete id)
      match thread.stack with
      | none => .ok (kernel.reply (.ok .done))
      | some stack => kernel.free kernel.systemPool stack.address

/-- Lets the running thread wait for a number of ticks, or take its turn again after the others of
its priority. -/
def sleep (kernel : Kernel ε) (timeout : Timeout) : Except Invariant (Kernel ε) := do
  let me ← kernel.me
  match timeout with
  | .ticks count =>
    let sched ← kernel.sched.block me .sleep timeout
    ({ kernel with sched }.emit (.sleep me count)).switchNext (.inside (.reply (.ok .done)))
  | _ => kernel.yield (.inside (.reply (.ok .done)))

/-- Ends the life of the running thread because its program has ended, and gives the processor to
the next one for good. -/
def exit (kernel : Kernel ε) : Except Invariant (Kernel ε) := do
  let kernel ← kernel.enter
  match kernel.stopped, kernel.sched.current with
  | false, some me =>
    match kernel.sched.terminate me with
    | .error (.broken invariant) => throw invariant
    | .error (.refused _) => return kernel.leave
    | .ok (report, sched) =>
      let kernel := ({ kernel with sched }.emitHandoffs report.handoffs).cancelWait me
      let kernel := kernel.emit (.threadTerminate me)
      let (switch, sched) ← kernel.sched.pickNext
      match sched.position? switch.target with
      | none => throw .readyPosition
      | some there => return { kernel with sched }.resume there
  | _, _ => return kernel.leave

/-- Shuts the kernel down for good. Only the main thread may do that; the others lose their
positions and never run again. -/
def shutdown (kernel : Kernel ε) : Except Invariant (Kernel ε) :=
  if kernel.sched.current ≠ some kernel.main then
    .ok (kernel.refuse .invalidState)
  else
    let others := kernel.sched.threads.handles.filter (· != kernel.main)
    let sched := others.foldl (fun sched id => sched.forgetPosition id) kernel.sched
    .ok ({ kernel with sched, stopped := true }.reply (.ok .done))

end CoopKernel.Kernel
