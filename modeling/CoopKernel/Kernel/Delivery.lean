import CoopKernel.Kernel.Basic

/-!
# Delivery of interrupts

Interrupts are delivered one at a time, each in a section of its own, by whichever thread is leaving
the section. A tick ends the running thread's turn. A result goes to the thread it is for if that
thread waits for one, and is dropped otherwise. After a shutdown an interrupt is still taken off the
line but means nothing.
-/

namespace CoopKernel.Kernel

variable {ε : Type}

/-- Puts an interrupt on the line. -/
def raise (kernel : Kernel ε) (interrupt : Interrupt) : Kernel ε :=
  { kernel with line := kernel.line.raise interrupt }

/-- Gets to a destination. -/
def reach (kernel : Kernel ε) : Destination ε → Kernel ε
  | .reply answer => kernel.arrive (.returned answer)
  | .start entry => kernel.arrive (.started entry)
  | .rest => { kernel with activity := .resting }

/-- Whether a thread waits for the result of an asynchronous operation. -/
def awaitsIo (kernel : Kernel ε) (id : ThreadId) : Bool :=
  (kernel.sched.threads.get? id).any fun thread =>
    thread.state == .waiting && thread.waitingFor == some .io

/-- Processes a tick inside the section. -/
def dispatchTick (kernel : Kernel ε) (destination : Destination ε) :
    Except Invariant (Kernel ε) := do
  let (report, sched) ← kernel.sched.tick
  let kernel := { kernel with sched }.emit (.tick report.tick)
  let kernel := report.woken.foldl (fun kernel thread => kernel.emit (.wake thread)) kernel
  kernel.yield (.delivering destination)

/-- Processes a result inside the section. -/
def dispatchResult (kernel : Kernel ε) (destination : Destination ε) (id : ThreadId)
    (result : Int32) : Except Invariant (Kernel ε) := do
  if !kernel.awaitsIo id then
    return kernel.resume (.delivering destination)
  let sched := kernel.sched.update id fun thread => { thread with result }
  let sched ← sched.wake id
  let kernel := { kernel with sched }.emit (.ioDone id result)
  if ← kernel.sched.outranksCurrent id then
    (kernel.emit (.preempt id)).yield (.delivering destination)
  else
    return kernel.resume (.delivering destination)

/-- Delivers the oldest pending interrupt on the way to a destination, or gets there if none is
pending. -/
def deliver (kernel : Kernel ε) (destination : Destination ε) : Except Invariant (Kernel ε) :=
  match kernel.line.take? with
  | none => .ok (kernel.reach destination)
  | some (interrupt, line) => do
    let kernel ← { kernel with line }.enter
    if kernel.stopped then
      return kernel.leave.reach destination
    match interrupt with
    | .tick => kernel.dispatchTick destination
    | .ioComplete thread result => kernel.dispatchResult destination thread result

end CoopKernel.Kernel
