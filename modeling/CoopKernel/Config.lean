import CoopKernel.Memory.Rounding
import CoopKernel.Status
import CoopKernel.Text.Quoted

/-!
# Configuration

What a kernel is started with: the sizes of its two built-in pools and of what is taken from them,
the granularity of memory, the tick period, and the name that its threads are named after.
-/

namespace CoopKernel

/-- The settings of a kernel. -/
structure Config where
  name : String := "vm"
  /-- The tick period in milliseconds. -/
  tickMs : Nat := 10
  /-- The size of the system pool, from which stacks are taken. -/
  heapSize : Nat := 16 * 1024 * 1024
  /-- The size of the shared pool, from which transfer buffers are taken. -/
  sharedSize : Nat := 64 * 1024
  /-- The granularity of allocations. -/
  alignment : Nat := 64
  idleStackSize : Nat := 64 * 1024
  /-- The size of one transfer buffer. -/
  bufferSize : Nat := 512
  /-- Whether somebody listens to the kernel's records. -/
  traced : Bool := false
deriving DecidableEq, Repr

namespace Config

/-- Whether every size and the period are positive. -/
def hasSizes (config : Config) : Bool :=
  0 < config.tickMs && 0 < config.heapSize && 0 < config.sharedSize && 0 < config.idleStackSize &&
    0 < config.bufferSize

/-- Checks the settings against each other: nothing is empty, the granularity is a power of two, the
idle thread's stack is no larger than the system pool and a buffer no larger than the shared one. -/
def validate (config : Config) : Except Status Unit :=
  if config.hasSizes && Memory.isPowerOfTwo config.alignment &&
      config.idleStackSize ≤ config.heapSize && config.bufferSize ≤ config.sharedSize then
    .ok ()
  else
    .error .invalidParameter

/-- What the names of threads begin with. -/
def threadStem (config : Config) : String := config.name ++ "-thread"

/-- The settings in diagnostic text. -/
def describe (config : Config) : String :=
  Text.fields "RuntimeConfig"
    [("name", Text.quoted config.name), ("tick_ms", toString config.tickMs),
      ("heap_size", toString config.heapSize), ("shared_size", toString config.sharedSize),
      ("alignment", toString config.alignment),
      ("idle_stack_size", toString config.idleStackSize),
      ("io_buffer_size", toString config.bufferSize), ("trace_hook", toString config.traced)]

end Config

end CoopKernel
