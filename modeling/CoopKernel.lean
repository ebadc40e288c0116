import CoopKernel.Dining.Reception
import CoopKernel.Hosted.Boot
import CoopKernel.Hosted.Relay
import CoopKernel.Main
import CoopKernel.Script.Run
import CoopKernel.Proofs.Scheduler.Termination
import CoopKernel.Proofs.Scheduler.Clock
import CoopKernel.Proofs.Scheduler.Membership
import CoopKernel.Proofs.Kernel.Mutexes
import CoopKernel.Proofs.Kernel.Threads
import CoopKernel.Proofs.Kernel.Stranding
import CoopKernel.Proofs.Kernel.Unbroken
import CoopKernel.Proofs.Kernel.Deliveries
import CoopKernel.Proofs.Kernel.Acquisition
import CoopKernel.Proofs.Kernel.Answers
import CoopKernel.Proofs.Kernel.Refusals
import CoopKernel.Proofs.Kernel.Completion
import CoopKernel.Proofs.Kernel.Attribution
import CoopKernel.Proofs.Memory.Leases
import CoopKernel.Proofs.Memory.FirstFit
import CoopKernel.Proofs.Memory.Figures
import CoopKernel.Proofs.Kernel.Allocation
import CoopKernel.Proofs.Kernel.Stacks
import CoopKernel.Proofs.Kernel.Releases
import CoopKernel.Proofs.Kernel.Removal
import CoopKernel.Proofs.Kernel.Booting
import CoopKernel.Proofs.Scheduler.Owners
import CoopKernel.Proofs.Kernel.Telling
import CoopKernel.Proofs.Kernel.Recorded
import CoopKernel.Proofs.Kernel.Handovers
import CoopKernel.Proofs.Kernel.Closing
import CoopKernel.Proofs.Kernel.Eviction
import CoopKernel.Proofs.Dining.Display
import CoopKernel.Proofs.Hosted.Turns
import CoopKernel.Proofs.Kernel.Excision
import CoopKernel.Proofs.Scheduler.Acts
import CoopKernel.Proofs.Scheduler.Turnover
import CoopKernel.Proofs.Kernel.Enacting
import CoopKernel.Proofs.Kernel.Timing
import CoopKernel.Proofs.Kernel.Succession
import CoopKernel.Proofs.Memory.Line
import CoopKernel.Proofs.Memory.Queueing
import CoopKernel.Proofs.Memory.Separation
import CoopKernel.Proofs.Trace.Numbering
import CoopKernel.Proofs.Trace.Payload
import CoopKernel.Proofs.Trace.Reading
import CoopKernel.Proofs.Trace.Transcript
