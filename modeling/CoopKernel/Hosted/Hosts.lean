import CoopKernel.Hosted.Baton

/-!
# Hosted threads

The threads of the host that stand for logical threads, each at a stage of its life. A running one
hands the processor on by a signal to another's baton, and then parks at its own or comes to its
end. A parked one looks at its baton; without a signal it falls asleep and is woken by the next one.

Every function here is one step of one host thread, as short as the host allows others to come in
between, so a run of the hosts is any sequence of such steps.
-/

namespace CoopKernel.Hosted

/-- Where a host thread stands. -/
inductive Stage
  | running
  /-- It waits at its baton, before it has begun or in the midst of its work, awake or asleep. -/
  | parked (begun asleep : Bool)
  /-- It was told to end in the midst of its work and is putting things in order. -/
  | unwinding
  | ended
deriving DecidableEq, Repr

/-- The stage after somebody has rung at the baton. -/
def Stage.rung : Stage → Stage
  | parked begun _ => parked begun false
  | stage => stage

/-- A host thread with its baton. -/
structure Host where
  name : String
  baton : Baton := {}
  /-- Whether the thread was made for its logical thread and has not been waited for yet. -/
  spawned : Bool
  stage : Stage
deriving DecidableEq, Repr

namespace Host

/-- A thread of the host that was running before. -/
def adopted (name : String) : Host := { name, spawned := false, stage := .running }

/-- A thread that is made to begin when it is first told to. -/
def made (name : String) : Host := { name, spawned := true, stage := .parked false false }

/-- Signals to the thread and wakes it. -/
def give (host : Host) (signal : Signal) : Host :=
  { host with baton := host.baton.give signal, stage := host.stage.rung }

/-- Parks the thread in the midst of its work. -/
def park (host : Host) : Host := { host with stage := .parked true false }

/-- Brings the thread to its end. -/
def finish (host : Host) : Host := { host with stage := .ended }

/-- Lets a parked thread that is awake look at its baton. -/
def look (host : Host) : Host :=
  match host.stage, host.baton.signal with
  | .parked begun false, .parked => { host with stage := .parked begun true }
  | .parked _ false, .run => { host with baton := host.baton.taken, stage := .running }
  | .parked true false, .exit => { host with stage := .unwinding }
  | .parked false false, .exit => { host with stage := .ended }
  | _, _ => host

/-- The thread in diagnostic text. -/
def describe (host : Host) : String :=
  Text.fields "PosixContext"
    [("name", Text.quoted host.name), ("signal", host.baton.signal.name)]

end Host

/-- The threads of a host, by number. -/
abbrev Hosts := List Host

namespace Hosts

/-- A running thread tells another to run and parks. -/
def switch (hosts : Hosts) (source target : Nat) : Hosts :=
  (hosts.modify target (·.give .run)).modify source Host.park

/-- A running thread tells another to run and comes to its end. -/
def handOff (hosts : Hosts) (source target : Nat) : Hosts :=
  (hosts.modify target (·.give .run)).modify source Host.finish

/-- A thread is told to end, and whoever tells it takes over waiting for that. -/
def retire (hosts : Hosts) (target : Nat) : Hosts :=
  hosts.modify target fun host => { host.give .exit with spawned := false }

/-- A parked thread looks at its baton. -/
def look (hosts : Hosts) (target : Nat) : Hosts := hosts.modify target Host.look

/-- A thread comes to its end. -/
def finish (hosts : Hosts) (target : Nat) : Hosts := hosts.modify target Host.finish

end Hosts

end CoopKernel.Hosted
