import CoopKernel.Hosted.Hosts

/-!
# A relay of workers

Workers that run in turns with the main thread: each runs a number of legs, hands back to the main
thread after each, and comes to its end after the last. A worker keeps a probe that is dropped when
it ends, however that comes about. What the workers do is logged.
-/

namespace CoopKernel.Hosted

/-- What a worker logs. -/
inductive Mark
  | leg (number : Nat)
  | finished
  | retired
  | dropped
deriving DecidableEq, Repr

/-- A worker's task, and how far it has got. -/
structure Worker where
  legs : Nat
  /-- Whether it notices that it is retired. -/
  notices : Bool
  done : Nat := 0
deriving DecidableEq, Repr

/-- The main thread, which is host thread zero, and the workers after it. -/
structure Relay where
  hosts : Hosts
  workers : List Worker
deriving DecidableEq, Repr

namespace Relay

/-- The main thread runs and no worker has begun. -/
def new (main : String) (workers : List (String × Worker)) : Relay where
  hosts := .adopted main :: workers.map fun (name, _) => .made name
  workers := workers.map Prod.snd

/-- The host thread of a worker. -/
def host? (relay : Relay) (worker : Nat) : Option Host := relay.hosts[worker + 1]?

/-- The running worker works until it hands back to the main thread. -/
def work (relay : Relay) (index : Nat) (worker : Worker) : List (Nat × Mark) × Relay :=
  if worker.done < worker.legs then
    ([(index, .leg worker.done)],
      { hosts := relay.hosts.switch (index + 1) 0
        workers := relay.workers.set index { worker with done := worker.done + 1 } })
  else
    ([(index, .finished), (index, .dropped)],
      { relay with hosts := relay.hosts.handOff (index + 1) 0 })

/-- The main thread switches to a worker, unless the worker has ended, and runs again when the
worker hands back. -/
def switchTo (relay : Relay) (index : Nat) : Option (List (Nat × Mark) × Relay) :=
  match relay.host? index, relay.workers[index]? with
  | some host, some worker =>
    if host.stage = .ended then
      none
    else
      let relay := { relay with hosts := (relay.hosts.switch 0 (index + 1)).look (index + 1) }
      let (log, relay) := relay.work index worker
      some (log, { relay with hosts := relay.hosts.look 0 })
  | _, _ => none

/-- The main thread retires a worker and waits for its end. A worker that had begun is told by its
stage that it is retired; one that had not just drops its probe. -/
def retire (relay : Relay) (index : Nat) : List (Nat × Mark) × Relay :=
  let told := { relay with hosts := (relay.hosts.retire (index + 1)).look (index + 1) }
  match relay.host? index, told.host? index, relay.workers[index]? with
  | some before, some after, some worker =>
    if before.stage = .ended then
      ([], told)
    else if after.stage = .unwinding then
      (if worker.notices then [(index, .retired), (index, .dropped)] else [(index, .dropped)],
        { told with hosts := told.hosts.finish (index + 1) })
    else
      ([(index, .dropped)], told)
  | _, _, _ => ([], told)

/-- The main thread retires every worker in order. -/
def retireAll (relay : Relay) : List (Nat × Mark) × Relay :=
  (List.range relay.workers.length).foldl
    (fun (log, relay) index =>
      let (more, relay) := relay.retire index
      (log ++ more, relay))
    ([], relay)

end Relay

end CoopKernel.Hosted
