import CoopKernel.Proofs.Kernel.Moved
import CoopKernel.Proofs.Scheduler.Acts

/-!
# The kernel uses its scheduler as it is meant to be used

Whatever a kernel does, what happens to its scheduler is a list of calls that are made when they are
due (`Kernel.Enacts`), and whoever begins to sleep or to wait for a mutex meanwhile is reported to
do so. The scheduler of a reachable kernel is therefore one that has been in use from the beginning
(`Reachable.enacted`), and those who wait for time or for a mutex stand in their queues in the order
in which they were reported to begin (`Reachable.sublist_blockings`).
-/

namespace CoopKernel

variable {ε : Type}

/-- Who is reported to begin to sleep or to wait for a mutex. -/
def Trace.Event.begins : Trace.Event → List ThreadId
  | .sleep id _ => [id]
  | .block _ id => [id]
  | _ => []

namespace Kernel

/-- Those who have begun to sleep or to wait for a mutex, in this order, each as often as it did. -/
def blockings (k : Kernel ε) : List ThreadId :=
  k.journal.flatMap fun stamped => stamped.event.begins

/-- What happens to the scheduler is a list of calls, and who begins to wait is reported. -/
def Enacts (k k' : Kernel ε) : Prop :=
  ∃ acts arrived, k.sched.run acts = some (k'.sched, arrived) ∧
    k'.blockings = k.blockings ++ acts.flatMap Act.begins

/-- Whatever kernel an operation gives is one that comes of `k` by such calls. -/
def Enacting (k : Kernel ε) (outcome : Except Invariant (Kernel ε)) : Prop :=
  ∀ k', outcome = .ok k' → k.Enacts k'

variable {W : PoolId → Prop} {k k' m : Kernel ε} {me id : ThreadId} {t u : Thread (Position ε)}
  {move : Move ε} {destination : Destination ε} {outcome : Except Invariant (Kernel ε)}

/-! ## Putting calls together -/

@[simp] theorem blockings_emit (k : Kernel ε) (event : Trace.Event) :
    (k.emit event).blockings = k.blockings ++ event.begins := by
  simp [blockings, emit]

theorem blockings_of_journal {events : List Trace.Event} {tick : Nat}
    (h : k'.journal = k.journal ++ events.map fun event => { event, tick := tick }) :
    k'.blockings = k.blockings ++ events.flatMap Trace.Event.begins := by
  simp [blockings, h, List.flatMap_map]

theorem Enacts.of_eq (hsched : k'.sched = k.sched) (hblockings : k'.blockings = k.blockings) :
    k.Enacts k' :=
  ⟨[], [], by rw [hsched]; rfl, hblockings.trans (List.append_nil _).symm⟩

theorem Enacts.of_act (act : Act (Position ε)) (hdue : act.due k.sched = true)
    (hperform : (act.perform k.sched).map Prod.fst = some k'.sched)
    (hblockings : k'.blockings = k.blockings ++ act.begins) : k.Enacts k' := by
  obtain ⟨⟨_, arrived⟩, hperform, rfl⟩ := Option.map_eq_some_iff.mp hperform
  exact ⟨[act], arrived, Scheduler.run_singleton hdue hperform, by simp [hblockings]⟩

theorem Enacts.trans (h : k.Enacts m) (h' : m.Enacts k') : k.Enacts k' := by
  obtain ⟨acts, _, hrun, hblockings⟩ := h
  obtain ⟨acts', _, hrun', hblockings'⟩ := h'
  exact ⟨acts ++ acts', _, Scheduler.run_append hrun hrun', by simp [hblockings, hblockings']⟩

theorem Enacts.then (h : k.Enacts m) (h' : m.Enacting outcome) : k.Enacting outcome :=
  fun k' hrun => h.trans (h' k' hrun)

theorem Enacts.enacting (h : k.Enacts k') : k.Enacting (.ok k') := by
  rintro _ ⟨⟩
  exact h

/-! ## Ends of a call -/

theorem enacting_reply (k : Kernel ε) (answer : Answer) : k.Enacting (.ok (k.reply answer)) :=
  Enacts.enacting (.of_eq rfl rfl)

theorem enacts_resume (k : Kernel ε) (there : Position ε) : k.Enacts (k.resume there) := by
  cases there <;> exact .of_eq rfl rfl

theorem begins_switchEvent (k : Kernel ε) (source target : ThreadId) :
    (k.switchEvent source target).begins = [] := by
  rw [switchEvent]
  split <;> rfl

/-- A thread that runs no more is parked when the next one has been picked. -/
theorem enacting_switchNext (horderly : k.sched.Orderly) (hcurrent : k.sched.current = some me)
    (ht : k.sched.threads.get? me = some t) (hstate : t.state ≠ .running) (here : Position ε) :
    k.Enacting (k.switchNext here) := by
  intro k' hrun
  have hdue : Act.due k.sched .pickNext = true := by
    simp [Act.due, hcurrent, Scheduler.state?, ht, hstate]
  obtain ⟨-, source, target, s', hpick, hgoes⟩ := switchNext_cases hrun
  obtain ⟨id, u, -, -, hswitch, rfl⟩ := horderly.pickNext_eq_ok hpick
  obtain ⟨hsource, rfl⟩ := Switch.mk.inj hswitch
  obtain rfl : me = source := Option.some.inj (hcurrent.symm.trans hsource.symm)
  let picked : Kernel ε := { k with sched := k.sched.dispatched target u.priority }
  have hpicked : k.Enacts picked := by
    refine .of_act .pickNext hdue ?_ (List.append_nil _).symm
    rw [Act.perform, hpick]
    rfl
  rcases hgoes with ⟨rfl, rfl⟩ | ⟨hne, there, -, rfl⟩
  · exact hpicked.trans (enacts_resume picked here)
  · refine hpicked.trans (Enacts.trans (.of_act (.setPosition me here) rfl ?_ ?_)
      (enacts_resume _ there))
    · have hrecord := Scheduler.get?_dispatched k.sched target me u.priority
      rw [if_neg hne.symm, ht] at hrecord
      show (((k.sched.dispatched target u.priority).setPosition me here).toOption.map _).map _ = _
      rw [Scheduler.setPosition, Scheduler.find_eq hrecord]
      rfl
    · show (picked.emit (k.switchEvent me target)).blockings = _
      rw [blockings_emit, begins_switchEvent]
      rfl

theorem enacting_yield (horderly : k.sched.Orderly) (hcurrent : k.sched.current = some me)
    (ht : k.sched.threads.get? me = some t) (hrunning : t.state = .running) (here : Position ε) :
    k.Enacting (k.yield here) := by
  let queued : Kernel ε := { k with sched := k.sched.readied me t.priority }
  have hrequeue := Scheduler.requeueCurrent_eq hcurrent ht hrunning
  have hrecord := Scheduler.get?_readied k.sched me me t.priority
  rw [if_pos rfl, ht, Option.map_some] at hrecord
  have hqueued : k.Enacts queued := by
    refine .of_act .requeueCurrent rfl ?_ (List.append_nil _).symm
    rw [Act.perform, hrequeue]
    rfl
  rw [Kernel.yield, hrequeue]
  exact hqueued.then (enacting_switchNext (k := queued) (horderly.readied ht (.inr hrunning))
    hcurrent hrecord (by simp) here)

theorem enacting_preemptFor (horderly : k.sched.Orderly) (hcurrent : k.sched.current = some me)
    (ht : k.sched.threads.get? me = some t) (hrunning : t.state = .running) (id : ThreadId)
    (answer : Answer) : k.Enacting (k.preemptFor id answer) := by
  intro k' hrun
  rw [Kernel.preemptFor] at hrun
  obtain ⟨outranks, -, hrun⟩ := bind_eq_ok hrun
  cases outranks with
  | true =>
    have hemitted : k.Enacts (k.emit (.preempt id)) :=
      .of_eq rfl ((blockings_emit k _).trans (List.append_nil _))
    exact hemitted.then (enacting_yield (k := k.emit (.preempt id)) horderly hcurrent ht hrunning _)
      k' hrun
  | false =>
    exact enacting_reply k answer k' hrun

theorem Enacting.orRefuse {α : Type} {outcome : Except Status α}
    {next : α → Except Invariant (Kernel ε)}
    (hnext : ∀ value, outcome = .ok value → k.Enacting (next value)) :
    k.Enacting (k.orRefuse outcome next) := by
  cases outcome with
  | ok value => exact hnext value rfl
  | error status => exact enacting_reply k (.error status)

theorem Enacting.orRefusePool {α : Type} {outcome : Except Memory.PoolError α}
    {next : α → Except Invariant (Kernel ε)}
    (hnext : ∀ value, outcome = .ok value → k.Enacting (next value)) :
    k.Enacting (k.orRefusePool outcome next) := by
  refine .orRefuse fun value hvalue => ?_
  cases outcome with
  | ok found =>
    obtain rfl := Except.ok.inj hvalue
    exact hnext found rfl
  | error _ => cases hvalue

/-! ## Memory -/

/-- A change of the pools that is reported. -/
theorem enacts_pools (k : Kernel ε) (pools : Memory.Pools) {event : Trace.Event}
    (hplain : event.begins = []) : k.Enacts (({ k with pools } : Kernel ε).emit event) :=
  .of_eq rfl (by rw [blockings_emit, hplain, List.append_nil]; rfl)

theorem enacting_obtained (k : Kernel ε) (address size : Nat) (purpose : Purpose ε) :
    k.Enacting (.ok (k.obtained address size purpose)) := by
  cases purpose with
  | address => exact enacting_reply k _
  | stack entry priority =>
    refine Enacts.enacting (.of_act
      (.addThread k.config.threadStem priority (some { address, size })) rfl rfl ?_)
    exact (blockings_emit k _).trans rfl

theorem Runs.enacting_awaitMemory (h : k.Runs W me t) (pool : PoolId) (size : Nat)
    (purpose : Purpose ε) : k.Enacting (k.awaitMemory pool size purpose) := by
  have hblock := Scheduler.block_eq h.record .memory .infinite
  have hrecord := Scheduler.get?_suspended k.sched me me .memory .infinite
  rw [if_pos rfl, h.record, Option.map_some] at hrecord
  have hstarving : k.Enacts (k.starving me t.priority pool) := by
    refine .of_act (.block me .memory .infinite) ?_ ?_ (blockings_emit _ _)
    · simp [Act.due, Scheduler.state?, h.record, h.running]
    · rw [Act.perform, hblock]
      rfl
  intro k' hrun
  rw [Kernel.awaitMemory, h.me_eq] at hrun
  change k.orRefuse (k.sched.find me) _ = _ at hrun
  rw [Scheduler.find_eq h.record] at hrun
  change (k.sched.block me .memory .infinite >>= _) = _ at hrun
  rw [hblock] at hrun
  exact hstarving.then (enacting_switchNext (k := k.starving me t.priority pool)
    (h.settled.sched.suspended h.record h.running (by simp) .infinite) h.current hrecord (by simp)
    _) k' hrun

theorem Runs.enacting_allocateBlocking (h : k.Runs W me t) (pool : PoolId) (size : Nat)
    (purpose : Purpose ε) : k.Enacting (k.allocateBlocking pool size purpose) := by
  have htried := k.tried pool size purpose
  generalize k.allocateBlocking pool size purpose = outcome at htried ⊢
  cases htried with
  | granted hsize hok =>
    rename_i pools address
    exact (enacts_pools k pools rfl).then (enacting_obtained _ address size purpose)
  | starved _ _ _ _ => exact h.enacting_awaitMemory pool size purpose
  | _ => exact enacting_reply k _

theorem enacting_allocate (k : Kernel ε) (pool : PoolId) (size : Nat) :
    k.Enacting (k.allocate pool size) :=
  .orRefusePool fun (_, pools) _ => (enacts_pools k pools rfl).then (enacting_reply _ _)

theorem enacting_poolCreate (k : Kernel ε) (base size : Nat) :
    k.Enacting (k.poolCreate base size) :=
  .orRefusePool fun (_, pools) _ => (enacts_pools k pools rfl).then (enacting_reply _ _)

theorem enacting_poolDelete (k : Kernel ε) (pool : PoolId) : k.Enacting (k.poolDelete pool) :=
  .orRefusePool fun pools _ => (enacts_pools k pools rfl).then (enacting_reply _ _)

theorem Runs.enacting_free (h : k.Runs W me t) (pool : PoolId) (address : Nat) :
    k.Enacting (k.free pool address) := by
  cases hok : k.pools.deallocate pool address with
  | error error =>
    rw [Kernel.free, hok]
    exact enacting_reply k _
  | ok result =>
    obtain ⟨released, pools'⟩ := result
    rcases hnext : pools'.wakeNext pool with ⟨waiter?, rest⟩
    cases waiter? with
    | none =>
      rw [free_eq_reply hok hnext]
      have hfreed : k.Enacts (k.freed pool address rest k.sched) :=
        .of_eq rfl ((blockings_emit k _).trans (List.append_nil _))
      exact hfreed.then (enacting_reply _ _)
    | some waiter =>
      obtain ⟨u, hu, hstate, hreason⟩ :=
        h.settled.exists_of_wakeNext (Memory.Pools.waiters_deallocate hok) hnext
      have hne : me ≠ waiter := Ne.symm (h.ne_of_not_running hu (by simp [hstate]))
      have hrecord := Scheduler.get?_awakened k.sched waiter me u.priority .memory
      rw [if_neg hne, h.record] at hrecord
      let served := k.freed pool address rest (k.sched.awakened waiter u.priority .memory)
      have hserved : k.Enacts served := by
        refine .of_act (.wake waiter) ?_ ?_ (blockings_emit k _)
        · simp [Act.due, hu, hreason]
        · rw [Act.perform, Scheduler.wake_eq hu hreason]
          rfl
      rw [free_eq_preemptFor hok hnext hu hreason]
      exact hserved.then (enacting_preemptFor (k := served)
        (h.settled.sched.awakened hu hreason (by simp)) h.current hrecord h.running waiter _)

/-! ## Mutexes -/

theorem enacting_mutexCreate (k : Kernel ε) : k.Enacting k.mutexCreate := by
  have hcreated : k.Enacts (({ k with sched := k.sched.createMutex.2 } : Kernel ε).emit
      (.mutexCreate k.sched.createMutex.1)) :=
    .of_act .createMutex rfl rfl (blockings_emit _ _)
  exact hcreated.then (enacting_reply _ _)

theorem enacting_mutexDelete (k : Kernel ε) (x : MutexId) : k.Enacting (k.mutexDelete x) := by
  refine .orRefuse fun s' hs' => ?_
  have hdeleted : k.Enacts (({ k with sched := s' } : Kernel ε).emit (.mutexDelete x)) := by
    refine .of_act (.deleteMutex x) rfl ?_ (blockings_emit _ _)
    rw [Act.perform, hs']
    rfl
  exact hdeleted.then (enacting_reply _ _)

/-- The running thread begins to wait for a mutex that belongs to somebody else. -/
theorem Runs.enacting_awaitMutex (h : k.Runs W me t) {x : MutexId} {mutex : Mutex}
    {owner : ThreadId} (hx : k.sched.mutexes.get? x = some mutex)
    (howner : mutex.owner = some owner) (hne : owner ≠ me) (timeout : Timeout) :
    k.Enacting ((({ k with sched := k.sched.enlisted x me t.priority timeout } : Kernel ε).emit
      (.block x me)).switchNext (.inside (.acquire x me))) := by
  have hrecord := Scheduler.get?_enlisted k.sched x me me t.priority timeout
  rw [if_pos rfl, h.record, Option.map_some] at hrecord
  let waiting : Kernel ε := ({ k with
    sched := k.sched.enlisted x me t.priority timeout } : Kernel ε).emit (.block x me)
  have hwaiting : k.Enacts waiting := by
    refine .of_act (.waitForMutex x me timeout) ?_ ?_ (blockings_emit _ _)
    · simp [Act.due, Scheduler.state?, h.record, h.running, hx, howner, hne]
    · rw [Act.perform, Scheduler.waitForMutex_eq h.record hx]
      rfl
  exact hwaiting.then (enacting_switchNext (k := waiting)
    (h.settled.sched.enlisted hx howner hne h.record h.running timeout) h.current hrecord (by simp)
    _)

theorem Runs.enacting_acquire (h : k.Runs W me t) (x : MutexId) (timeout : Timeout) :
    k.Enacting (k.acquire x timeout) := by
  rw [Kernel.acquire, h.me_eq]
  simp only [bind, Except.bind]
  cases hx : k.sched.mutexes.get? x with
  | none =>
    rw [Scheduler.tryLock_unknown hx]
    exact enacting_reply k _
  | some mutex =>
    cases howner : mutex.owner with
    | none =>
      have hlock := Scheduler.tryLock_free hx howner h.record
      have hlocked : k.Enacts (({ k with sched := k.sched.locked x me } : Kernel ε).emit
          (.acquire x me)) := by
        refine .of_act (.tryLock x me) ?_ ?_ (blockings_emit _ _)
        · simp [Act.due, Scheduler.state?, h.record, h.running]
        · rw [Act.perform, hlock]
          rfl
      rw [hlock]
      exact hlocked.then (enacting_reply _ _)
    | some owner =>
      by_cases hne : owner = me
      · rw [Scheduler.tryLock_own hx (hne ▸ howner)]
        exact enacting_reply k _
      · rw [Scheduler.tryLock_other hx howner hne]
        dsimp only
        split
        · exact enacting_reply k _
        · rw [Scheduler.waitForMutex_eq h.record hx]
          exact h.enacting_awaitMutex hx howner hne _

theorem Runs.enacting_finishAcquire (h : k.Runs W me t) (x : MutexId) :
    k.Enacting (k.finishAcquire x me) := by
  have hnone : t.wanted = none :=
    (h.settled.sched.tidy h.record).wanted_eq_none (by simp [h.running])
  rw [Kernel.finishAcquire, h.settled.sched.finishMutexWait_eq h.record hnone x]
  have hplain : ∀ {event : Trace.Event}, event.begins = [] → k.Enacts (k.emit event) :=
    fun hevent => .of_eq rfl (by rw [blockings_emit, hevent, List.append_nil])
  show k.Enacting
    (if (k.sched.mutexes.get? x).any fun mutex => mutex.owner == some me then _ else _)
  split
  · exact (hplain rfl).then (enacting_reply (k.emit (.acquire x me)) _)
  · exact (hplain rfl).then (enacting_reply (k.emit (.timeout x me)) _)

theorem Runs.enacting_release (h : k.Runs W me t) (x : MutexId) :
    k.Enacting (k.release x) := by
  rw [Kernel.release, h.me_eq]
  show k.Enacting (k.orFail (k.sched.release x me) _)
  cases hrelease : k.sched.release x me with
  | error failure =>
    cases failure with
    | refused status => exact enacting_reply k _
    | broken invariant =>
      intro k' hrun
      cases hrun
  | ok result =>
    obtain ⟨next, s'⟩ := result
    let released : Kernel ε := ({ k with sched := s' } : Kernel ε).emit (.release x me)
    have hreleased : k.Enacts released := by
      refine .of_act (.release x me) rfl ?_ (blockings_emit _ _)
      rw [Act.perform, hrelease]
      rfl
    cases next with
    | none => exact hreleased.then (enacting_reply _ _)
    | some heir =>
      obtain ⟨mutex, hx, howner, hover⟩ := Scheduler.exists_of_release hrelease
      obtain ⟨_, _, heq, horderly, hcurrent, hnext, hget⟩ :=
        h.settled.sched.handOver hx howner h.record
      obtain ⟨rfl, rfl⟩ := Prod.mk.inj (Except.ok.inj (hover.symm.trans heq))
      have hself : heir ≠ me := (hnext heir rfl).1
      have hrecord : s'.threads.get? me = some (t.letGo x) := by
        rw [hget, if_neg (mt Option.some.inj hself), if_pos rfl, h.record, Option.map_some]
      have hpassed : k.Enacts (released.emit (.handoff x heir)) :=
        hreleased.trans (.of_eq rfl ((blockings_emit _ _).trans (List.append_nil _)))
      exact hpassed.then (enacting_preemptFor (k := released.emit (.handoff x heir)) horderly
        (hcurrent.trans h.current) hrecord h.running heir _)

/-! ## Threads -/

theorem Runs.enacting_activate (h : k.Runs W me t) (id : ThreadId) :
    k.Enacting (k.activate id) := by
  rcases activate_cases k id with ⟨status, hrefused⟩ | ⟨u, entry, hu, hdead, hbegins⟩
  · rw [hrefused]
    exact enacting_reply k _
  · have hme : me ≠ id := Ne.symm (h.ne_of_not_running hu (by simp [hdead]))
    have hparked := get?_parked_self hu entry
    let placed : Kernel ε := { k with sched := k.sched.parked id (.delivering entry) }
    have hplaced : k.Enacts placed := by
      refine .of_act (.setPosition id (.delivering entry)) rfl ?_ (List.append_nil _).symm
      rw [Act.perform, Scheduler.setPosition, Scheduler.find_eq hu]
      rfl
    have hbegun : k.Enacts (k.begun id u.priority entry) := by
      refine hplaced.trans (.of_act (.makeReady id) ?_ ?_ (blockings_emit _ _))
      · simp [Act.due, Scheduler.state?, placed, hparked, hdead]
      · rw [Act.perform, Scheduler.makeReady_eq hparked]
        rfl
    rw [hbegins]
    exact hbegun.then (enacting_preemptFor (k := k.begun id u.priority entry)
      (orderly_begun h.settled.sched hu hdead entry) h.current
      ((get?_begun hu entry me).trans ((if_neg hme).trans h.record)) h.running id _)

/-- The running thread waits for something else than a mutex. -/
theorem Runs.enacting_suspend (h : k.Runs W me t) {reason : WaitReason} (hmutex : reason ≠ .mutex)
    (timeout : Timeout) (hsched : m.sched = k.sched.suspended me reason timeout)
    (hblockings : m.blockings =
      k.blockings ++ (Act.block me reason timeout : Act (Position ε)).begins)
    (here : Position ε) : k.Enacting (m.switchNext here) := by
  have hrecord := Scheduler.get?_suspended k.sched me me reason timeout
  rw [if_pos rfl, h.record, Option.map_some, ← hsched] at hrecord
  have hsuspended : k.Enacts m := by
    refine .of_act (.block me reason timeout) ?_ ?_ hblockings
    · simp [Act.due, Scheduler.state?, h.record, h.running, hmutex]
    · rw [Act.perform, Scheduler.block_eq h.record, hsched]
      rfl
  exact hsuspended.then (enacting_switchNext
    (hsched ▸ h.settled.sched.suspended h.record h.running hmutex timeout)
    (by rw [hsched]; exact h.current) hrecord (by simp) here)

theorem Runs.enacting_sleep (h : k.Runs W me t) (timeout : Timeout) :
    k.Enacting (k.sleep timeout) := by
  have hyield := enacting_yield h.settled.sched h.current h.record h.running
  rw [Kernel.sleep, h.me_eq]
  cases timeout with
  | immediate => exact hyield _
  | infinite => exact hyield _
  | ticks count =>
    show k.Enacting (k.sched.block me .sleep (.ticks count) >>= _)
    rw [Scheduler.block_eq h.record]
    exact h.enacting_suspend (by simp) (.ticks count) rfl (blockings_emit _ _) _

theorem Runs.enacting_awaitIo (h : k.Runs W me t) (interrupts : List Interrupt) :
    k.Enacting (k.awaitIo (.raising interrupts)) := by
  rw [Kernel.awaitIo, h.me_eq]
  show k.Enacting (do
    let sched ← (interrupts.foldl Kernel.raise k).sched.block me .io .infinite
    { interrupts.foldl Kernel.raise k with sched }.switchNext (.inside (.awaitIo me)))
  rw [foldl_raise_line]
  show k.Enacting (k.sched.block me .io .infinite >>= _)
  rw [Scheduler.block_eq h.record]
  exact h.enacting_suspend (by simp) .infinite rfl (List.append_nil _).symm _

/-! ## Termination and removal -/

theorem begins_handoffEvents (handoffs : List (MutexId × ThreadId)) :
    (handoffEvents handoffs).flatMap Trace.Event.begins = [] := by
  rw [List.flatMap_eq_nil_iff]
  intro event hmem
  obtain ⟨handoff, -, rfl⟩ := List.mem_map.mp hmem
  rfl

/-- The end of a life is one call, however it is reported. -/
theorem enacts_parted {report : Termination} {s' : Scheduler (Position ε)}
    {events : List Trace.Event} (heq : k.sched.terminate id = .ok (report, s'))
    (hplain : events.flatMap Trace.Event.begins = []) : k.Enacts (k.parted id s' events) := by
  refine .of_act (.terminate id) rfl ?_ ?_
  · rw [Act.perform, heq]
    rfl
  · have hjournal : (k.parted id s' events).blockings = k.blockings ++ _ :=
      blockings_of_journal rfl
    rw [hjournal, hplain]
    rfl

theorem Runs.enacting_terminate (h : k.Runs W me t) (id : ThreadId) :
    k.Enacting (k.terminate id) := by
  rw [Kernel.terminate]
  split
  · exact enacting_reply k _
  · cases hu : k.sched.threads.get? id with
    | none =>
      rw [Scheduler.terminate_unknown hu]
      exact enacting_reply k _
    | some u =>
      by_cases hdead : u.state = .dead
      · rw [Scheduler.terminate_dead hu hdead]
        exact enacting_reply k _
      · obtain ⟨report, s', heq, horderly, -, hburied, hinherited, hprevious, -⟩ :=
          h.settled.sched.terminate h.settled.emptyHanded hu hdead h.current h.record
        have hcurrent : s'.current = some me := hinherited.current.trans h.current
        let ended := k.parted id s' (.threadTerminate id :: handoffEvents report.handoffs)
        have hended : k.Enacts ended := enacts_parted heq (begins_handoffEvents report.handoffs)
        rw [heq]
        show k.Enacting (if report.previous = .running then _ else if report.preempt then _
          else _)
        rw [parted_terminate]
        by_cases hrunning : u.state = .running
        · obtain rfl := h.sole hu hrunning
          rw [if_pos (hprevious.trans hrunning)]
          exact hended.then (enacting_switchNext (k := ended) horderly hcurrent hburied
            (by simp [Thread.bury]) _)
        · have hrecord :=
            h.record_of_inherited hinherited (Ne.symm (h.ne_of_not_running hu hrunning))
          rw [if_neg (hprevious ▸ hrunning)]
          split
          · exact hended.then (enacting_yield (k := ended) horderly hcurrent hrecord h.running _)
          · exact hended.then (enacting_reply ended _)

theorem Serving.enacting_delete (h : k.Serving W me t) (id : ThreadId) :
    k.Enacting (k.delete id) := by
  rcases h.delete_cases id with ⟨-, status, hrefused⟩ | ⟨u, hu, hdead, -, hserving, hremoved⟩
  · rw [hrefused]
    exact enacting_reply k _
  · have hwithout : k.Enacts (k.without id) := by
      refine .of_act (.removeThread id) rfl ?_ (blockings_emit _ _)
      rw [Act.perform, Scheduler.removeThread_eq hu, if_pos hdead]
      rfl
    rw [hremoved]
    cases u.stack with
    | none => exact hwithout.then (enacting_reply _ _)
    | some stack => exact hwithout.then (hserving.toRuns.enacting_free _ _)

/-- When a program has ended, the next thread is picked and nobody is parked. -/
theorem Runs.enacting_exit (h : k.Runs W me t) (hinside : k.gate.inside = false) :
    k.Enacting k.exit := by
  have halive : t.state ≠ .dead := by simp [h.running]
  obtain ⟨report, s', heq, -, -, hburied, hinherited, -, -⟩ :=
    h.settled.sched.terminate h.settled.emptyHanded h.record halive h.current h.record
  let ended := k.parted me s' (handoffEvents report.handoffs ++ [.threadTerminate me])
  have hended : k.Enacts ended := by
    refine enacts_parted heq ?_
    rw [List.flatMap_append, begins_handoffEvents]
    rfl
  intro k' hrun
  obtain ⟨switch, picked, there, hpick, -, rfl⟩ := h.exit_eq_ok hinside heq hrun
  have hpicked : ended.Enacts { ended with sched := picked } := by
    refine .of_act .pickNext ?_ ?_ (List.append_nil _).symm
    · show s'.current.all (fun id => s'.state? id != some .running) = true
      simp [hinherited.current, h.current, Scheduler.state?, hburied, Thread.bury]
    · show (s'.pickNext.toOption.map _).map _ = _
      rw [hpick]
      rfl
  exact (hended.trans hpicked).trans (enacts_resume _ there)

/-! ## Interrupts -/

theorem Runs.enacting_dispatchTick (h : k.Runs W me t) (destination : Destination ε) :
    k.Enacting (k.dispatchTick destination) := by
  obtain ⟨report, s', heq, horderly, hroused, -⟩ := h.settled.sched.tick
  have hticked : k.Enacts (k.ticked s' report) := by
    refine .of_act .tick rfl ?_ ?_
    · rw [Act.perform, heq]
      rfl
    · have hjournal : (k.ticked s' report).blockings = k.blockings ++ _ :=
        blockings_of_journal rfl
      simp [hjournal, Trace.Event.begins, Act.begins]
  rw [dispatchTick_eq heq]
  exact hticked.then (enacting_yield (k := k.ticked s' report) horderly
    (hroused.current.trans h.current) (h.record_tick heq) h.running _)

theorem Runs.enacting_dispatchResult (h : k.Runs W me t) (destination : Destination ε)
    (id : ThreadId) (result : Int32) :
    k.Enacting (k.dispatchResult destination id result) := by
  rw [Kernel.dispatchResult]
  cases hawaits : k.awaitsIo id with
  | false => exact (enacts_resume k _).enacting
  | true =>
    obtain ⟨u, hu, hwaiting, hreason⟩ := awaitsIo_iff.mp hawaits
    obtain ⟨hwake, horderly, -⟩ := informed_spec h.settled.sched hu hreason result
    have hne : me ≠ id := Ne.symm (h.ne_of_not_running hu (by simp [hwaiting]))
    have hrecord := (get?_informed k.sched id me u.priority result).trans (if_neg hne)
    have hnoted := Scheduler.get?_update k.sched id id fun u => { u with result }
    rw [if_pos rfl, hu, Option.map_some] at hnoted
    let noted : Kernel ε := { k with sched := k.sched.update id fun u => { u with result } }
    have hnoting : k.Enacts noted := .of_act (.setResult id result) rfl rfl (List.append_nil _).symm
    let told := k.told id u.priority result
    have htold : k.Enacts told := by
      refine hnoting.trans (.of_act (.wake id) ?_ ?_ (blockings_emit _ _))
      · simp [Act.due, noted, hnoted, hreason]
      · show ((noted.sched.wake id).toOption.map _).map _ = _
        rw [hwake]
        rfl
    intro k' hrun
    simp only [Bool.not_true, Bool.false_eq_true, if_false] at hrun
    rw [hwake] at hrun
    change (told.sched.outranksCurrent id >>= _) = _ at hrun
    obtain ⟨outranks, -, hrun⟩ := bind_eq_ok hrun
    cases outranks with
    | false => exact htold.then (enacts_resume told _).enacting k' hrun
    | true =>
      have hpreempted : k.Enacts (told.emit (.preempt id)) :=
        htold.trans (.of_eq rfl ((blockings_emit told _).trans (List.append_nil _)))
      exact hpreempted.then (enacting_yield (k := told.emit (.preempt id)) horderly h.current
        (hrecord.trans h.record) h.running _) k' hrun

/-! ## Every move -/

theorem Calling.enacting_inSection (h : k.Calling W me t) (line : Line)
    {body : Kernel ε → Except Invariant (Kernel ε)}
    (hbody : ∀ entered : Kernel ε, entered.Serving W me t → entered.Enacting (body entered)) :
    k.Enacting (({ k with line } : Kernel ε).inSection body) := by
  have hcalling : ({ k with line } : Kernel ε).Calling W me t :=
    ⟨⟨h.going, h.settled, h.current, h.record, h.running⟩, h.unrivalled, h.outside, h.program⟩
  rw [hcalling.inSection_eq]
  exact Enacts.then (.of_eq rfl rfl) (hbody _ hcalling.serving)

theorem Calling.enacting_awaitIo (h : k.Calling W me t) (issue : Issue) :
    k.Enacting (k.call (.awaitIo issue)) := by
  refine h.enacting_inSection k.line fun entered hserving => ?_
  cases issue with
  | raising interrupts => exact hserving.enacting_awaitIo interrupts
  | reentrant =>
    -- The section is held by the thread itself.
    have henter : entered.enter = .error .sectionFree := by
      rw [Kernel.enter, CriticalSection.enter, hserving.inside]
      rfl
    rw [Kernel.awaitIo, hserving.me_eq]
    simp only [bind, Except.bind, henter]
    exact Enacts.enacting (.of_eq rfl rfl)

/-- Forgetting positions is one call after the other. -/
theorem run_forgetPosition (s : Scheduler (Position ε)) (ids : List ThreadId) :
    s.run (ids.map .forgetPosition) = some (ids.foldl Scheduler.forgetPosition s, []) := by
  induction ids generalizing s with
  | nil => rfl
  | cons id rest ih =>
    exact Scheduler.run_cons_iff.mpr ⟨s.forgetPosition id, [], [], rfl, rfl, ih _, rfl⟩

theorem Calling.enacting_shutdown (h : k.Calling W me t) : k.Enacting (k.call .shutdown) := by
  refine h.enacting_inSection k.line fun entered hserving => ?_
  rw [Kernel.shutdown]
  split
  · exact enacting_reply entered _
  · refine Enacts.enacting ⟨_, _, run_forgetPosition entered.sched
      (entered.sched.threads.handles.filter (· != entered.main)), ?_⟩
    have hnobody : ∀ ids : List ThreadId,
        (ids.map (Act.forgetPosition (κ := Position ε))).flatMap Act.begins = [] := fun ids => by
      simp [List.flatMap_map, Act.begins]
    rw [hnobody, List.append_nil]
    rfl

theorem Calling.enacting_call (h : k.Calling W me t) (request : Call ε) :
    k.Enacting (k.call request) := by
  have hrefused : ∀ status, k.Enacting (.ok (k.refuseAtOnce status)) := fun _ =>
    Enacts.enacting (.of_eq rfl rfl)
  have hinside : ∀ {body : Kernel ε → Except Invariant (Kernel ε)},
      (∀ entered : Kernel ε, entered.Serving W me t → entered.Enacting (body entered)) →
      k.Enacting (k.inSection body) := h.enacting_inSection k.line
  cases request with
  | threadCreate entry stackSize priority =>
    rw [Kernel.call]
    split
    · exact hrefused _
    · exact hinside fun _ h => h.enacting_allocateBlocking _ _ _
  | sleep timeout =>
    rw [Kernel.call]
    split
    · exact hrefused _
    · exact hinside fun _ h => h.enacting_sleep _
  | threadActivate id => exact hinside fun _ h => h.enacting_activate id
  | threadTerminate id => exact hinside fun _ h => h.enacting_terminate id
  | threadDelete id => exact hinside fun _ h => h.enacting_delete id
  | mutexCreate => exact hinside fun entered _ => entered.enacting_mutexCreate
  | mutexDelete mutex => exact hinside fun entered _ => entered.enacting_mutexDelete mutex
  | mutexAcquire mutex timeout => exact hinside fun _ h => h.enacting_acquire mutex timeout
  | mutexRelease mutex => exact hinside fun _ h => h.enacting_release mutex
  | poolCreate base size => exact hinside fun entered _ => entered.enacting_poolCreate base size
  | poolDelete pool => exact hinside fun entered _ => entered.enacting_poolDelete pool
  | allocate pool size => exact hinside fun entered _ => entered.enacting_allocate pool size
  | allocateBlocking pool size => exact hinside fun _ h => h.enacting_allocateBlocking pool size _
  | free pool address => exact hinside fun _ h => h.enacting_free pool address
  | bufferAcquire => exact hinside fun _ h => h.enacting_allocateBlocking _ _ _
  | bufferRelease address => exact hinside fun _ h => h.enacting_free _ address
  | tick =>
    exact h.enacting_inSection (k.line.raise .tick) fun entered _ => enacting_reply entered _
  | ioComplete id result =>
    exact h.enacting_inSection (k.line.raise (.ioComplete id result)) fun entered _ =>
      enacting_reply entered _
  | poll => exact hinside fun entered _ => enacting_reply entered _
  | awaitIo issue => exact h.enacting_awaitIo issue
  | shutdown => exact h.enacting_shutdown

theorem Runs.enacting_resumeCall (h : k.Runs W me t) {pending : Pending ε}
    (hfits : pending.Fits k.pools me) : k.Enacting (k.resumeCall pending) := by
  cases pending with
  | reply answer => exact enacting_reply k answer
  | acquire mutex thread =>
    obtain rfl := hfits
    exact h.enacting_finishAcquire mutex
  | allocate pool size purpose => exact h.enacting_allocateBlocking pool size purpose
  | awaitIo thread => exact .orRefuse fun _ _ => enacting_reply k _

theorem Runs.enacting_deliver (h : k.Runs W me t) (houtside : k.gate.inside = false)
    (destination : Destination ε) : k.Enacting (k.deliver destination) := by
  cases hpending : k.line.pending with
  | nil =>
    rw [Kernel.deliver, Line.take?, hpending]
    exact Enacts.enacting (by rw [reach_eq]; exact .of_eq rfl rfl)
  | cons interrupt rest =>
    let entered : Kernel ε := { k with line := { pending := rest }, gate := { inside := true } }
    have hruns : entered.Runs W me t := ⟨h.going, h.settled, h.current, h.record, h.running⟩
    have hentered : k.Enacts entered := .of_eq rfl rfl
    rw [deliver_eq h.going houtside hpending]
    cases interrupt with
    | tick => exact hentered.then (hruns.enacting_dispatchTick destination)
    | ioComplete id result =>
      exact hentered.then (hruns.enacting_dispatchResult destination id result)

theorem Halted.enacts (h : k.Halted) (hallowed : k.allows move = true)
    (hrun : k.perform move = .ok k') : k.Enacts k' := by
  have hgoing : k.stopped ≠ false := by simp [h.stopped]
  cases (h.moved hallowed hrun).effect with
  | still hsched _ _ hjournal _ _ _ => exact .of_eq hsched (by rw [blockings, hjournal]; rfl)
  | turn hnot _ _ => exact absurd hnot hgoing
  | shutdown hnot _ _ _ _ _ _ _ _ _ _ => exact absurd hnot hgoing

/-- Every move of a sound kernel makes calls of the scheduler that are due. -/
theorem Sound.enacts (h : k.Sound W) (hallowed : k.allows move = true)
    (hrun : k.perform move = .ok k') : k.Enacts k' := by
  rcases h with hhalted | ⟨me, t, hruns, hrank, hposture⟩
  · exact hhalted.enacts hallowed hrun
  · have hsound : k.Sound W := .inr ⟨me, t, hruns, hrank, hposture⟩
    have hcalling : k.activity = .program → ∃ me t, k.Calling W me t := fun hprogram =>
      (hsound.calling hprogram).resolve_left fun hhalted => by
        simpa [hruns.going] using hhalted.stopped
    cases move with
    | call request =>
      obtain ⟨me, t, hcalling⟩ := hcalling (inProgram_iff.mp hallowed)
      exact hcalling.enacting_call request k' hrun
    | exit =>
      rw [allows, Bool.and_eq_true] at hallowed
      obtain ⟨me, t, hcalling⟩ := hcalling (inProgram_iff.mp hallowed.1)
      exact hcalling.enacting_exit hcalling.outside k' hrun
    | raise interrupt =>
      obtain rfl := Except.ok.inj hrun
      exact .of_eq rfl rfl
    | advance =>
      change k.advance = _ at hrun
      by_cases hresuming : ∃ pending, k.activity = .resuming pending
      · obtain ⟨pending, hactivity⟩ := hresuming
        rw [Kernel.advance, hactivity] at hrun
        exact hruns.enacting_resumeCall (hposture.fits pending hactivity) k' hrun
      by_cases hdelivering : ∃ destination, k.activity = .delivering destination
      · obtain ⟨destination, hactivity⟩ := hdelivering
        rw [Kernel.advance, hactivity] at hrun
        exact hruns.enacting_deliver (hposture.outside (not_exists.mp hresuming)) destination k'
          hrun
      · obtain ⟨activity, rfl, -⟩ :=
          advance_eq_ok (not_exists.mp hresuming) (not_exists.mp hdelivering) hrun
        exact .of_eq rfl rfl
    | bypass =>
      obtain ⟨_, -, rfl⟩ := eq_of_bypass hallowed hrun
      exact .of_eq rfl rfl

/-! ## Runs -/

/-- The calls with which a kernel starts: the main thread is adopted, and the idle thread is made
ready. -/
def earlyActs (config : Config) (address : Nat) : List (Act (Position ε)) :=
  [.addThread config.threadStem .normal none, .setPosition ⟨1⟩ (.delivering (.reply (.ok .done))),
    .adopt ⟨1⟩,
    .addThread config.threadStem .idle (some { address, size := config.idleStackSize }),
    .setPosition ⟨2⟩ (.delivering .rest), .makeReady ⟨2⟩]

theorem run_early (config : Config) (address : Nat) :
    ({} : Scheduler (Position ε)).run (earlyActs config address) =
      some (early config address, [⟨2⟩]) :=
  rfl

/-- The scheduler of a kernel has been in use from the beginning. -/
theorem Reachable.enacted (h : k.Reachable) : ∃ acts arrived,
    ({} : Scheduler (Position ε)).run acts = some (k.sched, arrived) ∧
      k.blockings = acts.flatMap Act.begins := by
  obtain ⟨config, arena, first, moves, hstart, hplay⟩ := h
  have hsound := start_sound hstart
  obtain ⟨pools, address, systemPool, sharedPool, -, -, rfl⟩ := start_eq hstart
  refine hsound.play_induction (P := fun _ k => ∃ acts arrived,
    ({} : Scheduler (Position ε)).run acts = some (k.sched, arrived) ∧
      k.blockings = acts.flatMap Act.begins) hplay ⟨_, _, run_early config address, rfl⟩ ?_
  rintro before move last next - hlast hallowed hperform - ⟨acts, arrived, hrun, hblockings⟩
  obtain ⟨acts', arrived', hrun', hblockings'⟩ := hlast.enacts hallowed hperform
  refine ⟨acts ++ acts', arrived ++ arrived', Scheduler.run_append hrun hrun', ?_⟩
  rw [hblockings', hblockings, List.flatMap_append]

/-- Those who wait for time or for a mutex stand in their queues in the order in which they began
to. -/
theorem Reachable.sublist_blockings (h : k.Reachable) {queue : List ThreadId}
    (hqueue : k.sched.TimedQueue queue) : queue.Sublist (byLast k.blockings) := by
  obtain ⟨acts, arrived, hrun, hblockings⟩ := h.enacted
  rw [hblockings]
  exact (Scheduler.carries_of_run hrun).2.2.2 hqueue

end Kernel

end CoopKernel
