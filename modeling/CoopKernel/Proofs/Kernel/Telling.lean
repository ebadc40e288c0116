import CoopKernel.Proofs.Kernel.MemoryQueue
import CoopKernel.Proofs.Memory.Lent
import CoopKernel.Proofs.Scheduler.Owners

/-!
# What a kernel reports is what it does

Whenever a kernel changes who owns a mutex or what is allocated, it reports events, and somebody
who notes them has the account of the kernel afterwards (`Kernel.Accounts`). When the processor
changes hands, the switches among the events lead from the thread that had it to the one that has
it now (`Kernel.Told`). Both are proved call by call; a call that does several things tells of one
after the other (`Tells.after`).

The end of a program is the exception: it is accounted for, but it reports no switch, although
another thread gets the processor (`Runs.takenOver`).
-/

namespace CoopKernel.Kernel

open Trace (Event Ledger Leads switches)

variable {ε : Type} {W : PoolId → Prop} {k k' m : Kernel ε} {me id : ThreadId}
  {t : Thread (Position ε)} {event : Event} {events later : List Event} {pool : PoolId}
  {mutex : MutexId} {answer : Answer} {outcome : Except Invariant (Kernel ε)}
  {destination : Destination ε}

/-- What a kernel has reported so far. -/
def reported (k : Kernel ε) : List Event := k.journal.map (·.event)

/-- The true account of a kernel. -/
def ledger (k : Kernel ε) : Ledger where
  owners := k.sched.owners
  lent := k.pools.lent

/-- Events were reported, and whoever notes them has the true account again. -/
structure Accounts (k k' : Kernel ε) (events : List Event) : Prop where
  reported : k'.reported = k.reported ++ events
  ledger : k'.ledger = k.ledger.replay events

/-- Events were reported, and whoever notes them has the true account again and knows who has the
processor. -/
structure Told (k k' : Kernel ε) (events : List Event) : Prop extends Accounts k k' events where
  leads : ∀ me, k.sched.current = some me →
    ∃ next, k'.sched.current = some next ∧ Leads me (switches events) next

/-- Whatever kernel an operation gives, it has told of everything that was done. -/
def Tells (k : Kernel ε) (outcome : Except Invariant (Kernel ε)) : Prop :=
  ∀ k', outcome = .ok k' → ∃ events, Told k k' events

/-- What keeping account of a kernel rests on. -/
structure WellKept (k : Kernel ε) : Prop where
  sched : k.sched.Orderly
  emptyHanded : k.sched.EmptyHanded
  busy : ∃ me t, k.sched.current = some me ∧ k.sched.threads.get? me = some t
  books : k.pools.Orderly

theorem Sound.wellKept (h : k.Sound W) : k.WellKept := by
  obtain ⟨_, _, hsettled, -⟩ := h.exists_settled
  obtain ⟨me, t, hcurrent, hrecord, -, -⟩ := h.upright.busy
  exact ⟨h.upright.orderly, h.upright.emptyHanded, ⟨me, t, hcurrent, hrecord⟩, hsettled.books⟩

/-! ## One thing after the other -/

theorem Accounts.trans (h : Accounts k m events) (h' : Accounts m k' later) :
    Accounts k k' (events ++ later) where
  reported := by rw [h'.reported, h.reported, List.append_assoc]
  ledger := by rw [h'.ledger, h.ledger, Ledger.replay_append]

theorem Told.trans (h : Told k m events) (h' : Told m k' later) :
    Told k k' (events ++ later) where
  toAccounts := h.toAccounts.trans h'.toAccounts
  leads := by
    intro me hme
    obtain ⟨middle, hmiddle, hbefore⟩ := h.leads me hme
    obtain ⟨next, hnext, hafter⟩ := h'.leads middle hmiddle
    rw [Trace.switches_append]
    exact ⟨next, hnext, Trace.leads_append_iff.mpr ⟨middle, hbefore, hafter⟩⟩

/-- An operation may tell of something after something else was told. -/
theorem Tells.after (hnext : m.Tells outcome) (h : Told k m events) : k.Tells outcome := by
  intro k' hrun
  obtain ⟨later, htold⟩ := hnext k' hrun
  exact ⟨events ++ later, h.trans htold⟩

theorem Told.tells (h : Told k k' events) : k.Tells (.ok k') := by
  rintro _ ⟨⟩
  exact ⟨events, h⟩

theorem tells_error (k : Kernel ε) (invariant : Invariant) : k.Tells (.error invariant) := nofun

theorem tells_bind {α : Type} {x : Except Invariant α} {f : α → Except Invariant (Kernel ε)}
    (hnext : ∀ value, x = .ok value → k.Tells (f value)) : k.Tells (x >>= f) := by
  intro k' hrun
  obtain ⟨value, hvalue, hrun⟩ := bind_eq_ok hrun
  exact hnext value hvalue k' hrun

/-! ## Single steps -/

theorem ledger_of_steady (hsteady : k.sched.Steady m.sched) (hlent : m.pools.lent = k.pools.lent) :
    m.ledger = k.ledger := by
  rw [ledger, ledger, hsteady.owners, hlent]

theorem ledger_of_owner {owner : Option (Option ThreadId)}
    (howners : m.sched.owners = Function.update k.sched.owners mutex owner)
    (hlent : m.pools.lent = k.pools.lent) : m.ledger = k.ledger.setOwner mutex owner := by
  rw [ledger, howners, hlent]
  rfl

theorem ledger_of_lent {address : Nat} {lent : Bool} (howners : m.sched.owners = k.sched.owners)
    (hlent : ∀ other found, m.pools.lent other found =
      if other = pool ∧ found = address then lent else k.pools.lent other found) :
    m.ledger = k.ledger.setLent pool address lent := by
  have hsame : m.pools.lent = (k.ledger.setLent pool address lent).lent := by
    funext other found
    rw [hlent, Ledger.setLent_lent]
    rfl
  rw [ledger, howners, hsame]
  rfl

/-- What concerns neither mutexes nor memory nor the processor need not be told. -/
theorem told_nothing (hjournal : m.journal = k.journal) (hsteady : k.sched.Steady m.sched)
    (hlent : m.pools.lent = k.pools.lent) : Told k m [] where
  reported := by rw [reported, hjournal, List.append_nil]; rfl
  ledger := ledger_of_steady hsteady hlent
  leads := fun me hme => ⟨me, hsteady.current.trans hme, rfl⟩

/-- Threads may move between queues. -/
theorem told_steady {s : Scheduler (Position ε)} (hsteady : k.sched.Steady s) :
    Told k { k with sched := s } [] :=
  told_nothing rfl hsteady rfl

theorem told_refl (k : Kernel ε) : Told k k [] := told_nothing rfl (.refl _) rfl

/-- One thing is done, and the event that says so is reported. -/
theorem told_emit (hjournal : m.journal = k.journal) (hcurrent : m.sched.current = k.sched.current)
    (hledger : m.ledger = k.ledger.note event) (hswitched : event.switched? = none) :
    Told k (m.emit event) [event] where
  reported := by
    rw [reported, emit, hjournal, List.map_append]
    rfl
  ledger := hledger
  leads := by
    intro me hme
    refine ⟨me, hcurrent.trans hme, ?_⟩
    rw [switches, List.filterMap_cons_none hswitched]
    rfl

/-- An event that says nothing about mutexes, memory and the processor is reported besides. -/
theorem told_aside (hjournal : m.journal = k.journal) (hsteady : k.sched.Steady m.sched)
    (hlent : m.pools.lent = k.pools.lent) (haside : ∀ ledger : Ledger, ledger.note event = ledger)
    (hswitched : event.switched? = none) : Told k (m.emit event) [event] :=
  told_emit hjournal hsteady.current ((ledger_of_steady hsteady hlent).trans (haside _).symm)
    hswitched

theorem told_foldl_emit {α : Type} (event : α → Event)
    (haside : ∀ value (ledger : Ledger), ledger.note (event value) = ledger)
    (hswitched : ∀ value, (event value).switched? = none) (k : Kernel ε) (values : List α) :
    ∃ events, Told k (values.foldl (fun k value => k.emit (event value)) k) events := by
  induction values generalizing k with
  | nil => exact ⟨[], told_refl k⟩
  | cons value rest ih =>
    obtain ⟨later, hlater⟩ := ih (k.emit (event value))
    have hfirst : Told k (k.emit (event value)) [event value] :=
      told_aside rfl (.refl _) rfl (haside value) (hswitched value)
    exact ⟨_, hfirst.trans hlater⟩

/-! ## Ends of calls -/

theorem tells_nothing (hjournal : m.journal = k.journal) (hsteady : k.sched.Steady m.sched)
    (hlent : m.pools.lent = k.pools.lent) : k.Tells (.ok m) :=
  (told_nothing hjournal hsteady hlent).tells

theorem tells_reply (k : Kernel ε) (answer : Answer) : k.Tells (.ok (k.reply answer)) :=
  tells_nothing rfl (.refl _) rfl

theorem tells_orRefuse {α : Type} {outcome : Except Status α}
    {next : α → Except Invariant (Kernel ε)}
    (hnext : ∀ value, outcome = .ok value → k.Tells (next value)) :
    k.Tells (k.orRefuse outcome next) := by
  cases outcome with
  | ok value => exact hnext value rfl
  | error status => exact tells_reply k (.error status)

theorem tells_orRefusePool {α : Type} {outcome : Except Memory.PoolError α}
    {next : α → Except Invariant (Kernel ε)}
    (hnext : ∀ value, outcome = .ok value → k.Tells (next value)) :
    k.Tells (k.orRefusePool outcome next) :=
  tells_orRefuse fun value hvalue => hnext value (mapError_eq_ok hvalue)

theorem tells_orFail {α : Type} {outcome : Except Failure α}
    {next : α → Except Invariant (Kernel ε)}
    (hnext : ∀ value, outcome = .ok value → k.Tells (next value)) :
    k.Tells (k.orFail outcome next) := by
  cases outcome with
  | ok value => exact hnext value rfl
  | error failure =>
    cases failure with
    | refused status => exact tells_reply k (.error status)
    | broken invariant => exact tells_error k invariant

/-- Only the gate notices that the section is entered. -/
theorem enter_eq_ok (h : k.enter = .ok m) : m.sched = k.sched ∧ m.pools = k.pools ∧ Told k m [] := by
  rw [enter] at h
  obtain ⟨gate, -, h⟩ := bind_eq_ok h
  obtain rfl := Except.ok.inj h
  exact ⟨rfl, rfl, told_nothing rfl (.refl _) rfl⟩

theorem tells_inSection {body : Kernel ε → Except Invariant (Kernel ε)}
    (hbody : ∀ m : Kernel ε, m.sched = k.sched → m.pools = k.pools → m.Tells (body m)) :
    k.Tells (k.inSection body) := by
  refine tells_bind fun m hm => ?_
  obtain ⟨hsched, hpools, hentered⟩ := enter_eq_ok hm
  split
  · exact (tells_reply m _).after hentered
  · exact (hbody m hsched hpools).after hentered

/-- Either event that reports a switch names both threads, and says nothing else. -/
theorem told_switch {source target : ThreadId} {picked : Scheduler (Position ε)}
    (hcurrent : k.sched.current = some source) (htarget : picked.current = some target)
    (howners : picked.owners = k.sched.owners) (here there : Position ε) :
    Told k ({ ({ k with sched := picked } : Kernel ε).emit (k.switchEvent source target) with
      sched := picked.parked source here }.resume there) [k.switchEvent source target] where
  reported := by simp [reported, emit]
  ledger := by
    have hsame : k.ledger.replay [k.switchEvent source target] = k.ledger := by
      rw [switchEvent]
      split <;> rfl
    have hparked : picked.Steady (picked.parked source here) := .of_mutexes rfl rfl
    rw [hsame, ledger, sched_resume, pools_resume]
    exact congrArg (Ledger.mk · _) (hparked.owners.trans howners)
  leads := by
    intro me hme
    obtain rfl := Option.some.inj (hcurrent.symm.trans hme)
    have hswitches : switches [k.switchEvent source target] = [(source, target)] := by
      rw [switchEvent]
      split <;> rfl
    rw [hswitches]
    exact ⟨target, by rw [sched_resume]; exact htarget, rfl, rfl⟩

/-- The switch that is reported is the one that is made. If the running thread goes on, none is. -/
theorem tells_switchNext (k : Kernel ε) (here : Position ε) : k.Tells (k.switchNext here) := by
  intro k' hrun
  obtain ⟨-, me, target, picked, hpick, hgoes⟩ := switchNext_cases hrun
  obtain ⟨hsource, htarget, howners⟩ := Scheduler.pickNext_eq_ok hpick
  have hme : k.sched.current = some me := hsource.symm
  rcases hgoes with ⟨rfl, rfl⟩ | ⟨-, there, -, rfl⟩
  · have hsteady : k.sched.Steady picked := ⟨htarget.trans hme.symm, howners⟩
    exact ⟨[], by cases here <;> exact told_nothing rfl hsteady rfl⟩
  · exact ⟨_, told_switch hme htarget howners here there⟩

theorem tells_yield (k : Kernel ε) (here : Position ε) : k.Tells (k.yield here) :=
  tells_bind fun _ hqueued =>
    (tells_switchNext _ here).after (told_steady (Scheduler.steady_requeueCurrent hqueued))

theorem tells_preemptFor (k : Kernel ε) (candidate : ThreadId) (answer : Answer) :
    k.Tells (k.preemptFor candidate answer) := by
  refine tells_bind fun outranked _ => ?_
  split
  · have hgives : Told k (k.emit (.preempt candidate)) [.preempt candidate] :=
      told_aside rfl (.refl _) rfl (fun _ => rfl) rfl
    exact (tells_yield _ _).after hgives
  · exact tells_reply k answer

/-! ## Memory -/

theorem told_alloc {pools : Memory.Pools} {size address : Nat}
    (hok : k.pools.allocate pool size = .ok (address, pools)) :
    Told k (({ k with pools } : Kernel ε).emit (.alloc pool address size))
      [.alloc pool address size] :=
  told_emit rfl rfl (ledger_of_lent rfl (Memory.Pools.lent_allocate hok)) rfl

theorem tells_allocate (k : Kernel ε) (pool : PoolId) (size : Nat) :
    k.Tells (k.allocate pool size) :=
  tells_orRefusePool fun _ hok => (tells_reply _ _).after (told_alloc hok)

theorem tells_obtained (k : Kernel ε) (address size : Nat) (purpose : Purpose ε) :
    k.Tells (.ok (k.obtained address size purpose)) := by
  cases purpose with
  | address => exact tells_reply k _
  | stack entry priority =>
    let newcomer := k.sched.addThread k.config.threadStem priority (some { address, size })
    let enlisted : Kernel ε := { k with
      sched := newcomer.2, entries := k.entries ++ [(newcomer.1, .start entry)] }
    have hcreated : Told k (enlisted.emit (.threadCreate newcomer.1 priority)) [_] :=
      told_aside rfl (.of_mutexes rfl rfl) rfl (fun _ => rfl) rfl
    exact (tells_reply _ _).after hcreated

theorem tells_awaitMemory (k : Kernel ε) (pool : PoolId) (size : Nat) (purpose : Purpose ε) :
    k.Tells (k.awaitMemory pool size purpose) := by
  refine tells_bind fun me _ => tells_orRefuse fun t _ => tells_bind fun s hblocked => ?_
  let waiting : Kernel ε := { k with pools := k.pools.wait me t.priority.rank pool, sched := s }
  have hwaits : Told k (waiting.emit (.wait pool me)) [.wait pool me] :=
    told_aside rfl (Scheduler.steady_block hblocked) (Memory.Pools.lent_of_registry rfl)
      (fun _ => rfl) rfl
  exact (tells_switchNext _ _).after hwaits

theorem tells_allocateBlocking (k : Kernel ε) (pool : PoolId) (size : Nat) (purpose : Purpose ε) :
    k.Tells (k.allocateBlocking pool size purpose) := by
  have htried := k.tried pool size purpose
  generalize k.allocateBlocking pool size purpose = outcome at htried ⊢
  cases htried with
  | granted _ hok => exact (tells_obtained _ _ _ _).after (told_alloc hok)
  | starved _ _ _ _ => exact tells_awaitMemory k pool size purpose
  | _ => exact tells_reply k _

theorem tells_free (hbooks : k.pools.Orderly) (pool : PoolId) (address : Nat) :
    k.Tells (k.free pool address) := by
  refine tells_orRefusePool fun result hok => ?_
  obtain ⟨released, pools⟩ := result
  have hfreed : Told k (({ k with pools } : Kernel ε).emit (.free pool address))
      [.free pool address] :=
    told_emit rfl rfl (ledger_of_lent rfl (Memory.Pools.lent_deallocate hbooks hok)) rfl
  refine Tells.after ?_ hfreed
  dsimp only
  split
  · exact tells_reply _ _
  · next hnext =>
    refine tells_bind fun s hwoken => ?_
    have hserved := Memory.Pools.lent_of_registry (Memory.Pools.registry_wakeNext hnext)
    exact (tells_preemptFor _ _ _).after (told_nothing rfl (Scheduler.steady_wake hwoken) hserved)

theorem tells_poolCreate (hbooks : k.pools.Orderly) (base size : Nat) :
    k.Tells (k.poolCreate base size) :=
  tells_orRefusePool fun _ hok => (tells_reply _ _).after
    (told_aside rfl (.refl _) (Memory.Pools.lent_create hbooks hok) (fun _ => rfl) rfl)

theorem tells_poolDelete (hbooks : k.pools.Orderly) (pool : PoolId) :
    k.Tells (k.poolDelete pool) :=
  tells_orRefusePool fun _ hok => (tells_reply _ _).after
    (told_aside rfl (.refl _) (Memory.Pools.lent_delete hbooks hok) (fun _ => rfl) rfl)

/-! ## Mutexes -/

theorem tells_mutexCreate (hsched : k.sched.Orderly) : k.Tells k.mutexCreate :=
  (tells_reply _ _).after
    (told_emit rfl rfl (ledger_of_owner (Scheduler.owners_createMutex hsched) rfl) rfl)

theorem tells_mutexDelete (k : Kernel ε) (mutex : MutexId) : k.Tells (k.mutexDelete mutex) :=
  tells_orRefuse fun _ hok =>
    have hdeleted := Scheduler.owners_deleteMutex hok
    (tells_reply _ _).after (told_emit rfl hdeleted.1 (ledger_of_owner hdeleted.2 rfl) rfl)

theorem tells_acquire (k : Kernel ε) (mutex : MutexId) (timeout : Timeout) :
    k.Tells (k.acquire mutex timeout) := by
  refine tells_bind fun me _ => ?_
  dsimp only
  split
  · next hlocked =>
    obtain ⟨hcurrent, howners⟩ := Scheduler.tryLock_eq_true hlocked
    exact (tells_reply _ _).after (told_emit rfl hcurrent (ledger_of_owner howners rfl) rfl)
  · split
    · exact tells_reply k _
    · refine tells_orFail fun s hwaits => ?_
      have hblocks : Told k (({ k with sched := s } : Kernel ε).emit (.block mutex me)) [_] :=
        told_aside rfl (Scheduler.steady_waitForMutex hwaits) rfl (fun _ => rfl) rfl
      exact (tells_switchNext _ _).after hblocks
  · exact tells_reply k _
  · exact tells_reply k _
  · exact tells_error k _

/-- A thread that got its mutex while it waited reports it now, when it owns it already. -/
theorem tells_finishAcquire (k : Kernel ε) (mutex : MutexId) (me : ThreadId) :
    k.Tells (k.finishAcquire mutex me) := by
  refine tells_bind fun result hok => ?_
  obtain ⟨owned, s⟩ := result
  obtain ⟨hsteady, howner⟩ := Scheduler.finishMutexWait_eq_ok hok
  dsimp only
  split
  · next howned =>
    have hsame : s.owners = Function.update k.sched.owners mutex (some (some me)) := by
      rw [hsteady.owners, Function.eq_update_self_iff, howner howned]
    exact (tells_reply _ _).after
      (told_emit rfl hsteady.current (ledger_of_owner hsame rfl) rfl)
  · exact (tells_reply _ _).after (told_aside rfl hsteady rfl (fun _ => rfl) rfl)

theorem tells_release (k : Kernel ε) (mutex : MutexId) : k.Tells (k.release mutex) := by
  refine tells_bind fun me _ => tells_orFail fun result hok => ?_
  obtain ⟨next, s⟩ := result
  obtain ⟨hcurrent, howners⟩ := Scheduler.release_eq_ok hok
  let released : Kernel ε := ({ k with sched := s } : Kernel ε).emit (.release mutex me)
  cases next with
  | none =>
    have htold : Told k released [.release mutex me] :=
      told_emit rfl hcurrent (ledger_of_owner howners rfl) rfl
    exact (tells_reply _ _).after htold
  | some heir =>
    -- The two events together say what was done in one step.
    have howners' : s.owners = Function.update (Function.update k.sched.owners mutex (some none))
        mutex (some (some heir)) := by rw [Function.update_idem, howners]
    have hledger : released.ledger = k.ledger.replay [.release mutex me, .handoff mutex heir] :=
      congrArg (Ledger.mk · _) howners'
    have htold : Told k (released.emit (.handoff mutex heir))
        [.release mutex me, .handoff mutex heir] :=
      ⟨⟨by simp [released, reported, emit], hledger⟩, fun other hother =>
        ⟨other, hcurrent.trans hother, rfl⟩⟩
    exact (tells_preemptFor _ _ _).after htold

/-! ## Threads -/

theorem tells_activate (k : Kernel ε) (id : ThreadId) : k.Tells (k.activate id) := by
  refine tells_orRefuse fun t _ => ?_
  split
  · refine tells_bind fun s hready => ?_
    have hsteady := (Scheduler.steady_update ..).trans (Scheduler.steady_makeReady hready)
    exact (tells_preemptFor _ _ _).after (told_aside rfl hsteady rfl (fun _ => rfl) rfl)
  · exact tells_reply k _

theorem switches_handoffEvents (handoffs : List (MutexId × ThreadId)) :
    switches (handoffEvents handoffs) = [] := by
  simp [switches, handoffEvents, Event.switched?]

/-- A termination is accounted for in whichever order it is reported. -/
theorem accounts_parted {s : Scheduler (Position ε)} {handoffs : List (MutexId × ThreadId)}
    (hgives : Ledger.GivesUp k.sched.owners s.owners id handoffs)
    (hevents : Ledger.GivesUp k.sched.owners (k.ledger.replay events).owners id handoffs)
    (hlent : (k.ledger.replay events).lent = k.pools.lent) :
    Accounts k (k.parted id s events) events where
  reported := by simp [reported, parted, Function.comp_def]
  ledger := by
    have hregistry := Memory.Pools.registry_cancelWait k.pools id
    have hsame : (k.pools.cancelWait id).2.lent = (k.ledger.replay events).lent :=
      (Memory.Pools.lent_of_registry hregistry).trans hlent.symm
    show Ledger.mk s.owners (k.pools.cancelWait id).2.lent = _
    rw [hgives.unique hevents, hsame]

theorem tells_terminate (h : k.WellKept) (id : ThreadId) : k.Tells (k.terminate id) := by
  rw [terminate]
  split
  · exact tells_reply k _
  · refine tells_orFail fun result hok => ?_
    obtain ⟨report, s⟩ := result
    obtain ⟨me, t, hcurrent, hrecord⟩ := h.busy
    obtain ⟨hsame, hgives, -⟩ :=
      h.sched.owners_terminate h.emptyHanded hcurrent hrecord hok
    let events := Event.threadTerminate id :: handoffEvents report.handoffs
    have haccounts : Accounts k (k.parted id s events) events :=
      accounts_parted hgives (Ledger.givesUp_terminate k.ledger id hgives.only)
        (Ledger.lent_replay_handoffs (k.ledger.clearOwner id) report.handoffs)
    have htold : Told k (k.parted id s events) events := by
      refine ⟨haccounts, fun other hother => ⟨other, hsame.trans hother, ?_⟩⟩
      show Leads other (switches (handoffEvents report.handoffs)) other
      rw [switches_handoffEvents]
      rfl
    dsimp only
    rw [parted_terminate]
    split
    · exact (tells_switchNext _ _).after htold
    · split
      · exact (tells_yield _ _).after htold
      · exact (tells_reply _ _).after htold

theorem tells_delete (hbooks : k.pools.Orderly) (id : ThreadId) : k.Tells (k.delete id) := by
  rw [delete]
  split
  · exact tells_reply k _
  · refine tells_orRefuse fun result hok => ?_
    obtain ⟨t, s⟩ := result
    let removed : Kernel ε := { k with sched := s, entries := k.entries.filter (·.1 != id) }
    have htold : Told k (removed.emit (.threadDelete id)) [.threadDelete id] :=
      told_aside rfl (Scheduler.steady_removeThread hok) rfl (fun _ => rfl) rfl
    dsimp only
    split
    · exact (tells_reply _ _).after htold
    · next stack _ =>
      have hbooks' : (removed.emit (.threadDelete id)).pools.Orderly := hbooks
      exact (tells_free hbooks' _ stack.address).after htold

theorem tells_sleep (k : Kernel ε) (timeout : Timeout) : k.Tells (k.sleep timeout) := by
  refine tells_bind fun me _ => ?_
  split
  · exact tells_bind fun s hblocked => (tells_switchNext _ _).after
      (told_aside rfl (Scheduler.steady_block hblocked) rfl (fun _ => rfl) rfl)
  · exact tells_yield k _

theorem tells_shutdown (k : Kernel ε) : k.Tells k.shutdown := by
  rw [shutdown]
  split
  · exact tells_reply k _
  · exact (tells_reply _ _).after
      (told_nothing rfl (Scheduler.steady_foldl_forgetPosition k.sched _) rfl)

/-! ## Interrupts -/

theorem tells_resume (k : Kernel ε) (destination : Destination ε) :
    k.Tells (.ok (k.resume (.delivering destination))) :=
  tells_nothing rfl (.refl _) rfl

theorem tells_reach (k : Kernel ε) (destination : Destination ε) :
    k.Tells (.ok (k.reach destination)) := by
  cases destination <;> exact tells_nothing rfl (.refl _) rfl

theorem tells_dispatchTick (k : Kernel ε) (destination : Destination ε) :
    k.Tells (k.dispatchTick destination) := by
  refine tells_bind fun result htick => ?_
  obtain ⟨report, s⟩ := result
  let ticked : Kernel ε := ({ k with sched := s } : Kernel ε).emit (.tick report.tick)
  have hticked : Told k ticked [.tick report.tick] :=
    told_aside rfl (Scheduler.steady_tick htick) rfl (fun _ => rfl) rfl
  obtain ⟨_, hwoken⟩ :=
    told_foldl_emit (fun id => .wake id) (fun _ _ => rfl) (fun _ => rfl) ticked report.woken
  exact (tells_yield _ _).after (hticked.trans hwoken)

theorem tells_dispatchResult (k : Kernel ε) (destination : Destination ε) (id : ThreadId)
    (result : Int32) : k.Tells (k.dispatchResult destination id result) := by
  rw [dispatchResult]
  split
  · exact tells_resume k destination
  · refine tells_bind fun s hwoken => ?_
    have hsteady := (Scheduler.steady_update ..).trans (Scheduler.steady_wake hwoken)
    have hinformed : Told k (({ k with sched := s } : Kernel ε).emit (.ioDone id result)) [_] :=
      told_aside rfl hsteady rfl (fun _ => rfl) rfl
    refine Tells.after (tells_bind fun outranked _ => ?_) hinformed
    split
    · exact (tells_yield _ _).after (told_aside rfl (.refl _) rfl (fun _ => rfl) rfl)
    · exact tells_resume _ destination

theorem tells_deliver (k : Kernel ε) (destination : Destination ε) :
    k.Tells (k.deliver destination) := by
  rw [deliver]
  split
  · exact tells_reach k destination
  · next interrupt line _ =>
    have htaken : Told k { k with line } [] := told_nothing rfl (.refl _) rfl
    refine Tells.after (tells_bind fun m hm => ?_) htaken
    obtain ⟨-, -, hentered⟩ := enter_eq_ok hm
    have hleft : Told m m.leave [] := told_nothing rfl (.refl _) rfl
    split
    · exact (tells_reach _ destination).after (hentered.trans hleft)
    · split
      · exact (tells_dispatchTick _ _).after hentered
      · exact (tells_dispatchResult _ _ _ _).after hentered

theorem told_raise (k : Kernel ε) (interrupt : Interrupt) : Told k (k.raise interrupt) [] :=
  told_nothing rfl (.refl _) rfl

theorem tells_awaitIo (k : Kernel ε) (issue : Issue) : k.Tells (k.awaitIo issue) := by
  refine tells_bind fun me _ => ?_
  cases issue with
  | raising interrupts =>
    obtain ⟨line, hline⟩ := foldl_raise_eq k interrupts
    dsimp only
    rw [hline]
    exact tells_bind fun s hblocked => (tells_switchNext _ _).after
      (told_nothing rfl (Scheduler.steady_block hblocked) rfl)
  | reentrant =>
    dsimp only
    split
    · exact tells_nothing rfl (.refl _) rfl
    · next m hm => exact (tells_reply m _).after (enter_eq_ok hm).2.2

/-! ## Every move -/

theorem WellKept.keep (h : k.WellKept) (hsched : m.sched = k.sched) (hpools : m.pools = k.pools) :
    m.WellKept := by
  obtain ⟨hs, hempty, hbusy, hbooks⟩ := h
  exact ⟨hsched ▸ hs, hsched ▸ hempty, hsched ▸ hbusy, hpools ▸ hbooks⟩

theorem tells_call (h : k.WellKept) (request : Call ε) : k.Tells (k.call request) := by
  have hbody : ∀ {body : Kernel ε → Except Invariant (Kernel ε)},
      (∀ m : Kernel ε, m.WellKept → m.Tells (body m)) → k.Tells (k.inSection body) :=
    fun hbody => tells_inSection fun m hsched hpools => hbody m (h.keep hsched hpools)
  have hrefused : ∀ status, k.Tells (.ok (k.refuseAtOnce status)) :=
    fun _ => tells_nothing rfl (.refl _) rfl
  cases request with
  | threadCreate entry stackSize priority =>
    rw [call]
    split
    · exact hrefused _
    · exact hbody fun _ _ => tells_allocateBlocking _ _ _ _
  | sleep timeout =>
    rw [call]
    split
    · exact hrefused _
    · exact hbody fun _ _ => tells_sleep _ _
  | threadActivate id => exact hbody fun _ _ => tells_activate _ id
  | threadTerminate id => exact hbody fun _ h => tells_terminate h id
  | threadDelete id => exact hbody fun _ h => tells_delete h.books id
  | mutexCreate => exact hbody fun _ h => tells_mutexCreate h.sched
  | mutexDelete mutex => exact hbody fun _ _ => tells_mutexDelete _ mutex
  | mutexAcquire mutex timeout => exact hbody fun _ _ => tells_acquire _ mutex timeout
  | mutexRelease mutex => exact hbody fun _ _ => tells_release _ mutex
  | poolCreate base size => exact hbody fun _ h => tells_poolCreate h.books base size
  | poolDelete pool => exact hbody fun _ h => tells_poolDelete h.books pool
  | allocate pool size => exact hbody fun _ _ => tells_allocate _ pool size
  | allocateBlocking pool size => exact hbody fun _ _ => tells_allocateBlocking _ _ _ _
  | free pool address => exact hbody fun _ h => tells_free h.books pool address
  | bufferAcquire => exact hbody fun _ _ => tells_allocateBlocking _ _ _ _
  | bufferRelease address => exact hbody fun _ h => tells_free h.books _ address
  | tick =>
    exact (tells_inSection fun _ _ _ => tells_reply _ _).after (told_raise k .tick)
  | ioComplete id result =>
    exact (tells_inSection fun _ _ _ => tells_reply _ _).after
      (told_raise k (.ioComplete id result))
  | poll => exact hbody fun _ _ => tells_reply _ _
  | awaitIo issue => exact hbody fun _ _ => tells_awaitIo _ issue
  | shutdown => exact hbody fun _ _ => tells_shutdown _

theorem tells_advance (k : Kernel ε) : k.Tells k.advance := by
  have hdrifts : ∀ activity : Activity ε, k.Tells (.ok { k with activity }) :=
    fun _ => tells_nothing rfl (.refl _) rfl
  rw [advance]
  split
  · exact (told_refl k).tells
  · exact hdrifts .program
  · split
    · exact (told_refl k).tells
    · exact hdrifts _
  · next pending _ =>
    cases pending with
    | reply answer => exact tells_reply k answer
    | acquire mutex me => exact tells_finishAcquire k mutex me
    | allocate pool size purpose => exact tells_allocateBlocking k pool size purpose
    | awaitIo me => exact tells_orRefuse fun _ _ => tells_reply k _
  · exact tells_deliver k _

theorem tells_bypass (k : Kernel ε) : k.Tells (k.perform .bypass) := by
  rw [perform]
  cases k.answering with
  | none => exact (told_refl k).tells
  | some answer => exact tells_nothing rfl (.refl _) rfl

/-- What a thread gave up was reported, and it has lost the processor, but no event says so. -/
structure TakenOver (k k' : Kernel ε) (events : List Event) : Prop
    extends Accounts k k' events where
  unsaid : switches events = []
  passed : k'.sched.current ≠ k.sched.current

/-- When a program ends, another thread gets the processor, and that is not reported. -/
theorem Runs.takenOver (h : k.Runs W me t) (hinside : k.gate.inside = false)
    (hrun : k.exit = .ok k') : ∃ events, TakenOver k k' events := by
  have halive : t.state ≠ .dead := by simp [h.running]
  obtain ⟨report, s', heq, horderly, -, hburied, -⟩ :=
    h.settled.sched.terminate h.settled.emptyHanded h.record halive h.current h.record
  obtain ⟨-, hgives, hheirs⟩ :=
    h.settled.sched.owners_terminate h.settled.emptyHanded h.current h.record heq
  obtain ⟨switch, picked, there, hpick, -, rfl⟩ := h.exit_eq_ok hinside heq hrun
  let events := handoffEvents report.handoffs ++ [.threadTerminate me]
  let ended := k.parted me s' events
  have hlent : (k.ledger.replay events).lent = k.pools.lent := by
    rw [Ledger.replay_append]
    exact Ledger.lent_replay_handoffs k.ledger report.handoffs
  have haccounts : Accounts k ended events :=
    accounts_parted hgives (Ledger.givesUp_exit k.ledger hgives.only hheirs) hlent
  obtain ⟨-, htarget, howners⟩ := Scheduler.pickNext_eq_ok hpick
  obtain ⟨next, u, hu, hready, rfl, -⟩ := horderly.pickNext_eq_ok hpick
  -- Whoever is picked was ready, and the thread whose program has ended is dead.
  have hne : some next ≠ k.sched.current := by
    rw [h.current]
    rintro ⟨⟩
    obtain rfl := Option.some.inj (hburied.symm.trans hu)
    cases hready
  have hlast : Accounts ended (({ ended with sched := picked } : Kernel ε).resume there) [] := by
    refine ⟨by simp [reported], ?_⟩
    rw [ledger, sched_resume, pools_resume]
    exact congrArg (Ledger.mk · _) howners
  have hcurrent : (({ ended with sched := picked } : Kernel ε).resume there).sched.current =
      some next := by
    rw [sched_resume]
    exact htarget
  refine ⟨events, List.append_nil events ▸ haccounts.trans hlast, ?_, hcurrent ▸ hne⟩
  rw [Trace.switches_append, switches_handoffEvents]
  rfl

/-- The main thread runs on after a shutdown, and its program does not end. -/
theorem Halted.not_allows_exit (h : k.Halted) : k.allows .exit = false := by
  obtain ⟨s, _, -, hcurrent, -, -, -, hsched⟩ := h.frozen
  have hsame : k.sched.current = some k.main := by
    rw [hsched, (Scheduler.steady_foldl_forgetPosition s _).current, hcurrent]
  simp [allows, hsame]

theorem Sound.takenOver (h : k.Sound W) (hallowed : k.allows .exit = true)
    (hrun : k.exit = .ok k') : ∃ events, TakenOver k k' events := by
  rcases h.calling (inProgram_iff.mp (Bool.and_eq_true_iff.mp hallowed).1) with
    hhalted | ⟨me, t, hcalling⟩
  · rw [hhalted.not_allows_exit] at hallowed
    cases hallowed
  · exact hcalling.toRuns.takenOver hcalling.outside hrun

/-- All other moves tell of everything. -/
theorem Sound.told {move : Move ε} (h : k.Sound W) (hmove : move ≠ .exit)
    (hrun : k.perform move = .ok k') : ∃ events, Told k k' events := by
  cases move with
  | call request => exact tells_call h.wellKept request k' hrun
  | exit => exact absurd rfl hmove
  | raise interrupt =>
    obtain rfl := Except.ok.inj hrun
    exact ⟨[], told_raise k interrupt⟩
  | advance => exact tells_advance k k' hrun
  | bypass => exact tells_bypass k k' hrun

theorem Sound.accounts {move : Move ε} (h : k.Sound W) (hallowed : k.allows move = true)
    (hrun : k.perform move = .ok k') : ∃ events, Accounts k k' events := by
  by_cases hmove : move = .exit
  · subst hmove
    obtain ⟨events, htaken⟩ := h.takenOver hallowed hrun
    exact ⟨events, htaken.toAccounts⟩
  · obtain ⟨events, htold⟩ := h.told hmove hrun
    exact ⟨events, htold.toAccounts⟩

end CoopKernel.Kernel
