import CoopKernel.Proofs.Kernel.Runs

/-!
# What a scheduler looks like between two moves

The scheduler of a kernel keeps the same facts in several places: a thread's state is also where it
is queued, and the ownership of a mutex is written down with the mutex, with its owner and with
those who wait. Between two moves of any run the copies agree.

* `Scheduler.QueuesAgree`: states and queues (`Reachable.queuesAgree`);
* `Scheduler.MutexesAgree`: mutexes, owners and waiters (`Reachable.mutexesAgree`);
* `Scheduler.Prioritized`: nobody waits for the processor while a thread of lower priority has it
  (`Reachable.prioritized`).

All three hold after a shutdown too, when threads have merely lost their positions.
-/

namespace CoopKernel

variable {κ ε : Type}

namespace Scheduler

variable {s s' : Scheduler (Position ε)} {main idle id : ThreadId}

/-! ## What is common to running and halted kernels -/

/-- The scheduler is orderly, nobody dead holds anything, the threads that are always needed are
there, and the thread that runs is not outranked. -/
structure Upright (s : Scheduler (Position ε)) (main idle : ThreadId) : Prop where
  orderly : s.Orderly
  emptyHanded : s.EmptyHanded
  roles : s.Roles main idle
  busy : ∃ me t, s.current = some me ∧ s.threads.get? me = some t ∧ t.state = .running ∧
    s.Unrivalled t.priority

/-- Forgetting a position leaves everything else in a record. -/
theorem get?_forgetPosition (s : Scheduler (Position ε)) (id other : ThreadId) :
    (s.forgetPosition id).threads.get? other =
      (s.threads.get? other).map fun t =>
        if other = id then { t with position := none } else t := by
  rw [Scheduler.forgetPosition, get?_update]
  split
  · next heq =>
    subst heq
    simp
  · simp

theorem Upright.forgetPosition (h : s.Upright main idle) (id : ThreadId) :
    (s.forgetPosition id).Upright main idle := by
  cases ht : s.threads.get? id with
  | none =>
    have hsame : s.threads.modify id (fun t => { t with position := none }) = s.threads :=
      Registry.modify_eq_self h.orderly.threads (by simp [ht])
    rw [Scheduler.forgetPosition, update, hsame]
    exact h
  | some t =>
    -- Both ways between the records before and after: none but the position has changed.
    have hget := get?_forgetPosition s id
    have htidy := h.orderly.tidy ht
    have horderly : (s.forgetPosition id).Orderly :=
      h.orderly.update ht ⟨htidy.waiting_iff, htidy.countdown, htidy.wanted_iff, htidy.held⟩
        rfl rfl rfl rfl rfl
    have hforth : ∀ {j u}, s.threads.get? j = some u →
        ∃ u', (s.forgetPosition id).threads.get? j = some u' ∧ u'.state = u.state ∧
          u'.priority = u.priority := by
      intro j u hu
      rw [hget, hu]
      exact ⟨_, rfl, by split <;> rfl, by split <;> rfl⟩
    have hback : ∀ {j u'}, (s.forgetPosition id).threads.get? j = some u' →
        ∃ u, s.threads.get? j = some u ∧ u'.state = u.state ∧ u'.priority = u.priority ∧
          u'.held = u.held := by
      intro j u' hu'
      rw [hget] at hu'
      obtain ⟨u, hu, rfl⟩ := Option.map_eq_some_iff.mp hu'
      exact ⟨u, hu, by split <;> rfl, by split <;> rfl, by split <;> rfl⟩
    refine ⟨horderly, ?_, ⟨h.roles.apart, ?_, ?_, ?_⟩, ?_⟩
    · intro j u' hu' hdead
      obtain ⟨u, hu, hstate, -, hheld⟩ := hback hu'
      rw [hheld]
      exact h.emptyHanded hu (hstate ▸ hdead)
    · obtain ⟨u, hu, halive⟩ := h.roles.alive
      obtain ⟨u', hu', hstate, -⟩ := hforth hu
      exact ⟨u', hu', hstate ▸ halive⟩
    · obtain ⟨u, hu, hlevel, hable⟩ := h.roles.spare
      obtain ⟨u', hu', hstate, hpriority⟩ := hforth hu
      exact ⟨u', hu', hpriority.trans hlevel, by rw [hstate]; exact hable⟩
    · intro j u' hu' hne
      obtain ⟨u, hu, -, hpriority, -⟩ := hback hu'
      rw [hpriority]
      exact h.roles.others hu hne
    · obtain ⟨me, v, hcurrent, hv, hrunning, hrank⟩ := h.busy
      obtain ⟨v', hv', hstate, hpriority⟩ := hforth hv
      refine ⟨me, v', hcurrent, hv', hstate.trans hrunning, ?_⟩
      intro j u' hu' hready
      obtain ⟨u, hu, hstateU, hpriorityU, -⟩ := hback hu'
      rw [hpriority, hpriorityU]
      exact hrank hu (hstateU ▸ hready)

theorem Upright.foldl_forgetPosition (h : s.Upright main idle) (ids : List ThreadId) :
    (ids.foldl Scheduler.forgetPosition s).Upright main idle := by
  induction ids generalizing s with
  | nil => exact h
  | cons id rest ih => exact ih (h.forgetPosition id)

end Scheduler

theorem Kernel.Sound.upright {W : PoolId → Prop} {k : Kernel ε} (h : k.Sound W) :
    k.sched.Upright k.main k.idle := by
  rcases h with hhalted | ⟨me, t, hruns, hrank, -⟩
  · obtain ⟨s, t, hsettled, hcurrent, ht, hrunning, hrank, hsched⟩ := hhalted.frozen
    have hupright : s.Upright k.main k.idle :=
      ⟨hsettled.sched, hsettled.emptyHanded, hsettled.roles, k.main, t, hcurrent, ht, hrunning,
        hrank⟩
    rw [hsched]
    exact hupright.foldl_forgetPosition _
  · exact ⟨hruns.settled.sched, hruns.settled.emptyHanded, hruns.settled.roles, me, t,
      hruns.current, hruns.record, hruns.running, hrank⟩

/-! ## States and queues -/

/-- The threads in the ready queues, level by level. -/
def Scheduler.readyIds (s : Scheduler κ) : List ThreadId :=
  Priority.ascending.flatMap s.ready.level

/-- The threads in the wait queues, reason by reason. -/
def Scheduler.waitingIds (s : Scheduler κ) : List ThreadId := WaitReason.all.flatMap s.waiting.get

/-- The state of each thread is also where it is queued. -/
structure Scheduler.QueuesAgree (s : Scheduler κ) (idle : ThreadId) : Prop where
  /-- Exactly one thread runs, and it is the current one. -/
  running : ∃ me, s.current = some me ∧
    ∀ id, (∃ t, s.threads.get? id = some t ∧ t.state = .running) ↔ id = me
  /-- A thread is ready if it is queued for the processor once, at its own level. -/
  ready_iff : ∀ id t, s.threads.get? id = some t →
    (t.state = .ready ↔ s.readyIds.count id = 1 ∧ id ∈ s.ready.level t.priority)
  /-- A thread is waiting if it waits for something. -/
  waiting_iff : ∀ id t, s.threads.get? id = some t → (t.state = .waiting ↔ t.waitingFor.isSome)
  /-- A thread that waits for something is in one wait queue, once. -/
  waiting : ∀ id t reason, s.threads.get? id = some t → t.waitingFor = some reason →
    s.waitingIds.count id = 1 ∧ id ∈ s.waiting.get reason
  /-- A thread that runs or is dead is in no queue and waits for nothing. -/
  unqueued : ∀ id t, s.threads.get? id = some t → t.state = .running ∨ t.state = .dead →
    id ∉ s.readyIds ∧ id ∉ s.waitingIds ∧ t.waitingFor = none ∧ t.countdown = .none
  /-- Whoever is queued is registered. -/
  registered : ∀ id, id ∈ s.readyIds ∨ id ∈ s.waitingIds → ∃ t, s.threads.get? id = some t
  /-- The idle thread is ready or runs. -/
  spare : ∃ t, s.threads.get? idle = some t ∧ (t.state = .ready ∨ t.state = .running)

namespace Scheduler

variable {s : Scheduler κ} {id : ThreadId} {t : Thread κ}

theorem mem_ascending (p : Priority) : p ∈ Priority.ascending := by
  cases p <;> simp [Priority.ascending]

theorem mem_all (reason : WaitReason) : reason ∈ WaitReason.all := by
  cases reason <;> simp [WaitReason.all]

theorem Orderly.mem_readyIds (h : s.Orderly) :
    id ∈ s.readyIds ↔ ∃ t, s.threads.get? id = some t ∧ t.state = .ready := by
  simp only [readyIds, List.mem_flatMap, mem_ascending, true_and, h.queued.mem_ready, place,
    Option.bind_eq_some_iff, Thread.place_eq_ready_iff]
  constructor
  · rintro ⟨p, t, ht, hstate, -⟩
    exact ⟨t, ht, hstate⟩
  · rintro ⟨t, ht, hstate⟩
    exact ⟨t.priority, t, ht, hstate, rfl⟩

theorem Orderly.mem_waitingIds (h : s.Orderly) :
    id ∈ s.waitingIds ↔ ∃ t, s.threads.get? id = some t ∧ t.state = .waiting := by
  simp only [waitingIds, List.mem_flatMap, mem_all, true_and, h.queued.mem_waiting, place,
    Option.bind_eq_some_iff, Thread.place_eq_waiting_iff]
  constructor
  · rintro ⟨reason, t, ht, hstate, -⟩
    exact ⟨t, ht, hstate⟩
  · rintro ⟨t, ht, hstate⟩
    obtain ⟨reason, hreason⟩ := Option.isSome_iff_exists.mp ((h.tidy ht).waiting_iff.mp hstate)
    exact ⟨reason, t, ht, hstate, hreason⟩

/-- Different levels have nobody in common. -/
theorem Orderly.nodup_readyIds (h : s.Orderly) : s.readyIds.Nodup := by
  refine List.nodup_flatMap.mpr ⟨fun p _ => h.queued.nodup_ready p, ?_⟩
  have hdistinct : Priority.ascending.Nodup := by decide
  refine hdistinct.imp ?_
  intro p q hne id hp hq
  rw [h.queued.mem_ready] at hp hq
  rw [hp, Option.some.injEq, Place.ready.injEq] at hq
  exact hne hq

theorem Orderly.nodup_waitingIds (h : s.Orderly) : s.waitingIds.Nodup := by
  refine List.nodup_flatMap.mpr ⟨fun reason _ => h.queued.nodup_waiting reason, ?_⟩
  have hdistinct : WaitReason.all.Nodup := by decide
  refine hdistinct.imp ?_
  intro reason other hne id hfirst hsecond
  rw [h.queued.mem_waiting] at hfirst hsecond
  rw [hfirst, Option.some.injEq, Place.waiting.injEq] at hsecond
  exact hne hsecond

end Scheduler

/-- A run that ends with the main thread owning a mutex for which a thread of high priority waits,
while a thread of low priority is ready. -/
def Kernel.contention : List (Move Unit) :=
  answered .mutexCreate ++ answered (.mutexAcquire ⟨1⟩ .infinite) ++
    answered (.threadCreate () 4096 .high) ++
    [.call (.threadActivate ⟨3⟩), .advance, .advance, .call (.mutexAcquire ⟨1⟩ (.ticks 2))] ++
    [.advance, .advance, .advance] ++
    answered (.threadCreate () 4096 .low) ++ answered (.threadActivate ⟨4⟩)

/-- In every kernel that a run leads to, states and queues agree. -/
theorem Kernel.Reachable.queuesAgree {k : Kernel ε} (h : k.Reachable) :
    k.sched.QueuesAgree k.idle := by
  have hupright := h.sound.upright
  have horderly := hupright.orderly
  obtain ⟨me, t, hcurrent, ht, hrunning, -⟩ := hupright.busy
  -- Each list is a flattened family of queues, so membership is about the place of a thread.
  refine ⟨⟨me, hcurrent, ?_⟩, ?_, ?_, ?_, ?_, ?_, ?_⟩
  · intro id
    constructor
    · rintro ⟨u, hu, hstate⟩
      have hid := horderly.running hu hstate
      rw [hcurrent, Option.some.injEq] at hid
      exact hid.symm
    · rintro rfl
      exact ⟨t, ht, hrunning⟩
  · intro id u hu
    have hlevel := horderly.queued.mem_ready id u.priority
    rw [Scheduler.place_eq hu, Thread.place_eq_ready_iff] at hlevel
    constructor
    · intro hready
      exact ⟨List.count_eq_one_of_mem horderly.nodup_readyIds
        (horderly.mem_readyIds.mpr ⟨u, hu, hready⟩), hlevel.mpr ⟨hready, rfl⟩⟩
    · rintro ⟨-, hmem⟩
      exact (hlevel.mp hmem).1
  · intro id u hu
    exact (horderly.tidy hu).waiting_iff
  · intro id u reason hu hreason
    have htidy := horderly.tidy hu
    have hwaiting : u.state = .waiting := htidy.waiting_iff.mpr (by simp [hreason])
    refine ⟨List.count_eq_one_of_mem horderly.nodup_waitingIds
      (horderly.mem_waitingIds.mpr ⟨u, hu, hwaiting⟩), ?_⟩
    rw [horderly.queued.mem_waiting, Scheduler.place_eq hu, htidy.place_waiting hreason]
  · intro id u hu hstate
    have htidy := horderly.tidy hu
    have hnotReady : u.state ≠ .ready := by rcases hstate with hstate | hstate <;> simp [hstate]
    have hnotWaiting : u.state ≠ .waiting := by rcases hstate with hstate | hstate <;> simp [hstate]
    have hwaitingFor := htidy.waitingFor_eq_none hnotWaiting
    rw [horderly.mem_readyIds, horderly.mem_waitingIds]
    refine ⟨?_, ?_, hwaitingFor, htidy.countdown hwaitingFor⟩
    · rintro ⟨v, hv, hready⟩
      exact hnotReady (Option.some.inj (hu.symm.trans hv) ▸ hready)
    · rintro ⟨v, hv, hwaiting⟩
      exact hnotWaiting (Option.some.inj (hu.symm.trans hv) ▸ hwaiting)
  · intro id hqueued
    rw [horderly.mem_readyIds, horderly.mem_waitingIds] at hqueued
    rcases hqueued with ⟨u, hu, -⟩ | ⟨u, hu, -⟩
    · exact ⟨u, hu⟩
    · exact ⟨u, hu⟩
  · obtain ⟨u, hu, -, hable⟩ := hupright.roles.spare
    exact ⟨u, hu, hable⟩

theorem Kernel.Reachable.queuesAgree_contention :
    ∃ k : Kernel Unit, afterRun {} {} contention = some k ∧ k.sched.current = some ⟨1⟩ ∧
      k.sched.readyIds = [⟨2⟩, ⟨4⟩] ∧ k.sched.waitingIds = [⟨3⟩] ∧ k.Reachable ∧
      k.sched.QueuesAgree k.idle := by
  have hrun : (afterRun {} {} contention).map (fun k : Kernel Unit =>
      (k.sched.current, k.sched.readyIds, k.sched.waitingIds)) =
        some (some ⟨1⟩, [⟨2⟩, ⟨4⟩], [⟨3⟩]) := by decide +kernel
  obtain ⟨k, hk, hfacts⟩ := Option.map_eq_some_iff.mp hrun
  obtain ⟨hcurrent, hready, hwaiting⟩ : _ ∧ _ ∧ _ := by simpa only [Prod.mk.injEq] using hfacts
  have hreachable := reachable_of_afterRun hk
  exact ⟨k, hk, hcurrent, hready, hwaiting, hreachable, hreachable.queuesAgree⟩

/-! ## Mutexes, owners and waiters -/

/-- The threads in the queue of a mutex, level by level. -/
def Mutex.waiterIds (mutex : Mutex) : List ThreadId :=
  Priority.ascending.flatMap mutex.waiters.level

/-- What is written down with a mutex is also written down with its owner and with those who wait
for it. -/
structure Scheduler.MutexesAgree (s : Scheduler κ) : Prop where
  /-- The owner of a mutex is the thread that holds it. -/
  owner_iff : ∀ m id, (∃ x, s.mutexes.get? m = some x ∧ x.owner = some id) ↔
    ∃ t, s.threads.get? id = some t ∧ m ∈ t.held
  /-- The dead hold and want nothing. -/
  dead : ∀ id t, s.threads.get? id = some t → t.state = .dead → t.held = [] ∧ t.wanted = none
  /-- The threads in the queue of a mutex are those that wait for it. -/
  waiter_iff : ∀ m id, (∃ x, s.mutexes.get? m = some x ∧ id ∈ x.waiterIds) ↔
    ∃ t, s.threads.get? id = some t ∧ t.state = .waiting ∧ t.waitingFor = some .mutex ∧
      t.wanted = some m
  /-- They are in the queue once, at their own level, and somebody else owns the mutex. -/
  waiter : ∀ m x id, s.mutexes.get? m = some x → id ∈ x.waiterIds →
    x.waiterIds.count id = 1 ∧
      (∃ t, s.threads.get? id = some t ∧ id ∈ x.waiters.level t.priority) ∧
      ∃ owner, x.owner = some owner ∧ owner ≠ id
  /-- Who is ready or runs wants nothing. -/
  wanted : ∀ id t, s.threads.get? id = some t → t.state = .ready ∨ t.state = .running →
    t.wanted = none
  /-- Nobody waits for a mutex that is not locked. -/
  unlocked : ∀ m x, s.mutexes.get? m = some x → x.owner = none → x.waiterIds = []
  /-- Nobody wants a mutex that has been removed. -/
  removed : ∀ m s', s.deleteMutex m = .ok s' → ∀ id t, s'.threads.get? id = some t →
    t.wanted ≠ some m
  /-- A tick finds nobody that owns the mutex it waits for. -/
  turn : ∀ id t, s.MutexTurn id t → t.ownsWanted = false

namespace Scheduler

variable {s : Scheduler κ} {id : ThreadId} {t : Thread κ} {m : MutexId} {x : Mutex}

theorem Orderly.mem_waiterIds (h : s.Orderly) (hx : s.mutexes.get? m = some x) :
    id ∈ x.waiterIds ↔ ∃ t, s.threads.get? id = some t ∧ t.wanted = some m := by
  simp only [Mutex.waiterIds, List.mem_flatMap, mem_ascending, true_and, h.owned.mem_waiters hx]
  constructor
  · rintro ⟨p, t, ht, hwanted, -⟩
    exact ⟨t, ht, hwanted⟩
  · rintro ⟨t, ht, hwanted⟩
    exact ⟨t.priority, t, ht, hwanted, rfl⟩

theorem Orderly.nodup_waiterIds (h : s.Orderly) (hx : s.mutexes.get? m = some x) :
    x.waiterIds.Nodup := by
  refine List.nodup_flatMap.mpr ⟨fun p _ => h.owned.nodup_waiters hx p, ?_⟩
  have hdistinct : Priority.ascending.Nodup := by decide
  refine hdistinct.imp ?_
  intro p q hne id hp hq
  rw [h.owned.mem_waiters hx] at hp hq
  obtain ⟨t, ht, -, rfl⟩ := hp
  obtain ⟨u, hu, -, rfl⟩ := hq
  exact hne (congrArg (·.priority) (Option.some.inj (ht.symm.trans hu)))

end Scheduler

/-- In every kernel that a run leads to, mutexes, owners and waiters agree. -/
theorem Kernel.Reachable.mutexesAgree {k : Kernel ε} (h : k.Reachable) :
    k.sched.MutexesAgree := by
  have hupright := h.sound.upright
  have horderly := hupright.orderly
  have hmem : ∀ {m x id}, k.sched.mutexes.get? m = some x →
      (id ∈ x.waiterIds ↔ ∃ t, k.sched.threads.get? id = some t ∧ t.wanted = some m) :=
    fun hx => horderly.mem_waiterIds hx
  refine ⟨horderly.owned.owner_iff, ?_, ?_, ?_, ?_, ?_, ?_,
    fun id t => horderly.not_ownsWanted_of_turn⟩
  · intro id t ht hdead
    exact ⟨hupright.emptyHanded ht hdead, (horderly.tidy ht).wanted_eq_none (by simp [hdead])⟩
  · intro m id
    constructor
    · rintro ⟨x, hx, hqueued⟩
      obtain ⟨t, ht, hwanted⟩ := (hmem hx).mp hqueued
      obtain ⟨hwaiting, hreason⟩ := (horderly.tidy ht).waiting_of_wanted hwanted
      exact ⟨t, ht, hwaiting, hreason, hwanted⟩
    · rintro ⟨t, ht, -, -, hwanted⟩
      obtain ⟨x, -, hx, -, -⟩ := horderly.owned.wanted_owned ht hwanted
      exact ⟨x, hx, (hmem hx).mpr ⟨t, ht, hwanted⟩⟩
  · intro m x id hx hqueued
    obtain ⟨t, ht, hwanted⟩ := (hmem hx).mp hqueued
    exact ⟨List.count_eq_one_of_mem (horderly.nodup_waiterIds hx) hqueued,
      ⟨t, ht, (horderly.owned.mem_waiters hx id t.priority).mpr ⟨t, ht, hwanted, rfl⟩⟩,
      horderly.owned.owned_of_wanted hx ht hwanted⟩
  · intro id t ht hstate
    apply (horderly.tidy ht).wanted_eq_none
    rcases hstate with hready | hrunning
    · simp [hready]
    · simp [hrunning]
  · intro m x hx hfree
    rw [List.eq_nil_iff_forall_not_mem]
    intro id hqueued
    obtain ⟨t, ht, hwanted⟩ := (hmem hx).mp hqueued
    exact horderly.owned.not_wanted hx hfree ht hwanted
  · intro m s' hdelete id t ht hwanted
    obtain ⟨x, hx, hfree, rfl⟩ := Scheduler.deleteMutex_eq_ok hdelete
    exact horderly.owned.not_wanted hx hfree ht hwanted

theorem Kernel.Reachable.mutexesAgree_contention :
    ∃ k : Kernel Unit, afterRun {} {} contention = some k ∧
      k.sched.mutexes.entries =
        [(⟨1⟩, { owner := some ⟨1⟩, waiters := { high := [⟨3⟩] } })] ∧
      k.Reachable ∧ k.sched.MutexesAgree := by
  have hrun : (afterRun {} {} contention).map (fun k : Kernel Unit => k.sched.mutexes.entries) =
      some [(⟨1⟩, { owner := some ⟨1⟩, waiters := { high := [⟨3⟩] } })] := by decide +kernel
  obtain ⟨k, hk, hmutexes⟩ := Option.map_eq_some_iff.mp hrun
  have hreachable := reachable_of_afterRun hk
  exact ⟨k, hk, hmutexes, hreachable, hreachable.mutexesAgree⟩

/-! ## Priorities -/

/-- Nobody waits for the processor while a thread of lower priority has it. -/
structure Scheduler.Prioritized (s : Scheduler κ) (idle : ThreadId) : Prop where
  /-- The running thread is not outranked by any ready one. -/
  top : ∃ me t, s.current = some me ∧ s.threads.get? me = some t ∧ t.state = .running ∧
    ∀ id u, s.threads.get? id = some u → u.state = .ready → ¬ t.priority < u.priority
  /-- The idle thread runs only when nobody else is ready. -/
  lull : s.current = some idle → ∀ id u, s.threads.get? id = some u → u.state ≠ .ready

/-- In every kernel that a run leads to, no ready thread outranks the running one. -/
theorem Kernel.Reachable.prioritized {k : Kernel ε} (h : k.Reachable) :
    k.sched.Prioritized k.idle := by
  have hupright := h.sound.upright
  obtain ⟨me, t, hcurrent, ht, hrunning, hrank⟩ := hupright.busy
  refine ⟨⟨me, t, hcurrent, ht, hrunning, fun id u hu hready => ?_⟩, ?_⟩
  · exact Priority.not_lt.mpr (hrank hu hready)
  · intro hidle id u hu hready
    -- A ready thread would be at the level of the idle thread, where nobody else is.
    obtain rfl : me = k.idle := Option.some.inj (hcurrent.symm.trans hidle)
    obtain ⟨v, hv, hlevel, -⟩ := hupright.roles.spare
    obtain rfl : t = v := Option.some.inj (ht.symm.trans hv)
    have hne : id ≠ k.idle := by
      rintro rfl
      obtain rfl : t = u := Option.some.inj (ht.symm.trans hu)
      rw [hrunning] at hready
      simp at hready
    have hle : u.priority ≤ .idle := hlevel ▸ hrank hu hready
    exact hupright.roles.others hu hne (Priority.le_idle_iff.mp hle)

theorem Kernel.Reachable.prioritized_contention :
    ∃ k : Kernel Unit, afterRun {} {} contention = some k ∧ k.sched.current = some ⟨1⟩ ∧
      k.sched.ready = { idle := [⟨2⟩], low := [⟨4⟩] } ∧ k.Reachable ∧
      k.sched.Prioritized k.idle := by
  have hrun : (afterRun {} {} contention).map (fun k : Kernel Unit =>
      (k.sched.current, k.sched.ready)) =
        some (some ⟨1⟩, { idle := [⟨2⟩], low := [⟨4⟩] }) := by decide +kernel
  obtain ⟨k, hk, hfacts⟩ := Option.map_eq_some_iff.mp hrun
  obtain ⟨hcurrent, hready⟩ : _ ∧ _ := by simpa only [Prod.mk.injEq] using hfacts
  have hreachable := reachable_of_afterRun hk
  exact ⟨k, hk, hcurrent, hready, hreachable, hreachable.prioritized⟩

end CoopKernel
