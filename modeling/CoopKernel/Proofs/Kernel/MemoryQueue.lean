import CoopKernel.Proofs.Kernel.Consistency
import CoopKernel.Proofs.Kernel.Moved

/-!
# Who waits for memory

That a thread waits for memory is written down twice: its record says so, and it stands in the queue
of the pools. Every way to begin or end a wait has to change both. In every kernel that a run leads
to they agree (`Reachable.memoryAgrees`): a thread stands in the queue with a pool if it waits for
memory, and the pool is the one that it last began to wait for; it stands there once, at its own
level; the pool exists; and a thread that is taken off the queue because memory was released is
waiting for it at that moment.

For which pool a thread began to wait is seen in what the kernel has reported
(`Kernel.lastAwaited`), so that it can be said after a shutdown too, when threads have lost their
positions.
-/

namespace CoopKernel

variable {ε : Type}

/-- The pool for whose memory a thread waits according to an event. -/
def Trace.Event.awaits (event : Trace.Event) (id : ThreadId) : Option PoolId :=
  match event with
  | .wait pool thread => if thread = id then some pool else none
  | _ => none

theorem Trace.Event.awaits_eq_some {event : Trace.Event} {id : ThreadId} {pool : PoolId} :
    event.awaits id = some pool ↔ event = .wait pool id := by
  cases event with
  | wait other thread =>
    show (if thread = id then some other else none) = some pool ↔ _
    split <;> simp_all
  | _ => simp [awaits]

/-- A record without its position. -/
def Thread.unplaced (t : Thread (Position ε)) : Thread (Position ε) := { t with position := none }

namespace Kernel

variable {W : PoolId → Prop} {k k' : Kernel ε} {move : Move ε} {moves : List (Move ε)}
  {events : List Trace.Event} {me id : ThreadId} {pool : PoolId} {p : Priority}

/-! ## What a thread last waited for -/

/-- The pool for whose memory a thread last began to wait. -/
def lastAwaited (k : Kernel ε) (id : ThreadId) : Option PoolId :=
  k.journal.reverse.findSome? fun stamped => stamped.event.awaits id

/-- What was reported last decides. -/
theorem Reports.lastAwaited (h : k.Reports k' events) (id : ThreadId) :
    k'.lastAwaited id = (events.reverse.findSome? (·.awaits id)).or (k.lastAwaited id) := by
  obtain ⟨tail, htail, hjournal⟩ := h
  have hsilent : tail.reverse.findSome? (·.awaits id) = Option.none := by
    rw [List.findSome?_eq_none_iff]
    intro event hmem
    have hdispatch := htail event (List.mem_reverse.mp hmem)
    cases event <;> first | rfl | cases hdispatch
  rw [Kernel.lastAwaited, hjournal, List.reverse_append, List.findSome?_append,
    ← List.map_reverse, List.findSome?_map, List.reverse_append, List.findSome?_append]
  show ((tail.reverse.findSome? (·.awaits id)).or _).or _ = _
  rw [hsilent, Option.none_or]
  rfl

theorem findSome?_awaits_eq_none (h : ∀ pool, .wait pool id ∉ events) :
    events.reverse.findSome? (·.awaits id) = none := by
  rw [List.findSome?_eq_none_iff]
  intro event hmem
  rw [Option.eq_none_iff_forall_ne_some]
  intro pool hawaits
  exact h pool (Trace.Event.awaits_eq_some.mp hawaits ▸ List.mem_reverse.mp hmem)

theorem findSome?_awaits_eq_some (hmem : .wait pool id ∈ events)
    (honly : ∀ other, .wait other id ∈ events → other = pool) :
    events.reverse.findSome? (·.awaits id) = some pool := by
  cases hfound : events.reverse.findSome? (·.awaits id) with
  | none =>
    have hnone := List.findSome?_eq_none_iff.mp hfound _ (List.mem_reverse.mpr hmem)
    rw [Trace.Event.awaits_eq_some.mpr rfl] at hnone
    cases hnone
  | some other =>
    obtain ⟨event, hin, hawaits⟩ := List.exists_of_findSome?_eq_some hfound
    obtain rfl := Trace.Event.awaits_eq_some.mp hawaits
    rw [honly other (List.mem_reverse.mp hin)]

/-! ## One move -/

/-- Threads stand in the memory queue with the pool that they last began to wait for. -/
def Mindful (k : Kernel ε) : Prop :=
  ∀ id pool p, (id, pool) ∈ k.pools.waiters.level p → k.lastAwaited id = some pool

/-- As long as it is not shut down, a sound kernel is settled. -/
theorem Sound.settled (h : k.Sound W) (hgoing : k.stopped = false) :
    ∃ W', Settled W' k.sched k.pools k.main k.idle := by
  rcases h with hhalted | ⟨me, t, hruns, -, -⟩
  · rw [hhalted.stopped] at hgoing
    cases hgoing
  · exact ⟨_, hruns.settled⟩

/-- A thread in the memory queue waits for memory, and will try the pool again. -/
theorem Settled.exists_of_mem {W : PoolId → Prop} {s : Scheduler (Position ε)}
    {pools : Memory.Pools} {main idle : ThreadId} (h : Settled W s pools main idle)
    (hmem : (id, pool) ∈ pools.waiters.level p) :
    ∃ t size purpose, s.threads.get? id = some t ∧ t.state = .waiting ∧
      t.waitingFor = some .memory ∧ t.priority = p ∧
        t.position = some (.inside (.allocate pool size purpose)) := by
  obtain ⟨t, ht, hwait⟩ := Option.bind_eq_some_iff.mp ((h.waiting.mem_level ..).mp hmem)
  obtain ⟨hreason, hpriority, pending, hposition, hretries⟩ := Thread.memoryWait_eq_some hwait
  have hstate := (h.sched.tidy ht).waiting_iff.mpr (by simp [hreason])
  cases pending with
  | allocate other size purpose =>
    obtain rfl := hretries
    exact ⟨t, size, purpose, ht, hstate, hreason, hpriority, hposition⟩
  | _ => cases hretries

/-- A thread that waits for memory is in the queue. -/
theorem Settled.mem_of_position {W : PoolId → Prop} {s : Scheduler (Position ε)}
    {pools : Memory.Pools} {main idle : ThreadId} {t : Thread (Position ε)}
    (h : Settled W s pools main idle) (ht : s.threads.get? id = some t)
    (hreason : t.waitingFor = some .memory) {size : Nat} {purpose : Purpose ε}
    (hposition : t.position = some (.inside (.allocate pool size purpose))) :
    (id, pool) ∈ pools.waiters.level t.priority := by
  rw [h.waiting.mem_level, Scheduler.waits, ht, Option.bind_some, Thread.memoryWait, hreason,
    hposition]

/-- A turn keeps track of who waits for what. -/
theorem Turn.mindful {ticking : Bool}
    (h : Turn move ticking { k with line := k'.line } k' me events)
    (hsettled : Settled W k.sched k.pools k.main k.idle) {W' : PoolId → Prop}
    (hsettled' : Settled W' k'.sched k'.pools k'.main k'.idle) (hmindful : k.Mindful) :
    k'.Mindful := by
  intro id pool p hmem
  obtain ⟨u, size, purpose, hu, hstate, hreason, -, hposition⟩ := hsettled'.exists_of_mem hmem
  have hstanding : k'.standing id = some u := by
    rw [standing_eq, hu]
    intro v hv
    obtain rfl := Option.some.inj (hu.symm.trans hv)
    simp [hstate]
  have hlast : k'.lastAwaited id = (events.reverse.findSome? (·.awaits id)).or (k.lastAwaited id) :=
    Reports.lastAwaited h.journal id
  rw [hlast]
  by_cases hid : id = me
  · -- The running thread can only have come to wait by beginning to.
    subst hid
    obtain ⟨t, t', ht, ht', hown⟩ := h.own
    obtain rfl := Option.some.inj (hstanding.symm.trans ht')
    have hbegun : .wait pool id ∈ events := by
      cases hown with
      | starved hreported _ _ =>
        cases hposition
        exact hreported
      | slept _ hmemory _ _ _ => exact absurd (Option.some.inj hreason) hmemory
      | queued _ _ => cases hreason
      | _ => cases hstate
    refine Option.or_eq_some_iff.mpr (.inl (findSome?_awaits_eq_some hbegun fun other hother => ?_))
    obtain ⟨-, v, size', purpose', hv, -, hposition', -⟩ := h.waits hother
    obtain rfl := Option.some.inj (hstanding.symm.trans hv)
    rw [hposition] at hposition'
    cases hposition'
    rfl
  · -- Everybody else waited before, and was not reported again.
    have hbefore : k.sched.threads.get? id = some u :=
      (hstanding ▸ h.others id hid).eq_of_untimed hstate hreason rfl
    have hsilent : ∀ pool, .wait pool id ∉ events := fun pool hwait => hid (h.waits hwait).1
    rw [findSome?_awaits_eq_none hsilent, Option.none_or]
    exact hmindful _ _ _ (hsettled.mem_of_position hbefore hreason hposition)

theorem Moved.mindful (h : Moved move k k') (hsound : k.Sound W) {W' : PoolId → Prop}
    (hsound' : k'.Sound W') (hmindful : k.Mindful) : k'.Mindful := by
  -- Without a turn neither the queue nor the journal changes.
  have hsame : k'.pools = k.pools → k'.journal = k.journal → k'.Mindful := by
    intro hpools hjournal id pool p hmem
    rw [lastAwaited, hjournal]
    exact hmindful id pool p (hpools ▸ hmem)
  cases h.effect with
  | still _ hpools _ hjournal _ => exact hsame hpools hjournal
  | shutdown _ _ _ hpools hjournal _ _ _ _ => exact hsame hpools hjournal
  | turn hgoing _ hturn =>
    obtain ⟨_, hsettled⟩ := hsound.settled hgoing
    obtain ⟨_, hsettled'⟩ := hsound'.settled (hturn.stopped.trans hgoing)
    exact hturn.mindful hsettled hsettled' hmindful

theorem Sound.mindful (h : k.Sound W) (hplay : k.play moves = some k') (hmindful : k.Mindful) :
    k'.Mindful :=
  h.play_induction (P := fun _ next => next.Mindful) hplay hmindful
    fun _ hsound hallowed hperform hnext ih =>
      (hsound.moved hallowed hperform).mindful hsound hnext ih

theorem Reachable.mindful (h : k.Reachable) : k.Mindful := by
  obtain ⟨config, arena, first, moves, hstart, hplay⟩ := h
  have hsound := start_sound hstart
  obtain ⟨pools, address, systemPool, sharedPool, -, hwaiters, rfl⟩ := start_eq hstart
  refine hsound.mindful hplay fun id pool p hmem => ?_
  change (id, pool) ∈ pools.waiters.level p at hmem
  rw [hwaiters, LevelQueue.level_empty] at hmem
  cases hmem

/-! ## What agrees -/

/-- A settled kernel knows for what a thread waits that waits for memory. -/
theorem Settled.exists_mem {W : PoolId → Prop} {s : Scheduler (Position ε)} {pools : Memory.Pools}
    {main idle : ThreadId} {t : Thread (Position ε)} (h : Settled W s pools main idle)
    (ht : s.threads.get? id = some t) (hstate : t.state = .waiting)
    (hreason : t.waitingFor = some .memory) :
    ∃ pool, (id, pool) ∈ pools.waiters.level t.priority := by
  obtain ⟨pending, hposition, hawaited⟩ := (h.placed ht).awaited hstate
  cases pending with
  | allocate pool size purpose => exact ⟨pool, h.mem_of_position ht hreason hposition⟩
  | reply _ =>
    rw [show t.waitingFor = some .sleep from hawaited] at hreason
    cases hreason
  | acquire _ _ =>
    rw [hawaited.1] at hreason
    cases hreason
  | awaitIo _ =>
    rw [show t.waitingFor = some .io from hawaited] at hreason
    cases hreason

theorem unplaced_foldl_forgetPosition (s : Scheduler (Position ε)) (ids : List ThreadId)
    (id : ThreadId) :
    ((ids.foldl Scheduler.forgetPosition s).threads.get? id).map Thread.unplaced =
      (s.threads.get? id).map Thread.unplaced := by
  induction ids generalizing s with
  | nil => rfl
  | cons other rest ih =>
    rw [List.foldl_cons, ih, Scheduler.get?_forgetPosition, Option.map_map]
    refine congrArg (Option.map · _) (funext fun t => ?_)
    show (if id = other then _ else t).unplaced = _
    split <;> rfl

/-- A sound kernel is settled but for positions that a shutdown has made threads forget. -/
theorem Sound.exists_settled (h : k.Sound W) :
    ∃ W' s, Settled W' s k.pools k.main k.idle ∧ ∀ id,
      (k.sched.threads.get? id).map Thread.unplaced = (s.threads.get? id).map Thread.unplaced := by
  rcases h with hhalted | ⟨me, t, hruns, -, -⟩
  · obtain ⟨s, -, hsettled, -, -, -, -, hsched⟩ := hhalted.frozen
    refine ⟨_, s, hsettled, fun id => ?_⟩
    rw [hsched, unplaced_foldl_forgetPosition]
  · exact ⟨_, k.sched, hruns.settled, fun _ => rfl⟩

theorem exists_of_unplaced_eq {t : Thread (Position ε)} {t? : Option (Thread (Position ε))}
    (h : (some t).map Thread.unplaced = t?.map Thread.unplaced) :
    ∃ u, t? = some u ∧ u.state = t.state ∧ u.waitingFor = t.waitingFor ∧
      u.priority = t.priority := by
  obtain ⟨u, rfl, heq⟩ := Option.map_eq_some_iff.mp h.symm
  have hstate := congrArg Thread.state heq
  have hreason := congrArg Thread.waitingFor heq
  have hpriority := congrArg Thread.priority heq
  exact ⟨u, rfl, hstate, hreason, hpriority⟩

end Kernel

/-- Nobody stands in the memory queue twice, whatever the level and the pool. -/
theorem Memory.Waiting.nodup_threads {waits : ThreadId → Option (Priority × PoolId)}
    {waiters : Memory.Waiters} (h : Memory.Waiting waits waiters) :
    (waiters.toList.map Prod.fst).Nodup := by
  have hdistinct : Priority.ascending.Nodup := by decide
  have hnodup : waiters.toList.Nodup := by
    refine List.nodup_flatMap.mpr ⟨fun p _ => h.nodup p, hdistinct.imp ?_⟩
    rintro p q hne ⟨id, pool⟩ hp hq
    rw [h.mem_level] at hp hq
    rw [hp, Option.some.injEq, Prod.mk.injEq] at hq
    exact hne hq.1
  refine hnodup.map_on ?_
  rintro ⟨id, pool⟩ hfirst ⟨other, pool'⟩ hsecond rfl
  obtain ⟨p, hp⟩ := LevelQueue.mem_toList.mp hfirst
  obtain ⟨q, hq⟩ := LevelQueue.mem_toList.mp hsecond
  rw [h.mem_level] at hp hq
  rw [hp, Option.some.injEq, Prod.mk.injEq] at hq
  rw [hq.2]

namespace Kernel

variable {k : Kernel ε}

/-- Whoever is alive when a thread is removed is still there afterwards. -/
theorem get?_of_removeThread {s s' : Scheduler (Position ε)} {id victim : ThreadId}
    {t v : Thread (Position ε)} (h : s.removeThread victim = .ok (v, s'))
    (ht : s.threads.get? id = some t) (halive : t.state ≠ .dead) :
    s'.threads.get? id = some t := by
  cases hu : s.threads.get? victim with
  | none =>
    rw [Scheduler.removeThread_unknown hu] at h
    cases h
  | some u =>
    rw [Scheduler.removeThread_eq hu] at h
    split at h
    · next hdead =>
      obtain ⟨rfl, rfl⟩ := Prod.ext_iff.mp (Except.ok.inj h)
      have hne : id ≠ victim := by
        rintro rfl
        obtain rfl := Option.some.inj (ht.symm.trans hu)
        exact halive hdead
      show (s.threads.erase victim).get? id = some t
      rw [Registry.get?_erase, if_neg hne, ht]
    · cases h

/-- The memory queue and the scheduler agree about who waits for memory. -/
structure MemoryAgrees (k : Kernel ε) : Prop where
  /-- A thread stands in the queue with a pool if it waits for memory since it blocked on the pool,
  and its level is its priority. -/
  mem_iff : ∀ id pool p, (id, pool) ∈ k.pools.waiters.level p ↔
    ∃ t, k.sched.threads.get? id = some t ∧ t.state = .waiting ∧ t.waitingFor = some .memory ∧
      t.priority = p ∧ k.lastAwaited id = some pool
  /-- It stands there once. -/
  once : ∀ id t, k.sched.threads.get? id = some t → t.state = .waiting →
    t.waitingFor = some .memory → (k.pools.waiters.toList.map Prod.fst).count id = 1
  registered : ∀ id pool, (id, pool) ∈ k.pools.waiters.toList →
    ∃ books, k.pools.registry.get? pool = some books
  /-- As long as the kernel runs, it stands where it tries the same pool again. -/
  placed : k.stopped = false → ∀ id pool, (id, pool) ∈ k.pools.waiters.toList →
    ∃ t size purpose, k.sched.threads.get? id = some t ∧
      t.position = some (.inside (.allocate pool size purpose))
  /-- Whoever is taken off the queue when memory is released is waiting for memory, also if the
  memory was the stack of a thread that has just been removed. -/
  served : ∀ s, s = k.sched ∨ (∃ victim u, k.sched.removeThread victim = .ok (u, s)) →
    ∀ pool address released pools rest id,
      k.pools.deallocate pool address = .ok (released, pools) →
      pools.wakeNext pool = (some id, rest) →
        ∃ t, s.threads.get? id = some t ∧ t.state = .waiting ∧ t.waitingFor = some .memory

theorem Reachable.memoryAgrees (h : k.Reachable) : k.MemoryAgrees := by
  have hmindful := h.mindful
  obtain ⟨W, s, hsettled, hsame⟩ := h.sound.exists_settled
  -- Between the two schedulers, both ways.
  have hback : ∀ {id u}, s.threads.get? id = some u → ∃ t, k.sched.threads.get? id = some t ∧
      t.state = u.state ∧ t.waitingFor = u.waitingFor ∧ t.priority = u.priority := by
    intro id u hu
    have hunplaced := (hsame id).symm
    rw [hu] at hunplaced
    exact exists_of_unplaced_eq hunplaced
  have hforth : ∀ {id t}, k.sched.threads.get? id = some t → ∃ u, s.threads.get? id = some u ∧
      u.state = t.state ∧ u.waitingFor = t.waitingFor ∧ u.priority = t.priority := by
    intro id t ht
    have hunplaced := hsame id
    rw [ht] at hunplaced
    exact exists_of_unplaced_eq hunplaced
  have hmem : ∀ {id t}, k.sched.threads.get? id = some t → t.state = .waiting →
      t.waitingFor = some .memory → ∃ pool, (id, pool) ∈ k.pools.waiters.level t.priority := by
    intro id t ht hstate hreason
    obtain ⟨u, hu, hstate', hreason', hpriority⟩ := hforth ht
    rw [← hpriority]
    exact hsettled.exists_mem hu (hstate'.trans hstate) (hreason'.trans hreason)
  refine ⟨fun id pool p => ⟨fun hin => ?_, ?_⟩, fun id t ht hstate hreason => ?_,
    fun id pool hin => ?_, fun hgoing id pool hin => ?_, ?_⟩
  · obtain ⟨u, -, -, hu, hstate, hreason, hpriority, -⟩ := hsettled.exists_of_mem hin
    obtain ⟨t, ht, hstate', hreason', hpriority'⟩ := hback hu
    exact ⟨t, ht, hstate'.trans hstate, hreason'.trans hreason, hpriority'.trans hpriority,
      hmindful id pool p hin⟩
  · rintro ⟨t, ht, hstate, hreason, rfl, hlast⟩
    obtain ⟨other, hin⟩ := hmem ht hstate hreason
    rw [hmindful id other _ hin] at hlast
    exact Option.some.inj hlast ▸ hin
  · obtain ⟨pool, hin⟩ := hmem ht hstate hreason
    exact List.count_eq_one_of_mem hsettled.waiting.nodup_threads
      (List.mem_map_of_mem (LevelQueue.mem_toList.mpr ⟨_, hin⟩))
  · obtain ⟨p, hlevel⟩ := LevelQueue.mem_toList.mp hin
    exact hsettled.registered ((hsettled.waiting.mem_level ..).mp hlevel)
  · obtain ⟨_, hsettled'⟩ := h.sound.settled hgoing
    obtain ⟨p, hlevel⟩ := LevelQueue.mem_toList.mp hin
    obtain ⟨t, size, purpose, ht, -, -, -, hposition⟩ := hsettled'.exists_of_mem hlevel
    exact ⟨t, size, purpose, ht, hposition⟩
  · intro s' hs' pool address released pools rest id hok hnext
    obtain ⟨u, hu, hstate, hreason⟩ :=
      hsettled.exists_of_wakeNext (Memory.Pools.waiters_deallocate hok) hnext
    obtain ⟨t, ht, hstate', hreason', -⟩ := hback hu
    refine ⟨t, ?_, hstate'.trans hstate, hreason'.trans hreason⟩
    rcases hs' with rfl | ⟨victim, v, hremoved⟩
    · exact ht
    · exact get?_of_removeThread hremoved ht (by simp [hstate', hstate])

/-- A run that ends with a thread of high priority waiting for a pool that the main thread has used
up. -/
def shortage : List (Move Unit) :=
  answered (.poolCreate 4096 64) ++ answered (.allocate ⟨3⟩ 64) ++
    answered (.threadCreate () 4096 .high) ++
    [.call (.threadActivate ⟨3⟩), .advance, .advance, .call (.allocateBlocking ⟨3⟩ 64)]

theorem Reachable.memoryAgrees_shortage :
    ∃ k : Kernel Unit, afterRun {} {} shortage = some k ∧
      k.pools.waiters = { high := [(⟨3⟩, ⟨3⟩)] } ∧ k.Reachable ∧ k.MemoryAgrees := by
  have hrun : (afterRun {} {} shortage).map (fun k : Kernel Unit => k.pools.waiters) =
      some { high := [(⟨3⟩, ⟨3⟩)] } := by decide +kernel
  obtain ⟨k, hk, hwaiters⟩ := Option.map_eq_some_iff.mp hrun
  have hreachable := reachable_of_afterRun hk
  exact ⟨k, hk, hwaiters, hreachable, hreachable.memoryAgrees⟩

end Kernel

end CoopKernel
