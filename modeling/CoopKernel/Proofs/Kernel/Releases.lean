import CoopKernel.Proofs.Kernel.Dealings
import CoopKernel.Proofs.Kernel.MemoryQueue
import CoopKernel.Proofs.Kernel.Refusals

/-!
# Whom a release of memory serves

Memory comes back to a pool in three calls (`Kernel.returns`). All of them end in the same way:

* if nobody waits for the pool, the program goes on (`Kernel.PassesBy`);
* otherwise one thread leaves the memory queue and is ready to run: of those who wait for the pool
  with the highest priority, it is the one that has waited longest (`Kernel.Foremost`). It runs at
  once if it outranks the caller, and otherwise the program goes on (`Kernel.Serves`).

That the queue is served in the order in which threads began to wait is an invariant of runs
(`Reachable.inOrder`): threads leave the queue anywhere, but join it last at their level. That the
thread that is served is the one that runs next is due to another one: while the caller runs, no
ready thread outranks it (`Scheduler.Unrivalled`).
-/

namespace CoopKernel

variable {ε : Type}

namespace Kernel

variable {W W' : PoolId → Prop} {k k' : Kernel ε} {me id other : ThreadId} {pool pool' : PoolId}
  {t u : Thread (Position ε)} {move : Move ε} {ticking : Bool} {events new : List Trace.Event}

/-! ## Who came first -/

/-- A thread began its last wait for memory before another one did. -/
def WaitedBefore (k : Kernel ε) (id other : ThreadId) : Prop :=
  ∃ earlier later, k.reported = earlier ++ later ∧ (∃ pool, .wait pool id ∈ earlier) ∧
    (∀ pool, .wait pool id ∉ later) ∧ ∃ pool, .wait pool other ∈ later

/-- At each level of the memory queue threads stand in the order in which they began to wait. -/
def InOrder (k : Kernel ε) : Prop :=
  ∀ p, (k.pools.waiters.level p).Pairwise fun a b => k.WaitedBefore a.1 b.1

/-- Who came first stays so until it waits again. -/
theorem WaitedBefore.mono (h : k.WaitedBefore id other)
    (hreported : k'.reported = k.reported ++ new) (hsilent : ∀ pool, .wait pool id ∉ new) :
    k'.WaitedBefore id other := by
  obtain ⟨earlier, later, hsplit, hwaited, hnot, pool, hother⟩ := h
  refine ⟨earlier, later ++ new, by rw [hreported, hsplit, List.append_assoc], hwaited,
    fun pool hmem => ?_, pool, List.mem_append_left _ hother⟩
  exact (List.mem_append.mp hmem).elim (hnot pool) (hsilent pool)

/-- Whoever begins to wait comes after those who wait already. -/
theorem waitedBefore_of_new (hreported : k'.reported = k.reported ++ new)
    (hlast : k.lastAwaited id = some pool) (hsilent : ∀ pool, .wait pool id ∉ new)
    (hwaits : .wait pool' other ∈ new) : k'.WaitedBefore id other := by
  obtain ⟨stamped, hmem, hawaits⟩ := List.exists_of_findSome?_eq_some hlast
  refine ⟨k.reported, new, hreported, ⟨pool, ?_⟩, hsilent, pool', hwaits⟩
  exact List.mem_map.mpr ⟨stamped, List.mem_reverse.mp hmem, Trace.Event.awaits_eq_some.mp hawaits⟩

theorem Reports.reported (h : k.Reports k' events) :
    ∃ tail, (∀ event ∈ tail, event.isDispatch = true) ∧
      k'.reported = k.reported ++ (events ++ tail) := by
  obtain ⟨tail, htail, hjournal⟩ := h
  exact ⟨tail, htail, by simp [Kernel.reported, hjournal, Function.comp_def]⟩

/-- In a turn only the running thread joins the memory queue, and it comes last. -/
theorem Turn.inOrder (h : Turn move ticking { k with line := k'.line } k' me events)
    (hsettled : Settled W k.sched k.pools k.main k.idle)
    (hrunning : ∀ t, k.sched.threads.get? me = some t → t.state = .running)
    (hmindful : k.Mindful) (horder : k.InOrder) : k'.InOrder := by
  obtain ⟨tail, htail, hreported⟩ := h.journal.reported
  change k'.reported = k.reported ++ (events ++ tail) at hreported
  have hwaits : ∀ {pool id}, .wait pool id ∈ events ++ tail → id = me := by
    intro pool id hmem
    rcases List.mem_append.mp hmem with hmem | hmem
    · exact (h.waits hmem).1
    · cases htail _ hmem
  -- Whoever stands in the queue waits, and does not begin to wait once more.
  have hsilent : ∀ {entry p}, entry ∈ k.pools.waiters.level p →
      ∀ pool, .wait pool entry.1 ∉ events ++ tail := by
    rintro ⟨id, pool⟩ p hmem other hwait
    obtain rfl := hwaits hwait
    obtain ⟨t, -, -, ht, hstate, -⟩ := hsettled.exists_of_mem hmem
    simp [hrunning t ht] at hstate
  have hkept : ∀ p, (k.pools.waiters.level p).Pairwise fun a b => k'.WaitedBefore a.1 b.1 :=
    fun p => (horder p).imp_of_mem fun hmem _ hbefore => hbefore.mono hreported (hsilent hmem)
  intro p
  rcases h.keeps.queue p with hleft | ⟨pool, id, hwait, hjoined⟩
  · exact (hkept p).sublist hleft
  · rw [hjoined, List.pairwise_append]
    refine ⟨hkept p, List.pairwise_singleton _ _, fun entry hmem last hlast => ?_⟩
    rw [List.mem_singleton.mp hlast]
    exact waitedBefore_of_new hreported (hmindful _ _ _ hmem) (hsilent hmem)
      (List.mem_append_left _ hwait)

theorem Moved.inOrder (h : Moved move k k') (hsound : k.Sound W) (hmindful : k.Mindful)
    (horder : k.InOrder) : k'.InOrder := by
  have hsame : k'.pools = k.pools → k'.journal = k.journal → k'.InOrder := by
    intro hpools hjournal p
    have hreported : k'.reported = k.reported ++ [] := by simp [reported, hjournal]
    rw [hpools]
    exact (horder p).imp fun hbefore => hbefore.mono hreported (by simp)
  cases h.effect with
  | still _ hpools _ hjournal _ => exact hsame hpools hjournal
  | shutdown _ _ _ hpools hjournal _ _ _ _ => exact hsame hpools hjournal
  | turn hgoing hcurrent hturn =>
    obtain ⟨_, hsettled⟩ := hsound.settled hgoing
    exact hturn.inOrder hsettled (fun t ht => hsound.running hcurrent ht) hmindful horder

/-- In every kernel that a run leads to, threads stand in the memory queue in the order in which
they began to wait. -/
theorem Reachable.inOrder (h : k.Reachable) : k.InOrder := by
  obtain ⟨config, arena, first, moves, hstart, hplay⟩ := h
  refine (start_sound hstart).play_induction (P := fun _ k => k.InOrder) hplay (fun p => ?_) ?_
  · obtain ⟨pools, address, systemPool, sharedPool, -, hwaiters, rfl⟩ := start_eq hstart
    show (pools.waiters.level p).Pairwise _
    rw [hwaiters, LevelQueue.level_empty]
    exact .nil
  · intro before move last next hbefore hlast hallowed hperform _ horder
    have hreachable : last.Reachable := ⟨config, arena, first, before, hstart, hbefore⟩
    exact (hlast.moved hallowed hperform).inOrder hlast hreachable.mindful horder

/-! ## Who is served -/

/-- A thread waits for a pool, nobody else who waits for it has a higher priority, and of those with
the same priority it has waited longest. -/
structure Foremost (k : Kernel ε) (pool : PoolId) (id : ThreadId) (u : Thread (Position ε)) :
    Prop where
  record : k.sched.threads.get? id = some u
  waiting : u.state = .waiting
  reason : u.waitingFor = some .memory
  queued : (id, pool) ∈ k.pools.waiters.level u.priority
  highest : ∀ {other p}, (other, pool) ∈ k.pools.waiters.level p → p ≤ u.priority
  longest : ∀ {other}, (other, pool) ∈ k.pools.waiters.level u.priority → other ≠ id →
    k.WaitedBefore id other

/-- At most one of two threads came first. -/
theorem WaitedBefore.asymm (h : k.WaitedBefore id other) : ¬ k.WaitedBefore other id := by
  rintro ⟨earlier', later', hsplit', -, hnot', pool', hwaits'⟩
  obtain ⟨earlier, later, hsplit, -, hnot, pool, hwaits⟩ := h
  -- The later of the two splits lies in the rest of the earlier one.
  rcases List.append_eq_append_iff.mp (hsplit.symm.trans hsplit') with
    ⟨between, -, hlater⟩ | ⟨between, -, hlater⟩
  · exact hnot pool' (hlater ▸ List.mem_append_right between hwaits')
  · exact hnot' pool (hlater ▸ List.mem_append_right between hwaits)

/-- Only one of those who wait for a pool is foremost. -/
theorem Foremost.eq {v : Thread (Position ε)} (h : k.Foremost pool id u)
    (h' : k.Foremost pool other v) : id = other := by
  have hpriority : u.priority = v.priority :=
    Priority.rank_injective (Nat.le_antisymm (h'.highest h.queued) (h.highest h'.queued))
  by_contra hne
  have hfirst : k.WaitedBefore id other := h.longest (hpriority ▸ h'.queued) (Ne.symm hne)
  exact hfirst.asymm (h'.longest (hpriority ▸ h.queued) hne)

/-- Of those who wait for a pool, the first of the highest level is foremost. -/
theorem foremost_of_nextFor? {waiters : Memory.Waiters}
    (hsettled : Settled W k.sched k.pools k.main k.idle) (horder : k.InOrder)
    (hnext : k.pools.waiters.nextFor? pool = some (id, waiters)) :
    ∃ u, k.Foremost pool id u ∧
      waiters = LevelQueue.erase k.pools.waiters u.priority (id, pool) := by
  obtain ⟨⟨⟨first, other⟩, rest⟩, htaken, heq⟩ := Option.map_eq_some_iff.mp hnext
  obtain ⟨rfl, rfl⟩ := Prod.mk.inj heq
  obtain ⟨p, hfound, hrest, habove⟩ := LevelQueue.takeHighest?_eq_some htaken
  obtain ⟨hpool, before, after, hlevel, hbefore⟩ := List.find?_eq_some_iff_append.mp hfound
  obtain rfl : other = pool := by simpa using hpool
  have hqueued : (first, other) ∈ k.pools.waiters.level p := List.mem_of_find?_eq_some hfound
  obtain ⟨u, -, -, hu, hstate, hreason, rfl, -⟩ := hsettled.exists_of_mem hqueued
  refine ⟨u, ⟨hu, hstate, hreason, hqueued, fun {j q} hj => ?_, fun {j} hj hne => ?_⟩, ?_⟩
  · rw [← Priority.not_lt]
    intro hlt
    simpa using habove q hlt _ hj
  · -- Nobody before it waits for the pool, so the others stand behind it.
    have hsorted := horder u.priority
    rw [hlevel, List.pairwise_append] at hsorted
    rw [hlevel, List.mem_append, List.mem_cons] at hj
    rcases hj with hj | hj | hj
    · simpa using hbefore _ hj
    · exact absurd (Prod.mk.inj hj).1 hne
    · exact List.rel_of_pairwise_cons hsorted.2.1 hj
  · rw [hrest, LevelQueue.erase, LevelQueue.eraseP_eq_erase hfound]

/-! ## Giving way -/

/-- The running thread has come last at its level, and a ready thread that outranks it has got the
processor, and goes on where it stood. -/
structure GivesWay (s : Scheduler (Position ε)) (k' : Kernel ε) (me : ThreadId)
    (c : Thread (Position ε)) (id : ThreadId) (u : Thread (Position ε)) : Prop where
  /-- It was the next in the queue. -/
  front : s.ready.level u.priority = [id]
  above : ∀ p, u.priority < p → s.ready.level p = []
  ready : k'.sched.ready = LevelQueue.erase (s.ready.push c.priority me) u.priority id
  current : k'.sched.current = some id
  record : k'.sched.threads.get? id = some { u with state := .running }
  goesOn : k'.activity.position? = u.position
  caller : k'.sched.threads.get? me =
    some { c with state := .ready, position := some (.inside (.reply (.ok .done))) }
  others : ∀ j, j ≠ id → j ≠ me → k'.sched.threads.get? j = s.threads.get? j

/-- If only one ready thread outranks the running thread, it stands alone at its level, and nobody
stands above. -/
theorem alone_at_level {s : Scheduler (Position ε)} {p : Priority} (horderly : s.Orderly)
    (hu : s.threads.get? id = some u) (hready : u.state = .ready) (houtranks : p < u.priority)
    (hrank : ∀ {j v}, j ≠ id → s.threads.get? j = some v → v.state = .ready → v.priority ≤ p) :
    s.ready.level u.priority = [id] ∧ ∀ q, u.priority < q → s.ready.level q = [] := by
  have hstands : ∀ {j q}, j ∈ s.ready.level q →
      ∃ v, s.threads.get? j = some v ∧ v.state = .ready ∧ v.priority = q := by
    intro j q hj
    obtain ⟨v, hv, hplace⟩ := Option.bind_eq_some_iff.mp ((horderly.queued.mem_ready j q).mp hj)
    exact ⟨v, hv, Thread.place_eq_ready_iff.mp hplace⟩
  have hplace : id ∈ s.ready.level u.priority := by
    rw [horderly.queued.mem_ready, Scheduler.place_eq hu, Thread.place, hready]
  constructor
  · rw [← List.perm_singleton,
      List.perm_ext_iff_of_nodup (horderly.queued.nodup_ready _) (List.nodup_singleton _)]
    intro j
    rw [List.mem_singleton]
    refine ⟨fun hj => ?_, fun hj => hj ▸ hplace⟩
    obtain ⟨v, hv, hvready, hpriority⟩ := hstands hj
    by_contra hne
    exact Priority.not_lt.mpr (hrank hne hv hvready) (hpriority ▸ houtranks)
  · intro q hlt
    rw [List.eq_nil_iff_forall_not_mem]
    intro j hj
    obtain ⟨v, hv, hvready, rfl⟩ := hstands hj
    by_cases hne : j = id
    · obtain rfl : u = v := Option.some.inj (hu.symm.trans (hne ▸ hv))
      exact absurd hlt (Nat.lt_irrefl _)
    · exact Priority.not_lt.mpr (hrank hne hv hvready) (Nat.lt_trans houtranks hlt)

/-- If only one ready thread outranks the running thread, it is picked when that gives way. -/
theorem pickNext_readied {s : Scheduler (Position ε)} {c : Thread (Position ε)}
    (horderly : s.Orderly) (hcurrent : s.current = some me) (hc : s.threads.get? me = some c)
    (hrunning : c.state = .running) (hu : s.threads.get? id = some u) (hready : u.state = .ready)
    (hne : id ≠ me) (houtranks : c.priority < u.priority)
    (hrank : ∀ {j v}, j ≠ id → s.threads.get? j = some v → v.state = .ready →
      v.priority ≤ c.priority) :
    (s.readied me c.priority).pickNext = .ok ({ source := some me, target := id },
      (s.readied me c.priority).dispatched id u.priority) := by
  have hreadied := fun j => Scheduler.get?_readied s me j c.priority
  have hid : (s.readied me c.priority).threads.get? id = some u := by
    rw [hreadied, if_neg hne, hu]
  obtain ⟨picked, v, hv, hvready, hhighest, hpick⟩ :=
    (horderly.readied hc (.inr hrunning)).pickNext_eq hid hready
  -- Whoever else is ready does not outrank the caller, and the caller is outranked itself.
  obtain rfl : picked = id := by
    by_contra hother
    have hle : u.priority ≤ v.priority := hhighest _ _ hid hready
    rw [hreadied] at hv
    split at hv
    · obtain rfl : { c with state := .ready } = v := by simpa [hc] using hv
      exact Priority.not_lt.mpr hle houtranks
    · exact Priority.not_lt.mpr (hrank hother hv hvready) (Nat.lt_of_lt_of_le houtranks hle)
  obtain rfl : u = v := Option.some.inj (hid.symm.trans hv)
  have hcaller : (s.readied me c.priority).current = some me := hcurrent
  rw [hpick, hcaller]

/-- A running thread that is outranked by a single ready thread gives way to it. -/
theorem yield_givesWay {m : Kernel ε} {c : Thread (Position ε)} (horderly : m.sched.Orderly)
    (hinside : m.gate.inside = true) (hcurrent : m.sched.current = some me)
    (hc : m.sched.threads.get? me = some c) (hrunning : c.state = .running)
    (hu : m.sched.threads.get? id = some u) (hready : u.state = .ready)
    (houtranks : c.priority < u.priority)
    (hrank : ∀ {j v}, j ≠ id → m.sched.threads.get? j = some v → v.state = .ready →
      v.priority ≤ c.priority)
    (hrun : m.yield (.inside (.reply (.ok .done))) = .ok k') :
    k'.line = m.line ∧ k'.pools = m.pools ∧ GivesWay m.sched k' me c id u := by
  have hne : id ≠ me := by
    rintro rfl
    obtain rfl := Option.some.inj (hc.symm.trans hu)
    simp [hrunning] at hready
  obtain ⟨halone, habove⟩ := alone_at_level horderly hu hready houtranks hrank
  let readied := m.sched.readied me c.priority
  have hpick : readied.pickNext = .ok (_, readied.dispatched id u.priority) :=
    pickNext_readied horderly hcurrent hc hrunning hu hready hne houtranks hrank
  rw [Kernel.yield, Scheduler.requeueCurrent_eq hcurrent hc hrunning] at hrun
  obtain ⟨there, hthere, hleave⟩ :=
    switchNext_leave_eq_ok (k := { m with sched := readied }) hinside hpick hne hrun
  obtain rfl := Except.ok.inj (hrun.symm.trans hleave)
  have hreadied := fun j => Scheduler.get?_readied m.sched me j c.priority
  have hdispatched := fun j => Scheduler.get?_dispatched readied id j u.priority
  have hparked := fun j => Scheduler.get?_parked (readied.dispatched id u.priority) me j
    (.inside (.reply (.ok .done)))
  have hid : readied.threads.get? id = some u := by rw [hreadied, if_neg hne, hu]
  rw [Scheduler.position?, hdispatched, if_pos rfl, hid] at hthere
  refine ⟨line_resume .., pools_resume .., halone, habove, by rw [sched_resume]; rfl,
    by rw [sched_resume]; rfl, ?_, by rw [position?_resume]; exact hthere.symm, ?_,
    fun j hj hjme => ?_⟩
  · rw [sched_resume, hparked, if_neg hne, hdispatched, if_pos rfl, hid, Option.map_some]
  · rw [sched_resume, hparked, if_pos rfl, hdispatched, if_neg (Ne.symm hne), hreadied,
      if_pos rfl, hc, Option.map_some, Option.map_some]
  · rw [sched_resume, hparked, if_neg hjme, hdispatched, if_neg hj, hreadied, if_neg hjme]

/-- A thread that has become ready, and that alone may outrank the running thread, gets the
processor at once if it does. Otherwise the program goes on. -/
theorem preemptFor_cases {m : Kernel ε} {c : Thread (Position ε)} (horderly : m.sched.Orderly)
    (hinside : m.gate.inside = true) (hcurrent : m.sched.current = some me)
    (hc : m.sched.threads.get? me = some c) (hrunning : c.state = .running)
    (hu : m.sched.threads.get? id = some u) (hready : u.state = .ready)
    (hrank : ∀ {j v}, j ≠ id → m.sched.threads.get? j = some v → v.state = .ready →
      v.priority ≤ c.priority)
    (hrun : m.preemptFor id (.ok .done) = .ok k') :
    (u.priority ≤ c.priority ∧ k' = m.reply (.ok .done)) ∨
      c.priority < u.priority ∧ k'.line = m.line ∧ k'.pools = m.pools ∧
        GivesWay m.sched k' me c id u := by
  rw [Kernel.preemptFor, Scheduler.outranksCurrent_eq hcurrent hc hu] at hrun
  change (if decide (c.priority < u.priority) = true then _ else _) = _ at hrun
  by_cases houtranks : c.priority < u.priority
  · rw [if_pos (decide_eq_true houtranks)] at hrun
    exact .inr ⟨houtranks, yield_givesWay (m := m.emit (.preempt id)) horderly hinside hcurrent hc
      hrunning hu hready houtranks hrank hrun⟩
  · rw [if_neg (by simpa using houtranks)] at hrun
    exact .inl ⟨Priority.not_lt.mp houtranks, (Except.ok.inj hrun).symm⟩

/-! ## Releases -/

/-- A thread is ready to run: it has come last at its level, and nothing else has changed but that
it waits no more. -/
structure Woken {κ : Type} (s s' : Scheduler κ) (id : ThreadId) (u : Thread κ) : Prop where
  record : s'.threads.get? id = some { u.disarm with state := .ready }
  others : ∀ j, j ≠ id → s'.threads.get? j = s.threads.get? j
  ready : s'.ready = s.ready.push u.priority id
  waiting : s'.waiting = s.waiting.remove .memory id
  mutexes : s'.mutexes = s.mutexes
  current : s'.current = s.current

theorem woken_awakened {s : Scheduler (Position ε)} (hu : s.threads.get? id = some u) :
    Woken s (s.awakened id u.priority .memory) id u := by
  have hget := fun j => Scheduler.get?_awakened s id j u.priority .memory
  refine ⟨?_, fun j hj => ?_, rfl, rfl, rfl, rfl⟩
  · rw [hget, if_pos rfl, hu, Option.map_some]
  · rw [hget, if_neg hj]

/-- Nobody waits for the pool, and the program goes on. -/
structure PassesBy (k k' : Kernel ε) (s : Scheduler (Position ε)) (pool : PoolId) : Prop where
  nobody : ∀ id p, (id, pool) ∉ k.pools.waiters.level p
  queue : k'.pools.waiters = k.pools.waiters
  sched : k'.sched = s
  goesOn : k'.activity = .delivering (.reply (.ok .done))

/-- A thread leaves the memory queue, and is ready to run. It runs at once if it outranks the
caller, and otherwise the program goes on. -/
structure Serves (k k' : Kernel ε) (s : Scheduler (Position ε)) (me : ThreadId)
    (c : Thread (Position ε)) (pool : PoolId) (id : ThreadId) (u : Thread (Position ε)) : Prop where
  queue : k'.pools.waiters = LevelQueue.erase k.pools.waiters u.priority (id, pool)
  goesOn : u.priority ≤ c.priority →
    Woken s k'.sched id u ∧ k'.activity = .delivering (.reply (.ok .done))
  givesWay : c.priority < u.priority → ∃ woken, Woken s woken id u ∧
    GivesWay woken k' me c id { u.disarm with state := .ready }

/-- The memory that a call gives back to a pool. The removal of a thread gives back its stack. -/
def returns (k : Kernel ε) : Call ε → Option (PoolId × Nat)
  | .free pool address => some (pool, address)
  | .bufferRelease address => some (k.sharedPool, address)
  | .threadDelete id =>
    if k.removable id then (k.stackOf id).map fun stack => (k.systemPool, stack.address) else none
  | _ => none

/-- The scheduler when a call begins to give memory back: without the thread that it removes. -/
def leaving (k : Kernel ε) : Call ε → Scheduler (Position ε)
  | .threadDelete id => { k.sched with threads := k.sched.threads.erase id }
  | _ => k.sched

/-- What comes of a release of memory, before interrupts are delivered. -/
structure Release (k k' : Kernel ε) (request : Call ε) (me : ThreadId) (pool : PoolId)
    (pools' : Memory.Pools) : Prop where
  line : k'.line = k.line
  pools : k'.pools = { pools' with waiters := k'.pools.waiters }
  outcome : k.PassesBy k' (k.leaving request) pool ∨ ∃ c id u,
    k.sched.threads.get? me = some c ∧ k.Foremost pool id u ∧
      k.Serves k' (k.leaving request) me c pool id u

/-- If nobody waits for the pool, a release leaves all threads as they are. -/
theorem free_passesBy {pools' : Memory.Pools} {address released : Nat}
    (hok : k.pools.deallocate pool address = .ok (released, pools'))
    (hnext : k.pools.waiters.nextFor? pool = none) (hrun : k.free pool address = .ok k') :
    k'.line = k.line ∧ k'.pools = pools' ∧ k.PassesBy k' k.sched pool := by
  have hwaiters := Memory.Pools.waiters_deallocate hok
  have hnobody : pools'.wakeNext pool = (none, pools') :=
    Memory.Pools.wakeNext_eq_none (hwaiters ▸ hnext)
  obtain rfl := Except.ok.inj (hrun.symm.trans (free_eq_reply hok hnobody))
  refine ⟨rfl, rfl, fun id p hmem => ?_, hwaiters, rfl, rfl⟩
  have hnot := LevelQueue.takeHighest?_eq_none.mp (Option.map_eq_none_iff.mp hnext) p _ hmem
  simp at hnot

/-- If somebody waits for the pool, whoever is next in the queue is ready, and runs at once if it
outranks the caller. -/
theorem Serving.free_serves (h : k.Serving W me t) {pools' : Memory.Pools} {address released : Nat}
    {waiters : Memory.Waiters} (hok : k.pools.deallocate pool address = .ok (released, pools'))
    (hnext : k.pools.waiters.nextFor? pool = some (id, waiters))
    (hu : k.sched.threads.get? id = some u) (hreason : u.waitingFor = some .memory)
    (hwaiters : waiters = LevelQueue.erase k.pools.waiters u.priority (id, pool))
    (hrun : k.free pool address = .ok k') :
    k'.line = k.line ∧ k'.pools = { pools' with waiters := waiters } ∧
      k.Serves k' k.sched me t pool id u := by
  have hserved : pools'.wakeNext pool = (some id, { pools' with waiters := waiters }) :=
    Memory.Pools.wakeNext_eq_some (Memory.Pools.waiters_deallocate hok ▸ hnext)
  let served :=
    k.freed pool address { pools' with waiters := waiters } (k.sched.awakened id u.priority .memory)
  have horderly : served.sched.Orderly := h.settled.sched.awakened hu hreason (by simp)
  have hwoken : Woken k.sched served.sched id u := woken_awakened hu
  have hstate : u.state = .waiting :=
    (h.settled.sched.tidy hu).waiting_iff.mpr (by simp [hreason])
  have hne : id ≠ me := h.ne_of_not_running hu (by simp [hstate])
  have hcurrent : served.sched.current = some me := h.current
  have hrecord : served.sched.threads.get? me = some t :=
    (hwoken.others me (Ne.symm hne)).trans h.record
  rw [free_eq_preemptFor hok hserved hu hreason] at hrun
  -- Nobody else that is ready outranks the caller, because nobody did before.
  rcases preemptFor_cases (m := served) horderly h.inside hcurrent hrecord h.running hwoken.record
    rfl (fun hj hv hready => h.unrivalled ((hwoken.others _ hj).symm.trans hv) hready) hrun with
    ⟨hle, rfl⟩ | ⟨houtranks, hline, hpools, hgives⟩
  · exact ⟨rfl, rfl, hwaiters, fun _ => ⟨hwoken, rfl⟩,
      fun houtranks => absurd houtranks (Priority.not_lt.mpr hle)⟩
  · exact ⟨hline, hpools, (congrArg _ hpools).trans hwaiters,
      fun hle => absurd houtranks (Priority.not_lt.mpr hle), fun _ => ⟨_, hwoken, hgives⟩⟩

/-- Memory is released in a kernel `k`, from which nothing has been taken since the call began but
threads that were dead. -/
theorem Serving.free_release {m : Kernel ε} {request : Call ε} {address released : Nat}
    {pools' : Memory.Pools} (h : m.Serving W me t)
    (hsettled : Settled W' k.sched k.pools k.main k.idle) (horder : k.InOrder)
    (hme : k.sched.threads.get? me = some t) (hline : m.line = k.line) (hpools : m.pools = k.pools)
    (hsched : m.sched = k.leaving request)
    (hwaits : ∀ {j u}, k.sched.threads.get? j = some u → u.state = .waiting →
      m.sched.threads.get? j = some u)
    (hok : k.pools.deallocate pool address = .ok (released, pools'))
    (hrun : m.free pool address = .ok k') : k.Release k' request me pool pools' := by
  rw [← hpools] at hok
  cases hnext : m.pools.waiters.nextFor? pool with
  | none =>
    obtain ⟨hline', hpools', hpasses⟩ := free_passesBy hok hnext hrun
    refine ⟨hline'.trans hline, by rw [hpools'], .inl ?_⟩
    rw [← hsched]
    exact ⟨hpools ▸ hpasses.nobody, hpools ▸ hpasses.queue, hpasses.sched, hpasses.goesOn⟩
  | some served =>
    obtain ⟨id, waiters⟩ := served
    obtain ⟨u, hforemost, hwaiters⟩ := foremost_of_nextFor? hsettled horder (hpools ▸ hnext)
    obtain ⟨hline', hpools', hserves⟩ := h.free_serves hok hnext
      (hwaits hforemost.record hforemost.waiting) hforemost.reason (hpools ▸ hwaiters) hrun
    refine ⟨hline'.trans hline, by rw [hpools'], .inr ⟨t, id, u, hme, hforemost, ?_⟩⟩
    rw [← hsched]
    exact ⟨hpools ▸ hserves.queue, hserves.goesOn, hserves.givesWay⟩

/-- If the removal of a thread gives memory back, the thread is gone by then, and everybody who
waits is still there. -/
theorem Serving.delete_returns {address : Nat} (h : k.Serving W me t)
    (hreturns : k.returns (.threadDelete id) = some (pool, address)) :
    (k.without id).Serving W me t ∧
      (∀ {j u}, k.sched.threads.get? j = some u → u.state = .waiting →
        (k.without id).sched.threads.get? j = some u) ∧
      k.delete id = (k.without id).free pool address := by
  rw [returns] at hreturns
  split at hreturns
  · next hremovable =>
    obtain ⟨stack, hstack, heq⟩ := Option.map_eq_some_iff.mp hreturns
    obtain ⟨rfl, rfl⟩ := Prod.mk.inj heq
    rcases h.delete_cases id with ⟨hnot, -⟩ | ⟨v, hv, hdead, -, hserving, hdelete⟩
    · exact absurd (hnot.symm.trans hremovable) (by simp)
    · rw [stackOf, hv] at hstack
      have hremoved : k.sched.removeThread id = .ok (v, (k.without id).sched) := by
        rw [Scheduler.removeThread_eq hv, if_pos hdead]
        rfl
      refine ⟨hserving, fun hu hwaiting => ?_, ?_⟩
      · exact get?_of_removeThread hremoved hu (by simp [hwaiting])
      · rw [hdelete, show v.stack = some stack from hstack]
  · cases hreturns

/-- A release of memory that succeeds serves the thread that is foremost in waiting for the pool, if
there is one, and leaves everybody else alone. -/
theorem Calls.serves_foremost {request : Call ε} {address released : Nat} {pools' : Memory.Pools}
    (h : k.Calls k' me request) (hreturns : k.returns request = some (pool, address))
    (hgoing : k.stopped = false)
    (hok : k.pools.deallocate pool address = .ok (released, pools')) :
    k.Release k' request me pool pools' := by
  have horder := h.reachable.inOrder
  obtain ⟨_, hsettled⟩ := h.reachable.sound.settled hgoing
  rcases h.reachable.sound.calling (inProgram_iff.mp h.program) with hhalted | ⟨_, t, hcalling⟩
  · exact absurd hgoing (by simp [hhalted.stopped])
  obtain rfl := Option.some.inj (h.current.symm.trans hcalling.current)
  have hrun := h.called
  cases request with
  | free pool address =>
    obtain ⟨rfl, rfl⟩ := Prod.mk.inj (Option.some.inj hreturns)
    change k.inSection _ = _ at hrun
    rw [hcalling.inSection_eq] at hrun
    exact hcalling.serving.free_release hsettled horder hcalling.record rfl rfl rfl
      (fun hu _ => hu) hok hrun
  | bufferRelease address =>
    obtain ⟨rfl, rfl⟩ := Prod.mk.inj (Option.some.inj hreturns)
    change k.inSection _ = _ at hrun
    rw [hcalling.inSection_eq] at hrun
    exact hcalling.serving.free_release hsettled horder hcalling.record rfl rfl rfl
      (fun hu _ => hu) hok hrun
  | threadDelete id =>
    change k.inSection _ = _ at hrun
    obtain ⟨hserving, hwaits, hdelete⟩ := hcalling.serving.delete_returns hreturns
    rw [hcalling.inSection_eq, hdelete] at hrun
    exact hserving.free_release hsettled horder hcalling.record rfl rfl rfl hwaits hok hrun
  | _ => cases hreturns

/-- A run that ends with two threads of high priority waiting for a pool that the main thread has
used up. -/
def scarcity : List (Move Unit) :=
  shortage ++ [.advance, .advance, .advance] ++ answered (.threadCreate () 4096 .high) ++
    [.call (.threadActivate ⟨4⟩), .advance, .advance, .call (.allocateBlocking ⟨3⟩ 64),
      .advance, .advance, .advance]

theorem Calls.serves_foremost_scarcity :
    ∃ (k k' : Kernel Unit) (released : Nat) (pools' : Memory.Pools),
      afterRun {} {} scarcity = some k ∧
      k.pools.waiters = { high := [(⟨3⟩, ⟨3⟩), (⟨4⟩, ⟨3⟩)] } ∧
      k.Calls k' ⟨1⟩ (.free ⟨3⟩ 4096) ∧
      k.returns (.free ⟨3⟩ 4096) = some (⟨3⟩, 4096) ∧ k.stopped = false ∧
      k.pools.deallocate ⟨3⟩ 4096 = .ok (released, pools') ∧
      k'.sched.current = some ⟨3⟩ ∧ k.Release k' (.free ⟨3⟩ 4096) ⟨1⟩ ⟨3⟩ pools' := by
  have hrun : (afterRun {} {} scarcity).any (fun k : Kernel Unit =>
      k.pools.waiters == { high := [(⟨3⟩, ⟨3⟩), (⟨4⟩, ⟨3⟩)] } && k.inProgram &&
        k.sched.current == some ⟨1⟩ && !k.stopped &&
        ((k.call (.free ⟨3⟩ 4096)).toOption.any fun k' => k'.sched.current == some ⟨3⟩) &&
        (k.pools.deallocate ⟨3⟩ 4096).toOption.isSome) = true := by
    decide +kernel
  obtain ⟨k, hk, hrun⟩ := Option.any_eq_true _ _ |>.mp hrun
  simp only [Bool.and_eq_true, beq_iff_eq, Bool.not_eq_true'] at hrun
  obtain ⟨⟨⟨⟨⟨hwaiters, hprogram⟩, hcurrent⟩, hgoing⟩, hcall⟩, hok⟩ := hrun
  obtain ⟨k', hk', hnext⟩ := Option.any_eq_true _ _ |>.mp hcall
  obtain ⟨⟨released, pools'⟩, hpools'⟩ := Option.isSome_iff_exists.mp hok
  have hcalls : k.Calls k' ⟨1⟩ (.free ⟨3⟩ 4096) :=
    ⟨reachable_of_afterRun hk, hprogram, hcurrent, eq_ok_of_toOption hk'⟩
  exact ⟨k, k', released, pools', hk, hwaiters, hcalls, rfl, hgoing, eq_ok_of_toOption hpools',
    beq_iff_eq.mp hnext, hcalls.serves_foremost rfl hgoing (eq_ok_of_toOption hpools')⟩

end Kernel

end CoopKernel
