import CoopKernel.Proofs.Kernel.Turns

/-!
# Every call is a turn

Each call of a running thread, each rest of a call and the end of a program is a turn
(`Kernel.Turn`). The proofs follow the calls and name, for each of them, what it does before it
ends; the schedulers in between are those of the moves of threads and mutexes.
-/

namespace CoopKernel

variable {ε : Type}

namespace Kernel

variable {W : PoolId → Prop} {k k' m : Kernel ε} {me id : ThreadId} {t u : Thread (Position ε)}
  {move : Move ε} {ticking : Bool} {events : List Trace.Event} {pool : PoolId}

/-! ## Memory -/

/-- In a kernel that differs in threads that do not run, nobody else runs either. -/
theorem Runs.sole_of_get? (h : k.Runs W me t)
    (hget : ∀ j, m.sched.threads.get? j = k.sched.threads.get? j ∨
      ∀ u, m.sched.threads.get? j = some u → u.state ≠ .running) : m.Sole me := by
  intro j u hu hrunning
  rcases hget j with hsame | hnot
  · exact h.sole (hsame ▸ hu) hrunning
  · exact absurd hrunning (hnot u hu)

theorem Runs.turns_obtained (h : k.Runs W me t) {pools : Memory.Pools} {pool : PoolId}
    {address size : Nat} (hok : k.pools.allocate pool size = .ok (address, pools))
    (purpose : Purpose ε) (hfrom : purpose.isStack = true → k.MayStackFrom pool) :
    Turns move k me (.ok ((({ k with pools } : Kernel ε).emit (.alloc pool address size)).obtained
      address size purpose)) := by
  have hkeeps : ∀ {events}, Keeps k.pools pools events :=
    .of_leases (Memory.Pools.waiters_allocate hok) (·.allocate hok)
  cases purpose with
  | address => exact h.turns_aside rfl (by trivial) rfl rfl hkeeps _
  | stack entry priority =>
    let newcomer := k.sched.newcomer k.config.threadStem priority (some { address, size })
    have hblank : newcomer.Blank := Scheduler.blank_newcomer ..
    have hget := Registry.get?_add h.settled.sched.threads newcomer
    have hfresh := Registry.get?_nextHandle h.settled.sched.threads
    have hme : me ≠ k.sched.threads.nextHandle := by
      rintro rfl
      rw [h.record] at hfresh
      cases hfresh
    let allocated : Kernel ε := ({ k with pools } : Kernel ε).emit (.alloc pool address size)
    let made : Kernel ε := ({ allocated with
      sched := { k.sched with threads := k.sched.threads.add newcomer }
      entries := k.entries ++ [(k.sched.threads.nextHandle, .start entry)] } : Kernel ε).emit
        (.threadCreate k.sched.threads.nextHandle priority)
    have hmidway : Midway false k made me
        [.alloc pool address size, .threadCreate k.sched.threads.nextHandle priority] := by
      refine ⟨rfl, rfl, rfl, rfl, by simp [made, allocated, emit], fun j _ => ?_, by simp, by simp,
        hkeeps, fun _ => ⟨[(k.sched.threads.nextHandle, entry)], rfl, by simp⟩, fun hmem => ?_⟩
      · show Fate _ _ _ _ ((k.sched.threads.add newcomer).get? j)
        rw [hget]
        split
        · next hj =>
          rw [hj, hfresh]
          exact .created hblank (by simp [newcomer, Scheduler.newcomer])
        · exact .kept rfl
      · obtain ⟨rfl, -⟩ : _ ∧ _ := by simpa using hmem
        exact ⟨Ne.symm hme, newcomer, _, pool, (hget _).trans (if_pos rfl), rfl,
          Memory.Pools.leases_of_allocate hok, hfrom rfl, List.mem_cons_self⟩
    have hsole : made.Sole me := by
      refine h.sole_of_get? fun j => ?_
      show (k.sched.threads.add newcomer).get? j = _ ∨
        ∀ u, (k.sched.threads.add newcomer).get? j = some u → _
      rw [hget]
      split
      · refine .inr fun u hu => ?_
        rw [← Option.some.inj hu]
        simp [hblank.dead]
      · exact .inl rfl
    have hrecord : made.sched.threads.get? me = some t :=
      (hget me).trans ((if_neg hme).trans h.record)
    exact (hmidway.turn h.record (reply_ends hsole hrecord h.running _) (.went _ rfl)
      (by simp) (by simp [Move.Explains])).turns

/-- A thread that runs no more gives the processor away. -/
theorem Runs.switchNext_ends (h : k.Runs W me t) (horderly : m.sched.Orderly)
    (hcurrent : m.sched.current = k.sched.current)
    (hothers : ∀ j, j ≠ me → m.sched.threads.get? j = k.sched.threads.get? j)
    (hu : m.sched.threads.get? me = some u) (hstate : u.state ≠ .running) {here : Position ε}
    (hrun : m.switchNext here = .ok k') : m.Ends k' me { u with position := some here } := by
  refine Kernel.switchNext_ends horderly ?_ (hcurrent.trans h.current) hu hrun
  intro j v hv hrunning
  by_cases hj : j = me
  · obtain rfl : u = v := Option.some.inj (hu.symm.trans (hj ▸ hv))
    exact hstate hrunning
  · rw [hothers j hj] at hv
    exact hj (h.sole hv hrunning)

/-- The middle of a turn in which only the running thread has changed. -/
theorem Midway.of_own {event : Trace.Event} (hhandoff : ∀ x j, event ≠ .handoff x j)
    (hresult : ∀ j r, event ≠ .ioDone j r)
    (hcreation : ∀ j p, event ≠ .threadCreate j p)
    (hline : m.line = k.line) (hstopped : m.stopped = k.stopped) (hfixed : m.fixed = k.fixed)
    (hkeeps : Keeps k.pools m.pools [event]) (hentries : m.entries = k.entries)
    (hticks : m.sched.ticks = k.sched.ticks)
    (hjournal : m.journal = k.journal ++ [{ event, tick := m.sched.ticks }])
    (hothers : ∀ j, j ≠ me → m.sched.threads.get? j = k.sched.threads.get? j) :
    Midway false k m me [event] := by
  refine ⟨hline, hstopped, hfixed, hticks, hjournal, fun j hj => ?_, fun hmem => ?_,
    fun hmem => ?_, hkeeps, .of_eq hentries fun _ _ hmem => ?_, fun hmem => ?_⟩
  · rw [hothers j hj]
    exact .kept rfl
  · exact absurd (List.mem_singleton.mp hmem).symm (hhandoff _ _)
  · exact absurd (List.mem_singleton.mp hmem).symm (hresult _ _)
  · exact absurd (List.mem_singleton.mp hmem).symm (hcreation _ _)
  · exact absurd (List.mem_singleton.mp hmem).symm (hcreation _ _)

/-- The kernel in which the running thread has begun to wait for memory, and said so. -/
def starving (k : Kernel ε) (me : ThreadId) (p : Priority) (pool : PoolId) : Kernel ε :=
  ({ k with
    pools := k.pools.wait me p.rank pool
    sched := k.sched.suspended me .memory .infinite } : Kernel ε).emit (.wait pool me)

/-- A thread that waits for memory stands where it will try again. -/
theorem Runs.awaitMemory_ends (h : k.Runs W me t) {size : Nat} {purpose : Purpose ε}
    (hrun : k.awaitMemory pool size purpose = .ok k') :
    (k.starving me t.priority pool).Ends k' me { t.arm .memory .infinite with
      state := .waiting, position := some (.inside (.allocate pool size purpose)) } := by
  have hget := Scheduler.get?_suspended k.sched me
  have hrecord := hget me .memory .infinite
  rw [if_pos rfl, h.record, Option.map_some] at hrecord
  rw [Kernel.awaitMemory, h.me_eq] at hrun
  change k.orRefuse (k.sched.find me) _ = _ at hrun
  rw [Scheduler.find_eq h.record] at hrun
  change (k.sched.block me .memory .infinite >>= _) = _ at hrun
  rw [Scheduler.block_eq h.record] at hrun
  exact h.switchNext_ends (m := k.starving me t.priority pool)
    (h.settled.sched.suspended h.record h.running (by simp) .infinite) rfl
    (fun j hj => (hget j _ _).trans (if_neg hj)) hrecord (by simp) hrun

theorem Runs.turns_awaitMemory (h : k.Runs W me t) (pool : PoolId) (size : Nat)
    (purpose : Purpose ε) (hfrom : purpose.isStack = true → k.MayStackFrom pool) :
    Turns move k me (k.awaitMemory pool size purpose) := by
  intro k' hrun
  let waiting := k.starving me t.priority pool
  have hends := h.awaitMemory_ends hrun
  have hothers : ∀ j, j ≠ me → waiting.sched.threads.get? j = k.sched.threads.get? j :=
    fun j hj => (Scheduler.get?_suspended k.sched me j _ _).trans (if_neg hj)
  have hkeeps : Keeps k.pools waiting.pools [.wait pool me] := by
    refine ⟨fun hleases => .inl (hleases.of_registry rfl), fun p => ?_⟩
    show (LevelQueue.level (k.pools.waiters.push (.ofRank t.priority.rank) (me, pool)) p).Sublist
      _ ∨ ∃ other id, _ ∧
        LevelQueue.level (k.pools.waiters.push (.ofRank t.priority.rank) (me, pool)) p = _
    rw [LevelQueue.level_push]
    split
    · next hp => exact .inr ⟨pool, me, by simp, by rw [hp]⟩
    · exact .inl (List.Sublist.refl _)
  have hmidway : Midway false k waiting me [.wait pool me] :=
    .of_own (by simp) (by simp) (by simp) rfl rfl rfl hkeeps rfl rfl rfl hothers
  refine ⟨_, hmidway.turn h.record hends (.starved (by simp) size purpose) ?_
    (by simp [Move.Explains])⟩
  intro other j hmem
  obtain ⟨rfl, rfl⟩ : other = pool ∧ j = me := by simpa using hmem
  exact ⟨rfl, size, purpose, rfl, rfl, hfrom⟩

theorem Runs.turns_allocateBlocking (h : k.Runs W me t) (pool : PoolId) (size : Nat)
    (purpose : Purpose ε) (hfrom : purpose.isStack = true → k.MayStackFrom pool) :
    Turns move k me (k.allocateBlocking pool size purpose) := by
  have htried := k.tried pool size purpose
  generalize k.allocateBlocking pool size purpose = outcome at htried ⊢
  cases htried with
  | granted _ hok => exact h.turns_obtained hok purpose hfrom
  | starved _ _ _ _ => exact h.turns_awaitMemory pool size purpose hfrom
  | _ => exact h.turns_reply _

theorem Runs.turns_allocate (h : k.Runs W me t) (pool : PoolId) (size : Nat) :
    Turns move k me (k.allocate pool size) :=
  h.turns_orRefusePool fun (_, _) hok =>
    h.turns_aside rfl (by trivial) rfl rfl
      (.of_leases (Memory.Pools.waiters_allocate hok) (·.allocate hok)) _

/-- The thread that is popped from the memory queue waits for memory. -/
theorem Settled.exists_of_wakeNext {s : Scheduler (Position ε)} {pools pools' rest : Memory.Pools}
    {main idle : ThreadId} (h : Settled W s pools main idle)
    (hwaiters : pools'.waiters = pools.waiters) (hnext : pools'.wakeNext pool = (some id, rest)) :
    ∃ u, s.threads.get? id = some u ∧ u.state = .waiting ∧ u.waitingFor = some .memory := by
  rw [Memory.Pools.wakeNext, hwaiters] at hnext
  cases hserved : pools.waiters.nextFor? pool with
  | none =>
    rw [hserved] at hnext
    cases hnext
  | some served =>
    rw [hserved] at hnext
    obtain ⟨hid, -⟩ := Prod.ext_iff.mp hnext
    obtain rfl := Option.some.inj hid
    obtain ⟨p, hwait, -⟩ := h.waiting.nextFor?_eq_some hserved
    obtain ⟨u, hu, hmemory⟩ := Option.bind_eq_some_iff.mp hwait
    obtain ⟨hreason, -⟩ := Thread.memoryWait_eq_some hmemory
    exact ⟨u, hu, (h.sched.tidy hu).waiting_iff.mpr (by simp [hreason]), hreason⟩

/-- A release that succeeds serves a thread that waits for memory, if there is one, and answers that
it is done. -/
theorem Runs.free_ends (h : k.Runs W me t) {pools' : Memory.Pools} {address released : Nat}
    (hok : k.pools.deallocate pool address = .ok (released, pools'))
    (hrun : k.free pool address = .ok k') :
    ∃ waiter? rest s here, pools'.wakeNext pool = (waiter?, rest) ∧
      (s = k.sched ∨ ∃ waiter u, k.sched.threads.get? waiter = some u ∧ u.state = .waiting ∧
        u.waitingFor = some .memory ∧ s = k.sched.awakened waiter u.priority .memory) ∧
      here.arrival? = some (.returned (.ok .done)) ∧
      (k.freed pool address rest s).Ends k' me
        { t with state := .ready, position := some here } := by
  rcases hnext : pools'.wakeNext pool with ⟨waiter?, rest⟩
  cases waiter? with
  | none =>
    obtain rfl := Except.ok.inj (hrun.symm.trans (free_eq_reply hok hnext))
    exact ⟨none, rest, k.sched, _, rfl, .inl rfl, rfl,
      reply_ends (k := k.freed pool address rest k.sched) h.sole h.record h.running _⟩
  | some waiter =>
    obtain ⟨u, hu, hstate, hreason⟩ :=
      h.settled.exists_of_wakeNext (Memory.Pools.waiters_deallocate hok) hnext
    have hne : me ≠ waiter := Ne.symm (h.ne_of_not_running hu (by simp [hstate]))
    have hrecord := Scheduler.get?_awakened k.sched waiter me u.priority .memory
    rw [if_neg hne, h.record] at hrecord
    rw [free_eq_preemptFor hok hnext hu hreason] at hrun
    obtain ⟨here, harrival, hends⟩ := preemptFor_ends
      (k := k.freed pool address rest (k.sched.awakened waiter u.priority .memory))
      (h.settled.sched.awakened hu hreason (by simp)) h.current hrecord h.running hrun
    exact ⟨some waiter, rest, _, here, rfl,
      .inr ⟨waiter, u, hu, hstate, hreason, rfl⟩, harrival, hends⟩

/-- A release may come after something else in the same turn. -/
theorem Midway.turns_free (h : Midway false k m me events)
    (hplain : ∀ event ∈ events, event.isPlain = true)
    (hexplained : ∀ event ∈ events, move.Explains me event) (ht : k.sched.threads.get? me = some t)
    (hruns : m.Runs W me t) (pool : PoolId) (address : Nat) :
    Turns move k me (m.free pool address) := by
  have hplain' : ∀ event ∈ events ++ [Trace.Event.free pool address], event.isPlain = true := by
    simpa [or_imp, forall_and, Trace.Event.isPlain] using hplain
  cases hok : m.pools.deallocate pool address with
  | error error =>
    rw [Kernel.free, hok]
    exact h.turns_reply hplain hexplained ht hruns.running hruns.sole hruns.record _
  | ok result =>
    obtain ⟨released, pools'⟩ := result
    intro k' hrun
    obtain ⟨_, rest, s, here, hnext, hserved, harrival, hends⟩ := hruns.free_ends hok hrun
    have hticks : s.ticks = m.sched.ticks := by
      rcases hserved with rfl | ⟨_, _, -, -, -, rfl⟩ <;> rfl
    have hjournal : (m.freed pool address rest s).journal =
        k.journal ++ (events ++ [Trace.Event.free pool address]).map
          fun event => { event, tick := s.ticks } := by
      show m.journal ++ _ = _
      rw [h.journal, List.map_append, List.append_assoc, hticks]
      rfl
    have hkeeps : Keeps k.pools rest (events ++ [.free pool address]) := by
      refine ⟨fun hleases => ?_, fun p => ?_⟩
      · rcases h.keeps.leases hleases with hmid | hmem
        · rcases hmid.deallocate hok with hlater | ⟨rfl, rfl⟩
          · exact .inl (hlater.of_registry (Memory.Pools.registry_wakeNext hnext))
          · exact .inr (by simp)
        · exact .inr (List.mem_append_left _ hmem)
      · have hleft := Memory.Pools.sublist_wakeNext hnext p
        rw [Memory.Pools.waiters_deallocate hok] at hleft
        rcases h.keeps.queue p with hsame | ⟨_, _, hwait, -⟩
        · exact .inl (hleft.trans hsame)
        · exact absurd hwait (wait_not_mem hplain)
    have hothers : ∀ j, j ≠ me → Fate false (events ++ [.free pool address]) j
        (k.sched.threads.get? j) (s.threads.get? j) := by
      intro j hj
      rcases hserved with rfl | ⟨waiter, u, hu, hstate, hreason, rfl⟩
      · exact (h.others j hj).mono _
      · rw [Scheduler.get?_awakened]
        split
        · next heq =>
          subst heq
          have hsame := h.others j hj
          rw [hu] at hsame
          rw [hsame.eq_of_untimed hstate hreason rfl, hu]
          exact .served hreason
        · exact (h.others j hj).mono _
    have hmidway : Midway false k (m.freed pool address rest s) me
        (events ++ [.free pool address]) :=
      .of_plain hplain' h.line h.stopped h.fixed (hticks.trans h.ticks) hjournal hkeeps
        (h.enrols.mono _ (by simp)) hothers
    exact ⟨_, hmidway.plain_turn hplain'
      (List.forall_mem_append.mpr ⟨hexplained, List.forall_mem_singleton.mpr trivial⟩) ht hends
      (.went here (Position.stackPool?_eq_none harrival))⟩

theorem Runs.turns_free (h : k.Runs W me t) (pool : PoolId) (address : Nat) :
    Turns move k me (k.free pool address) :=
  (Midway.refl k me).turns_free (by simp) (by simp) h.record h pool address

/-! ## Mutexes -/

/-- The running thread deletes a mutex. -/
theorem Runs.turns_mutexDelete (h : k.Runs W me t) (x : MutexId) :
    Turns (.call (.mutexDelete x)) k me (k.mutexDelete x) := by
  refine h.turns_orRefuse fun s' hs' => ?_
  obtain ⟨-, -, -, rfl⟩ := Scheduler.deleteMutex_eq_ok hs'
  let deleted : Kernel ε := ({ k with
    sched := { k.sched with mutexes := k.sched.mutexes.erase x } } : Kernel ε).emit (.mutexDelete x)
  have hmidway : Midway false k deleted me [.mutexDelete x] :=
    .of_own (by simp) (by simp) (by simp) rfl rfl rfl (.of_eq rfl) rfl rfl rfl fun _ _ => rfl
  exact (hmidway.turn h.record (reply_ends (k := deleted) h.sole h.record h.running _) (.went _ rfl)
    (by simp) (by simp [Move.Explains])).turns

/-- The running thread takes a mutex that is free. -/
theorem Runs.turns_locked (h : k.Runs W me t) (x : MutexId) (timeout : Timeout) :
    Turns (.call (.mutexAcquire x timeout)) k me (.ok ((({ k with sched := k.sched.locked x me } :
      Kernel ε).emit (.acquire x me)).reply (.ok .done))) := by
  have hget := Scheduler.get?_locked k.sched x me
  let locked : Kernel ε := ({ k with sched := k.sched.locked x me } : Kernel ε).emit (.acquire x me)
  have hothers : ∀ j, j ≠ me → locked.sched.threads.get? j = k.sched.threads.get? j :=
    fun j hj => (hget j).trans (if_neg hj)
  have hrecord : locked.sched.threads.get? me = some (t.hold x) := by
    show (k.sched.locked x me).threads.get? me = _
    rw [hget, if_pos rfl, h.record, Option.map_some]
  have hsole : locked.Sole me := by
    intro j u hu hrunning
    by_contra hj
    rw [hothers j hj] at hu
    exact hj (h.sole hu hrunning)
  have hmidway : Midway false k locked me [.acquire x me] :=
    .of_own (by simp) (by simp) (by simp) rfl rfl rfl (.of_eq rfl) rfl rfl rfl hothers
  exact (hmidway.plain_turn (by simp [Trace.Event.isPlain]) (by simp [Move.Explains]) h.record
    (reply_ends hsole hrecord h.running _) (.took rfl _ rfl)).turns

/-- The running thread begins to wait for a mutex that belongs to somebody else. -/
theorem Runs.turns_awaitMutex (h : k.Runs W me t) {x : MutexId} {mutex : Mutex} {owner : ThreadId}
    {timeout : Timeout} (hx : k.sched.mutexes.get? x = some mutex)
    (howner : mutex.owner = some owner) (hne : owner ≠ me)
    (hwaits : timeout.normalized ≠ .immediate) :
    Turns (.call (.mutexAcquire x timeout)) k me ((({ k with
      sched := k.sched.enlisted x me t.priority timeout.normalized } : Kernel ε).emit
        (.block x me)).switchNext (.inside (.acquire x me))) := by
  have hget := Scheduler.get?_enlisted k.sched x me
  let waiting : Kernel ε := ({ k with
    sched := k.sched.enlisted x me t.priority timeout.normalized } : Kernel ε).emit (.block x me)
  have hothers : ∀ j, j ≠ me → waiting.sched.threads.get? j = k.sched.threads.get? j :=
    fun j hj => (hget j _ _).trans (if_neg hj)
  have hrecord := hget me t.priority timeout.normalized
  rw [if_pos rfl, h.record, Option.map_some] at hrecord
  intro k' hrun
  have hends := h.switchNext_ends (m := waiting)
    (h.settled.sched.enlisted hx howner hne h.record h.running timeout.normalized) rfl
    hothers hrecord (by simp) hrun
  have hmidway : Midway false k waiting me [.block x me] :=
    .of_own (by simp) (by simp) (by simp) rfl rfl rfl (.of_eq rfl) rfl rfl rfl hothers
  exact ⟨_, hmidway.plain_turn (by simp [Trace.Event.isPlain]) (by simp [Move.Explains]) h.record
    hends (.queued rfl hwaits)⟩

theorem Runs.turns_acquire (h : k.Runs W me t) (x : MutexId) (timeout : Timeout) :
    Turns (.call (.mutexAcquire x timeout)) k me (k.acquire x timeout) := by
  rw [Kernel.acquire, h.me_eq]
  simp only [bind, Except.bind]
  cases hx : k.sched.mutexes.get? x with
  | none =>
    rw [Scheduler.tryLock_unknown hx]
    exact h.turns_reply _
  | some mutex =>
    cases howner : mutex.owner with
    | none =>
      rw [Scheduler.tryLock_free hx howner h.record]
      exact h.turns_locked x timeout
    | some owner =>
      by_cases hne : owner = me
      · rw [Scheduler.tryLock_own hx (hne ▸ howner)]
        exact h.turns_reply _
      · rw [Scheduler.tryLock_other hx howner hne]
        dsimp only
        split
        · exact h.turns_reply _
        · next hwaits =>
          rw [Scheduler.waitForMutex_eq h.record hx]
          exact h.turns_awaitMutex hx howner hne hwaits

theorem Runs.turns_finishAcquire (h : k.Runs W me t) (x : MutexId) :
    Turns move k me (k.finishAcquire x me) := by
  have hnone : t.wanted = none :=
    (h.settled.sched.tidy h.record).wanted_eq_none (by simp [h.running])
  rw [Kernel.finishAcquire, h.settled.sched.finishMutexWait_eq h.record hnone x]
  show Turns move k me
    (if (k.sched.mutexes.get? x).any fun mutex => mutex.owner == some me then _ else _)
  split
  · exact h.turns_aside rfl (by trivial) rfl rfl (.of_eq rfl) _
  · exact h.turns_aside rfl (by trivial) rfl rfl (.of_eq rfl) _

/-- The middle of a turn in which the running thread has passed a mutex to the next owner. -/
theorem Midway.of_passed {s' : Scheduler (Position ε)} {x : MutexId} {heir : ThreadId}
    (hne : heir ≠ me) (hu : k.sched.threads.get? heir = some u) (hwanted : u.wanted = some x)
    (hget : ∀ j, j ≠ me → s'.threads.get? j =
      if j = heir then some (u.receive x) else k.sched.threads.get? j)
    (hticks : s'.ticks = k.sched.ticks) :
    Midway false k ((({ k with sched := s' } : Kernel ε).emit (.release x me)).emit
      (.handoff x heir)) me [.release x me, .handoff x heir] := by
  refine ⟨rfl, rfl, rfl, hticks, by simp [emit], fun j hj => ?_, fun hmem => ?_, by simp,
    .of_eq rfl, .of_eq rfl (by simp), by simp⟩
  · show Fate _ _ _ _ (s'.threads.get? j)
    rw [hget j hj]
    split
    · next hj =>
      rw [hj, hu]
      exact .received hwanted (by simp)
    · exact .kept rfl
  · obtain ⟨rfl, rfl⟩ : _ ∧ _ := by simpa using hmem
    exact ⟨rfl, hne, u, hu, hwanted, (hget _ hne).trans (if_pos rfl)⟩

theorem Runs.turns_release (h : k.Runs W me t) (x : MutexId) :
    Turns (.call (.mutexRelease x)) k me (k.release x) := by
  rw [Kernel.release, h.me_eq]
  show Turns _ k me (k.orFail (k.sched.release x me) _)
  cases hx : k.sched.mutexes.get? x with
  | none =>
    rw [Scheduler.release_unknown hx]
    exact h.turns_reply _
  | some mutex =>
    rw [Scheduler.release_eq hx]
    split
    · next howner =>
      obtain ⟨next, s', heq, horderly, hcurrent, hnext, hget⟩ :=
        h.settled.sched.handOver hx howner h.record
      have hticks : s'.ticks = k.sched.ticks := Scheduler.ticks_handOver heq
      have hself : next ≠ some me := fun hme => (hnext me hme).1 rfl
      have hrecord : s'.threads.get? me = some (t.letGo x) := by
        rw [hget, if_neg hself, if_pos rfl, h.record, Option.map_some]
      have hcurrent' : s'.current = some me := hcurrent.trans h.current
      let released : Kernel ε := ({ k with sched := s' } : Kernel ε).emit (.release x me)
      rw [heq]
      cases next with
      | none =>
        have hothers : ∀ j, j ≠ me → released.sched.threads.get? j = k.sched.threads.get? j :=
          fun j hj => (hget j).trans ((if_neg (by simp)).trans (if_neg hj))
        have hmidway : Midway false k released me [.release x me] :=
          .of_own (by simp) (by simp) (by simp) rfl rfl rfl (.of_eq rfl) rfl hticks rfl hothers
        exact (hmidway.plain_turn (by simp [Trace.Event.isPlain]) (by simp [Move.Explains]) h.record
          (reply_ends (sole_of_orderly (k := released) horderly hcurrent') hrecord h.running _)
          (.gave rfl _ rfl)).turns
      | some heir =>
        obtain ⟨hne, u, hu, hwanted⟩ := hnext heir rfl
        have hothers : ∀ j, j ≠ me → s'.threads.get? j =
            if j = heir then some (u.receive x) else k.sched.threads.get? j := by
          intro j hj
          rw [hget]
          by_cases heq : j = heir
          · rw [if_pos (congrArg some heq.symm), if_pos heq, heq, hu, Option.map_some]
          · rw [if_neg (mt Option.some.inj (Ne.symm heq)), if_neg hj, if_neg heq]
        intro k' hrun
        obtain ⟨here, harrival, hends⟩ := preemptFor_ends (k := released.emit (.handoff x heir))
          horderly hcurrent' hrecord h.running hrun
        exact ⟨_, (Midway.of_passed hne hu hwanted hothers hticks).turn h.record hends
          (.gave rfl here (Position.stackPool?_eq_none harrival)) (by simp)
          (by simp [Move.Explains])⟩
    · exact h.turns_reply _

/-! ## Threads -/

/-- A thread that is about to begin does not keep the caller from its answer. -/
theorem Runs.activate_ends (h : k.Runs W me t) (hu : k.sched.threads.get? id = some u)
    (hdead : u.state = .dead) {entry : Destination ε}
    (hrun : (k.begun id u.priority entry).preemptFor id (.ok .done) = .ok k') :
    ∃ here, here.arrival? = some (.returned (.ok .done)) ∧
      (k.begun id u.priority entry).Ends k' me
        { t with state := .ready, position := some here } := by
  have hme : me ≠ id := Ne.symm (h.ne_of_not_running hu (by simp [hdead]))
  exact preemptFor_ends (k := k.begun id u.priority entry)
    (orderly_begun h.settled.sched hu hdead entry) h.current
    ((get?_begun hu entry me).trans ((if_neg hme).trans h.record)) h.running hrun

theorem Runs.turns_activate (h : k.Runs W me t) (id : ThreadId) :
    Turns (.call (.threadActivate id)) k me (k.activate id) := by
  rcases activate_cases k id with ⟨status, hrefused⟩ | ⟨u, entry, hu, hdead, hbegins⟩
  · rw [hrefused]
    exact h.turns_reply _
  · have hplain : ∀ event ∈ [Trace.Event.threadActivate id], event.isPlain = true := by
      simp [Trace.Event.isPlain]
    have hmidway : Midway false k (k.begun id u.priority entry) me [.threadActivate id] := by
      refine .of_plain hplain rfl rfl rfl rfl rfl (.of_eq rfl) (.of_eq rfl (by simp))
        fun j _ => ?_
      rw [get?_begun hu]
      split
      · next hj =>
        rw [hj, hu]
        exact .activated hdead entry (List.mem_singleton_self _)
      · exact .kept rfl
    rw [hbegins]
    intro k' hrun
    obtain ⟨here, harrival, hends⟩ := h.activate_ends hu hdead hrun
    exact ⟨_, hmidway.plain_turn hplain (by simp [Move.Explains]) h.record hends
      (.went here (Position.stackPool?_eq_none harrival))⟩

theorem Runs.turns_yield (h : k.Runs W me t) (here : Position ε) (hplain : here.stackPool? = none) :
    Turns move k me (k.yield here) := fun _ hrun =>
  ⟨_, (Midway.refl k me).plain_turn (by simp) (by simp) h.record
    (yield_ends h.settled.sched h.current h.record h.running hrun) (.went here hplain)⟩

/-- The running thread waits for something else than memory or a mutex, and may report it. -/
theorem Runs.turns_suspend (h : k.Runs W me t) {reason : WaitReason} (hmutex : reason ≠ .mutex)
    (hmemory : reason ≠ .memory)
    (hresult : reason = .io → ∃ interrupts, move = .call (.awaitIo (.raising interrupts)))
    (timeout : Timeout) (hplain : ∀ event ∈ events, event.isPlain = true)
    (hexplained : ∀ event ∈ events, move.Explains me event) (hline : m.line = k.line)
    (hstopped : m.stopped = k.stopped) (hfixed : m.fixed = k.fixed) (hpools : m.pools = k.pools)
    (hentries : m.entries = k.entries)
    (hjournal : m.journal = k.journal ++ events.map fun event => { event, tick := k.sched.ticks })
    (hsched : m.sched = k.sched.suspended me reason timeout) (here : Position ε)
    (hhere : here.stackPool? = none) : Turns move k me (m.switchNext here) := by
  have hget := fun j => Scheduler.get?_suspended k.sched me j reason timeout
  have hothers : ∀ j, j ≠ me → m.sched.threads.get? j = k.sched.threads.get? j := by
    intro j hj
    rw [hsched, hget, if_neg hj]
  have hrecord : m.sched.threads.get? me =
      some { t.arm reason timeout with state := .waiting } := by
    rw [hsched, hget, if_pos rfl, h.record, Option.map_some]
  have hmidway : Midway false k m me events := by
    refine .of_plain hplain hline hstopped hfixed (by rw [hsched]; rfl) ?_
      (.of_eq hpools)
      (.of_eq hentries fun _ _ => threadCreate_not_mem hplain) fun j hj => ?_
    · rw [hjournal, hsched]
      rfl
    · rw [hothers j hj]
      exact .kept rfl
  intro k' hrun
  have hends := h.switchNext_ends
    (hsched ▸ h.settled.sched.suspended h.record h.running hmutex timeout) (by rw [hsched]; rfl)
    hothers hrecord (by simp) hrun
  exact ⟨_, hmidway.plain_turn hplain hexplained h.record hends
    (.slept hmutex hmemory hresult timeout here hhere)⟩

theorem Runs.turns_sleep (h : k.Runs W me t) (timeout : Timeout) :
    Turns move k me (k.sleep timeout) := by
  rw [Kernel.sleep, h.me_eq]
  cases timeout with
  | immediate => exact h.turns_yield _ rfl
  | infinite => exact h.turns_yield _ rfl
  | ticks count =>
    have hmutex : WaitReason.sleep ≠ .mutex := by simp
    have hmemory : WaitReason.sleep ≠ .memory := by simp
    have hplain : ∀ event ∈ [Trace.Event.sleep me count], event.isPlain = true := by
      simp [Trace.Event.isPlain]
    show Turns move k me (k.sched.block me .sleep (.ticks count) >>= _)
    rw [Scheduler.block_eq h.record]
    let asleep : Kernel ε := ({ k with
      sched := k.sched.suspended me .sleep (.ticks count) } : Kernel ε).emit (.sleep me count)
    exact h.turns_suspend (m := asleep) hmutex hmemory (by simp) _ hplain (by simp [Move.Explains])
      rfl rfl rfl rfl rfl rfl rfl _ rfl

/-! ## Termination -/

/-- Reporting any number of events appends them to the journal. -/
theorem foldl_emit_journal {α : Type} (event : α → Trace.Event) (k : Kernel ε)
    (values : List α) :
    values.foldl (fun k value => k.emit (event value)) k =
      { k with journal := k.journal ++
        (values.map event).map fun event => { event, tick := k.sched.ticks } } := by
  induction values generalizing k with
  | nil => simp
  | cons value rest ih =>
    rw [List.foldl_cons, ih]
    simp [emit]

/-- The mutexes that a termination passed on, as events. -/
def handoffEvents (handoffs : List (MutexId × ThreadId)) : List Trace.Event :=
  handoffs.map fun entry => .handoff entry.1 entry.2

theorem emitHandoffs_journal (k : Kernel ε) (handoffs : List (MutexId × ThreadId)) :
    k.emitHandoffs handoffs =
      { k with journal := k.journal ++
        (handoffEvents handoffs).map fun event => { event, tick := k.sched.ticks } } :=
  foldl_emit_journal (fun entry : MutexId × ThreadId => .handoff entry.1 entry.2) k handoffs

theorem mem_handoffEvents {handoffs : List (MutexId × ThreadId)} {x : MutexId} {j : ThreadId} :
    .handoff x j ∈ handoffEvents handoffs ↔ (x, j) ∈ handoffs := by
  simp [handoffEvents]

theorem explains_handoffEvents {handoffs : List (MutexId × ThreadId)} :
    ∀ event ∈ handoffEvents handoffs, move.Explains me event := by
  intro event hmem
  obtain ⟨handoff, -, rfl⟩ := List.mem_map.mp hmem
  trivial

/-- The kernel after a thread's life was ended, with what is reported of that. -/
def parted (k : Kernel ε) (id : ThreadId) (s : Scheduler (Position ε))
    (events : List Trace.Event) : Kernel ε :=
  { k with
    sched := s
    pools := (k.pools.cancelWait id).2
    journal := k.journal ++ events.map fun event => { event, tick := s.ticks } }

/-- A termination is reported before the mutexes that it passes on. -/
theorem parted_terminate (k : Kernel ε) (id : ThreadId) (s : Scheduler (Position ε))
    (handoffs : List (MutexId × ThreadId)) :
    ((({ k with sched := s } : Kernel ε).cancelWait id).emit (.threadTerminate id)).emitHandoffs
      handoffs = k.parted id s (.threadTerminate id :: handoffEvents handoffs) := by
  rw [emitHandoffs_journal]
  simp [parted, emit, cancelWait]

/-- The end of a program is reported after them. -/
theorem parted_exit (k : Kernel ε) (id : ThreadId) (s : Scheduler (Position ε))
    (handoffs : List (MutexId × ThreadId)) :
    ((({ k with sched := s } : Kernel ε).emitHandoffs handoffs).cancelWait id).emit
      (.threadTerminate id) = k.parted id s (handoffEvents handoffs ++ [.threadTerminate id]) := by
  rw [emitHandoffs_journal]
  simp [parted, emit, cancelWait]

/-- When a program ends, its thread's life is ended, and the thread that is picked goes on at its
position. -/
theorem Runs.exit_eq_ok (h : k.Runs W me t) (hinside : k.gate.inside = false)
    {report : Termination} {s' : Scheduler (Position ε)}
    (heq : k.sched.terminate me = .ok (report, s')) (hrun : k.exit = .ok k') :
    ∃ switch picked there, s'.pickNext = .ok (switch, picked) ∧
      picked.position? switch.target = some there ∧
      k' = ({ k.parted me s' (handoffEvents report.handoffs ++ [.threadTerminate me]) with
        sched := picked } : Kernel ε).resume there := by
  let entered : Kernel ε := { k with gate := { inside := true }, stopped := false }
  have hentered : ((({ entered with sched := s' } : Kernel ε).emitHandoffs
      report.handoffs).cancelWait me).emit (.threadTerminate me) = _ :=
    parted_exit entered me s' report.handoffs
  rw [Kernel.exit, enter_eq hinside] at hrun
  simp only [bind, Except.bind, h.going, h.current, heq] at hrun
  rw [hentered] at hrun
  change (s'.pickNext >>= _) = _ at hrun
  obtain ⟨⟨switch, picked⟩, hpick, hrun⟩ := bind_eq_ok hrun
  cases hthere : picked.position? switch.target with
  | none =>
    simp only [hthere] at hrun
    cases hrun
  | some there =>
    simp only [hthere] at hrun
    obtain rfl := Except.ok.inj hrun
    refine ⟨switch, picked, there, hpick, hthere, ?_⟩
    cases there <;> simp [resume, parted, entered, h.going]

/-- A termination of somebody else leaves the running thread as it is, which wants nothing. -/
theorem Runs.record_of_inherited (h : k.Runs W me t) {s' : Scheduler (Position ε)}
    {handoffs : List (MutexId × ThreadId)} (hinherited : k.sched.Inherited s' id handoffs)
    (hne : me ≠ id) : s'.threads.get? me = some t := by
  rw [hinherited.same hne, h.record]
  intro x hin
  obtain ⟨-, v, hv, hwanted, -⟩ := hinherited.heir hin
  obtain rfl : t = v := Option.some.inj (h.record.symm.trans hv)
  have hwaiting := ((h.settled.sched.tidy hv).waiting_of_wanted hwanted).1
  simp [h.running] at hwaiting

/-- What a termination does to the others: the thread is buried, unless it is the running one, and
its heirs receive what it held. -/
theorem Runs.midway_of_inherited (h : k.Runs W me t) {s' : Scheduler (Position ε)}
    {handoffs : List (MutexId × ThreadId)} (hu : k.sched.threads.get? id = some u)
    (hburied : s'.threads.get? id = some { u.bury with held := [] })
    (hinherited : k.sched.Inherited s' id handoffs) (hsched : m.sched = s')
    (hevents : ∀ x j, .handoff x j ∈ events ↔ (x, j) ∈ handoffs)
    (hresults : ∀ j r, .ioDone j r ∉ events) (hcreations : ∀ j p, .threadCreate j p ∉ events)
    (hburial : .threadTerminate id ∈ events)
    (hline : m.line = k.line) (hstopped : m.stopped = k.stopped) (hfixed : m.fixed = k.fixed)
    (hpools : m.pools = (k.pools.cancelWait id).2) (hentries : m.entries = k.entries)
    (hticks : s'.ticks = k.sched.ticks)
    (hjournal : m.journal = k.journal ++ events.map fun event => { event, tick := s'.ticks }) :
    Midway false k m me events := by
  subst hsched
  have hheir : ∀ {x j}, (x, j) ∈ handoffs → j ≠ me ∧ ∃ v, k.sched.threads.get? j = some v ∧
      v.wanted = some x ∧ m.sched.threads.get? j = some (v.receive x) := by
    intro x j hin
    obtain ⟨-, v, hv, hwanted, hreceived⟩ := hinherited.heir hin
    have hwaiting := ((h.settled.sched.tidy hv).waiting_of_wanted hwanted).1
    exact ⟨h.ne_of_not_running hv (by simp [hwaiting]), v, hv, hwanted, hreceived⟩
  refine ⟨hline, hstopped, hfixed, hticks, hjournal, fun j hj => ?_, fun {x j} hmem => ?_,
    fun hmem => absurd hmem (hresults _ _), ?_, .of_eq hentries hcreations,
    fun hmem => absurd hmem (hcreations _ _)⟩
  · by_cases hid : j = id
    · rw [hid, hu, hburied]
      exact .buried hburial
    · by_cases hin : ∃ x, (x, j) ∈ handoffs
      · obtain ⟨x, hin⟩ := hin
        obtain ⟨-, v, hv, hwanted, hreceived⟩ := hheir hin
        rw [hv, hreceived]
        exact .received hwanted ((hevents x j).mpr hin)
      · rw [hinherited.same hid (not_exists.mp hin)]
        exact .kept rfl
  · exact ⟨rfl, hheir ((hevents x j).mp hmem)⟩
  · rw [hpools]
    exact .of_registry (Memory.Pools.registry_cancelWait k.pools id)
      (Memory.Pools.sublist_cancelWait k.pools id)

theorem Runs.turns_terminate (h : k.Runs W me t) (id : ThreadId) :
    Turns (.call (.threadTerminate id)) k me (k.terminate id) := by
  rw [Kernel.terminate]
  split
  · exact h.turns_reply _
  · cases hu : k.sched.threads.get? id with
    | none =>
      rw [Scheduler.terminate_unknown hu]
      exact h.turns_reply _
    | some u =>
      by_cases hdead : u.state = .dead
      · rw [Scheduler.terminate_dead hu hdead]
        exact h.turns_reply _
      · obtain ⟨report, s', heq, horderly, -, hburied, hinherited, hprevious, -⟩ :=
          h.settled.sched.terminate h.settled.emptyHanded hu hdead h.current h.record
        have hticks := h.settled.sched.ticks_terminate heq
        have hcurrent : s'.current = some me := hinherited.current.trans h.current
        rw [heq]
        let events := .threadTerminate id :: handoffEvents report.handoffs
        let ended := k.parted id s' events
        have hmidway : Midway false k ended me events :=
          h.midway_of_inherited hu hburied hinherited rfl
            (by simp [events, mem_handoffEvents]) (by simp [events, handoffEvents])
            (by simp [events, handoffEvents]) List.mem_cons_self rfl rfl rfl
            rfl rfl hticks rfl
        have hwaits : ∀ {pool j}, .wait pool j ∉ events := by simp [events, handoffEvents]
        let move : Move ε := .call (.threadTerminate id)
        have hexplained : ∀ event ∈ events, move.Explains me event :=
          List.forall_mem_cons.mpr ⟨.inl rfl, explains_handoffEvents⟩
        have hturn : ∀ {k' t'}, ended.Ends k' me t' → Own move events me t t' →
            ∃ events, Turn move false k k' me events := fun hends hown =>
          ⟨_, hmidway.turn h.record hends hown (fun hmem => absurd hmem hwaits)
            hexplained⟩
        show Turns move k me (if report.previous = .running then _ else if report.preempt then _
          else _)
        rw [parted_terminate]
        intro k' hrun
        by_cases hrunning : u.state = .running
        · -- A thread that terminates itself stands nowhere any more.
          obtain rfl := h.sole hu hrunning
          obtain rfl : t = u := Option.some.inj (h.record.symm.trans hu)
          rw [if_pos (hprevious.trans hrunning)] at hrun
          have hvacant : s'.Vacant := h.vacant_of_inherited hburied hinherited
          exact hturn (Kernel.switchNext_ends (k := ended) horderly hvacant hcurrent hburied hrun)
            (.died List.mem_cons_self _)
        · have hne : me ≠ id := Ne.symm (h.ne_of_not_running hu hrunning)
          have hrecord := h.record_of_inherited hinherited hne
          rw [if_neg (hprevious ▸ hrunning)] at hrun
          split at hrun
          · exact hturn (yield_ends (k := ended) horderly hcurrent hrecord h.running hrun)
              (.went _ rfl)
          · obtain rfl := Except.ok.inj hrun
            exact hturn (reply_ends (sole_of_orderly (k := ended) horderly hcurrent) hrecord
              h.running _) (.went _ rfl)

/-! ## Removal and the end of a program -/

/-- Whether a thread can be removed: it is dead, and none that the kernel cannot do without. -/
def removable (k : Kernel ε) (id : ThreadId) : Bool :=
  !k.stopped && !k.isSystemThread id && (k.sched.threads.get? id).any Thread.isDead

theorem removable_iff : k.removable id = true ↔ k.stopped = false ∧ k.isSystemThread id = false ∧
    ∃ t, k.sched.threads.get? id = some t ∧ t.state = .dead := by
  rw [removable]
  simp [Thread.isDead, Option.any_eq_true, and_assoc]

/-- The kernel without a thread and its entry, before the thread's stack is released. -/
def without (k : Kernel ε) (id : ThreadId) : Kernel ε :=
  ({ k with
    sched := { k.sched with threads := k.sched.threads.erase id }
    entries := k.entries.filter (·.1 != id) } : Kernel ε).emit (.threadDelete id)

/-- A removal is refused, or the thread is gone and what is left is to release its stack. -/
theorem Serving.delete_cases (h : k.Serving W me t) (id : ThreadId) :
    (k.removable id = false ∧ ∃ status, k.delete id = .ok (k.refuse status)) ∨
      ∃ u, k.sched.threads.get? id = some u ∧ u.state = .dead ∧ k.removable id = true ∧
        (k.without id).Serving W me t ∧ k.delete id =
          match u.stack with
          | none => .ok ((k.without id).reply (.ok .done))
          | some stack => (k.without id).free k.systemPool stack.address := by
  rw [Kernel.delete]
  split
  · next hsystem => exact .inl ⟨by simp [removable, hsystem], _, rfl⟩
  · next hsystem =>
    obtain ⟨hmain, hidle⟩ := ne_of_not_isSystemThread hsystem
    cases hu : k.sched.threads.get? id with
    | none =>
      rw [Scheduler.removeThread_unknown hu]
      exact .inl ⟨by simp [removable, hu], _, rfl⟩
    | some u =>
      rw [Scheduler.removeThread_eq hu]
      by_cases hdead : u.state = .dead
      · rw [if_pos hdead]
        have herased := h.erase hu hdead hmain hidle
        refine .inr ⟨u, rfl, hdead, by simp [removable, h.going, hsystem, hu, Thread.isDead, hdead],
          ⟨⟨herased.going, herased.settled, herased.current, herased.record, herased.running⟩,
            herased.unrivalled, herased.inside, herased.program⟩, ?_⟩
        cases hstack : u.stack <;>
        · simp only [Kernel.orRefuse, hstack]
          rfl
      · rw [if_neg hdead]
        exact .inl ⟨by simp [removable, hu, Thread.isDead, hdead], _, rfl⟩

theorem Serving.turns_delete (h : k.Serving W me t) (id : ThreadId) :
    Turns (.call (.threadDelete id)) k me (k.delete id) := by
  rcases h.delete_cases id with ⟨-, status, hrefused⟩ | ⟨u, hu, hdead, -, hserving, hremoved⟩
  · rw [hrefused]
    exact h.turns_reply _
  · have hplain : ∀ event ∈ [Trace.Event.threadDelete id], event.isPlain = true := by
      simp [Trace.Event.isPlain]
    have hmidway : Midway false k (k.without id) me [.threadDelete id] := by
      refine .of_plain hplain rfl rfl rfl rfl rfl (.of_eq rfl)
        (fun hnobody => absurd (List.mem_singleton_self _) (hnobody id)) fun j _ => ?_
      show Fate _ _ _ _ ((k.sched.threads.erase id).get? j)
      rw [Registry.get?_erase]
      split
      · next hj =>
        rw [hj, hu]
        exact .deleted hdead (List.mem_singleton_self _)
      · exact .kept rfl
    rw [hremoved]
    cases u.stack with
    | none =>
      exact hmidway.turns_reply hplain (by simp [Move.Explains]) h.record h.running hserving.sole
        hserving.record _
    | some stack =>
      exact hmidway.turns_free hplain (by simp [Move.Explains]) h.record hserving.toRuns _ _

/-- The thread whose program has ended stands where it last stood, but it is dead. -/
theorem Runs.turns_exit (h : k.Runs W me t) (hinside : k.gate.inside = false) :
    Turns .exit k me k.exit := by
  have halive : t.state ≠ .dead := by simp [h.running]
  obtain ⟨report, s', heq, horderly, -, hburied, hinherited, -, -⟩ :=
    h.settled.sched.terminate h.settled.emptyHanded h.record halive h.current h.record
  have hticks := h.settled.sched.ticks_terminate heq
  have hvacant : s'.Vacant := h.vacant_of_inherited hburied hinherited
  let events := handoffEvents report.handoffs ++ [.threadTerminate me]
  let ended := k.parted me s' events
  have hmidway : Midway false k ended me events :=
    h.midway_of_inherited h.record hburied hinherited rfl (by simp [events, mem_handoffEvents])
      (by simp [events, handoffEvents]) (by simp [events, handoffEvents])
      (List.mem_append_right _ (List.mem_singleton_self _)) rfl rfl rfl
      rfl rfl hticks rfl
  intro k' hrun
  obtain ⟨switch, s'', there, hpick, hthere, rfl⟩ := h.exit_eq_ok hinside heq hrun
  obtain ⟨id, u, hu, hready, rfl, rfl⟩ := horderly.pickNext_eq_ok hpick
  have hposition : u.position = some there := by
    rw [Scheduler.position?, Scheduler.get?_dispatched, if_pos rfl, hu] at hthere
    exact hthere
  obtain ⟨here, hhere⟩ :=
    Option.isSome_iff_exists.mp ((h.settled.placed h.record).position halive)
  -- The position in the record of the dead thread is noted a second time.
  have hparked : ∀ j, (s'.parked me here).threads.get? j = s'.threads.get? j := by
    intro j
    rw [Scheduler.get?_parked]
    split
    · next hj =>
      rw [hj, hburied, ← hhere]
      rfl
    · rfl
  have hpicked : s'.threads.get? id = some { u with position := some there } := by
    rw [← hposition]
    exact hu
  have hends := dispatched_ends (k := ended) hvacant hu hready hburied (fun j _ => hparked j)
    ((hparked id).trans hpicked)
  exact ⟨_, hmidway.turn h.record hends
    (.died (List.mem_append_right _ (List.mem_singleton_self _)) _)
    (by simp [events, handoffEvents]) (List.forall_mem_append.mpr
      ⟨explains_handoffEvents, List.forall_mem_singleton.mpr (.inr ⟨rfl, rfl⟩)⟩)⟩

end Kernel

end CoopKernel
