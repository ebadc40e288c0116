import CoopKernel.Proofs.Scheduler.Moves

/-!
# Moves of a mutex

A mutex is created and removed free, is locked by a thread that finds it free, and goes from one
owner to the next when it is given up. Each move is described as the moves of threads are: by an
equation, and by the statement that order is kept. Most moves change one record and one mutex, and
all there is to check is that these two agree (`Owned.change`). The hand-over is the one that
touches two threads at once.
-/

namespace CoopKernel.Scheduler

variable {κ : Type} {s : Scheduler κ} {id owner : ThreadId} {t : Thread κ} {m : MutexId} {x : Mutex}

theorem findMutex_eq (hx : s.mutexes.get? m = some x) : s.findMutex m = .ok x := by
  rw [findMutex, hx]

theorem findMutex_eq_error (hx : s.mutexes.get? m = none) : s.findMutex m = .error .invalidId := by
  rw [findMutex, hx]

/-! ## Waiters -/

theorem Owned.waiter_level {threads : Registry .thread (Thread κ)}
    {mutexes : Registry .mutex Mutex} (h : Owned threads mutexes) (hx : mutexes.get? m = some x)
    (ht : threads.get? id = some t) {p : Priority} (hmem : id ∈ x.waiters.level p) :
    p = t.priority := by
  obtain ⟨u, hu, _, hp⟩ := (h.mem_waiters hx _ _).mp hmem
  rw [ht, Option.some.injEq] at hu
  rw [← hp, hu]

/-- The owner of a mutex is the thread that holds it. -/
theorem Owned.owner_eq_iff {threads : Registry .thread (Thread κ)}
    {mutexes : Registry .mutex Mutex} (h : Owned threads mutexes) (hx : mutexes.get? m = some x)
    (ht : threads.get? id = some t) : x.owner = some id ↔ m ∈ t.held := by
  constructor
  · intro howner
    obtain ⟨u, hu, hheld⟩ := (h.owner_iff m id).mp ⟨x, hx, howner⟩
    obtain rfl : t = u := Option.some.inj (ht.symm.trans hu)
    exact hheld
  · intro hheld
    obtain ⟨y, hy, howner⟩ := (h.owner_iff m id).mpr ⟨t, ht, hheld⟩
    obtain rfl : x = y := Option.some.inj (hx.symm.trans hy)
    exact howner

/-- A mutex that a thread wants belongs to another one. -/
theorem Owned.owned_of_wanted {threads : Registry .thread (Thread κ)}
    {mutexes : Registry .mutex Mutex} (h : Owned threads mutexes) (hx : mutexes.get? m = some x)
    (ht : threads.get? id = some t) (hwanted : t.wanted = some m) :
    ∃ o, x.owner = some o ∧ o ≠ id := by
  obtain ⟨y, o, hy, ho, hne⟩ := h.wanted_owned ht hwanted
  obtain rfl : x = y := Option.some.inj (hx.symm.trans hy)
  exact ⟨o, ho, hne⟩

theorem Owned.owned_of_mem_waiters {threads : Registry .thread (Thread κ)}
    {mutexes : Registry .mutex Mutex} (h : Owned threads mutexes) (hx : mutexes.get? m = some x)
    {p : Priority} (hmem : id ∈ x.waiters.level p) : ∃ o, x.owner = some o ∧ o ≠ id := by
  obtain ⟨u, hu, hwanted, -⟩ := (h.mem_waiters hx id p).mp hmem
  exact h.owned_of_wanted hx hu hwanted

/-- A thread that wants nothing is in no queue of waiters. -/
theorem Owned.stopWaiting_eq {threads : Registry .thread (Thread κ)}
    {mutexes : Registry .mutex Mutex} (h : Owned threads mutexes) (hx : mutexes.get? m = some x)
    (ht : threads.get? id = some t) (hwanted : t.wanted ≠ some m) : x.stopWaiting id = x := by
  have hnone : x.waiters.takeLowest? (· == id) = none := by
    apply LevelQueue.takeLowest?_beq_eq_none
    intro p hmem
    obtain ⟨u, hu, hm, _⟩ := (h.mem_waiters hx _ _).mp hmem
    rw [ht, Option.some.injEq] at hu
    exact hwanted (hu ▸ hm)
  rw [Mutex.stopWaiting, hnone]

/-- A waiter that stops waiting is taken from the level of its priority. -/
theorem Owned.stopWaiting_of_wanted {threads : Registry .thread (Thread κ)}
    {mutexes : Registry .mutex Mutex} (h : Owned threads mutexes) (hx : mutexes.get? m = some x)
    (ht : threads.get? id = some t) (hwanted : t.wanted = some m) :
    x.stopWaiting id = { x with waiters := x.waiters.erase t.priority id } := by
  have hmem : id ∈ x.waiters.level t.priority := (h.mem_waiters hx _ _).mpr ⟨t, ht, hwanted, rfl⟩
  rw [Mutex.stopWaiting,
    LevelQueue.takeLowest?_beq hmem fun p hp => h.waiter_level hx ht hp]

/-- Ownership is kept when one record and one mutex change together, if the two agree afterwards and
what they say about others is what they said before. -/
theorem Owned.change {threads : Registry .thread (Thread κ)} {mutexes : Registry .mutex Mutex}
    (h : Owned threads mutexes) (ht : threads.get? id = some t) (hx : mutexes.get? m = some x)
    {f : Thread κ → Thread κ} {g : Mutex → Mutex} (hpriority : (f t).priority = t.priority)
    (hheld : ∀ m', m' ∈ (f t).held ↔ if m' = m then (g x).owner = some id else m' ∈ t.held)
    (hwanted : ∀ m', m' ≠ m → ((f t).wanted = some m' ↔ t.wanted = some m'))
    (howner : ∀ j, j ≠ id → ((g x).owner = some j ↔ x.owner = some j))
    (hmem : ∀ j p, j ∈ (g x).waiters.level p ↔
      if j = id then (f t).wanted = some m ∧ t.priority = p else j ∈ x.waiters.level p)
    (hnodup : ∀ p, ((g x).waiters.level p).Nodup)
    (hother : ∀ j p, j ∈ (g x).waiters.level p → ∃ o, (g x).owner = some o ∧ o ≠ j) :
    Owned (threads.modify id f) (mutexes.modify m g) := by
  have hself : (threads.modify id f).get? id = some (f t) := by
    rw [Registry.get?_modify_self, ht, Option.map_some]
  have hothers : ∀ j, j ≠ id → (threads.modify id f).get? j = threads.get? j := by
    intro j hj
    rw [Registry.get?_modify, if_neg hj]
  have hchanged : (mutexes.modify m g).get? m = some (g x) := by
    rw [Registry.get?_modify_self, hx, Option.map_some]
  have hkept : ∀ m', m' ≠ m → (mutexes.modify m g).get? m' = mutexes.get? m' := by
    intro m' hm
    rw [Registry.get?_modify, if_neg hm]
  -- The new books about the mutex, in terms of the new records.
  have hqueue : ∀ j p, j ∈ (g x).waiters.level p ↔
      ∃ u, (threads.modify id f).get? j = some u ∧ u.wanted = some m ∧ u.priority = p := by
    intro j p
    rw [hmem]
    by_cases hj : j = id
    · subst hj
      simp [hself, hpriority]
    · rw [if_neg hj, hothers j hj]
      exact h.mem_waiters hx j p
  refine ⟨?_, ?_, ?_, ?_⟩
  · intro m' j
    by_cases hj : j = id
    · subst hj
      by_cases hm : m' = m
      · subst hm
        simp [hself, hchanged, hheld]
      · rw [hkept m' hm, h.owner_iff]
        simp [hself, ht, hheld, hm]
    · rw [hothers j hj, ← h.owner_iff]
      by_cases hm : m' = m
      · subst hm
        simp [hchanged, hx, howner j hj]
      · rw [hkept m' hm]
  · intro m' x' hx' j p
    by_cases hm : m' = m
    · subst hm
      obtain rfl := Option.some.inj (hchanged.symm.trans hx')
      exact hqueue j p
    · rw [hkept m' hm] at hx'
      rw [h.mem_waiters hx']
      by_cases hj : j = id
      · subst hj
        simp [hself, ht, hpriority, hwanted m' hm]
      · rw [hothers j hj]
  · intro m' x' hx' p
    by_cases hm : m' = m
    · subst hm
      obtain rfl := Option.some.inj (hchanged.symm.trans hx')
      exact hnodup p
    · exact h.nodup_waiters (hkept m' hm ▸ hx') p
  · intro j u m' hu hm'
    by_cases hm : m' = m
    · subst hm
      obtain ⟨o, ho, hne⟩ := hother j u.priority ((hqueue j _).mpr ⟨u, hu, hm', rfl⟩)
      exact ⟨g x, o, hchanged, ho, hne⟩
    · rw [hkept m' hm]
      by_cases hj : j = id
      · subst hj
        obtain rfl := Option.some.inj (hself.symm.trans hu)
        exact h.wanted_owned ht ((hwanted m' hm).mp hm')
      · exact h.wanted_owned (hothers j hj ▸ hu) hm'

/-- A thread that wants a mutex no more leaves its queue. -/
theorem Owned.renounce {threads : Registry .thread (Thread κ)} {mutexes : Registry .mutex Mutex}
    (h : Owned threads mutexes) (ht : threads.get? id = some t) (hwanted : t.wanted = some m)
    {f : Thread κ → Thread κ} (hpriority : (f t).priority = t.priority)
    (hheld : (f t).held = t.held) (hnone : (f t).wanted = none) :
    Owned (threads.modify id f) (mutexes.modify m (·.stopWaiting id)) := by
  obtain ⟨x, o, hx, ho, hne⟩ := h.wanted_owned ht hwanted
  have hstop := h.stopWaiting_of_wanted hx ht hwanted
  have hmem : ∀ j p, j ∈ (x.stopWaiting id).waiters.level p ↔ j ∈ x.waiters.level p ∧ j ≠ id := by
    intro j p
    rw [hstop]
    exact LevelQueue.mem_level_erase (h.nodup_waiters hx _) fun hp => h.waiter_level hx ht hp
  have howner : (x.stopWaiting id).owner = x.owner := by rw [hstop]
  refine h.change ht hx hpriority ?_ ?_ ?_ ?_ ?_ ?_
  · intro m'
    rw [hheld, howner]
    split
    · next heq => rw [heq, h.owner_eq_iff hx ht]
    · rfl
  · intro m' hm
    rw [hnone, hwanted]
    simp [Ne.symm hm]
  · exact fun j _ => by rw [howner]
  · intro j p
    rw [hmem]
    split
    · next heq => simp [heq, hnone]
    · next hj => simp [hj]
  · intro p
    rw [hstop]
    exact LevelQueue.nodup_level_erase (h.nodup_waiters hx p)
  · intro j p hj
    rw [howner]
    exact h.owned_of_mem_waiters hx ((hmem j p).mp hj).1

/-! ## Creating and removing -/

theorem Owned.add {threads : Registry .thread (Thread κ)} {mutexes : Registry .mutex Mutex}
    (h : Owned threads mutexes) (ho : mutexes.Ordered) : Owned threads (mutexes.add {}) := by
  have hget := Registry.get?_add ho {}
  have hfresh := Registry.get?_nextHandle ho
  have hempty : ∀ p, ({} : Mutex).waiters.level p = [] := by
    intro p
    cases p <;> rfl
  refine ⟨?_, ?_, ?_, ?_⟩
  · intro m' j
    rw [← h.owner_iff, hget]
    grind
  · intro m' x' hx' j p
    rw [hget] at hx'
    split at hx'
    · next heq =>
      obtain rfl := Option.some.inj hx'
      rw [hempty]
      constructor
      · exact fun hmem => absurd hmem List.not_mem_nil
      · rintro ⟨u, hu, hwanted, -⟩
        obtain ⟨y, -, hy, -, -⟩ := h.wanted_owned hu hwanted
        rw [heq, hfresh] at hy
        simp at hy
    · exact h.mem_waiters hx' j p
  · intro m' x' hx' p
    rw [hget] at hx'
    split at hx'
    · obtain rfl := Option.some.inj hx'
      rw [hempty]
      exact List.nodup_nil
    · exact h.nodup_waiters hx' p
  · intro j u m' hu hm'
    obtain ⟨x', o, hx', hxo, hne⟩ := h.wanted_owned hu hm'
    refine ⟨x', o, ?_, hxo, hne⟩
    have hold : m' ≠ mutexes.nextHandle := by
      rintro rfl
      simp [hfresh] at hx'
    rw [hget, if_neg hold, hx']

theorem Orderly.createMutex (h : s.Orderly) : s.createMutex.2.Orderly :=
  ⟨h.threads, h.mutexes.add {}, h.tidy, h.running, h.queued, h.owned.add h.mutexes⟩

theorem Owned.erase {threads : Registry .thread (Thread κ)} {mutexes : Registry .mutex Mutex}
    (h : Owned threads mutexes) (hx : mutexes.get? m = some x) (hfree : x.owner = none) :
    Owned threads (mutexes.erase m) := by
  have hget := Registry.get?_erase mutexes m
  refine ⟨?_, ?_, ?_, ?_⟩
  · intro m' j
    rw [← h.owner_iff, hget]
    grind
  · intro m' x' hx' j p
    rw [hget] at hx'
    split at hx'
    · simp at hx'
    · exact h.mem_waiters hx' j p
  · intro m' x' hx'
    rw [hget] at hx'
    split at hx'
    · simp at hx'
    · exact h.nodup_waiters hx'
  · intro j u m' hu hm'
    -- What somebody wants has an owner, so it is not the mutex that is removed.
    obtain ⟨x', o, hx', hxo, hne⟩ := h.wanted_owned hu hm'
    refine ⟨x', o, ?_, hxo, hne⟩
    rw [hget]
    grind

/-- What a caller gets that asks for a mutex to be removed: it is removed unless it is locked. -/
theorem deleteMutex_eq (hx : s.mutexes.get? m = some x) :
    s.deleteMutex m =
      if x.isLocked then .error .invalidState
      else .ok { s with mutexes := s.mutexes.erase m } := by
  rw [deleteMutex, findMutex_eq hx]
  show (if x.isLocked then _ else _) = _
  cases x.isLocked <;> rfl

theorem deleteMutex_eq_ok {s' : Scheduler κ} (hok : s.deleteMutex m = .ok s') :
    ∃ x, s.mutexes.get? m = some x ∧ x.owner = none ∧
      s' = { s with mutexes := s.mutexes.erase m } := by
  cases hx : s.mutexes.get? m with
  | none =>
    rw [deleteMutex, findMutex_eq_error hx] at hok
    cases hok
  | some x =>
    rw [deleteMutex_eq hx] at hok
    split at hok
    · cases hok
    · next hunlocked =>
      exact ⟨x, rfl, by simpa [Mutex.isLocked] using hunlocked, (Except.ok.inj hok).symm⟩

theorem Orderly.deleteMutex (h : s.Orderly) (hx : s.mutexes.get? m = some x)
    (hfree : x.owner = none) : ({ s with mutexes := s.mutexes.erase m } : Scheduler κ).Orderly :=
  ⟨h.threads, h.mutexes.erase m, h.tidy, h.running, h.queued, h.owned.erase hx hfree⟩

/-! ## Locking -/

/-- The scheduler after a thread has locked a free mutex. -/
def locked (s : Scheduler κ) (m : MutexId) (id : ThreadId) : Scheduler κ :=
  (s.updateMutex m fun x => { x with owner := some id }).update id (·.hold m)

theorem tryLock_free (hx : s.mutexes.get? m = some x) (hfree : x.owner = none)
    (ht : s.threads.get? id = some t) : s.tryLock m id = .ok (true, s.locked m id) := by
  rw [tryLock, findMutex_eq hx]
  simp only [bind, Except.bind, Except.mapError, hfree, expect_eq ht]
  rfl

theorem tryLock_own (hx : s.mutexes.get? m = some x) (howner : x.owner = some id) :
    s.tryLock m id = .error (.refused .invalidState) := by
  rw [tryLock, findMutex_eq hx]
  simp only [bind, Except.bind, Except.mapError, howner]
  rfl

theorem tryLock_other (hx : s.mutexes.get? m = some x) (howner : x.owner = some owner)
    (hne : owner ≠ id) : s.tryLock m id = .ok (false, s) := by
  rw [tryLock, findMutex_eq hx]
  simp only [bind, Except.bind, Except.mapError, howner]
  exact if_neg hne

theorem tryLock_unknown (hx : s.mutexes.get? m = none) :
    s.tryLock m id = .error (.refused .invalidId) := by
  rw [tryLock, findMutex_eq_error hx]
  rfl

theorem get?_locked (s : Scheduler κ) (m : MutexId) (id other : ThreadId) :
    (s.locked m id).threads.get? other =
      if other = id then (s.threads.get? id).map (·.hold m) else s.threads.get? other :=
  Registry.get?_modify s.threads id other _

/-- Nobody wants a mutex that is free. -/
theorem Owned.not_wanted {threads : Registry .thread (Thread κ)}
    {mutexes : Registry .mutex Mutex} (h : Owned threads mutexes) (hx : mutexes.get? m = some x)
    (hfree : x.owner = none) (ht : threads.get? id = some t) : t.wanted ≠ some m := by
  intro hm
  obtain ⟨o, ho, -⟩ := h.owned_of_wanted hx ht hm
  rw [hfree] at ho
  simp at ho

theorem Owned.lock {threads : Registry .thread (Thread κ)} {mutexes : Registry .mutex Mutex}
    (h : Owned threads mutexes) (hx : mutexes.get? m = some x) (hfree : x.owner = none)
    (ht : threads.get? id = some t) :
    Owned (threads.modify id (·.hold m))
      (mutexes.modify m fun x => { x with owner := some id }) := by
  have hnobody : ∀ j p, j ∉ x.waiters.level p := by
    intro j p hmem
    obtain ⟨o, ho, -⟩ := h.owned_of_mem_waiters hx hmem
    rw [hfree] at ho
    simp at ho
  have hwanted := h.not_wanted hx hfree ht
  refine h.change ht hx rfl ?_ (fun _ _ => .rfl) ?_ ?_ (h.nodup_waiters (x := x) hx) ?_
  · intro m'
    rw [Thread.mem_held_hold]
    split
    · next heq => simp [heq]
    · next hm => simp [hm]
  · intro j hj
    simp [hfree, Ne.symm hj]
  · intro j p
    split
    · exact ⟨fun hmem => absurd hmem (hnobody j p), fun hboth => absurd hboth.1 hwanted⟩
    · rfl
  · exact fun j p hmem => absurd hmem (hnobody j p)

theorem Orderly.locked (h : s.Orderly) (hx : s.mutexes.get? m = some x) (hfree : x.owner = none)
    (ht : s.threads.get? id = some t) : (s.locked m id).Orderly := by
  have hplace : (t.hold m).place = s.place id := by rw [place_eq ht]; rfl
  have hmutexes : (s.mutexes.modify m fun x => { x with owner := some id }).Ordered :=
    h.mutexes.modify m _
  refine h.modify (f := fun t => t.hold m) ht rfl hmutexes rfl ((h.tidy ht).hold m)
    (fun hrunning => hrunning) ?_ (h.owned.lock hx hfree ht)
  rw [hplace, Function.update_eq_self]
  exact h.queued

/-! ## Waiting -/

/-- The scheduler after a thread has begun to wait for a mutex. -/
def enlisted (s : Scheduler κ) (m : MutexId) (id : ThreadId) (p : Priority) (timeout : Timeout) :
    Scheduler κ :=
  { s with
    threads := s.threads.modify id fun t =>
      { t.arm .mutex timeout with state := .waiting, wanted := some m }
    mutexes := s.mutexes.modify m (·.addWaiter id p)
    waiting := s.waiting.add .mutex id }

theorem waitForMutex_eq (ht : s.threads.get? id = some t) (hx : s.mutexes.get? m = some x)
    (timeout : Timeout) :
    s.waitForMutex m id timeout = .ok (s.enlisted m id t.priority timeout) := by
  let wanting : Scheduler κ :=
    (s.updateMutex m (·.addWaiter id t.priority)).update id fun t => { t with wanted := some m }
  have hwanting : wanting.threads.get? id = some { t with wanted := some m } := by
    show (s.threads.modify id _).get? id = _
    rw [Registry.get?_modify_self, ht, Option.map_some]
  rw [waitForMutex, find_eq ht, findMutex_eq hx]
  show (wanting.block id .mutex timeout).mapError Failure.broken = _
  rw [block_eq hwanting]
  simp only [wanting, Scheduler.suspended, Scheduler.enlisted, Scheduler.update, updateMutex,
    Registry.modify_modify]
  rfl

theorem get?_enlisted (s : Scheduler κ) (m : MutexId) (id other : ThreadId) (p : Priority)
    (timeout : Timeout) :
    (s.enlisted m id p timeout).threads.get? other =
      if other = id then
        (s.threads.get? id).map fun t =>
          { t.arm .mutex timeout with state := .waiting, wanted := some m }
      else s.threads.get? other :=
  Registry.get?_modify s.threads id other _

/-- A thread that wants nothing begins to want a mutex of somebody else. -/
theorem Owned.enlist {threads : Registry .thread (Thread κ)} {mutexes : Registry .mutex Mutex}
    (h : Owned threads mutexes) (hx : mutexes.get? m = some x) (howner : x.owner = some owner)
    (hne : owner ≠ id) (ht : threads.get? id = some t) (hnone : t.wanted = none)
    {f : Thread κ → Thread κ} (hpriority : (f t).priority = t.priority)
    (hheld : (f t).held = t.held) (hwanted : (f t).wanted = some m) :
    Owned (threads.modify id f) (mutexes.modify m (·.addWaiter id t.priority)) := by
  -- A queue holds each waiter once, so it matters that the thread is not there yet.
  have hnew : ∀ p, id ∉ x.waiters.level p := by
    intro p hmem
    obtain ⟨u, hu, hm, _⟩ := (h.mem_waiters hx _ _).mp hmem
    obtain rfl : t = u := Option.some.inj (ht.symm.trans hu)
    rw [hnone] at hm
    simp at hm
  have hmem : ∀ j p, j ∈ (x.addWaiter id t.priority).waiters.level p ↔
      j ∈ x.waiters.level p ∨ (p = t.priority ∧ j = id) :=
    fun _ _ => LevelQueue.mem_level_push
  refine h.change ht hx hpriority ?_ ?_ (fun _ _ => .rfl) ?_ ?_ ?_
  · intro m'
    rw [hheld]
    split
    · next heq => exact heq ▸ (h.owner_eq_iff hx ht).symm
    · rfl
  · intro m' hm
    rw [hwanted, hnone]
    simp [Ne.symm hm]
  · intro j p
    rw [hmem]
    split
    · next heq => simp [heq, hnew, hwanted, eq_comm]
    · next hj => simp [hj]
  · exact fun p => LevelQueue.nodup_level_push (h.nodup_waiters hx p) (hnew t.priority)
  · intro j p hj
    rcases (hmem j p).mp hj with hold | ⟨-, rfl⟩
    · obtain ⟨o, ho, hneOwner⟩ := h.owned_of_mem_waiters hx hold
      exact ⟨o, ho, hneOwner⟩
    · exact ⟨owner, howner, hne⟩

theorem Orderly.enlisted (h : s.Orderly) (hx : s.mutexes.get? m = some x)
    (howner : x.owner = some owner) (hne : owner ≠ id) (ht : s.threads.get? id = some t)
    (hstate : t.state = .running) (timeout : Timeout) :
    (s.enlisted m id t.priority timeout).Orderly := by
  have htidy := h.tidy ht
  have hplace : s.place id = none := by rw [place_eq ht, Thread.place, hstate]
  have hnone : t.wanted = none := htidy.wanted_eq_none (by simp [hstate])
  have hmutexes : (s.mutexes.modify m (·.addWaiter id t.priority)).Ordered :=
    h.mutexes.modify m _
  refine h.modify
    (f := fun t => { t.arm .mutex timeout with state := .waiting, wanted := some m }) ht rfl
    hmutexes rfl ?_ (by simp) (h.queued.join_waiting hplace .mutex)
    (h.owned.enlist hx howner hne ht hnone rfl rfl rfl)
  exact ⟨by simp [Thread.arm], by simp [Thread.arm], by simp [Thread.arm], htidy.held⟩

/-- A thread that goes on after a wait has already been taken off the mutex's queue, whether it got
the mutex or not, so that settling the wait only looks. -/
theorem Orderly.finishMutexWait_eq (h : s.Orderly) (ht : s.threads.get? id = some t)
    (hnone : t.wanted = none) (m : MutexId) :
    s.finishMutexWait m id =
      .ok ((s.mutexes.get? m).any fun x => x.owner == some id, s) := by
  have hthreads : (s.update id fun t => { t with wanted := none }) = s := by
    rw [Scheduler.update, Registry.modify_eq_self h.threads]
    intro u hu
    rw [ht, Option.some.injEq] at hu
    rw [← hu, ← hnone]
  rw [Scheduler.finishMutexWait, expect_eq ht]
  simp only [bind, Except.bind, hthreads]
  cases hx : s.mutexes.get? m with
  | none => rfl
  | some x =>
    have hmutexes : s.updateMutex m (·.stopWaiting id) = s := by
      rw [updateMutex, Registry.modify_eq_self h.mutexes]
      intro y hy
      rw [hx, Option.some.injEq] at hy
      rw [← hy]
      exact h.owned.stopWaiting_eq hx ht (by simp [hnone])
    rw [hmutexes]
    rfl

/-! ## Ending a wait without the mutex -/

/-- The scheduler after a thread has stopped waiting for a mutex. -/
def resigned (s : Scheduler κ) (m : MutexId) (id : ThreadId) (p : Priority) : Scheduler κ :=
  { s with
    threads := s.threads.modify id fun t => { t.disarm with wanted := none, state := .ready }
    mutexes := s.mutexes.modify m (·.stopWaiting id)
    ready := s.ready.push p id
    waiting := s.waiting.remove .mutex id }

theorem get?_resigned (s : Scheduler κ) (m : MutexId) (id other : ThreadId) (p : Priority) :
    (s.resigned m id p).threads.get? other =
      if other = id then
        (s.threads.get? id).map fun t => { t.disarm with wanted := none, state := .ready }
      else s.threads.get? other :=
  Registry.get?_modify s.threads id other _

theorem Orderly.resigned (h : s.Orderly) (ht : s.threads.get? id = some t)
    (hwanted : t.wanted = some m) : (s.resigned m id t.priority).Orderly := by
  have htidy := h.tidy ht
  have hplace : s.place id = some (.waiting .mutex) := by
    rw [place_eq ht, htidy.place_waiting (htidy.waiting_of_wanted hwanted).2]
  have hmutexes : (s.mutexes.modify m (·.stopWaiting id)).Ordered := h.mutexes.modify m _
  refine h.modify (f := fun t => { t.disarm with wanted := none, state := .ready }) ht rfl hmutexes
    rfl ?_ (by simp) ?_ (h.owned.renounce ht hwanted rfl rfl rfl)
  · exact ⟨by simp [Thread.disarm], by simp [Thread.disarm], by simp [Thread.disarm], htidy.held⟩
  · have hleft := h.queued.leave_waiting hplace
    have hjoined := hleft.join_ready (Function.update_self id none s.place) t.priority
    rw [Function.update_idem] at hjoined
    exact hjoined

end CoopKernel.Scheduler
