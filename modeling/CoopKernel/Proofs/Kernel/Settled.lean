import CoopKernel.Kernel.Basic
import CoopKernel.Proofs.Memory.Pools
import CoopKernel.Proofs.Scheduler.Membership
import CoopKernel.Proofs.Scheduler.Rousing

/-!
# Settled kernels

A kernel is settled when its parts agree: the scheduler is orderly, every thread can go on from
where it stands, and the memory queue holds exactly the threads that wait for memory. A kernel is
settled between any two of its steps, and also at the moments inside a call when the processor may
be given away.

## Coverage

A thread that waits for memory of a pool depends on somebody else: on an allocation that may be
released, or on a thread that has been woken to try the pool again (`Thread.Retries`). A pool is
covered if its waiting threads have such a reason to hope (`Kernel.Covered`). Coverage is not kept
by every step, so the pools for which it is asserted are a parameter `W` of the invariant.
-/

namespace CoopKernel

variable {ε : Type}

/-! ## Where threads stand -/

/-- A stack is never asked for with the priority of the idle thread. -/
def Purpose.Fits : Purpose ε → Prop
  | .address => True
  | .stack _ priority => priority ≠ .idle

/-- What is left of a call belongs to the thread that made it, and asks for memory that fits. -/
def Pending.Fits (pools : Memory.Pools) (id : ThreadId) : Pending ε → Prop
  | .reply _ => True
  | .acquire _ me => me = id
  | .allocate pool size purpose => pools.Fits pool size ∧ purpose.Fits
  | .awaitIo me => me = id

/-- The thread waits for that on which the rest of its call depends. -/
def Pending.Awaited (thread : Thread (Position ε)) : Pending ε → Prop
  | .reply _ => thread.waitingFor = some .sleep
  | .acquire mutex _ => thread.waitingFor = some .mutex ∧ thread.wanted = some mutex
  | .allocate _ _ _ => thread.waitingFor = some .memory
  | .awaitIo _ => thread.waitingFor = some .io

/-- Whether what is left of a call is to try a pool again. -/
def Pending.Retries (pool : PoolId) : Pending ε → Prop
  | .allocate other _ _ => other = pool
  | _ => False

/-- Whether going on at a position is to try a pool again. -/
def Position.Retries (pool : PoolId) : Position ε → Prop
  | .inside pending => pending.Retries pool
  | .delivering _ => False

/-- Whether a thread is about to try a pool again. -/
def Thread.Retries (thread : Thread (Position ε)) (pool : PoolId) : Prop :=
  thread.state = .ready ∧ ∃ here, thread.position = some here ∧ here.Retries pool

/-- The pool for whose memory a thread waits, with the thread's priority. -/
def Thread.memoryWait (thread : Thread (Position ε)) : Option (Priority × PoolId) :=
  match thread.waitingFor, thread.position with
  | some .memory, some (.inside (.allocate pool _ _)) => some (thread.priority, pool)
  | _, _ => none

/-- A thread that is alive has a position. One that does not run goes on from there, and a waiting
one waits for the right thing. -/
structure Thread.Placed (thread : Thread (Position ε)) (pools : Memory.Pools) (id : ThreadId) :
    Prop where
  position : thread.state ≠ .dead → thread.position.isSome
  fits : thread.state = .ready ∨ thread.state = .waiting →
    ∀ pending, thread.position = some (.inside pending) → pending.Fits pools id
  awaited : thread.state = .waiting →
    ∃ pending, thread.position = some (.inside pending) ∧ pending.Awaited thread

namespace Scheduler

/-- The pool for whose memory a thread waits, with its priority. -/
def waits (s : Scheduler (Position ε)) (id : ThreadId) : Option (Priority × PoolId) :=
  (s.threads.get? id).bind Thread.memoryWait

/-- Some ready thread is about to try a pool again. -/
def Retried (s : Scheduler (Position ε)) (pool : PoolId) : Prop :=
  ∃ id t, s.threads.get? id = some t ∧ t.Retries pool

/-- No ready thread has a higher priority. -/
def Unrivalled {κ : Type} (s : Scheduler κ) (p : Priority) : Prop :=
  ∀ {id t}, s.threads.get? id = some t → t.state = .ready → t.priority ≤ p

/-- Nobody runs. -/
def Vacant {κ : Type} (s : Scheduler κ) : Prop :=
  ∀ {id t}, s.threads.get? id = some t → t.state ≠ .running

/-- The threads that a system cannot do without: the main thread lives, and the idle thread, alone
at the lowest level, can always run. -/
structure Roles {κ : Type} (s : Scheduler κ) (main idle : ThreadId) : Prop where
  apart : main ≠ idle
  alive : ∃ t, s.threads.get? main = some t ∧ t.state ≠ .dead
  spare : ∃ t, s.threads.get? idle = some t ∧ t.priority = .idle ∧
    (t.state = .ready ∨ t.state = .running)
  others : ∀ {id t}, s.threads.get? id = some t → id ≠ idle → t.priority ≠ .idle

end Scheduler

/-- Some allocation of a pool is live. -/
def Memory.Pools.Occupied (pools : Memory.Pools) (pool : PoolId) : Prop :=
  ∃ books, pools.registry.get? pool = some books ∧ books.live ≠ []

namespace Kernel

/-- If threads wait for memory of a pool, some of it may be released or is being tried again. -/
def Covered (s : Scheduler (Position ε)) (pools : Memory.Pools) (pool : PoolId) : Prop :=
  (∃ id p, s.waits id = some (p, pool)) → pools.Occupied pool ∨ s.Retried pool

/-- The parts of a kernel agree, and the pools in `W` are covered. -/
structure Settled (W : PoolId → Prop) (s : Scheduler (Position ε)) (pools : Memory.Pools)
    (main idle : ThreadId) : Prop where
  sched : s.Orderly
  emptyHanded : s.EmptyHanded
  roles : s.Roles main idle
  rests : ∀ {t}, s.threads.get? idle = some t → t.position = some (.delivering .rest)
  placed : ∀ {id t}, s.threads.get? id = some t → t.Placed pools id
  books : pools.Orderly
  waiting : Memory.Waiting s.waits pools.waiters
  registered : ∀ {id p pool}, s.waits id = some (p, pool) →
    ∃ books, pools.registry.get? pool = some books
  covered : ∀ {pool}, W pool → Covered s pools pool

end Kernel

/-! ## What rousing leaves alone -/

theorem Pending.Fits.mono {pools pools' : Memory.Pools} {id : ThreadId} {pending : Pending ε}
    (h : pending.Fits pools id) (hextends : pools.Extends pools') : pending.Fits pools' id := by
  cases pending with
  | allocate pool size purpose => exact ⟨h.1.mono hextends, h.2⟩
  | reply _ => exact h
  | acquire _ _ => exact h
  | awaitIo _ => exact h

namespace Thread

variable {t t' : Thread (Position ε)} {pools pools' : Memory.Pools} {id : ThreadId}

theorem memoryWait_eq_none (h : t.waitingFor ≠ some .memory) : t.memoryWait = none := by
  rw [memoryWait]
  split
  · next hreason _ => exact absurd hreason h
  · rfl

/-- A thread that waits for memory of a pool goes on by trying it again. -/
theorem memoryWait_eq_some {p : Priority} {pool : PoolId} (h : t.memoryWait = some (p, pool)) :
    t.waitingFor = some .memory ∧ t.priority = p ∧
      ∃ pending, t.position = some (.inside pending) ∧ pending.Retries pool := by
  rw [memoryWait] at h
  split at h
  · next other size purpose hreason hposition =>
    obtain ⟨rfl, rfl⟩ := Prod.ext_iff.mp (Option.some.inj h)
    exact ⟨hreason, rfl, _, hposition, rfl⟩
  · simp at h

/-- Two records are alike in the memory queue if neither thread waits for memory. -/
theorem memoryWait_congr (h : t.waitingFor ≠ some .memory) (h' : t'.waitingFor ≠ some .memory) :
    t'.memoryWait = t.memoryWait := by
  rw [memoryWait_eq_none h, memoryWait_eq_none h']

/-- Nobody tries a pool again but the ready. -/
theorem not_retries (h : t.state ≠ .ready) {pool : PoolId} : ¬ t.Retries pool :=
  fun hretries => h hretries.1

theorem memoryWait_of_running (h : t.Tidy) (hstate : t.state ≠ .waiting) :
    t.memoryWait = none :=
  memoryWait_eq_none (by simp [h.waitingFor_eq_none hstate])

/-- Rousing does not end waits for memory. -/
theorem Roused.memoryWait_eq (h : t.Roused t') (htidy : t'.Tidy) :
    t'.memoryWait = t.memoryWait := by
  rcases h.state with ⟨-, hreason, -⟩ | ⟨-, hreason, hready⟩
  · rw [Thread.memoryWait, Thread.memoryWait, hreason, h.position, h.priority]
  · rw [memoryWait_eq_none hreason, memoryWait_of_running htidy (by simp [hready])]

theorem Roused.retries (h : t.Roused t') {pool : PoolId} (hretries : t.Retries pool) :
    t'.Retries pool := by
  obtain ⟨hready, hposition⟩ := hretries
  exact ⟨(h.state_eq (by simp [hready])).trans hready, h.position ▸ hposition⟩

theorem Placed.roused (h : t.Placed pools id) (hroused : t.Roused t')
    (hextends : pools.Extends pools') : t'.Placed pools' id where
  position := by
    intro hstate
    rw [hroused.position]
    apply h.position
    intro hdead
    exact hstate ((hroused.state_eq (by simp [hdead])).trans hdead)
  fits := by
    intro hstate pending hposition
    rw [hroused.position] at hposition
    refine (h.fits ?_ pending hposition).mono hextends
    rcases hroused.state with ⟨hsame, -, -⟩ | ⟨hwaiting, -, -⟩
    · exact hsame ▸ hstate
    · exact .inr hwaiting
  awaited := by
    intro hstate
    obtain ⟨hsame, hreason, hwanted⟩ := hroused.eq_of_not_ready (by simp [hstate])
    obtain ⟨pending, hposition, hawaited⟩ := h.awaited (hsame ▸ hstate)
    refine ⟨pending, hroused.position.trans hposition, ?_⟩
    cases pending with
    | reply _ => exact hreason.trans hawaited
    | acquire _ _ => exact ⟨hreason.trans hawaited.1, hwanted.trans hawaited.2⟩
    | allocate _ _ _ => exact hreason.trans hawaited
    | awaitIo _ => exact hreason.trans hawaited

end Thread

namespace Scheduler

variable {s s' s'' : Scheduler (Position ε)} {id : ThreadId}

/-- Every thread but one is as it was, or is ready after a wait for something other than memory. -/
structure RousedBut (id : ThreadId) (s s' : Scheduler (Position ε)) : Prop where
  forth : ∀ {j t}, j ≠ id → s.threads.get? j = some t →
    ∃ t', s'.threads.get? j = some t' ∧ t.Roused t'
  back : ∀ {j t'}, j ≠ id → s'.threads.get? j = some t' →
    ∃ t, s.threads.get? j = some t ∧ t.Roused t'

theorem Roused.but (h : s.Roused s') (id : ThreadId) : RousedBut id s s' :=
  ⟨fun _ => h.forth, fun _ => h.back⟩

theorem RousedBut.of_get? (h : ∀ j, j ≠ id → s'.threads.get? j = s.threads.get? j) :
    RousedBut id s s' where
  forth := fun hj ht => ⟨_, (h _ hj).trans ht, .refl _⟩
  back := fun hj ht => ⟨_, (h _ hj).symm.trans ht, .refl _⟩

/-- What the threads wait for is changed at one thread at most. -/
theorem RousedBut.waits_eq (h : RousedBut id s s') (horderly : s'.Orderly) :
    s'.waits = Function.update s.waits id (s'.waits id) := by
  funext j
  rw [Function.update_apply]
  split
  · next heq => rw [heq]
  · next hj =>
    -- A thread that is roused had no wait for memory, and has none afterwards.
    rw [waits, waits]
    cases ht' : s'.threads.get? j with
    | some t' =>
      obtain ⟨t, ht, hroused⟩ := h.back hj ht'
      rw [ht, Option.bind_some, Option.bind_some, hroused.memoryWait_eq (horderly.tidy ht')]
    | none =>
      cases ht : s.threads.get? j with
      | none => rfl
      | some t =>
        obtain ⟨t', hsome, -⟩ := h.forth hj ht
        rw [ht'] at hsome
        simp at hsome

/-- What is tried again stays so when a thread changes that had no part in it. -/
theorem RousedBut.retried (h : RousedBut id s s') {pool : PoolId}
    (hnot : ∀ t, s.threads.get? id = some t → ¬ t.Retries pool) (hretried : s.Retried pool) :
    s'.Retried pool := by
  obtain ⟨j, t, ht, hretries⟩ := hretried
  have hj : j ≠ id := by
    rintro rfl
    exact hnot t ht hretries
  obtain ⟨t', ht', hroused⟩ := h.forth hj ht
  exact ⟨j, t', ht', hroused.retries hretries⟩

/-- The main thread does not die. -/
theorem Roles.ne_main {main idle : ThreadId} {t : Thread (Position ε)} (h : s.Roles main idle)
    (ht : s.threads.get? id = some t) (hdead : t.state = .dead) : id ≠ main := by
  rintro rfl
  obtain ⟨u, hu, halive⟩ := h.alive
  obtain rfl : t = u := Option.some.inj (ht.symm.trans hu)
  exact halive hdead

/-- The idle thread neither waits nor dies. -/
theorem Roles.ne_idle {main idle : ThreadId} {t : Thread (Position ε)} (h : s.Roles main idle)
    (ht : s.threads.get? id = some t) (hstate : t.state = .waiting ∨ t.state = .dead) :
    id ≠ idle := by
  rintro rfl
  obtain ⟨u, hu, -, hable⟩ := h.spare
  obtain rfl : t = u := Option.some.inj (ht.symm.trans hu)
  rcases hstate with hstate | hstate <;> simp [hstate] at hable

theorem Roles.change {main idle : ThreadId} {t t' : Thread (Position ε)} (h : s.Roles main idle)
    (ht : s.threads.get? id = some t) (hroused : RousedBut id s s')
    (ht' : s'.threads.get? id = some t') (hpriority : t'.priority = t.priority)
    (hmain : id = main → t'.state ≠ .dead)
    (hidle : id = idle → t'.state = .ready ∨ t'.state = .running) : s'.Roles main idle where
  apart := h.apart
  alive := by
    by_cases hj : main = id
    · exact ⟨t', hj ▸ ht', hmain hj.symm⟩
    · obtain ⟨u, hu, halive⟩ := h.alive
      obtain ⟨u', hu', hrousedU⟩ := hroused.forth hj hu
      exact ⟨u', hu', hrousedU.alive halive⟩
  spare := by
    obtain ⟨u, hu, hlevel, hable⟩ := h.spare
    by_cases hj : idle = id
    · obtain rfl : t = u := Option.some.inj (ht.symm.trans (hj ▸ hu))
      exact ⟨t', hj ▸ ht', hpriority.trans hlevel, hidle hj.symm⟩
    · obtain ⟨u', hu', hrousedU⟩ := hroused.forth hj hu
      have hsame : u'.state = u.state := by
        apply hrousedU.state_eq
        rcases hable with hready | hrunning
        · simp [hready]
        · simp [hrunning]
      exact ⟨u', hu', hrousedU.priority.trans hlevel, hsame ▸ hable⟩
  others := by
    intro j u' hu' hne
    by_cases hj : j = id
    · obtain rfl : t' = u' := Option.some.inj (ht'.symm.trans (hj ▸ hu'))
      rw [hpriority]
      exact h.others ht (hj ▸ hne)
    · obtain ⟨u, hu, hrousedU⟩ := hroused.back hj hu'
      rw [hrousedU.priority]
      exact h.others hu hne

end Scheduler

namespace Kernel

variable {W W' : PoolId → Prop} {s s' : Scheduler (Position ε)} {pools pools' : Memory.Pools}
  {main idle id : ThreadId} {t t' : Thread (Position ε)} {pool : PoolId}

/-! ## Coverage -/

theorem Settled.weaken (h : Settled W s pools main idle) (hW : ∀ {pool}, W' pool → W pool) :
    Settled W' s pools main idle :=
  { h with covered := fun hpool => h.covered (hW hpool) }

theorem Settled.position_idle (h : Settled W s pools main idle) (ht : s.threads.get? id = some t)
    (hid : id = idle) : t.position = some (.delivering .rest) := by
  subst hid
  exact h.rests ht

/-- Coverage is kept if nobody begins to wait, what is occupied stays occupied and what is retried
stays retried. -/
theorem Covered.mono (h : Covered s pools pool)
    (hwaits : ∀ {id p}, s'.waits id = some (p, pool) → ∃ id p, s.waits id = some (p, pool))
    (hoccupied : pools.Occupied pool → pools'.Occupied pool)
    (hretried : s.Retried pool → s'.Retried pool) : Covered s' pools' pool := by
  rintro ⟨id, p, hwaiting⟩
  exact (h (hwaits hwaiting)).imp hoccupied hretried

/-! ## Changing the scheduler -/

/-- A settled kernel stays settled when one thread changes and others are roused, if the thread that
changes is placed where it goes on and the memory queue follows. -/
theorem Settled.change (h : Settled W s pools main idle) (ht : s.threads.get? id = some t)
    (hroused : Scheduler.RousedBut id s s') (horderly : s'.Orderly)
    (ht' : s'.threads.get? id = some t') (hpriority : t'.priority = t.priority)
    (hdead : t'.state = .dead → t'.held = []) (hmain : id = main → t'.state ≠ .dead)
    (hidle : id = idle →
      (t'.state = .ready ∨ t'.state = .running) ∧ t'.position = some (.delivering .rest))
    (hplaced : t'.Placed pools' id) (hbooks : pools'.Orderly) (hextends : pools.Extends pools')
    (hwaiting : Memory.Waiting (Function.update s.waits id t'.memoryWait) pools'.waiters)
    (hregistered : ∀ {j p pool}, s'.waits j = some (p, pool) →
      ∃ books, pools'.registry.get? pool = some books)
    (hcovered : ∀ {pool}, W' pool → Covered s' pools' pool) : Settled W' s' pools' main idle where
  sched := horderly
  emptyHanded := by
    intro j u' hu' hstate
    by_cases hj : j = id
    · obtain rfl : t' = u' := Option.some.inj (ht'.symm.trans (hj ▸ hu'))
      exact hdead hstate
    · obtain ⟨u, hu, hrousedU⟩ := hroused.back hj hu'
      have hstateU : u.state = .dead :=
        (hrousedU.eq_of_not_ready (by simp [hstate])).1.symm.trans hstate
      rw [hrousedU.dead hstateU]
      exact h.emptyHanded hu hstateU
  roles := h.roles.change ht hroused ht' hpriority hmain fun hj => (hidle hj).1
  rests := by
    intro u' hu'
    by_cases hj : idle = id
    · obtain rfl : t' = u' := Option.some.inj (ht'.symm.trans (hj ▸ hu'))
      exact (hidle hj.symm).2
    · obtain ⟨u, hu, hrousedU⟩ := hroused.back hj hu'
      rw [hrousedU.position]
      exact h.rests hu
  placed := by
    intro j u' hu'
    by_cases hj : j = id
    · obtain rfl : t' = u' := Option.some.inj (ht'.symm.trans (hj ▸ hu'))
      exact hj ▸ hplaced
    · obtain ⟨u, hu, hrousedU⟩ := hroused.back hj hu'
      exact (h.placed hu).roused hrousedU hextends
  books := hbooks
  waiting := by
    have hwaits : s'.waits id = t'.memoryWait := by rw [Scheduler.waits, ht', Option.bind_some]
    rw [hroused.waits_eq horderly, hwaits]
    exact hwaiting
  registered := hregistered
  covered := hcovered

/-- A change of one thread that does not touch the memory queue: what the thread waits for in there
is the same, and it retries what it retried. -/
theorem Settled.alter (h : Settled W s pools main idle) (ht : s.threads.get? id = some t)
    (hroused : Scheduler.RousedBut id s s') (horderly : s'.Orderly)
    (ht' : s'.threads.get? id = some t') (hpriority : t'.priority = t.priority)
    (hdead : t'.state = .dead → t'.held = []) (hmain : id = main → t'.state ≠ .dead)
    (hidle : id = idle →
      (t'.state = .ready ∨ t'.state = .running) ∧ t'.position = some (.delivering .rest))
    (hplaced : t'.Placed pools id) (hwait : t'.memoryWait = t.memoryWait)
    (hretries : ∀ {pool}, W' pool → W pool ∧ (t.Retries pool → t'.Retries pool)) :
    Settled W' s' pools main idle := by
  have hsame : t'.memoryWait = s.waits id := by rw [hwait, Scheduler.waits, ht, Option.bind_some]
  have hwaits : s'.waits = s.waits := by
    rw [hroused.waits_eq horderly, Scheduler.waits, ht', Option.bind_some, hsame,
      Function.update_eq_self]
  have hwaiting : Memory.Waiting (Function.update s.waits id t'.memoryWait) pools.waiters := by
    rw [hsame, Function.update_eq_self]
    exact h.waiting
  refine h.change ht hroused horderly ht' hpriority hdead hmain hidle hplaced h.books (.refl pools)
    hwaiting (by rw [hwaits]; exact h.registered) ?_
  -- Whoever retried a pool still does: the thread that changed by assumption, the others because
  -- they were roused at most.
  intro pool hpool
  refine (h.covered (hretries hpool).1).mono (fun hwait => ⟨_, _, hwaits ▸ hwait⟩)
    (fun hoccupied => hoccupied) ?_
  rintro ⟨j, u, hu, hretriesU⟩
  by_cases hj : j = id
  · subst hj
    obtain rfl : t = u := Option.some.inj (ht.symm.trans hu)
    exact ⟨j, t', ht', (hretries hpool).2 hretriesU⟩
  · obtain ⟨u', hu', hrousedU⟩ := hroused.forth hj hu
    exact ⟨j, u', hu', hrousedU.retries hretriesU⟩

/-- Rousing leaves a kernel settled. -/
theorem Settled.roused (h : Settled W s pools main idle) (hroused : s.Roused s')
    (horderly : s'.Orderly) : Settled W s' pools main idle := by
  -- Any thread may stand for the one that changes, and the main thread is sure to exist.
  obtain ⟨t, ht, halive⟩ := h.roles.alive
  obtain ⟨t', ht', hrousedT⟩ := hroused.forth ht
  have halive' : t'.state ≠ .dead := hrousedT.alive halive
  exact h.alter ht (hroused.but main) horderly ht' hrousedT.priority
    (fun hdead => absurd hdead halive') (fun _ => halive')
    (fun hidle => absurd hidle h.roles.apart) ((h.placed ht).roused hrousedT (.refl pools))
    (hrousedT.memoryWait_eq (horderly.tidy ht')) fun hpool => ⟨hpool, hrousedT.retries⟩

/-! ## Changing the pools -/

/-- A settled kernel stays settled when its pools change under an unchanged memory queue. -/
theorem Settled.repool (h : Settled W s pools main idle) (hbooks : pools'.Orderly)
    (hextends : pools.Extends pools') (hwaiters : pools'.waiters = pools.waiters)
    (hregistered : ∀ {j p pool}, s.waits j = some (p, pool) →
      ∃ books, pools'.registry.get? pool = some books)
    (hcovered : ∀ {pool}, W' pool → Covered s pools' pool) : Settled W' s pools' main idle where
  sched := h.sched
  emptyHanded := h.emptyHanded
  roles := h.roles
  rests := h.rests
  placed := by
    intro j u hu
    exact (h.placed hu).roused (.refl u) hextends
  books := hbooks
  waiting := hwaiters ▸ h.waiting
  registered := hregistered
  covered := hcovered

/-- What is not covered yet may turn out to be covered. -/
theorem Settled.cover (h : Settled (fun other => W other ∧ other ≠ pool) s pools main idle)
    (hcovered : W pool → Covered s pools pool) : Settled W s pools main idle := by
  refine { h with covered := ?_ }
  intro other hother
  by_cases heq : other = pool
  · subst heq
    exact hcovered hother
  · exact h.covered ⟨hother, heq⟩

/-- Nobody waits for memory of a pool that does not exist. -/
theorem Settled.covered_unknown (h : Settled W s pools main idle)
    (hnone : pools.registry.get? pool = none) : Covered s pools pool := by
  rintro ⟨id, p, hwait⟩
  obtain ⟨books, hbooks⟩ := h.registered hwait
  rw [hnone] at hbooks
  simp at hbooks

/-! ## Threads that come and go -/

/-- Adding or removing a thread that is dead and holds nothing leaves a kernel settled. -/
theorem Settled.exchange (h : Settled W s pools main idle) (horderly : s'.Orderly)
    (hothers : ∀ j, j ≠ id → s'.threads.get? j = s.threads.get? j)
    (hold : ∀ t, s.threads.get? id = some t → t.Blank)
    (hnew : ∀ t, s'.threads.get? id = some t → t.Blank ∧ t.priority ≠ .idle)
    (hmain : id ≠ main) (hidle : id ≠ idle) : Settled W s' pools main idle := by
  have hblank : ∀ t : Thread (Position ε), t.Blank → t.memoryWait = none := fun t hblank =>
    Thread.memoryWait_of_running hblank.tidy (by simp [hblank.dead])
  -- A blank thread waits for no memory, so the memory queue does not see it come or go.
  have hwaits : s'.waits = s.waits := by
    have hnone : ∀ o : Option (Thread (Position ε)), (∀ t, o = some t → t.Blank) →
        o.bind Thread.memoryWait = none := by
      rintro (_ | t) hall
      · rfl
      · exact hblank t (hall t rfl)
    have hs : s.waits id = none := hnone _ hold
    have hs' : s'.waits id = none := hnone _ fun t ht => (hnew t ht).1
    rw [(Scheduler.RousedBut.of_get? hothers).waits_eq horderly, hs', ← hs, Function.update_eq_self]
  have hsame : ∀ {j u}, s'.threads.get? j = some u → u.state ≠ .dead →
      s.threads.get? j = some u := by
    intro j u hu halive
    by_cases hj : j = id
    · have hdead := (hnew u (hj ▸ hu)).1.dead
      exact absurd hdead halive
    · exact hothers j hj ▸ hu
  refine ⟨horderly, ?_, ⟨h.roles.apart, ?_, ?_, ?_⟩, ?_, ?_, h.books, hwaits ▸ h.waiting, ?_, ?_⟩
  · intro j u hu hdead
    by_cases hj : j = id
    · exact (hnew u (hj ▸ hu)).1.held
    · exact h.emptyHanded (hothers j hj ▸ hu) hdead
  · rw [hothers main (Ne.symm hmain)]
    exact h.roles.alive
  · rw [hothers idle (Ne.symm hidle)]
    exact h.roles.spare
  · intro j u hu hne
    by_cases hj : j = id
    · exact (hnew u (hj ▸ hu)).2
    · exact h.roles.others (hothers j hj ▸ hu) hne
  · rw [hothers idle (Ne.symm hidle)]
    exact h.rests
  · intro j u hu
    by_cases hdead : u.state = .dead
    · exact ⟨by simp [hdead], by simp [hdead], by simp [hdead]⟩
    · exact h.placed (hsame hu hdead)
  · rw [hwaits]
    exact h.registered
  · intro pool hpool
    refine (h.covered hpool).mono (fun hwait => ⟨_, _, hwaits ▸ hwait⟩)
      (fun hoccupied => hoccupied) ((Scheduler.RousedBut.of_get? hothers).retried ?_)
    intro u hu
    exact Thread.not_retries (by simp [(hold u hu).dead])

end Kernel

end CoopKernel
