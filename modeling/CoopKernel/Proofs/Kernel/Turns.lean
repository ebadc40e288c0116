import CoopKernel.Proofs.Kernel.Runs
import CoopKernel.Proofs.Kernel.Standing
import CoopKernel.Proofs.Memory.Leases
import CoopKernel.Proofs.Scheduler.Chime

/-!
# Turns

A turn is what the running thread does in one go inside the section: a call, the rest of a call, the
delivery of one interrupt, or the end of a program. `Kernel.Turn` says in full what a turn can do to
the threads and what it reports about it:

* the running thread comes to stand somewhere else, and what it holds and waits for changes only in
  the ways of `Own`;
* every other thread meets one of the fates in `Fate`;
* a mutex is reported to be passed to a thread exactly if the thread receives it, and a wait for
  memory exactly if the running thread begins one;
* a result is only reported by a thread on its way out of the section, and the beginning, the end
  and the removal of a thread and the end of a mutex only where it was asked for (`Move.Explains`);
* memory that is allocated stays so unless it is reported to be released, and nobody comes before
  somebody else in the queue of those who wait for it (`Keeps`); a thread that is reported to be
  created has a stack that is allocated, and an entry (`Enrols`).

A turn is put together from two parts: what is done before the call ends (`Kernel.Midway`) and the
end itself (`Kernel.Ends`).
-/

namespace CoopKernel

variable {ε : Type}

/-- Whether an event says neither that a thread was created, nor that a mutex was passed on, nor
that a thread waits for memory, nor that a result reached a thread. -/
def Trace.Event.isPlain : Trace.Event → Bool
  | .threadCreate _ _ => false
  | .handoff _ _ => false
  | .wait _ _ => false
  | .ioDone _ _ => false
  | _ => true

/-- Whether an allocation is for the stack of a new thread. -/
def Purpose.isStack : Purpose ε → Bool
  | .stack _ _ => true
  | .address => false

/-- The pool that a thread at a position waits for, if it needs a stack for a new thread. -/
def Position.stackPool? : Position ε → Option PoolId
  | .inside (.allocate pool _ (.stack _ _)) => some pool
  | _ => none

/-- Nothing is left to be allocated once it is settled how the thread comes to its program. -/
theorem Position.stackPool?_eq_none {here : Position ε} {arrival : Arrival ε}
    (h : here.arrival? = some arrival) : here.stackPool? = none := by
  cases here with
  | delivering _ => rfl
  | inside pending =>
    cases pending with
    | allocate _ _ _ => cases h
    | _ => rfl

/-- What a thread's move has to be for an event to be reported in it: threads neither begin nor end
nor go, and mutexes do not go, unless that is asked for. -/
def Move.Explains (move : Move ε) (me : ThreadId) : Trace.Event → Prop
  | .threadActivate id => move = .call (.threadActivate id)
  | .threadTerminate id => move = .call (.threadTerminate id) ∨ move = .exit ∧ id = me
  | .threadDelete id => move = .call (.threadDelete id)
  | .mutexDelete x => move = .call (.mutexDelete x)
  | _ => True

/-- What a turn does to a thread that does not run. `ticking` says whether the turn takes a tick,
and `events` is what it reports. -/
inductive Fate (ticking : Bool) (events : List Trace.Event) (id : ThreadId) :
    Option (Thread (Position ε)) → Option (Thread (Position ε)) → Prop
  /-- Nothing. -/
  | kept {t? : Option (Thread (Position ε))} (hticking : ticking = false) :
    Fate ticking events id t? t?
  /-- It is counted down by a tick, if it waits for time or for a mutex. -/
  | chimed {t? : Option (Thread (Position ε))} (hticking : ticking = true) :
    Fate ticking events id t? (t?.map Thread.chime)
  | created {t : Thread (Position ε)} (hblank : t.Blank)
    (hreported : .threadCreate id t.priority ∈ events) : Fate ticking events id none (some t)
  | deleted {t : Thread (Position ε)} (hdead : t.state = .dead)
    (hreported : .threadDelete id ∈ events) : Fate ticking events id (some t) none
  /-- It is to begin its program. -/
  | activated {t : Thread (Position ε)} (hdead : t.state = .dead) (entry : Destination ε)
    (hreported : .threadActivate id ∈ events) : Fate ticking events id (some t)
      (some { t with state := .ready, position := some (.delivering entry) })
  /-- Its life is ended. -/
  | buried {t : Thread (Position ε)} (hreported : .threadTerminate id ∈ events) :
    Fate ticking events id (some t) (some { t.bury with held := [] })
  /-- A release of memory ends its wait. -/
  | served {t : Thread (Position ε)} (hreason : t.waitingFor = some .memory) :
    Fate ticking events id (some t) (some { t.disarm with state := .ready })
  /-- A result ends its wait. -/
  | informed {t : Thread (Position ε)} (hreason : t.waitingFor = some .io) {result : Int32}
    (hreported : .ioDone id result ∈ events) :
    Fate ticking events id (some t)
      (some { ({ t with result } : Thread (Position ε)).disarm with state := .ready })
  /-- The mutex that it wants is passed to it. -/
  | received {t : Thread (Position ε)} {m : MutexId} (hwanted : t.wanted = some m)
    (hreported : .handoff m id ∈ events) : Fate ticking events id (some t) (some (t.receive m))

section

variable {ticking : Bool} {events : List Trace.Event} {id : ThreadId} {u : Thread (Position ε)}
  {t? u? : Option (Thread (Position ε))}

/-- A thread that waits for something else than time while somebody else has a turn waited for it
before. -/
theorem Fate.eq_of_untimed (h : Fate ticking events id t? (some u)) (hstate : u.state = .waiting)
    {reason : WaitReason} (hreason : u.waitingFor = some reason) (huntimed : reason.timed = false) :
    t? = some u := by
  generalize hafter : some u = after at h
  cases h with
  | kept _ => rfl
  | chimed _ =>
    obtain ⟨t, rfl, rfl⟩ := Option.map_eq_some_iff.mp hafter.symm
    -- Ticks count for time only, so they cannot have counted for the thread.
    have huntimed : t.waitingFor.any WaitReason.timed = false := by
      rw [Thread.chime] at hreason
      split at hreason
      · next htimed =>
        rcases t.waitingFor_countedDown with hsame | hnone
        · rw [← hsame, hreason, Option.any_some, huntimed] at htimed
          cases htimed
        · rw [hnone] at hreason
          cases hreason
      · next hnot => simpa using hnot
    rw [Option.map_some, Thread.chime_of_untimed huntimed]
  | created hblank _ =>
    obtain rfl := Option.some.inj hafter
    simp [hblank.dead] at hstate
  | deleted _ _ => cases hafter
  | _ =>
    obtain rfl := Option.some.inj hafter
    cases hstate

/-- More may have been reported than what happened to one thread. -/
theorem Fate.mono (h : Fate ticking events id t? u?) (event : Trace.Event) :
    Fate ticking (events ++ [event]) id t? u? := by
  cases h with
  | kept hticking => exact .kept hticking
  | chimed hticking => exact .chimed hticking
  | created hblank hreported => exact .created hblank (List.mem_append_left _ hreported)
  | deleted hdead hreported => exact .deleted hdead (List.mem_append_left _ hreported)
  | activated hdead entry hreported =>
    exact .activated hdead entry (List.mem_append_left _ hreported)
  | buried hreported => exact .buried (List.mem_append_left _ hreported)
  | served hreason => exact .served hreason
  | informed hreason hreported => exact .informed hreason (List.mem_append_left _ hreported)
  | received hwanted hreported => exact .received hwanted (List.mem_append_left _ hreported)

end

/-- What a turn does to the thread whose turn it is. -/
inductive Own (move : Move ε) (events : List Trace.Event) (me : ThreadId)
    (t : Thread (Position ε)) : Thread (Position ε) → Prop
  /-- It goes on, now or later. -/
  | went (here : Position ε) (hplain : here.stackPool? = none) :
    Own move events me t { t with state := .ready, position := some here }
  /-- It acquires a mutex and goes on. -/
  | took {m : MutexId} {timeout : Timeout} (hmove : move = .call (.mutexAcquire m timeout))
    (here : Position ε) (hplain : here.stackPool? = none) :
    Own move events me t { t.hold m with state := .ready, position := some here }
  /-- It gives a mutex up and goes on. -/
  | gave {m : MutexId} (hmove : move = .call (.mutexRelease m)) (here : Position ε)
    (hplain : here.stackPool? = none) :
    Own move events me t { t.letGo m with state := .ready, position := some here }
  /-- It waits for time or for a result. -/
  | slept {reason : WaitReason} (hmutex : reason ≠ .mutex) (hmemory : reason ≠ .memory)
    (hresult : reason = .io → ∃ interrupts, move = .call (.awaitIo (.raising interrupts)))
    (timeout : Timeout) (here : Position ε) (hplain : here.stackPool? = none) :
    Own move events me t
      { t.arm reason timeout with state := .waiting, position := some here }
  /-- It waits for a mutex. -/
  | queued {m : MutexId} {timeout : Timeout} (hmove : move = .call (.mutexAcquire m timeout))
    (hwaits : timeout.normalized ≠ .immediate) :
    Own move events me t
      { t.arm .mutex timeout.normalized with
        state := .waiting, wanted := some m, position := some (.inside (.acquire m me)) }
  /-- It waits for memory. -/
  | starved {pool : PoolId} (hreported : .wait pool me ∈ events) (size : Nat)
    (purpose : Purpose ε) :
    Own move events me t
      { t.arm .memory .infinite with
        state := .waiting, position := some (.inside (.allocate pool size purpose)) }
  /-- Its life is over. -/
  | died (hreported : .threadTerminate me ∈ events) (position : Option (Position ε)) :
    Own move events me t { t.bury with held := [], position }

namespace Kernel

variable {W : PoolId → Prop} {k k' m : Kernel ε} {me id : ThreadId} {t t' : Thread (Position ε)}
  {move : Move ε} {ticking : Bool} {events : List Trace.Event}

/-- The pools from which the stack of a new thread may come: the system pool, and the one at which
the running thread has waited for it. -/
def MayStackFrom (k : Kernel ε) (pool : PoolId) : Prop :=
  pool = k.systemPool ∨ ∃ here, k.activity.position? = some here ∧ here.stackPool? = some pool

/-- What a turn leaves of the pools. -/
structure Keeps (pools pools' : Memory.Pools) (events : List Trace.Event) : Prop where
  /-- What is allocated stays allocated, unless it is reported to be released. -/
  leases : ∀ {pool address size}, pools.Leases pool address size →
    pools'.Leases pool address size ∨ .free pool address ∈ events
  /-- At each level of the memory queue threads only leave, or one that is reported to wait comes
  last. -/
  queue : ∀ p, (pools'.waiters.level p).Sublist (pools.waiters.level p) ∨
    ∃ pool id, .wait pool id ∈ events ∧
      pools'.waiters.level p = pools.waiters.level p ++ [(id, pool)]

/-- Unless a thread is reported to be removed, the entries stay, and those that are new belong to
the threads that are reported to be created. -/
def Enrols (entries entries' : List (ThreadId × Destination ε)) (events : List Trace.Event) :
    Prop :=
  (∀ id, .threadDelete id ∉ events) → ∃ newcomers : List (ThreadId × ε),
    entries' = entries ++ newcomers.map (fun newcomer => (newcomer.1, .start newcomer.2)) ∧
      ∀ id, id ∈ newcomers.map Prod.fst ↔ ∃ p, .threadCreate id p ∈ events

/-- What a turn of a thread makes of a kernel. -/
structure Turn (move : Move ε) (ticking : Bool) (k k' : Kernel ε) (me : ThreadId)
    (events : List Trace.Event) : Prop where
  line : k'.line = k.line
  stopped : k'.stopped = k.stopped
  fixed : k'.fixed = k.fixed
  ticks : k'.sched.ticks = k.sched.ticks + ticking.toNat
  underway : k'.activity.position?.isSome = true
  journal : k.Reports k' events
  own : ∃ t t', k.sched.threads.get? me = some t ∧ k'.standing me = some t' ∧
    Own move events me t t'
  others : ∀ j, j ≠ me → Fate ticking events j (k.sched.threads.get? j) (k'.standing j)
  handoffs : ∀ {m j}, .handoff m j ∈ events → ticking = false ∧ ∃ u,
    k.sched.threads.get? j = some u ∧ u.wanted = some m ∧ k'.standing j = some (u.receive m)
  waits : ∀ {pool j}, .wait pool j ∈ events → j = me ∧ ∃ t' size purpose,
    k'.standing me = some t' ∧ t'.waitingFor = some .memory ∧
      t'.position = some (.inside (.allocate pool size purpose)) ∧
      (purpose.isStack = true → k.MayStackFrom pool)
  results : ∀ {j r}, .ioDone j r ∈ events →
    ticking = false ∧ ∃ destination, k.activity = .delivering destination
  explained : ∀ event ∈ events, move.Explains me event
  keeps : Keeps k.pools k'.pools events
  enrols : Enrols k.entries k'.entries events
  creations : ∀ {j p}, .threadCreate j p ∈ events → ∃ t stack pool,
    k'.standing j = some t ∧ t.stack = some stack ∧
      k'.pools.Leases pool stack.address stack.size ∧ k.MayStackFrom pool ∧
      .alloc pool stack.address stack.size ∈ events

/-- Whatever kernel an operation gives is one that a turn without a tick makes of `k`. -/
def Turns (move : Move ε) (k : Kernel ε) (me : ThreadId)
    (outcome : Except Invariant (Kernel ε)) : Prop :=
  ∀ k', outcome = .ok k' → ∃ events, Turn move false k k' me events

/-- A kernel in the middle of a turn. -/
structure Midway (ticking : Bool) (k m : Kernel ε) (me : ThreadId) (events : List Trace.Event) :
    Prop where
  line : m.line = k.line
  stopped : m.stopped = k.stopped
  fixed : m.fixed = k.fixed
  ticks : m.sched.ticks = k.sched.ticks + ticking.toNat
  journal : m.journal = k.journal ++ events.map fun event => { event, tick := m.sched.ticks }
  others : ∀ j, j ≠ me → Fate ticking events j (k.sched.threads.get? j) (m.sched.threads.get? j)
  handoffs : ∀ {x j}, .handoff x j ∈ events → ticking = false ∧ j ≠ me ∧ ∃ u,
    k.sched.threads.get? j = some u ∧ u.wanted = some x ∧
      m.sched.threads.get? j = some (u.receive x)
  results : ∀ {j r}, .ioDone j r ∈ events →
    ticking = false ∧ ∃ destination, k.activity = .delivering destination
  keeps : Keeps k.pools m.pools events
  enrols : Enrols k.entries m.entries events
  creations : ∀ {j p}, .threadCreate j p ∈ events → j ≠ me ∧ ∃ t stack pool,
    m.sched.threads.get? j = some t ∧ t.stack = some stack ∧
      m.pools.Leases pool stack.address stack.size ∧ k.MayStackFrom pool ∧
      .alloc pool stack.address stack.size ∈ events

/-! ## Putting turns together -/

theorem Keeps.of_registry {pools pools' : Memory.Pools} (h : pools'.registry = pools.registry)
    (hqueue : ∀ p, (pools'.waiters.level p).Sublist (pools.waiters.level p)) :
    Keeps pools pools' events :=
  ⟨fun hleases => .inl (hleases.of_registry h), fun p => .inl (hqueue p)⟩

theorem Keeps.of_eq {pools pools' : Memory.Pools} (h : pools' = pools) :
    Keeps pools pools' events := by
  subst h
  exact .of_registry rfl fun _ => List.Sublist.refl _

/-- Nobody joins the queue or leaves it when memory is allocated, or a pool comes or goes. -/
theorem Keeps.of_leases {pools pools' : Memory.Pools} (hwaiters : pools'.waiters = pools.waiters)
    (hleases : ∀ {pool address size}, pools.Leases pool address size →
      pools'.Leases pool address size) : Keeps pools pools' events :=
  ⟨fun h => .inl (hleases h), fun _ => .inl (hwaiters ▸ List.Sublist.refl _)⟩

/-- Entries that are as they were are those of a turn that creates nobody. -/
theorem Enrols.of_eq {entries entries' : List (ThreadId × Destination ε)}
    (h : entries' = entries) (hnobody : ∀ id p, .threadCreate id p ∉ events) :
    Enrols entries entries' events := fun _ =>
  ⟨[], by simp [h], by simp [hnobody]⟩

/-- More may be reported that says nothing of who comes and goes. -/
theorem Enrols.mono {entries entries' : List (ThreadId × Destination ε)}
    (h : Enrols entries entries' events) (event : Trace.Event)
    (hcreation : ∀ id p, event ≠ .threadCreate id p) :
    Enrols entries entries' (events ++ [event]) := by
  intro hnobody
  obtain ⟨newcomers, heq, hnew⟩ := h fun id hmem => hnobody id (List.mem_append_left _ hmem)
  refine ⟨newcomers, heq, fun id => (hnew id).trans ?_⟩
  simp [Ne.symm (hcreation id _)]

theorem threadCreate_not_mem (hplain : ∀ event ∈ events, event.isPlain = true) {j : ThreadId}
    {p : Priority} : .threadCreate j p ∉ events :=
  fun hmem => absurd (hplain _ hmem) (by simp [Trace.Event.isPlain])

theorem handoff_not_mem (hplain : ∀ event ∈ events, event.isPlain = true) {x : MutexId}
    {j : ThreadId} : .handoff x j ∉ events :=
  fun hmem => absurd (hplain _ hmem) (by simp [Trace.Event.isPlain])

theorem wait_not_mem (hplain : ∀ event ∈ events, event.isPlain = true) {pool : PoolId}
    {j : ThreadId} : .wait pool j ∉ events :=
  fun hmem => absurd (hplain _ hmem) (by simp [Trace.Event.isPlain])

theorem ioDone_not_mem (hplain : ∀ event ∈ events, event.isPlain = true) {j : ThreadId}
    {r : Int32} : .ioDone j r ∉ events :=
  fun hmem => absurd (hplain _ hmem) (by simp [Trace.Event.isPlain])

/-- A turn is over when its end has come. -/
theorem Midway.turn (h : Midway ticking k m me events) (ht : k.sched.threads.get? me = some t)
    (hends : m.Ends k' me t') (hown : Own move events me t t')
    (hwaits : ∀ {pool j}, .wait pool j ∈ events → j = me ∧ ∃ size purpose,
      t'.waitingFor = some .memory ∧ t'.position = some (.inside (.allocate pool size purpose)) ∧
        (purpose.isStack = true → k.MayStackFrom pool))
    (hexplained : ∀ event ∈ events, move.Explains me event) :
    Turn move ticking k k' me events where
  line := hends.line.trans h.line
  stopped := hends.stopped.trans h.stopped
  fixed := hends.fixed.trans h.fixed
  ticks := hends.ticks.trans h.ticks
  underway := hends.underway
  journal := .of_emitted h.journal hends.ticks hends.journal
  own := ⟨t, t', ht, hends.own, hown⟩
  others := by
    intro j hj
    rw [hends.others j hj]
    exact h.others j hj
  handoffs := by
    intro x j hmem
    obtain ⟨hticking, hj, u, hu, hwanted, hreceived⟩ := h.handoffs hmem
    exact ⟨hticking, u, hu, hwanted, (hends.others j hj).trans hreceived⟩
  waits := by
    intro pool j hmem
    obtain ⟨hj, size, purpose, hreason, hposition, hfrom⟩ := hwaits hmem
    exact ⟨hj, t', size, purpose, hends.own, hreason, hposition, hfrom⟩
  results := h.results
  explained := hexplained
  keeps := by
    rw [hends.pools]
    exact h.keeps
  enrols := by
    rw [hends.entries]
    exact h.enrols
  creations := by
    intro j p hmem
    obtain ⟨hj, u, stack, pool, hu, hstack, hleases, hfrom⟩ := h.creations hmem
    exact ⟨u, stack, pool, (hends.others j hj).trans hu, hstack, hends.pools ▸ hleases, hfrom⟩

/-- Most turns have nothing to say about passed mutexes or waits for memory. -/
theorem Midway.plain_turn (h : Midway ticking k m me events)
    (hplain : ∀ event ∈ events, event.isPlain = true)
    (hexplained : ∀ event ∈ events, move.Explains me event)
    (ht : k.sched.threads.get? me = some t) (hends : m.Ends k' me t')
    (hown : Own move events me t t') : Turn move ticking k k' me events :=
  h.turn ht hends hown (fun hmem => absurd hmem (wait_not_mem hplain)) hexplained

/-- What has been done so far, if nothing was reported that is not plain. -/
theorem Midway.of_plain (hplain : ∀ event ∈ events, event.isPlain = true)
    (hline : m.line = k.line) (hstopped : m.stopped = k.stopped) (hfixed : m.fixed = k.fixed)
    (hticks : m.sched.ticks = k.sched.ticks + ticking.toNat)
    (hjournal : m.journal =
      k.journal ++ events.map fun event => { event, tick := m.sched.ticks })
    (hkeeps : Keeps k.pools m.pools events) (henrols : Enrols k.entries m.entries events)
    (hothers : ∀ j, j ≠ me →
      Fate ticking events j (k.sched.threads.get? j) (m.sched.threads.get? j)) :
    Midway ticking k m me events :=
  ⟨hline, hstopped, hfixed, hticks, hjournal, hothers,
    fun hmem => absurd hmem (handoff_not_mem hplain),
    fun hmem => absurd hmem (ioDone_not_mem hplain), hkeeps, henrols,
    fun hmem => absurd hmem (threadCreate_not_mem hplain)⟩

theorem Midway.refl (k : Kernel ε) (me : ThreadId) : Midway false k k me [] :=
  .of_plain (by simp) rfl rfl rfl rfl (by simp) (.of_eq rfl) (.of_eq rfl (by simp))
    fun _ _ => .kept rfl

theorem Runs.sole (h : k.Runs W me t) : k.Sole me := h.eq_of_running

theorem Turn.turns (h : Turn move false k k' me events) : Turns move k me (.ok k') := by
  rintro _ ⟨⟩
  exact ⟨events, h⟩

/-- A reply is a turn, also after something else than threads has changed. -/
theorem Midway.turns_reply (h : Midway false k m me events)
    (hplain : ∀ event ∈ events, event.isPlain = true)
    (hexplained : ∀ event ∈ events, move.Explains me event)
    (ht : k.sched.threads.get? me = some t) (hrunning : t.state = .running) (hsole : m.Sole me)
    (hsame : m.sched.threads.get? me = some t) (answer : Answer) :
    Turns move k me (.ok (m.reply answer)) :=
  (h.plain_turn hplain hexplained ht (reply_ends hsole hsame hrunning answer) (.went _ rfl)).turns

theorem Runs.turns_reply (h : k.Runs W me t) (answer : Answer) :
    Turns move k me (.ok (k.reply answer)) :=
  (Midway.refl k me).turns_reply (by simp) (by simp) h.record h.running h.sole h.record answer

/-- A reply after something else than threads has changed, and an event was reported. -/
theorem Runs.turns_aside (h : k.Runs W me t) {s : Scheduler (Position ε)} {pools : Memory.Pools}
    {event : Trace.Event} (hplain : event.isPlain = true) (hexplained : move.Explains me event)
    (hthreads : s.threads = k.sched.threads) (hticks : s.ticks = k.sched.ticks)
    (hkeeps : Keeps k.pools pools [event]) (answer : Answer) :
    Turns move k me
      (.ok ((({ k with sched := s, pools } : Kernel ε).emit event).reply answer)) := by
  have hsole : (({ k with sched := s, pools } : Kernel ε).emit event).Sole me := by
    intro j u hu
    change s.threads.get? j = some u at hu
    rw [hthreads] at hu
    exact h.sole hu
  have hmidway : Midway false k (({ k with sched := s, pools } : Kernel ε).emit event) me [event] :=
    .of_plain (by simpa using hplain) rfl rfl rfl hticks rfl hkeeps
      (.of_eq rfl fun _ _ => threadCreate_not_mem (by simpa using hplain)) fun j _ => by
        show Fate _ _ _ _ (s.threads.get? j)
        rw [hthreads]
        exact .kept rfl
  refine hmidway.turns_reply (by simpa using hplain) (by simpa using hexplained) h.record h.running
    hsole ?_ answer
  show s.threads.get? me = some t
  rw [hthreads, h.record]

theorem Runs.turns_orRefuse (h : k.Runs W me t) {α : Type} {outcome : Except Status α}
    {next : α → Except Invariant (Kernel ε)}
    (hnext : ∀ value, outcome = .ok value → Turns move k me (next value)) :
    Turns move k me (k.orRefuse outcome next) := by
  cases outcome with
  | ok value => exact hnext value rfl
  | error status => exact h.turns_reply (.error status)

theorem Runs.turns_orRefusePool (h : k.Runs W me t) {α : Type}
    {outcome : Except Memory.PoolError α} {next : α → Except Invariant (Kernel ε)}
    (hnext : ∀ value, outcome = .ok value → Turns move k me (next value)) :
    Turns move k me (k.orRefusePool outcome next) := by
  refine h.turns_orRefuse ?_
  cases outcome with
  | ok value =>
    rintro _ ⟨⟩
    exact hnext value rfl
  | error status =>
    rintro _ ⟨⟩

/-! ## Pools that come and go, and new mutexes -/

theorem Runs.turns_poolCreate (h : k.Runs W me t) (base size : Nat) :
    Turns move k me (k.poolCreate base size) :=
  h.turns_orRefusePool fun (_, _) hok =>
    h.turns_aside rfl (by trivial) rfl rfl
      (.of_leases (Memory.Pools.waiters_create hok) (·.create h.settled.books hok)) _

theorem Runs.turns_poolDelete (h : k.Runs W me t) (pool : PoolId) :
    Turns move k me (k.poolDelete pool) :=
  h.turns_orRefusePool fun _ hok =>
    h.turns_aside rfl (by trivial) rfl rfl
      (.of_leases (Memory.Pools.waiters_delete hok) (·.delete h.settled.books hok)) _

theorem Runs.turns_mutexCreate (h : k.Runs W me t) : Turns move k me k.mutexCreate := by
  rw [mutexCreate]
  exact h.turns_aside (s := k.sched.createMutex.2) rfl (by trivial) rfl rfl (.of_eq rfl) _

end Kernel

end CoopKernel
