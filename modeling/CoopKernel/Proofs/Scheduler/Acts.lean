import CoopKernel.Proofs.Scheduler.Arrivals
import CoopKernel.Proofs.Scheduler.Membership

/-!
# Schedulers in use

A scheduler is plain data, and its operations expect to be called at the right moments: a thread is
made ready when it is dead, the next one is picked when nobody runs, a thread that begins to wait
runs. An `Act` is one call of an operation, `Act.due` says when it may be made, and `Scheduler.run`
makes a list of acts and collects the threads that arrive at the ready queue meanwhile.

Whatever is done with a scheduler in this way, it stays orderly, and the threads in each of its
queues stand in the order in which they came (`Carries`): this is shown of one act
(`Orderly.carries_act`) and then of all runs (`carries_of_run`).
-/

namespace CoopKernel

variable {κ : Type}

/-- A call of an operation of a scheduler. -/
inductive Act (κ : Type)
  | addThread (stem : String) (priority : Priority) (stack : Option Stack)
  | removeThread (id : ThreadId)
  | adopt (id : ThreadId)
  | setPosition (id : ThreadId) (position : κ)
  | forgetPosition (id : ThreadId)
  | setResult (id : ThreadId) (result : Int32)
  | makeReady (id : ThreadId)
  | requeueCurrent
  | pickNext
  | block (id : ThreadId) (reason : WaitReason) (timeout : Timeout)
  | wake (id : ThreadId)
  | tick
  | createMutex
  | deleteMutex (mutex : MutexId)
  | tryLock (mutex : MutexId) (id : ThreadId)
  | waitForMutex (mutex : MutexId) (id : ThreadId) (timeout : Timeout)
  | finishMutexWait (mutex : MutexId) (id : ThreadId)
  | release (mutex : MutexId) (id : ThreadId)
  | terminate (id : ThreadId)

namespace Scheduler

/-- Where a thread stands in its life. -/
def state? (s : Scheduler κ) (id : ThreadId) : Option ThreadState :=
  (s.threads.get? id).map (·.state)

end Scheduler

namespace Act

/-- Whether an operation may be called. A wait for a mutex begins with `waitForMutex`, while
somebody else owns the mutex, and ends with a hand-over, a tick or a termination. -/
def due (s : Scheduler κ) : Act κ → Bool
  | adopt id => s.current.isNone && s.state? id == some .dead
  | makeReady id => s.state? id == some .dead
  | pickNext => s.current.all fun id => s.state? id != some .running
  | block id reason _ => s.state? id == some .running && reason != .mutex
  | wake id => (s.threads.get? id).any fun t => t.waitingFor.any (· != .mutex)
  | tryLock _ id => s.state? id == some .running
  | waitForMutex m id _ =>
    s.state? id == some .running && (s.mutexes.get? m).any fun x => x.owner.any (· != id)
  | finishMutexWait _ id => s.state? id == some .running
  | _ => true

/-- Calls an operation, unless it is refused. With the new scheduler comes the list of the threads
that have arrived at the ready queue, in this order. -/
def perform (s : Scheduler κ) : Act κ → Option (Scheduler κ × List ThreadId)
  | addThread stem priority stack => some ((s.addThread stem priority stack).2, [])
  | removeThread id => (s.removeThread id).toOption.map fun (_, s') => (s', [])
  | adopt id => (s.adopt id).toOption.map fun s' => (s', [])
  | setPosition id position => (s.setPosition id position).toOption.map fun s' => (s', [])
  | forgetPosition id => some (s.forgetPosition id, [])
  | setResult id result => some (s.update id fun t => { t with result }, [])
  | makeReady id => (s.makeReady id).toOption.map fun s' => (s', [id])
  | requeueCurrent => s.requeueCurrent.toOption.map fun s' =>
    (s', s.current.toList.filter fun id => s.state? id == some .running)
  | pickNext => s.pickNext.toOption.map fun (_, s') => (s', [])
  | block id reason timeout => (s.block id reason timeout).toOption.map fun s' => (s', [])
  | wake id => (s.wake id).toOption.map fun s' => (s', [id])
  | tick => s.tick.toOption.map fun (report, s') =>
    (s', report.woken ++ report.timedOut.map Prod.fst)
  | createMutex => some (s.createMutex.2, [])
  | deleteMutex m => (s.deleteMutex m).toOption.map fun s' => (s', [])
  | tryLock m id => (s.tryLock m id).toOption.map fun (_, s') => (s', [])
  | waitForMutex m id timeout => (s.waitForMutex m id timeout).toOption.map fun s' => (s', [])
  | finishMutexWait m id => (s.finishMutexWait m id).toOption.map fun (_, s') => (s', [])
  | release m id => (s.release m id).toOption.map fun (next, s') => (s', next.toList)
  | terminate id => (s.terminate id).toOption.map fun (report, s') =>
    (s', report.handoffs.map Prod.snd)

/-- Who begins to sleep or to wait for a mutex. -/
def begins : Act κ → List ThreadId
  | block id .sleep _ => [id]
  | waitForMutex _ id _ => [id]
  | _ => []

end Act

namespace Scheduler

/-- Makes a list of calls, each when it is due, and collects who arrives at the ready queue. The
result is nothing if some call is not due or is refused. -/
def run (s : Scheduler κ) : List (Act κ) → Option (Scheduler κ × List ThreadId)
  | [] => some (s, [])
  | act :: rest =>
    if act.due s then
      (act.perform s).bind fun (s', arrived) =>
        (s'.run rest).map fun (last, later) => (last, arrived ++ later)
    else none

variable {s s' s₁ last : Scheduler κ} {id : ThreadId} {t : Thread κ} {act : Act κ}
  {acts acts' : List (Act κ)} {arrived arrived' begun begun' : List ThreadId}

/-! ## Running -/

theorem run_cons_iff : s.run (act :: acts) = some (last, arrived) ↔
    ∃ s' first later, act.due s = true ∧ act.perform s = some (s', first) ∧
      s'.run acts = some (last, later) ∧ arrived = first ++ later := by
  rw [run]
  split
  · next hdue =>
    rw [Option.bind_eq_some_iff]
    constructor
    · rintro ⟨⟨s', first⟩, hperform, h⟩
      obtain ⟨⟨_, later⟩, hrest, h⟩ := Option.map_eq_some_iff.mp h
      obtain ⟨rfl, rfl⟩ := Prod.mk.inj h
      exact ⟨s', first, later, hdue, hperform, hrest, rfl⟩
    · rintro ⟨s', first, later, -, hperform, hrest, rfl⟩
      exact ⟨(s', first), hperform, Option.map_eq_some_iff.mpr ⟨_, hrest, rfl⟩⟩
  · next hnot =>
    constructor
    · intro h
      cases h
    · rintro ⟨_, _, _, hdue, -⟩
      exact absurd hdue hnot

theorem run_append (h : s.run acts = some (s', arrived))
    (h' : s'.run acts' = some (last, arrived')) :
    s.run (acts ++ acts') = some (last, arrived ++ arrived') := by
  induction acts generalizing s arrived with
  | nil =>
    obtain ⟨rfl, rfl⟩ := Prod.mk.inj (Option.some.inj h)
    exact h'
  | cons act rest ih =>
    obtain ⟨s₁, first, later, hdue, hperform, hrest, rfl⟩ := run_cons_iff.mp h
    exact run_cons_iff.mpr ⟨s₁, first, _, hdue, hperform, ih hrest, List.append_assoc ..⟩

theorem run_singleton (hdue : act.due s = true) (hperform : act.perform s = some (s', arrived)) :
    s.run [act] = some (s', arrived) :=
  run_cons_iff.mpr ⟨s', arrived, [], hdue, hperform, rfl, (List.append_nil _).symm⟩

/-! ## One call -/

/-- What a call, or calls in a row, make of an orderly scheduler. -/
structure Carries (s s' : Scheduler κ) (arrived begun : List ThreadId) : Prop where
  orderly : s'.Orderly
  emptyHanded : s'.EmptyHanded
  shifts : s.Shifts s' arrived begun

/-- The dead hold nothing either after the record of a thread has changed that is not dead. -/
theorem EmptyHanded.modify (h : s.EmptyHanded) (f : Thread κ → Thread κ)
    (hthreads : s'.threads = s.threads.modify id f)
    (hf : ∀ t, s.threads.get? id = some t → (f t).state = .dead → (f t).held = []) :
    s'.EmptyHanded := by
  intro j u hu hdead
  rw [hthreads, Registry.get?_modify] at hu
  split at hu
  · obtain ⟨t, ht, rfl⟩ := Option.map_eq_some_iff.mp hu
    exact hf t ht hdead
  · exact h hu hdead

/-- A record that is not dead does not matter. -/
theorem EmptyHanded.alive (h : s.EmptyHanded) (f : Thread κ → Thread κ)
    (hthreads : s'.threads = s.threads.modify id f) (hf : ∀ t, (f t).state ≠ .dead) :
    s'.EmptyHanded :=
  h.modify f hthreads fun t _ hdead => absurd hdead (hf t)

theorem Orderly.carries_refl (h : s.Orderly) (hempty : s.EmptyHanded) : s.Carries s [] [] :=
  ⟨h, hempty, .of_eq rfl rfl rfl⟩

/-- Noting something down that says neither where a thread stands nor what it holds. -/
theorem Orderly.carries_update (h : s.Orderly) (hempty : s.EmptyHanded) (id : ThreadId)
    {f : Thread κ → Thread κ}
    (hsame : ∀ t, (f t).state = t.state ∧ (f t).waitingFor = t.waitingFor ∧
      (f t).priority = t.priority ∧ (f t).held = t.held ∧ (f t).wanted = t.wanted ∧
      (f t).countdown = t.countdown) : s.Carries (s.update id f) [] [] := by
  cases ht : s.threads.get? id with
  | none =>
    have hnobody : s.update id f = s := by
      rw [Scheduler.update, Registry.modify_eq_self h.threads (by simp [ht])]
    rw [hnobody]
    exact h.carries_refl hempty
  | some t =>
    obtain ⟨hstate, hwaiting, hpriority, hheld, hwanted, hcountdown⟩ := hsame t
    have htidy := h.tidy ht
    have htidy' : (f t).Tidy := by
      refine ⟨?_, ?_, ?_, ?_⟩
      · rw [hstate, hwaiting]
        exact htidy.waiting_iff
      · rw [hwaiting, hcountdown]
        exact htidy.countdown
      · rw [hwanted, hwaiting]
        exact htidy.wanted_iff
      · rw [hheld]
        exact htidy.held
    refine ⟨h.update ht htidy' hstate hwaiting hpriority hheld hwanted,
      hempty.modify f rfl fun u hu hdead => ?_, .of_eq rfl rfl rfl⟩
    obtain ⟨hstate, -, -, hheld, -, -⟩ := hsame u
    exact hheld.trans (hempty hu (hstate ▸ hdead))

/-! ### Threads that come and go -/

theorem Orderly.carries_addThread (h : s.Orderly) (hempty : s.EmptyHanded) (stem : String)
    (p : Priority) (stack : Option Stack) : s.Carries (s.addThread stem p stack).2 [] [] := by
  have hblank := blank_newcomer s stem p stack
  refine ⟨h.add hblank, fun {j u} hu hdead => ?_, .of_eq rfl rfl rfl⟩
  change (s.threads.add (s.newcomer stem p stack)).get? j = some u at hu
  rw [Registry.get?_add h.threads] at hu
  split at hu
  · exact Option.some.inj hu ▸ hblank.held
  · exact hempty hu hdead

theorem Orderly.carries_removeThread (h : s.Orderly) (hempty : s.EmptyHanded)
    (hok : s.removeThread id = .ok (t, s')) : s.Carries s' [] [] := by
  cases ht : s.threads.get? id with
  | none =>
    rw [removeThread_unknown ht] at hok
    cases hok
  | some u =>
    rw [removeThread_eq ht] at hok
    split at hok
    · next hdead =>
      obtain ⟨-, rfl⟩ := Prod.mk.inj (Except.ok.inj hok)
      refine ⟨h.erase ht ⟨h.tidy ht, hdead, hempty ht hdead⟩, fun {j v} hv hstate => ?_,
        .of_eq rfl rfl rfl⟩
      change (s.threads.erase id).get? j = some v at hv
      rw [Registry.get?_erase] at hv
      split at hv
      · cases hv
      · exact hempty hv hstate
    · cases hok

/-- The scheduler after a dead thread has got the processor, which nobody had. -/
def adopted (s : Scheduler κ) (id : ThreadId) : Scheduler κ :=
  { s.update id fun t => { t with state := .running } with current := some id }

theorem Orderly.carries_adopted (h : s.Orderly) (hempty : s.EmptyHanded)
    (hcurrent : s.current = none) (ht : s.threads.get? id = some t) (hdead : t.state = .dead) :
    s.Carries (s.adopted id) [] [] := by
  have htidy := h.tidy ht
  have hwaitingFor : t.waitingFor = none := htidy.waitingFor_eq_none (by simp [hdead])
  have hget : ∀ j, (s.adopted id).threads.get? j =
      if j = id then some { t with state := .running } else s.threads.get? j := by
    intro j
    exact (get?_update s id j _).trans (by rw [ht]; rfl)
  have hplace : (s.adopted id).place = s.place := by
    refine (place_update ht _).trans ?_
    rw [Function.update_eq_self_iff, place_eq ht, Thread.place, Thread.place, hdead]
  have hthreads : (s.threads.modify id fun t => { t with state := .running }).Ordered :=
    h.threads.modify id _
  have howned : Owned (s.threads.modify id fun t => { t with state := .running }) s.mutexes :=
    h.owned.modify ht rfl rfl rfl
  refine ⟨⟨hthreads, h.mutexes, fun {j u} hu => ?_, fun {j u} hu hrunning => ?_,
    hplace ▸ h.queued, howned⟩, hempty.alive (fun t => { t with state := .running }) rfl (by simp),
    .of_eq rfl rfl rfl⟩
  · rw [hget] at hu
    split at hu
    · obtain rfl := Option.some.inj hu
      exact ⟨by simp [hwaitingFor], htidy.countdown, htidy.wanted_iff, htidy.held⟩
    · exact h.tidy hu
  · rw [hget] at hu
    split at hu
    · next heq => exact congrArg some heq.symm
    · exact absurd (h.running hu hrunning) (by simp [hcurrent])

/-! ### The processor -/

theorem Orderly.carries_readied (h : s.Orderly) (hempty : s.EmptyHanded)
    (ht : s.threads.get? id = some t) (hstate : t.state = .dead ∨ t.state = .running) :
    s.Carries (s.readied id t.priority) [id] [] := by
  have hnot : t.state ≠ .ready := by rcases hstate with heq | heq <;> simp [heq]
  exact ⟨h.readied ht hstate, hempty.alive (fun t => { t with state := .ready }) rfl (by simp),
    h.shifts_readied ht hnot _⟩

/-- A thread that is interrupted comes last at its level, if it still runs. -/
theorem Orderly.carries_requeueCurrent (h : s.Orderly) (hempty : s.EmptyHanded)
    (hok : s.requeueCurrent = .ok s') : s.Carries s'
      (s.current.toList.filter fun id => s.state? id == some .running) [] := by
  cases hcurrent : s.current with
  | none =>
    rw [Scheduler.requeueCurrent, hcurrent] at hok
    exact Except.ok.inj hok ▸ h.carries_refl hempty
  | some me =>
    rw [Option.toList_some, List.filter_cons, List.filter_nil]
    rw [Scheduler.requeueCurrent, hcurrent] at hok
    obtain ⟨t, hexpect, hready⟩ := bind_eq_ok hok
    cases ht : s.threads.get? me with
    | none =>
      rw [Scheduler.expect, ht] at hexpect
      cases hexpect
    | some u =>
      obtain rfl := Except.ok.inj ((expect_eq ht).symm.trans hexpect)
      have hstate : (s.state? me == some .running) = decide (u.state = .running) := by
        rw [state?, ht]
        rfl
      rw [hstate]
      split at hready
      · next hrunning =>
        rw [if_pos (decide_eq_true hrunning)]
        rw [makeReady_eq ht] at hready
        exact Except.ok.inj hready ▸ h.carries_readied hempty ht (.inr hrunning)
      · next hnot =>
        rw [if_neg (by simpa using hnot)]
        exact Except.ok.inj hready ▸ h.carries_refl hempty

/-- The next thread is picked when the last one does not run any more. -/
theorem Orderly.carries_pickNext (h : s.Orderly) (hempty : s.EmptyHanded) {switch : Switch}
    (hdue : (Act.pickNext : Act κ).due s = true) (hok : s.pickNext = .ok (switch, s')) :
    s.Carries s' [] [] := by
  have hvacant : ∀ j v, s.threads.get? j = some v → v.state ≠ .running := by
    intro j v hv hrunning
    rw [Act.due, h.running hv hrunning, Option.all_some, state?, hv] at hdue
    simp [hrunning] at hdue
  obtain ⟨id, t, ht, hready, -, rfl⟩ := h.pickNext_eq_ok hok
  exact ⟨h.dispatched ht hready hvacant,
    hempty.alive (fun t => { t with state := .running }) rfl (by simp), shifts_dispatched ..⟩

/-! ### Waiting -/

theorem Orderly.carries_suspended (h : s.Orderly) (hempty : s.EmptyHanded)
    (ht : s.threads.get? id = some t) (hstate : t.state = .running) {reason : WaitReason}
    (hreason : reason ≠ .mutex) (timeout : Timeout) :
    s.Carries (s.suspended id reason timeout) [] (if reason = .sleep then [id] else []) :=
  ⟨h.suspended ht hstate hreason timeout,
    hempty.alive (fun t => { t.arm reason timeout with state := .waiting }) rfl (by simp),
    h.shifts_suspended ht (by simp [hstate]) hreason timeout⟩

theorem Orderly.carries_awakened (h : s.Orderly) (hempty : s.EmptyHanded)
    (ht : s.threads.get? id = some t) {reason : WaitReason} (hreason : t.waitingFor = some reason)
    (hnotMutex : reason ≠ .mutex) : s.Carries (s.awakened id t.priority reason) [id] [] := by
  have hstate : t.state = .waiting := (h.tidy ht).waiting_iff.mpr (by simp [hreason])
  exact ⟨h.awakened ht hreason hnotMutex,
    hempty.alive (fun t => { t.disarm with state := .ready }) rfl (by simp),
    h.shifts_awakened ht (by simp [hstate]) _ _⟩

theorem Orderly.carries_tick (h : s.Orderly) (hempty : s.EmptyHanded) {report : TickReport}
    (hok : s.tick = .ok (report, s')) :
    s.Carries s' (report.woken ++ report.timedOut.map Prod.fst) [] := by
  obtain ⟨_, _, heq, horderly, -, -⟩ := h.tick
  obtain ⟨rfl, rfl⟩ := Prod.mk.inj (Except.ok.inj (heq.symm.trans hok))
  refine ⟨horderly, fun {j u} hu hdead => ?_, h.shifts_tick hok⟩
  rw [h.get?_tick hok] at hu
  obtain ⟨t, ht, rfl⟩ := Option.map_eq_some_iff.mp hu
  -- Nobody dies with a tick.
  rw [Thread.chime] at hdead ⊢
  split at hdead
  · next htimed =>
    have hstate : t.state = .waiting := (h.tidy ht).waiting_iff.mpr (by
      cases hreason : t.waitingFor with
      | none => simp [hreason] at htimed
      | some _ => rfl)
    rw [Thread.countedDown] at hdead
    split at hdead
    · cases hdead
    · exact absurd (hstate.symm.trans hdead) (by simp)
  · next hnot =>
    rw [if_neg hnot]
    exact hempty ht hdead

/-! ### Mutexes -/

theorem Orderly.carries_tryLock (h : s.Orderly) (hempty : s.EmptyHanded) {m : MutexId} {got : Bool}
    (ht : s.threads.get? id = some t) (hstate : t.state = .running)
    (hok : s.tryLock m id = .ok (got, s')) : s.Carries s' [] [] := by
  cases hx : s.mutexes.get? m with
  | none =>
    rw [tryLock_unknown hx] at hok
    cases hok
  | some x =>
    cases howner : x.owner with
    | none =>
      rw [tryLock_free hx howner ht] at hok
      obtain ⟨-, rfl⟩ := Prod.mk.inj (Except.ok.inj hok)
      refine ⟨h.locked hx howner ht, hempty.modify (·.hold m) rfl fun u hu hdead => ?_,
        shifts_locked s m id⟩
      obtain rfl := Option.some.inj (ht.symm.trans hu)
      exact absurd (hstate.symm.trans hdead) (by simp)
    | some owner =>
      by_cases hne : owner = id
      · rw [tryLock_own hx (hne ▸ howner)] at hok
        cases hok
      · rw [tryLock_other hx howner hne] at hok
        obtain ⟨-, rfl⟩ := Prod.mk.inj (Except.ok.inj hok)
        exact h.carries_refl hempty

theorem Orderly.carries_enlisted (h : s.Orderly) (hempty : s.EmptyHanded) {m : MutexId} {x : Mutex}
    {owner : ThreadId} (hx : s.mutexes.get? m = some x) (howner : x.owner = some owner)
    (hne : owner ≠ id) (ht : s.threads.get? id = some t) (hstate : t.state = .running)
    (timeout : Timeout) : s.Carries (s.enlisted m id t.priority timeout) [] [id] :=
  ⟨h.enlisted hx howner hne ht hstate timeout,
    hempty.alive (fun t => { t.arm .mutex timeout with state := .waiting, wanted := some m }) rfl
      (by simp), h.shifts_enlisted ht (by simp [hstate]) m _ timeout⟩

/-- Only the owner gives a mutex up, and it is not dead. -/
theorem Orderly.carries_release (h : s.Orderly) (hempty : s.EmptyHanded) {m : MutexId}
    {next : Option ThreadId} (hok : s.release m id = .ok (next, s')) :
    s.Carries s' next.toList [] := by
  obtain ⟨x, hx, howner, hover⟩ := exists_of_release hok
  obtain ⟨t, ht, -⟩ := (h.owned.owner_iff m id).mp ⟨x, hx, howner⟩
  obtain ⟨_, _, heq, horderly, -, hnext, hget⟩ := h.handOver hx howner ht
  obtain ⟨rfl, rfl⟩ := Prod.mk.inj (Except.ok.inj (heq.symm.trans hover))
  refine ⟨horderly, fun {j u} hu hdead => ?_, h.shifts_handOver hx howner ht hover⟩
  rw [hget] at hu
  split at hu
  · obtain ⟨v, -, rfl⟩ := Option.map_eq_some_iff.mp hu
    cases hdead
  · split at hu
    · obtain ⟨v, hv, rfl⟩ := Option.map_eq_some_iff.mp hu
      have hnone : v.held = [] := hempty hv hdead
      simp [Thread.letGo, hnone]
    · exact hempty hu hdead

theorem Orderly.carries_terminate (h : s.Orderly) (hempty : s.EmptyHanded) {report : Termination}
    (hok : s.terminate id = .ok (report, s')) :
    s.Carries s' (report.handoffs.map Prod.snd) [] := by
  obtain ⟨t, ht, -, hover⟩ := h.terminate_eq_ok hok
  obtain ⟨_, _, heq, horderly, hempty', -⟩ := h.bequeath hempty ht
  obtain ⟨rfl, rfl⟩ := Prod.mk.inj (Except.ok.inj (heq.symm.trans hover))
  have ht' : (s.buried id t).threads.get? id = some t.bury := by
    rw [get?_buried, if_pos rfl, ht, Option.map_some]
  exact ⟨horderly, hempty',
    (shifts_buried s id t).trans ((h.buried ht).shifts_handOverAll ht' rfl hover)⟩

/-! ### Every call -/

theorem exists_of_state? {state : ThreadState} (h : (s.state? id == some state) = true) :
    ∃ t, s.threads.get? id = some t ∧ t.state = state :=
  Option.map_eq_some_iff.mp (beq_iff_eq.mp h)

theorem eq_ok_of_map {σ α : Type} {outcome : Except σ α} {f : α → Scheduler κ × List ThreadId}
    (h : outcome.toOption.map f = some (s', arrived)) :
    ∃ value, outcome = .ok value ∧ f value = (s', arrived) := by
  cases outcome with
  | error _ => cases h
  | ok value => exact ⟨value, rfl, Option.some.inj h⟩

/-- Whatever call is made when it is due, order is kept, and those who arrive somewhere come
last. -/
theorem Orderly.carries_act (h : s.Orderly) (hempty : s.EmptyHanded) (hdue : act.due s = true)
    (hperform : act.perform s = some (s', arrived)) : s.Carries s' arrived act.begins := by
  cases act with
  | addThread stem p stack =>
    obtain ⟨rfl, rfl⟩ := Prod.mk.inj (Option.some.inj hperform)
    exact h.carries_addThread hempty stem p stack
  | removeThread id =>
    obtain ⟨⟨t, removed⟩, hok, hmade⟩ := eq_ok_of_map hperform
    obtain ⟨rfl, rfl⟩ := Prod.mk.inj hmade
    exact h.carries_removeThread hempty hok
  | adopt id =>
    obtain ⟨_, hok, hmade⟩ := eq_ok_of_map hperform
    obtain ⟨rfl, rfl⟩ := Prod.mk.inj hmade
    rw [Act.due, Bool.and_eq_true, Option.isNone_iff_eq_none] at hdue
    obtain ⟨t, ht, hdead⟩ := exists_of_state? hdue.2
    rw [Scheduler.adopt, find_eq ht] at hok
    obtain rfl := Except.ok.inj hok
    exact h.carries_adopted hempty hdue.1 ht hdead
  | setPosition id position =>
    obtain ⟨_, hok, hmade⟩ := eq_ok_of_map hperform
    obtain ⟨rfl, rfl⟩ := Prod.mk.inj hmade
    rw [Scheduler.setPosition] at hok
    obtain ⟨_, -, hok⟩ := bind_eq_ok hok
    obtain rfl := Except.ok.inj hok
    exact h.carries_update hempty id fun _ => ⟨rfl, rfl, rfl, rfl, rfl, rfl⟩
  | forgetPosition id =>
    obtain ⟨rfl, rfl⟩ := Prod.mk.inj (Option.some.inj hperform)
    exact h.carries_update hempty id fun _ => ⟨rfl, rfl, rfl, rfl, rfl, rfl⟩
  | setResult id result =>
    obtain ⟨rfl, rfl⟩ := Prod.mk.inj (Option.some.inj hperform)
    exact h.carries_update hempty id fun _ => ⟨rfl, rfl, rfl, rfl, rfl, rfl⟩
  | makeReady id =>
    obtain ⟨_, hok, hmade⟩ := eq_ok_of_map hperform
    obtain ⟨rfl, rfl⟩ := Prod.mk.inj hmade
    obtain ⟨t, ht, hdead⟩ := exists_of_state? hdue
    obtain rfl := Except.ok.inj ((makeReady_eq ht).symm.trans hok)
    exact h.carries_readied hempty ht (.inl hdead)
  | requeueCurrent =>
    obtain ⟨_, hok, hmade⟩ := eq_ok_of_map hperform
    obtain ⟨rfl, rfl⟩ := Prod.mk.inj hmade
    exact h.carries_requeueCurrent hempty hok
  | pickNext =>
    obtain ⟨⟨_, _⟩, hok, hmade⟩ := eq_ok_of_map hperform
    obtain ⟨rfl, rfl⟩ := Prod.mk.inj hmade
    exact h.carries_pickNext hempty hdue hok
  | block id reason timeout =>
    obtain ⟨_, hok, hmade⟩ := eq_ok_of_map hperform
    obtain ⟨rfl, rfl⟩ := Prod.mk.inj hmade
    rw [Act.due, Bool.and_eq_true, bne_iff_ne] at hdue
    obtain ⟨t, ht, hrunning⟩ := exists_of_state? hdue.1
    obtain rfl := Except.ok.inj ((block_eq ht reason timeout).symm.trans hok)
    have hcarries := h.carries_suspended hempty ht hrunning hdue.2 timeout
    cases reason <;> exact hcarries
  | wake id =>
    obtain ⟨_, hok, hmade⟩ := eq_ok_of_map hperform
    obtain ⟨rfl, rfl⟩ := Prod.mk.inj hmade
    obtain ⟨t, ht, hwaits⟩ := Option.any_eq_true _ _ |>.mp hdue
    obtain ⟨reason, hreason, hmutex⟩ := Option.any_eq_true _ _ |>.mp hwaits
    obtain rfl := Except.ok.inj ((wake_eq ht hreason).symm.trans hok)
    exact h.carries_awakened hempty ht hreason (bne_iff_ne.mp hmutex)
  | tick =>
    obtain ⟨⟨_, _⟩, hok, hmade⟩ := eq_ok_of_map hperform
    obtain ⟨rfl, rfl⟩ := Prod.mk.inj hmade
    exact h.carries_tick hempty hok
  | createMutex =>
    obtain ⟨rfl, rfl⟩ := Prod.mk.inj (Option.some.inj hperform)
    exact ⟨h.createMutex, hempty, h.shifts_createMutex⟩
  | deleteMutex m =>
    obtain ⟨_, hok, hmade⟩ := eq_ok_of_map hperform
    obtain ⟨rfl, rfl⟩ := Prod.mk.inj hmade
    obtain ⟨x, hx, hfree, rfl⟩ := deleteMutex_eq_ok hok
    exact ⟨h.deleteMutex hx hfree, hempty, shifts_deleteMutex s m⟩
  | tryLock m id =>
    obtain ⟨⟨_, _⟩, hok, hmade⟩ := eq_ok_of_map hperform
    obtain ⟨rfl, rfl⟩ := Prod.mk.inj hmade
    obtain ⟨t, ht, hrunning⟩ := exists_of_state? hdue
    exact h.carries_tryLock hempty ht hrunning hok
  | waitForMutex m id timeout =>
    obtain ⟨_, hok, hmade⟩ := eq_ok_of_map hperform
    obtain ⟨rfl, rfl⟩ := Prod.mk.inj hmade
    rw [Act.due, Bool.and_eq_true] at hdue
    obtain ⟨t, ht, hrunning⟩ := exists_of_state? hdue.1
    obtain ⟨x, hx, howned⟩ := Option.any_eq_true _ _ |>.mp hdue.2
    obtain ⟨owner, howner, hne⟩ := Option.any_eq_true _ _ |>.mp howned
    obtain rfl := Except.ok.inj ((waitForMutex_eq ht hx timeout).symm.trans hok)
    exact h.carries_enlisted hempty hx howner (bne_iff_ne.mp hne) ht hrunning timeout
  | finishMutexWait m id =>
    obtain ⟨⟨_, _⟩, hok, hmade⟩ := eq_ok_of_map hperform
    obtain ⟨rfl, rfl⟩ := Prod.mk.inj hmade
    obtain ⟨t, ht, hrunning⟩ := exists_of_state? hdue
    have hnone : t.wanted = none := (h.tidy ht).wanted_eq_none (by simp [hrunning])
    have heq := (h.finishMutexWait_eq ht hnone m).symm.trans hok
    obtain ⟨-, rfl⟩ := Prod.mk.inj (Except.ok.inj heq)
    exact h.carries_refl hempty
  | release m id =>
    obtain ⟨⟨_, _⟩, hok, hmade⟩ := eq_ok_of_map hperform
    obtain ⟨rfl, rfl⟩ := Prod.mk.inj hmade
    exact h.carries_release hempty hok
  | terminate id =>
    obtain ⟨⟨_, _⟩, hok, hmade⟩ := eq_ok_of_map hperform
    obtain ⟨rfl, rfl⟩ := Prod.mk.inj hmade
    exact h.carries_terminate hempty hok

/-! ## All calls -/

theorem Carries.trans (h : s.Carries s₁ arrived begun) (h' : s₁.Carries s' arrived' begun') :
    s.Carries s' (arrived ++ arrived') (begun ++ begun') :=
  ⟨h'.orderly, h'.emptyHanded, h.shifts.trans h'.shifts⟩

theorem Orderly.carries_run (h : s.Orderly) (hempty : s.EmptyHanded)
    (hrun : s.run acts = some (s', arrived)) :
    s.Carries s' arrived (acts.flatMap Act.begins) := by
  induction acts generalizing s arrived with
  | nil =>
    obtain ⟨rfl, rfl⟩ := Prod.mk.inj (Option.some.inj hrun)
    exact h.carries_refl hempty
  | cons act rest ih =>
    obtain ⟨s₁, first, later, hdue, hperform, hrest, rfl⟩ := run_cons_iff.mp hrun
    have hfirst := h.carries_act hempty hdue hperform
    exact hfirst.trans (ih hfirst.orderly hfirst.emptyHanded hrest)

theorem emptyHanded_empty : ({} : Scheduler κ).EmptyHanded := by
  intro id t ht
  simp [Registry.get?] at ht

/-- In a scheduler that has been in use from the beginning, every ready thread stands behind those
that arrived before it. -/
theorem carries_of_run (hrun : ({} : Scheduler κ).run acts = some (s, arrived)) :
    s.Orderly ∧ s.EmptyHanded ∧ (∀ p, (s.ready.level p).Sublist (byLast arrived)) ∧
      ∀ {queue}, s.TimedQueue queue → queue.Sublist (byLast (acts.flatMap Act.begins)) := by
  have hcarries := orderly_empty.carries_run emptyHanded_empty hrun
  refine ⟨hcarries.orderly, hcarries.emptyHanded, fun p => ?_, fun hqueue => ?_⟩
  · have hready := hcarries.shifts.ready p
    rwa [show (({} : Scheduler κ).ready.level p) = [] from LevelQueue.level_empty p] at hready
  · obtain ⟨before, hbefore, hsub⟩ := hcarries.shifts.timed hqueue
    have hempty : before = [] := by
      cases hbefore with
      | sleeping => rfl
      | wanting => rfl
      | waiters hx p => simp [Registry.get?] at hx
    rwa [hempty] at hsub

end Scheduler

end CoopKernel
