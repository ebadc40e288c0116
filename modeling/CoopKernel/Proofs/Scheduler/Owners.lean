import Mathlib.Logic.Function.Basic
import CoopKernel.Scheduler.Clock
import CoopKernel.Proofs.Scheduler.Termination
import CoopKernel.Proofs.Trace.Account

/-!
# Who owns what, and who has the processor

Most operations of a scheduler move threads between queues, and neither a mutex nor the processor
changes hands (`Scheduler.Steady`). The others are described by what they do to the owners of the
mutexes (`Scheduler.owners`): `tryLock_eq_true`, `owners_handOver`, `Orderly.owners_terminate` and
the operations that add and remove a mutex. Only `pickNext` gives the processor away.
-/

namespace CoopKernel

namespace Mutex

theorem owner_stopWaiting (mutex : Mutex) (thread : ThreadId) :
    (mutex.stopWaiting thread).owner = mutex.owner := by
  rw [stopWaiting]
  split <;> rfl

/-- A mutex that is passed on belongs to the thread that it is passed to, or to nobody. -/
theorem owner_pass (mutex : Mutex) : mutex.pass.2.owner = mutex.pass.1 := by
  rw [pass]
  split <;> rfl

end Mutex

namespace Scheduler

variable {κ : Type} {s s' s'' : Scheduler κ} {id thread : ThreadId} {m : MutexId}

/-- The mutexes that there are, each with its owner if it has one. -/
def owners (s : Scheduler κ) (mutex : MutexId) : Option (Option ThreadId) :=
  (s.mutexes.get? mutex).map Mutex.owner

/-- Neither a mutex nor the processor has changed hands. -/
structure Steady (s s' : Scheduler κ) : Prop where
  current : s'.current = s.current
  owners : s'.owners = s.owners

theorem Steady.refl (s : Scheduler κ) : s.Steady s := ⟨rfl, rfl⟩

theorem Steady.trans (h : s.Steady s') (h' : s'.Steady s'') : s.Steady s'' :=
  ⟨h'.current.trans h.current, h'.owners.trans h.owners⟩

/-- What does not concern the mutexes does not concern their owners. -/
theorem Steady.of_mutexes (hcurrent : s'.current = s.current) (hmutexes : s'.mutexes = s.mutexes) :
    s.Steady s' :=
  ⟨hcurrent, by funext mutex; rw [Scheduler.owners, Scheduler.owners, hmutexes]⟩

theorem steady_update (s : Scheduler κ) (id : ThreadId) (change : Thread κ → Thread κ) :
    s.Steady (s.update id change) :=
  .of_mutexes rfl rfl

/-! ## Changes of one mutex -/

theorem owners_modify (s : Scheduler κ) (m : MutexId) (change : Mutex → Mutex) :
    (s.updateMutex m change).owners =
      Function.update s.owners m ((s.mutexes.get? m).map fun mutex => (change mutex).owner) := by
  funext mutex
  show ((s.mutexes.modify m change).get? mutex).map Mutex.owner = _
  rw [Registry.get?_modify, Function.update_apply]
  split
  · rw [Option.map_map]
    rfl
  · rfl

theorem steady_updateMutex (s : Scheduler κ) {m : MutexId} {change : Mutex → Mutex}
    (hchange : ∀ mutex, (change mutex).owner = mutex.owner) :
    s.Steady (s.updateMutex m change) where
  current := rfl
  owners := by
    rw [owners_modify, funext hchange]
    exact Function.update_eq_self _ _

/-! ## Moves of threads -/

theorem steady_makeReady (h : s.makeReady id = .ok s') : s.Steady s' := by
  rw [makeReady] at h
  obtain ⟨_, -, h⟩ := bind_eq_ok h
  obtain rfl := Except.ok.inj h
  exact .of_mutexes rfl rfl

theorem steady_requeueCurrent (h : s.requeueCurrent = .ok s') : s.Steady s' := by
  rw [requeueCurrent] at h
  split at h
  · obtain rfl := Except.ok.inj h
    exact .refl s
  · obtain ⟨_, -, h⟩ := bind_eq_ok h
    split at h
    · exact steady_makeReady h
    · obtain rfl := Except.ok.inj h
      exact .refl s

theorem steady_block {reason : WaitReason} {timeout : Timeout}
    (h : s.block id reason timeout = .ok s') : s.Steady s' := by
  rw [block] at h
  obtain ⟨_, -, h⟩ := bind_eq_ok h
  obtain rfl := Except.ok.inj h
  exact .of_mutexes rfl rfl

theorem steady_stopWaiting (h : s.stopWaiting id = .ok s') : s.Steady s' := by
  rw [stopWaiting] at h
  obtain ⟨t, -, h⟩ := bind_eq_ok h
  cases hreason : t.waitingFor with
  | none =>
    simp only [hreason] at h
    obtain rfl := Except.ok.inj h
    exact .of_mutexes rfl rfl
  | some reason =>
    simp only [hreason] at h
    obtain rfl := Except.ok.inj h
    exact .of_mutexes rfl rfl

theorem steady_wake (h : s.wake id = .ok s') : s.Steady s' := by
  rw [wake] at h
  obtain ⟨_, hstopped, h⟩ := bind_eq_ok h
  exact (steady_stopWaiting hstopped).trans (steady_makeReady h)

/-- The next thread gets the processor, whoever had it. -/
theorem pickNext_eq_ok {switch : Switch} (h : s.pickNext = .ok (switch, s')) :
    switch.source = s.current ∧ s'.current = some switch.target ∧ s'.owners = s.owners := by
  rw [pickNext] at h
  split at h
  · cases h
  · obtain ⟨_, -, h⟩ := bind_eq_ok h
    obtain ⟨rfl, rfl⟩ := Prod.ext_iff.mp (Except.ok.inj h)
    exact ⟨rfl, rfl, rfl⟩

/-! ## The clock -/

theorem steady_countDown {expired : Bool} (h : s.countDown id = .ok (expired, s')) :
    s.Steady s' := by
  rw [countDown] at h
  obtain ⟨_, -, h⟩ := bind_eq_ok h
  obtain ⟨-, rfl⟩ := Prod.ext_iff.mp (Except.ok.inj h)
  exact .of_mutexes rfl rfl

variable {report report' : TickReport}

theorem steady_tickSleeper (h : tickSleeper (s, report) id = .ok (s', report')) : s.Steady s' := by
  rw [tickSleeper] at h
  obtain ⟨⟨expired, counted⟩, hcounted, h⟩ := bind_eq_ok h
  have hsteady := steady_countDown hcounted
  cases expired with
  | false =>
    obtain ⟨rfl, -⟩ := Prod.ext_iff.mp (Except.ok.inj h)
    exact hsteady.trans (.of_mutexes rfl rfl)
  | true =>
    obtain ⟨woken, hwoken, h⟩ := bind_eq_ok h
    obtain ⟨rfl, -⟩ := Prod.ext_iff.mp (Except.ok.inj h)
    exact (hsteady.trans (steady_update ..)).trans (steady_makeReady hwoken)

theorem steady_tickMutexWaiter (h : tickMutexWaiter (s, report) id = .ok (s', report')) :
    s.Steady s' := by
  rw [tickMutexWaiter] at h
  obtain ⟨⟨expired, counted⟩, hcounted, h⟩ := bind_eq_ok h
  obtain ⟨t, -, h⟩ := bind_eq_ok h
  have hsteady := steady_countDown hcounted
  dsimp only at h
  split at h
  · obtain ⟨woken, hwoken, h⟩ := bind_eq_ok h
    obtain ⟨rfl, -⟩ := Prod.ext_iff.mp (Except.ok.inj h)
    exact (hsteady.trans (steady_update ..)).trans (steady_makeReady hwoken)
  · split at h
    · -- A wait that has run out leaves the queue of its mutex too.
      let resigned := counted.update id fun thread => { thread.disarm with wanted := none }
      have hresigned : counted.Steady resigned := steady_update ..
      split at h
      · obtain ⟨woken, hwoken, h⟩ := bind_eq_ok h
        obtain ⟨rfl, -⟩ := Prod.ext_iff.mp (Except.ok.inj h)
        exact (hsteady.trans hresigned).trans (steady_makeReady hwoken)
      · next mutex _ =>
        obtain ⟨woken, hwoken, h⟩ := bind_eq_ok h
        obtain ⟨rfl, -⟩ := Prod.ext_iff.mp (Except.ok.inj h)
        have hleft : resigned.Steady (resigned.updateMutex mutex (·.stopWaiting id)) :=
          steady_updateMutex resigned fun x => x.owner_stopWaiting id
        exact ((hsteady.trans hresigned).trans hleft).trans (steady_makeReady hwoken)
    · obtain ⟨rfl, -⟩ := Prod.ext_iff.mp (Except.ok.inj h)
      exact hsteady.trans (.of_mutexes rfl rfl)

/-- What each thread's tick leaves alone, the ticks of all of them leave alone. -/
theorem steady_foldlM {step : Scheduler κ × TickReport → ThreadId →
    Except Invariant (Scheduler κ × TickReport)}
    (hstep : ∀ {s s' : Scheduler κ} {report report' id},
      step (s, report) id = .ok (s', report') → s.Steady s') {ids : List ThreadId}
    (h : ids.foldlM step (s, report) = .ok (s', report')) : s.Steady s' := by
  induction ids generalizing s report with
  | nil =>
    obtain ⟨rfl, -⟩ := Prod.ext_iff.mp (Except.ok.inj h)
    exact .refl s
  | cons id rest ih =>
    rw [List.foldlM_cons] at h
    obtain ⟨⟨next, report₁⟩, hnext, h⟩ := bind_eq_ok h
    exact (hstep hnext).trans (ih h)

theorem steady_tick (h : s.tick = .ok (report, s')) : s.Steady s' := by
  rw [tick] at h
  obtain ⟨⟨slept, report₁⟩, hslept, h⟩ := bind_eq_ok h
  obtain ⟨⟨waited, report₂⟩, hwaited, h⟩ := bind_eq_ok h
  obtain ⟨-, rfl⟩ := Prod.ext_iff.mp (Except.ok.inj h)
  have hcounted : s.Steady { s with ticks := s.ticks + 1, waiting := s.waiting.set .sleep [] } :=
    .of_mutexes rfl rfl
  have hemptied : slept.Steady { slept with waiting := slept.waiting.set .mutex [] } :=
    .of_mutexes rfl rfl
  exact ((hcounted.trans (steady_foldlM steady_tickSleeper hslept)).trans hemptied).trans
    (steady_foldlM steady_tickMutexWaiter hwaited)

/-! ## Waiting for a mutex -/

theorem steady_waitForMutex {timeout : Timeout}
    (h : s.waitForMutex m id timeout = .ok s') : s.Steady s' := by
  rw [waitForMutex] at h
  obtain ⟨t, -, h⟩ := bind_eq_ok h
  obtain ⟨_, -, h⟩ := bind_eq_ok h
  have hlisted : s.Steady (s.updateMutex m (·.addWaiter id t.priority)) :=
    steady_updateMutex s fun _ => rfl
  exact (hlisted.trans (steady_update ..)).trans (steady_block (mapError_eq_ok h))

/-- A thread that has waited for a mutex owns it if it was passed to it meanwhile. -/
theorem finishMutexWait_eq_ok {owned : Bool} (h : s.finishMutexWait m id = .ok (owned, s')) :
    s.Steady s' ∧ (owned = true → s.owners m = some (some id)) := by
  rw [finishMutexWait] at h
  obtain ⟨_, -, h⟩ := bind_eq_ok h
  have hsettled : s.Steady (s.update id fun record => { record with wanted := none }) :=
    steady_update ..
  dsimp only at h
  split at h
  · obtain ⟨rfl, rfl⟩ := Prod.ext_iff.mp (Except.ok.inj h)
    exact ⟨hsettled, fun howned => absurd howned Bool.false_ne_true⟩
  · next x hx =>
    obtain ⟨rfl, rfl⟩ := Prod.ext_iff.mp (Except.ok.inj h)
    refine ⟨hsettled.trans (steady_updateMutex _ fun x => x.owner_stopWaiting id), fun howned => ?_⟩
    have hx : s.mutexes.get? m = some x := hx
    rw [owners, hx, Option.map_some, beq_iff_eq.mp howned]

/-! ## Mutexes that change hands -/

/-- A thread that takes a mutex has found it there. -/
theorem tryLock_eq_true (h : s.tryLock m id = .ok (true, s')) :
    s'.current = s.current ∧ s'.owners = Function.update s.owners m (some (some id)) := by
  rw [tryLock] at h
  obtain ⟨x, hx, h⟩ := bind_eq_ok h
  have hx := mapError_eq_ok hx
  rw [findMutex] at hx
  split at hx
  · cases hx
  · next y hy =>
    split at h
    · split at h
      · cases h
      · cases h
    · obtain ⟨_, -, h⟩ := bind_eq_ok h
      obtain ⟨-, rfl⟩ := Prod.ext_iff.mp (Except.ok.inj h)
      refine ⟨rfl, ?_⟩
      show (s.updateMutex m fun mutex => { mutex with owner := some id }).owners = _
      rw [owners_modify, hy, Option.map_some]

theorem owners_createMutex (h : s.Orderly) :
    s.createMutex.2.owners = Function.update s.owners s.createMutex.1 (some none) := by
  funext mutex
  show ((s.mutexes.add {}).get? mutex).map Mutex.owner = _
  rw [Registry.get?_add h.mutexes, Function.update_apply]
  show _ = if mutex = s.mutexes.nextHandle then _ else _
  split <;> rfl

theorem owners_deleteMutex (h : s.deleteMutex m = .ok s') :
    s'.current = s.current ∧ s'.owners = Function.update s.owners m none := by
  rw [deleteMutex] at h
  obtain ⟨x, -, h⟩ := bind_eq_ok h
  dsimp only at h
  split at h
  · cases h
  · obtain rfl := Except.ok.inj h
    refine ⟨rfl, ?_⟩
    funext mutex
    show ((s.mutexes.erase m).get? mutex).map Mutex.owner = _
    rw [Registry.get?_erase, Function.update_apply]
    split <;> rfl

variable {next : Option ThreadId} {owner : ThreadId}

/-- A mutex that is handed over belongs to the thread that it is handed over to, or to nobody. -/
theorem owners_handOver (h : s.handOver m owner = .ok (next, s')) :
    s'.current = s.current ∧ s.owners m ≠ none ∧
      s'.owners = Function.update s.owners m (some next) := by
  rw [handOver] at h
  obtain ⟨_, -, h⟩ := bind_eq_ok h
  dsimp only at h
  split at h
  · cases h
  · next x hx =>
    have hx : s.mutexes.get? m = some x := hx
    let left := (s.update owner (·.letGo m)).updateMutex m fun _ => x.pass.2
    have hleft : left.owners = Function.update s.owners m (some x.pass.1) := by
      show ((s.update owner (·.letGo m)).updateMutex m fun _ => x.pass.2).owners = _
      rw [owners_modify]
      show Function.update s.owners m ((s.mutexes.get? m).map fun _ => x.pass.2.owner) = _
      rw [hx, x.owner_pass]
      rfl
    have hthere : s.owners m ≠ none := by simp [owners, hx]
    cases hpass : x.pass.1 with
    | none =>
      simp only [hpass] at h
      obtain ⟨rfl, rfl⟩ := Prod.ext_iff.mp (Except.ok.inj h)
      exact ⟨rfl, hthere, hpass ▸ hleft⟩
    | some heir =>
      simp only [hpass] at h
      obtain ⟨_, -, h⟩ := bind_eq_ok h
      obtain ⟨woken, hwoken, h⟩ := bind_eq_ok h
      obtain ⟨rfl, rfl⟩ := Prod.ext_iff.mp (Except.ok.inj h)
      have hsteady := steady_wake hwoken
      refine ⟨hsteady.current, hthere, hsteady.owners.trans ?_⟩
      exact hpass ▸ hleft

theorem release_eq_ok (h : s.release m owner = .ok (next, s')) :
    s'.current = s.current ∧ s'.owners = Function.update s.owners m (some next) := by
  rw [release] at h
  obtain ⟨_, -, h⟩ := bind_eq_ok h
  dsimp only at h
  split at h
  · cases h
  · obtain ⟨hcurrent, -, howners⟩ := owners_handOver (mapError_eq_ok h)
    exact ⟨hcurrent, howners⟩

/-! ## Removal and termination -/

theorem steady_removeThread {t : Thread κ} (h : s.removeThread id = .ok (t, s')) :
    s.Steady s' := by
  rw [removeThread] at h
  obtain ⟨_, -, h⟩ := bind_eq_ok h
  dsimp only at h
  split at h
  · cases h
  · obtain ⟨-, rfl⟩ := Prod.ext_iff.mp (Except.ok.inj h)
    exact .of_mutexes rfl rfl

theorem steady_foldl_forgetPosition (s : Scheduler κ) (ids : List ThreadId) :
    s.Steady (ids.foldl (fun s id => s.forgetPosition id) s) := by
  induction ids generalizing s with
  | nil => exact .refl s
  | cons id rest ih => exact (steady_update s id _).trans (ih _)

theorem steady_unlink {t : Thread κ} (h : s.unlink id t = .ok s') : s.Steady s' := by
  rw [unlink] at h
  split at h
  · split at h
    · obtain rfl := Except.ok.inj h
      exact .refl s
    · obtain rfl := Except.ok.inj h
      exact .of_mutexes rfl rfl
  · have hwishless : s.Steady (s.update id fun thread => { thread with wanted := none }) :=
      steady_update ..
    dsimp only at h
    split at h
    · exact hwishless.trans (steady_stopWaiting h)
    · exact (hwishless.trans (steady_updateMutex _ fun x => x.owner_stopWaiting id)).trans
        (steady_stopWaiting h)
  · obtain rfl := Except.ok.inj h
    exact .refl s
  · obtain rfl := Except.ok.inj h
    exact .refl s

variable {handoffs : List (MutexId × ThreadId)} {report : Termination}

/-- Hand-overs neither add mutexes nor remove any. -/
theorem owners_handOverAll_eq_none {ms : List MutexId}
    (h : s.handOverAll owner ms = .ok (handoffs, s')) : s'.owners m = none ↔ s.owners m = none := by
  induction ms generalizing s s' handoffs with
  | nil =>
    obtain ⟨-, rfl⟩ := Prod.ext_iff.mp (Except.ok.inj h)
    rfl
  | cons first rest ih =>
    rw [handOverAll] at h
    obtain ⟨⟨next, s₁⟩, hfirst, h⟩ := bind_eq_ok h
    obtain ⟨⟨later, s₂⟩, hrest, h⟩ := bind_eq_ok h
    obtain ⟨-, hthere, howners⟩ := owners_handOver hfirst
    have hnone : s₂.owners m = none ↔ s.owners m = none := by
      rw [ih hrest, howners, Function.update_apply]
      split
      · next heq => simp [heq, hthere]
      · rfl
    cases next with
    | none =>
      obtain ⟨-, rfl⟩ := Prod.ext_iff.mp (Except.ok.inj h)
      exact hnone
    | some heir =>
      obtain ⟨-, rfl⟩ := Prod.ext_iff.mp (Except.ok.inj h)
      exact hnone

theorem owners_terminate_eq_none (h : s.terminate id = .ok (report, s')) :
    s'.owners m = none ↔ s.owners m = none := by
  rw [terminate] at h
  obtain ⟨t, -, h⟩ := bind_eq_ok h
  dsimp only at h
  split at h
  · cases h
  · obtain ⟨left, hleft, h⟩ := bind_eq_ok (mapError_eq_ok h)
    obtain ⟨⟨handoffs, s₁⟩, hall, h⟩ := bind_eq_ok h
    have hnone : s₁.owners m = none ↔ s.owners m = none := by
      rw [owners_handOverAll_eq_none hall, ← (steady_unlink hleft).owners]
      rfl
    dsimp only at h
    split at h
    · obtain ⟨-, rfl⟩ := Prod.ext_iff.mp (Except.ok.inj h)
      exact hnone
    · obtain ⟨preempt, -, h⟩ := bind_eq_ok h
      obtain ⟨-, rfl⟩ := Prod.ext_iff.mp (Except.ok.inj h)
      exact hnone

/-- The owner of a mutex is the thread that holds it. -/
theorem Orderly.owners_eq_iff (h : s.Orderly) {j : ThreadId} :
    s.owners m = some (some j) ↔ ∃ t, s.threads.get? j = some t ∧ m ∈ t.held := by
  rw [← h.owned.owner_iff, owners, Option.map_eq_some_iff]

/-- After a termination, the owner of a mutex has just got it, or had it before and is somebody
else. -/
theorem Inherited.owners_iff {t : Thread κ} {j : ThreadId} (hinherited : s.Inherited s' id handoffs)
    (h : s.Orderly) (h' : s'.Orderly) (ht : s'.threads.get? id = some t) (hempty : t.held = []) :
    s'.owners m = some (some j) ↔
      (m, j) ∈ handoffs ∨ j ≠ id ∧ s.owners m = some (some j) := by
  rw [h'.owners_eq_iff, h.owners_eq_iff]
  by_cases hid : j = id
  · have hnot : (m, j) ∉ handoffs := fun hmem => (hinherited.heir hmem).1 hid
    subst hid
    simp [ht, hempty, hnot]
  by_cases hin : ∃ m', (m', j) ∈ handoffs
  · -- A thread that has got a mutex holds that one and those that it held before.
    obtain ⟨m', hin⟩ := hin
    obtain ⟨-, v, hv, hwanted, hreceived⟩ := hinherited.heir hin
    have honly : ∀ {x}, (x, j) ∈ handoffs → x = m' := by
      intro x hx
      obtain ⟨-, v', hv', hwanted', -⟩ := hinherited.heir hx
      obtain rfl := Option.some.inj (hv.symm.trans hv')
      exact Option.some.inj (hwanted'.symm.trans hwanted)
    have hheld : m ∈ (v.receive m').held ↔ m = m' ∨ m ∈ v.held := v.mem_held_hold m' m
    have hmem : (m, j) ∈ handoffs ↔ m = m' := ⟨honly, fun heq => heq ▸ hin⟩
    simp [hreceived, hv, hheld, hmem, hid]
  · rw [hinherited.same hid (not_exists.mp hin)]
    simp [hid, not_exists.mp hin m]

/-- What is known of a mutex is whether it is there and who owns it. -/
theorem eq_of_owner_iff {a b : Option (Option ThreadId)} (hnone : a = none ↔ b = none)
    (howner : ∀ j, a = some (some j) ↔ b = some (some j)) : a = b := by
  rcases a with - | - | j
  · exact (hnone.mp rfl).symm
  · rcases b with - | - | i
    · cases hnone.mpr rfl
    · rfl
    · cases (howner i).mpr rfl
  · exact ((howner j).mp rfl).symm

/-- A thread that is terminated gives up all its mutexes, and those that are reported to be passed
on belong to their new owners. -/
theorem Orderly.owners_terminate (h : s.Orderly) (hempty : s.EmptyHanded) {current : ThreadId}
    {c : Thread κ} (hcurrent : s.current = some current) (hc : s.threads.get? current = some c)
    (hok : s.terminate id = .ok (report, s')) :
    s'.current = s.current ∧ Trace.Ledger.GivesUp s.owners s'.owners id report.handoffs ∧
      ∀ {m j}, (m, j) ∈ report.handoffs → j ≠ id := by
  cases ht : s.threads.get? id with
  | none =>
    rw [terminate_unknown ht] at hok
    cases hok
  | some t =>
    by_cases hdead : t.state = .dead
    · rw [terminate_dead ht hdead] at hok
      cases hok
    · obtain ⟨report', s'', heq, horderly, -, hburied, hinherited, -⟩ :=
        h.terminate hempty ht hdead hcurrent hc
      obtain ⟨rfl, rfl⟩ := Prod.mk.inj (Except.ok.inj (heq.symm.trans hok))
      have howners := fun m j => hinherited.owners_iff (m := m) (j := j) h horderly hburied rfl
      refine ⟨hinherited.current, ⟨fun {m j} hmem => (howners m j).mpr (.inl hmem),
        fun {m} hnone => ?_⟩, fun hmem => (hinherited.heir hmem).1⟩
      have hthere : s''.owners m = none ↔ s.owners m = none := owners_terminate_eq_none hok
      refine eq_of_owner_iff ?_ fun j => ?_
      · rw [hthere]
        split
        · next hid => simp [hid]
        · rfl
      · rw [howners]
        simp only [hnone j, false_or]
        grind

end Scheduler

end CoopKernel
