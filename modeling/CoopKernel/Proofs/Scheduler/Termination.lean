import CoopKernel.Proofs.Scheduler.HandOver

/-!
# Termination of a thread

A thread that is terminated first leaves every queue (`Orderly.unlink`) and then hands over what it
holds, one mutex after the other (`Orderly.handOverAll`). In between it is dead and still an owner,
so the second part carries the list of what is left to hand over as the whole of what the dead
thread holds. The outcome is `Orderly.terminate`: the thread is dead and empty-handed, and the
others are as before, apart from the new owners.
-/

namespace CoopKernel

/-- The record of a thread that has left its queues and its life. -/
def Thread.bury {κ : Type} (thread : Thread κ) : Thread κ :=
  { thread.disarm with wanted := none, state := .dead }

/-- A thread that was in no queue has nothing to leave. -/
theorem Thread.Tidy.bury_eq {κ : Type} {thread : Thread κ} (h : thread.Tidy)
    (hstate : thread.state ≠ .waiting) : thread.bury = { thread with state := .dead } := by
  have hwaitingFor := h.waitingFor_eq_none hstate
  have hcountdown := h.countdown hwaitingFor
  have hwanted := h.wanted_eq_none hstate
  rw [bury, disarm, ← hwaitingFor, ← hcountdown, ← hwanted]

/-- Letting go of the first mutex leaves the others. -/
theorem Thread.Tidy.letGo_of_held {κ : Type} {thread : Thread κ} (h : thread.Tidy) {m : MutexId}
    {rest : List MutexId} (hheld : thread.held = m :: rest) :
    m ∉ rest ∧ (thread.letGo m).held = rest := by
  have hnodup := h.nodup_held
  rw [hheld, List.nodup_cons] at hnodup
  refine ⟨hnodup.1, ?_⟩
  rw [Thread.letGo, hheld, List.filter_cons_of_neg (by simp), List.filter_eq_self]
  intro m' hm'
  rw [bne_iff_ne]
  rintro rfl
  exact hnodup.1 hm'

/-- Wherever a thread stands, erasing it at its level and from the list of those who wait for the
same takes it out of the queues. -/
theorem Queued.leave {κ : Type} {id : ThreadId} {t : Thread κ}
    {place : ThreadId → Option Place} {ready : LevelQueue ThreadId} {waiting : WaitLists}
    (h : Queued place ready waiting) (htidy : t.Tidy) (hplace : place id = t.place) :
    Queued (Function.update place id none) (ready.erase t.priority id)
      (t.waitingFor.elim waiting fun reason => waiting.remove reason id) := by
  cases hreason : t.waitingFor with
  | some reason =>
    have hwaiting : place id = some (.waiting reason) := by
      rw [hplace, htidy.place_waiting hreason]
    have hready : ready.erase t.priority id = ready := by
      apply LevelQueue.erase_of_not_mem
      rw [h.mem_ready, hwaiting]
      simp
    rw [hready]
    exact h.leave_waiting hwaiting
  | none =>
    by_cases hready : t.state = .ready
    · have hready : place id = some (.ready t.priority) := by rw [hplace, Thread.place, hready]
      exact h.leave_ready hready
    · have hnone : place id = none := by
        rw [hplace, Thread.place]
        have hwaiting := htidy.waiting_iff
        cases hstate : t.state <;> simp_all
      rw [LevelQueue.erase_of_not_mem (h.not_mem_ready hnone _), ← hnone, Function.update_eq_self]
      exact h

namespace Scheduler

variable {κ : Type} {s : Scheduler κ} {id : ThreadId} {t : Thread κ}

/-! ## Leaving the queues -/

/-- The scheduler after a thread has left its queues and its life. -/
def buried (s : Scheduler κ) (id : ThreadId) (t : Thread κ) : Scheduler κ :=
  { s with
    threads := s.threads.modify id Thread.bury
    mutexes := t.wanted.elim s.mutexes fun m => s.mutexes.modify m (·.stopWaiting id)
    ready := s.ready.erase t.priority id
    waiting := t.waitingFor.elim s.waiting fun reason => s.waiting.remove reason id }

theorem get?_buried (s : Scheduler κ) (id other : ThreadId) (t : Thread κ) :
    (s.buried id t).threads.get? other =
      if other = id then (s.threads.get? id).map Thread.bury else s.threads.get? other :=
  Registry.get?_modify s.threads id other _

/-- Burying a thread that is in no wait list changes its state and at most the ready queue. -/
theorem Orderly.buried_of_not_waiting (h : s.Orderly) (ht : s.threads.get? id = some t)
    (hstate : t.state ≠ .waiting) :
    s.buried id t =
      { s.update id fun t => { t with state := .dead } with
        ready := s.ready.erase t.priority id } := by
  have htidy := h.tidy ht
  have hthreads : s.threads.modify id Thread.bury =
      s.threads.modify id fun t => { t with state := .dead } := by
    apply Registry.modify_congr h.threads
    intro u hu
    obtain rfl : t = u := Option.some.inj (ht.symm.trans hu)
    exact htidy.bury_eq hstate
  rw [Scheduler.buried, hthreads, htidy.wanted_eq_none hstate, htidy.waitingFor_eq_none hstate]
  rfl

theorem Orderly.unlink (h : s.Orderly) (ht : s.threads.get? id = some t)
    (halive : t.state ≠ .dead) :
    ∃ left, s.unlink id t = .ok left ∧
      (left.update id fun t => { t with state := .dead }) = s.buried id t := by
  have htidy := h.tidy ht
  have hplace := place_eq ht
  cases hstate : t.state with
  | dead => exact absurd hstate halive
  | running =>
    have hnone : s.place id = none := by rw [hplace, Thread.place, hstate]
    refine ⟨s, by rw [Scheduler.unlink, hstate], ?_⟩
    rw [h.buried_of_not_waiting ht (by simp [hstate]),
      LevelQueue.erase_of_not_mem (h.queued.not_mem_ready hnone t.priority)]
    rfl
  | ready =>
    have hready : s.place id = some (.ready t.priority) := by rw [hplace, Thread.place, hstate]
    -- The search goes through all levels, and finds the thread at its own.
    have hmem : id ∈ s.ready.level t.priority := (h.queued.mem_ready _ _).mpr hready
    have honly : ∀ p, id ∈ s.ready.level p → p = t.priority := by
      intro p hp
      have hp' := (h.queued.mem_ready _ _).mp hp
      rw [hready, Option.some.injEq, Place.ready.injEq] at hp'
      exact hp'.symm
    refine ⟨{ s with ready := s.ready.erase t.priority id }, ?_, ?_⟩
    · rw [Scheduler.unlink, hstate]
      simp only [LevelQueue.takeLowest?_beq hmem honly]
    · rw [h.buried_of_not_waiting ht (by simp [hstate])]
      rfl
  | waiting =>
    obtain ⟨reason, hreason⟩ := Option.isSome_iff_exists.mp (htidy.waiting_iff.mp hstate)
    have hwaiting : s.place id = some (.waiting reason) := by
      rw [hplace, htidy.place_waiting hreason]
    have hready : s.ready.erase t.priority id = s.ready := by
      apply LevelQueue.erase_of_not_mem
      rw [h.queued.mem_ready, hwaiting]
      simp
    -- With the thread's wish forgotten and its waiter entry gone, what is left is `stopWaiting`.
    let wishless : Scheduler κ :=
      { s.update id fun t => { t with wanted := none } with
        mutexes := t.wanted.elim s.mutexes fun m => s.mutexes.modify m (·.stopWaiting id) }
    have hwishless : wishless.threads.get? id = some { t with wanted := none } := by
      show (s.update id _).threads.get? id = _
      rw [get?_update, if_pos rfl, ht, Option.map_some]
    have hunlink : s.unlink id t = wishless.stopWaiting id := by
      rw [Scheduler.unlink, hstate]
      cases hwanted : t.wanted with
      | none => simp only [wishless, hwanted]; rfl
      | some m => simp only [wishless, hwanted]; rfl
    refine ⟨{ wishless.update id Thread.disarm with waiting := s.waiting.remove reason id }, ?_, ?_⟩
    · rw [hunlink, stopWaiting, expect_eq hwishless]
      simp only [bind, Except.bind, hreason]
      rfl
    · rw [Scheduler.buried, hready, hreason]
      simp only [wishless, Scheduler.update, Registry.modify_modify]
      rfl

theorem Orderly.buried (h : s.Orderly) (ht : s.threads.get? id = some t) :
    (s.buried id t).Orderly := by
  have htidy := h.tidy ht
  have hbury : t.bury.Tidy :=
    ⟨by simp [Thread.bury, Thread.disarm], by simp [Thread.bury, Thread.disarm],
      by simp [Thread.bury, Thread.disarm], htidy.held⟩
  refine h.modify (f := Thread.bury) ht rfl ?_ rfl hbury (by simp [Thread.bury]) ?_ ?_
  · show (t.wanted.elim s.mutexes fun m => s.mutexes.modify m (·.stopWaiting id)).Ordered
    cases t.wanted with
    | none => exact h.mutexes
    | some m => exact Registry.Ordered.modify h.mutexes m (·.stopWaiting id)
  · have hnone : t.bury.place = none := rfl
    rw [hnone]
    exact h.queued.leave htidy (place_eq ht)
  · show Owned _ (t.wanted.elim s.mutexes fun m => s.mutexes.modify m (·.stopWaiting id))
    cases hwanted : t.wanted with
    | none => exact h.owned.modify ht rfl rfl (by rw [hwanted]; rfl)
    | some m => exact h.owned.renounce ht hwanted rfl rfl rfl

/-! ## Handing everything over -/

/-- What the hand-overs of a thread do to the others: the new owners have received their mutex, and
the rest are as they were. -/
structure Inherited (s s' : Scheduler κ) (id : ThreadId) (handoffs : List (MutexId × ThreadId)) :
    Prop where
  current : s'.current = s.current
  heir : ∀ {m j}, (m, j) ∈ handoffs → j ≠ id ∧ ∃ u, s.threads.get? j = some u ∧
    u.wanted = some m ∧ s'.threads.get? j = some (u.receive m)
  same : ∀ {j}, j ≠ id → (∀ m, (m, j) ∉ handoffs) → s'.threads.get? j = s.threads.get? j

/-- Everybody but the terminated thread keeps their priority. -/
theorem Inherited.priority {s s' : Scheduler κ} {handoffs : List (MutexId × ThreadId)}
    (h : s.Inherited s' id handoffs) {j : ThreadId} {u : Thread κ} (hj : j ≠ id)
    (hu : s.threads.get? j = some u) :
    ∃ v, s'.threads.get? j = some v ∧ v.priority = u.priority := by
  by_cases hin : ∃ m, (m, j) ∈ handoffs
  · obtain ⟨m, hin⟩ := hin
    obtain ⟨-, v, hv, -, hreceived⟩ := h.heir hin
    obtain rfl : u = v := Option.some.inj (hu.symm.trans hv)
    exact ⟨_, hreceived, rfl⟩
  · exact ⟨u, (h.same hj (not_exists.mp hin)).trans hu, rfl⟩

/-- The hand-over of one mutex comes before those of the others. A thread receives at most one of
them, because it wants at most one. -/
theorem Inherited.cons {s s₁ s₂ : Scheduler κ} {m : MutexId} {next : Option ThreadId}
    {handoffs : List (MutexId × ThreadId)} (hcurrent : s₁.current = s.current)
    (hnext : ∀ j, next = some j → j ≠ id ∧ ∃ v, s.threads.get? j = some v ∧ v.wanted = some m)
    (hget : ∀ j, s₁.threads.get? j =
      if next = some j then (s.threads.get? j).map (·.receive m)
      else if j = id then (s.threads.get? j).map (·.letGo m) else s.threads.get? j)
    (h : Inherited s₁ s₂ id handoffs) :
    Inherited s s₂ id (next.elim handoffs fun j => (m, j) :: handoffs) := by
  -- The new owner of the first mutex wants nothing any more, so it is not among the later ones.
  have hreceived : ∀ u : Thread κ, (u.receive m).wanted = none := fun _ => rfl
  have hmem : ∀ m' j, (m', j) ∈ (next.elim handoffs fun j => (m, j) :: handoffs) ↔
      (next = some j ∧ m' = m) ∨ (m', j) ∈ handoffs := by
    intro m' j
    cases next with
    | none => simp
    | some k => simp [and_comm, eq_comm]
  refine ⟨h.current.trans hcurrent, ?_, ?_⟩
  · intro m' j hin
    have hheir := fun m' (hrest : (m', j) ∈ handoffs) => h.heir hrest
    have hsame := h.same (j := j)
    have hj := hget j
    have hnext' := hnext j
    rw [hmem] at hin
    grind
  · intro j hj hout
    have hsame := h.same hj
    have hgetj := hget j
    simp only [hmem] at hout
    grind

theorem Orderly.handOverAll (h : s.Orderly) (ht : s.threads.get? id = some t)
    {ms : List MutexId} (hheld : t.held = ms) :
    ∃ handoffs s', s.handOverAll id ms = .ok (handoffs, s') ∧ s'.Orderly ∧
      s'.threads.get? id = some { t with held := [] } ∧ s.Inherited s' id handoffs := by
  -- On the mutexes that are still held: after a hand-over the record holds one less.
  induction ms generalizing s t with
  | nil =>
    refine ⟨[], s, rfl, h, ?_, rfl, by simp, fun _ _ => rfl⟩
    rw [ht, ← hheld]
  | cons m rest ih =>
    obtain ⟨x, hx, howner⟩ := (h.owned.owner_iff m id).mpr ⟨t, ht, by simp [hheld]⟩
    obtain ⟨next, s₁, heq, horderly, hcurrent, hnext, hget⟩ := h.handOver hx howner ht
    have ht₁ : s₁.threads.get? id = some (t.letGo m) := by
      have hnot : next ≠ some id := fun hid => (hnext id hid).1 rfl
      rw [hget, if_neg hnot, if_pos rfl, ht, Option.map_some]
    have hrest : (t.letGo m).held = rest := ((h.tidy ht).letGo_of_held hheld).2
    obtain ⟨handoffs, s₂, heqAll, horderly₂, ht₂, hinherited⟩ := ih horderly ht₁ hrest
    refine ⟨next.elim handoffs fun j => (m, j) :: handoffs, s₂, ?_, horderly₂, ht₂,
      Inherited.cons hcurrent hnext hget hinherited⟩
    rw [Scheduler.handOverAll, heq]
    show (s₁.handOverAll id rest >>= fun _ => _) = _
    rw [heqAll]
    cases next <;> rfl

/-! ## The whole termination -/

/-- Whether somebody outranks the running thread can be asked if all are registered. -/
theorem anyOutranks_eq {current : ThreadId} {c : Thread κ} (hcurrent : s.current = some current)
    (hc : s.threads.get? current = some c) {handoffs : List (MutexId × ThreadId)}
    (hall : ∀ entry ∈ handoffs, ∃ u, s.threads.get? entry.2 = some u) :
    s.anyOutranks handoffs = .ok (handoffs.any fun entry =>
      (s.threads.get? entry.2).any fun u => decide (c.priority < u.priority)) := by
  induction handoffs with
  | nil => rfl
  | cons entry rest ih =>
    obtain ⟨m, j⟩ := entry
    obtain ⟨⟨u, hu⟩, hrest⟩ := List.forall_mem_cons.mp hall
    rw [anyOutranks, outranksCurrent_eq hcurrent hc hu]
    show (if decide (c.priority < u.priority) = true then pure true else s.anyOutranks rest) = _
    rw [ih hrest, List.any_cons, hu, Option.any_some]
    cases decide (c.priority < u.priority) <;> rfl

/-- A thread is buried and hands over what it holds, without failure. -/
theorem Orderly.bequeath (h : s.Orderly) (hempty : s.EmptyHanded)
    (ht : s.threads.get? id = some t) :
    ∃ handoffs s', (s.buried id t).handOverAll id t.held = .ok (handoffs, s') ∧ s'.Orderly ∧
      s'.EmptyHanded ∧ s'.threads.get? id = some { t.bury with held := [] } ∧
      s.Inherited s' id handoffs := by
  have ht' : (s.buried id t).threads.get? id = some t.bury := by
    rw [get?_buried, if_pos rfl, ht, Option.map_some]
  obtain ⟨handoffs, s', heq, horderly, hdead, hinherited⟩ := (h.buried ht).handOverAll ht' rfl
  have hothers : ∀ j, j ≠ id → (s.buried id t).threads.get? j = s.threads.get? j := by
    intro j hj
    rw [get?_buried, if_neg hj]
  have hinherited' : s.Inherited s' id handoffs := by
    refine ⟨hinherited.current, ?_, ?_⟩
    · intro m j hin
      obtain ⟨hj, hheir⟩ := hinherited.heir hin
      rw [hothers j hj] at hheir
      exact ⟨hj, hheir⟩
    · intro j hj hout
      rw [hinherited.same hj hout, hothers j hj]
  refine ⟨handoffs, s', heq, horderly, fun {j u} hu hstate => ?_, hdead, hinherited'⟩
  by_cases hj : j = id
  · obtain rfl := Option.some.inj (hdead.symm.trans (hj ▸ hu))
    rfl
  · by_cases hin : ∃ m, (m, j) ∈ handoffs
    · obtain ⟨m, hin⟩ := hin
      obtain ⟨-, v, -, -, hv⟩ := hinherited'.heir hin
      obtain rfl := Option.some.inj (hv.symm.trans hu)
      simp [Thread.receive] at hstate
    · rw [hinherited'.same hj (not_exists.mp hin)] at hu
      exact hempty hu hstate

/-- Ending the life of a thread that is not dead never fails. -/
theorem Orderly.terminate (h : s.Orderly) (hempty : s.EmptyHanded)
    (ht : s.threads.get? id = some t) (halive : t.state ≠ .dead) {current : ThreadId}
    {c : Thread κ} (hcurrent : s.current = some current) (hc : s.threads.get? current = some c) :
    ∃ report s', s.terminate id = .ok (report, s') ∧ s'.Orderly ∧ s'.EmptyHanded ∧
      s'.threads.get? id = some { t.bury with held := [] } ∧
      s.Inherited s' id report.handoffs ∧ report.previous = t.state ∧
      report.preempt = (!(t.state == .running) && report.handoffs.any fun entry =>
        (s'.threads.get? entry.2).any fun u => decide (c.priority < u.priority)) := by
  obtain ⟨left, hunlink, hburied⟩ := h.unlink ht halive
  obtain ⟨handoffs, s', heq, horderly, hempty', hdead, hinherited⟩ := h.bequeath hempty ht
  -- The running thread may be the one that ends. Its priority is asked for all the same.
  have hc' : ∃ c', s'.threads.get? current = some c' ∧ c'.priority = c.priority := by
    by_cases hid : current = id
    · subst hid
      obtain rfl : t = c := Option.some.inj (ht.symm.trans hc)
      exact ⟨_, hdead, rfl⟩
    · exact hinherited.priority hid hc
  obtain ⟨c', hc', hpriority⟩ := hc'
  have hall : ∀ entry ∈ handoffs, ∃ u, s'.threads.get? entry.2 = some u := by
    rintro ⟨m, j⟩ hin
    obtain ⟨-, u, -, -, hu⟩ := hinherited.heir hin
    exact ⟨_, hu⟩
  have hpreempt := anyOutranks_eq (hinherited.current.trans hcurrent) hc' hall
  refine ⟨⟨t.state, handoffs, !(t.state == .running) && handoffs.any fun entry =>
    (s'.threads.get? entry.2).any fun u => decide (c.priority < u.priority)⟩, s', ?_, horderly,
    hempty', hdead, hinherited, rfl, rfl⟩
  have hnotDead : t.isDead = false := by simp [Thread.isDead, halive]
  rw [Scheduler.terminate, find_eq ht]
  show (if t.isDead then _ else _) = _
  rw [hnotDead, hunlink]
  show Except.mapError Failure.broken
    ((left.update id fun t => { t with state := .dead }).handOverAll id t.held >>= _) = _
  rw [hburied, heq]
  show Except.mapError Failure.broken (if t.state = .running then _ else _) = _
  by_cases hrunning : t.state = .running
  · rw [if_pos hrunning, hrunning]
    rfl
  · rw [if_neg hrunning]
    show Except.mapError Failure.broken (s'.anyOutranks handoffs >>= _) = _
    rw [hpreempt, hpriority, beq_eq_false_iff_ne.mpr hrunning]
    rfl

theorem terminate_unknown (ht : s.threads.get? id = none) :
    s.terminate id = .error (.refused .invalidId) := by
  rw [terminate, find_eq_error ht]
  rfl

theorem terminate_dead (ht : s.threads.get? id = some t) (hdead : t.state = .dead) :
    s.terminate id = .error (.refused .invalidState) := by
  rw [terminate, find_eq ht]
  show (if t.isDead then _ else _) = _
  rw [Thread.isDead, hdead]
  rfl

/-- What a termination does that succeeds: it buries the thread and hands over what it holds. -/
theorem Orderly.terminate_eq_ok (h : s.Orderly) {report : Termination} {s' : Scheduler κ}
    (hok : s.terminate id = .ok (report, s')) :
    ∃ t, s.threads.get? id = some t ∧ t.state ≠ .dead ∧
      (s.buried id t).handOverAll id t.held = .ok (report.handoffs, s') := by
  cases ht : s.threads.get? id with
  | none =>
    rw [terminate_unknown ht] at hok
    cases hok
  | some t =>
    by_cases hdead : t.state = .dead
    · rw [terminate_dead ht hdead] at hok
      cases hok
    · obtain ⟨left, hunlink, hburied⟩ := h.unlink ht hdead
      have hnot : t.isDead = false := by simpa [Thread.isDead] using hdead
      refine ⟨t, rfl, hdead, ?_⟩
      rw [Scheduler.terminate, find_eq ht] at hok
      obtain ⟨u, hu, hok⟩ := bind_eq_ok hok
      obtain rfl := Except.ok.inj hu
      rw [hnot, if_neg Bool.false_ne_true] at hok
      obtain ⟨left', hleft', hok⟩ := bind_eq_ok (mapError_eq_ok hok)
      obtain rfl := Except.ok.inj (hunlink.symm.trans hleft')
      obtain ⟨⟨handoffs, s₁⟩, hall, hok⟩ := bind_eq_ok hok
      rw [hburied] at hall
      dsimp only at hok
      split at hok
      · obtain ⟨rfl, rfl⟩ := Prod.mk.inj (Except.ok.inj hok)
        exact hall
      · obtain ⟨preempt, -, hok⟩ := bind_eq_ok hok
        obtain ⟨rfl, rfl⟩ := Prod.mk.inj (Except.ok.inj hok)
        exact hall

end Scheduler

end CoopKernel
