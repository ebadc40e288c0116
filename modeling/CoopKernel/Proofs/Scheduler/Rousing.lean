import CoopKernel.Proofs.Scheduler.Ownership

/-!
# Rousing

What happens to the threads that the running one does not deal with is mostly that their waits end.
`Scheduler.Roused` says that nothing else happened: every thread is as it was before, except that
some of those that waited for something other than memory may be ready now. A statement about
records that does not mind such threads is carried over by `Roused` whatever operation roused them.
-/

namespace CoopKernel

variable {κ : Type}

/-- A record before and after something that may have ended its thread's wait. -/
structure Thread.Roused (t t' : Thread κ) : Prop where
  priority : t'.priority = t.priority
  stack : t'.stack = t.stack
  position : t'.position = t.position
  dead : t.state = .dead → t'.held = t.held
  state : (t'.state = t.state ∧ t'.waitingFor = t.waitingFor ∧ t'.wanted = t.wanted) ∨
    (t.state = .waiting ∧ t.waitingFor ≠ some .memory ∧ t'.state = .ready)

namespace Thread.Roused

theorem refl (t : Thread κ) : t.Roused t :=
  ⟨rfl, rfl, rfl, fun _ => rfl, .inl ⟨rfl, rfl, rfl⟩⟩

/-- Nobody is roused but the waiting. -/
theorem state_eq {t t' : Thread κ} (h : t.Roused t') (hstate : t.state ≠ .waiting) :
    t'.state = t.state := by
  rcases h.state with ⟨heq, -, -⟩ | ⟨hwaiting, -, -⟩
  · exact heq
  · exact absurd hwaiting hstate

/-- Whoever is not ready afterwards was not roused. -/
theorem eq_of_not_ready {t t' : Thread κ} (h : t.Roused t') (hstate : t'.state ≠ .ready) :
    t'.state = t.state ∧ t'.waitingFor = t.waitingFor ∧ t'.wanted = t.wanted := by
  rcases h.state with hsame | ⟨-, -, hready⟩
  · exact hsame
  · exact absurd hready hstate

/-- The living stay alive. -/
theorem alive {t t' : Thread κ} (h : t.Roused t') (halive : t.state ≠ .dead) :
    t'.state ≠ .dead := by
  intro hdead
  exact halive ((h.eq_of_not_ready (by simp [hdead])).1.symm.trans hdead)

theorem trans {t u v : Thread κ} (h : t.Roused u) (h' : u.Roused v) : t.Roused v where
  priority := h'.priority.trans h.priority
  stack := h'.stack.trans h.stack
  position := h'.position.trans h.position
  dead := by
    intro hdead
    have hdead' : u.state = .dead := (h.state_eq (by simp [hdead])).trans hdead
    rw [h'.dead hdead', h.dead hdead]
  state := by
    rcases h.state with ⟨hstate, hreason, hwanted⟩ | ⟨hwaiting, hreason, hready⟩
    · rw [← hstate, ← hreason, ← hwanted]
      exact h'.state
    · -- A thread is roused once: the second time it is ready and not waiting.
      exact .inr ⟨hwaiting, hreason, (h'.state_eq (by simp [hready])).trans hready⟩

/-- A thread that receives the mutex it waits for is roused. -/
theorem receive {t : Thread κ} (h : t.Tidy) {m : MutexId} (hwanted : t.wanted = some m) :
    t.Roused (t.receive m) := by
  obtain ⟨hstate, hmutex⟩ := h.waiting_of_wanted hwanted
  exact ⟨rfl, rfl, rfl, by simp [hstate], .inr ⟨hstate, by simp [hmutex], rfl⟩⟩

end Thread.Roused

namespace Scheduler

/-- Every thread is as it was, or was waiting for something other than memory and is ready. -/
structure Roused (s s' : Scheduler κ) : Prop where
  current : s'.current = s.current
  forth : ∀ {id t}, s.threads.get? id = some t →
    ∃ t', s'.threads.get? id = some t' ∧ t.Roused t'
  back : ∀ {id t'}, s'.threads.get? id = some t' →
    ∃ t, s.threads.get? id = some t ∧ t.Roused t'

namespace Roused

variable {s s' s'' : Scheduler κ} {id : ThreadId} {t : Thread κ}

theorem refl (s : Scheduler κ) : s.Roused s :=
  ⟨rfl, fun h => ⟨_, h, .refl _⟩, fun h => ⟨_, h, .refl _⟩⟩

theorem trans (h : s.Roused s') (h' : s'.Roused s'') : s.Roused s'' where
  current := h'.current.trans h.current
  forth := by
    intro id t ht
    obtain ⟨t', ht', hroused⟩ := h.forth ht
    obtain ⟨t'', ht'', hroused'⟩ := h'.forth ht'
    exact ⟨t'', ht'', hroused.trans hroused'⟩
  back := by
    intro id t'' ht''
    obtain ⟨t', ht', hroused'⟩ := h'.back ht''
    obtain ⟨t, ht, hroused⟩ := h.back ht'
    exact ⟨t, ht, hroused.trans hroused'⟩

/-- Rousing is seen thread by thread. -/
theorem of_get? (hcurrent : s'.current = s.current)
    (hget : ∀ id, s'.threads.get? id = s.threads.get? id ∨
      ∃ t t', s.threads.get? id = some t ∧ s'.threads.get? id = some t' ∧ t.Roused t') :
    s.Roused s' where
  current := hcurrent
  forth := by
    intro id t ht
    rcases hget id with heq | ⟨u, u', hu, hu', hroused⟩
    · exact ⟨t, heq.trans ht, .refl t⟩
    · obtain rfl : t = u := Option.some.inj (ht.symm.trans hu)
      exact ⟨u', hu', hroused⟩
  back := by
    intro id t ht
    rcases hget id with heq | ⟨u, u', hu, hu', hroused⟩
    · exact ⟨t, heq.symm.trans ht, .refl t⟩
    · obtain rfl : t = u' := Option.some.inj (ht.symm.trans hu')
      exact ⟨u, hu, hroused⟩

/-- Changing the record of one thread, to one that is roused at most. -/
theorem of_modify {f : Thread κ → Thread κ} (hcurrent : s'.current = s.current)
    (hthreads : s'.threads = s.threads.modify id f) (ht : s.threads.get? id = some t)
    (hroused : t.Roused (f t)) : s.Roused s' := by
  apply of_get? hcurrent
  intro other
  rw [hthreads, Registry.get?_modify]
  split
  · next heq =>
    subst heq
    exact .inr ⟨t, f t, ht, by rw [ht, Option.map_some], hroused⟩
  · exact .inl rfl

end Roused

theorem Orderly.roused_awakened {s : Scheduler κ} {id : ThreadId} {t : Thread κ} (h : s.Orderly)
    (ht : s.threads.get? id = some t) {reason : WaitReason} (hreason : t.waitingFor = some reason)
    (hnotMemory : reason ≠ .memory) : s.Roused (s.awakened id t.priority reason) := by
  have hstate : t.state = .waiting := (h.tidy ht).waiting_iff.mpr (by simp [hreason])
  exact .of_modify (f := fun t => { t.disarm with state := .ready }) rfl rfl ht
    ⟨rfl, rfl, rfl, fun _ => rfl, .inr ⟨hstate, by simp [hreason, hnotMemory], rfl⟩⟩

theorem Orderly.roused_resigned {s : Scheduler κ} {id : ThreadId} {t : Thread κ} (h : s.Orderly)
    (ht : s.threads.get? id = some t) {m : MutexId} (hmutex : t.waitingFor = some .mutex)
    (p : Priority) : s.Roused (s.resigned m id p) := by
  have hstate : t.state = .waiting := (h.tidy ht).waiting_iff.mpr (by simp [hmutex])
  exact .of_modify (f := fun t => { t.disarm with wanted := none, state := .ready }) rfl rfl ht
    ⟨rfl, rfl, rfl, fun _ => rfl, .inr ⟨hstate, by simp [hmutex], rfl⟩⟩

end Scheduler

end CoopKernel
