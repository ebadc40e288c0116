import CoopKernel.Proofs.Scheduler.Moves

/-!
# Threads that come and go

A thread is added and removed while it is dead and holds nothing, so nothing else mentions it
(`Thread.Blank`). That is why neither touches the agreement of records, queues and mutexes.
-/

namespace CoopKernel

variable {κ : Type}

/-- A record that nothing else mentions: the thread is dead, holds nothing and wants nothing. -/
structure Thread.Blank (thread : Thread κ) : Prop where
  tidy : thread.Tidy
  dead : thread.state = .dead
  held : thread.held = []

namespace Scheduler

variable {s : Scheduler κ} {id : ThreadId} {t : Thread κ}

/-- Blank records may come and go. -/
theorem Orderly.exchange (h : s.Orderly) {threads : Registry .thread (Thread κ)}
    (hordered : threads.Ordered)
    (hsame : ∀ other, threads.get? other = s.threads.get? other ∨
      (∀ t, s.threads.get? other = some t → t.Blank) ∧
        ∀ t, threads.get? other = some t → t.Blank) :
    ({ s with threads } : Scheduler κ).Orderly := by
  have hwanted : ∀ t : Thread κ, t.Blank → t.wanted = none := fun t hblank =>
    hblank.tidy.wanted_eq_none (by simp [hblank.dead])
  have hdead : ∀ t : Thread κ, t.Blank → t.state = .dead := fun _ => Thread.Blank.dead
  have hheld : ∀ t : Thread κ, t.Blank → t.held = [] := fun _ => Thread.Blank.held
  -- At each handle either nothing has changed, or the records before and after count for nothing.
  refine ⟨hordered, h.mutexes, ?_, ?_, ?_, ?_, ?_, h.owned.nodup_waiters, ?_⟩
  · intro other t ht
    rcases hsame other with heq | ⟨-, hblank⟩
    · exact h.tidy (heq ▸ ht)
    · exact (hblank t ht).tidy
  · intro other t ht hrunning
    rcases hsame other with heq | ⟨-, hblank⟩
    · exact h.running (heq ▸ ht) hrunning
    · exact absurd hrunning (by simp [(hblank t ht).dead])
  · have hplace : ({ s with threads } : Scheduler κ).place = s.place := by
      funext other
      rw [place, place]
      rcases hsame other with heq | ⟨hold, hnew⟩
      · rw [heq]
      · have hnone : ∀ t : Thread κ, t.Blank → t.place = none := by
          intro t hblank
          rw [Thread.place, hblank.dead]
        have hbind : ∀ o : Option (Thread κ), (∀ t, o = some t → t.Blank) →
            o.bind Thread.place = none := by
          rintro (_ | t) hall
          · rfl
          · exact hnone t (hall t rfl)
        rw [hbind _ hold, hbind _ hnew]
    rw [hplace]
    exact h.queued
  · intro m other
    rw [h.owned.owner_iff]
    have hsame := hsame other
    grind
  · intro m x hx other p
    rw [h.owned.mem_waiters hx]
    have hsame := hsame other
    grind
  · intro other t m ht hm
    rcases hsame other with heq | ⟨-, hblank⟩
    · exact h.owned.wanted_owned (heq ▸ ht) hm
    · exact absurd hm (by simp [hwanted t (hblank t ht)])

/-! ## Coming -/

/-- The record of a thread that has just been added. -/
def newcomer (s : Scheduler κ) (stem : String) (p : Priority) (stack : Option Stack) : Thread κ :=
  { name := stem ++ "-" ++ toString s.threads.next, priority := p, stack }

theorem Orderly.add (h : s.Orderly) (hblank : t.Blank) :
    ({ s with threads := s.threads.add t } : Scheduler κ).Orderly := by
  refine h.exchange (h.threads.add t) ?_
  intro other
  rw [Registry.get?_add h.threads]
  split
  · next heq =>
    subst heq
    rw [Registry.get?_nextHandle h.threads]
    exact .inr ⟨by simp, fun u hu => Option.some.inj hu ▸ hblank⟩
  · exact .inl rfl

theorem blank_newcomer (s : Scheduler κ) (stem : String) (p : Priority) (stack : Option Stack) :
    (s.newcomer stem p stack).Blank :=
  ⟨⟨by simp [newcomer], fun _ => rfl, by simp [newcomer], List.Pairwise.nil⟩, rfl, rfl⟩

/-! ## Going -/

/-- A thread is removed if it is dead. -/
theorem removeThread_eq (ht : s.threads.get? id = some t) :
    s.removeThread id =
      if t.state = .dead then .ok (t, { s with threads := s.threads.erase id })
      else .error .invalidState := by
  rw [removeThread, find_eq ht]
  show (if !t.isDead then _ else _) = _
  by_cases hdead : t.state = .dead
  · rw [Thread.isDead, hdead]
    rfl
  · rw [Thread.isDead, if_neg hdead, beq_eq_false_iff_ne.mpr hdead]
    rfl

theorem removeThread_unknown (ht : s.threads.get? id = none) :
    s.removeThread id = .error .invalidId := by
  rw [removeThread, find_eq_error ht]
  rfl

theorem Orderly.erase (h : s.Orderly) (ht : s.threads.get? id = some t) (hblank : t.Blank) :
    ({ s with threads := s.threads.erase id } : Scheduler κ).Orderly := by
  refine h.exchange (h.threads.erase id) ?_
  intro other
  rw [Registry.get?_erase]
  split
  · next heq =>
    subst heq
    rw [ht]
    exact .inr ⟨fun u hu => Option.some.inj hu ▸ hblank, by simp⟩
  · exact .inl rfl

end Scheduler

end CoopKernel
