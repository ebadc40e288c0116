import CoopKernel.Kernel.Mutexes
import CoopKernel.Proofs.Kernel.Switching
import CoopKernel.Proofs.Scheduler.HandOver

/-!
# Mutex calls go on

Each mutex call of a running thread succeeds and leaves a sound kernel.
-/

namespace CoopKernel.Kernel

variable {ε : Type} {W : PoolId → Prop} {k : Kernel ε} {me : ThreadId} {t : Thread (Position ε)}

/-- The running thread serves on if only the mutexes have changed. -/
theorem Serving.remutex (h : k.Serving W me t) {s' : Scheduler (Position ε)} (horderly : s'.Orderly)
    (hthreads : s'.threads = k.sched.threads) (hcurrent : s'.current = k.sched.current) :
    ({ k with sched := s' } : Kernel ε).Serving W me t := by
  have hroused : k.sched.Roused s' := .of_get? hcurrent fun _ => .inl (by rw [hthreads])
  refine ⟨⟨h.going, h.settled.roused hroused horderly, hcurrent.trans h.current, ?_, h.running⟩, ?_,
    h.inside, h.program⟩
  · show s'.threads.get? me = some t
    rw [hthreads, h.record]
  · intro j v hv hready
    change s'.threads.get? j = some v at hv
    rw [hthreads] at hv
    exact h.unrivalled hv hready

theorem Serving.mutexCreate (h : k.Serving W me t) : GoesOn W k.mutexCreate :=
  ((h.remutex h.settled.sched.createMutex rfl rfl).emit _).goesOn_reply _

theorem Serving.mutexDelete (h : k.Serving W me t) (m : MutexId) :
    GoesOn W (k.mutexDelete m) := by
  refine h.orRefuse ?_
  intro s' hs'
  obtain ⟨x, hx, hfree, rfl⟩ := Scheduler.deleteMutex_eq_ok hs'
  exact ((h.remutex (h.settled.sched.deleteMutex hx hfree) rfl rfl).emit _).goesOn_reply _

/-- The running thread serves on with a mutex that it has found free. -/
theorem Serving.locked (h : k.Serving W me t) {m : MutexId} {x : Mutex}
    (hx : k.sched.mutexes.get? m = some x) (hfree : x.owner = none) :
    ({ k with sched := k.sched.locked m me } : Kernel ε).Serving W me (t.hold m) := by
  have horderly := h.settled.sched.locked hx hfree h.record
  have hroused : k.sched.Roused (k.sched.locked m me) :=
    .of_modify (f := fun t => t.hold m) rfl rfl h.record
      ⟨rfl, rfl, rfl, by simp [h.running], .inl ⟨rfl, rfl, rfl⟩⟩
  have hrecord : (k.sched.locked m me).threads.get? me = some (t.hold m) := by
    rw [Scheduler.get?_locked, if_pos rfl, h.record, Option.map_some]
  refine ⟨⟨h.going, h.settled.roused hroused horderly, h.current, hrecord, h.running⟩, ?_,
    h.inside, h.program⟩
  intro j v hv hready
  change (k.sched.locked m me).threads.get? j = some v at hv
  rw [Scheduler.get?_locked] at hv
  split at hv
  · rw [h.record, Option.map_some, Option.some.injEq] at hv
    simp [← hv, Thread.hold, h.running] at hready
  · exact h.unrivalled hv hready

/-- The running thread waits for a mutex that somebody else owns. -/
theorem Serving.await (h : k.Serving W me t) {m : MutexId} {x : Mutex} {owner : ThreadId}
    (hx : k.sched.mutexes.get? m = some x) (howner : x.owner = some owner) (hne : owner ≠ me)
    (timeout : Timeout) :
    GoesOn W ((({ k with sched := k.sched.enlisted m me t.priority timeout } : Kernel ε).emit
      (.block m me)).switchNext (.inside (.acquire m me))) := by
  have hrecord := Scheduler.get?_enlisted k.sched m me me t.priority timeout
  rw [if_pos rfl, h.record, Option.map_some] at hrecord
  refine h.stepAside rfl h.inside rfl rfl rfl
    (h.settled.sched.enlisted hx howner hne h.record h.running timeout) rfl ?_ hrecord
    (.inr ⟨rfl, h.program⟩) rfl rfl (by simp [Thread.arm]) ?_ fun hidle => absurd hidle h.program
  · intro j hj
    show (k.sched.enlisted m me t.priority timeout).threads.get? j = _
    rw [Scheduler.get?_enlisted, if_neg hj]
  · refine ⟨fun _ => rfl, ?_, fun _ => ⟨_, rfl, rfl, rfl⟩⟩
    rintro _ pending hhere
    cases hhere
    rfl

theorem Serving.acquire (h : k.Serving W me t) (m : MutexId) (timeout : Timeout) :
    GoesOn W (k.acquire m timeout) := by
  rw [Kernel.acquire, h.me_eq]
  simp only [bind, Except.bind]
  cases hx : k.sched.mutexes.get? m with
  | none =>
    rw [Scheduler.tryLock_unknown hx]
    exact h.goesOn_reply _
  | some x =>
    cases howner : x.owner with
    | none =>
      rw [Scheduler.tryLock_free hx howner h.record]
      exact ((h.locked hx howner).emit _).goesOn_reply _
    | some owner =>
      by_cases hne : owner = me
      · rw [Scheduler.tryLock_own hx (hne ▸ howner)]
        exact h.goesOn_reply _
      · rw [Scheduler.tryLock_other hx howner hne]
        dsimp only
        split
        · exact h.goesOn_reply _
        · rw [Scheduler.waitForMutex_eq h.record hx]
          exact h.await hx howner hne timeout.normalized

/-- A thread that goes on after a wait for a mutex finds that it owns it or not. -/
theorem Serving.finishAcquire (h : k.Serving W me t) (m : MutexId) :
    GoesOn W (k.finishAcquire m me) := by
  have hnone : t.wanted = none :=
    (h.settled.sched.tidy h.record).wanted_eq_none (by simp [h.running])
  rw [Kernel.finishAcquire, h.settled.sched.finishMutexWait_eq h.record hnone m]
  show GoesOn W (if (k.sched.mutexes.get? m).any fun x => x.owner == some me then _ else _)
  split
  · exact (h.emit _).goesOn_reply _
  · exact (h.emit _).goesOn_reply _

/-- A hand-over rouses at most the next owner. -/
theorem roused_handOver {s s' : Scheduler (Position ε)} {m : MutexId} {next : Option ThreadId}
    (horderly : s.Orderly) (ht : s.threads.get? me = some t) (hrunning : t.state = .running)
    (hcurrent : s'.current = s.current)
    (hnext : ∀ j, next = some j → j ≠ me ∧ ∃ v, s.threads.get? j = some v ∧ v.wanted = some m)
    (hget : ∀ j, s'.threads.get? j =
      if next = some j then (s.threads.get? j).map (·.receive m)
      else if j = me then (s.threads.get? j).map (·.letGo m) else s.threads.get? j) :
    s.Roused s' := by
  -- The record of the new owner, that of the old one, and those of the others.
  refine .of_get? hcurrent ?_
  intro j
  rw [hget]
  split
  · next hj =>
    obtain ⟨-, v, hv, hwanted⟩ := hnext j hj
    refine .inr ⟨v, v.receive m, hv, by rw [hv, Option.map_some], ?_⟩
    exact .receive (horderly.tidy hv) hwanted
  · split
    · next hj =>
      subst hj
      refine .inr ⟨t, t.letGo m, ht, by rw [ht, Option.map_some], rfl, rfl, rfl, ?_,
        .inl ⟨rfl, rfl, rfl⟩⟩
      simp [hrunning]
    · exact .inl rfl

theorem Serving.release (h : k.Serving W me t) (m : MutexId) : GoesOn W (k.release m) := by
  rw [Kernel.release, h.me_eq]
  show GoesOn W (k.orFail (k.sched.release m me) _)
  cases hx : k.sched.mutexes.get? m with
  | none =>
    rw [Scheduler.release_unknown hx]
    exact h.goesOn_reply _
  | some x =>
    rw [Scheduler.release_eq hx]
    split
    · next howner =>
      obtain ⟨next, s', heq, horderly, hcurrent, hnext, hget⟩ :=
        h.settled.sched.handOver hx howner h.record
      have hroused := roused_handOver h.settled.sched h.record h.running hcurrent hnext hget
      obtain ⟨t', ht', hpriority⟩ : ∃ t', ({ k with sched := s' } : Kernel ε).Runs W me t' ∧ _ :=
        h.toRuns.roused rfl rfl rfl rfl hroused horderly
      -- Whoever is ready now, apart from the new owner, was ready before.
      have hrank : ∀ {j v}, next ≠ some j → s'.threads.get? j = some v → v.state = .ready →
          v.priority ≤ t'.priority := by
        intro j v hj hv hready
        rw [hget, if_neg hj] at hv
        rw [hpriority]
        split at hv
        · next heq =>
          rw [heq, h.record, Option.map_some, Option.some.injEq] at hv
          simp [← hv, Thread.letGo, h.running] at hready
        · exact h.unrivalled hv hready
      rw [heq]
      cases next with
      | none =>
        have hserving : ({ k with sched := s' } : Kernel ε).Serving W me t' :=
          ⟨ht', fun hv hready => hrank (by simp) hv hready, h.inside, h.program⟩
        exact (hserving.emit _).goesOn_reply _
      | some next =>
        obtain ⟨-, v, hv, -⟩ := hnext next rfl
        have hv' : s'.threads.get? next = some (v.receive m) := by
          rw [hget, if_pos rfl, hv, Option.map_some]
        have hruns : ((({ k with sched := s' } : Kernel ε).emit (.release m me)).emit
            (.handoff m next)).Runs W me t' :=
          ⟨ht'.going, ht'.settled, ht'.current, ht'.record, ht'.running⟩
        exact hruns.preemptFor h.inside h.program hv'
          (fun hj hv hready => hrank (by simpa using Ne.symm hj) hv hready) _
    · exact h.goesOn_reply _

end CoopKernel.Kernel
