import CoopKernel.Kernel.Threads
import CoopKernel.Proofs.Kernel.Memory
import CoopKernel.Proofs.Scheduler.Termination

/-!
# Thread calls go on

Each thread call succeeds and leaves a sound kernel. The one thing a call can lose is coverage: a
thread that is terminated while it is about to try a pool again was perhaps the only reason to hope
for the threads that wait for the pool (`Serving.terminate`).
-/

namespace CoopKernel.Kernel

variable {ε : Type} {W : PoolId → Prop} {k : Kernel ε} {me id : ThreadId}
  {t u : Thread (Position ε)}

/-! ## Activation and rest -/

/-- The kernel after a thread was made ready to begin, before the call ends. -/
def begun (k : Kernel ε) (id : ThreadId) (p : Priority) (entry : Destination ε) : Kernel ε :=
  ({ k with sched := (k.sched.parked id (.delivering entry)).readied id p } : Kernel ε).emit
    (.threadActivate id)

theorem get?_begun (hu : k.sched.threads.get? id = some u) (entry : Destination ε) (j : ThreadId) :
    (k.begun id u.priority entry).sched.threads.get? j =
      if j = id then some { u with state := .ready, position := some (.delivering entry) }
      else k.sched.threads.get? j := by
  show ((k.sched.parked id _).readied id _).threads.get? j = _
  rw [Scheduler.get?_readied, Scheduler.get?_parked, Scheduler.get?_parked, if_pos rfl, hu]
  split <;> rfl

theorem get?_parked_self (hu : k.sched.threads.get? id = some u) (entry : Destination ε) :
    (k.sched.parked id (.delivering entry)).threads.get? id =
      some { u with position := some (.delivering entry) } := by
  rw [Scheduler.get?_parked, if_pos rfl, hu, Option.map_some]

theorem orderly_begun (h : k.sched.Orderly) (hu : k.sched.threads.get? id = some u)
    (hdead : u.state = .dead) (entry : Destination ε) :
    (k.begun id u.priority entry).sched.Orderly := by
  have hparked := h.parked hu (.delivering entry)
  have hreadied := hparked.readied (get?_parked_self hu entry) (.inl hdead)
  exact hreadied

/-- A dead thread that has an entry is about to begin when it is activated. -/
theorem activate_eq (hu : k.sched.threads.get? id = some u) (hdead : u.state = .dead)
    {entry : Destination ε} (hentry : k.entries.lookup id = some entry) :
    k.activate id = (k.begun id u.priority entry).preemptFor id (.ok .done) := by
  have hisDead : u.isDead = true := by simp [Thread.isDead, hdead]
  have hready : (k.sched.parked id (.delivering entry)).makeReady id = _ :=
    Scheduler.makeReady_eq (get?_parked_self hu entry)
  rw [Kernel.activate, Scheduler.find_eq hu]
  simp only [orRefuse, hisDead, hentry]
  show ((k.sched.parked id (.delivering entry)).makeReady id >>= _) = _
  rw [hready]
  rfl

/-- Anybody else cannot be activated. -/
theorem activate_cases (k : Kernel ε) (id : ThreadId) :
    (∃ status, k.activate id = .ok (k.refuse status)) ∨
      ∃ u entry, k.sched.threads.get? id = some u ∧ u.state = .dead ∧
        k.activate id = (k.begun id u.priority entry).preemptFor id (.ok .done) := by
  cases hu : k.sched.threads.get? id with
  | none =>
    rw [Kernel.activate, Scheduler.find_eq_error hu]
    exact .inl ⟨_, rfl⟩
  | some u =>
    by_cases hable : u.state = .dead ∧ ∃ entry, k.entries.lookup id = some entry
    · obtain ⟨hdead, entry, hentry⟩ := hable
      exact .inr ⟨u, entry, rfl, hdead, activate_eq hu hdead hentry⟩
    · refine .inl ⟨.invalidState, ?_⟩
      rw [Kernel.activate, Scheduler.find_eq hu]
      simp only [orRefuse]
      split
      · next hdead hentry =>
        exact absurd ⟨by simpa [Thread.isDead] using hdead, _, hentry⟩ hable
      · rfl

theorem Serving.activate (h : k.Serving W me t) (id : ThreadId) : GoesOn W (k.activate id) := by
  rcases activate_cases k id with ⟨status, hrefused⟩ | ⟨u, entry, hu, hdead, hbegins⟩
  · rw [hrefused]
    exact h.goesOn_reply _
  · have hne : me ≠ id := Ne.symm (h.ne_of_not_running hu (by simp [hdead]))
    have hnotIdle : id ≠ k.idle := h.settled.roles.ne_idle hu (.inr hdead)
    let begun := k.begun id u.priority entry
    have hready : begun.sched.threads.get? id = _ := (get?_begun hu entry id).trans (if_pos rfl)
    have hothers : ∀ j, j ≠ id → begun.sched.threads.get? j = k.sched.threads.get? j :=
      fun j hj => (get?_begun hu entry j).trans (if_neg hj)
    -- A dead thread does not wait, so starting it changes nothing in the memory queue.
    have hwaitingFor : u.waitingFor = none :=
      (h.settled.sched.tidy hu).waitingFor_eq_none (by simp [hdead])
    have hsettled : Settled W begun.sched k.pools k.main k.idle := by
      refine h.settled.alter hu (.of_get? hothers) (orderly_begun h.settled.sched hu hdead entry)
        hready rfl (by simp) (by simp) (fun hidle => absurd hidle hnotIdle)
        ⟨fun _ => rfl, ?_, by simp⟩
        (Thread.memoryWait_congr (by simp [hwaitingFor]) (by simp [hwaitingFor])) ?_
      · rintro _ pending ⟨⟩
      · exact fun hpool => ⟨hpool, fun hretries =>
          absurd hretries (Thread.not_retries (by simp [hdead]))⟩
    have hruns : begun.Runs W me t :=
      ⟨h.going, hsettled, h.current, (hothers me hne).trans h.record, h.running⟩
    rw [hbegins]
    exact hruns.preemptFor h.inside h.program hready (fun hj hv hvready =>
      h.unrivalled ((hothers _ hj).symm.trans hv) hvready) _

theorem Serving.sleep (h : k.Serving W me t) (timeout : Timeout) : GoesOn W (k.sleep timeout) := by
  rw [Kernel.sleep, h.me_eq]
  have hyield : GoesOn W (k.yield (.inside (.reply (.ok .done)))) := by
    refine h.yield h.inside ?_ fun hidle => absurd hidle h.program
    rintro _ ⟨⟩
    trivial
  cases timeout with
  | immediate => exact hyield
  | infinite => exact hyield
  | ticks count =>
    show GoesOn W (k.sched.block me .sleep (.ticks count) >>= _)
    rw [Scheduler.block_eq h.record]
    let asleep : Kernel ε := ({ k with
      sched := k.sched.suspended me .sleep (.ticks count) } : Kernel ε).emit (.sleep me count)
    show GoesOn W (asleep.switchNext _)
    exact h.suspend h.inside h.program (by simp) (by simp) rfl rfl rfl rfl rfl rfl trivial
      fun _ hreason => hreason

/-! ## Termination -/

theorem ne_of_not_isSystemThread (h : ¬ k.isSystemThread id = true) :
    id ≠ k.main ∧ id ≠ k.idle := by
  simpa [isSystemThread, not_or] using h

/-- The heirs of a terminated thread are roused, and the others are as they were. -/
theorem rousedBut_of_inherited {s s' : Scheduler (Position ε)}
    {handoffs : List (MutexId × ThreadId)} (horderly : s.Orderly)
    (h : s.Inherited s' id handoffs) : Scheduler.RousedBut id s s' := by
  constructor
  · intro j v hj hv
    by_cases hin : ∃ m, (m, j) ∈ handoffs
    · obtain ⟨m, hin⟩ := hin
      obtain ⟨-, w, hw, hwanted, hreceived⟩ := h.heir hin
      obtain rfl : v = w := Option.some.inj (hv.symm.trans hw)
      exact ⟨_, hreceived, .receive (horderly.tidy hv) hwanted⟩
    · exact ⟨v, (h.same hj (not_exists.mp hin)).trans hv, .refl v⟩
  · intro j v' hj hv'
    by_cases hin : ∃ m, (m, j) ∈ handoffs
    · obtain ⟨m, hin⟩ := hin
      obtain ⟨-, w, hw, hwanted, hreceived⟩ := h.heir hin
      obtain rfl : w.receive m = v' := Option.some.inj (hreceived.symm.trans hv')
      exact ⟨w, hw, .receive (horderly.tidy hw) hwanted⟩
    · exact ⟨v', (h.same hj (not_exists.mp hin)).symm.trans hv', .refl v'⟩

/-- A kernel is settled after a termination. Pools that the terminated thread was about to try again
may not be covered any more. -/
theorem Settled.terminate {s s' : Scheduler (Position ε)} {pools : Memory.Pools}
    {main idle : ThreadId} {handoffs : List (MutexId × ThreadId)}
    (h : Settled W s pools main idle) (hu : s.threads.get? id = some u) (hmain : id ≠ main)
    (hidle : id ≠ idle) (horderly : s'.Orderly)
    (hdead : s'.threads.get? id = some { u.bury with held := [] })
    (hinherited : s.Inherited s' id handoffs) :
    Settled (fun pool => W pool ∧ ¬ u.Retries pool) s' (pools.cancelWait id).2 main idle := by
  have hroused := rousedBut_of_inherited h.sched hinherited
  have hregistry := Memory.Pools.registry_cancelWait pools id
  have hnone : { u.bury with held := [] }.memoryWait = none :=
    Thread.memoryWait_eq_none (by simp [Thread.bury, Thread.disarm])
  have hwaits : s'.waits = Function.update s.waits id none := by
    rw [hroused.waits_eq horderly, Scheduler.waits, hdead, Option.bind_some, hnone]
  refine h.change hu hroused horderly hdead rfl (fun _ => rfl) (fun heq => absurd heq hmain)
    (fun heq => absurd heq hidle) ⟨by simp [Thread.bury], by simp [Thread.bury],
      by simp [Thread.bury]⟩ (h.books.of_registry hregistry) (.of_registry hregistry) ?_ ?_ ?_
  · rw [hnone]
    exact Memory.Pools.waiting_cancelWait h.waiting id
  · intro j p pool hwait
    rw [hwaits, Function.update_apply] at hwait
    rw [hregistry]
    split at hwait
    · simp at hwait
    · exact h.registered hwait
  · -- Nothing that is allocated is lost, and of the retries only those of the thread itself.
    rintro pool ⟨hpool, hnot⟩
    refine (h.covered hpool).mono ?_ ?_ (hroused.retried ?_)
    · intro j p hwait
      rw [hwaits, Function.update_apply] at hwait
      split at hwait
      · simp at hwait
      · exact ⟨j, p, hwait⟩
    · rintro ⟨books, hold, hlive⟩
      exact ⟨books, by rw [hregistry]; exact hold, hlive⟩
    · intro v hv
      obtain rfl : u = v := Option.some.inj (hu.symm.trans hv)
      exact hnot

/-- Where a dead thread would go on does not matter. -/
theorem Settled.parked {s : Scheduler (Position ε)} {pools : Memory.Pools} {main idle : ThreadId}
    (h : Settled W s pools main idle) (hu : s.threads.get? id = some u) (hdead : u.state = .dead)
    (here : Position ε) : Settled W (s.parked id here) pools main idle := by
  have hparked := Scheduler.get?_parked s id
  have hu' : (s.parked id here).threads.get? id = some { u with position := some here } := by
    rw [hparked, if_pos rfl, hu, Option.map_some]
  have htidy := h.sched.tidy hu
  have hwaitingFor := htidy.waitingFor_eq_none (by simp [hdead])
  have hwait : { u with position := some here }.memoryWait = u.memoryWait :=
    Thread.memoryWait_congr (by simp [hwaitingFor]) (by simp [hwaitingFor])
  have hmain : id ≠ main := h.roles.ne_main hu hdead
  have hidle : id ≠ idle := h.roles.ne_idle hu (.inr hdead)
  have hheld : u.held = [] := h.emptyHanded hu hdead
  refine h.alter hu (.of_get? ?_) (h.sched.parked hu here) hu' rfl (fun _ => hheld)
    (fun heq => absurd heq hmain) (fun heq => absurd heq hidle)
    ⟨by simp [hdead], by simp [hdead], by simp [hdead]⟩ hwait ?_
  · intro j hj
    rw [hparked, if_neg hj]
  · exact fun hpool => ⟨hpool, fun hretries =>
      absurd hretries (Thread.not_retries (by simp [hdead]))⟩

theorem emitHandoffs_eq (k : Kernel ε) (handoffs : List (MutexId × ThreadId)) :
    ∃ journal, k.emitHandoffs handoffs = { k with journal } :=
  foldl_emit_eq (fun entry : MutexId × ThreadId => .handoff entry.1 entry.2) k handoffs

/-- A termination takes a pool's last hope away if the thread is about to try the pool again. -/
def Drops (k : Kernel ε) (id : ThreadId) (pool : PoolId) : Prop :=
  ∃ u, k.sched.threads.get? id = some u ∧ u.Retries pool

/-- Nobody runs after the running thread has been terminated. -/
theorem Runs.vacant_of_inherited (h : k.Runs W me t) {s' : Scheduler (Position ε)}
    {handoffs : List (MutexId × ThreadId)}
    (hdead : s'.threads.get? me = some { t.bury with held := [] })
    (hinherited : k.sched.Inherited s' me handoffs) : s'.Vacant := by
  intro j v hv hrunning
  by_cases hj : j = me
  · subst hj
    obtain rfl := Option.some.inj (hdead.symm.trans hv)
    simp [Thread.bury] at hrunning
  · have hroused := rousedBut_of_inherited h.settled.sched hinherited
    obtain ⟨w, hw, hrousedW⟩ := hroused.back hj hv
    have hsame := (hrousedW.eq_of_not_ready (by simp [hrunning])).1
    exact hj (h.eq_of_running hw (hsame.symm.trans hrunning))

/-- If no new owner outranks the running thread, nobody does after a termination. -/
theorem Serving.unrivalled_of_inherited (h : k.Serving W me t) {s' : Scheduler (Position ε)}
    {handoffs : List (MutexId × ThreadId)}
    (hdead : s'.threads.get? id = some { u.bury with held := [] })
    (hinherited : k.sched.Inherited s' id handoffs)
    (hrank : (handoffs.any fun entry =>
      (s'.threads.get? entry.2).any fun v => decide (t.priority < v.priority)) = false) :
    s'.Unrivalled t.priority := by
  intro j v hv hready
  by_cases hj : j = id
  · subst hj
    obtain rfl := Option.some.inj (hdead.symm.trans hv)
    simp [Thread.bury] at hready
  · -- A new owner is outranked by assumption, and whoever else is ready was ready before.
    by_cases hin : ∃ m, (m, j) ∈ handoffs
    · obtain ⟨m, hin⟩ := hin
      have hnot := List.any_eq_false.mp hrank _ hin
      rw [hv, Option.any_some, decide_eq_true_eq] at hnot
      exact Priority.not_lt.mp hnot
    · rw [hinherited.same hj (not_exists.mp hin)] at hv
      exact h.unrivalled hv hready

/-- A thread that has terminated another one lets an heir that outranks it go first, or goes on
itself. -/
theorem Serving.outlive (h : k.Serving W me t) {W' : PoolId → Prop} (k' : Kernel ε)
    {handoffs : List (MutexId × ThreadId)} (hgoing : k'.stopped = k.stopped)
    (hgate : k'.gate = k.gate) (hidle : k'.idle = k.idle)
    (hsettled : Settled W' k'.sched k'.pools k'.main k'.idle)
    (hburied : k'.sched.threads.get? id = some { u.bury with held := [] })
    (hinherited : k.sched.Inherited k'.sched id handoffs) (hne : me ≠ id) {preempt : Bool}
    (hpreempt : preempt = handoffs.any fun entry =>
      (k'.sched.threads.get? entry.2).any fun v => decide (t.priority < v.priority)) :
    GoesOn W' (if preempt then k'.yield (.inside (.reply (.ok .done)))
      else .ok (k'.reply (.ok .done))) := by
  have hroused := rousedBut_of_inherited h.settled.sched hinherited
  obtain ⟨t', ht', hrousedT⟩ := hroused.forth hne h.record
  have hrunning : t'.state = .running :=
    (hrousedT.state_eq (by simp [h.running])).trans h.running
  have hinside : k'.gate.inside = true := by rw [hgate, h.inside]
  have hprogram : me ≠ k'.idle := hidle ▸ h.program
  have hruns : k'.Runs W' me t' :=
    ⟨hgoing.trans h.going, hsettled, hinherited.current.trans h.current, ht', hrunning⟩
  cases preempt with
  | true =>
    refine hruns.yield hinside ?_ fun heq => absurd heq hprogram
    rintro _ ⟨⟩
    trivial
  | false =>
    have hrank : k'.sched.Unrivalled t'.priority := by
      rw [hrousedT.priority]
      exact h.unrivalled_of_inherited hburied hinherited hpreempt.symm
    have hserving : k'.Serving W' me t' := ⟨hruns, hrank, hinside, hprogram⟩
    exact hserving.goesOn_reply _

theorem Serving.terminate (h : k.Serving W me t) (id : ThreadId) :
    GoesOn (fun pool => W pool ∧ ¬ k.Drops id pool) (k.terminate id) := by
  have hrefuse : ∀ status, GoesOn (fun pool => W pool ∧ ¬ k.Drops id pool)
      (.ok (k.refuse status)) := fun _ => (h.weaken And.left).goesOn_reply _
  rw [Kernel.terminate]
  split
  · exact hrefuse _
  · next hsystem =>
    obtain ⟨hmain, hidle⟩ := ne_of_not_isSystemThread hsystem
    cases hu : k.sched.threads.get? id with
    | none =>
      rw [Scheduler.terminate_unknown hu]
      exact hrefuse _
    | some u =>
      by_cases hdead : u.state = .dead
      · rw [Scheduler.terminate_dead hu hdead]
        exact hrefuse _
      · obtain ⟨report, s', heq, horderly, -, hburied, hinherited, hprevious, hpreempt⟩ :=
          h.settled.sched.terminate h.settled.emptyHanded hu hdead h.current h.record
        have hW : ∀ {pool}, W pool ∧ ¬ k.Drops id pool → W pool ∧ ¬ u.Retries pool :=
          fun hpool => ⟨hpool.1, fun hretries => hpool.2 ⟨u, hu, hretries⟩⟩
        have hsettled := (h.settled.terminate hu hmain hidle horderly hburied hinherited).weaken hW
        rw [heq]
        obtain ⟨journal, hjournal⟩ := emitHandoffs_eq
          ((({ k with sched := s' } : Kernel ε).cancelWait id).emit (.threadTerminate id))
          report.handoffs
        show GoesOn _ (if report.previous = .running then _ else if report.preempt then _ else _)
        rw [hjournal]
        let ended : Kernel ε := { (({ k with sched := s' } : Kernel ε).cancelWait id).emit
          (.threadTerminate id) with journal }
        by_cases hrunning : u.state = .running
        · -- A thread that terminates itself gives the processor away for good.
          obtain rfl := h.eq_of_running hu hrunning
          obtain rfl : t = u := Option.some.inj (h.record.symm.trans hu)
          rw [if_pos (hprevious.trans hrunning)]
          refine switchNext_sound (k := ended) h.going h.inside horderly
            (h.toRuns.vacant_of_inherited hburied hinherited) (hinherited.current.trans h.current)
            hburied ((h.settled.placed h.record).position hdead) (fun heq => absurd heq hidle)
            (hsettled.parked hburied rfl _)
        · rw [if_neg (hprevious ▸ hrunning)]
          have hne : me ≠ id := Ne.symm (h.ne_of_not_running hu hrunning)
          rw [beq_eq_false_iff_ne.mpr hrunning, Bool.not_false, Bool.true_and] at hpreempt
          exact h.outlive ended rfl rfl rfl hsettled hburied hinherited hne hpreempt

/-! ## Removal -/

/-- A dead thread leaves without a trace. -/
theorem Serving.erase (h : k.Serving W me t) (hu : k.sched.threads.get? id = some u)
    (hdead : u.state = .dead) (hmain : id ≠ k.main) (hidle : id ≠ k.idle) :
    ({ k with sched := { k.sched with threads := k.sched.threads.erase id } } : Kernel ε).Serving
      W me t := by
  have hblank : u.Blank := ⟨h.settled.sched.tidy hu, hdead, h.settled.emptyHanded hu hdead⟩
  have hget := Registry.get?_erase k.sched.threads id
  have hme : me ≠ id := Ne.symm (h.ne_of_not_running hu (by simp [hdead]))
  have hothers : ∀ j, j ≠ id → (k.sched.threads.erase id).get? j = k.sched.threads.get? j := by
    intro j hj
    rw [hget, if_neg hj]
  have hsettled := h.settled.exchange (h.settled.sched.erase hu hblank) hothers
    (fun v hv => Option.some.inj (hu.symm.trans hv) ▸ hblank) (by simp [hget]) hmain hidle
  refine ⟨⟨h.going, hsettled, h.current, (hothers me hme).trans h.record, h.running⟩, ?_, h.inside,
    h.program⟩
  intro j v hv hready
  have hj : j ≠ id := by
    rintro rfl
    simp [hget] at hv
  exact h.unrivalled ((hothers j hj).symm.trans hv) hready

theorem Serving.delete (h : k.Serving W me t) (id : ThreadId) : GoesOn W (k.delete id) := by
  rw [Kernel.delete]
  split
  · exact h.goesOn_reply _
  · next hsystem =>
    obtain ⟨hmain, hidle⟩ := ne_of_not_isSystemThread hsystem
    cases hu : k.sched.threads.get? id with
    | none =>
      rw [Scheduler.removeThread_unknown hu]
      exact h.goesOn_reply _
    | some u =>
      rw [Scheduler.removeThread_eq hu]
      by_cases hdead : u.state = .dead
      · rw [if_pos hdead]
        have herased := h.erase hu hdead hmain hidle
        let gone : Kernel ε := { k with
          sched := { k.sched with threads := k.sched.threads.erase id }
          entries := k.entries.filter (·.1 != id) }
        have hgone : gone.Serving W me t :=
          ⟨⟨herased.going, herased.settled, herased.current, herased.record, herased.running⟩,
            herased.unrivalled, herased.inside, herased.program⟩
        cases hstack : u.stack with
        | none =>
          simp only [Kernel.orRefuse, hstack]
          exact (hgone.emit _).goesOn_reply _
        | some stack =>
          simp only [Kernel.orRefuse, hstack]
          exact (hgone.emit _).free _ _
      · rw [if_neg hdead]
        exact h.goesOn_reply _

/-! ## The end of a program -/

/-- A thread whose program has ended is terminated, and the processor goes to the next one. -/
theorem Runs.exit (h : k.Runs W me t) (hinside : k.gate.inside = false) (hmain : me ≠ k.main)
    (hidle : me ≠ k.idle) : GoesOn W k.exit := by
  have halive : t.state ≠ .dead := by simp [h.running]
  obtain ⟨report, s', heq, horderly, -, hburied, hinherited, -, -⟩ :=
    h.settled.sched.terminate h.settled.emptyHanded h.record halive h.current h.record
  have hsettled : Settled W s' (k.pools.cancelWait me).2 k.main k.idle := by
    refine (h.settled.terminate h.record hmain hidle horderly hburied hinherited).weaken ?_
    exact fun hpool => ⟨hpool, Thread.not_retries (by simp [h.running])⟩
  have hvacant : s'.Vacant := h.vacant_of_inherited hburied hinherited
  -- The idle thread, at least, can take over.
  obtain ⟨v, hv, -, hable⟩ := hsettled.roles.spare
  obtain ⟨id, u, hu, hready, hrank, hpick, hdispatched⟩ :=
    pickNext_eq horderly hvacant ⟨k.idle, v, hv, hable.resolve_right (hvacant hv)⟩
  obtain ⟨there, hthere⟩ :=
    Option.isSome_iff_exists.mp ((hsettled.placed hu).position (by simp [hready]))
  have hid : (s'.dispatched id u.priority).threads.get? id = some { u with state := .running } := by
    rw [Scheduler.get?_dispatched, if_pos rfl, hu, Option.map_some]
  have hrests : id = k.idle → u.position = some (.delivering .rest) := hsettled.position_idle hu
  have hposition : (s'.dispatched id u.priority).position? id = some there := by
    rw [Scheduler.position?, hid, Option.bind_some, hthere]
  -- `switchNext_sound` does not apply: no position is noted for a thread that has come to its end.
  let entered : Kernel ε := { k with sched := s', gate := { inside := true }, stopped := false }
  obtain ⟨journal, hjournal⟩ := emitHandoffs_eq entered report.handoffs
  let ended : Kernel ε :=
    ((entered.emitHandoffs report.handoffs).cancelWait me).emit (.threadTerminate me)
  have hended : ended = ({ entered with journal }.cancelWait me).emit (.threadTerminate me) := by
    rw [← hjournal]
  have hexit : k.exit = .ok ({ ended with sched := s'.dispatched id u.priority }.resume there) := by
    have hpick' : ended.sched.pickNext = _ := (congrArg (·.sched.pickNext) hended).trans hpick
    rw [Kernel.exit, enter_eq hinside]
    simp only [bind, Except.bind, h.going, h.current, heq]
    show (ended.sched.pickNext >>= fun _ => _) = _
    rw [hpick']
    simp only [bind, Except.bind, hposition]
    rfl
  rw [hended] at hexit
  refine ⟨_, hexit, sound_resume ⟨rfl, ?_, rfl, hid, rfl⟩ (unrivalled_dispatched hrank _ _) ?_ ?_⟩
  · refine hsettled.dispatch hu hready hthere hdispatched ?_ hid rfl rfl (by simp [hthere]) hrests
    intro j hj
    rw [Scheduler.get?_dispatched, if_neg hj]
  · rintro pending rfl
    exact (hsettled.placed hu).fits (.inl hready) pending hthere
  · intro hidle
    exact Option.some.inj (hthere.symm.trans (hrests hidle))

/-! ## The end of the kernel -/

theorem current_foldl_forgetPosition (s : Scheduler (Position ε)) (ids : List ThreadId) :
    (ids.foldl Scheduler.forgetPosition s).current = s.current := by
  induction ids generalizing s with
  | nil => rfl
  | cons id rest ih => exact ih (s.forgetPosition id)

theorem ticks_foldl_forgetPosition (s : Scheduler (Position ε)) (ids : List ThreadId) :
    (ids.foldl Scheduler.forgetPosition s).ticks = s.ticks := by
  induction ids generalizing s with
  | nil => rfl
  | cons id rest ih => exact ih (s.forgetPosition id)

theorem Serving.shutdown (h : k.Serving W me t) : GoesOn W k.shutdown := by
  rw [Kernel.shutdown]
  split
  · exact h.goesOn_reply _
  · next hmain =>
    rw [not_not, h.current, Option.some.injEq] at hmain
    subst hmain
    have hsettled : Settled (fun _ => False) k.sched k.pools k.main k.idle :=
      h.settled.weaken False.elim
    exact ⟨_, rfl, .inl ⟨rfl, ⟨k.sched, t, hsettled, h.current, h.record, h.running, h.unrivalled,
      rfl⟩, rfl, fun _ => by simp [Kernel.reply]⟩⟩

end CoopKernel.Kernel
