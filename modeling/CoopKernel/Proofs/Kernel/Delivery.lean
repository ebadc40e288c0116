import CoopKernel.Kernel.Delivery
import CoopKernel.Proofs.Kernel.Switching
import CoopKernel.Proofs.Scheduler.Clock

/-!
# Delivery goes on

Interrupts are delivered by whichever thread is leaving the section, the idle thread included. A
tick may rouse any number of threads and always lets others go first; a result rouses one thread at
most, and the others only go first if that thread outranks the running one.
-/

namespace CoopKernel.Kernel

variable {ε : Type} {W : PoolId → Prop} {k : Kernel ε} {me id : ThreadId}
  {t u : Thread (Position ε)} {destination : Destination ε}

/-- The running thread is on the way to a destination. The idle thread is only ever on the way to
its rest. -/
structure Leaving (W : PoolId → Prop) (k : Kernel ε) (me : ThreadId) (t : Thread (Position ε))
    (destination : Destination ε) : Prop extends k.Runs W me t where
  unrivalled : k.sched.Unrivalled t.priority
  rests : me = k.idle → destination = .rest

theorem Leaving.resume (h : k.Leaving W me t destination) :
    (k.resume (.delivering destination)).Sound W := by
  have hsettled : Settled (fun pool => W pool ∧ ¬ False) k.sched k.pools k.main k.idle :=
    h.settled.weaken And.left
  refine sound_resume ⟨h.going, hsettled, h.current, h.record, h.running⟩ h.unrivalled (by simp) ?_
  intro hidle
  rw [h.rests hidle]

theorem Leaving.reach (h : k.Leaving W me t destination) (houtside : k.gate.inside = false) :
    (k.reach destination).Sound W := by
  have hreached : ∀ activity : Activity ε, (∀ pending, activity ≠ .resuming pending) →
      (me = k.idle → activity = .resting) → ({ k with activity } : Kernel ε).Sound W := by
    intro activity hnot hrests
    have hruns : ({ k with activity } : Kernel ε).Runs W me t :=
      ⟨h.going, h.settled, h.current, h.record, h.running⟩
    exact hruns.sound_outside h.unrivalled houtside hnot fun hidle => .inl (hrests hidle)
  have hrests := h.rests
  cases destination with
  | reply answer => exact hreached _ (by simp) fun hidle => by simpa using hrests hidle
  | start entry => exact hreached _ (by simp) fun hidle => by simpa using hrests hidle
  | rest => exact hreached _ (by simp) fun _ => rfl

/-- The running thread lets others go first on its way. -/
theorem Runs.yieldLeaving (h : k.Runs W me t) (hinside : k.gate.inside = true)
    (hrests : me = k.idle → destination = .rest) :
    GoesOn W (k.yield (.delivering destination)) := by
  refine h.yield hinside (by simp) ?_
  intro hidle
  rw [hrests hidle]

/-! ## The two kinds of interrupts -/

theorem Leaving.dispatchTick (h : k.Leaving W me t destination) (hinside : k.gate.inside = true) :
    GoesOn W (k.dispatchTick destination) := by
  -- What the tick rouses may outrank the running thread, but that one gives way in any case.
  obtain ⟨report, s', heq, horderly, hroused, -⟩ := h.settled.sched.tick
  obtain ⟨journal, hjournal⟩ := foldl_emit_eq Trace.Event.wake
    (({ k with sched := s' } : Kernel ε).emit (.tick report.tick)) report.woken
  let ticked : Kernel ε :=
    { ({ k with sched := s' } : Kernel ε).emit (.tick report.tick) with journal }
  obtain ⟨t', hruns, -⟩ : ∃ t', ticked.Runs W me t' ∧ t'.priority = t.priority :=
    h.roused rfl rfl rfl rfl hroused horderly
  have hdispatch : k.dispatchTick destination = ticked.yield (.delivering destination) := by
    rw [Kernel.dispatchTick, heq]
    show Kernel.yield (report.woken.foldl _ _) _ = _
    rw [hjournal]
  rw [hdispatch]
  exact hruns.yieldLeaving hinside h.rests

theorem awaitsIo_iff : k.awaitsIo id = true ↔
    ∃ u, k.sched.threads.get? id = some u ∧ u.state = .waiting ∧ u.waitingFor = some .io := by
  rw [awaitsIo, Option.any_eq_true]
  simp

/-- The scheduler after a thread has been given the result it waits for. -/
def informed (s : Scheduler (Position ε)) (id : ThreadId) (p : Priority) (result : Int32) :
    Scheduler (Position ε) :=
  (s.update id fun u => { u with result }).awakened id p .io

theorem get?_informed (s : Scheduler (Position ε)) (id other : ThreadId) (p : Priority)
    (result : Int32) :
    (informed s id p result).threads.get? other =
      if other = id then (s.threads.get? id).map fun u =>
        { ({ u with result } : Thread (Position ε)).disarm with state := .ready }
      else s.threads.get? other := by
  rw [informed, Scheduler.get?_awakened, Scheduler.get?_update, Scheduler.get?_update, if_pos rfl,
    Option.map_map]
  split <;> rfl

/-- To note a result and wake its thread is to rouse the thread. -/
theorem informed_spec {s : Scheduler (Position ε)} (h : s.Orderly)
    (hu : s.threads.get? id = some u) (hreason : u.waitingFor = some .io) (result : Int32) :
    (s.update id fun u => { u with result }).wake id = .ok (informed s id u.priority result) ∧
      (informed s id u.priority result).Orderly ∧ s.Roused (informed s id u.priority result) := by
  have hnoted := Scheduler.get?_update s id id fun u => { u with result }
  rw [if_pos rfl, hu, Option.map_some] at hnoted
  have htidy := h.tidy hu
  have horderly : (s.update id fun u => { u with result }).Orderly :=
    h.update hu ⟨htidy.waiting_iff, htidy.countdown, htidy.wanted_iff, htidy.held⟩
      rfl rfl rfl rfl rfl
  have hroused : s.Roused (s.update id fun u => { u with result }) := by
    refine .of_modify (f := fun u => { u with result }) rfl rfl hu ?_
    exact ⟨rfl, rfl, rfl, fun _ => rfl, .inl ⟨rfl, rfl, rfl⟩⟩
  have hwake := Scheduler.wake_eq hnoted hreason
  have hawake := horderly.awakened hnoted hreason (by simp)
  have hroused' := horderly.roused_awakened hnoted hreason (by simp)
  exact ⟨hwake, hawake, hroused.trans hroused'⟩

theorem Leaving.dispatchResult (h : k.Leaving W me t destination) (hinside : k.gate.inside = true)
    (id : ThreadId) (result : Int32) : GoesOn W (k.dispatchResult destination id result) := by
  rw [Kernel.dispatchResult]
  cases hawaits : k.awaitsIo id with
  | false => exact ⟨_, rfl, h.resume⟩
  | true =>
    obtain ⟨u, hu, hwaiting, hreason⟩ := awaitsIo_iff.mp hawaits
    obtain ⟨hwake, horderly, hroused⟩ := informed_spec h.settled.sched hu hreason result
    have hget := get?_informed k.sched id
    let woken : Kernel ε := ({ k with
      sched := informed k.sched id u.priority result } : Kernel ε).emit (.ioDone id result)
    obtain ⟨t', hruns, hpriority⟩ : ∃ t', woken.Runs W me t' ∧ t'.priority = t.priority :=
      h.roused rfl rfl rfl rfl hroused horderly
    have hready := hget id u.priority result
    rw [if_pos rfl, hu, Option.map_some] at hready
    show GoesOn W ((k.sched.update id fun u => { u with result }).wake id >>= _)
    rw [hwake]
    show GoesOn W (woken.sched.outranksCurrent id >>= _)
    rw [Scheduler.outranksCurrent_eq hruns.current hruns.record hready]
    show GoesOn W (if decide (t'.priority < u.priority) = true then _ else _)
    by_cases houtranks : t'.priority < u.priority
    · rw [decide_eq_true houtranks, if_pos rfl]
      have hruns' : (woken.emit (.preempt id)).Runs W me t' :=
        ⟨hruns.going, hruns.settled, hruns.current, hruns.record, hruns.running⟩
      exact hruns'.yieldLeaving hinside h.rests
    · -- The running thread goes on, and looks at the line again before it leaves.
      rw [decide_eq_false houtranks, if_neg Bool.false_ne_true]
      have hleaving : woken.Leaving W me t' destination := by
        refine ⟨hruns, ?_, h.rests⟩
        intro j v hv hvready
        by_cases hj : j = id
        · subst hj
          obtain rfl := Option.some.inj (hready.symm.trans hv)
          exact Priority.not_lt.mp houtranks
        · change (informed k.sched id u.priority result).threads.get? j = some v at hv
          rw [hget, if_neg hj] at hv
          rw [hpriority]
          exact h.unrivalled hv hvready
      exact ⟨_, rfl, hleaving.resume⟩

theorem Leaving.deliver (h : k.Leaving W me t destination) (houtside : k.gate.inside = false) :
    GoesOn W (k.deliver destination) := by
  rw [Kernel.deliver]
  cases k.line.take? with
  | none => exact ⟨_, rfl, h.reach houtside⟩
  | some taken =>
    obtain ⟨interrupt, line⟩ := taken
    let taken : Kernel ε := { k with line }
    show GoesOn W (taken.enter >>= _)
    rw [enter_eq (k := taken) houtside]
    let entered : Kernel ε := { k with line, gate := { inside := true } }
    have hentered : entered.Leaving W me t destination :=
      ⟨⟨h.going, h.settled, h.current, h.record, h.running⟩, h.unrivalled, h.rests⟩
    show GoesOn W (if k.stopped = true then _ else _)
    rw [if_neg (by simp [h.going])]
    cases interrupt with
    | tick => exact hentered.dispatchTick rfl
    | ioComplete id result => exact hentered.dispatchResult rfl id result

end CoopKernel.Kernel
