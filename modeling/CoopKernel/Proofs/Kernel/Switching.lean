import CoopKernel.Proofs.Kernel.Settled

/-!
# Giving the processor away

A kernel between two steps is sound (`Kernel.Sound`): it is settled, one thread has the processor,
no ready thread has a higher priority, and what the running thread is doing fits with the gate. A
call ends by answering (`Kernel.reply`), by letting the thread wait (`Kernel.switchNext`) or by
letting others go first (`Kernel.yield`, `Kernel.preemptFor`); each of the four gives a sound
kernel.

After a shutdown the kernel is frozen. It is described by the settled scheduler it was shut down
with (`Kernel.Halted`).
-/

namespace CoopKernel

variable {ε : Type}

/-- Whether the running thread is about to try a pool again. -/
def Activity.Retries (pool : PoolId) : Activity ε → Prop
  | .resuming pending => pending.Retries pool
  | _ => False

/-- Notes where a thread goes on. -/
def Scheduler.parked {κ : Type} (s : Scheduler κ) (id : ThreadId) (here : κ) : Scheduler κ :=
  s.update id fun t => { t with position := some here }

theorem Scheduler.get?_parked {κ : Type} (s : Scheduler κ) (id other : ThreadId) (here : κ) :
    (s.parked id here).threads.get? other =
      if other = id then (s.threads.get? id).map fun t => { t with position := some here }
      else s.threads.get? other :=
  get?_update s id other _

theorem Scheduler.Orderly.parked {κ : Type} {s : Scheduler κ} (h : s.Orderly) {id : ThreadId}
    {t : Thread κ} (ht : s.threads.get? id = some t) (here : κ) : (s.parked id here).Orderly :=
  h.update ht ⟨(h.tidy ht).waiting_iff, (h.tidy ht).countdown, (h.tidy ht).wanted_iff,
    (h.tidy ht).held⟩ rfl rfl rfl rfl rfl

namespace Kernel

variable {W : PoolId → Prop} {k : Kernel ε} {me id : ThreadId} {t u : Thread (Position ε)}

/-! ## Sound kernels -/

/-- The kernel is settled and a thread has the processor. -/
structure Runs (W : PoolId → Prop) (k : Kernel ε) (me : ThreadId) (t : Thread (Position ε)) :
    Prop where
  going : k.stopped = false
  settled : Settled W k.sched k.pools k.main k.idle
  current : k.sched.current = some me
  record : k.sched.threads.get? me = some t
  running : t.state = .running

/-- What the running thread is doing fits with the gate and with the thread. The idle thread only
ever rests. -/
structure Posture (k : Kernel ε) (me : ThreadId) : Prop where
  gate : k.gate.inside = true ↔ ∃ pending, k.activity = .resuming pending
  fits : ∀ pending, k.activity = .resuming pending → pending.Fits k.pools me
  rests : me = k.idle → k.activity = .resting ∨ k.activity = .delivering .rest

/-- The kernel was settled when it was shut down, and only the positions of threads have been
forgotten since. -/
structure Halted (k : Kernel ε) : Prop where
  stopped : k.stopped = true
  frozen : ∃ s t, Settled (fun _ => False) s k.pools k.main k.idle ∧ s.current = some k.main ∧
    s.threads.get? k.main = some t ∧ t.state = .running ∧ s.Unrivalled t.priority ∧
    k.sched = (s.threads.handles.filter (· != k.main)).foldl Scheduler.forgetPosition s
  gate : k.gate.inside = false
  activity : ∀ pending, k.activity ≠ .resuming pending

/-- The kernel is as it is between two steps. -/
def Sound (W : PoolId → Prop) (k : Kernel ε) : Prop :=
  k.Halted ∨ ∃ me t, k.Runs (fun pool => W pool ∧ ¬ k.activity.Retries pool) me t ∧
    k.sched.Unrivalled t.priority ∧ k.Posture me

/-- An operation succeeds and leaves a sound kernel. -/
def GoesOn (W : PoolId → Prop) (outcome : Except Invariant (Kernel ε)) : Prop :=
  ∃ k', outcome = .ok k' ∧ k'.Sound W

/-- Nobody runs but the current thread. -/
theorem Runs.eq_of_running (h : k.Runs W me t) (hu : k.sched.threads.get? id = some u)
    (hrunning : u.state = .running) : id = me := by
  have hcurrent := h.settled.sched.running hu hrunning
  rw [h.current, Option.some.injEq] at hcurrent
  exact hcurrent.symm

theorem Runs.ne_of_not_running (h : k.Runs W me t) (hu : k.sched.threads.get? id = some u)
    (hstate : u.state ≠ .running) : id ≠ me := by
  rintro rfl
  obtain rfl : t = u := Option.some.inj (h.record.symm.trans hu)
  exact hstate h.running

theorem Runs.waitingFor (h : k.Runs W me t) : t.waitingFor = none :=
  (h.settled.sched.tidy h.record).waitingFor_eq_none (by simp [h.running])

/-- Outside the section, a kernel is sound if the idle thread does nothing but rest. -/
theorem Runs.sound_outside (h : k.Runs W me t) (hrank : k.sched.Unrivalled t.priority)
    (houtside : k.gate.inside = false) (hactivity : ∀ pending, k.activity ≠ .resuming pending)
    (hrests : me = k.idle → k.activity = .resting ∨ k.activity = .delivering .rest) :
    k.Sound W := by
  have hsettled : Settled (fun pool => W pool ∧ ¬ k.activity.Retries pool) k.sched k.pools k.main
      k.idle := h.settled.weaken And.left
  refine .inr ⟨me, t, ⟨h.going, hsettled, h.current, h.record, h.running⟩, hrank, ?_, ?_, hrests⟩
  · simp [houtside, hactivity]
  · intro pending hpending
    exact absurd hpending (hactivity pending)

/-! ## Resuming -/

/-- The ready thread that is picked takes its position with it: what it retries is not covered by it
any more. -/
theorem Settled.dispatch {s s' : Scheduler (Position ε)} {pools : Memory.Pools}
    {main idle : ThreadId} {t' : Thread (Position ε)} {there : Position ε}
    (h : Settled W s pools main idle) (ht : s.threads.get? id = some t) (hready : t.state = .ready)
    (hthere : t.position = some there) (horderly : s'.Orderly)
    (hsame : ∀ j, j ≠ id → s'.threads.get? j = s.threads.get? j)
    (ht' : s'.threads.get? id = some t') (hrunning : t'.state = .running)
    (hpriority : t'.priority = t.priority) (hposition : t'.position.isSome)
    (hrests : id = idle → t'.position = some (.delivering .rest)) :
    Settled (fun pool => W pool ∧ ¬ there.Retries pool) s' pools main idle := by
  have hwait : t'.memoryWait = t.memoryWait := by
    rw [Thread.memoryWait_of_running (horderly.tidy ht') (by simp [hrunning]),
      Thread.memoryWait_of_running (h.sched.tidy ht) (by simp [hready])]
  refine h.alter ht (.of_get? hsame) horderly ht' hpriority (by simp [hrunning])
    (by simp [hrunning]) (fun hid => ⟨.inr hrunning, hrests hid⟩)
    ⟨fun _ => hposition, by simp [hrunning], by simp [hrunning]⟩ hwait ?_
  -- The picked thread was no reason to hope for any pool that is still asserted to be covered.
  rintro pool ⟨hpool, hnot⟩
  refine ⟨hpool, ?_⟩
  rintro ⟨-, here, hhere, hretries⟩
  obtain rfl : there = here := Option.some.inj (hthere.symm.trans hhere)
  exact absurd hretries hnot

/-- A kernel that goes on at the position of the thread it has picked is sound. -/
theorem sound_resume {there : Position ε}
    (h : k.Runs (fun pool => W pool ∧ ¬ there.Retries pool) me t)
    (hrank : k.sched.Unrivalled t.priority)
    (hfits : ∀ pending, there = .inside pending → pending.Fits k.pools me)
    (hrests : me = k.idle → there = .delivering .rest) : (k.resume there).Sound W := by
  cases there with
  | inside pending =>
    refine .inr ⟨me, t, ⟨h.going, h.settled, h.current, h.record, h.running⟩, hrank, ?_, ?_, ?_⟩
    · exact ⟨fun _ => ⟨pending, rfl⟩, fun _ => rfl⟩
    · rintro other ⟨⟩
      exact hfits pending rfl
    · intro hidle
      exact absurd (hrests hidle) (by simp)
  | delivering destination =>
    have houtside : (k.resume (.delivering destination)).Runs W me t :=
      ⟨h.going, h.settled.weaken fun hpool => ⟨hpool, fun hretries => hretries⟩, h.current,
        h.record, h.running⟩
    refine houtside.sound_outside hrank rfl (by simp [resume]) ?_
    intro hidle
    obtain ⟨⟩ := hrests hidle
    exact .inr rfl

/-! ## Switching -/

/-- The event that reports a switch. -/
def switchEvent (k : Kernel ε) (source target : ThreadId) : Trace.Event :=
  if target = k.idle then .idle source target else .switch source target

/-- A thread that picks itself goes on at once. -/
theorem switchNext_stay (hinside : k.gate.inside = true) {s' : Scheduler (Position ε)}
    (hpick : k.sched.pickNext = .ok ({ source := some me, target := me }, s'))
    (here : Position ε) :
    k.switchNext here = .ok (({ k with sched := s' } : Kernel ε).resume here) := by
  rw [switchNext, hinside, hpick]
  show (if !(Switch.isSwitch { source := some me, target := me }) then _ else _) = _
  have hstay : Switch.isSwitch { source := some me, target := me } = false := by
    simp [Switch.isSwitch]
  rw [hstay]
  rfl

/-- A thread that picks another one is parked, and the other goes on where it stands. -/
theorem switchNext_leave (hinside : k.gate.inside = true) {s' : Scheduler (Position ε)}
    (hpick : k.sched.pickNext = .ok ({ source := some me, target := id }, s')) (hne : id ≠ me)
    {there : Position ε} (hthere : s'.position? id = some there)
    (hposition : (s'.position? me).isSome) (here : Position ε) :
    k.switchNext here = .ok ({ ({ k with sched := s' } : Kernel ε).emit (k.switchEvent me id) with
      sched := s'.parked me here }.resume there) := by
  have hleave : Switch.isSwitch { source := some me, target := id } = true := by
    simp [Switch.isSwitch, Ne.symm hne]
  have hsome : (s'.position? me).isNone = false := by simpa using hposition
  rw [switchNext, hinside, hpick]
  simp only [bind, Except.bind, Option.bind, emit, hleave, hthere, hsome]
  rfl

/-- If nobody runs but somebody is ready, a ready thread that no other outranks is picked. -/
theorem pickNext_eq {s : Scheduler (Position ε)} (horderly : s.Orderly) (hvacant : s.Vacant)
    (hready : ∃ j v, s.threads.get? j = some v ∧ v.state = .ready) :
    ∃ id t, s.threads.get? id = some t ∧ t.state = .ready ∧ s.Unrivalled t.priority ∧
      s.pickNext = .ok ({ source := s.current, target := id }, s.dispatched id t.priority) ∧
      (s.dispatched id t.priority).Orderly := by
  obtain ⟨j, v, hv, hvready⟩ := hready
  obtain ⟨id, u, hu, huready, hrank, heq⟩ := horderly.pickNext_eq hv hvready
  exact ⟨id, u, hu, huready, fun hw hwready => hrank _ _ hw hwready, heq,
    horderly.dispatched hu huready fun _ _ hw => hvacant hw⟩

theorem unrivalled_dispatched {s : Scheduler (Position ε)} {p : Priority}
    (hrank : s.Unrivalled p) (id : ThreadId) (q : Priority) :
    (s.dispatched id q).Unrivalled p := by
  intro j v hv hready
  rw [Scheduler.get?_dispatched] at hv
  split at hv
  · obtain ⟨w, -, rfl⟩ := Option.map_eq_some_iff.mp hv
    simp at hready
  · exact hrank hv hready

theorem unrivalled_parked {s : Scheduler (Position ε)} {p : Priority} (hrank : s.Unrivalled p)
    (id : ThreadId) (here : Position ε) : (s.parked id here).Unrivalled p := by
  intro j v hv hready
  rw [Scheduler.get?_parked] at hv
  split at hv
  · obtain ⟨w, hw, rfl⟩ := Option.map_eq_some_iff.mp hv
    have hle : w.priority ≤ p := hrank hw hready
    exact hle
  · exact hrank hv hready

/-- Whoever is picked, the kernel goes on: with `here` noted as the position of the thread that
gives the processor away, the kernel must be settled. -/
theorem switchNext_sound (hgoing : k.stopped = false) (hinside : k.gate.inside = true)
    (horderly : k.sched.Orderly) (hvacant : k.sched.Vacant) (hcurrent : k.sched.current = some me)
    (ht : k.sched.threads.get? me = some t) (hposition : t.position.isSome)
    (hrests : me = k.idle → t.position = some (.delivering .rest)) {here : Position ε}
    (h : Settled W (k.sched.parked me here) k.pools k.main k.idle) :
    GoesOn W (k.switchNext here) := by
  have hget := Scheduler.get?_parked k.sched me
  have hme : (k.sched.parked me here).threads.get? me = some { t with position := some here } := by
    rw [hget, if_pos rfl, ht, Option.map_some]
  have hothers : ∀ j, j ≠ me →
      (k.sched.parked me here).threads.get? j = k.sched.threads.get? j := by
    intro j hj
    rw [hget, if_neg hj]
  -- If there is nobody else, there is the idle thread, perhaps because it is giving way itself.
  have hready : ∃ j v, k.sched.threads.get? j = some v ∧ v.state = .ready := by
    obtain ⟨v, hv, -, hable⟩ := h.roles.spare
    by_cases hj : k.idle = me
    · rw [hj, hme, Option.some.injEq] at hv
      subst hv
      have hable' : t.state = .ready ∨ t.state = .running := hable
      exact ⟨me, t, ht, hable'.resolve_right (hvacant ht)⟩
    · rw [hothers _ hj] at hv
      exact ⟨k.idle, v, hv, hable.resolve_right (hvacant hv)⟩
  obtain ⟨id, u, hu, huready, hrank, hpick, hdispatched⟩ := pickNext_eq horderly hvacant hready
  rw [hcurrent] at hpick
  have hgetD := Scheduler.get?_dispatched k.sched id
  have hid : (k.sched.dispatched id u.priority).threads.get? id =
      some { u with state := .running } := by
    rw [hgetD, if_pos rfl, hu, Option.map_some]
  by_cases hne : id = me
  · -- The thread goes on where it would have been parked.
    subst hne
    obtain rfl : t = u := Option.some.inj (ht.symm.trans hu)
    refine ⟨_, switchNext_stay hinside hpick here, sound_resume ⟨hgoing, ?_, rfl, hid, rfl⟩
      (unrivalled_dispatched hrank _ _) ?_ ?_⟩
    · refine h.dispatch hme huready rfl hdispatched ?_ hid rfl rfl hposition hrests
      intro j hj
      rw [hothers j hj, hgetD, if_neg hj]
    · rintro pending rfl
      exact (h.placed hme).fits (.inl huready) pending rfl
    · intro hidle
      exact Option.some.inj (h.position_idle hme hidle)
  · -- The thread is parked, and the one that is picked takes its own position with it.
    have hu' : (k.sched.parked me here).threads.get? id = some u := by rw [hothers id hne, hu]
    have hplaced := h.placed hu'
    have hrests' : id = k.idle → u.position = some (.delivering .rest) := h.position_idle hu'
    obtain ⟨there, hthere⟩ := Option.isSome_iff_exists.mp (hplaced.position (by simp [huready]))
    have hpositionId : (k.sched.dispatched id u.priority).position? id = some there := by
      rw [Scheduler.position?, hid, Option.bind_some, hthere]
    have hpositionMe : ((k.sched.dispatched id u.priority).position? me).isSome := by
      rw [Scheduler.position?, hgetD, if_neg (Ne.symm hne), ht, Option.bind_some]
      exact hposition
    have hrecord : ((k.sched.dispatched id u.priority).parked me here).threads.get? id =
        some { u with state := .running } := by
      rw [Scheduler.get?_parked, if_neg hne, hid]
    have hme' : (k.sched.dispatched id u.priority).threads.get? me = some t := by
      rw [hgetD, if_neg (Ne.symm hne), ht]
    have hsame : ∀ j, j ≠ id →
        ((k.sched.dispatched id u.priority).parked me here).threads.get? j =
          (k.sched.parked me here).threads.get? j := by
      intro j hj
      rw [Scheduler.get?_parked, hget, hgetD, hgetD, if_neg hj, if_neg (Ne.symm hne)]
    refine ⟨_, switchNext_leave hinside hpick hne hpositionId hpositionMe here,
      sound_resume ⟨hgoing, ?_, rfl, hrecord, rfl⟩
        (unrivalled_parked (unrivalled_dispatched hrank _ _) _ _) ?_ ?_⟩
    · exact h.dispatch hu' huready hthere (hdispatched.parked hme' here) hsame hrecord rfl rfl
        (by simp [hthere]) hrests'
    · rintro pending rfl
      exact hplaced.fits (.inl huready) pending hthere
    · intro hidle
      exact Option.some.inj (hthere.symm.trans (hrests' hidle))

/-! ## Ends of a call -/

/-- The running thread is in the middle of a call, with the gate closed. -/
structure Serving (W : PoolId → Prop) (k : Kernel ε) (me : ThreadId) (t : Thread (Position ε)) :
    Prop extends k.Runs W me t where
  unrivalled : k.sched.Unrivalled t.priority
  inside : k.gate.inside = true
  program : me ≠ k.idle

/-- A thread outside the section may enter it. -/
theorem enter_eq (houtside : k.gate.inside = false) :
    k.enter = .ok { k with gate := { inside := true } } := by
  rw [enter, CriticalSection.enter, houtside]
  rfl

theorem Serving.weaken {W' : PoolId → Prop} (h : k.Serving W me t)
    (hW : ∀ {pool}, W' pool → W pool) : k.Serving W' me t :=
  ⟨⟨h.going, h.settled.weaken hW, h.current, h.record, h.running⟩, h.unrivalled, h.inside,
    h.program⟩

theorem Serving.emit (h : k.Serving W me t) (event : Trace.Event) :
    (k.emit event).Serving W me t :=
  ⟨⟨h.going, h.settled, h.current, h.record, h.running⟩, h.unrivalled, h.inside, h.program⟩

/-- Reporting any number of events changes the journal only. -/
theorem foldl_emit_eq {α : Type} (event : α → Trace.Event) (k : Kernel ε) (values : List α) :
    ∃ journal, values.foldl (fun k value => k.emit (event value)) k = { k with journal } := by
  induction values generalizing k with
  | nil => exact ⟨k.journal, rfl⟩
  | cons value rest ih =>
    obtain ⟨journal, heq⟩ := ih (k.emit (event value))
    exact ⟨journal, heq⟩

theorem Runs.me_eq (h : k.Runs W me t) : k.me = .ok me := by
  rw [Kernel.me, h.current]

/-- Rousing others, or changing what the running thread holds, lets it run on. -/
theorem Runs.roused (h : k.Runs W me t) {k' : Kernel ε} (hgoing : k'.stopped = k.stopped)
    (hpools : k'.pools = k.pools) (hmain : k'.main = k.main) (hidle : k'.idle = k.idle)
    (hroused : k.sched.Roused k'.sched) (horderly : k'.sched.Orderly) :
    ∃ t', k'.Runs W me t' ∧ t'.priority = t.priority := by
  obtain ⟨t', ht', hrousedT⟩ := hroused.forth h.record
  have hrunning : t'.state = .running :=
    (hrousedT.state_eq (by simp [h.running])).trans h.running
  refine ⟨t', ⟨hgoing.trans h.going, ?_, hroused.current.trans h.current, ht', hrunning⟩,
    hrousedT.priority⟩
  rw [hpools, hmain, hidle]
  exact h.settled.roused hroused horderly

/-- A reply leaves a sound kernel. -/
theorem Serving.reply (h : k.Serving W me t) (answer : Answer) : (k.reply answer).Sound W := by
  have hruns : (k.reply answer).Runs W me t :=
    ⟨h.going, h.settled, h.current, h.record, h.running⟩
  exact hruns.sound_outside h.unrivalled rfl (by simp [Kernel.reply]) fun hidle =>
    absurd hidle h.program

theorem Serving.goesOn_reply (h : k.Serving W me t) (answer : Answer) :
    GoesOn W (.ok (k.reply answer)) :=
  ⟨_, rfl, h.reply answer⟩

/-- A kernel in which the running thread is no longer running, but ready or waiting, and goes on at
`here`, gives the processor away. -/
theorem Runs.stepAside (h : k.Runs W me t) {k' : Kernel ε} {t' : Thread (Position ε)}
    {here : Position ε} (hgoing : k'.stopped = k.stopped) (hinside : k'.gate.inside = true)
    (hpools : k'.pools = k.pools) (hmain : k'.main = k.main) (hidle : k'.idle = k.idle)
    (horderly : k'.sched.Orderly) (hcurrent : k'.sched.current = k.sched.current)
    (hothers : ∀ j, j ≠ me → k'.sched.threads.get? j = k.sched.threads.get? j)
    (ht' : k'.sched.threads.get? me = some t')
    (hstate : t'.state = .ready ∨ (t'.state = .waiting ∧ me ≠ k.idle))
    (hpriority : t'.priority = t.priority) (hposition : t'.position = t.position)
    (hmemory : t'.waitingFor ≠ some .memory)
    (hplaced : { t' with position := some here }.Placed k.pools me)
    (hrests : me = k.idle → here = .delivering .rest) : GoesOn W (k'.switchNext here) := by
  have hold := h.settled.placed h.record
  have hnotRunning : t'.state ≠ .running := by
    rcases hstate with hready | ⟨hwaiting, -⟩
    · simp [hready]
    · simp [hwaiting]
  have halive : t'.state ≠ .dead := by
    rcases hstate with hready | ⟨hwaiting, -⟩
    · simp [hready]
    · simp [hwaiting]
  -- Only one thread ran, and it has just stopped doing so.
  have hvacant : k'.sched.Vacant := by
    intro j v hv hrunning
    by_cases hj : j = me
    · obtain rfl : t' = v := Option.some.inj (ht'.symm.trans (hj ▸ hv))
      exact hnotRunning hrunning
    · rw [hothers j hj] at hv
      exact hj (h.eq_of_running hv hrunning)
  have hparked : (k'.sched.parked me here).threads.get? me =
      some { t' with position := some here } := by
    rw [Scheduler.get?_parked, if_pos rfl, ht', Option.map_some]
  have hwait : { t' with position := some here }.memoryWait = t.memoryWait :=
    Thread.memoryWait_congr (by simp [h.waitingFor]) hmemory
  refine switchNext_sound (hgoing.trans h.going) hinside horderly hvacant
    (hcurrent.trans h.current) ht' ?_ ?_ ?_
  · rw [hposition]
    exact hold.position (by simp [h.running])
  · rw [hidle, hposition]
    exact h.settled.position_idle h.record
  · rw [hpools, hmain, hidle]
    refine h.settled.alter h.record (.of_get? ?_) (horderly.parked ht' here) hparked hpriority
      (fun hdead => absurd hdead halive) (fun _ => halive) ?_ hplaced hwait ?_
    · intro j hj
      rw [Scheduler.get?_parked, if_neg hj, hothers j hj]
    · intro hme
      exact ⟨.inl (hstate.resolve_right fun hwaiting => hwaiting.2 hme), by rw [hrests hme]⟩
    · exact fun hpool => ⟨hpool, fun hretries =>
        absurd hretries (Thread.not_retries (by simp [h.running]))⟩

/-- The running thread waits for something else than memory or a mutex. -/
theorem Runs.suspend (h : k.Runs W me t) (hinside : k.gate.inside = true) (hprogram : me ≠ k.idle)
    {k' : Kernel ε} {reason : WaitReason} {timeout : Timeout} {pending : Pending ε}
    (hmutex : reason ≠ .mutex) (hmemory : reason ≠ .memory) (hgoing : k'.stopped = k.stopped)
    (hgate : k'.gate = k.gate) (hpools : k'.pools = k.pools) (hmain : k'.main = k.main)
    (hidle : k'.idle = k.idle) (hsched : k'.sched = k.sched.suspended me reason timeout)
    (hfits : pending.Fits k.pools me)
    (hawaited : ∀ u : Thread (Position ε), u.waitingFor = some reason → pending.Awaited u) :
    GoesOn W (k'.switchNext (.inside pending)) := by
  have hrecord := Scheduler.get?_suspended k.sched me me reason timeout
  rw [if_pos rfl, h.record, Option.map_some, ← hsched] at hrecord
  have horderly : k'.sched.Orderly :=
    hsched ▸ h.settled.sched.suspended h.record h.running hmutex timeout
  refine h.stepAside hgoing (hgate ▸ hinside) hpools hmain hidle horderly (by rw [hsched]; rfl) ?_
    hrecord (.inr ⟨rfl, hprogram⟩) rfl rfl (by simpa [Thread.arm] using hmemory) ?_
    fun hidle => absurd hidle hprogram
  · intro j hj
    rw [hsched, Scheduler.get?_suspended, if_neg hj]
  · refine ⟨fun _ => rfl, ?_, fun _ => ⟨pending, rfl, hawaited _ rfl⟩⟩
    rintro _ _ ⟨⟩
    exact hfits

/-- The running thread lets others go first, and goes on at `here` when it is its turn again. -/
theorem Runs.yield (h : k.Runs W me t) (hinside : k.gate.inside = true) {here : Position ε}
    (hfits : ∀ pending, here = .inside pending → pending.Fits k.pools me)
    (hrests : me = k.idle → here = .delivering .rest) : GoesOn W (k.yield here) := by
  have hready : (k.sched.readied me t.priority).threads.get? me =
      some { t with state := .ready } := by
    rw [Scheduler.get?_readied, if_pos rfl, h.record, Option.map_some]
  rw [Kernel.yield, Scheduler.requeueCurrent_eq h.current h.record h.running]
  refine h.stepAside rfl hinside rfl rfl rfl (h.settled.sched.readied h.record (.inr h.running)) rfl
    ?_ hready (.inl rfl) rfl rfl (by simp [h.waitingFor]) ?_ hrests
  · intro j hj
    show (k.sched.readied me t.priority).threads.get? j = _
    rw [Scheduler.get?_readied, if_neg hj]
  · exact ⟨fun _ => rfl, fun _ pending hhere => hfits pending (Option.some.inj hhere), by simp⟩

/-- A reply that waits for a candidate to run, if the candidate outranks the running thread. Nobody
else does. -/
theorem Runs.preemptFor (h : k.Runs W me t) (hinside : k.gate.inside = true)
    (hprogram : me ≠ k.idle) (hu : k.sched.threads.get? id = some u)
    (hrank : ∀ {j v}, j ≠ id → k.sched.threads.get? j = some v → v.state = .ready →
      v.priority ≤ t.priority) (answer : Answer) :
    GoesOn W (k.preemptFor id answer) := by
  rw [Kernel.preemptFor, Scheduler.outranksCurrent_eq h.current h.record hu]
  show GoesOn W (if decide (t.priority < u.priority) = true then _ else _)
  by_cases houtranks : t.priority < u.priority
  · rw [decide_eq_true houtranks, if_pos rfl]
    have h' : (k.emit (.preempt id)).Runs W me t :=
      ⟨h.going, h.settled, h.current, h.record, h.running⟩
    exact h'.yield hinside (fun _ hhere => by cases hhere; trivial) fun hidle =>
      absurd hidle hprogram
  · rw [decide_eq_false houtranks, if_neg Bool.false_ne_true]
    have hserving : k.Serving W me t := by
      refine ⟨h, ?_, hinside, hprogram⟩
      intro j v hv hready
      by_cases hj : j = id
      · obtain rfl : u = v := Option.some.inj (hu.symm.trans (hj ▸ hv))
        exact Priority.not_lt.mp houtranks
      · exact hrank hj hv hready
    exact hserving.goesOn_reply answer

/-! ## Refusals -/

theorem Serving.orRefuse (h : k.Serving W me t) {α : Type} {outcome : Except Status α}
    {next : α → Except Invariant (Kernel ε)}
    (hnext : ∀ value, outcome = .ok value → GoesOn W (next value)) :
    GoesOn W (k.orRefuse outcome next) := by
  cases outcome with
  | ok value => exact hnext value rfl
  | error status => exact h.goesOn_reply (.error status)

theorem Serving.orRefusePool (h : k.Serving W me t) {α : Type}
    {outcome : Except Memory.PoolError α} {next : α → Except Invariant (Kernel ε)}
    (hnext : ∀ value, outcome = .ok value → GoesOn W (next value)) :
    GoesOn W (k.orRefusePool outcome next) := by
  refine h.orRefuse ?_
  cases outcome with
  | ok value =>
    rintro _ ⟨⟩
    exact hnext value rfl
  | error status =>
    rintro _ ⟨⟩

end Kernel

end CoopKernel
