import CoopKernel.Proofs.Kernel.Lasting

/-!
# Calls that are granted

A thread that sleeps for some ticks, releases a mutex that it holds, or asks without a time limit
for one that it does not hold, is not refused. It comes back with success (`Kernel.Granted`), or it
waits for the mutex as long as it takes (`Kernel.Awaits`) and then comes back with success. Neither
can be changed by others, as long as they let the thread live (`Granted.moved`, `Awaits.moved`).
-/

namespace CoopKernel.Kernel

variable {ε : Type} {W W' : PoolId → Prop} {k k' : Kernel ε} {me id : ThreadId} {move : Move ε}
  {t : Thread (Position ε)} {x : MutexId} {here : Position ε} {reply : Reply}

/-! ## On the way back with success -/

/-- The call of a thread is sure to come back with success. -/
inductive Granted (k : Kernel ε) (id : ThreadId) : Prop
  /-- Its answer is all that is left of it, though the thread may still sleep. -/
  | passed {t : Thread (Position ε)} {here : Position ε} {reply : Reply}
    (hgoing : k.stopped = false) (hstands : k.standing id = some t)
    (hposition : t.position = some here) (harrival : here.arrival? = some (.returned (.ok reply)))
  /-- The thread has not seen yet that it holds the mutex that it asked for. -/
  | holding {t : Thread (Position ε)} {x : MutexId} (hgoing : k.stopped = false)
    (hstands : k.standing id = some t) (hposition : t.position = some (.inside (.acquire x id)))
    (hheld : x ∈ t.held)
  | arriving {reply : Reply} (hgoing : k.stopped = false) (hcurrent : k.sched.current = some id)
    (hactivity : k.activity = .arriving (.returned (.ok reply)))
  /-- The kernel was shut down meanwhile. -/
  | frozen (hstopped : k.stopped = true) (hcurrent : k.sched.current ≠ some id)

/-- A thread waits for a mutex, without a time limit. -/
structure Awaits (k : Kernel ε) (id : ThreadId) (x : MutexId) : Prop where
  wants : k.Wants id x
  endless : k.stopped = false → ∃ t, k.standing id = some t ∧ t.wanted = some x ∧
    t.position = some (.inside (.acquire x id)) ∧ t.countdown = .unlimited

theorem Granted.cleared (h : k.Granted id) : k.cleared.Granted id := by
  cases h with
  | passed hgoing hstands hposition harrival => exact .passed hgoing hstands hposition harrival
  | holding hgoing hstands hposition hheld => exact .holding hgoing hstands hposition hheld
  | arriving hgoing hcurrent hactivity => exact .arriving hgoing hcurrent hactivity
  | frozen hstopped hcurrent => exact .frozen hstopped hcurrent

/-- Whoever returns with success has been granted its call, or is back already. -/
theorem Returning.granted (h : k.Returning id (.returned (.ok reply))) (hsound : k.Sound W)
    (hgoing : k.stopped = false) : k.Granted id ∨ k.deciding id = true := by
  cases h with
  | parked _ hnot hrecord _ hposition harrival =>
    exact .inl (.passed hgoing ((standing_eq (hsound.not_running hnot)).trans hrecord) hposition
      harrival)
  | leaving hcurrent hposition harrival =>
    obtain ⟨_, t, hbusy, ht, hrunning, -⟩ := hsound.upright.busy
    obtain rfl := Option.some.inj (hcurrent.symm.trans hbusy)
    exact .inl (.passed hgoing (standing_of_running ht hrunning) hposition harrival)
  | arrived hcurrent hactivity => exact .inl (.arriving hgoing hcurrent hactivity)
  | back hcurrent hactivity => exact .inr (deciding_iff.mpr ⟨hactivity, hcurrent⟩)
  | ended hstopped _ => simp [hgoing] at hstopped

/-- A thread with the processor is not one that a shutdown has stopped. -/
theorem Granted.going (h : k.Granted id) (hcurrent : k.sched.current = some id) :
    k.stopped = false := by
  cases h with
  | frozen _ hnot => exact absurd hcurrent hnot
  | _ => assumption

/-- A thread that comes to its program from a call that was granted comes with success. -/
theorem Granted.of_arriving (h : k.Granted id) (hsound : k.Sound W)
    (hcurrent : k.sched.current = some id) {arrival : Arrival ε}
    (hactivity : k.activity = .arriving arrival) : ∃ reply, arrival = .returned (.ok reply) := by
  have hnowhere : ∀ {t : Thread (Position ε)} {here}, k.stopped = false →
      k.standing id = some t → t.position ≠ some here := fun hgoing hstands hposition => by
    obtain ⟨_, _, -, -, -, -, hhere⟩ := hsound.standing_current hgoing hcurrent hstands
    rw [hposition, hactivity] at hhere
    cases hhere
  cases h with
  | passed hgoing hstands hposition _ => exact absurd hposition (hnowhere hgoing hstands)
  | holding hgoing hstands hposition _ => exact absurd hposition (hnowhere hgoing hstands)
  | @arriving reply _ _ hsame => exact ⟨reply, Activity.arriving.inj (hactivity.symm.trans hsame)⟩
  | frozen _ hnot => exact absurd hcurrent hnot

/-- The thread with the processor goes on with its call. -/
theorem Granted.advance (h : k.Granted id) (hsound : k.Sound W) (hsound' : k'.Sound W')
    (hcurrent : k.sched.current = some id) (hgoing' : k'.stopped = false)
    (hrun : k.advance = .ok k') : k'.Granted id ∨ k'.deciding id = true := by
  cases h with
  | passed hgoing hstands hposition harrival =>
    obtain ⟨_, _, -, -, -, -, hhere⟩ := hsound.standing_current hgoing hcurrent hstands
    exact ((Returning.leaving hcurrent (hhere.symm.trans hposition) harrival).advance hsound hsound'
      hcurrent hrun).granted hsound' hgoing'
  | @holding t x hgoing hstands hposition hheld =>
    obtain ⟨_, heq, hsched, -, ⟨-, hactivity⟩ | ⟨hnot, -⟩⟩ :=
      hsound.advance_acquire hgoing hcurrent hstands hposition
    · obtain rfl := Except.ok.inj (hrun.symm.trans heq)
      have hposition' : k'.activity.position? = some (.delivering (.reply (.ok .done))) := by
        rw [hactivity]
        rfl
      have hreturning : k'.Returning id (.returned (.ok .done)) :=
        .leaving (hsched ▸ hcurrent) hposition' rfl
      exact hreturning.granted hsound' hgoing'
    · exact absurd hheld hnot
  | arriving _ _ hactivity =>
    rw [Kernel.advance, hactivity] at hrun
    obtain rfl := Except.ok.inj hrun
    exact .inr (deciding_iff.mpr ⟨rfl, hcurrent⟩)
  | frozen _ hnot => exact absurd hcurrent hnot

/-- The thread with the processor gets back past what is pending. -/
theorem Granted.bypass (h : k.Granted id) (hsound : k.Sound W)
    (hcurrent : k.sched.current = some id) {answer : Answer}
    (hactivity : k.activity = .delivering (.reply answer)) :
    (k.arrive (.returned answer)).Granted id := by
  have hhere : ∀ {t : Thread (Position ε)} {here}, k.stopped = false → k.standing id = some t →
      t.position = some here → some here = k.activity.position? := by
    intro t here hgoing hstands hposition
    obtain ⟨_, _, -, -, -, -, hhere⟩ := hsound.standing_current hgoing hcurrent hstands
    rw [← hposition, hhere]
  cases h with
  | passed hgoing hstands hposition harrival =>
    have hsame := hhere hgoing hstands hposition
    rw [hactivity] at hsame
    obtain rfl := Option.some.inj hsame
    obtain rfl := Arrival.returned.inj (Option.some.inj harrival)
    exact .arriving hgoing hcurrent rfl
  | holding hgoing hstands hposition _ =>
    have hsame := hhere hgoing hstands hposition
    rw [hactivity] at hsame
    cases hsame
  | arriving _ _ harriving => cases hactivity.symm.trans harriving
  | frozen _ hnot => exact absurd hcurrent hnot

/-- What others do makes no difference. -/
theorem Granted.others (h : k.Granted id) (hsound : k.Sound W) (hnot : k.sched.current ≠ some id)
    (hmoved : Moved move k k') (hlives : k.lives id = true) (hlives' : k'.lives id = true) :
    k'.Granted id := by
  obtain ⟨u, hu, halive⟩ := lives_iff.mp hlives
  have hstanding := (standing_eq (hsound.not_running hnot)).trans hu
  cases h with
  | passed hgoing hstands hposition harrival =>
    obtain rfl := Option.some.inj (hstanding.symm.trans hstands)
    rcases hmoved.stands hsound hgoing hnot hstands halive hlives' with
      ⟨hgoing', t', hstands', -, hsame, -⟩ | ⟨hstopped, hnot'⟩
    · exact .passed hgoing' hstands' (hsame.trans hposition) harrival
    · exact .frozen hstopped hnot'
  | holding hgoing hstands hposition hheld =>
    obtain rfl := Option.some.inj (hstanding.symm.trans hstands)
    rcases hmoved.stands hsound hgoing hnot hstands halive hlives' with
      ⟨hgoing', t', hstands', -, hsame, hkept⟩ | ⟨hstopped, hnot'⟩
    · exact .holding hgoing' hstands' (hsame.trans hposition) (hkept hheld)
    · exact .frozen hstopped hnot'
  | arriving _ hcurrent _ => exact absurd hcurrent hnot
  | frozen hover _ =>
    obtain ⟨hstopped, hcurrent⟩ := hmoved.stopped hover
    exact .frozen hstopped (hcurrent ▸ hnot)

/-- A call that is granted stays so until its thread is back. -/
theorem Granted.moved (h : k.Granted id) (hsound : k.Sound W) (hsound' : k'.Sound W')
    (hallowed : k.allows move = true) (hrun : k.perform move = .ok k')
    (haway : k.deciding id = false) (hlives : k.lives id = true) (hlives' : k'.lives id = true) :
    k'.Granted id ∨ k'.deciding id = true := by
  have hmoved := hsound.moved hallowed hrun
  by_cases hcurrent : k.sched.current = some id
  · have hprogram : k.inProgram = false := by simpa [deciding, hcurrent] using haway
    rcases raised_or_advanced hprogram hallowed hrun with
      ⟨interrupt, rfl, rfl⟩ | ⟨rfl, hadvance⟩ | ⟨rfl, _, hactivity, rfl⟩
    · cases h with
      | passed hgoing hstands hposition harrival =>
        exact .inl (.passed hgoing hstands hposition harrival)
      | holding hgoing hstands hposition hheld =>
        exact .inl (.holding hgoing hstands hposition hheld)
      | arriving hgoing _ hactivity => exact .inl (.arriving hgoing hcurrent hactivity)
      | frozen _ hnot => exact absurd hcurrent hnot
    · have hgoing' := hmoved.going_on (h.going hcurrent) (by simp)
      exact h.advance hsound hsound' hcurrent hgoing' hadvance
    · exact .inl (h.bypass hsound hcurrent hactivity)
  · exact .inl (h.others hsound hcurrent hmoved hlives hlives')

/-! ## Waiting for a mutex -/

theorem Awaits.cleared (h : k.Awaits id x) : k.cleared.Awaits id x := ⟨h.wants, h.endless⟩

/-- A thread waits until the mutex is passed to it. -/
theorem Awaits.moved (h : k.Awaits id x) (hsound : k.Sound W) (hmoved : Moved move k k')
    (hlives' : k'.lives id = true) : k'.Awaits id x ∨ k'.Granted id ∧ k'.Holds id x := by
  have hnot := hsound.not_current_of_wants h.wants
  have hrunning := hsound.not_running hnot
  obtain ⟨u, hu, hwanted⟩ := h.wants
  cases hmoved.effect with
  | still hsched _ hstopped _ _ =>
    have hstanding : k'.standing id = k.standing id := by
      rw [standing_eq hrunning, standing_eq (hsched.symm ▸ hrunning), hsched]
    refine .inl ⟨⟨u, hsched ▸ hu, hwanted⟩, fun hgoing => ?_⟩
    rw [hstanding]
    exact h.endless (hstopped.symm.trans hgoing)
  | shutdown _ _ hstopped _ _ hsched _ _ _ =>
    have hsame := unplaced_foldl_forgetPosition k.sched
      (k.sched.threads.handles.filter (· != k.main)) id
    rw [← hsched, hu] at hsame
    obtain ⟨v, hv, heq⟩ := Option.map_eq_some_iff.mp hsame
    have hwants := congrArg Thread.wanted heq
    exact .inl ⟨⟨v, hv, hwants.trans hwanted⟩, fun hgoing => by simp [hstopped] at hgoing⟩
  | @turn me _ _ hgoing hcurrent hturn =>
    have hid : id ≠ me := by
      rintro rfl
      exact hnot hcurrent
    have hgoing' : k'.stopped = false := hturn.stopped.trans hgoing
    obtain ⟨hstanding, t', hstands', halive', hfate⟩ := hturn.other hsound hcurrent hid hlives'
    obtain ⟨t, hstands, -, hposition, hcountdown⟩ := h.endless hgoing
    rw [hu] at hstanding
    obtain rfl := Option.some.inj (hstanding.symm.trans hstands)
    rw [hstanding] at hfate
    have hwaits : t' = u → k'.Awaits id x := by
      rintro rfl
      exact ⟨(wants_iff hstands').mpr hwanted, fun _ => ⟨t', hstands', hwanted, hposition, hcountdown⟩⟩
    rcases hfate.of_wanting (hsound.upright.orderly.tidy hu) hwanted halive' with
      ⟨-, hsame⟩ | ⟨-, hsame⟩ | ⟨rfl, -⟩
    · exact .inl (hwaits hsame)
    · exact .inl (hwaits (hsame.trans (Thread.countedDown_of_unlimited hcountdown)))
    · have hheld : x ∈ (u.receive x).held := (Thread.mem_held_hold u x x).mpr (.inl rfl)
      exact .inr ⟨.holding hgoing' hstands' hposition hheld, (holds_iff hstands').mpr hheld⟩

/-! ## The calls -/

/-- A thread that sleeps comes back with success, and has in its hands what it had. -/
theorem Runs.sleep_ends (h : k.Runs W me t) {timeout : Timeout} (hrun : k.sleep timeout = .ok k') :
    ∃ t', k'.standing me = some t' ∧ t'.held = t.held ∧
      t'.position = some (.inside (.reply (.ok .done))) := by
  rw [Kernel.sleep, h.me_eq] at hrun
  have hyield : k.yield (.inside (.reply (.ok .done))) = .ok k' →
      ∃ t', k'.standing me = some t' ∧ t'.held = t.held ∧
        t'.position = some (.inside (.reply (.ok .done))) := fun hrun =>
    ⟨_, (yield_ends h.settled.sched h.current h.record h.running hrun).own, rfl, rfl⟩
  cases timeout with
  | immediate => exact hyield hrun
  | infinite => exact hyield hrun
  | ticks count =>
    change (k.sched.block me .sleep (.ticks count) >>= _) = _ at hrun
    rw [Scheduler.block_eq h.record] at hrun
    have hget := fun j => Scheduler.get?_suspended k.sched me j .sleep (.ticks count)
    have hrecord := hget me
    rw [if_pos rfl, h.record, Option.map_some] at hrecord
    let asleep : Kernel ε := ({ k with
      sched := k.sched.suspended me .sleep (.ticks count) } : Kernel ε).emit (.sleep me count)
    have hends := h.switchNext_ends (m := asleep)
      (h.settled.sched.suspended h.record h.running (by simp) (.ticks count)) rfl
      (fun j hj => (hget j).trans (if_neg hj)) hrecord (by simp) hrun
    exact ⟨_, hends.own, rfl, rfl⟩

/-- A thread that asks for a mutex that it does not hold gets it, or waits for it. -/
theorem Runs.acquire_ends (h : k.Runs W me t) (hx : (k.sched.mutexes.get? x).isSome = true)
    (hheld : x ∉ t.held) (hrun : k.acquire x .infinite = .ok k') :
    (∃ t', k'.standing me = some t' ∧ t'.held = (t.hold x).held ∧
      t'.position = some (.delivering (.reply (.ok .done)))) ∨
    ∃ t', k'.standing me = some t' ∧ t'.held = t.held ∧ t'.wanted = some x ∧
      t'.position = some (.inside (.acquire x me)) ∧ t'.countdown = .unlimited := by
  obtain ⟨mutex, hx⟩ := Option.isSome_iff_exists.mp hx
  rw [Kernel.acquire, h.me_eq] at hrun
  simp only [bind, Except.bind] at hrun
  cases howner : mutex.owner with
  | none =>
    rw [Scheduler.tryLock_free hx howner h.record] at hrun
    obtain rfl := Except.ok.inj hrun
    have hrecord := Scheduler.get?_locked k.sched x me me
    rw [if_pos rfl, h.record, Option.map_some] at hrecord
    exact .inl ⟨_, standing_of_running hrecord h.running, rfl, rfl⟩
  | some owner =>
    have hne : owner ≠ me := by
      rintro rfl
      obtain ⟨u, hu, hmem⟩ :=
        (h.settled.sched.owned.owner_iff x owner).mp ⟨mutex, hx, howner⟩
      exact hheld (Option.some.inj (hu.symm.trans h.record) ▸ hmem)
    rw [Scheduler.tryLock_other hx howner hne] at hrun
    change k.orFail (k.sched.waitForMutex x me .infinite) _ = _ at hrun
    rw [Scheduler.waitForMutex_eq h.record hx] at hrun
    have hget := Scheduler.get?_enlisted k.sched x me
    have hrecord := hget me t.priority .infinite
    rw [if_pos rfl, h.record, Option.map_some] at hrecord
    let waiting : Kernel ε := ({ k with
      sched := k.sched.enlisted x me t.priority .infinite } : Kernel ε).emit (.block x me)
    have hends := h.switchNext_ends (m := waiting)
      (h.settled.sched.enlisted hx howner hne h.record h.running .infinite) rfl
      (fun j hj => (hget j _ _).trans (if_neg hj)) hrecord (by simp) hrun
    exact .inr ⟨_, hends.own, rfl, rfl, rfl, rfl⟩

/-- A thread that releases a mutex that it holds comes back with success, and without the mutex. -/
theorem Runs.release_ends (h : k.Runs W me t) (hheld : x ∈ t.held)
    (hrun : k.release x = .ok k') : ∃ t' here, k'.standing me = some t' ∧
      t'.held = (t.letGo x).held ∧ t'.position = some here ∧
      here.arrival? = some (.returned (.ok .done)) := by
  obtain ⟨mutex, hx, howner⟩ := (h.settled.sched.owned.owner_iff x me).mpr ⟨t, h.record, hheld⟩
  rw [Kernel.release, h.me_eq] at hrun
  change k.orFail (k.sched.release x me) _ = _ at hrun
  rw [Scheduler.release_eq hx, if_pos howner] at hrun
  obtain ⟨next, s', heq, horderly, hcurrent, hnext, hget⟩ :=
    h.settled.sched.handOver hx howner h.record
  have hself : next ≠ some me := fun hme => (hnext me hme).1 rfl
  have hrecord : s'.threads.get? me = some (t.letGo x) := by
    rw [hget, if_neg hself, if_pos rfl, h.record, Option.map_some]
  rw [heq] at hrun
  cases next with
  | none =>
    obtain rfl := Except.ok.inj hrun
    exact ⟨_, _, standing_of_running hrecord h.running, rfl, rfl, rfl⟩
  | some heir =>
    let passed : Kernel ε :=
      (({ k with sched := s' } : Kernel ε).emit (.release x me)).emit (.handoff x heir)
    obtain ⟨here, harrival, hends⟩ := preemptFor_ends (k := passed) horderly
      (hcurrent.trans h.current) hrecord h.running hrun
    exact ⟨_, here, hends.own, rfl, rfl, harrival⟩

/-- Whoever stands somewhere in the kernel is not in its program. -/
theorem Sound.not_deciding (h : k.Sound W) (hgoing : k.stopped = false)
    (hstands : k.standing id = some t) (hposition : t.position = some here) :
    k.deciding id = false := by
  rw [← Bool.not_eq_true, deciding_iff]
  rintro ⟨hprogram, hcurrent⟩
  obtain ⟨_, _, -, -, -, -, hhere⟩ := h.standing_current hgoing hcurrent hstands
  rw [hprogram, hposition] at hhere
  cases hhere

/-- Whoever decides on a call makes it inside the section, and is alive. -/
theorem Sound.deciding_calls (h : k.Sound W) (hgoing : k.stopped = false)
    (hdeciding : k.deciding id = true) : ∃ W' t, k.Calling W' id t := by
  obtain ⟨hprogram, hcurrent⟩ := deciding_iff.mp hdeciding
  rcases h.calling hprogram with hhalted | ⟨me, t, hcalling⟩
  · simp [hhalted.stopped] at hgoing
  · obtain rfl := Option.some.inj (hcurrent.symm.trans hcalling.current)
    exact ⟨_, t, hcalling⟩

section

variable (h : k.Sound W) (hgoing : k.stopped = false) (hdeciding : k.deciding id = true)
  (hsound' : k'.Sound W') (hgoing' : k'.stopped = false)

include h hgoing hdeciding hsound' hgoing'

theorem Sound.sleep_granted {count : Nat} (hrun : k.call (.sleep (.ticks count)) = .ok k') :
    k'.Granted id ∧ k'.deciding id = false ∧ ∀ x, k'.Holds id x ↔ k.Holds id x := by
  obtain ⟨_, t, hcalling⟩ := h.deciding_calls hgoing hdeciding
  have hserving := hcalling.serving_entered (.sleep (.ticks count))
  change k.inSection _ = _ at hrun
  rw [hcalling.inSection_entered (.sleep (.ticks count)) (List.append_nil _).symm] at hrun
  obtain ⟨t', hstands, hheld, hposition⟩ := hserving.sleep_ends hrun
  refine ⟨.passed hgoing' hstands hposition rfl, hsound'.not_deciding hgoing' hstands hposition,
    fun x => ?_⟩
  rw [holds_iff hstands, hheld]
  simp [Holds, hcalling.record]

theorem Sound.acquire_granted (hx : (k.sched.mutexes.get? x).isSome = true)
    (hnot : ¬ k.Holds id x) (hrun : k.call (.mutexAcquire x .infinite) = .ok k') :
    k'.deciding id = false ∧ (k'.Granted id ∧ (∀ y, k'.Holds id y ↔ y = x ∨ k.Holds id y) ∨
      k'.Awaits id x ∧ ∀ y, k'.Holds id y ↔ k.Holds id y) := by
  obtain ⟨_, t, hcalling⟩ := h.deciding_calls hgoing hdeciding
  have hserving := hcalling.serving_entered (.mutexAcquire x .infinite)
  change k.inSection _ = _ at hrun
  rw [hcalling.inSection_entered (.mutexAcquire x .infinite) (List.append_nil _).symm] at hrun
  have hheld : x ∉ t.held := fun hmem => hnot ⟨t, hcalling.record, hmem⟩
  rcases hserving.acquire_ends hx hheld hrun with
    ⟨t', hstands, hheld', hposition⟩ | ⟨t', hstands, hheld', hwanted, hposition, hcountdown⟩
  · refine ⟨hsound'.not_deciding hgoing' hstands hposition,
      .inl ⟨.passed hgoing' hstands hposition rfl, fun y => ?_⟩⟩
    rw [holds_iff hstands, hheld', Thread.mem_held_hold]
    simp [Holds, hcalling.record]
  · refine ⟨hsound'.not_deciding hgoing' hstands hposition,
      .inr ⟨⟨(wants_iff hstands).mpr hwanted, fun _ => ⟨t', hstands, hwanted, hposition, hcountdown⟩⟩,
        fun y => ?_⟩⟩
    rw [holds_iff hstands, hheld']
    simp [Holds, hcalling.record]

theorem Sound.release_granted (hholds : k.Holds id x)
    (hrun : k.call (.mutexRelease x) = .ok k') :
    k'.Granted id ∧ k'.deciding id = false ∧ ∀ y, k'.Holds id y ↔ k.Holds id y ∧ y ≠ x := by
  obtain ⟨_, t, hcalling⟩ := h.deciding_calls hgoing hdeciding
  have hserving := hcalling.serving_entered (.mutexRelease x)
  change k.inSection _ = _ at hrun
  rw [hcalling.inSection_entered (.mutexRelease x) (List.append_nil _).symm] at hrun
  have hheld : x ∈ t.held := by
    obtain ⟨u, hu, hmem⟩ := hholds
    exact Option.some.inj (hu.symm.trans hcalling.record) ▸ hmem
  obtain ⟨t', here, hstands, hheld', hposition, harrival⟩ := hserving.release_ends hheld hrun
  refine ⟨.passed hgoing' hstands hposition harrival,
    hsound'.not_deciding hgoing' hstands hposition, fun y => ?_⟩
  rw [holds_iff hstands, hheld', Thread.mem_held_letGo]
  simp [Holds, hcalling.record]

end

end CoopKernel.Kernel
