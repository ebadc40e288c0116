import CoopKernel.Proofs.Kernel.Acquisition
import CoopKernel.Proofs.Kernel.Completion
import CoopKernel.Proofs.Kernel.Enacting
import CoopKernel.Proofs.Kernel.Entries
import CoopKernel.Proofs.Kernel.Lasting

/-!
# Waits that end with a tick

With each tick the waits of some threads end (`Kernel.Strikes`). They come last in the ready queue,
first those that slept and then those that waited for a mutex, each group in the order in which they
began to wait, and the thread that was interrupted comes last of all. Nobody who waits for something
else, or without a limit, is touched.

A thread that sleeps for some ticks sleeps until the last of them, and wakes with it, whatever
others do meanwhile, as long as nobody ends its life (`Kernel.Dozes`).
-/

namespace CoopKernel

variable {ε : Type}

namespace Kernel

variable {W : PoolId → Prop} {k k' k₁ : Kernel ε} {me id : ThreadId} {t : Thread (Position ε)}
  {move : Move ε} {moves : List (Move ε)} {destination : Destination ε} {tick n : Nat}

/-! ## One tick -/

/-- Whether a thread waits for a reason, and its wait runs out with the next tick. -/
def Expires (k : Kernel ε) (id : ThreadId) (reason : WaitReason) : Prop :=
  ∃ t, k.sched.threads.get? id = some t ∧ t.state = .waiting ∧ t.waitingFor = some reason ∧
    t.countdown.next.expired = true

/-- What a tick makes of a kernel in which `me` runs: the waits of the sleepers end, and those of
some threads that wait for mutexes. -/
structure Strikes (k k' : Kernel ε) (me : ThreadId) (sleepers waiters : List ThreadId) : Prop where
  current : k.sched.current = some me
  ticks : k'.sched.ticks = k.sched.ticks + 1
  mem_sleepers : ∀ {id}, id ∈ sleepers ↔ k.Expires id .sleep
  mem_waiters : ∀ {id}, id ∈ waiters ↔ k.Expires id .mutex
  /-- Each group is in the order in which they began to wait. -/
  sleepersInOrder : ∀ {a b}, [a, b].Sublist sleepers → LastBefore k.blockings a b
  waitersInOrder : ∀ {a b}, [a, b].Sublist waiters → LastBefore k.blockings a b
  roused : ∀ id ∈ sleepers ++ waiters, k'.CanRun id
  /-- They come last at their levels, and the running thread comes after them. Then the first of the
  highest level gets the processor. -/
  queues : ∃ next u, k'.sched.current = some next ∧ k'.sched.threads.get? next = some u ∧ ∀ p,
    k.sched.ready.level p ++ (sleepers ++ waiters ++ [me]).filter (k.sched.hasPriority p) =
      (if u.priority = p then [next] else []) ++ k'.sched.ready.level p
  journal : k.Reports k' (.tick (k.sched.ticks + 1) :: sleepers.map .wake)
  /-- Whoever waits for something else, or without a limit, goes on as before. -/
  spared : ∀ {id t}, k.sched.threads.get? id = some t →
    t.waitingFor = some .io ∨ t.waitingFor = some .memory ∨
      t.waitingFor = some .mutex ∧ t.countdown = .unlimited →
    k'.sched.threads.get? id = some t
  lists : ∀ {reason}, reason.timed = false →
    k'.sched.waiting.get reason = k.sched.waiting.get reason
  pools : k'.pools = k.pools

/-- Whoever queues the running thread again and picks the next one takes the first thread of the
highest level off the ready queue. -/
theorem yield_queues (horderly : k.sched.Orderly) (hcurrent : k.sched.current = some me)
    (ht : k.sched.threads.get? me = some t) (hrunning : t.state = .running) {here : Position ε}
    (hrun : k.yield here = .ok k') :
    k'.sched.waiting = k.sched.waiting ∧ ∃ next u, k'.sched.current = some next ∧
      k'.sched.threads.get? next = some u ∧ ∀ p,
        k.sched.ready.level p ++ (if t.priority = p then [me] else []) =
          (if u.priority = p then [next] else []) ++ k'.sched.ready.level p := by
  let queued : Kernel ε := { k with sched := k.sched.readied me t.priority }
  have horderly' : queued.sched.Orderly := horderly.readied ht (.inr hrunning)
  rw [Kernel.yield, Scheduler.requeueCurrent_eq hcurrent ht hrunning] at hrun
  obtain ⟨-, source, target, s', hpick, hgoes⟩ := switchNext_cases (k := queued) hrun
  obtain ⟨next, u, rest, hu, -, hlevel, -, hswitch, rfl⟩ := horderly'.pickNext_front hpick
  obtain ⟨-, rfl⟩ := Switch.mk.inj hswitch
  have hlevels : ∀ p, k.sched.ready.level p ++ (if t.priority = p then [me] else []) =
      (if u.priority = p then [target] else []) ++
        (queued.sched.dispatched target u.priority).ready.level p := by
    intro p
    rw [← Scheduler.level_readied, Scheduler.level_dispatched]
    change queued.sched.ready.level p = _
    by_cases hp : p = u.priority
    · rw [if_pos hp.symm, if_pos hp, hp, hlevel, List.erase_cons_head]
      rfl
    · rw [if_neg (Ne.symm hp), if_neg hp]
      rfl
  have hdispatched := Scheduler.get?_dispatched queued.sched target target u.priority
  rw [if_pos rfl, hu, Option.map_some] at hdispatched
  rcases hgoes with ⟨rfl, rfl⟩ | ⟨hne, there, -, rfl⟩
  · rw [sched_resume]
    exact ⟨rfl, target, _, rfl, hdispatched, hlevels⟩
  · rw [sched_resume]
    refine ⟨rfl, target, { u with state := .running }, rfl, ?_, hlevels⟩
    exact (Scheduler.get?_parked ..).trans ((if_neg hne).trans hdispatched)

/-- What a report has of a list of those who wait are those whose waits run out. -/
theorem mem_filter_lapses (horderly : k.sched.Orderly) {reason : WaitReason} :
    id ∈ (k.sched.waiting.get reason).filter k.sched.lapses ↔ k.Expires id reason := by
  rw [List.mem_filter, horderly.queued.mem_waiting, Scheduler.place, Scheduler.lapses]
  cases ht : k.sched.threads.get? id with
  | none => simp [Expires, ht]
  | some t => simp [Expires, ht, Thread.place_eq_waiting_iff, and_assoc]

/-- Whoever waits for something else than a tick, or without a limit, does not notice a tick. -/
theorem Thread.chime_of_patient (h : t.waitingFor = some .io ∨ t.waitingFor = some .memory ∨
    t.waitingFor = some .mutex ∧ t.countdown = .unlimited) : t.chime = t := by
  rcases h with hio | hmemory | ⟨hmutex, hunlimited⟩
  · exact Thread.chime_of_untimed (by simp [hio, WaitReason.timed])
  · exact Thread.chime_of_untimed (by simp [hmemory, WaitReason.timed])
  · rw [Thread.chime_of_timed hmutex rfl, Thread.countedDown_of_unlimited hunlimited]

/-- A tick makes of those who wait what it makes of their records: nobody who waits is the one who
runs. -/
theorem Runs.standing_tick {u : Thread (Position ε)} (h : k.Runs W me t)
    (hrun : k.dispatchTick destination = .ok k') (hu : k.sched.threads.get? id = some u)
    (hwaiting : u.state = .waiting) : k'.standing id = some u.chime := by
  obtain ⟨report, s', heq, hends⟩ := h.dispatchTick_ends hrun
  rw [hends.others id (h.ne_of_not_running hu (by simp [hwaiting]))]
  show s'.threads.get? id = _
  rw [h.settled.sched.get?_tick heq, hu, Option.map_some]

/-- Whoever's wait runs out can run after the tick. -/
theorem Runs.canRun_tick {reason : WaitReason} (h : k.Runs W me t)
    (hrun : k.dispatchTick destination = .ok k') (hexpires : k.Expires id reason)
    (htimed : reason.timed = true) : k'.CanRun id := by
  obtain ⟨u, hu, hwaiting, hreason, hexpired⟩ := hexpires
  have hstanding := h.standing_tick hrun hu hwaiting
  rw [Thread.chime_of_timed hreason htimed, Thread.countedDown, if_pos hexpired] at hstanding
  exact .of_standing hstanding rfl

theorem Runs.spared_tick {u : Thread (Position ε)} (h : k.Runs W me t)
    (hrun : k.dispatchTick destination = .ok k') (hu : k.sched.threads.get? id = some u)
    (hpatient : u.waitingFor = some .io ∨ u.waitingFor = some .memory ∨
      u.waitingFor = some .mutex ∧ u.countdown = .unlimited) :
    k'.sched.threads.get? id = some u := by
  have hwaiting : u.state = .waiting := by
    refine (h.settled.sched.tidy hu).waiting_iff.mpr ?_
    rcases hpatient with hio | hmemory | ⟨hmutex, -⟩
    · simp [hio]
    · simp [hmemory]
    · simp [hmutex]
  have hstanding := h.standing_tick hrun hu hwaiting
  rw [Thread.chime_of_patient hpatient] at hstanding
  obtain ⟨v, hv, ⟨-, rfl⟩ | ⟨-, rfl⟩⟩ := exists_of_standing hstanding
  · cases hwaiting
  · exact hv

theorem Runs.strikes (h : k.Runs W me t)
    (hordered : ∀ {queue}, k.sched.TimedQueue queue → queue.Sublist (byLast k.blockings))
    (hrun : k.dispatchTick destination = .ok k') :
    ∃ sleepers waiters, k.Strikes k' me sleepers waiters := by
  obtain ⟨report, s', heq, hends⟩ := h.dispatchTick_ends hrun
  obtain ⟨_, _, hsame, horderly, hroused, hticks⟩ := h.settled.sched.tick
  obtain ⟨rfl, rfl⟩ := Prod.mk.inj (Except.ok.inj (heq.symm.trans hsame))
  have hbefore := h.settled.sched
  have hyield := hrun
  rw [dispatchTick_eq heq] at hyield
  obtain ⟨hlists, next, u, hcurrent, hu, hlevels⟩ := yield_queues (k := k.ticked s' report)
    horderly (hroused.current.trans h.current) (h.record_tick heq) h.running hyield
  obtain ⟨hwoken, htimedOut⟩ :
      report.woken = (k.sched.waiting.get .sleep).filter k.sched.lapses ∧
        report.timedOut.map Prod.fst = (k.sched.waiting.get .mutex).filter k.sched.lapses :=
    hbefore.report_tick heq
  have hsleepers : ∀ {id}, id ∈ report.woken ↔ k.Expires id .sleep := by
    rw [hwoken]
    exact mem_filter_lapses hbefore
  have hwaiters : ∀ {id}, id ∈ report.timedOut.map Prod.fst ↔ k.Expires id .mutex := by
    rw [htimedOut]
    exact mem_filter_lapses hbefore
  exact ⟨report.woken, report.timedOut.map Prod.fst,
    { current := h.current
      ticks := hends.ticks.trans hticks
      mem_sleepers := hsleepers
      mem_waiters := hwaiters
      sleepersInOrder := fun hpair => by
        rw [hwoken] at hpair
        exact lastBefore_of_sublist ((hpair.trans List.filter_sublist).trans (hordered .sleeping))
      waitersInOrder := fun hpair => by
        rw [htimedOut] at hpair
        exact lastBefore_of_sublist ((hpair.trans List.filter_sublist).trans (hordered .wanting))
      roused := fun id hid => by
        rcases List.mem_append.mp hid with hsleeper | hwaiter
        · exact h.canRun_tick hrun (hsleepers.mp hsleeper) rfl
        · exact h.canRun_tick hrun (hwaiters.mp hwaiter) rfl
      queues := by
        refine ⟨next, u, hcurrent, hu, fun p => ?_⟩
        have hlast : [me].filter (k.sched.hasPriority p) = if t.priority = p then [me] else [] := by
          rw [List.filter_singleton, Scheduler.hasPriority, h.record, Option.any_some]
          simp
        rw [← hlevels, List.filter_append, ← List.append_assoc, ← hbefore.level_tick heq p, hlast]
        rfl
      journal := by
        refine .of_emitted (m := k.ticked s' report) ?_ hends.ticks hends.journal
        rw [← hbefore.number_tick heq]
        rfl
      spared := h.spared_tick hrun
      lists := fun huntimed => by
        rw [hlists]
        exact hbefore.waiting_tick heq huntimed
      pools := hends.pools }⟩

/-- A move that takes a tick takes nothing else. -/
theorem takes_of_count (h : (k.takes move).count .tick ≠ 0) : k.takes move = [.tick] := by
  rcases takes_eq k move with hnone | ⟨_, interrupt, _, _, _, _, hone⟩
  · rw [hnone] at h
    exact absurd rfl h
  · rw [hone] at h ⊢
    cases interrupt with
    | tick => rfl
    | ioComplete _ _ => exact absurd rfl h

/-- A tick that is processed strikes. -/
theorem Reachable.strikes (h : k.Reachable) (hgoing : k.stopped = false)
    (htakes : k.takes move = [.tick]) (hperform : k.perform move = .ok k') :
    move = .advance ∧ ∃ me sleepers waiters, k.Strikes k' me sleepers waiters := by
  rcases takes_eq k move with hnone | ⟨destination, interrupt, rest, rfl, hactivity, hpending, hone⟩
  · rw [htakes] at hnone
    cases hnone
  · obtain rfl : Interrupt.tick = interrupt := List.singleton_inj.mp (htakes.symm.trans hone)
    change k.advance = _ at hperform
    rw [h.sound.advance_delivering hgoing hactivity hpending] at hperform
    obtain ⟨me, _, hcurrent, -⟩ := h.sound.upright.busy
    obtain ⟨_, t, hruns⟩ := h.sound.runs hgoing hcurrent
    let entered : Kernel ε := { k with line := { pending := rest }, gate := { inside := true } }
    have hentered : entered.Runs _ me t :=
      ⟨hruns.going, hruns.settled, hruns.current, hruns.record, hruns.running⟩
    obtain ⟨sleepers, waiters, hstrikes⟩ := hentered.strikes h.sublist_blockings hperform
    exact ⟨rfl, me, sleepers, waiters, hstrikes.current, hstrikes.ticks, hstrikes.mem_sleepers,
      hstrikes.mem_waiters, hstrikes.sleepersInOrder, hstrikes.waitersInOrder, hstrikes.roused,
      hstrikes.queues, hstrikes.journal, hstrikes.spared, hstrikes.lists, hstrikes.pools⟩

/-! ## A sleep -/

/-- A thread sleeps, and its sleep ends with a tick that is still to come. -/
structure SleepsUntil (k : Kernel ε) (id : ThreadId) (tick : Nat) : Prop where
  ahead : k.sched.ticks < tick
  sleeps : ∃ t, k.sched.threads.get? id = some t ∧ t.state = .waiting ∧
    t.waitingFor = some .sleep ∧ t.countdown = .remaining (tick - k.sched.ticks)

/-- The rule that a thread lives on. -/
def survives (id : ThreadId) (k : Kernel ε) (move : Move ε) : Bool :=
  (k.perform move).toOption.all (·.lives id)

/-- The move with which a sleep ends: it processes the tick, and the sleeper is among those whose
waits end with it. -/
structure WakesAt (k k' : Kernel ε) (id : ThreadId) (tick : Nat) : Prop where
  sleeping : k.SleepsUntil id tick
  performed : k.perform .advance = .ok k'
  last : k.sched.ticks + 1 = tick
  ticks : k'.sched.ticks = tick
  strikes : ∃ me sleepers waiters, k.Strikes k' me sleepers waiters ∧ id ∈ sleepers

/-- The clock does not go back. -/
theorem Moved.ticks_le (h : Moved move k k') : k.sched.ticks ≤ k'.sched.ticks := by
  cases h.effect with
  | still hsched _ _ _ _ => rw [hsched]
  | shutdown _ _ _ _ _ hsched _ _ _ => rw [hsched, ticks_foldl_forgetPosition]
  | turn _ _ hturn => exact hturn.ticks ▸ Nat.le_add_right _ _

/-- Whoever waits on as before while no tick is processed sleeps on. -/
theorem SleepsUntil.stays {t u : Thread (Position ε)} (h : k.SleepsUntil id tick)
    (ht : k.sched.threads.get? id = some t) (hu : k'.sched.threads.get? id = some u)
    (hticks : k'.sched.ticks = k.sched.ticks) (hstate : u.state = t.state)
    (hreason : u.waitingFor = t.waitingFor) (hcountdown : u.countdown = t.countdown) :
    k'.SleepsUntil id tick := by
  obtain ⟨hahead, v, hv, hwaiting, hsleep, hcount⟩ := h
  obtain rfl := Option.some.inj (ht.symm.trans hv)
  exact ⟨hticks ▸ hahead, u, hu, hstate.trans hwaiting, hreason.trans hsleep,
    hcountdown.trans (hticks ▸ hcount)⟩

/-- A tick that is not the last one leaves a sleeper one tick less. -/
theorem SleepsUntil.counts {t : Thread (Position ε)} (h : k.SleepsUntil id tick)
    (ht : k.sched.threads.get? id = some t) (hstands : k'.standing id = some t.countedDown)
    (hticks : k'.sched.ticks = k.sched.ticks + 1) (hlast : k.sched.ticks + 1 ≠ tick) :
    k'.SleepsUntil id tick := by
  obtain ⟨hahead, v, hv, hwaiting, hsleep, hcount⟩ := h
  obtain rfl := Option.some.inj (ht.symm.trans hv)
  have hnext : t.countdown.next = .remaining (tick - k'.sched.ticks) := by
    rw [hcount, hticks]
    rfl
  have hgoes : t.countdown.next.expired = false := by
    rw [hnext, hticks]
    simp [Countdown.expired]
    omega
  rw [Thread.countedDown, hgoes, if_neg Bool.false_ne_true] at hstands
  obtain ⟨u, hu, ⟨-, hsame⟩ | ⟨-, rfl⟩⟩ := exists_of_standing hstands
  · have hstate : t.state = .ready := congrArg Thread.state hsame
    cases hwaiting.symm.trans hstate
  · exact ⟨by rw [hticks]; omega, _, hu, hwaiting, hsleep, hnext⟩

/-- The wait of a sleeper runs out with its last tick. -/
theorem SleepsUntil.expires (h : k.SleepsUntil id tick) (hlast : k.sched.ticks + 1 = tick) :
    k.Expires id .sleep := by
  obtain ⟨-, t, ht, hwaiting, hsleep, hcount⟩ := h
  refine ⟨t, ht, hwaiting, hsleep, ?_⟩
  rw [hcount, ← hlast, Nat.add_sub_cancel_left]
  rfl

/-- Whatever others do, a sleeper that lives on sleeps on, unless its last tick comes. -/
theorem SleepsUntil.moved (h : k.SleepsUntil id tick) (hreach : k.Reachable)
    (hallowed : k.allows move = true) (hperform : k.perform move = .ok k')
    (hlives : k'.lives id = true) :
    k'.SleepsUntil id tick ∨ move = .advance ∧ k.WakesAt k' id tick := by
  have ⟨_, t, ht, hwaiting, hsleep, _⟩ := h
  have hsound := hreach.sound
  have htidy := hsound.upright.orderly.tidy ht
  have hmoved := hsound.moved hallowed hperform
  cases hmoved.effect with
  | still hsched _ _ _ _ =>
    exact .inl (h.stays ht (by rw [hsched, ht]) (by rw [hsched]) rfl rfl rfl)
  | shutdown _ _ _ _ _ hsched _ _ _ =>
    obtain ⟨u, hu, -⟩ := lives_iff.mp hlives
    obtain ⟨v, hv, hsame⟩ := exists_of_forgotten hsched hu
    obtain rfl := Option.some.inj (ht.symm.trans hv)
    refine .inl (h.stays ht hu ?_ (congrArg Thread.state hsame).symm
      (congrArg Thread.waitingFor hsame).symm (congrArg Thread.countdown hsame).symm)
    rw [hsched, ticks_foldl_forgetPosition]
  | @turn me ticking events hgoing hcurrent hturn =>
    have hid : id ≠ me := by
      rintro rfl
      rw [hsound.running hcurrent ht] at hwaiting
      cases hwaiting
    obtain ⟨hstanding, t', hstands', halive, hfate⟩ := hturn.other hsound hcurrent hid hlives
    rw [hstanding, ht] at hfate
    have hticks : k'.sched.ticks = k.sched.ticks + ticking.toNat := hturn.ticks
    rcases hfate.of_timed htidy hsleep rfl halive with
      ⟨rfl, rfl⟩ | ⟨rfl, rfl⟩ | ⟨x, hwanted, -, -⟩
    · obtain ⟨u, hu, ⟨-, rfl⟩ | ⟨-, rfl⟩⟩ := exists_of_standing hstands'
      · cases hwaiting
      · exact .inl (h.stays ht hu hticks rfl rfl rfl)
    · have htakes : k.takes move = [.tick] := takes_of_count (by
        rw [hmoved.ticks hgoing] at hticks
        exact (Nat.add_left_cancel hticks).symm ▸ Nat.one_ne_zero)
      obtain ⟨rfl, me, sleepers, waiters, hstrikes⟩ := hreach.strikes hgoing htakes hperform
      by_cases hlast : k.sched.ticks + 1 = tick
      · exact .inr ⟨rfl, h, hperform, hlast, hstrikes.ticks.trans hlast, me, sleepers, waiters,
          hstrikes, hstrikes.mem_sleepers.mpr (h.expires hlast)⟩
      · exact .inl (h.counts ht hstands' hstrikes.ticks hlast)
    · rw [(htidy.waiting_of_wanted hwanted).2] at hsleep
      cases hsleep

/-- In a run the sleep of a thread has ended, with a move that processed a tick. -/
def WokenIn (k₁ : Kernel ε) (moves : List (Move ε)) (k : Kernel ε) (id : ThreadId) (tick : Nat) :
    Prop :=
  ∃ before after k₂ k₃, moves = before ++ .advance :: after ∧ k₁.play before = some k₂ ∧
    k₃.play after = some k ∧ k₂.WakesAt k₃ id tick

/-- Nothing but its last tick ends the sleep of a thread that lives on. -/
theorem SleepsUntil.play (h : k₁.SleepsUntil id tick) (hreach : k₁.Reachable)
    (hplay : k₁.play moves = some k) (hsurvives : k₁.follows (survives id) moves = true) :
    k.SleepsUntil id tick ∨ tick ≤ k.sched.ticks ∧ k₁.WokenIn moves k id tick := by
  refine hreach.sound.play_induction (P := fun moves k => k₁.follows (survives id) moves = true →
    k.SleepsUntil id tick ∨ tick ≤ k.sched.ticks ∧ k₁.WokenIn moves k id tick) hplay
    (fun _ => .inl h) ?_ hsurvives
  intro before move last next hbefore hlast hallowed hperform hnext ih hsurvives
  obtain ⟨hsurvives, hrule⟩ := (follows_concat hbefore hperform).mp hsurvives
  rcases ih hsurvives with hsleeps | ⟨hover, front, after, k₂, k₃, rfl, hfront, hafter, hwakes⟩
  · have hlives : next.lives id = true := by
      rw [survives, hperform] at hrule
      exact hrule
    rcases hsleeps.moved (hreach.play hbefore) hallowed hperform hlives with
      hsleeps | ⟨rfl, hwakes⟩
    · exact .inl hsleeps
    · exact .inr ⟨hwakes.ticks.ge, before, [], last, next, rfl, hbefore, rfl, hwakes⟩
  · have hlater := hover.trans (hlast.moved hallowed hperform).ticks_le
    exact .inr ⟨hlater, front, after ++ [move], k₂, k₃, by simp, hfront,
      play_concat_iff.mpr ⟨last, hafter, hallowed, hperform⟩, hwakes⟩

/-- A thread that has begun to sleep sleeps until a tick, and wakes with it. -/
structure Dozes (k₁ : Kernel ε) (id : ThreadId) (tick : Nat) : Prop where
  /-- Before that tick it sleeps. -/
  sleeps : ∀ {moves k}, k₁.play moves = some k → k₁.follows (survives id) moves = true →
    k.sched.ticks < tick → k.SleepsUntil id tick
  /-- Whenever the tick is over, the thread has woken up with it. -/
  wakes : ∀ {moves k}, k₁.play moves = some k → k₁.follows (survives id) moves = true →
    tick ≤ k.sched.ticks → k₁.WokenIn moves k id tick

theorem SleepsUntil.dozes (h : k₁.SleepsUntil id tick) (hreach : k₁.Reachable) :
    k₁.Dozes id tick where
  sleeps := fun hplay hsurvives hbefore => (h.play hreach hplay hsurvives).resolve_right
    fun hwoken => absurd hbefore (Nat.not_lt.mpr hwoken.1)
  wakes := fun hplay hsurvives hover => ((h.play hreach hplay hsurvives).resolve_left
    fun hsleeps => absurd hsleeps.ahead (Nat.not_lt.mpr hover)).2

/-- A call to sleep. -/
theorem Calling.sleepsUntil (h : k.Calling W me t) (hn : 0 < n)
    (hrun : k.call (.sleep (.ticks n)) = .ok k') : k'.SleepsUntil me (k.sched.ticks + n) := by
  have hnormalized : (Timeout.ticks n).normalized = .ticks n := by
    cases n with
    | zero => cases hn
    | succ n => rfl
  change k.inSection (·.sleep (Timeout.ticks n).normalized) = _ at hrun
  rw [h.inSection_eq, hnormalized, Kernel.sleep, h.serving.me_eq] at hrun
  change k.sched.block me .sleep (.ticks n) >>= _ = _ at hrun
  rw [Scheduler.block_eq h.record] at hrun
  let asleep : Kernel ε := ({ k with
    gate := { inside := true }
    sched := k.sched.suspended me .sleep (.ticks n) } : Kernel ε).emit (.sleep me n)
  have hget := fun j => Scheduler.get?_suspended k.sched me j .sleep (.ticks n)
  have hends : asleep.Ends k' me _ := h.serving.switchNext_ends (m := asleep)
    (h.settled.sched.suspended h.record h.running (by simp) (.ticks n)) rfl
    (fun j hj => (hget j).trans (if_neg hj))
    ((hget me).trans (by rw [if_pos rfl, h.record, Option.map_some])) (by simp) hrun
  have hticks : k'.sched.ticks = k.sched.ticks := hends.ticks
  obtain ⟨u, hu, ⟨-, hsame⟩ | ⟨-, rfl⟩⟩ := exists_of_standing hends.own
  · cases congrArg Thread.state hsame
  · have hstart : Countdown.start (.ticks n) = .remaining n := by
      rw [Countdown.start, hnormalized]
    refine ⟨by omega, _, hu, rfl, rfl, ?_⟩
    rw [hticks, Nat.add_sub_cancel_left]
    exact hstart

/-! ## Every kernel -/

/-- Waits for time last as many ticks as was asked for, and whose waits end with a tick is said by
their countdowns. -/
structure Punctual (k : Kernel ε) : Prop where
  /-- Whoever asks to sleep for some ticks sleeps as many, not less and not more. -/
  sleep : ∀ {me n}, k.stopped = false → k.inProgram = true → k.sched.current = some me → 0 < n →
    ∃ k', k.call (.sleep (.ticks n)) = .ok k' ∧ k'.Dozes me (k.sched.ticks + n)
  tick : k.stopped = false → k.takes .advance = [.tick] →
    ∃ k', k.advance = .ok k' ∧ ∃ me sleepers waiters, k.Strikes k' me sleepers waiters

theorem Reachable.punctual (h : k.Reachable) : k.Punctual where
  sleep := by
    intro me n hgoing hprogram hcurrent hn
    have hallowed := allows_call (.sleep (.ticks n)) hprogram
    obtain ⟨k', hcall, -⟩ := h.sound.perform hallowed
    have hplay : k.play [.call (.sleep (.ticks n))] = some k' :=
      play_cons_iff.mpr ⟨k', hallowed, hcall, rfl⟩
    obtain ⟨me', t, hcalling⟩ := (h.sound.calling (inProgram_iff.mp hprogram)).resolve_left
      fun hhalted => by simp [hhalted.stopped] at hgoing
    obtain rfl := Option.some.inj (hcurrent.symm.trans hcalling.current)
    exact ⟨k', hcall, (hcalling.sleepsUntil hn hcall).dozes (h.play hplay)⟩
  tick := by
    intro hgoing htakes
    have hallowed : k.allows .advance = true := rfl
    obtain ⟨k', hadvance, -⟩ := h.sound.perform hallowed
    exact ⟨k', hadvance, (h.strikes hgoing htakes hadvance).2⟩

/-- Thread 4 waits for a mutex that the main thread holds, and thread 3 is about to sleep. -/
def bedtime : List (Move Unit) :=
  [answered .mutexCreate, answered (.mutexAcquire ⟨1⟩ .infinite),
    answered (.threadCreate () 4096 .high), answered (.threadCreate () 4096 .high),
    answered (.threadCreate () 4096 .high), [.call (.threadActivate ⟨4⟩), .advance, .advance],
    [.call (.mutexAcquire ⟨1⟩ (.ticks 2)), .advance, .advance, .advance],
    [.call (.threadActivate ⟨3⟩), .advance, .advance]].flatten

/-- Thread 5 lies down as well, and two ticks pass. -/
def night : List (Move Unit) :=
  [[.advance, .advance, .advance, .call (.threadActivate ⟨5⟩), .advance, .advance],
    [.call (.sleep (.ticks 2)), .advance, .advance, .advance],
    [.raise .tick, .raise .tick, .call .poll, .advance, .advance]].flatten

/-- With the second tick three waits end: thread 3 gets the processor, thread 5 comes next, then
thread 4, and the main thread is last. -/
theorem Reachable.punctual_bedtime : ∃ k₀ k₁ k₂ : Kernel Unit, afterRun {} {} bedtime = some k₀ ∧
    k₀.Punctual ∧ k₀.call (.sleep (.ticks 2)) = .ok k₁ ∧ k₁.play night = some k₂ ∧
    k₁.WokenIn night k₂ ⟨3⟩ 2 ∧ k₂.sched.current = some ⟨3⟩ ∧
    k₂.sched.ready = { high := [⟨5⟩, ⟨4⟩], normal := [⟨1⟩], idle := [⟨2⟩] } := by
  have hbefore : (afterRun {} {} bedtime).map (fun k : Kernel Unit =>
      (k.stopped, k.inProgram, k.sched.current, k.sched.ticks)) =
        some (false, true, some ⟨3⟩, 0) := by decide +kernel
  have hrule : (afterRun {} {} (bedtime ++ [.call (.sleep (.ticks 2))])).map
      (fun k : Kernel Unit => k.follows (survives ⟨3⟩) night) = some true := by decide +kernel
  have hafter : ((afterRun {} {} (bedtime ++ [.call (.sleep (.ticks 2))])).bind
      fun k : Kernel Unit => (k.play night).map fun k' =>
        (k'.sched.ticks, k'.sched.current, k'.sched.ready)) =
      some (2, some ⟨3⟩, { high := [⟨5⟩, ⟨4⟩], normal := [⟨1⟩], idle := [⟨2⟩] }) := by
    decide +kernel
  obtain ⟨k₀, hk₀, hfacts⟩ := Option.map_eq_some_iff.mp hbefore
  obtain ⟨hgoing, hprogram, hcurrent, hticks⟩ : k₀.stopped = false ∧ k₀.inProgram = true ∧
      k₀.sched.current = some ⟨3⟩ ∧ k₀.sched.ticks = 0 := by simpa using hfacts
  have hpunctual : k₀.Punctual := Reachable.punctual (reachable_of_afterRun hk₀)
  obtain ⟨k₁, hcalled, hdozes⟩ := hpunctual.sleep hgoing hprogram hcurrent Nat.zero_lt_two
  obtain ⟨first, hstart, hplay⟩ := afterRun_eq_some hk₀
  have hk₁ : afterRun {} {} (bedtime ++ [.call (.sleep (.ticks 2))]) = some k₁ := by
    rw [afterRun, hstart]
    exact play_concat_iff.mpr ⟨k₀, hplay, hprogram, hcalled⟩
  rw [hk₁, Option.map_some, Option.some.injEq] at hrule
  rw [hk₁, Option.bind_some] at hafter
  obtain ⟨k₂, hk₂, hfacts⟩ := Option.map_eq_some_iff.mp hafter
  obtain ⟨hticks₂, hcurrent₂, hready⟩ : k₂.sched.ticks = 2 ∧ k₂.sched.current = some ⟨3⟩ ∧
      k₂.sched.ready = _ := by simpa using hfacts
  rw [hticks] at hdozes
  exact ⟨k₀, k₁, k₂, hk₀, hpunctual, hcalled, hk₂, hdozes.wakes hk₂ hrule hticks₂.ge, hcurrent₂,
    hready⟩

end Kernel

end CoopKernel
