import CoopKernel.Proofs.Kernel.Holding

/-!
# Waiting for a mutex

A thread that has blocked on a mutex goes through stages (`Kernel.Stage`) until its call returns.
While it waits, a release may pass the mutex to it, or a tick may find that its time is up, and
whichever comes first decides: after that nothing that others do makes a difference, however long it
takes until the thread runs again. When it does, its call returns at once.

How it returns is said by `Blocked.returns`. It succeeds if the mutex was passed to it in time, and
then the thread owns the mutex until it releases it or dies. It fails if its time ran out, exactly
at the tick at which it had to, and then nobody passes the mutex to it any more. A call without a
time limit does not fail.
-/

namespace CoopKernel

variable {ε : Type}

/-- Whether a move puts an interrupt on the line from outside. -/
def Move.isRaise : Move ε → Bool
  | .raise _ => true
  | _ => false

/-! ## What others do to a waiting thread -/

section

variable {ticking : Bool} {events : List Trace.Event} {id : ThreadId} {x : MutexId}
  {t t' : Thread (Position ε)}

/-- A thread whose wait is timed goes on waiting, is looked at by a tick, or receives the mutex that
it wants. -/
theorem Fate.of_timed (h : Fate ticking events id (some t) (some t')) (htidy : t.Tidy)
    {reason : WaitReason} (hreason : t.waitingFor = some reason) (htimed : reason.timed = true)
    (hlives : t'.state ≠ .dead) :
    ticking = false ∧ t' = t ∨ ticking = true ∧ t' = t.countedDown ∨
      ∃ x, t.wanted = some x ∧ t' = t.receive x ∧ .handoff x id ∈ events := by
  have hstate : t.state = .waiting := htidy.waiting_iff.mpr (by simp [hreason])
  generalize hbefore : some t = before at h
  generalize hafter : some t' = after at h
  cases h with
  | kept hticking => exact .inl ⟨hticking, Option.some.inj (hafter.trans hbefore.symm)⟩
  | chimed hticking =>
    rw [← hbefore, Option.map_some, Thread.chime_of_timed hreason htimed] at hafter
    exact .inr (.inl ⟨hticking, Option.some.inj hafter⟩)
  | created _ => cases hbefore
  | deleted _ _ => cases hafter
  | activated hdead _ =>
    obtain rfl := Option.some.inj hbefore
    rw [hdead] at hstate
    cases hstate
  | buried _ =>
    obtain rfl := Option.some.inj hafter
    exact absurd rfl hlives
  | served hmemory =>
    obtain rfl := Option.some.inj hbefore
    obtain rfl := Option.some.inj (hreason.symm.trans hmemory)
    cases htimed
  | informed hio _ =>
    obtain rfl := Option.some.inj hbefore
    obtain rfl := Option.some.inj (hreason.symm.trans hio)
    cases htimed
  | received hwanted hreported =>
    obtain rfl := Option.some.inj hbefore
    obtain rfl := Option.some.inj hafter
    exact .inr (.inr ⟨_, hwanted, rfl, hreported⟩)

/-- A thread that wants a mutex goes on wanting it, is looked at by a tick, or receives it. -/
theorem Fate.of_wanting (h : Fate ticking events id (some t) (some t')) (htidy : t.Tidy)
    (hwanted : t.wanted = some x) (hlives : t'.state ≠ .dead) :
    ticking = false ∧ t' = t ∨ ticking = true ∧ t' = t.countedDown ∨
      t' = t.receive x ∧ .handoff x id ∈ events := by
  have hreason := (htidy.waiting_of_wanted hwanted).2
  rcases h.of_timed htidy hreason rfl hlives with hkept | hticked | ⟨y, hother, hreceived, hreported⟩
  · exact .inl hkept
  · exact .inr (.inl hticked)
  · obtain rfl := Option.some.inj (hwanted.symm.trans hother)
    exact .inr (.inr ⟨hreceived, hreported⟩)

/-- A thread that is ready stays as it is. -/
theorem Fate.of_ready (h : Fate ticking events id (some t) (some t')) (htidy : t.Tidy)
    (hready : t.state = .ready) (hlives : t'.state ≠ .dead) : t' = t := by
  have hnone : t.waitingFor = none := htidy.waitingFor_eq_none (by simp [hready])
  generalize hbefore : some t = before at h
  generalize hafter : some t' = after at h
  cases h with
  | kept _ => exact Option.some.inj (hafter.trans hbefore.symm)
  | chimed _ =>
    rw [← hbefore, Option.map_some, Thread.chime_of_untimed (by simp [hnone])] at hafter
    exact Option.some.inj hafter
  | created _ => cases hbefore
  | deleted _ _ => cases hafter
  | activated hdead _ =>
    obtain rfl := Option.some.inj hbefore
    rw [hdead] at hready
    cases hready
  | buried _ =>
    obtain rfl := Option.some.inj hafter
    exact absurd rfl hlives
  | served hmemory =>
    obtain rfl := Option.some.inj hbefore
    rw [hnone] at hmemory
    cases hmemory
  | informed hio _ =>
    obtain rfl := Option.some.inj hbefore
    rw [hnone] at hio
    cases hio
  | received hwanted _ =>
    obtain rfl := Option.some.inj hbefore
    rw [htidy.wanted_eq_none (by simp [hready])] at hwanted
    cases hwanted

end

/-! ## What is left of a wait -/

/-- What is left at some tick of a wait that has begun at an earlier one and is not over. -/
inductive Remaining (timeout : Timeout) (begun now : Nat) : Countdown → Prop
  | unlimited (hinfinite : timeout = .infinite) : Remaining timeout begun now .unlimited
  | ticks {count : Nat} (hcount : timeout = .ticks count) (hbefore : now < begun + count) :
    Remaining timeout begun now (.remaining (begun + count - now))

theorem Remaining.start {timeout : Timeout} (h : timeout.normalized ≠ .immediate) (now : Nat) :
    Remaining timeout now now (.start timeout.normalized) := by
  cases timeout with
  | immediate => exact absurd rfl h
  | infinite => exact .unlimited rfl
  | ticks count =>
    cases count with
    | zero => exact absurd rfl h
    | succ count =>
      have hleft : Remaining (.ticks (count + 1)) now now
          (.remaining (now + (count + 1) - now)) := .ticks rfl (by omega)
      rw [Nat.add_sub_cancel_left] at hleft
      exact hleft

theorem Remaining.lt {timeout : Timeout} {begun now count : Nat} {countdown : Countdown}
    (h : Remaining timeout begun now countdown) (hcount : timeout = .ticks count) :
    now < begun + count := by
  cases h with
  | unlimited hinfinite =>
    rw [hinfinite] at hcount
    cases hcount
  | ticks hother hbefore =>
    rw [hother] at hcount
    cases hcount
    exact hbefore

/-- One tick later the wait goes on, or it was the last tick. -/
theorem Remaining.next {timeout : Timeout} {begun now : Nat} {countdown : Countdown}
    (h : Remaining timeout begun now countdown) :
    countdown.next.expired = false ∧ Remaining timeout begun (now + 1) countdown.next ∨
      countdown.next.expired = true ∧
        ∃ count, timeout = .ticks count ∧ now + 1 = begun + count := by
  cases h with
  | unlimited hinfinite => exact .inl ⟨rfl, .unlimited hinfinite⟩
  | @ticks count hcount hbefore =>
    by_cases hlast : now + 1 = begun + count
    · refine .inr ⟨?_, count, hcount, hlast⟩
      have hzero : begun + count - now - 1 = 0 := by omega
      simp [Countdown.next, Countdown.expired, hzero]
    · have hleft : Remaining timeout begun (now + 1) (.remaining (begun + count - (now + 1))) :=
        .ticks hcount (by omega)
      have hsub : begun + count - (now + 1) = begun + count - now - 1 := by omega
      rw [hsub] at hleft
      have hpositive : begun + count - now - 1 ≠ 0 := by omega
      exact .inl ⟨by simpa [Countdown.next, Countdown.expired] using hpositive, hleft⟩

namespace Kernel

variable {W W' : PoolId → Prop} {k k' k₁ : Kernel ε} {move : Move ε} {moves : List (Move ε)}
  {id me : ThreadId} {x : MutexId} {timeout : Timeout} {ticking : Bool} {events : List Trace.Event}

/-! ## Stages -/

/-- The wait of a thread for a mutex ran out in a run, at some tick: with this tick the thread
became ready, and it has no part in what happens to the mutex until it asks for it again. -/
def RunsOut (k₁ : Kernel ε) (moves : List (Move ε)) (id : ThreadId) (x : MutexId) (tick : Nat) :
    Prop :=
  ∃ before move after k k', moves = before ++ move :: after ∧ k₁.play before = some k ∧
    k.perform move = .ok k' ∧ k.sched.ticks + 1 = tick ∧ k'.sched.ticks = tick ∧
    (∃ t, k.sched.threads.get? id = some t ∧ t.state = .waiting ∧ t.wanted = some x) ∧
    (∃ t, k'.sched.threads.get? id = some t ∧ (t.state = .ready ∨ t.state = .running)) ∧
    ∀ later k₂, k'.play later = some k₂ → k'.follows (leaves id x) later = true →
      (∀ mutex, k₂.sched.mutexes.get? x = some mutex → id ∉ mutex.waiterIds) ∧
        passedSince k' k₂ x id = []

/-- How far a thread has come that blocked on a mutex, after some moves. -/
inductive Stage (k₁ : Kernel ε) (id : ThreadId) (x : MutexId) (timeout : Timeout)
    (moves : List (Move ε)) (k : Kernel ε) : Prop
  | waits {t : Thread (Position ε)} (hgoing : k.stopped = false) (hstands : k.standing id = some t)
    (hposition : t.position = some (.inside (.acquire x id))) (hwanted : t.wanted = some x)
    (hleft : Remaining timeout k₁.sched.ticks k.sched.ticks t.countdown)
    (hpassed : passedSince k₁ k x id = [])
  /-- The mutex was passed to it in time. -/
  | granted {t : Thread (Position ε)} {tick : Nat} (hgoing : k.stopped = false)
    (hstands : k.standing id = some t) (hposition : t.position = some (.inside (.acquire x id)))
    (hready : t.state = .ready) (hheld : x ∈ t.held) (hpassed : tick ∈ passedSince k₁ k x id)
    (hintime : ∀ count, timeout = .ticks count → tick < k₁.sched.ticks + count)
  /-- Its time has run out. -/
  | failed {t : Thread (Position ε)} {count : Nat} (hgoing : k.stopped = false)
    (hstands : k.standing id = some t) (hposition : t.position = some (.inside (.acquire x id)))
    (hready : t.state = .ready) (hheld : x ∉ t.held) (hpassed : passedSince k₁ k x id = [])
    (htimeout : timeout = .ticks count)
    (hout : RunsOut k₁ moves id x (k₁.sched.ticks + count))
  /-- The kernel was shut down meanwhile. -/
  | ended (hstopped : k.stopped = true) (hcurrent : k.sched.current ≠ some id)

theorem RunsOut.append {tick : Nat} (h : RunsOut k₁ moves id x tick) (move : Move ε) :
    RunsOut k₁ (moves ++ [move]) id x tick := by
  obtain ⟨before, last, after, k, k', rfl, h⟩ := h
  exact ⟨before, last, after ++ [move], k, k', by simp, h⟩

/-- Nothing that leaves the thread alone changes the stage. -/
theorem Stage.still (h : Stage k₁ id x timeout moves k) (move : Move ε)
    (hstanding : k'.standing id = k.standing id) (hstopped : k'.stopped = k.stopped)
    (hcurrent : k'.sched.current = k.sched.current) (hticks : k'.sched.ticks = k.sched.ticks)
    (hjournal : k'.journal = k.journal) : Stage k₁ id x timeout (moves ++ [move]) k' := by
  have hsame : passedSince k₁ k' x id = passedSince k₁ k x id := by
    rw [passedSince, passedSince, hjournal]
  cases h with
  | waits hgoing hstands hposition hwanted hleft hpassed =>
    exact .waits (hstopped.trans hgoing) (hstanding.trans hstands) hposition hwanted
      (hticks ▸ hleft) (hsame.trans hpassed)
  | granted hgoing hstands hposition hready hheld hpassed hintime =>
    exact .granted (hstopped.trans hgoing) (hstanding.trans hstands) hposition hready hheld
      (hsame ▸ hpassed) hintime
  | failed hgoing hstands hposition hready hheld hpassed htimeout hout =>
    exact .failed (hstopped.trans hgoing) (hstanding.trans hstands) hposition hready hheld
      (hsame.trans hpassed) htimeout (hout.append move)
  | ended hover hnot => exact .ended (hstopped.trans hover) (hcurrent ▸ hnot)

/-- What a turn adds to what has been passed on. -/
theorem Turn.passedSince (h : Turn move ticking { k with line := k'.line } k' me events)
    (hbefore : k₁.journal <+: k.journal) (x : MutexId) (id : ThreadId) :
    passedSince k₁ k' x id = passedSince k₁ k x id ++
      (events.filter fun event => event = .handoff x id).map fun _ => k'.sched.ticks := by
  obtain ⟨tail, htail, hjournal⟩ := h.journal
  have hsilent : tail.filter (fun event => event = .handoff x id) = [] := by
    rw [List.filter_eq_nil_iff]
    intro event hmem hevent
    have hdispatch := htail event hmem
    rw [of_decide_eq_true hevent] at hdispatch
    cases hdispatch
  rw [passedSince_of_append hbefore hjournal, passed, List.filter_map, List.map_map]
  have hfilter : (events ++ tail).filter ((fun stamped : Trace.Stamped =>
      decide (stamped.event = .handoff x id)) ∘ fun event => { event, tick := k'.sched.ticks }) =
        events.filter fun event => event = .handoff x id := by
    show (events ++ tail).filter (fun event => event = .handoff x id) = _
    rw [List.filter_append, hsilent, List.append_nil]
  rw [hfilter]
  rfl

/-- A turn in which the mutex is not passed to the thread. -/
theorem Turn.passedSince_of_not_mem (h : Turn move ticking { k with line := k'.line } k' me events)
    (hbefore : k₁.journal <+: k.journal) (hnot : .handoff x id ∉ events) :
    Kernel.passedSince k₁ k' x id = Kernel.passedSince k₁ k x id := by
  have hnone : events.filter (fun event => event = .handoff x id) = [] := by
    rw [List.filter_eq_nil_iff]
    intro event hmem hevent
    exact hnot (of_decide_eq_true hevent ▸ hmem)
  rw [h.passedSince hbefore, hnone, List.map_nil, List.append_nil]

/-- A thread whose wait is over does not get the mutex any more until it asks for it again. -/
theorem Sound.left_alone (h : k.Sound W) (hnot : ¬ k.Wants id x) {later : List (Move ε)}
    (hplay : k.play later = some k') (hleaves : k.follows (leaves id x) later = true) :
    (∀ mutex, k'.sched.mutexes.get? x = some mutex → id ∉ mutex.waiterIds) ∧
      Kernel.passedSince k k' x id = [] := by
  obtain ⟨hnot', hpassed⟩ := h.unwanted hplay hleaves hnot
  refine ⟨fun mutex hmutex hmem => hnot' ?_, hpassed⟩
  exact ((h.play hplay).upright.orderly.mem_waiterIds hmutex).mp hmem

/-- A tick comes to a thread that waits. -/
theorem Stage.tick {t : Thread (Position ε)} (hsound : k.Sound W) (hsound' : k'.Sound W')
    (hplay : k₁.play moves = some k) (hperform : k.perform move = .ok k')
    (hgoing : k'.stopped = false) (hticks : k'.sched.ticks = k.sched.ticks + 1)
    (hrecord : k.sched.threads.get? id = some t) (hstands : k'.standing id = some t.countedDown)
    (hposition : t.position = some (.inside (.acquire x id))) (hwanted : t.wanted = some x)
    (hleft : Remaining timeout k₁.sched.ticks k.sched.ticks t.countdown)
    (hpassed : Kernel.passedSince k₁ k' x id = []) :
    Stage k₁ id x timeout (moves ++ [move]) k' := by
  rcases hleft.next with ⟨hgoes, hleft⟩ | ⟨hexpired, count, htimeout, hlast⟩
  · -- It is not the last one.
    rw [Thread.countedDown, hgoes, if_neg Bool.false_ne_true] at hstands
    exact .waits hgoing hstands hposition hwanted (hticks ▸ hleft) hpassed
  · -- The mutex belongs to somebody else, and the thread stops waiting.
    rw [Thread.countedDown, hexpired, if_pos rfl] at hstands
    obtain ⟨mutex, owner, hmutex, howner, hne⟩ :=
      hsound.upright.orderly.owned.wanted_owned hrecord hwanted
    have hheld : x ∉ t.held := by
      intro hmem
      obtain ⟨other, hother, hmine⟩ :=
        (hsound.upright.orderly.owned.owner_iff x id).mpr ⟨t, hrecord, hmem⟩
      obtain rfl := Option.some.inj (hmutex.symm.trans hother)
      exact hne (Option.some.inj (howner.symm.trans hmine))
    obtain ⟨u, hu, hshape⟩ := exists_of_standing hstands
    have hnot : ¬ k'.Wants id x := by
      rintro ⟨v, hv, hwants⟩
      obtain rfl := Option.some.inj (hu.symm.trans hv)
      obtain ⟨w, hw, -, hsame, -⟩ := exists_standing hu
      obtain rfl := Option.some.inj (hstands.symm.trans hw)
      rw [hwants] at hsame
      cases hsame
    refine .failed hgoing hstands hposition rfl hheld hpassed htimeout ?_
    refine ⟨moves, move, [], k, k', rfl, hplay, hperform, hlast, hticks.trans hlast,
      ⟨t, hrecord, ?_, hwanted⟩, ⟨u, hu, ?_⟩, fun later k₂ => hsound'.left_alone hnot⟩
    · exact ((hsound.upright.orderly.tidy hrecord).waiting_of_wanted hwanted).1
    · rcases hshape with ⟨hrunning, -⟩ | ⟨-, rfl⟩
      · exact .inr hrunning
      · exact .inl rfl

/-- A thread that lives through somebody else's turn stands somewhere before and after it. -/
theorem Turn.other (h : Turn move ticking { k with line := k'.line } k' me events)
    (hsound : k.Sound W) (hcurrent : k.sched.current = some me) (hid : id ≠ me)
    (hlives : k'.lives id = true) :
    k.standing id = k.sched.threads.get? id ∧ ∃ t', k'.standing id = some t' ∧ t'.state ≠ .dead ∧
      Fate ticking events id (k.standing id) (some t') := by
  have hstanding : k.standing id = k.sched.threads.get? id := by
    refine standing_eq fun u hu hrunning => hid ?_
    exact Option.some.inj
      ((hsound.upright.orderly.running hu hrunning).symm.trans hcurrent)
  obtain ⟨v, hv, halive⟩ := lives_iff.mp hlives
  obtain ⟨t', hstands', -, -, hdead⟩ := exists_standing hv
  have hfate := h.others id hid
  rw [hstands'] at hfate
  exact ⟨hstanding, t', hstands', fun h => halive (hdead.mp h), hstanding.symm ▸ hfate⟩

/-- A thread that is ready wants nothing, so nothing is passed to it. -/
theorem Turn.other_ready {t t' : Thread (Position ε)}
    (h : Turn move ticking { k with line := k'.line } k' me events) (hsound : k.Sound W)
    (hbefore : k₁.journal <+: k.journal) (hrecord : k.sched.threads.get? id = some t)
    (hready : t.state = .ready) (hfate : Fate ticking events id (some t) (some t'))
    (halive : t'.state ≠ .dead) :
    t' = t ∧ Kernel.passedSince k₁ k' x id = Kernel.passedSince k₁ k x id := by
  have htidy := hsound.upright.orderly.tidy hrecord
  refine ⟨hfate.of_ready htidy hready halive, h.passedSince_of_not_mem hbefore fun hmem => ?_⟩
  obtain ⟨-, u, hu, hwanted, -⟩ := h.handoffs hmem
  obtain rfl := Option.some.inj (hrecord.symm.trans hu)
  rw [htidy.wanted_eq_none (by simp [hready])] at hwanted
  cases hwanted

/-- Somebody else's turn comes to a thread that waits. -/
theorem Stage.turn_waiting {t t' : Thread (Position ε)} (hsound : k.Sound W) (hsound' : k'.Sound W')
    (hplay : k₁.play moves = some k) (hperform : k.perform move = .ok k')
    (hbefore : k₁.journal <+: k.journal)
    (hturn : Turn move ticking { k with line := k'.line } k' me events)
    (hgoing : k'.stopped = false) (hrecord : k.sched.threads.get? id = some t)
    (hposition : t.position = some (.inside (.acquire x id))) (hwanted : t.wanted = some x)
    (hleft : Remaining timeout k₁.sched.ticks k.sched.ticks t.countdown)
    (hpassed : Kernel.passedSince k₁ k x id = []) (hstands : k'.standing id = some t')
    (halive : t'.state ≠ .dead) (hfate : Fate ticking events id (some t) (some t')) :
    Stage k₁ id x timeout (moves ++ [move]) k' := by
  have htidy := hsound.upright.orderly.tidy hrecord
  have hticks : k'.sched.ticks = k.sched.ticks + ticking.toNat := hturn.ticks
  rcases hfate.of_wanting htidy hwanted halive with
    ⟨hticking, rfl⟩ | ⟨hticking, rfl⟩ | ⟨rfl, hreported⟩
  · -- It goes on waiting, so it cannot have received the mutex.
    have hnot : .handoff x id ∉ events := fun hmem => by
      obtain ⟨-, u, -, -, hreceived⟩ := hturn.handoffs hmem
      obtain rfl := Option.some.inj (hstands.symm.trans hreceived)
      cases (htidy.waiting_of_wanted hwanted).1
    rw [hticking] at hticks
    exact .waits hgoing hstands hposition hwanted (hticks ▸ hleft)
      ((hturn.passedSince_of_not_mem hbefore hnot).trans hpassed)
  · -- A tick passes no mutexes on.
    have hnot : .handoff x id ∉ events := fun hmem => by
      have hquiet := (hturn.handoffs hmem).1
      rw [hticking] at hquiet
      cases hquiet
    rw [hticking] at hticks
    exact Stage.tick hsound hsound' hplay hperform hgoing hticks hrecord hstands hposition hwanted
      hleft ((hturn.passedSince_of_not_mem hbefore hnot).trans hpassed)
  · -- It receives the mutex at a tick at which it was still waiting.
    have hsame : k'.sched.ticks = k.sched.ticks := by
      rw [hticks, (hturn.handoffs hreported).1]
      rfl
    have hmem : k'.sched.ticks ∈ Kernel.passedSince k₁ k' x id := by
      rw [hturn.passedSince hbefore]
      refine List.mem_append_right _ (List.mem_map.mpr ⟨.handoff x id, ?_, rfl⟩)
      exact List.mem_filter.mpr ⟨hreported, decide_eq_true rfl⟩
    exact .granted hgoing hstands hposition rfl ((Thread.mem_held_hold t x x).mpr (.inl rfl)) hmem
      fun count hcount => hsame ▸ hleft.lt hcount

/-- Somebody else has a turn. -/
theorem Stage.turn (h : Stage k₁ id x timeout moves k) (hsound : k.Sound W) (hsound' : k'.Sound W')
    (hplay : k₁.play moves = some k) (hperform : k.perform move = .ok k')
    (hbefore : k₁.journal <+: k.journal) (hgoing : k.stopped = false)
    (hcurrent : k.sched.current = some me) (hid : id ≠ me) (hlives : k'.lives id = true)
    (hturn : Turn move ticking { k with line := k'.line } k' me events) :
    Stage k₁ id x timeout (moves ++ [move]) k' := by
  have hgoing' : k'.stopped = false := hturn.stopped.trans hgoing
  obtain ⟨hstanding, t', hstands', halive, hfate⟩ := hturn.other hsound hcurrent hid hlives
  cases h with
  | ended hover _ =>
    rw [hgoing] at hover
    cases hover
  | granted _ hstands hposition hready hheld hpassed hintime =>
    obtain ⟨rfl, hsame⟩ := hturn.other_ready hsound hbefore (hstanding.symm.trans hstands) hready
      (hstands ▸ hfate) halive
    exact .granted hgoing' hstands' hposition hready hheld (hsame ▸ hpassed) hintime
  | failed _ hstands hposition hready hheld hpassed htimeout hout =>
    obtain ⟨rfl, hsame⟩ := hturn.other_ready hsound hbefore (hstanding.symm.trans hstands) hready
      (hstands ▸ hfate) halive
    exact .failed hgoing' hstands' hposition hready hheld (hsame.trans hpassed) htimeout
      (hout.append move)
  | waits _ hstands hposition hwanted hleft hpassed =>
    exact .turn_waiting hsound hsound' hplay hperform hbefore hturn hgoing'
      (hstanding.symm.trans hstands) hposition hwanted hleft hpassed hstands' halive
      (hstands ▸ hfate)

/-- The rule that a thread lives and does not go on by itself. -/
def suspends (id : ThreadId) (k : Kernel ε) (move : Move ε) : Bool :=
  (k.sched.current != some id || move.isRaise) && (k.perform move).toOption.all (·.lives id)

theorem Stage.moved (h : Stage k₁ id x timeout moves k) (hsound : k.Sound W) (hsound' : k'.Sound W')
    (hplay : k₁.play moves = some k) (hallowed : k.allows move = true)
    (hperform : k.perform move = .ok k') (hbefore : k₁.journal <+: k.journal)
    (hrule : suspends id k move = true) : Stage k₁ id x timeout (moves ++ [move]) k' := by
  rw [suspends, hperform, Bool.and_eq_true, Bool.or_eq_true, bne_iff_ne] at hrule
  obtain ⟨hstill | hraise, hlives⟩ := hrule
  · have hnot := hsound.not_running hstill
    cases (hsound.moved hallowed hperform).effect with
    | still hsched _ hstopped hjournal _ =>
      refine h.still move ?_ hstopped (by rw [hsched]) (by rw [hsched]) hjournal
      rw [standing_eq hnot, standing_eq (hsched.symm ▸ hnot), hsched]
    | shutdown _ _ hstopped _ _ hsched _ _ _ =>
      refine .ended hstopped ?_
      rw [hsched, current_foldl_forgetPosition]
      exact hstill
    | @turn me _ _ hgoing hcurrent hturn =>
      have hid : id ≠ me := by
        rintro rfl
        exact hstill hcurrent
      exact h.turn hsound hsound' hplay hperform hbefore hgoing hcurrent hid hlives hturn
  · cases move with
    | raise interrupt =>
      obtain rfl := Except.ok.inj hperform
      exact h.still _ rfl rfl rfl rfl rfl
    | _ => cases hraise

theorem Stage.run (h : Stage k₁ id x timeout [] k₁) (hsound : k₁.Sound W)
    (hplay : k₁.play moves = some k) (hsuspends : k₁.follows (suspends id) moves = true) :
    Stage k₁ id x timeout moves k := by
  refine hsound.play_induction (P := fun moves k => k₁.follows (suspends id) moves = true →
    Stage k₁ id x timeout moves k) hplay (fun _ => h) ?_ hsuspends
  intro before move last next hbefore hlast hallowed hperform hnext ih hsuspends
  obtain ⟨hsuspends, hrule⟩ := (follows_concat hbefore hperform).mp hsuspends
  exact (ih hsuspends).moved hlast hnext hbefore hallowed hperform (hsound.journal_prefix hbefore)
    hrule

/-! ## The call -/

/-- A thread has called for a mutex, has found it taken, and waits for it. -/
structure Blocked (k₀ k₁ : Kernel ε) (id : ThreadId) (x : MutexId) (timeout : Timeout) :
    Prop where
  reachable : k₀.Reachable
  program : k₀.inProgram = true
  current : k₀.sched.current = some id
  called : k₀.call (.mutexAcquire x timeout) = .ok k₁
  waiting : ∃ t, k₁.sched.threads.get? id = some t ∧ t.state = .waiting ∧ t.wanted = some x

variable {k₀ k₂ : Kernel ε} {during : List (Move ε)}

theorem Blocked.sound (h : k₀.Blocked k₁ id x timeout) : k₁.Sound fun _ => False :=
  h.reachable.sound.performed (allows_call (.mutexAcquire x timeout) h.program) h.called

theorem Blocked.stage (h : k₀.Blocked k₁ id x timeout) : Stage k₁ id x timeout [] k₁ := by
  have hsound := h.reachable.sound
  obtain ⟨u, hu, hwaiting, hwanted⟩ := h.waiting
  have hstands : k₁.standing id = some u := by
    rw [standing_eq, hu]
    intro v hv
    obtain rfl := Option.some.inj (hu.symm.trans hv)
    simp [hwaiting]
  -- The thread was running before, so that it did not want the mutex yet.
  have hnot : ¬ k₀.Wants id x := by
    rintro ⟨t, ht, hwants⟩
    have hrunning := hsound.running h.current ht
    rw [(hsound.upright.orderly.tidy ht).wanted_eq_none (by simp [hrunning])] at hwants
    cases hwants
  have hallowed : k₀.allows (.call (.mutexAcquire x timeout)) = true := h.program
  cases (hsound.moved hallowed h.called).effect with
  | still hsched _ _ _ _ => exact absurd ⟨u, hsched ▸ hu, hwanted⟩ hnot
  | shutdown _ _ _ _ _ hsched _ _ _ =>
    obtain ⟨t, ht, hsame⟩ := exists_of_forgotten hsched hu
    have hwants := congrArg Thread.wanted hsame
    exact absurd ⟨t, ht, hwants.trans hwanted⟩ hnot
  | @turn me ticking events hgoing hcurrent hturn =>
    obtain rfl := Option.some.inj (h.current.symm.trans hcurrent)
    obtain ⟨t, t', ht, ht', hown⟩ := hturn.own
    obtain rfl := Option.some.inj (hstands.symm.trans ht')
    cases hown with
    | queued hmove hwaits =>
      cases hmove
      exact .waits (hturn.stopped.trans hgoing) hstands rfl rfl (.start hwaits _)
        (passedSince_self ..)
    | died _ _ => cases hwaiting
    | _ => exact absurd ⟨t, ht, hwanted⟩ hnot

/-! ## The return -/

/-- How a call for a mutex returns that has waited for it. -/
structure Returns (k₁ k₂ : Kernel ε) (during : List (Move ε)) (id : ThreadId) (x : MutexId)
    (timeout : Timeout) (k₃ : Kernel ε) (answer : Answer) : Prop where
  /-- It returns at the first step of its thread. -/
  step : k₂.advance = .ok k₃
  current : k₃.sched.current = some id
  /-- The section has been left, and the answer is on its way. -/
  outside : k₃.gate.inside = false
  answers : k₃.activity = .delivering (.reply answer)
  outcome : answer = .ok .done ∨ answer = .error .failure
  /-- Success means that the thread owns the mutex, and goes on owning it until it releases it or
  dies. -/
  owns : answer = .ok .done → k₃.Owns id x ∧ ∀ later k₄, k₃.play later = some k₄ →
    k₃.follows (keeps id x) later = true → k₄.Owns id x
  /-- Without a time limit there is no failure. -/
  endless : timeout = .infinite → answer ≠ .error .failure
  /-- With one, failure means that the mutex was not passed to the thread in time. -/
  late : ∀ count, timeout = .ticks count → (answer = .error .failure ↔
    ∀ tick ∈ passedSince k₁ k₂ x id, ¬ tick < k₁.sched.ticks + count)
  /-- Then the wait ended with the last tick that it had. -/
  expired : ∀ count, timeout = .ticks count → answer = .error .failure →
    RunsOut k₁ during id x (k₁.sched.ticks + count)

/-- As long as the kernel is not shut down, whoever has the processor runs in it. -/
theorem Sound.runs (h : k.Sound W) (hgoing : k.stopped = false)
    (hcurrent : k.sched.current = some id) : ∃ W' t, k.Runs W' id t := by
  rcases h with hhalted | ⟨me, t, hruns, -, -⟩
  · simp [hhalted.stopped] at hgoing
  · obtain rfl := Option.some.inj (hcurrent.symm.trans hruns.current)
    exact ⟨_, t, hruns⟩

/-- A thread with the processor stands where the kernel is, and wants nothing. -/
theorem Sound.standing_current {t : Thread (Position ε)} (h : k.Sound W)
    (hgoing : k.stopped = false) (hcurrent : k.sched.current = some id)
    (hstands : k.standing id = some t) :
    ∃ W' u, k.Runs W' id u ∧ u.wanted = none ∧ t.wanted = none ∧ t.held = u.held ∧
      t.position = k.activity.position? := by
  obtain ⟨_, u, hruns⟩ := h.runs hgoing hcurrent
  rw [standing_of_running hruns.record hruns.running] at hstands
  obtain rfl := Option.some.inj hstands
  have hnone : u.wanted = none :=
    (hruns.settled.sched.tidy hruns.record).wanted_eq_none (by simp [hruns.running])
  exact ⟨_, u, hruns, hnone, hnone, rfl, rfl⟩

/-- The first step of a thread that has waited for a mutex is to see whether it holds it now. -/
theorem Sound.advance_acquire {t : Thread (Position ε)} (h : k.Sound W)
    (hgoing : k.stopped = false) (hcurrent : k.sched.current = some id)
    (hstands : k.standing id = some t) (hposition : t.position = some (.inside (.acquire x id))) :
    ∃ k', k.advance = .ok k' ∧ k'.sched = k.sched ∧ k'.gate.inside = false ∧
      (x ∈ t.held ∧ k'.activity = .delivering (.reply (.ok .done)) ∨
        x ∉ t.held ∧ k'.activity = .delivering (.reply (.error .failure))) := by
  obtain ⟨_, u, hruns, hnone, -, hheld, hhere⟩ := h.standing_current hgoing hcurrent hstands
  have hactivity : k.activity = .resuming (.acquire x id) :=
    Activity.eq_resuming (hhere.symm.trans hposition)
  have hadvance : k.advance =
      if (k.sched.mutexes.get? x).any fun mutex => mutex.owner == some id then
        .ok ((k.emit (.acquire x id)).reply (.ok .done))
      else .ok ((k.emit (.timeout x id)).refuse .failure) := by
    rw [Kernel.advance, hactivity]
    show k.finishAcquire x id = _
    rw [Kernel.finishAcquire, hruns.settled.sched.finishMutexWait_eq hruns.record hnone x]
    rfl
  have howns : (k.sched.mutexes.get? x).any (fun mutex => mutex.owner == some id) = true ↔
      x ∈ t.held := by
    have howner := hruns.settled.sched.owned.owner_iff x id
    rw [Option.any_eq_true, hheld]
    simpa [hruns.record] using howner
  rw [hadvance]
  by_cases hmem : x ∈ t.held
  · rw [if_pos (howns.mpr hmem)]
    exact ⟨_, rfl, rfl, rfl, .inl ⟨hmem, rfl⟩⟩
  · rw [if_neg (mt howns.mp hmem)]
    exact ⟨_, rfl, rfl, rfl, .inr ⟨hmem, rfl⟩⟩

/-- A thread that has blocked on a mutex returns as soon as it runs again: it has got the mutex, or
its time has run out, whichever came first. -/
theorem Blocked.returns (h : k₀.Blocked k₁ id x timeout) (hduring : k₁.play during = some k₂)
    (hsuspends : k₁.follows (suspends id) during = true) (hcurrent : k₂.sched.current = some id) :
    ∃ k₃ answer, Returns k₁ k₂ during id x timeout k₃ answer := by
  have hsound := h.sound.play hduring
  cases h.stage.run h.sound hduring hsuspends with
  | ended _ hnot => exact absurd hcurrent hnot
  | waits hgoing hstands _ hwanted _ _ =>
    -- A thread that has the processor does not wait any more.
    obtain ⟨_, _, -, -, hnone, -⟩ := hsound.standing_current hgoing hcurrent hstands
    rw [hnone] at hwanted
    cases hwanted
  | granted hgoing hstands hposition _ hheld hpassed hintime =>
    obtain ⟨k₃, hstep, hsched, houtside, ⟨-, hanswers⟩ | ⟨hnot, -⟩⟩ :=
      hsound.advance_acquire hgoing hcurrent hstands hposition
    · have hsucceeds : (.ok .done : Answer) ≠ .error .failure := by simp
      obtain ⟨_, heq, hsound₃⟩ := hsound.advance
      obtain rfl := Except.ok.inj (hstep.symm.trans heq)
      have howns : k₃.Owns id x := by
        obtain ⟨_, u, hruns, -, -, hsame, -⟩ := hsound.standing_current hgoing hcurrent hstands
        rw [hsound₃.owns_iff]
        exact ⟨u, hsched ▸ hruns.record, hsame ▸ hheld⟩
      refine ⟨k₃, .ok .done, hstep, hsched ▸ hcurrent, houtside, hanswers, .inl rfl, fun _ =>
        ⟨howns, fun later k₄ hlater hkeeps => hsound₃.owns hlater hkeeps howns⟩,
        fun _ => hsucceeds, fun count hcount => ⟨fun h => absurd h hsucceeds, fun hlate => ?_⟩,
        fun _ _ h => absurd h hsucceeds⟩
      exact absurd (hintime count hcount) (hlate _ hpassed)
    · exact absurd hheld hnot
  | @failed t count hgoing hstands hposition _ hheld hpassed htimeout hout =>
    obtain ⟨k₃, hstep, hsched, houtside, ⟨hmem, -⟩ | ⟨-, hanswers⟩⟩ :=
      hsound.advance_acquire hgoing hcurrent hstands hposition
    · exact absurd hmem hheld
    · refine ⟨k₃, .error .failure, hstep, hsched ▸ hcurrent, houtside, hanswers, .inr rfl,
        fun h => absurd h (by simp), fun hendless => ?_,
        fun other _ => ⟨fun _ => ?_, fun _ => rfl⟩, fun other hother _ => ?_⟩
      · rw [hendless] at htimeout
        cases htimeout
      · simp [hpassed]
      · obtain rfl := Timeout.ticks.inj (htimeout.symm.trans hother)
        exact hout

/-- A run that ends with a thread of high priority in its program, while the main thread owns a
mutex. -/
def rivalry : List (Move Unit) :=
  answered .mutexCreate ++ answered (.mutexAcquire ⟨1⟩ .infinite) ++
    answered (.threadCreate () 4096 .high) ++ [.call (.threadActivate ⟨3⟩), .advance, .advance]

/-- Two ticks arrive, and the main thread delivers them. -/
def twoTicks : List (Move Unit) :=
  [.raise .tick, .raise .tick, .advance, .advance, .advance]

theorem Blocked.returns_rivalry :
    ∃ k₀ k₁ k₂ : Kernel Unit, afterRun {} {} rivalry = some k₀ ∧
      k₀.Blocked k₁ ⟨3⟩ ⟨1⟩ (.ticks 2) ∧ k₁.play twoTicks = some k₂ ∧
      k₁.follows (suspends ⟨3⟩) twoTicks = true ∧ k₂.sched.current = some ⟨3⟩ ∧
      ∃ k₃, Returns k₁ k₂ twoTicks ⟨3⟩ ⟨1⟩ (.ticks 2) k₃ (.error .failure) := by
  have hblocks : (afterRun {} {} (rivalry ++ [.call (.mutexAcquire ⟨1⟩ (.ticks 2))])).map
      (fun k : Kernel Unit => ((k.sched.threads.get? ⟨3⟩).map fun t => (t.state, t.wanted),
        k.follows (suspends ⟨3⟩) twoTicks)) = some (some (.waiting, some ⟨1⟩), true) := by
    decide +kernel
  obtain ⟨k₁, hk₁, hfacts⟩ := Option.map_eq_some_iff.mp hblocks
  obtain ⟨hrecord, hsuspends⟩ := Prod.mk.inj hfacts
  obtain ⟨t, ht, hstate⟩ := Option.map_eq_some_iff.mp hrecord
  obtain ⟨hstate, hwanted⟩ := Prod.mk.inj hstate
  obtain ⟨first, hstart, hplay⟩ := afterRun_eq_some hk₁
  obtain ⟨k₀, hbefore, hprogram, hcalled⟩ := play_concat_iff.mp hplay
  have hk₀ : afterRun {} {} rivalry = some k₀ := by
    rw [afterRun, hstart]
    exact hbefore
  have hcurrent : (afterRun {} {} rivalry).map (fun k : Kernel Unit => k.sched.current) =
      some (some ⟨3⟩) := by decide +kernel
  rw [hk₀] at hcurrent
  have hblocked : k₀.Blocked k₁ ⟨3⟩ ⟨1⟩ (.ticks 2) :=
    ⟨reachable_of_afterRun hk₀, hprogram, Option.some.inj hcurrent, hcalled, t, ht, hstate, hwanted⟩
  -- Nobody passes the mutex on meanwhile.
  have hduring : ((afterRun {} {} (rivalry ++ [.call (.mutexAcquire ⟨1⟩ (.ticks 2))])).bind
      fun k : Kernel Unit => (k.play twoTicks).map fun k' =>
        (k'.sched.current, passedSince k k' ⟨1⟩ ⟨3⟩)) = some (some ⟨3⟩, []) := by decide +kernel
  rw [hk₁, Option.bind_some] at hduring
  obtain ⟨k₂, hk₂, hfacts⟩ := Option.map_eq_some_iff.mp hduring
  obtain ⟨hruns, hpassed⟩ := Prod.mk.inj hfacts
  obtain ⟨k₃, answer, hreturns⟩ := hblocked.returns hk₂ hsuspends hruns
  have hanswer : answer = .error .failure := (hreturns.late 2 rfl).mpr (by simp [hpassed])
  exact ⟨k₀, k₁, k₂, hk₀, hblocked, hk₂, hsuspends, hruns, k₃, hanswer ▸ hreturns⟩

end Kernel

end CoopKernel
