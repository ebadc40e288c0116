import CoopKernel.Proofs.Kernel.Refusals

/-!
# Waiting for a result

A thread that has begun an asynchronous operation waits until a result for it is dispatched. The
result may be raised at any time, even by the operation itself before its thread waits, and it stays
in the thread's record until the thread runs again, however much happens in between. A thread goes
through the stages of `Kernel.Awaiting`, and the first result that is dispatched for it decides.

* `Calls.awaited`: nothing is dispatched before the thread waits; the first result that is
  dispatched for it afterwards ends the wait, and is what the call returns.
* `Sound.dropped`: a result for a thread that does not wait for one changes nothing when it is
  dispatched, and is not reported.

Both are put together for all calls of a run in `start_completions`.
-/

namespace CoopKernel

variable {ε : Type}

/-- A thread whose wait was ended by a result. -/
def Thread.given (t : Thread (Position ε)) (result : Int32) : Thread (Position ε) :=
  { ({ t with result } : Thread (Position ε)).disarm with state := .ready }

/-- A thread that waits for a result goes on waiting, unless a result is reported for it. -/
theorem Fate.of_awaiting {ticking : Bool} {events : List Trace.Event} {id : ThreadId}
    {t t' : Thread (Position ε)} (h : Fate ticking events id (some t) (some t')) (htidy : t.Tidy)
    (hreason : t.waitingFor = some .io) (hlives : t'.state ≠ .dead) :
    t' = t ∨ ∃ r, .ioDone id r ∈ events ∧ t' = t.given r := by
  have hstate : t.state = .waiting := htidy.waiting_iff.mpr (by simp [hreason])
  generalize hbefore : some t = before at h
  generalize hafter : some t' = after at h
  cases h with
  | kept _ => exact .inl (Option.some.inj (hafter.trans hbefore.symm))
  | chimed _ =>
    rw [← hbefore, Option.map_some,
      Thread.chime_of_untimed (by simp [hreason, WaitReason.timed])] at hafter
    exact .inl (Option.some.inj hafter)
  | created _ => cases hbefore
  | deleted _ _ => cases hafter
  | activated hdead _ =>
    obtain rfl := Option.some.inj hbefore
    rw [hdead] at hstate
    cases hstate
  | buried _ =>
    obtain rfl := Option.some.inj hafter
    exact absurd rfl hlives
  | served hmemory =>
    obtain rfl := Option.some.inj hbefore
    rw [hmemory] at hreason
    cases hreason
  | @informed _ _ r hreported =>
    obtain rfl := Option.some.inj hbefore
    exact .inr ⟨r, hreported, Option.some.inj hafter⟩
  | received hwanted _ =>
    obtain rfl := Option.some.inj hbefore
    rw [(htidy.waiting_of_wanted hwanted).2] at hreason
    cases hreason

namespace Kernel

variable {W W' : PoolId → Prop} {k k' k₀ k₁ k₂ first : Kernel ε} {id me : ThreadId}
  {t : Thread (Position ε)} {move : Move ε} {moves during : List (Move ε)}
  {interrupts : List Interrupt} {destination : Destination ε} {r : Int32}

/-! ## Results on the line -/

/-- The results for a thread among interrupts, in order. -/
def resultsFor (id : ThreadId) (interrupts : List Interrupt) : List Int32 :=
  interrupts.filterMap fun
    | .ioComplete thread result => if thread = id then some result else none
    | .tick => none

theorem resultsFor_append (id : ThreadId) (earlier later : List Interrupt) :
    resultsFor id (earlier ++ later) = resultsFor id earlier ++ resultsFor id later :=
  List.filterMap_append

theorem resultsFor_self (id : ThreadId) (r : Int32) : resultsFor id [.ioComplete id r] = [r] := by
  simp [resultsFor]

theorem resultsFor_of_ne {other : ThreadId} (h : other ≠ id) (r : Int32) :
    resultsFor id [.ioComplete other r] = [] := by
  simp [resultsFor, h]

/-- What a move takes off the line is the oldest interrupt, on the way out of the section. -/
theorem takes_eq (k : Kernel ε) (move : Move ε) :
    k.takes move = [] ∨ ∃ destination interrupt rest, move = .advance ∧
      k.activity = .delivering destination ∧ k.line.pending = interrupt :: rest ∧
      k.takes move = [interrupt] := by
  cases move with
  | advance =>
    rw [takes]
    split
    · next destination hactivity =>
      cases hpending : k.line.pending with
      | nil => exact .inl rfl
      | cons interrupt rest => exact .inr ⟨destination, interrupt, rest, rfl, hactivity, rfl, rfl⟩
    · exact .inl rfl
  | _ => exact .inl rfl

/-- What the last move of a run takes is dispatched last. -/
theorem dispatchedIn_concat (hplay : k.play moves = some k') (hperform : k'.perform move = .ok k₂) :
    k.dispatchedIn (moves ++ [move]) = k.dispatchedIn moves ++ k'.takes move :=
  collect_concat (fun _ => rfl) dispatchedIn_cons hplay hperform

/-! ## Results that nobody waits for -/

/-- A result for a thread that does not wait for one is taken off the line, and that is all. -/
theorem Sound.dropped (h : k.Sound W) (hactivity : k.activity = .delivering destination)
    {rest : List Interrupt} (hpending : k.line.pending = .ioComplete id r :: rest)
    (hnot : k.awaitsIo id = false) :
    ∃ activity, k.advance = .ok { k with line := { pending := rest }, activity } := by
  have hadvance : k.advance = k.deliver destination := by rw [Kernel.advance, hactivity]
  rw [hadvance]
  rcases h with hhalted | ⟨me, t, hruns, -, hposture⟩
  · refine ⟨destination.activity, ?_⟩
    rw [hhalted.deliver_eq, hpending, List.tail_cons]
  · have houtside := hposture.outside (by simp [hactivity])
    have hgate : k.gate = { inside := false } := congrArg CriticalSection.mk houtside
    refine ⟨.delivering destination, ?_⟩
    rw [deliver_eq hruns.going houtside hpending]
    show dispatchResult _ destination id r = _
    rw [dispatchResult, hgate]
    show (if !k.awaitsIo id then _ else _) = _
    rw [hnot]
    rfl

/-! ## A move while a thread waits -/

/-- A thread that waits for a result stands where it stood, if no result can have been reported. -/
theorem Moved.asleep (h : Moved move k k') (hsound : k.Sound W) (hgoing : k'.stopped = false)
    (hrecord : k.sched.threads.get? id = some t) (hreason : t.waitingFor = some .io)
    (hlives : k'.lives id = true)
    (hticks : ∀ destination, k.activity = .delivering destination →
      (k.takes move).count .tick = 1) : k'.standing id = some t := by
  have htidy := hsound.upright.orderly.tidy hrecord
  have hwaiting : t.state = .waiting := htidy.waiting_iff.mpr (by simp [hreason])
  cases h.effect with
  | still hsched _ _ _ _ =>
    have hrecord' : k'.sched.threads.get? id = some t := hsched ▸ hrecord
    rw [standing_eq, hrecord']
    intro u hu
    obtain rfl := Option.some.inj (hrecord'.symm.trans hu)
    simp [hwaiting]
  | shutdown _ _ hstopped _ _ _ _ _ _ =>
    rw [hgoing] at hstopped
    cases hstopped
  | @turn me ticking events hgoing hcurrent hturn =>
    have hid : id ≠ me := by
      rintro rfl
      exact absurd ((hsound.running hcurrent hrecord).symm.trans hwaiting) (by simp)
    obtain ⟨hstanding, t', hstands', halive, hfate⟩ := hturn.other hsound hcurrent hid hlives
    rw [hstanding, hrecord] at hfate
    rcases hfate.of_awaiting htidy hreason halive with rfl | ⟨r, hreported, -⟩
    · exact hstands'
    · -- Results are reported by whoever delivers one, and a tick is no result.
      obtain ⟨hticking, destination, hactivity⟩ := hturn.results hreported
      have hcount := h.ticks hgoing
      rw [hturn.ticks, hticking, hticks destination hactivity] at hcount
      simp at hcount

/-- A result is dispatched while a thread waits for one. -/
theorem Runs.awaiting_dispatchResult {u : Thread (Position ε)} (h : k.Runs W me u)
    (hrecord : k.sched.threads.get? id = some t) (hwaiting : t.state = .waiting)
    (hreason : t.waitingFor = some .io) {other : ThreadId}
    (hrun : k.dispatchResult destination other r = .ok k') :
    k'.standing id = some (if other = id then t.given r else t) := by
  have hne : id ≠ me := h.ne_of_not_running hrecord (by simp [hwaiting])
  rcases h.dispatchResult_ends hrun with ⟨hnot, rfl⟩ | ⟨v, m, hv, -, -, hwoken, hends⟩
  · have hother : other ≠ id := by
      rintro rfl
      have hawaits := awaitsIo_iff.mpr ⟨t, hrecord, hwaiting, hreason⟩
      rw [hnot] at hawaits
      cases hawaits
    rw [if_neg hother, (resume_ends h.sole h.record h.running _).others id hne, hrecord]
  · have hsched : m.sched = informed k.sched other v.priority r := by
      rcases hwoken with rfl | rfl <;> rfl
    rw [hends.others id hne, hsched, get?_informed]
    by_cases hother : other = id
    · obtain rfl : t = v := Option.some.inj (hrecord.symm.trans (hother ▸ hv))
      rw [if_pos hother.symm, if_pos hother, hv]
      rfl
    · rw [if_neg (Ne.symm hother), if_neg hother, hrecord]

theorem Sound.awaiting_dispatched (h : k.Sound W) (hgoing : k.stopped = false)
    (hactivity : k.activity = .delivering destination) {other : ThreadId} {rest : List Interrupt}
    (hpending : k.line.pending = .ioComplete other r :: rest) (hperform : k.advance = .ok k')
    (hrecord : k.sched.threads.get? id = some t) (hreason : t.waitingFor = some .io) :
    k'.standing id = some (if other = id then t.given r else t) := by
  rw [h.advance_delivering hgoing hactivity hpending] at hperform
  have hwaiting : t.state = .waiting :=
    (h.upright.orderly.tidy hrecord).waiting_iff.mpr (by simp [hreason])
  rcases h with hhalted | ⟨me, u, hruns, -, -⟩
  · simp [hhalted.stopped] at hgoing
  · let entered : Kernel ε := { k with line := { pending := rest }, gate := { inside := true } }
    have hentered : entered.Runs _ me u :=
      ⟨hruns.going, hruns.settled, hruns.current, hruns.record, hruns.running⟩
    exact hentered.awaiting_dispatchResult hrecord hwaiting hreason hperform

/-- A thread that waits for a result stands where it stood, if nothing is dispatched. -/
theorem Sound.asleep_of_takes (h : k.Sound W) (hallowed : k.allows move = true)
    (hperform : k.perform move = .ok k') (hgoing : k'.stopped = false)
    (hrecord : k.sched.threads.get? id = some t) (hreason : t.waitingFor = some .io)
    (hlives : k'.lives id = true) (hnone : k.takes move = []) : k'.standing id = some t := by
  by_cases hdelivering : ∃ destination, k.activity = .delivering destination
  · obtain ⟨destination, hactivity⟩ := hdelivering
    have hprogram : k.inProgram = false := by simp [inProgram, hactivity]
    have hwaiting : t.state = .waiting :=
      (h.upright.orderly.tidy hrecord).waiting_iff.mpr (by simp [hreason])
    have hnot : ∀ u, k.sched.threads.get? id = some u → u.state ≠ .running := by
      intro u hu
      obtain rfl := Option.some.inj (hrecord.symm.trans hu)
      simp [hwaiting]
    rcases raised_or_advanced hprogram hallowed hperform with
      ⟨interrupt, rfl, rfl⟩ | ⟨rfl, hadvance⟩ | ⟨rfl, _, -, rfl⟩
    · exact (standing_eq hnot).trans hrecord
    · -- The running thread gets to its destination.
      have hpending : k.line.pending = [] := by simpa [takes, hactivity] using hnone
      rw [Kernel.advance, hactivity] at hadvance
      change k.deliver destination = _ at hadvance
      rw [Kernel.deliver, Line.take?, hpending] at hadvance
      obtain rfl := Except.ok.inj hadvance
      rw [reach_eq, standing_eq]
      exacts [hrecord, hnot]
    · rw [standing_eq]
      exacts [hrecord, hnot]
  · exact (h.moved hallowed hperform).asleep h hgoing hrecord hreason hlives
      fun destination hactivity => absurd ⟨destination, hactivity⟩ hdelivering

/-- A thread that waits for a result goes on waiting unless a result for it is dispatched, and then
it has been given this result. -/
theorem Sound.awaiting (h : k.Sound W) (hallowed : k.allows move = true)
    (hperform : k.perform move = .ok k') (hgoing : k'.stopped = false)
    (hrecord : k.sched.threads.get? id = some t) (hreason : t.waitingFor = some .io)
    (hlives : k'.lives id = true) :
    resultsFor id (k.takes move) = [] ∧ k'.standing id = some t ∨
      ∃ r, resultsFor id (k.takes move) = [r] ∧ k'.standing id = some (t.given r) := by
  have hmoved := h.moved hallowed hperform
  rcases k.takes_eq move with hnone | ⟨destination, interrupt, rest, rfl, hactivity, hpending, htakes⟩
  · exact .inl ⟨by rw [hnone]; rfl,
      h.asleep_of_takes hallowed hperform hgoing hrecord hreason hlives hnone⟩
  · rw [htakes]
    cases interrupt with
    | tick =>
      exact .inl ⟨rfl, hmoved.asleep h hgoing hrecord hreason hlives fun _ _ => by rw [htakes]; rfl⟩
    | ioComplete other r =>
      have hstands := h.awaiting_dispatched (hmoved.going hgoing) hactivity hpending hperform
        hrecord hreason
      by_cases hother : other = id
      · subst hother
        rw [if_pos rfl] at hstands
        exact .inr ⟨r, resultsFor_self _ r, hstands⟩
      · rw [if_neg hother] at hstands
        exact .inl ⟨resultsFor_of_ne hother r, hstands⟩

/-! ## Stages -/

/-- How far a thread has come that began to wait for a result, after some moves. -/
inductive Awaiting (k₁ : Kernel ε) (id : ThreadId) (moves : List (Move ε)) (k : Kernel ε) : Prop
  | waits {t : Thread (Position ε)} (hgoing : k.stopped = false)
    (hrecord : k.sched.threads.get? id = some t) (hreason : t.waitingFor = some .io)
    (hposition : t.position = some (.inside (.awaitIo id)))
    (hnone : resultsFor id (k₁.dispatchedIn moves) = [])
  /-- It has been given the first result, and has not looked at it yet. -/
  | given {t : Thread (Position ε)} (hgoing : k.stopped = false)
    (hstands : k.standing id = some t) (hready : t.state = .ready)
    (hposition : t.position = some (.inside (.awaitIo id)))
    (hfirst : (resultsFor id (k₁.dispatchedIn moves)).head? = some t.result)
  /-- It takes the first result to its program. -/
  | returns {r : Int32} (hfirst : (resultsFor id (k₁.dispatchedIn moves)).head? = some r)
    (hreturning : Returning k id (.returned (.ok (.result r))))
  /-- The kernel was shut down meanwhile. -/
  | ended (hstopped : k.stopped = true) (hcurrent : k.sched.current ≠ some id)

/-- More may be dispatched after the first result. -/
theorem head?_resultsFor_append {earlier later : List Interrupt}
    (h : (resultsFor id earlier).head? = some r) :
    (resultsFor id (earlier ++ later)).head? = some r := by
  rw [resultsFor_append, List.head?_append, h, Option.some_or]

/-- A thread that has been given a result keeps it until it runs, and then replies with it. -/
theorem Awaiting.moved_given (hsound : k.Sound W) (hsound' : k'.Sound W')
    (hallowed : k.allows move = true) (hperform : k.perform move = .ok k')
    (hrule : quiet id k move = true) (hgoing : k.stopped = false) (hstands : k.standing id = some t)
    (hready : t.state = .ready) (hposition : t.position = some (.inside (.awaitIo id)))
    (hfirst : (resultsFor id (k₁.dispatchedIn (moves ++ [move]))).head? = some t.result) :
    Awaiting k₁ id (moves ++ [move]) k' := by
  obtain ⟨-, hlives⟩ := (quiet_iff hperform).mp hrule
  by_cases hcurrent : k.sched.current = some id
  · obtain ⟨_, u, hruns, -, -, -, hhere⟩ := hsound.standing_current hgoing hcurrent hstands
    have hactivity : k.activity = .resuming (.awaitIo id) :=
      Activity.eq_resuming (hhere.symm.trans hposition)
    rcases raised_or_resumed hactivity hallowed hperform with
      ⟨interrupt, rfl, rfl⟩ | ⟨rfl, hadvance⟩
    · exact .given hgoing hstands hready hposition hfirst
    · rw [standing_of_running hruns.record hruns.running] at hstands
      obtain rfl := Option.some.inj hstands
      rw [Kernel.advance, hactivity] at hadvance
      change k.orRefuse (k.sched.find id) _ = _ at hadvance
      rw [Scheduler.find_eq hruns.record] at hadvance
      obtain rfl := Except.ok.inj hadvance
      exact .returns hfirst (.leaving hcurrent rfl rfl)
  · have hrecord : k.sched.threads.get? id = some t := by
      rw [← standing_eq (hsound.not_running hcurrent), hstands]
    rcases (hsound.moved hallowed hperform).ready hsound hgoing hcurrent hrecord hready hlives with
      ⟨hgoing', hstands'⟩ | ⟨hstopped, hnot⟩
    · exact .given hgoing' hstands' hready hposition hfirst
    · exact .ended hstopped hnot

theorem Awaiting.moved (h : Awaiting k₁ id moves k) (hsound : k.Sound W) (hsound' : k'.Sound W')
    (hplay : k₁.play moves = some k) (hallowed : k.allows move = true)
    (hperform : k.perform move = .ok k') (hrule : quiet id k move = true) :
    Awaiting k₁ id (moves ++ [move]) k' := by
  have hmoved := hsound.moved hallowed hperform
  have hdispatched := dispatchedIn_concat hplay hperform
  cases h with
  | ended hstopped hnot =>
    obtain ⟨hstopped', hcurrent⟩ := hmoved.stopped hstopped
    exact .ended hstopped' (hcurrent ▸ hnot)
  | returns hfirst hreturning =>
    exact .returns (hdispatched ▸ head?_resultsFor_append hfirst)
      (hreturning.moved hsound hsound' hallowed hperform hrule)
  | given hgoing hstands hready hposition hfirst =>
    exact .moved_given hsound hsound' hallowed hperform hrule hgoing hstands hready hposition
      (hdispatched ▸ head?_resultsFor_append hfirst)
  | @waits t hgoing hrecord hreason hposition hnone =>
    obtain ⟨-, hlives⟩ := (quiet_iff hperform).mp hrule
    have hwaiting : t.state = .waiting :=
      (hsound.upright.orderly.tidy hrecord).waiting_iff.mpr (by simp [hreason])
    cases hstopped' : k'.stopped with
    | true =>
      -- Whoever has shut the kernel down still runs, and this thread did not.
      refine .ended hstopped' ?_
      rw [(hmoved.shutdown hgoing hstopped').2.1]
      intro hcurrent
      exact absurd ((hsound.running hcurrent hrecord).symm.trans hwaiting) (by simp)
    | false =>
      rcases hsound.awaiting hallowed hperform hstopped' hrecord hreason hlives with
        ⟨hsilent, hstands⟩ | ⟨r, htaken, hstands⟩
      · obtain ⟨u, hu, ⟨hrunning, rfl⟩ | ⟨-, rfl⟩⟩ := exists_of_standing hstands
        · cases hwaiting
        · refine .waits hstopped' hu hreason hposition ?_
          rw [hdispatched, resultsFor_append, hnone, hsilent]
          rfl
      · refine .given hstopped' hstands rfl hposition ?_
        rw [hdispatched, resultsFor_append, hnone, htaken]
        rfl

theorem Awaiting.run (h : Awaiting k₁ id [] k₁) (hsound : k₁.Sound W)
    (hplay : k₁.play moves = some k) (hquiet : k₁.follows (quiet id) moves = true) :
    Awaiting k₁ id moves k := by
  refine hsound.play_induction (P := fun moves k => k₁.follows (quiet id) moves = true →
    Awaiting k₁ id moves k) hplay (fun _ => h) ?_ hquiet
  intro before move last next hbefore hlast hallowed hperform hnext ih hquiet
  obtain ⟨hquiet, hrule⟩ := (follows_concat hbefore hperform).mp hquiet
  exact (ih hquiet).moved hlast hnext hbefore hallowed hperform hrule

/-! ## Calls -/

/-- Whoever has the processor can run. -/
theorem Sound.canRun (h : k.Sound W) (hcurrent : k.sched.current = some id) : k.CanRun id := by
  obtain ⟨_, t, hbusy, ht, hrunning, -⟩ := h.upright.busy
  obtain rfl := Option.some.inj (hcurrent.symm.trans hbusy)
  exact ⟨t, ht, .inr hrunning⟩

theorem CanRun.of_standing (hstands : k.standing id = some t) (hready : t.state = .ready) :
    k.CanRun id := by
  obtain ⟨u, hu, ⟨hrunning, -⟩ | ⟨-, rfl⟩⟩ := exists_of_standing hstands
  · exact ⟨u, hu, .inr hrunning⟩
  · exact ⟨_, hu, .inl hready⟩

/-- The stage of a thread whose wait is over. -/
theorem Awaiting.canRun (h : Awaiting k₁ id moves k) (hsound : k.Sound W) (hgoing : k.stopped = false)
    (hfirst : (resultsFor id (k₁.dispatchedIn moves)).head? = some r) : k.CanRun id := by
  cases h with
  | waits _ _ _ _ hnone =>
    rw [hnone] at hfirst
    cases hfirst
  | given _ hstands hready _ _ => exact .of_standing hstands hready
  | ended hstopped _ =>
    rw [hgoing] at hstopped
    cases hstopped
  | returns _ hreturning =>
    cases hreturning with
    | parked _ _ hrecord hready _ _ => exact ⟨_, hrecord, .inl hready⟩
    | leaving hcurrent _ _ => exact hsound.canRun hcurrent
    | arrived hcurrent _ => exact hsound.canRun hcurrent
    | back hcurrent _ => exact hsound.canRun hcurrent
    | ended hstopped _ =>
      rw [hgoing] at hstopped
      cases hstopped

/-- Without a result a thread goes on waiting. -/
theorem Awaiting.awaitsIo (h : Awaiting k₁ id moves k) (hsound : k.Sound W)
    (hgoing : k.stopped = false) (hnone : resultsFor id (k₁.dispatchedIn moves) = []) :
    k.awaitsIo id = true := by
  cases h with
  | waits _ hrecord hreason _ _ =>
    have hwaiting := (hsound.upright.orderly.tidy hrecord).waiting_iff.mpr (by simp [hreason])
    exact awaitsIo_iff.mpr ⟨_, hrecord, hwaiting, hreason⟩
  | ended hstopped _ =>
    rw [hgoing] at hstopped
    cases hstopped
  | given _ _ _ _ hfirst =>
    rw [hnone] at hfirst
    cases hfirst
  | returns hfirst _ =>
    rw [hnone] at hfirst
    cases hfirst

/-- A thread that runs again after a result has been given it replies with the result, or has done
so. -/
theorem Awaiting.replies (h : Awaiting k₁ id moves k) (hsound : k.Sound W)
    (hgoing : k.stopped = false) (hcurrent : k.sched.current = some id)
    (hfirst : (resultsFor id (k₁.dispatchedIn moves)).head? = some r) :
    (k.activity = .resuming (.awaitIo id) ∧ k.advance = .ok (k.reply (.ok (.result r)))) ∨
      k.Returning id (.returned (.ok (.result r))) := by
  cases h with
  | waits _ _ _ _ hnone =>
    rw [hnone] at hfirst
    cases hfirst
  | ended _ hnot => exact absurd hcurrent hnot
  | returns hsame hreturning =>
    obtain rfl := Option.some.inj (hfirst.symm.trans hsame)
    exact .inr hreturning
  | given _ hstands _ hposition hsame =>
    obtain ⟨_, u, hruns, -, -, -, hhere⟩ := hsound.standing_current hgoing hcurrent hstands
    have hactivity := Activity.eq_resuming (hhere.symm.trans hposition)
    rw [standing_of_running hruns.record hruns.running] at hstands
    obtain rfl := Option.some.inj hstands
    obtain rfl := Option.some.inj (hfirst.symm.trans hsame)
    refine .inl ⟨hactivity, ?_⟩
    rw [Kernel.advance, hactivity]
    show k.orRefuse (k.sched.find id) _ = _
    rw [Scheduler.find_eq hruns.record]
    rfl

/-- Whoever arrives, arrives with the first result. -/
theorem Awaiting.of_arriving (h : Awaiting k₁ id moves k) (hsound : k.Sound W)
    (hcurrent : k.sched.current = some id) {arrival : Arrival ε}
    (harrives : k.activity = .arriving arrival) : ∃ r, arrival = .returned (.ok (.result r)) ∧
      (resultsFor id (k₁.dispatchedIn moves)).head? = some r := by
  cases h with
  | ended _ hnot => exact absurd hcurrent hnot
  | returns hfirst hreturning => exact ⟨_, hreturning.eq_of_arriving hcurrent harrives, hfirst⟩
  | given hgoing hstands _ hposition _ =>
    obtain ⟨_, _, -, -, -, -, hhere⟩ := hsound.standing_current hgoing hcurrent hstands
    rw [hposition, harrives] at hhere
    cases hhere
  | waits _ hrecord hreason _ _ =>
    have hrunning := hsound.running hcurrent hrecord
    simp [(hsound.upright.orderly.tidy hrecord).waiting_iff.mpr (by simp [hreason])] at hrunning

/-- What has become of a wait for a result, at some moment until which its thread has lived and its
program has made no other move. -/
structure Awaited (k₀ k₁ : Kernel ε) (id : ThreadId) (interrupts : List Interrupt)
    (during : List (Move ε)) (k₂ : Kernel ε) : Prop where
  /-- When the call gives the processor away, its thread waits, ... -/
  waiting : k₁.awaitsIo id = true
  /-- ... and nothing that the operation has raised has been dispatched. -/
  pending : k₁.line.pending = k₀.line.pending ++ interrupts
  /-- Everything is dispatched in the order in which it was raised. -/
  order : k₂.stopped = false → k₁.dispatchedIn during ++ k₂.line.pending =
    k₀.line.pending ++ interrupts ++ raisedIn during
  /-- Without a result for it the thread goes on waiting. -/
  waits : k₂.stopped = false → resultsFor id (k₁.dispatchedIn during) = [] →
    k₂.awaitsIo id = true
  /-- The first result ends the wait. -/
  ends : ∀ r, k₂.stopped = false → (resultsFor id (k₁.dispatchedIn during)).head? = some r →
    k₂.CanRun id
  /-- When the thread runs again, the call replies with the first result at once, or has done so. -/
  replies : ∀ r, k₂.stopped = false → k₂.sched.current = some id →
    (resultsFor id (k₁.dispatchedIn during)).head? = some r →
      (k₂.activity = .resuming (.awaitIo id) ∧
        k₂.advance = .ok (k₂.reply (.ok (.result r)))) ∨
      k₂.Returning id (.returned (.ok (.result r)))
  /-- Nothing but the first result reaches the program. -/
  returns : k₂.sched.current = some id → ∀ arrival, k₂.activity = .arriving arrival →
    ∃ r, arrival = .returned (.ok (.result r)) ∧
      (resultsFor id (k₁.dispatchedIn during)).head? = some r

/-- A thread whose call has begun an operation waits, with all that the operation raised pending. -/
theorem Sound.begins_awaiting (h : k₀.Sound W) (hprogram : k₀.inProgram = true)
    (hgoing : k₀.stopped = false) (hcurrent : k₀.sched.current = some id)
    (hcalled : k₀.call (.awaitIo (.raising interrupts)) = .ok k₁) :
    k₁.line.pending = k₀.line.pending ++ interrupts ∧ k₁.awaitsIo id = true ∧
      Awaiting k₁ id [] k₁ := by
  rcases h.calling (inProgram_iff.mp hprogram) with hhalted | ⟨me, t, hcalling⟩
  · simp [hhalted.stopped] at hgoing
  obtain rfl := Option.some.inj (hcurrent.symm.trans hcalling.current)
  change k₀.inSection _ = _ at hcalled
  rw [hcalling.inSection_eq] at hcalled
  have hends := hcalling.serving.awaitIo_ends hcalled
  obtain ⟨u, hu, ⟨-, heq⟩ | ⟨-, rfl⟩⟩ := exists_of_standing hends.own
  · have hstate := congrArg Thread.state heq
    cases hstate
  · exact ⟨congrArg Line.pending hends.line, awaitsIo_iff.mpr ⟨_, hu, rfl, rfl⟩,
      .waits (hends.stopped.trans hgoing) hu rfl rfl rfl⟩

/-- The stage that a thread has reached says what has become of its wait. -/
theorem Calls.awaited (h : k₀.Calls k₁ id (.awaitIo (.raising interrupts)))
    (hgoing : k₀.stopped = false) (hduring : k₁.play during = some k₂)
    (hquiet : k₁.follows (quiet id) during = true) : Awaited k₀ k₁ id interrupts during k₂ := by
  obtain ⟨hpending, hwaiting, hbegun⟩ :=
    h.reachable.sound.begins_awaiting h.program hgoing h.current h.called
  have hsound := h.sound.play hduring
  have hstage := hbegun.run h.sound hduring hquiet
  refine ⟨hwaiting, hpending, fun hgoing₂ => ?_, hstage.awaitsIo hsound,
    fun _ hgoing₂ hfirst => hstage.canRun hsound hgoing₂ hfirst, fun _ => hstage.replies hsound,
    fun hcurrent _ => hstage.of_arriving hsound hcurrent⟩
  rw [h.sound.order hduring hgoing₂, hpending]

/-! ## Whole runs -/

/-- What becomes of the results that are raised in a run. -/
structure Completions (first : Kernel ε) (moves : List (Move ε)) : Prop where
  /-- Every call that begins an operation gets the first result that is dispatched afterwards. -/
  awaited : ∀ before interrupts during after k₀ k₁ k₂ id,
    moves = before ++ .call (.awaitIo (.raising interrupts)) :: (during ++ after) →
    first.play before = some k₀ → k₀.stopped = false → k₀.sched.current = some id →
    k₀.call (.awaitIo (.raising interrupts)) = .ok k₁ → k₁.play during = some k₂ →
    k₁.follows (quiet id) during = true → Awaited k₀ k₁ id interrupts during k₂
  /-- A result that is dispatched for a thread that does not wait for one leaves all but the line as
  it was, and is not reported. -/
  dropped : ∀ before after k destination id r rest, moves = before ++ after →
    first.play before = some k → k.activity = .delivering destination →
    k.line.pending = .ioComplete id r :: rest → k.awaitsIo id = false →
      ∃ activity, k.advance = .ok { k with line := { pending := rest }, activity }

/-- In every run, no result is lost, doubled or given to the wrong wait because of when it was
raised. -/
theorem start_completions {config : Config} {arena : Arena}
    (hstart : start config arena = .ok first) (hplay : first.play moves = some k) :
    Completions first moves := by
  have hreachable : ∀ {before k'}, first.play before = some k' → k'.Reachable := fun hbefore =>
    ⟨config, arena, first, _, hstart, hbefore⟩
  refine ⟨?_, ?_⟩
  · intro before interrupts during after k₀ k₁ k₂ id hmoves hbefore hgoing hcurrent hcalled hduring
      hquiet
    rw [hmoves, play_append, hbefore, Option.bind_some] at hplay
    obtain ⟨_, hprogram, -, -⟩ := play_cons_iff.mp hplay
    exact (Calls.mk (hreachable hbefore) hprogram hcurrent hcalled).awaited hgoing hduring hquiet
  · intro before after k' destination id r rest _ hbefore hactivity hpending hnot
    exact (hreachable hbefore).sound.dropped hactivity hpending hnot

/-- A run in which an operation raises a tick and two results before its thread waits. The tick
wakes the main thread, which delivers both results and sleeps before the thread runs again. -/
def earlyResults : List (Move Unit) :=
  answered (.threadCreate () 4096 .low) ++ answered (.threadActivate ⟨3⟩) ++
    [.call (.sleep (.ticks 1)), .advance, .advance,
      .call (.awaitIo (.raising [.tick, .ioComplete ⟨3⟩ 7, .ioComplete ⟨3⟩ 9]))] ++
    [.advance, .advance, .advance, .advance, .advance, .advance, .call (.sleep (.ticks 1)),
      .advance, .advance]

theorem start_completions_earlyResults :
    ∃ first k : Kernel Unit, start {} {} = .ok first ∧ first.play earlyResults = some k ∧
      first.dispatchedIn earlyResults = [.tick, .ioComplete ⟨3⟩ 7, .ioComplete ⟨3⟩ 9] ∧
      k.sched.current = some ⟨3⟩ ∧ k.activity = .arriving (.returned (.ok (.result 7))) ∧
      Completions first earlyResults := by
  have hrun : (afterRun {} {} earlyResults).map (fun k : Kernel Unit =>
      (k.sched.current, k.answer?)) = some (some ⟨3⟩, some (.ok (.result 7))) := by decide +kernel
  have hinterrupts : ((start {} {}).toOption.map fun first : Kernel Unit =>
      first.dispatchedIn earlyResults) =
        some [.tick, .ioComplete ⟨3⟩ 7, .ioComplete ⟨3⟩ 9] := by decide +kernel
  obtain ⟨k, hk, hfacts⟩ := Option.map_eq_some_iff.mp hrun
  obtain ⟨hcurrent, hanswer⟩ := Prod.mk.inj hfacts
  obtain ⟨first, hstart, hplay⟩ := afterRun_eq_some hk
  rw [hstart] at hinterrupts
  exact ⟨first, k, hstart, hplay, Option.some.inj hinterrupts, hcurrent,
    answer?_eq_some.mp hanswer, start_completions hstart hplay⟩

end Kernel

end CoopKernel
