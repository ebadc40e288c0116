import CoopKernel.Kernel.Step
import CoopKernel.Proofs.Kernel.Delivery
import CoopKernel.Proofs.Kernel.Mutexes
import CoopKernel.Proofs.Kernel.Threads

/-!
# Steps go on

A sound kernel takes every step that its running thread can make, and is sound afterwards: a call of
the program (`Sound.call`), the end of the program (`Sound.exit`), an interrupt (`Sound.raise`),
what the kernel does by itself (`Sound.advance`), and a return past what is pending
(`Sound.bypass`). Coverage of a pool can only be lost by a call that
terminates a thread (`Call.Drops`).
-/

namespace CoopKernel

variable {ε : Type}

/-- Whether a call takes the last hope of a pool away. -/
def Call.Drops (k : Kernel ε) (pool : PoolId) : Call ε → Prop
  | .threadTerminate id => k.Drops id pool
  | _ => False

namespace Kernel

variable {W W' : PoolId → Prop} {k k' : Kernel ε} {me : ThreadId} {t : Thread (Position ε)}

theorem Sound.weaken (h : k.Sound W) (hW : ∀ {pool}, W' pool → W pool) : k.Sound W' := by
  rcases h with hhalted | ⟨me, t, hruns, hrank, hposture⟩
  · exact .inl hhalted
  · refine .inr ⟨me, t, ⟨hruns.going, ?_, hruns.current, hruns.record, hruns.running⟩, hrank,
      hposture⟩
    exact hruns.settled.weaken fun hpool => ⟨hW hpool.1, hpool.2⟩

theorem GoesOn.weaken {outcome : Except Invariant (Kernel ε)} (h : GoesOn W outcome)
    (hW : ∀ {pool}, W' pool → W pool) : GoesOn W' outcome := by
  obtain ⟨k', heq, hsound⟩ := h
  exact ⟨k', heq, hsound.weaken hW⟩

/-! ## After a shutdown -/

/-- A kernel that was shut down may change its line, its journal and where its last thread is. -/
theorem Halted.keep (h : k.Halted) (hstopped : k'.stopped = k.stopped)
    (hsched : k'.sched = k.sched) (hpools : k'.pools = k.pools) (hmain : k'.main = k.main)
    (hidle : k'.idle = k.idle) (hgate : k'.gate.inside = false)
    (hactivity : ∀ pending, k'.activity ≠ .resuming pending) : k'.Halted where
  stopped := hstopped.trans h.stopped
  frozen := by
    rw [hsched, hpools, hmain, hidle]
    exact h.frozen
  gate := hgate
  activity := hactivity

theorem Halted.reach (h : k.Halted) (destination : Destination ε) :
    (k.reach destination).Halted := by
  cases destination <;> exact h.keep rfl rfl rfl rfl rfl h.gate (by simp [Kernel.reach, arrive])

theorem Halted.raise (h : k.Halted) (interrupt : Interrupt) : (k.raise interrupt).Halted :=
  h.keep rfl rfl rfl rfl rfl h.gate h.activity

theorem Halted.inSection (h : k.Halted) (body : Kernel ε → Except Invariant (Kernel ε)) :
    ∃ k', k.inSection body = .ok k' ∧ k'.Halted := by
  have hrefused : (k.refuse .invalidState).Halted :=
    h.keep rfl rfl rfl rfl rfl rfl (by simp [refuse, reply])
  refine ⟨_, ?_, hrefused⟩
  rw [Kernel.inSection, enter_eq h.gate]
  show (if k.stopped = true then _ else _) = _
  rw [if_pos h.stopped]
  rfl

/-- Every call is refused. -/
theorem Halted.call (h : k.Halted) (request : Call ε) :
    ∃ k', k.call request = .ok k' ∧ k'.Halted := by
  have hrefused : (k.refuseAtOnce .invalidParameter).Halted :=
    h.keep rfl rfl rfl rfl rfl h.gate (by simp [refuseAtOnce, arrive])
  -- Two calls look at their arguments first, and two put an interrupt on the line. All are then
  -- turned away in the section.
  cases request with
  | threadCreate entry stackSize priority =>
    rw [Kernel.call]
    split
    · exact ⟨_, rfl, hrefused⟩
    · exact h.inSection _
  | sleep timeout =>
    rw [Kernel.call]
    split
    · exact ⟨_, rfl, hrefused⟩
    · exact h.inSection _
  | tick => exact (h.raise .tick).inSection _
  | ioComplete id result => exact (h.raise (.ioComplete id result)).inSection _
  | _ => exact h.inSection _

theorem Halted.exit (h : k.Halted) : ∃ k', k.exit = .ok k' ∧ k'.Halted := by
  have hleft : k.leave.Halted := h.keep rfl rfl rfl rfl rfl rfl h.activity
  refine ⟨_, ?_, hleft⟩
  rw [Kernel.exit, enter_eq h.gate]
  simp only [bind, Except.bind]
  split
  · next hgoing _ =>
    rw [h.stopped] at hgoing
    simp at hgoing
  · rfl

/-- Interrupts are taken off the line and mean nothing. -/
theorem Halted.deliver (h : k.Halted) (destination : Destination ε) :
    ∃ k', k.deliver destination = .ok k' ∧ k'.Halted := by
  rw [Kernel.deliver]
  cases k.line.take? with
  | none => exact ⟨_, rfl, h.reach destination⟩
  | some taken =>
    obtain ⟨interrupt, line⟩ := taken
    let entered : Kernel ε := { k with line, gate := { inside := true } }
    have hleft : entered.leave.Halted := h.keep rfl rfl rfl rfl rfl rfl h.activity
    refine ⟨_, ?_, hleft.reach destination⟩
    let taken : Kernel ε := { k with line }
    show (taken.enter >>= _) = _
    rw [enter_eq (k := taken) h.gate]
    show (if k.stopped = true then _ else _) = _
    rw [if_pos h.stopped]
    rfl

theorem Halted.advance (h : k.Halted) : ∃ k', k.advance = .ok k' ∧ k'.Halted := by
  rw [Kernel.advance]
  cases hactivity : k.activity with
  | program => exact ⟨_, rfl, h⟩
  | arriving arrival =>
    have harrived : ({ k with activity := .program } : Kernel ε).Halted :=
      h.keep rfl rfl rfl rfl rfl h.gate (by simp)
    exact ⟨_, rfl, harrived⟩
  | resting =>
    have hroused : ({ k with activity := .delivering .rest } : Kernel ε).Halted :=
      h.keep rfl rfl rfl rfl rfl h.gate (by simp)
    show ∃ k' : Kernel ε, (if k.line.pending.isEmpty then _ else _) = Except.ok k' ∧ k'.Halted
    split
    · exact ⟨_, rfl, h⟩
    · exact ⟨_, rfl, hroused⟩
  | resuming pending => exact absurd hactivity (h.activity pending)
  | delivering destination => exact h.deliver destination

/-! ## Calls of a program -/

/-- The running thread is in its program. -/
structure Calling (W : PoolId → Prop) (k : Kernel ε) (me : ThreadId) (t : Thread (Position ε)) :
    Prop extends k.Runs W me t where
  unrivalled : k.sched.Unrivalled t.priority
  outside : k.gate.inside = false
  program : me ≠ k.idle

theorem Calling.raise (h : k.Calling W me t) (interrupt : Interrupt) :
    (k.raise interrupt).Calling W me t :=
  ⟨⟨h.going, h.settled, h.current, h.record, h.running⟩, h.unrivalled, h.outside, h.program⟩

theorem Calling.refuseAtOnce (h : k.Calling W me t) (status : Status) :
    GoesOn W (.ok (k.refuseAtOnce status)) := by
  have hruns : (k.refuseAtOnce status).Runs W me t :=
    ⟨h.going, h.settled, h.current, h.record, h.running⟩
  refine ⟨_, rfl, hruns.sound_outside h.unrivalled h.outside ?_ fun hidle => absurd hidle h.program⟩
  simp [Kernel.refuseAtOnce, arrive]

theorem Calling.inSection (h : k.Calling W me t)
    {body : Kernel ε → Except Invariant (Kernel ε)}
    (hbody : ∀ k' : Kernel ε, k'.Serving W me t → k'.sched = k.sched → GoesOn W' (body k')) :
    GoesOn W' (k.inSection body) := by
  rw [Kernel.inSection, enter_eq h.outside]
  show GoesOn W' (if k.stopped = true then _ else body _)
  rw [if_neg (by simp [h.going])]
  exact hbody _ ⟨⟨h.going, h.settled, h.current, h.record, h.running⟩, h.unrivalled, rfl, h.program⟩
    rfl

theorem foldl_raise_eq (k : Kernel ε) (interrupts : List Interrupt) :
    ∃ line, interrupts.foldl raise k = { k with line } := by
  induction interrupts generalizing k with
  | nil => exact ⟨k.line, rfl⟩
  | cons interrupt rest ih =>
    obtain ⟨line, heq⟩ := ih (k.raise interrupt)
    exact ⟨line, heq⟩

/-- An operation that calls the kernel from inside the section ends the call at once. -/
theorem Serving.awaitIo (h : k.Serving W me t) (issue : Issue) : GoesOn W (k.awaitIo issue) := by
  rw [Kernel.awaitIo, h.me_eq]
  cases issue with
  | raising interrupts =>
    obtain ⟨line, hline⟩ := foldl_raise_eq k interrupts
    let waiting : Kernel ε := { k with line, sched := k.sched.suspended me .io .infinite }
    have hawait : (do
        let sched ← (interrupts.foldl Kernel.raise k).sched.block me .io .infinite
        { interrupts.foldl Kernel.raise k with sched }.switchNext (.inside (.awaitIo me))) =
          waiting.switchNext (.inside (.awaitIo me)) := by
      rw [hline]
      show (k.sched.block me .io .infinite >>= _) = _
      rw [Scheduler.block_eq h.record]
      rfl
    show GoesOn W (do
      let sched ← (interrupts.foldl Kernel.raise k).sched.block me .io .infinite
      { interrupts.foldl Kernel.raise k with sched }.switchNext (.inside (.awaitIo me)))
    rw [hawait]
    exact h.suspend h.inside h.program (by simp) (by simp) rfl rfl rfl rfl rfl rfl rfl
      fun _ hreason => hreason
  | reentrant =>
    have hheld : k.enter = .error .sectionFree := by
      rw [enter, CriticalSection.enter, h.inside]
      rfl
    have hruns : (k.leave.arrive (.unwound .sectionFree)).Runs W me t :=
      ⟨h.going, h.settled, h.current, h.record, h.running⟩
    refine ⟨_, ?_, hruns.sound_outside h.unrivalled rfl (by simp [arrive]) fun hidle =>
      absurd hidle h.program⟩
    simp only [hheld]
    rfl

theorem Calling.allocateBlocking (h : k.Calling W me t) (pool : Kernel ε → PoolId)
    (size : Kernel ε → Nat) (purpose : Purpose ε) (hpurpose : purpose.Fits) :
    GoesOn W (k.inSection fun k => k.allocateBlocking (pool k) (size k) purpose) :=
  h.inSection fun _ h _ =>
    (h.weaken And.left).allocateBlocking (.inl fun hpool => h.settled.covered hpool) hpurpose

theorem Calling.call (h : k.Calling W me t) (request : Call ε) :
    GoesOn (fun pool => W pool ∧ ¬ request.Drops k pool) (k.call request) := by
  have hreply : ∀ {k' : Kernel ε}, k'.Calling W me t →
      GoesOn W (k'.inSection fun k => .ok (k.reply (.ok .done))) := fun h' =>
    h'.inSection fun _ h _ => h.goesOn_reply _
  -- A termination is the only call after which fewer pools may be covered.
  cases request with
  | threadTerminate id =>
    refine h.inSection ?_
    intro k' h' hsched
    have hterminate := h'.terminate id
    have hdrops : k'.Drops id = k.Drops id := by
      unfold Kernel.Drops
      rw [hsched]
    rw [hdrops] at hterminate
    exact hterminate
  | threadCreate entry stackSize priority =>
    rw [Kernel.call]
    split
    · exact (h.refuseAtOnce _).weaken And.left
    · next hvalid =>
      exact (h.allocateBlocking (·.systemPool) (fun _ => stackSize) (.stack entry priority)
        (not_or.mp hvalid).2).weaken And.left
  | sleep timeout =>
    rw [Kernel.call]
    split
    · exact (h.refuseAtOnce _).weaken And.left
    · exact (h.inSection fun _ h _ => h.sleep _).weaken And.left
  | threadActivate id => exact (h.inSection fun _ h _ => h.activate id).weaken And.left
  | threadDelete id => exact (h.inSection fun _ h _ => h.delete id).weaken And.left
  | mutexCreate => exact (h.inSection fun _ h _ => h.mutexCreate).weaken And.left
  | mutexDelete mutex => exact (h.inSection fun _ h _ => h.mutexDelete mutex).weaken And.left
  | mutexAcquire mutex timeout =>
    exact (h.inSection fun _ h _ => h.acquire mutex timeout).weaken And.left
  | mutexRelease mutex => exact (h.inSection fun _ h _ => h.release mutex).weaken And.left
  | poolCreate base size => exact (h.inSection fun _ h _ => h.poolCreate base size).weaken And.left
  | poolDelete pool => exact (h.inSection fun _ h _ => h.poolDelete pool).weaken And.left
  | allocate pool size => exact (h.inSection fun _ h _ => h.allocate pool size).weaken And.left
  | allocateBlocking pool size =>
    exact (h.allocateBlocking (fun _ => pool) (fun _ => size) .address trivial).weaken And.left
  | free pool address => exact (h.inSection fun _ h _ => h.free pool address).weaken And.left
  | bufferAcquire =>
    exact (h.allocateBlocking (·.sharedPool) (·.config.bufferSize) .address trivial).weaken And.left
  | bufferRelease address =>
    exact (h.inSection fun _ h _ => h.free _ address).weaken And.left
  | tick => exact (hreply (h.raise .tick)).weaken And.left
  | ioComplete id result => exact (hreply (h.raise (.ioComplete id result))).weaken And.left
  | poll => exact (hreply h).weaken And.left
  | awaitIo issue => exact (h.inSection fun _ h _ => h.awaitIo issue).weaken And.left
  | shutdown => exact (h.inSection fun _ h _ => h.shutdown).weaken And.left

/-- A call that was suspended goes on. -/
theorem Serving.resumeCall {pending : Pending ε}
    (h : k.Serving (fun pool => W pool ∧ ¬ pending.Retries pool) me t)
    (hfits : pending.Fits k.pools me) : GoesOn W (k.resumeCall pending) := by
  cases pending with
  | reply answer =>
    exact (h.weaken fun hpool => ⟨hpool, fun hretries => hretries⟩).goesOn_reply answer
  | acquire mutex thread =>
    obtain rfl := hfits
    exact (h.weaken fun hpool => ⟨hpool, fun hretries => hretries⟩).finishAcquire mutex
  | allocate pool size purpose =>
    -- The thread itself was the reason to hope for this pool, so the attempt must renew it.
    have h' : k.Serving (fun other => W other ∧ other ≠ pool) me t :=
      h.weaken fun hpool => ⟨hpool.1, Ne.symm hpool.2⟩
    exact h'.allocateBlocking (.inr hfits.1) hfits.2
  | awaitIo thread =>
    have h' : k.Serving W me t := h.weaken fun hpool => ⟨hpool, fun hretries => hretries⟩
    exact h'.orRefuse fun _ _ => h'.goesOn_reply _

/-! ## Every step -/

theorem Posture.outside (h : k.Posture me)
    (hactivity : ∀ pending, k.activity ≠ .resuming pending) : k.gate.inside = false := by
  rw [← Bool.not_eq_true, h.gate]
  exact not_exists.mpr hactivity

/-- Only a thread inside the section tries a pool again. -/
theorem Runs.of_not_resuming (h : k.Runs (fun pool => W pool ∧ ¬ k.activity.Retries pool) me t)
    (hactivity : ∀ pending, k.activity ≠ .resuming pending) : k.Runs W me t := by
  refine ⟨h.going, h.settled.weaken fun hpool => ⟨hpool, ?_⟩, h.current, h.record, h.running⟩
  cases hcase : k.activity with
  | resuming pending => exact absurd hcase (hactivity pending)
  | _ => exact fun hretries => hretries

theorem Sound.calling (h : k.Sound W) (hprogram : k.activity = .program) :
    k.Halted ∨ ∃ me t, k.Calling W me t := by
  refine h.imp_right ?_
  rintro ⟨me, t, hruns, hrank, hposture⟩
  have hactivity : ∀ pending, k.activity ≠ .resuming pending := by simp [hprogram]
  refine ⟨me, t, hruns.of_not_resuming hactivity, hrank, hposture.outside hactivity, ?_⟩
  intro hidle
  have hrests := hposture.rests hidle
  simp [hprogram] at hrests

theorem Sound.call (h : k.Sound W) (hprogram : k.activity = .program) (request : Call ε) :
    GoesOn (fun pool => W pool ∧ ¬ request.Drops k pool) (k.call request) := by
  rcases h.calling hprogram with hhalted | ⟨me, t, hcalling⟩
  · obtain ⟨k', heq, hhalted'⟩ := hhalted.call request
    exact ⟨k', heq, .inl hhalted'⟩
  · exact hcalling.call request

theorem Sound.exit (h : k.Sound W) (hprogram : k.activity = .program)
    (hmain : k.sched.current ≠ some k.main) : GoesOn W k.exit := by
  rcases h.calling hprogram with hhalted | ⟨me, t, hcalling⟩
  · obtain ⟨k', heq, hhalted'⟩ := hhalted.exit
    exact ⟨k', heq, .inl hhalted'⟩
  · refine hcalling.toRuns.exit hcalling.outside ?_ hcalling.program
    rintro rfl
    exact hmain hcalling.current

theorem Sound.raise (h : k.Sound W) (interrupt : Interrupt) : (k.raise interrupt).Sound W := by
  rcases h with hhalted | ⟨me, t, hruns, hrank, hposture⟩
  · exact .inl (hhalted.raise interrupt)
  · exact .inr ⟨me, t, ⟨hruns.going, hruns.settled, hruns.current, hruns.record, hruns.running⟩,
      hrank, hposture.gate, hposture.fits, hposture.rests⟩

/-- Outside the section the running thread may come to do something else. -/
theorem Runs.comes_to (h : k.Runs (fun pool => W pool ∧ ¬ k.activity.Retries pool) me t)
    (hrank : k.sched.Unrivalled t.priority) (hposture : k.Posture me)
    (hold : ∀ pending, k.activity ≠ .resuming pending) {activity : Activity ε}
    (hnew : ∀ pending, activity ≠ .resuming pending)
    (hrests : me = k.idle → activity = .resting ∨ activity = .delivering .rest) :
    ({ k with activity } : Kernel ε).Sound W := by
  have hruns := h.of_not_resuming hold
  have hmoved : ({ k with activity } : Kernel ε).Runs W me t :=
    ⟨hruns.going, hruns.settled, hruns.current, hruns.record, hruns.running⟩
  exact hmoved.sound_outside hrank (hposture.outside hold) hnew hrests

theorem Sound.advance (h : k.Sound W) : GoesOn W k.advance := by
  rcases h with hhalted | ⟨me, t, hruns, hrank, hposture⟩
  · obtain ⟨k', heq, hhalted'⟩ := hhalted.advance
    exact ⟨k', heq, .inl hhalted'⟩
  · have hrests := hposture.rests
    rw [Kernel.advance]
    cases hactivity : k.activity with
    | program => exact ⟨k, rfl, .inr ⟨me, t, hruns, hrank, hposture⟩⟩
    | arriving arrival =>
      rw [hactivity] at hrests
      exact ⟨_, rfl, hruns.comes_to hrank hposture (by simp [hactivity]) (by simp)
        fun hidle => by simpa using hrests hidle⟩
    | resting =>
      show GoesOn W (if k.line.pending.isEmpty then _ else _)
      split
      · exact ⟨k, rfl, .inr ⟨me, t, hruns, hrank, hposture⟩⟩
      · exact ⟨_, rfl, hruns.comes_to hrank hposture (by simp [hactivity]) (by simp)
          fun _ => .inr rfl⟩
    | resuming pending =>
      have hgate := hposture.gate
      rw [hactivity] at hgate hruns hrests
      have hserving : k.Serving (fun pool => W pool ∧ ¬ pending.Retries pool) me t :=
        ⟨hruns, hrank, hgate.mpr ⟨pending, rfl⟩, fun hidle => by simpa using hrests hidle⟩
      exact hserving.resumeCall (hposture.fits pending hactivity)
    | delivering destination =>
      have hnot : ∀ pending, k.activity ≠ .resuming pending := by simp [hactivity]
      rw [hactivity] at hrests
      have hleaving : k.Leaving W me t destination :=
        ⟨hruns.of_not_resuming hnot, hrank, fun hidle => by simpa using hrests hidle⟩
      exact hleaving.deliver (hposture.outside hnot)

/-- Whoever is on its way to its program may get there at once. -/
theorem Sound.bypass (h : k.Sound W) {answer : Answer}
    (hactivity : k.activity = .delivering (.reply answer)) :
    (k.arrive (.returned answer)).Sound W := by
  rcases h with hhalted | ⟨me, t, hruns, hrank, hposture⟩
  · exact .inl (hhalted.reach (.reply answer))
  · have hrests := hposture.rests
    rw [hactivity] at hrests
    exact hruns.comes_to hrank hposture (by simp [hactivity]) (by simp)
      fun hidle => by simpa using hrests hidle

end Kernel

end CoopKernel
