import CoopKernel.Proofs.Kernel.Runs
import CoopKernel.Proofs.Kernel.TurnsOfCalls

/-!
# What every move does

A move of a sound kernel is one of three things (`Kernel.Effect`): nothing happens to any thread,
and at most the running one comes to do something else (`Kernel.Drift`); the running thread has a
turn (`Kernel.Turn`); or the kernel is shut down. Apart from that, a move may put interrupts on the
line (`Move.raises`) and take one off (`Kernel.takes`), and the clock counts the ticks among those
that are taken (`Kernel.Moved`).

That every move that a sound kernel makes is so is `Sound.moved`. All that is proved about runs
later is proved from it.
-/

namespace CoopKernel

variable {ε : Type}

/-- The interrupts that a move puts on the line, if the kernel is not shut down. -/
def Move.raises : Move ε → List Interrupt
  | .raise interrupt => [interrupt]
  | .call .tick => [.tick]
  | .call (.ioComplete thread result) => [.ioComplete thread result]
  | .call (.awaitIo (.raising interrupts)) => interrupts
  | _ => []

/-- Whether a call is refused for its arguments, before it enters the section. -/
def Call.senseless : Call ε → Bool
  | .threadCreate _ stackSize priority => decide (stackSize = 0 ∨ priority = .idle)
  | .sleep timeout => decide (timeout = .infinite)
  | _ => false

/-- What the running thread does when it gets to a destination. -/
def Destination.activity : Destination ε → Activity ε
  | .reply answer => .arriving (.returned answer)
  | .start entry => .arriving (.started entry)
  | .rest => .resting

namespace Kernel

variable {W : PoolId → Prop} {k k' m : Kernel ε} {me : ThreadId} {t : Thread (Position ε)}
  {move : Move ε} {ticking : Bool} {events : List Trace.Event} {destination : Destination ε}

/-- Processes an interrupt inside the section. -/
def dispatch (k : Kernel ε) (destination : Destination ε) :
    Interrupt → Except Invariant (Kernel ε)
  | .tick => k.dispatchTick destination
  | .ioComplete thread result => k.dispatchResult destination thread result

/-- The interrupt that a move takes off the line and dispatches: the oldest one, if the running
thread is on its way out of the section (`deliver_eq`). -/
def takes (k : Kernel ε) : Move ε → List Interrupt
  | .advance =>
    match k.activity with
    | .delivering _ => k.line.pending.head?.toList
    | _ => []
  | _ => []

/-- What the running thread comes to do in a move that does nothing to any thread. -/
inductive Drift (k : Kernel ε) (move : Move ε) : Activity ε → Prop
  | stays : Drift k move k.activity
  | begins {arrival : Arrival ε} (hactivity : k.activity = .arriving arrival) :
    Drift k move .program
  | rouses (hactivity : k.activity = .resting) : Drift k move (.delivering .rest)
  /-- It gets to where it was going, because nothing is left to deliver. -/
  | reaches {destination : Destination ε} (hactivity : k.activity = .delivering destination)
    (hdry : k.stopped = false → k.line.pending = []) :
    Drift k move destination.activity
  /-- It gets back to its program past what is pending. -/
  | bypasses {answer : Answer} (hmove : move = .bypass)
    (hactivity : k.activity = .delivering (.reply answer)) :
    Drift k move (.arriving (.returned answer))
  /-- Its call is refused at once. -/
  | refused {request : Call ε} {status : Status} (hmove : move = .call request)
    (hsenseless : request.senseless = true) :
    Drift k move (.arriving (.returned (.error status)))
  /-- Its call is refused because the kernel is shut down. -/
  | barred (hstopped : k.stopped = true) (answer : Answer) :
    Drift k move (.delivering (.reply answer))
  /-- Its call ends because it called the kernel from inside the section. -/
  | unwinds (hmove : move = .call (.awaitIo .reentrant)) (invariant : Invariant) :
    Drift k move (.arriving (.unwound invariant))

/-- What a move does to the threads. -/
inductive Effect (move : Move ε) (k k' : Kernel ε) : Prop
  | still (hsched : k'.sched = k.sched) (hpools : k'.pools = k.pools)
    (hstopped : k'.stopped = k.stopped) (hjournal : k'.journal = k.journal)
    (hdrift : Drift k move k'.activity) (hfixed : k'.fixed = k.fixed)
    (hentries : k'.entries = k.entries)
  | turn {me : ThreadId} {ticking : Bool} {events : List Trace.Event}
    (hgoing : k.stopped = false) (hcurrent : k.sched.current = some me)
    (hturn : Turn move ticking { k with line := k'.line } k' me events)
  | shutdown (hgoing : k.stopped = false) (hcurrent : k.sched.current = some k.main)
    (hstopped : k'.stopped = true) (hpools : k'.pools = k.pools) (hjournal : k'.journal = k.journal)
    (hsched : k'.sched =
      (k.sched.threads.handles.filter (· != k.main)).foldl Scheduler.forgetPosition k.sched)
    (answer : Answer) (hactivity : k'.activity = .delivering (.reply answer))
    (hmove : move = .call .shutdown) (hfixed : k'.fixed = k.fixed)
    (hentries : k'.entries = k.entries)

/-- What a move does to the line, the clock and the threads. -/
structure Moved (move : Move ε) (k k' : Kernel ε) : Prop where
  /-- What was pending and what is raised is taken or pending, in this order. -/
  line : k.stopped = false → k.line.pending ++ move.raises = k.takes move ++ k'.line.pending
  ticks : k.stopped = false → k'.sched.ticks = k.sched.ticks + (k.takes move).count .tick
  effect : Effect move k k'

/-! ## Deliveries -/

/-- What a turn does is not a matter of how the gate stood when it began. -/
theorem Turn.of_gate (h : Turn move ticking k k' me events) (gate : CriticalSection) :
    Turn move ticking { k with gate } k' me events :=
  ⟨h.line, h.stopped, h.fixed, h.ticks, h.underway, h.journal, h.own, h.others, h.handoffs, h.waits,
    h.results, h.explained, h.keeps, h.enrols, h.creations⟩

/-- The kernel after a tick has been counted and before the running thread gives way. -/
def ticked (k : Kernel ε) (s : Scheduler (Position ε)) (report : TickReport) : Kernel ε :=
  { k with
    sched := s
    journal := k.journal ++ (.tick report.tick :: report.woken.map Trace.Event.wake).map
      fun event => { event, tick := s.ticks } }

/-- A tick that is counted is reported, with those whom it woke, and then the processor is given
away. -/
theorem dispatchTick_eq {report : TickReport} {s' : Scheduler (Position ε)}
    (heq : k.sched.tick = .ok (report, s')) (destination : Destination ε) :
    k.dispatchTick destination = (k.ticked s' report).yield (.delivering destination) := by
  have hticked : report.woken.foldl (fun k thread => k.emit (.wake thread))
      (({ k with sched := s' } : Kernel ε).emit (.tick report.tick)) = k.ticked s' report := by
    rw [foldl_emit_journal]
    simp [ticked, emit]
  rw [Kernel.dispatchTick, heq, ← hticked]
  rfl

/-- The running thread waits for nothing, so that no tick counts for it. -/
theorem Runs.record_tick (h : k.Runs W me t) {report : TickReport} {s' : Scheduler (Position ε)}
    (heq : k.sched.tick = .ok (report, s')) : s'.threads.get? me = some t := by
  rw [h.settled.sched.get?_tick heq, h.record, Option.map_some,
    Thread.chime_of_untimed (by simp [h.waitingFor])]

/-- After a tick the running thread gives way on its way to the destination. -/
theorem Runs.dispatchTick_ends (h : k.Runs W me t)
    (hrun : k.dispatchTick destination = .ok k') :
    ∃ report s', k.sched.tick = .ok (report, s') ∧ (k.ticked s' report).Ends k' me
      { t with state := .ready, position := some (.delivering destination) } := by
  obtain ⟨report, s', heq, horderly, hroused, -⟩ := h.settled.sched.tick
  rw [dispatchTick_eq heq] at hrun
  exact ⟨report, s', heq, yield_ends (k := k.ticked s' report) horderly
    (hroused.current.trans h.current) (h.record_tick heq) h.running hrun⟩

theorem Runs.turn_dispatchTick (h : k.Runs W me t)
    (hrun : k.dispatchTick destination = .ok k') : ∃ events, Turn move true k k' me events := by
  obtain ⟨report, s', heq, hends⟩ := h.dispatchTick_ends hrun
  obtain ⟨_, _, hsame, -, -, hticks⟩ := h.settled.sched.tick
  obtain ⟨rfl, rfl⟩ := Prod.mk.inj (Except.ok.inj (heq.symm.trans hsame))
  have hplain : ∀ event ∈ .tick report.tick :: report.woken.map Trace.Event.wake,
      event.isPlain = true := by
    simp [Trace.Event.isPlain]
  have hmidway : Midway true k (k.ticked s' report) me
      (.tick report.tick :: report.woken.map Trace.Event.wake) := by
    refine .of_plain hplain rfl rfl rfl hticks rfl (.of_eq rfl) (.of_eq rfl (by simp))
      fun j _ => ?_
    show Fate _ _ _ _ (s'.threads.get? j)
    rw [h.settled.sched.get?_tick heq]
    exact .chimed rfl
  exact ⟨_, hmidway.plain_turn hplain (by simp [Move.Explains]) h.record hends (.went _ rfl)⟩

/-- The kernel after a result has been noted and its thread woken. -/
def told (k : Kernel ε) (id : ThreadId) (p : Priority) (result : Int32) : Kernel ε :=
  ({ k with sched := informed k.sched id p result } : Kernel ε).emit (.ioDone id result)

/-- After a result the running thread goes on to the destination, or gives way first if the thread
that got the result outranks it. A result that nobody waits for is dropped. -/
theorem Runs.dispatchResult_ends (h : k.Runs W me t) {id : ThreadId} {result : Int32}
    (hrun : k.dispatchResult destination id result = .ok k') :
    (k.awaitsIo id = false ∧ k' = k.resume (.delivering destination)) ∨
      ∃ u m, k.sched.threads.get? id = some u ∧ u.state = .waiting ∧ u.waitingFor = some .io ∧
        (m = k.told id u.priority result ∨ m = (k.told id u.priority result).emit (.preempt id)) ∧
        m.Ends k' me { t with state := .ready, position := some (.delivering destination) } := by
  rw [Kernel.dispatchResult] at hrun
  cases hawaits : k.awaitsIo id with
  | false =>
    rw [hawaits] at hrun
    exact .inl ⟨rfl, (Except.ok.inj hrun).symm⟩
  | true =>
    obtain ⟨u, hu, hwaiting, hreason⟩ := awaitsIo_iff.mp hawaits
    obtain ⟨hwake, horderly, -⟩ := informed_spec h.settled.sched hu hreason result
    have hne : me ≠ id := Ne.symm (h.ne_of_not_running hu (by simp [hwaiting]))
    let woken := k.told id u.priority result
    have hrecord : woken.sched.threads.get? me = some t :=
      (get?_informed k.sched id me u.priority result).trans ((if_neg hne).trans h.record)
    have hcurrent : woken.sched.current = some me := h.current
    simp only [hawaits, Bool.not_true, Bool.false_eq_true, if_false] at hrun
    rw [hwake] at hrun
    change (woken.sched.outranksCurrent id >>= _) = _ at hrun
    obtain ⟨outranks, -, hrun⟩ := bind_eq_ok hrun
    cases outranks with
    | false =>
      obtain rfl := Except.ok.inj hrun
      exact .inr ⟨u, woken, hu, hwaiting, hreason, .inl rfl,
        resume_ends (sole_of_orderly horderly hcurrent) hrecord h.running _⟩
    | true =>
      exact .inr ⟨u, woken.emit (.preempt id), hu, hwaiting, hreason, .inr rfl,
        yield_ends (k := woken.emit (.preempt id)) horderly hcurrent hrecord h.running hrun⟩

theorem Runs.turns_dispatchResult (h : k.Runs W me t)
    (hactivity : k.activity = .delivering destination) (id : ThreadId) (result : Int32) :
    Turns move k me (k.dispatchResult destination id result) := by
  intro k' hrun
  rcases h.dispatchResult_ends hrun with ⟨-, rfl⟩ | ⟨u, m, hu, -, hreason, hwoken, hends⟩
  · exact ⟨[], (Midway.refl k me).plain_turn (by simp) (by simp) h.record
      (resume_ends h.sole h.record h.running _) (.went _ rfl)⟩
  · have hothers : ∀ j, Fate false [.ioDone id result] j (k.sched.threads.get? j)
        ((k.told id u.priority result).sched.threads.get? j) := by
      intro j
      show Fate _ _ _ _ ((informed k.sched id u.priority result).threads.get? j)
      rw [get?_informed]
      split
      · next hj =>
        rw [hj, hu]
        exact .informed hreason (by simp)
      · exact .kept rfl
    rcases hwoken with rfl | rfl
    · have hmidway : Midway false k (k.told id u.priority result) me [.ioDone id result] :=
        ⟨rfl, rfl, rfl, rfl, rfl, fun j _ => hothers j, by simp, fun _ => ⟨rfl, _, hactivity⟩,
          .of_eq rfl, .of_eq rfl (by simp), by simp⟩
      exact ⟨_, hmidway.turn h.record hends (.went _ rfl) (by simp) (by simp [Move.Explains])⟩
    · have hmidway : Midway false k ((k.told id u.priority result).emit (.preempt id)) me
          [.ioDone id result, .preempt id] :=
        ⟨rfl, rfl, rfl, rfl, by simp [told, emit], fun j _ => (hothers j).mono _, by simp,
          fun _ => ⟨rfl, _, hactivity⟩, .of_eq rfl, .of_eq rfl (by simp), by simp⟩
      exact ⟨_, hmidway.turn h.record hends (.went _ rfl) (by simp) (by simp [Move.Explains])⟩

/-! ## Waiting for a result -/

theorem foldl_raise_line (k : Kernel ε) (interrupts : List Interrupt) :
    interrupts.foldl raise k =
      { k with line := { pending := k.line.pending ++ interrupts } } := by
  induction interrupts generalizing k with
  | nil => simp
  | cons interrupt rest ih =>
    rw [List.foldl_cons, ih]
    simp [raise, Line.raise]

theorem Runs.turns_awaitIo (h : k.Runs W me t) (interrupts : List Interrupt) :
    Turns (.call (.awaitIo (.raising interrupts)))
      { k with line := { pending := k.line.pending ++ interrupts } } me
      (k.awaitIo (.raising interrupts)) := by
  rw [Kernel.awaitIo, h.me_eq]
  have hmutex : WaitReason.io ≠ .mutex := by simp
  have hmemory : WaitReason.io ≠ .memory := by simp
  let raised : Kernel ε := { k with line := { pending := k.line.pending ++ interrupts } }
  have hruns : raised.Runs W me t := ⟨h.going, h.settled, h.current, h.record, h.running⟩
  let waiting : Kernel ε := { raised with sched := k.sched.suspended me .io .infinite }
  have hplain : ∀ event ∈ ([] : List Trace.Event), event.isPlain = true := by simp
  show Turns (.call (.awaitIo (.raising interrupts))) raised me (do
    let sched ← (interrupts.foldl Kernel.raise k).sched.block me .io .infinite
    { interrupts.foldl Kernel.raise k with sched }.switchNext (.inside (.awaitIo me)))
  rw [foldl_raise_line]
  show Turns _ raised me (k.sched.block me .io .infinite >>= _)
  rw [Scheduler.block_eq h.record]
  exact hruns.turns_suspend (m := waiting) hmutex hmemory (fun _ => ⟨_, rfl⟩) .infinite hplain
    (by simp) rfl rfl rfl rfl rfl (by simp [waiting, raised]) rfl _ rfl

/-! ## Calls -/

theorem Turns.moved {outcome : Except Invariant (Kernel ε)} {line : Line} {gate : CriticalSection}
    (h : Turns move { k with line, gate } me outcome) (hrun : outcome = .ok k')
    (hgoing : k.stopped = false) (hcurrent : k.sched.current = some me)
    (hnone : (k.takes move).count .tick = 0)
    (hline : k.line.pending ++ move.raises = k.takes move ++ line.pending) : Moved move k k' := by
  obtain ⟨events, hturn⟩ := h k' hrun
  have hsame : Turn move false { k with line := k'.line } k' me events := by
    rw [hturn.line]
    exact hturn.of_gate k.gate
  refine ⟨fun _ => by rw [hturn.line, hline], fun _ => ?_, .turn hgoing hcurrent hsame⟩
  rw [hturn.ticks, hnone]
  rfl

theorem Calling.inSection_eq (h : k.Calling W me t)
    (body : Kernel ε → Except Invariant (Kernel ε)) :
    k.inSection body = body { k with gate := { inside := true } } := by
  rw [Kernel.inSection, enter_eq h.outside]
  show (if k.stopped = true then _ else body _) = _
  rw [if_neg (by simp [h.going])]

theorem Calling.serving (h : k.Calling W me t) :
    ({ k with gate := { inside := true } } : Kernel ε).Serving W me t :=
  ⟨⟨h.going, h.settled, h.current, h.record, h.running⟩, h.unrivalled, rfl, h.program⟩

/-- A call that begins by entering the section is a turn if its rest is one. -/
theorem Calling.moved_inSection (h : k.Calling W me t) {request : Call ε} {line : Line}
    {body : Kernel ε → Except Invariant (Kernel ε)}
    (hrun : ({ k with line } : Kernel ε).inSection body = .ok k')
    (hline : line.pending = k.line.pending ++ Move.raises (.call request))
    (hbody : ∀ entered : Kernel ε, entered.Serving W me t →
      Turns (.call request) entered me (body entered)) : Moved (.call request) k k' := by
  have hcalling : ({ k with line } : Kernel ε).Calling W me t :=
    ⟨⟨h.going, h.settled, h.current, h.record, h.running⟩, h.unrivalled, h.outside, h.program⟩
  rw [hcalling.inSection_eq] at hrun
  exact Turns.moved (k := k) (hbody _ hcalling.serving) hrun h.going h.current rfl hline.symm

theorem Calling.moved_refuseAtOnce {request : Call ε} {status : Status}
    (hraises : Move.raises (.call request) = []) (hsenseless : request.senseless = true) :
    Moved (.call request) k (k.refuseAtOnce status) := by
  refine ⟨fun _ => ?_, fun _ => rfl, .still rfl rfl rfl rfl (.refused rfl hsenseless) rfl rfl⟩
  rw [hraises, List.append_nil]
  rfl

theorem Calling.moved_awaitIo (h : k.Calling W me t) {issue : Issue}
    (hrun : k.call (.awaitIo issue) = .ok k') : Moved (.call (.awaitIo issue)) k k' := by
  change k.inSection _ = _ at hrun
  rw [h.inSection_eq] at hrun
  cases issue with
  | raising interrupts =>
    exact Turns.moved (k := k) (h.serving.turns_awaitIo interrupts) hrun h.going h.current rfl rfl
  | reentrant =>
    -- The section is held by the thread itself.
    rw [Kernel.awaitIo, h.serving.me_eq] at hrun
    obtain rfl := Except.ok.inj hrun
    refine ⟨fun _ => ?_, fun _ => rfl, .still rfl rfl rfl rfl (.unwinds rfl _) rfl rfl⟩
    show k.line.pending ++ [] = _
    rw [List.append_nil]
    rfl

theorem Calling.moved_shutdown (h : k.Calling W me t) (hrun : k.call .shutdown = .ok k') :
    Moved (.call .shutdown) k k' := by
  change k.inSection _ = _ at hrun
  rw [h.inSection_eq, Kernel.shutdown] at hrun
  split at hrun
  · exact Turns.moved (k := k) (h.serving.turns_reply _) hrun h.going h.current rfl
      (List.append_nil _)
  · next hmain =>
    obtain rfl := Except.ok.inj hrun
    exact ⟨fun _ => List.append_nil _, fun _ => ticks_foldl_forgetPosition _ _,
      .shutdown h.going (not_not.mp hmain) rfl rfl rfl rfl _ rfl rfl rfl rfl⟩

theorem Calling.moved_call (h : k.Calling W me t) {request : Call ε}
    (hrun : k.call request = .ok k') : Moved (.call request) k k' := by
  have hsame : k.line.pending = k.line.pending ++ [] := (List.append_nil _).symm
  cases request with
  | threadCreate entry stackSize priority =>
    rw [Kernel.call] at hrun
    split at hrun
    · next hsenseless =>
      obtain rfl := Except.ok.inj hrun
      exact moved_refuseAtOnce rfl (decide_eq_true hsenseless)
    · exact h.moved_inSection hrun hsame fun _ h =>
        h.turns_allocateBlocking _ _ _ fun _ => .inl rfl
  | sleep timeout =>
    rw [Kernel.call] at hrun
    split at hrun
    · next hsenseless =>
      obtain rfl := Except.ok.inj hrun
      exact moved_refuseAtOnce rfl (decide_eq_true hsenseless)
    · exact h.moved_inSection hrun hsame fun _ h => h.turns_sleep _
  | threadActivate id => exact h.moved_inSection hrun hsame fun _ h => h.turns_activate _
  | threadTerminate id => exact h.moved_inSection hrun hsame fun _ h => h.turns_terminate _
  | threadDelete id => exact h.moved_inSection hrun hsame fun _ h => h.turns_delete _
  | mutexCreate => exact h.moved_inSection hrun hsame fun _ h => h.turns_mutexCreate
  | mutexDelete mutex => exact h.moved_inSection hrun hsame fun _ h => h.turns_mutexDelete _
  | mutexAcquire mutex timeout => exact h.moved_inSection hrun hsame fun _ h => h.turns_acquire _ _
  | mutexRelease mutex => exact h.moved_inSection hrun hsame fun _ h => h.turns_release _
  | poolCreate base size => exact h.moved_inSection hrun hsame fun _ h => h.turns_poolCreate _ _
  | poolDelete pool => exact h.moved_inSection hrun hsame fun _ h => h.turns_poolDelete _
  | allocate pool size => exact h.moved_inSection hrun hsame fun _ h => h.turns_allocate _ _
  | allocateBlocking pool size =>
    exact h.moved_inSection hrun hsame fun _ h =>
      h.turns_allocateBlocking _ _ _ (absurd · Bool.false_ne_true)
  | free pool address => exact h.moved_inSection hrun hsame fun _ h => h.turns_free _ _
  | bufferAcquire =>
    exact h.moved_inSection hrun hsame fun _ h =>
      h.turns_allocateBlocking _ _ _ (absurd · Bool.false_ne_true)
  | bufferRelease address => exact h.moved_inSection hrun hsame fun _ h => h.turns_free _ _
  | tick => exact h.moved_inSection hrun rfl fun _ h => h.turns_reply _
  | ioComplete id result => exact h.moved_inSection hrun rfl fun _ h => h.turns_reply _
  | poll => exact h.moved_inSection hrun hsame fun _ h => h.turns_reply _
  | awaitIo issue => exact h.moved_awaitIo hrun
  | shutdown => exact h.moved_shutdown hrun

/-! ## What the kernel does by itself -/

theorem reach_eq (k : Kernel ε) (destination : Destination ε) :
    k.reach destination = { k with activity := destination.activity } := by
  cases destination <;> rfl

/-- Outside the section the kernel only changes what the running thread is doing. -/
theorem advance_eq_ok (houtside : ∀ pending, k.activity ≠ .resuming pending)
    (hnot : ∀ destination, k.activity ≠ .delivering destination) (hrun : k.advance = .ok k') :
    ∃ activity, k' = { k with activity } ∧ Drift k .advance activity := by
  rw [Kernel.advance] at hrun
  cases hactivity : k.activity with
  | program =>
    rw [hactivity] at hrun
    obtain rfl := Except.ok.inj hrun
    exact ⟨k.activity, rfl, .stays⟩
  | arriving arrival =>
    rw [hactivity] at hrun
    obtain rfl := Except.ok.inj hrun
    exact ⟨.program, rfl, .begins hactivity⟩
  | resting =>
    rw [hactivity] at hrun
    change (if k.line.pending.isEmpty then _ else _) = _ at hrun
    split at hrun
    · obtain rfl := Except.ok.inj hrun
      exact ⟨k.activity, rfl, .stays⟩
    · obtain rfl := Except.ok.inj hrun
      exact ⟨.delivering .rest, rfl, .rouses hactivity⟩
  | resuming pending => exact absurd hactivity (houtside pending)
  | delivering destination => exact absurd hactivity (hnot destination)

theorem Runs.moved_resumeCall (h : k.Runs W me t) {pending : Pending ε}
    (hactivity : k.activity = .resuming pending) (hfits : pending.Fits k.pools me)
    (hrun : k.resumeCall pending = .ok k') : Moved .advance k k' := by
  have htakes : k.takes .advance = [] := by rw [takes, hactivity]
  have hmoved : Turns .advance k me (k.resumeCall pending) → Moved .advance k k' := fun hturns =>
    Turns.moved (k := k) hturns hrun h.going h.current (by rw [htakes]; rfl)
      (by rw [htakes]; exact List.append_nil _)
  cases pending with
  | reply answer => exact hmoved (h.turns_reply answer)
  | acquire mutex thread =>
    obtain rfl := hfits
    exact hmoved (h.turns_finishAcquire mutex)
  | allocate pool size purpose =>
    refine hmoved (h.turns_allocateBlocking pool size purpose fun hstack => ?_)
    cases purpose with
    | address => cases hstack
    | stack _ _ => exact .inr ⟨_, by rw [hactivity]; rfl, rfl⟩
  | awaitIo thread => exact hmoved (h.turns_orRefuse fun _ _ => h.turns_reply _)

/-- Whatever is taken off the line is dispatched. -/
theorem deliver_eq (hgoing : k.stopped = false) (houtside : k.gate.inside = false)
    {interrupt : Interrupt} {rest : List Interrupt}
    (hpending : k.line.pending = interrupt :: rest) :
    k.deliver destination =
      dispatch { k with line := { pending := rest }, gate := { inside := true } } destination
        interrupt := by
  let taken : Kernel ε := { k with line := { pending := rest } }
  rw [Kernel.deliver, Line.take?, hpending]
  show (taken.enter >>= _) = _
  rw [enter_eq (k := taken) houtside]
  show (if k.stopped = true then _ else _) = _
  rw [if_neg (by simp [hgoing])]
  cases interrupt <;> rfl

theorem Runs.moved_deliver (h : k.Runs W me t) (houtside : k.gate.inside = false)
    (hactivity : k.activity = .delivering destination) (hrun : k.deliver destination = .ok k') :
    Moved .advance k k' := by
  have htakes : k.takes .advance = k.line.pending.head?.toList := by rw [takes, hactivity]
  cases hpending : k.line.pending with
  | nil =>
    rw [Kernel.deliver, Line.take?, hpending] at hrun
    rw [hpending] at htakes
    obtain rfl := Except.ok.inj hrun
    rw [reach_eq]
    refine ⟨fun _ => ?_, fun _ => ?_, .still rfl rfl rfl rfl (.reaches hactivity fun _ => hpending)
      rfl rfl⟩
    · rw [htakes]
      exact List.append_nil _
    · rw [htakes]
      rfl
  | cons interrupt rest =>
    rw [deliver_eq h.going houtside hpending] at hrun
    rw [hpending] at htakes
    let entered : Kernel ε := { k with line := { pending := rest }, gate := { inside := true } }
    have hruns : entered.Runs W me t := ⟨h.going, h.settled, h.current, h.record, h.running⟩
    have hline : k.line.pending ++ Move.raises (.advance : Move ε) = k.takes .advance ++ rest := by
      rw [htakes, hpending]
      exact List.append_nil _
    cases interrupt with
    | tick =>
      obtain ⟨events, hturn⟩ : ∃ events, Turn .advance true entered k' me events :=
        hruns.turn_dispatchTick hrun
      have hsame : Turn .advance true { k with line := k'.line } k' me events := by
        rw [hturn.line]
        exact hturn.of_gate k.gate
      refine ⟨fun _ => by rw [hturn.line, hline], fun _ => ?_, .turn h.going h.current hsame⟩
      rw [hturn.ticks, htakes]
      rfl
    | ioComplete id result =>
      refine Turns.moved (k := k) (hruns.turns_dispatchResult hactivity id result) hrun h.going
        h.current ?_ hline
      rw [htakes]
      rfl

/-! ## After a shutdown -/

theorem Halted.effect_inSection (h : k.Halted) {line : Line}
    {body : Kernel ε → Except Invariant (Kernel ε)}
    (hrun : ({ k with line } : Kernel ε).inSection body = .ok k') : Effect move k k' := by
  rw [Kernel.inSection, enter_eq (k := { k with line }) h.gate] at hrun
  change (if k.stopped = true then _ else _) = _ at hrun
  rw [if_pos h.stopped] at hrun
  obtain rfl := Except.ok.inj hrun
  exact .still rfl rfl rfl rfl (.barred h.stopped _) rfl rfl

theorem Halted.effect_call (h : k.Halted) {request : Call ε} (hrun : k.call request = .ok k') :
    Effect (.call request) k k' := by
  -- Two calls look at their arguments before they are turned away in the section.
  cases request with
  | threadCreate entry stackSize priority =>
    rw [Kernel.call] at hrun
    split at hrun
    · next hsenseless =>
      obtain rfl := Except.ok.inj hrun
      exact .still rfl rfl rfl rfl (.refused rfl (decide_eq_true hsenseless)) rfl rfl
    · exact h.effect_inSection hrun
  | sleep timeout =>
    rw [Kernel.call] at hrun
    split at hrun
    · next hsenseless =>
      obtain rfl := Except.ok.inj hrun
      exact .still rfl rfl rfl rfl (.refused rfl (decide_eq_true hsenseless)) rfl rfl
    · exact h.effect_inSection hrun
  | _ => exact h.effect_inSection hrun

theorem Halted.effect_exit (h : k.Halted) (hrun : k.exit = .ok k') : Effect move k k' := by
  rw [Kernel.exit, enter_eq h.gate] at hrun
  simp only [bind, Except.bind, h.stopped] at hrun
  obtain rfl := Except.ok.inj hrun
  exact .still rfl rfl h.stopped.symm rfl .stays rfl rfl

/-- An interrupt is taken off the line and forgotten, and the running thread gets where it is
going. -/
theorem Halted.deliver_eq (h : k.Halted) (destination : Destination ε) :
    k.deliver destination = .ok { k with
      line := { pending := k.line.pending.tail }
      activity := destination.activity } := by
  cases hpending : k.line.pending with
  | nil =>
    have hline : k.line = { pending := [] } := congrArg Line.mk hpending
    rw [Kernel.deliver, Line.take?, hpending, reach_eq, hline]
    rfl
  | cons interrupt rest =>
    let taken : Kernel ε := { k with line := { pending := rest } }
    have hgate : k.gate = { inside := false } := congrArg CriticalSection.mk h.gate
    rw [Kernel.deliver, Line.take?, hpending]
    show (taken.enter >>= _) = _
    rw [enter_eq (k := taken) h.gate]
    show (if k.stopped = true then _ else _) = _
    rw [if_pos h.stopped, reach_eq, hgate]
    rfl

theorem Halted.effect_deliver (h : k.Halted) (hactivity : k.activity = .delivering destination)
    (hrun : k.deliver destination = .ok k') : Effect move k k' := by
  obtain rfl := Except.ok.inj (hrun.symm.trans (h.deliver_eq destination))
  exact .still rfl rfl rfl rfl (.reaches hactivity (by simp [h.stopped])) rfl rfl

/-! ## Every move -/

theorem Halted.moved (h : k.Halted) (hallowed : k.allows move = true)
    (hrun : k.perform move = .ok k') : Moved move k k' := by
  have hstopped : ¬ k.stopped = false := by simp [h.stopped]
  suffices heffect : Effect move k k' from
    ⟨fun hgoing => absurd hgoing hstopped, fun hgoing => absurd hgoing hstopped, heffect⟩
  cases move with
  | call request => exact h.effect_call hrun
  | exit => exact h.effect_exit hrun
  | raise interrupt =>
    obtain rfl := Except.ok.inj hrun
    exact .still rfl rfl rfl rfl .stays rfl rfl
  | advance =>
    by_cases hdelivering : ∃ destination, k.activity = .delivering destination
    · obtain ⟨destination, hactivity⟩ := hdelivering
      change k.advance = _ at hrun
      rw [Kernel.advance, hactivity] at hrun
      exact h.effect_deliver hactivity hrun
    · obtain ⟨activity, rfl, hdrift⟩ := advance_eq_ok h.activity (not_exists.mp hdelivering) hrun
      exact .still rfl rfl rfl rfl hdrift rfl rfl
  | bypass =>
    obtain ⟨answer, hactivity, rfl⟩ := eq_of_bypass hallowed hrun
    exact .still rfl rfl rfl rfl (.bypasses rfl hactivity) rfl rfl

theorem Sound.moved (h : k.Sound W) (hallowed : k.allows move = true)
    (hrun : k.perform move = .ok k') : Moved move k k' := by
  rcases h with hhalted | ⟨me, t, hruns, hrank, hposture⟩
  · exact hhalted.moved hallowed hrun
  · have hsound : k.Sound W := .inr ⟨me, t, hruns, hrank, hposture⟩
    have hcalling : k.activity = .program → ∃ me t, k.Calling W me t := fun hprogram =>
      (hsound.calling hprogram).resolve_left fun hhalted => by
        simpa [hruns.going] using hhalted.stopped
    cases move with
    | call request =>
      obtain ⟨me, t, hcalling⟩ := hcalling (inProgram_iff.mp hallowed)
      exact hcalling.moved_call hrun
    | exit =>
      rw [allows, Bool.and_eq_true] at hallowed
      obtain ⟨me, t, hcalling⟩ := hcalling (inProgram_iff.mp hallowed.1)
      exact Turns.moved (k := k) (hcalling.turns_exit hcalling.outside) hrun hcalling.going
        hcalling.current rfl (List.append_nil _)
    | raise interrupt =>
      obtain rfl := Except.ok.inj hrun
      exact ⟨fun _ => rfl, fun _ => rfl, .still rfl rfl rfl rfl .stays rfl rfl⟩
    | advance =>
      change k.advance = _ at hrun
      by_cases hresuming : ∃ pending, k.activity = .resuming pending
      · obtain ⟨pending, hactivity⟩ := hresuming
        rw [Kernel.advance, hactivity] at hrun
        exact hruns.moved_resumeCall hactivity (hposture.fits pending hactivity) hrun
      by_cases hdelivering : ∃ destination, k.activity = .delivering destination
      · obtain ⟨destination, hactivity⟩ := hdelivering
        rw [Kernel.advance, hactivity] at hrun
        exact hruns.moved_deliver (hposture.outside (not_exists.mp hresuming)) hactivity hrun
      · obtain ⟨activity, rfl, hdrift⟩ :=
          advance_eq_ok (not_exists.mp hresuming) (not_exists.mp hdelivering) hrun
        have htakes : k.takes .advance = [] := by
          rw [takes]
          split
          · next destination hactivity => exact absurd ⟨destination, hactivity⟩ hdelivering
          · rfl
        refine ⟨fun _ => ?_, fun _ => ?_, .still rfl rfl rfl rfl hdrift rfl rfl⟩
        · rw [htakes]
          exact List.append_nil _
        · rw [htakes]
          rfl
    | bypass =>
      obtain ⟨answer, hactivity, rfl⟩ := eq_of_bypass hallowed hrun
      exact ⟨fun _ => List.append_nil _, fun _ => rfl,
        .still rfl rfl rfl rfl (.bypasses rfl hactivity) rfl rfl⟩

end Kernel

end CoopKernel
