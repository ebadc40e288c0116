import CoopKernel.Proofs.Kernel.Acquisition

/-!
# What calls come to

Whatever a program asks for, by the end of its call one of four things has happened
(`Kernel.Conclusion`): the call was refused, and then nothing but the way out of the section is left
of it; it was granted, and its answer is on its way; the thread waits; or the thread is dead. There
is no fifth possibility, in particular none in which something has changed and the call fails.

That every call of a sound kernel concludes so is `Calling.concluded`. A removal is the exception:
it may be refused after the thread is gone, and then it is a refusal of the kernel without the
thread. Waiting for a result has a conclusion of its own (`Runs.awaitIo_ends`).
-/

namespace CoopKernel

variable {ε : Type}

/-- Whether a reply is the result of an asynchronous operation. -/
def Reply.isResult : Reply → Bool
  | .result _ => true
  | _ => false

/-- The interrupt that a call puts on the line before it enters the section. -/
def Call.interrupts : Call ε → List Interrupt
  | .tick => [.tick]
  | .ioComplete thread result => [.ioComplete thread result]
  | _ => []

/-- Whether a call removes a thread. -/
def Call.isRemoval : Call ε → Bool
  | .threadDelete _ => true
  | _ => false

/-- Whether a call waits for the result of an asynchronous operation. -/
def Call.awaitsResult : Call ε → Bool
  | .awaitIo _ => true
  | _ => false

namespace Kernel

variable {W : PoolId → Prop} {k k' m : Kernel ε} {me id : ThreadId} {t u : Thread (Position ε)}
  {reply : Reply} {here : Position ε} {pool : PoolId}

/-- What a call of a thread comes to, as a change of the kernel inside the section. -/
inductive Conclusion (k k' : Kernel ε) (me : ThreadId) : Prop
  /-- The section is left with a refusal, and nothing else is done. -/
  | refused {status : Status} (heq : k' = k.refuse status)
  /-- The answer is on its way. -/
  | granted {t : Thread (Position ε)} {here : Position ε} {reply : Reply}
    (hstands : k'.standing me = some t) (hready : t.state = .ready)
    (hposition : t.position = some here) (harrival : here.arrival? = some (.returned (.ok reply)))
    (hreply : reply.isResult = false)
  /-- The thread waits, for something else than a result. -/
  | blocked {t : Thread (Position ε)} (hstands : k'.standing me = some t)
    (hwaiting : t.state = .waiting) (hreason : t.waitingFor ≠ some .io)
  | died {t : Thread (Position ε)} (hstands : k'.standing me = some t) (hdead : t.state = .dead)

/-- Whatever kernel an operation gives is a conclusion. -/
def Concludes (k : Kernel ε) (me : ThreadId) (outcome : Except Invariant (Kernel ε)) : Prop :=
  ∀ k', outcome = .ok k' → Conclusion k k' me

/-! ## Conclusions -/

theorem concludes_refuse (k : Kernel ε) (me : ThreadId) (status : Status) :
    Concludes k me (.ok (k.refuse status)) := by
  rintro _ ⟨⟩
  exact .refused rfl

theorem concludes_reply (hrecord : m.sched.threads.get? me = some t) (hrunning : t.state = .running)
    (hreply : reply.isResult = false) : Concludes k me (.ok (m.reply (.ok reply))) := by
  rintro _ ⟨⟩
  exact .granted (standing_of_running hrecord hrunning) rfl rfl rfl hreply

/-- A thread that gives way to others goes on with its reply. -/
theorem concludes_yield (horderly : m.sched.Orderly) (hcurrent : m.sched.current = some me)
    (hrecord : m.sched.threads.get? me = some t) (hrunning : t.state = .running)
    (harrival : here.arrival? = some (.returned (.ok reply))) (hreply : reply.isResult = false) :
    Concludes k me (m.yield here) := fun _ hrun =>
  .granted (yield_ends horderly hcurrent hrecord hrunning hrun).own rfl rfl harrival hreply

theorem concludes_preemptFor (horderly : m.sched.Orderly) (hcurrent : m.sched.current = some me)
    (hrecord : m.sched.threads.get? me = some t) (hrunning : t.state = .running)
    (hreply : reply.isResult = false) : Concludes k me (m.preemptFor id (.ok reply)) := by
  intro k' hrun
  obtain ⟨here, harrival, hends⟩ := preemptFor_ends horderly hcurrent hrecord hrunning hrun
  exact .granted hends.own rfl rfl harrival hreply

theorem concludes_orRefuse {α : Type} {outcome : Except Status α}
    {next : α → Except Invariant (Kernel ε)}
    (hnext : ∀ value, outcome = .ok value → Concludes k me (next value)) :
    Concludes k me (k.orRefuse outcome next) := by
  cases outcome with
  | ok value => exact hnext value rfl
  | error status => exact concludes_refuse k me status

theorem concludes_orRefusePool {α : Type} {outcome : Except Memory.PoolError α}
    {next : α → Except Invariant (Kernel ε)}
    (hnext : ∀ value, outcome = .ok value → Concludes k me (next value)) :
    Concludes k me (k.orRefusePool outcome next) := by
  refine concludes_orRefuse ?_
  cases outcome with
  | ok value =>
    rintro _ ⟨⟩
    exact hnext value rfl
  | error error =>
    rintro _ ⟨⟩

/-! ## Memory -/

theorem Runs.concludes_obtained (h : k.Runs W me t) (pools : Memory.Pools) (pool : PoolId)
    (address size : Nat) (purpose : Purpose ε) :
    Concludes k me (.ok ((({ k with pools } : Kernel ε).emit (.alloc pool address size)).obtained
      address size purpose)) := by
  cases purpose with
  | address => exact concludes_reply h.record h.running rfl
  | stack entry priority =>
    have hget := Registry.get?_add h.settled.sched.threads
      (k.sched.newcomer k.config.threadStem priority (some { address, size }))
    have hne : me ≠ k.sched.threads.nextHandle := by
      rintro rfl
      have hfresh := Registry.get?_nextHandle h.settled.sched.threads
      rw [h.record] at hfresh
      cases hfresh
    exact concludes_reply ((hget me).trans ((if_neg hne).trans h.record)) h.running rfl

/-- A thread that gives the processor away to wait is not granted anything. -/
theorem Runs.concludes_switchNext (h : k.Runs W me t) (horderly : m.sched.Orderly)
    (hcurrent : m.sched.current = k.sched.current)
    (hothers : ∀ j, j ≠ me → m.sched.threads.get? j = k.sched.threads.get? j)
    (hu : m.sched.threads.get? me = some u) (hwaiting : u.state = .waiting)
    (hreason : u.waitingFor ≠ some .io) (here : Position ε) :
    Concludes k me (m.switchNext here) := fun _ hrun =>
  .blocked (h.switchNext_ends horderly hcurrent hothers hu (by simp [hwaiting]) hrun).own hwaiting
    hreason

/-- The running thread begins to wait for something else than a mutex or a result. -/
theorem Runs.concludes_suspend (h : k.Runs W me t) {reason : WaitReason} (hmutex : reason ≠ .mutex)
    (hio : reason ≠ .io) {timeout : Timeout} (hsched : m.sched = k.sched.suspended me reason timeout)
    (here : Position ε) : Concludes k me (m.switchNext here) := by
  have hget := fun j => Scheduler.get?_suspended k.sched me j reason timeout
  have hrecord := hget me
  rw [if_pos rfl, h.record, Option.map_some] at hrecord
  refine h.concludes_switchNext (hsched ▸ h.settled.sched.suspended h.record h.running hmutex timeout)
    (by rw [hsched]; rfl) (fun j hj => ?_) (hsched ▸ hrecord) rfl ?_ here
  · rw [hsched, hget, if_neg hj]
  · exact fun hsame => hio (Option.some.inj hsame)

theorem Runs.concludes_awaitMemory (h : k.Runs W me t) (pool : PoolId) (size : Nat)
    (purpose : Purpose ε) : Concludes k me (k.awaitMemory pool size purpose) := fun _ hrun =>
  .blocked (h.awaitMemory_ends hrun).own rfl (by simp [Thread.arm])

theorem Runs.concludes_allocateBlocking (h : k.Runs W me t) (pool : PoolId) (size : Nat)
    (purpose : Purpose ε) : Concludes k me (k.allocateBlocking pool size purpose) := by
  have htried := k.tried pool size purpose
  generalize k.allocateBlocking pool size purpose = outcome at htried ⊢
  cases htried with
  | granted _ _ => exact h.concludes_obtained _ pool _ size purpose
  | starved _ _ _ _ => exact h.concludes_awaitMemory pool size purpose
  | _ => exact concludes_refuse k me _

theorem Runs.concludes_allocate (h : k.Runs W me t) (pool : PoolId) (size : Nat) :
    Concludes k me (k.allocate pool size) :=
  concludes_orRefusePool fun (_, _) _ => concludes_reply h.record h.running rfl

theorem Runs.concludes_free (h : k.Runs W me t) (pool : PoolId) (address : Nat) :
    Concludes k me (k.free pool address) := by
  cases hok : k.pools.deallocate pool address with
  | error error =>
    rw [Kernel.free, hok]
    exact concludes_refuse k me _
  | ok result =>
    intro k' hrun
    obtain ⟨_, _, _, here, -, -, harrival, hends⟩ := h.free_ends hok hrun
    exact .granted hends.own rfl rfl harrival rfl

/-! ## Mutexes -/

theorem Runs.concludes_acquire (h : k.Runs W me t) (x : MutexId) (timeout : Timeout) :
    Concludes k me (k.acquire x timeout) := by
  rw [Kernel.acquire, h.me_eq]
  simp only [bind, Except.bind]
  cases hx : k.sched.mutexes.get? x with
  | none =>
    rw [Scheduler.tryLock_unknown hx]
    exact concludes_refuse k me _
  | some mutex =>
    cases howner : mutex.owner with
    | none =>
      rw [Scheduler.tryLock_free hx howner h.record]
      have hrecord := Scheduler.get?_locked k.sched x me me
      rw [if_pos rfl, h.record, Option.map_some] at hrecord
      exact concludes_reply hrecord h.running rfl
    | some owner =>
      by_cases hne : owner = me
      · rw [Scheduler.tryLock_own hx (hne ▸ howner)]
        exact concludes_refuse k me _
      · rw [Scheduler.tryLock_other hx howner hne]
        dsimp only
        split
        · exact concludes_refuse k me _
        · rw [Scheduler.waitForMutex_eq h.record hx]
          have hget := Scheduler.get?_enlisted k.sched x me
          have hrecord := hget me t.priority timeout.normalized
          rw [if_pos rfl, h.record, Option.map_some] at hrecord
          let waiting : Kernel ε := ({ k with
            sched := k.sched.enlisted x me t.priority timeout.normalized } : Kernel ε).emit
              (.block x me)
          exact h.concludes_switchNext (m := waiting)
            (h.settled.sched.enlisted hx howner hne h.record h.running timeout.normalized) rfl
            (fun j hj => (hget j _ _).trans (if_neg hj)) hrecord rfl (by simp [Thread.arm]) _

theorem Runs.concludes_release (h : k.Runs W me t) (x : MutexId) :
    Concludes k me (k.release x) := by
  rw [Kernel.release, h.me_eq]
  show Concludes k me (k.orFail (k.sched.release x me) _)
  cases hx : k.sched.mutexes.get? x with
  | none =>
    rw [Scheduler.release_unknown hx]
    exact concludes_refuse k me _
  | some mutex =>
    rw [Scheduler.release_eq hx]
    split
    · next howner =>
      obtain ⟨next, s', heq, horderly, hcurrent, hnext, hget⟩ :=
        h.settled.sched.handOver hx howner h.record
      have hself : next ≠ some me := fun hme => (hnext me hme).1 rfl
      have hrecord : s'.threads.get? me = some (t.letGo x) := by
        rw [hget, if_neg hself, if_pos rfl, h.record, Option.map_some]
      rw [heq]
      cases next with
      | none => exact concludes_reply hrecord h.running rfl
      | some heir =>
        exact concludes_preemptFor horderly (hcurrent.trans h.current) hrecord h.running rfl
    · exact concludes_refuse k me _

/-! ## Threads -/

theorem Runs.concludes_activate (h : k.Runs W me t) (id : ThreadId) :
    Concludes k me (k.activate id) := by
  rcases activate_cases k id with ⟨status, hrefused⟩ | ⟨u, entry, hu, hdead, hbegins⟩
  · rw [hrefused]
    exact concludes_refuse k me _
  · have hne : me ≠ id := Ne.symm (h.ne_of_not_running hu (by simp [hdead]))
    rw [hbegins]
    exact concludes_preemptFor (orderly_begun h.settled.sched hu hdead entry) h.current
      ((get?_begun hu entry me).trans ((if_neg hne).trans h.record)) h.running rfl

theorem Runs.concludes_sleep (h : k.Runs W me t) (timeout : Timeout) :
    Concludes k me (k.sleep timeout) := by
  rw [Kernel.sleep, h.me_eq]
  have hyield : Concludes k me (k.yield (.inside (.reply (.ok .done)))) :=
    concludes_yield h.settled.sched h.current h.record h.running rfl rfl
  cases timeout with
  | immediate => exact hyield
  | infinite => exact hyield
  | ticks count =>
    show Concludes k me (k.sched.block me .sleep (.ticks count) >>= _)
    rw [Scheduler.block_eq h.record]
    exact h.concludes_suspend (by simp) (by simp) rfl _

theorem Runs.concludes_terminate (h : k.Runs W me t) (id : ThreadId) :
    Concludes k me (k.terminate id) := by
  rw [Kernel.terminate]
  split
  · exact concludes_refuse k me _
  · cases hu : k.sched.threads.get? id with
    | none =>
      rw [Scheduler.terminate_unknown hu]
      exact concludes_refuse k me _
    | some u =>
      by_cases hdead : u.state = .dead
      · rw [Scheduler.terminate_dead hu hdead]
        exact concludes_refuse k me _
      · obtain ⟨report, s', heq, horderly, -, hburied, hinherited, hprevious, -⟩ :=
          h.settled.sched.terminate h.settled.emptyHanded hu hdead h.current h.record
        have hcurrent : s'.current = some me := hinherited.current.trans h.current
        obtain ⟨journal, hjournal⟩ := emitHandoffs_eq
          ((({ k with sched := s' } : Kernel ε).cancelWait id).emit (.threadTerminate id))
          report.handoffs
        rw [heq]
        show Concludes k me (if report.previous = .running then _ else if report.preempt then _
          else _)
        rw [hjournal]
        intro k' hrun
        by_cases hrunning : u.state = .running
        · -- A thread that terminates itself has no use for an answer.
          obtain rfl := h.sole hu hrunning
          obtain rfl : t = u := Option.some.inj (h.record.symm.trans hu)
          rw [if_pos (hprevious.trans hrunning)] at hrun
          exact .died (Kernel.switchNext_ends horderly (h.vacant_of_inherited hburied hinherited)
            hcurrent hburied hrun).own rfl
        · have hrecord := h.record_of_inherited hinherited
            (Ne.symm (h.ne_of_not_running hu hrunning))
          rw [if_neg (hprevious ▸ hrunning)] at hrun
          split at hrun
          · exact concludes_yield horderly hcurrent hrecord h.running rfl rfl k' hrun
          · exact concludes_reply hrecord h.running rfl k' hrun

/-- Without the other threads' positions, the main thread is where it was. -/
theorem Runs.concludes_shutdown (h : k.Runs W me t) : Concludes k me k.shutdown := by
  rw [Kernel.shutdown]
  split
  · exact concludes_refuse k me _
  · have hunplaced := unplaced_foldl_forgetPosition k.sched
      (k.sched.threads.handles.filter (· != k.main)) me
    rw [h.record] at hunplaced
    obtain ⟨u, hu, hstate, -, -⟩ := exists_of_unplaced_eq hunplaced.symm
    exact concludes_reply hu (hstate.trans h.running) rfl

/-- A removal may be refused when the thread is gone already. -/
theorem Serving.concludes_delete (h : k.Serving W me t) (hrun : k.delete id = .ok k') :
    ∃ base, Conclusion base k' me := by
  rcases h.delete_cases id with ⟨-, status, hrefused⟩ | ⟨u, -, -, -, hserving, hremoved⟩
  · exact ⟨k, .refused (Except.ok.inj (hrun.symm.trans hrefused))⟩
  · refine ⟨k.without id, ?_⟩
    rw [hremoved] at hrun
    cases hstack : u.stack with
    | none =>
      rw [hstack] at hrun
      exact concludes_reply hserving.record hserving.running rfl k' hrun
    | some stack =>
      rw [hstack] at hrun
      exact hserving.concludes_free _ _ k' hrun

/-! ## Waiting for a result -/

/-- A thread that has begun an operation waits for its result, whatever the operation has put on the
line meanwhile. -/
theorem Runs.awaitIo_ends (h : k.Runs W me t) {interrupts : List Interrupt}
    (hrun : k.awaitIo (.raising interrupts) = .ok k') :
    ({ k with
      line := { pending := k.line.pending ++ interrupts }
      sched := k.sched.suspended me .io .infinite } : Kernel ε).Ends k' me
        { t.arm .io .infinite with state := .waiting, position := some (.inside (.awaitIo me)) } := by
  have hget := fun j => Scheduler.get?_suspended k.sched me j .io .infinite
  have hrecord := hget me
  rw [if_pos rfl, h.record, Option.map_some] at hrecord
  rw [Kernel.awaitIo, h.me_eq] at hrun
  change ((do
    let sched ← (interrupts.foldl Kernel.raise k).sched.block me .io .infinite
    { interrupts.foldl Kernel.raise k with sched }.switchNext (.inside (.awaitIo me))) :
      Except Invariant (Kernel ε)) = _ at hrun
  rw [foldl_raise_line] at hrun
  change (k.sched.block me .io .infinite >>= _) = _ at hrun
  rw [Scheduler.block_eq h.record] at hrun
  let waiting : Kernel ε := { k with
    line := { pending := k.line.pending ++ interrupts }
    sched := k.sched.suspended me .io .infinite }
  have hmutex : WaitReason.io ≠ .mutex := by simp
  exact h.switchNext_ends (m := waiting)
    (h.settled.sched.suspended h.record h.running hmutex .infinite) rfl
    (fun j hj => (hget j).trans (if_neg hj)) hrecord (by simp) hrun

/-- An operation that calls the kernel from inside the section only ends its own call. -/
theorem Serving.awaitIo_reentrant (h : k.Serving W me t) :
    k.awaitIo .reentrant = .ok (k.leave.arrive (.unwound .sectionFree)) := by
  have hheld : k.enter = .error .sectionFree := by
    rw [enter, CriticalSection.enter, h.inside]
    rfl
  rw [Kernel.awaitIo, h.me_eq]
  simp only [bind, Except.bind, hheld]
  rfl

/-! ## Calls -/

theorem call_senseless {request : Call ε} (h : request.senseless = true) :
    k.call request = .ok (k.refuseAtOnce .invalidParameter) := by
  cases request with
  | threadCreate entry stackSize priority => exact if_pos (of_decide_eq_true h)
  | sleep timeout => exact if_pos (of_decide_eq_true h)
  | _ => cases h

/-- The kernel in which a call is carried out. -/
def entered (k : Kernel ε) (request : Call ε) : Kernel ε :=
  { k with
    line := { pending := k.line.pending ++ request.interrupts }
    gate := { inside := true } }

theorem Calling.serving_entered (h : k.Calling W me t) (request : Call ε) :
    (k.entered request).Serving W me t :=
  ⟨⟨h.going, h.settled, h.current, h.record, h.running⟩, h.unrivalled, rfl, h.program⟩

/-- What is done inside the section begins with the kernel as the call has entered it. -/
theorem Calling.inSection_entered (h : k.Calling W me t) {line : Line} (request : Call ε)
    (hline : line.pending = k.line.pending ++ request.interrupts)
    (body : Kernel ε → Except Invariant (Kernel ε)) :
    ({ k with line } : Kernel ε).inSection body = body (k.entered request) := by
  have hcalling : ({ k with line } : Kernel ε).Calling W me t :=
    ⟨⟨h.going, h.settled, h.current, h.record, h.running⟩, h.unrivalled, h.outside, h.program⟩
  rw [hcalling.inSection_eq, entered, ← hline]

/-- Every call that makes sense and does not wait for a result is refused, granted, or blocked, or
its thread is dead; and unless it removes a thread, a refusal leaves everything as it was when the
section was entered. -/
theorem Calling.concluded (h : k.Calling W me t) {request : Call ε}
    (hsense : request.senseless = false) (hawaits : request.awaitsResult = false)
    (hrun : k.call request = .ok k') :
    ∃ base, Conclusion base k' me ∧ (request.isRemoval = false → base = k.entered request) := by
  have hsame : k.line.pending = k.line.pending ++ [] := (List.append_nil _).symm
  have hconcluded : ∀ {line : Line} {body : Kernel ε → Except Invariant (Kernel ε)},
      ({ k with line } : Kernel ε).inSection body = .ok k' →
      line.pending = k.line.pending ++ request.interrupts →
      Concludes (k.entered request) me (body (k.entered request)) →
        ∃ base, Conclusion base k' me ∧ (request.isRemoval = false → base = k.entered request) := by
    intro line body hrun hline hbody
    rw [h.inSection_entered request hline] at hrun
    exact ⟨_, hbody k' hrun, fun _ => rfl⟩
  have hserving := h.serving_entered request
  have hreply : ∀ {reply : Reply}, reply.isResult = false →
      Concludes (k.entered request) me (.ok ((k.entered request).reply (.ok reply))) :=
    concludes_reply hserving.record hserving.running
  have hruns := hserving.toRuns
  cases request with
  | threadCreate entry stackSize priority =>
    rw [Kernel.call, if_neg (of_decide_eq_false hsense)] at hrun
    exact hconcluded hrun hsame (hruns.concludes_allocateBlocking _ _ _)
  | sleep timeout =>
    rw [Kernel.call, if_neg (of_decide_eq_false hsense)] at hrun
    exact hconcluded hrun hsame (hruns.concludes_sleep _)
  | threadActivate id => exact hconcluded hrun hsame (hruns.concludes_activate _)
  | threadTerminate id => exact hconcluded hrun hsame (hruns.concludes_terminate _)
  | threadDelete id =>
    change k.inSection _ = _ at hrun
    rw [h.inSection_entered (.threadDelete id) hsame] at hrun
    obtain ⟨base, hbase⟩ := hserving.concludes_delete hrun
    exact ⟨base, hbase, fun hnot => by cases hnot⟩
  | mutexCreate =>
    exact hconcluded hrun hsame (concludes_reply hserving.record hserving.running rfl)
  | mutexDelete x =>
    refine hconcluded hrun hsame (concludes_orRefuse fun s' hs' => ?_)
    obtain ⟨-, -, -, rfl⟩ := Scheduler.deleteMutex_eq_ok hs'
    exact concludes_reply hserving.record hserving.running rfl
  | mutexAcquire x timeout => exact hconcluded hrun hsame (hruns.concludes_acquire _ _)
  | mutexRelease x => exact hconcluded hrun hsame (hruns.concludes_release _)
  | poolCreate base size =>
    exact hconcluded hrun hsame (concludes_orRefusePool fun _ _ =>
      concludes_reply hserving.record hserving.running rfl)
  | poolDelete pool =>
    exact hconcluded hrun hsame (concludes_orRefusePool fun _ _ =>
      concludes_reply hserving.record hserving.running rfl)
  | allocate pool size => exact hconcluded hrun hsame (hruns.concludes_allocate _ _)
  | allocateBlocking pool size =>
    exact hconcluded hrun hsame (hruns.concludes_allocateBlocking _ _ _)
  | free pool address => exact hconcluded hrun hsame (hruns.concludes_free _ _)
  | bufferAcquire => exact hconcluded hrun hsame (hruns.concludes_allocateBlocking _ _ _)
  | bufferRelease address => exact hconcluded hrun hsame (hruns.concludes_free _ _)
  | tick => exact hconcluded hrun rfl (hreply rfl)
  | ioComplete id result => exact hconcluded hrun rfl (hreply rfl)
  | poll => exact hconcluded hrun hsame (hreply rfl)
  | awaitIo issue => cases hawaits
  | shutdown => exact hconcluded hrun hsame hruns.concludes_shutdown

/-- After a shutdown every call that makes sense is refused. -/
theorem Halted.call_eq (h : k.Halted) {request : Call ε} (hsense : request.senseless = false) :
    k.call request = .ok ((k.entered request).refuse .invalidState) := by
  have hrefused : ∀ {line : Line}, line.pending = k.line.pending ++ request.interrupts →
      ∀ body, ({ k with line } : Kernel ε).inSection body =
        .ok ((k.entered request).refuse .invalidState) := by
    intro line hline body
    rw [Kernel.inSection, enter_eq (k := { k with line }) h.gate]
    show (if k.stopped = true then _ else _) = _
    rw [if_pos h.stopped, entered, ← hline]
    rfl
  have hsame : k.line.pending = k.line.pending ++ [] := (List.append_nil _).symm
  cases request with
  | threadCreate entry stackSize priority =>
    rw [Kernel.call, if_neg (of_decide_eq_false hsense)]
    exact hrefused hsame _
  | sleep timeout =>
    rw [Kernel.call, if_neg (of_decide_eq_false hsense)]
    exact hrefused hsame _
  | tick => exact hrefused rfl _
  | ioComplete id result => exact hrefused rfl _
  | _ => exact hrefused hsame _

end Kernel

end CoopKernel
