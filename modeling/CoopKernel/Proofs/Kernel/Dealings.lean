import CoopKernel.Proofs.Kernel.Closing

/-!
# Dealings in memory

Of what a kernel reports, only the dealings are looked at here: memory that is allocated or
released, and threads that are created or deleted. What is dealt in a move can be told from the
kernel before it (`Kernel.deals`), because a kernel deals only as it is asked to:

* a request for memory is met or not, and if it was for a stack, a thread is created;
* a release succeeds or not;
* a thread that can be removed is deleted, and its stack is released if it can be.

All the rest of what calls and deliveries do is silent in this respect (`Sound.dealt`).
-/

namespace CoopKernel

variable {ε : Type}

/-- Whether an event is about memory or threads that come or go. -/
def Trace.Event.isDealing : Trace.Event → Bool
  | .alloc _ _ _ => true
  | .free _ _ => true
  | .threadCreate _ _ => true
  | .threadDelete _ => true
  | _ => false

namespace Kernel

open Trace (Event)

variable {W : PoolId → Prop} {k k' m : Kernel ε} {me id : ThreadId} {t : Thread (Position ε)}
  {event : Event} {later : List Event} {answer : Answer} {move : Move ε}
  {outcome : Except Invariant (Kernel ε)} {destination : Destination ε}

/-- The dealings that a kernel has reported so far. -/
def dealt (k : Kernel ε) : List Event := k.reported.filter Event.isDealing

/-- Whatever kernel an operation gives, it has dealt so. -/
def Deals (k : Kernel ε) (outcome : Except Invariant (Kernel ε)) (deals : List Event) : Prop :=
  ∀ k', outcome = .ok k' → k'.dealt = k.dealt ++ deals

/-! ## What is dealt -/

/-- The thread that is created when memory for a stack has been got. -/
def founds (k : Kernel ε) : Purpose ε → List Event
  | .address => []
  | .stack _ priority => [.threadCreate k.sched.threads.nextHandle priority]

/-- A request for memory that is met. -/
def grants (k : Kernel ε) (pool : PoolId) (size : Nat) (purpose : Purpose ε) : List Event :=
  match k.pools.allocate pool size with
  | .error _ => []
  | .ok (address, _) => .alloc pool address size :: k.founds purpose

/-- A release that succeeds. -/
def gives (k : Kernel ε) (pool : PoolId) (address : Nat) : List Event :=
  match k.pools.deallocate pool address with
  | .error _ => []
  | .ok _ => [.free pool address]

/-- The stack of a thread. -/
def stackOf (k : Kernel ε) (id : ThreadId) : Option Stack :=
  (k.sched.threads.get? id).bind (·.stack)

/-- A thread that can be removed, and the release of its stack. -/
def removes (k : Kernel ε) (id : ThreadId) : List Event :=
  if k.removable id then
    .threadDelete id :: (k.stackOf id).elim [] fun stack => k.gives k.systemPool stack.address
  else []

/-- What is dealt in a call that enters the section. -/
def serves (k : Kernel ε) : Call ε → List Event
  | .threadCreate entry stackSize priority =>
    k.grants k.systemPool stackSize (.stack entry priority)
  | .threadDelete id => k.removes id
  | .allocate pool size => k.grants pool size .address
  | .allocateBlocking pool size => k.grants pool size .address
  | .free pool address => k.gives pool address
  | .bufferAcquire => k.grants k.sharedPool k.config.bufferSize .address
  | .bufferRelease address => k.gives k.sharedPool address
  | _ => []

/-- What is dealt in a move. -/
def deals (k : Kernel ε) : Move ε → List Event
  | .call request => if k.stopped || request.senseless then [] else k.serves request
  | .advance =>
    match k.activity with
    | .resuming (.allocate pool size purpose) => k.grants pool size purpose
    | _ => []
  | _ => []

/-! ## One thing after the other -/

theorem dealt_of_journal (h : m.journal = k.journal) : m.dealt = k.dealt := by
  rw [dealt, reported, h, dealt, reported]

theorem dealt_emit (k : Kernel ε) (haside : event.isDealing = false) :
    (k.emit event).dealt = k.dealt := by
  simp [dealt, reported, emit, haside]

/-- Events that are reported one after the other. -/
theorem dealt_append (events : List Event) {tick : Nat}
    (h : m.journal = k.journal ++ events.map fun event => ({ event, tick } : Trace.Stamped)) :
    m.dealt = k.dealt ++ events.filter Event.isDealing := by
  simp [dealt, reported, h, Function.comp_def]

theorem deals_same (h : m.journal = k.journal) : k.Deals (.ok m) [] := by
  rintro _ ⟨⟩
  rw [dealt_of_journal h, List.append_nil]

/-- What is dealt after something else was. -/
theorem Deals.after {before : List Event} (h : m.Deals outcome later)
    (hdealt : m.dealt = k.dealt ++ before) : k.Deals outcome (before ++ later) := by
  intro k' hrun
  rw [h k' hrun, hdealt, List.append_assoc]

/-- What is dealt after nothing was. -/
theorem Deals.then (h : m.Deals outcome later) (hdealt : m.dealt = k.dealt) :
    k.Deals outcome later := by
  intro k' hrun
  rw [h k' hrun, hdealt]

theorem deals_bind {α : Type} {x : Except Invariant α} {f : α → Except Invariant (Kernel ε)}
    (hnext : ∀ value, x = .ok value → k.Deals (f value) later) : k.Deals (x >>= f) later := by
  intro k' hrun
  obtain ⟨value, hvalue, hrun⟩ := bind_eq_ok hrun
  exact hnext value hvalue k' hrun

theorem deals_reply (k : Kernel ε) (answer : Answer) : k.Deals (.ok (k.reply answer)) [] :=
  deals_same rfl

theorem deals_orRefuse {α : Type} {outcome : Except Status α}
    {next : α → Except Invariant (Kernel ε)}
    (hnext : ∀ value, outcome = .ok value → k.Deals (next value) []) :
    k.Deals (k.orRefuse outcome next) [] := by
  cases outcome with
  | ok value => exact hnext value rfl
  | error status => exact deals_reply k _

theorem deals_orRefusePool {α : Type} {outcome : Except Memory.PoolError α}
    {next : α → Except Invariant (Kernel ε)} (hnext : ∀ value, k.Deals (next value) []) :
    k.Deals (k.orRefusePool outcome next) [] :=
  deals_orRefuse fun value _ => hnext value

theorem deals_orFail {α : Type} {outcome : Except Failure α}
    {next : α → Except Invariant (Kernel ε)} (hnext : ∀ value, k.Deals (next value) []) :
    k.Deals (k.orFail outcome next) [] := by
  cases outcome with
  | ok value => exact hnext value
  | error failure =>
    cases failure with
    | refused status => exact deals_reply k _
    | broken invariant => nofun

/-! ## Giving the processor away -/

theorem isDealing_switchEvent (k : Kernel ε) (source target : ThreadId) :
    (k.switchEvent source target).isDealing = false := by
  rw [switchEvent]
  split <;> rfl

theorem dealt_resume (k : Kernel ε) (here : Position ε) : (k.resume here).dealt = k.dealt := by
  cases here <;> rfl

theorem deals_switchNext (k : Kernel ε) (here : Position ε) : k.Deals (k.switchNext here) [] := by
  intro k' hrun
  rw [List.append_nil]
  obtain ⟨-, me, target, picked, -, ⟨rfl, rfl⟩ | ⟨-, there, -, rfl⟩⟩ := switchNext_cases hrun
  · exact dealt_resume _ here
  · have hswitched := dealt_emit ({ k with sched := picked } : Kernel ε)
      (isDealing_switchEvent k me target)
    exact (dealt_resume _ there).trans hswitched

theorem deals_yield (k : Kernel ε) (here : Position ε) : k.Deals (k.yield here) [] :=
  deals_bind fun _ _ => (deals_switchNext _ here).then rfl

theorem deals_preemptFor (k : Kernel ε) (candidate : ThreadId) (answer : Answer) :
    k.Deals (k.preemptFor candidate answer) [] := by
  refine deals_bind fun outranked _ => ?_
  split
  · exact (deals_yield _ _).then (dealt_emit k rfl)
  · exact deals_reply k answer

/-! ## Memory -/

theorem deals_allocate (k : Kernel ε) (pool : PoolId) (size : Nat) :
    k.Deals (k.allocate pool size) (k.grants pool size .address) := by
  rw [Kernel.allocate, grants]
  cases k.pools.allocate pool size with
  | error error => exact deals_reply k _
  | ok result =>
    rintro _ ⟨⟩
    exact dealt_append [.alloc pool result.1 size] rfl

theorem deals_awaitMemory (k : Kernel ε) (pool : PoolId) (size : Nat) (purpose : Purpose ε) :
    k.Deals (k.awaitMemory pool size purpose) [] := by
  refine deals_bind fun me _ => deals_orRefuse fun t _ => deals_bind fun s _ => ?_
  exact (deals_switchNext _ _).then (dealt_emit { k with
    pools := k.pools.wait me t.priority.rank pool, sched := s } rfl)

theorem deals_allocateBlocking (k : Kernel ε) (pool : PoolId) (size : Nat) (purpose : Purpose ε) :
    k.Deals (k.allocateBlocking pool size purpose) (k.grants pool size purpose) := by
  have htried := k.tried pool size purpose
  generalize k.allocateBlocking pool size purpose = outcome at htried ⊢
  rw [grants]
  cases htried with
  | empty hsize =>
    rw [Memory.Pools.allocate_zero hsize]
    exact deals_reply k _
  | unknown hsize hbooks =>
    rw [Memory.Pools.allocate_unknown hsize hbooks]
    exact deals_reply k _
  | hopeless hsize hbooks hfull _ =>
    rw [Memory.Pools.allocate_eq hsize hbooks, hfull]
    exact deals_reply k _
  | starved hsize hbooks hfull _ =>
    rw [Memory.Pools.allocate_eq hsize hbooks, hfull]
    exact deals_awaitMemory k pool size purpose
  | @granted _ address _ hok =>
    rw [hok]
    rintro _ ⟨⟩
    cases purpose with
    | address => exact dealt_append [.alloc pool address size] rfl
    | stack entry priority =>
      exact dealt_append [.alloc pool address size, .threadCreate _ priority]
        (List.append_assoc _ [_] [_])

theorem deals_free (k : Kernel ε) (pool : PoolId) (address : Nat) :
    k.Deals (k.free pool address) (k.gives pool address) := by
  rw [free, gives]
  cases k.pools.deallocate pool address with
  | error error => exact deals_reply k _
  | ok result =>
    obtain ⟨released, pools⟩ := result
    let freed : Kernel ε := ({ k with pools } : Kernel ε).emit (.free pool address)
    have hfreed : freed.dealt = k.dealt ++ [.free pool address] :=
      dealt_append [.free pool address] rfl
    refine Deals.after (?_ : freed.Deals _ []) hfreed
    simp only [orRefusePool, orRefuse, Except.mapError]
    split
    · exact deals_reply freed _
    · exact deals_bind fun s _ => (deals_preemptFor _ _ _).then rfl

/-! ## Other calls -/

theorem deals_acquire (k : Kernel ε) (mutex : MutexId) (timeout : Timeout) :
    k.Deals (k.acquire mutex timeout) [] := by
  refine deals_bind fun me _ => ?_
  dsimp only
  split
  · next s _ => exact (deals_reply _ _).then (dealt_emit { k with sched := s } rfl)
  · split
    · exact deals_reply k _
    · exact deals_orFail fun s =>
        (deals_switchNext _ _).then (dealt_emit { k with sched := s } rfl)
  · exact deals_reply k _
  · exact deals_reply k _
  · nofun

theorem deals_finishAcquire (k : Kernel ε) (mutex : MutexId) (me : ThreadId) :
    k.Deals (k.finishAcquire mutex me) [] := by
  refine deals_bind fun result _ => ?_
  obtain ⟨owned, s⟩ := result
  dsimp only
  split
  · exact (deals_reply _ _).then (dealt_emit { k with sched := s } rfl)
  · exact (deals_reply _ _).then (dealt_emit { k with sched := s } rfl)

theorem deals_release (k : Kernel ε) (mutex : MutexId) : k.Deals (k.release mutex) [] := by
  refine deals_bind fun me _ => deals_orFail fun result => ?_
  obtain ⟨next, s⟩ := result
  have hreleased : ((({ k with sched := s } : Kernel ε)).emit (.release mutex me)).dealt = k.dealt :=
    dealt_emit { k with sched := s } rfl
  cases next with
  | none => exact (deals_reply _ _).then hreleased
  | some heir => exact (deals_preemptFor _ _ _).then ((dealt_emit _ rfl).trans hreleased)

theorem deals_activate (k : Kernel ε) (id : ThreadId) : k.Deals (k.activate id) [] := by
  refine deals_orRefuse fun t _ => ?_
  split
  · exact deals_bind fun s _ =>
      (deals_preemptFor _ _ _).then (dealt_emit { k with sched := s } rfl)
  · exact deals_reply k _

theorem isDealing_handoffEvents (handoffs : List (MutexId × ThreadId)) :
    (handoffEvents handoffs).filter Event.isDealing = [] := by
  refine List.filter_eq_nil_iff.mpr fun event hmem => ?_
  obtain ⟨_, -, rfl⟩ := List.mem_map.mp hmem
  exact Bool.false_ne_true

theorem deals_terminate (k : Kernel ε) (id : ThreadId) : k.Deals (k.terminate id) [] := by
  rw [terminate]
  split
  · exact deals_reply k _
  · refine deals_orFail fun result => ?_
    obtain ⟨report, s⟩ := result
    dsimp only
    rw [parted_terminate]
    have hparted : (k.parted id s (.threadTerminate id :: handoffEvents report.handoffs)).dealt =
        k.dealt := by
      rw [dealt_append _ rfl, List.filter_cons_of_neg (by simp [Event.isDealing]),
        isDealing_handoffEvents, List.append_nil]
    split
    · exact (deals_switchNext _ _).then hparted
    · split
      · exact (deals_yield _ _).then hparted
      · exact (deals_reply _ _).then hparted

theorem deals_sleep (k : Kernel ε) (timeout : Timeout) : k.Deals (k.sleep timeout) [] := by
  refine deals_bind fun me _ => ?_
  split
  · exact deals_bind fun s _ => (deals_switchNext _ _).then (dealt_emit { k with sched := s } rfl)
  · exact deals_yield k _

theorem deals_shutdown (k : Kernel ε) : k.Deals k.shutdown [] := by
  rw [shutdown]
  split <;> exact deals_same rfl

theorem deals_awaitIo (k : Kernel ε) (issue : Issue) : k.Deals (k.awaitIo issue) [] := by
  refine deals_bind fun me _ => ?_
  cases issue with
  | raising interrupts =>
    dsimp only
    rw [foldl_raise_line]
    exact deals_bind fun s _ => (deals_switchNext _ _).then rfl
  | reentrant =>
    dsimp only
    split
    · exact deals_same rfl
    · next entered hentered =>
      obtain ⟨gate, -, hentered⟩ := bind_eq_ok hentered
      obtain rfl := Except.ok.inj hentered
      exact deals_same rfl

theorem Serving.deals_delete (h : k.Serving W me t) (id : ThreadId) :
    k.Deals (k.delete id) (k.removes id) := by
  rw [removes]
  rcases h.delete_cases id with ⟨hnot, status, heq⟩ | ⟨u, hu, -, hremovable, -, heq⟩
  · rw [heq, hnot]
    exact deals_reply k _
  · have hgone : (k.without id).dealt = k.dealt ++ [.threadDelete id] :=
      dealt_append [.threadDelete id] rfl
    rw [heq, if_pos hremovable, stackOf, hu, Option.bind_some]
    cases u.stack with
    | none => exact (deals_reply _ _).after hgone
    | some stack => exact (deals_free _ _ _).after hgone

/-! ## Interrupts -/

theorem deals_reach (k : Kernel ε) (destination : Destination ε) :
    k.Deals (.ok (k.reach destination)) [] := by
  cases destination <;> exact deals_same rfl

theorem deals_dispatchTick (k : Kernel ε) (destination : Destination ε) :
    k.Deals (k.dispatchTick destination) [] := by
  refine deals_bind fun result _ => ?_
  obtain ⟨report, s⟩ := result
  dsimp only
  rw [foldl_emit_journal]
  refine (deals_yield _ _).then ((dealt_append _ rfl).trans ?_)
  rw [dealt_emit { k with sched := s } rfl, List.filter_eq_nil_iff.mpr (by simp [Event.isDealing]),
    List.append_nil]
  rfl

theorem deals_dispatchResult (k : Kernel ε) (destination : Destination ε) (id : ThreadId)
    (result : Int32) : k.Deals (k.dispatchResult destination id result) [] := by
  rw [dispatchResult]
  split
  · exact deals_same rfl
  · refine deals_bind fun s _ => ?_
    have htold : (({ k with sched := s } : Kernel ε).emit (.ioDone id result)).dealt = k.dealt :=
      dealt_emit { k with sched := s } rfl
    refine Deals.then (deals_bind fun outranked _ => ?_) htold
    split
    · exact (deals_yield _ _).then (dealt_emit _ rfl)
    · exact deals_same rfl

theorem deals_deliver (k : Kernel ε) (destination : Destination ε) :
    k.Deals (k.deliver destination) [] := by
  rw [deliver]
  split
  · exact deals_reach k destination
  · refine deals_bind fun entered hentered => ?_
    obtain ⟨gate, -, hentered⟩ := bind_eq_ok hentered
    obtain rfl := Except.ok.inj hentered
    split
    · exact (deals_reach _ destination).then rfl
    · split
      · exact (deals_dispatchTick _ _).then rfl
      · exact (deals_dispatchResult _ _ _ _).then rfl

/-! ## Every move -/

theorem Calling.dealt (h : k.Calling W me t) {request : Call ε} (hrun : k.call request = .ok k') :
    k'.dealt = k.dealt ++ k.deals (.call request) := by
  have hsame : k.line.pending = k.line.pending ++ [] := (List.append_nil _).symm
  have hserving := h.serving_entered request
  rw [deals, h.going, Bool.false_or]
  cases hsense : request.senseless with
  | true =>
    obtain rfl := Except.ok.inj (hrun.symm.trans (call_senseless hsense))
    exact (List.append_nil _).symm
  | false =>
    -- What is dealt in the section depends on nothing that entering it has changed.
    have hserves : ∀ {line : Line} {body : Kernel ε → Except Invariant (Kernel ε)},
        ({ k with line } : Kernel ε).inSection body = .ok k' →
        line.pending = k.line.pending ++ request.interrupts →
        (k.entered request).Deals (body (k.entered request)) (k.serves request) →
          k'.dealt = k.dealt ++ k.serves request := by
      intro line body hrun hline hbody
      rw [h.inSection_entered request hline] at hrun
      exact hbody k' hrun
    show k'.dealt = k.dealt ++ k.serves request
    cases request with
    | threadCreate entry stackSize priority =>
      rw [Kernel.call, if_neg (of_decide_eq_false hsense)] at hrun
      exact hserves hrun hsame (deals_allocateBlocking _ _ _ _)
    | sleep timeout =>
      rw [Kernel.call, if_neg (of_decide_eq_false hsense)] at hrun
      exact hserves hrun hsame (deals_sleep _ _)
    | threadActivate id => exact hserves hrun hsame (deals_activate _ id)
    | threadTerminate id => exact hserves hrun hsame (deals_terminate _ id)
    | threadDelete id => exact hserves hrun hsame (hserving.deals_delete id)
    | mutexCreate => exact hserves hrun hsame ((deals_reply _ _).then (dealt_emit _ rfl))
    | mutexDelete x =>
      exact hserves hrun hsame (deals_orRefuse fun _ _ => (deals_reply _ _).then (dealt_emit _ rfl))
    | mutexAcquire x timeout => exact hserves hrun hsame (deals_acquire _ x timeout)
    | mutexRelease x => exact hserves hrun hsame (deals_release _ x)
    | poolCreate base size =>
      exact hserves hrun hsame (deals_orRefusePool fun _ => (deals_reply _ _).then (dealt_emit _ rfl))
    | poolDelete pool =>
      exact hserves hrun hsame (deals_orRefusePool fun _ => (deals_reply _ _).then (dealt_emit _ rfl))
    | allocate pool size => exact hserves hrun hsame (deals_allocate _ pool size)
    | allocateBlocking pool size => exact hserves hrun hsame (deals_allocateBlocking _ pool size _)
    | free pool address => exact hserves hrun hsame (deals_free _ pool address)
    | bufferAcquire => exact hserves hrun hsame (deals_allocateBlocking _ _ _ _)
    | bufferRelease address => exact hserves hrun hsame (deals_free _ _ address)
    | tick => exact hserves hrun rfl (deals_reply _ _)
    | ioComplete id result => exact hserves hrun rfl (deals_reply _ _)
    | poll => exact hserves hrun hsame (deals_reply _ _)
    | awaitIo issue => exact hserves hrun hsame (deals_awaitIo _ issue)
    | shutdown => exact hserves hrun hsame (deals_shutdown _)

/-- Nothing is dealt when a program ends. -/
theorem Runs.dealt_exit (h : k.Runs W me t) (hinside : k.gate.inside = false)
    (hrun : k.exit = .ok k') : k'.dealt = k.dealt := by
  obtain ⟨report, s', heq, -⟩ :=
    h.settled.sched.terminate h.settled.emptyHanded h.record (by simp [h.running]) h.current h.record
  obtain ⟨switch, picked, there, -, -, rfl⟩ := h.exit_eq_ok hinside heq hrun
  refine (dealt_resume _ there).trans ((dealt_append _ rfl).trans ?_)
  rw [List.filter_append, isDealing_handoffEvents]
  exact List.append_nil _

theorem deals_advance (k : Kernel ε) : k.Deals k.advance (k.deals .advance) := by
  rw [advance, deals]
  cases k.activity with
  | program => exact deals_same rfl
  | arriving arrival => exact deals_same rfl
  | resting =>
    dsimp only
    split <;> exact deals_same rfl
  | resuming pending =>
    cases pending with
    | reply answer => exact deals_reply k answer
    | acquire mutex me => exact deals_finishAcquire k mutex me
    | allocate pool size purpose => exact deals_allocateBlocking k pool size purpose
    | awaitIo me => exact deals_orRefuse fun _ _ => deals_reply k _
  | delivering destination => exact deals_deliver k destination

/-- What is dealt in a move can be told from the kernel before it. -/
theorem Sound.dealt (h : k.Sound W) (hallowed : k.allows move = true)
    (hrun : k.perform move = .ok k') : k'.dealt = k.dealt ++ k.deals move := by
  cases move with
  | call request =>
    rcases h.calling (inProgram_iff.mp hallowed) with hhalted | ⟨me, t, hcalling⟩
    · have hjournal : k'.journal = k.journal := by rw [hhalted.same hallowed hrun]
      rw [deals, hhalted.stopped, Bool.true_or, if_pos rfl, List.append_nil, dealt_of_journal hjournal]
    · exact hcalling.dealt hrun
  | exit =>
    rcases h.calling (inProgram_iff.mp (Bool.and_eq_true_iff.mp hallowed).1) with
      hhalted | ⟨me, t, hcalling⟩
    · rw [hhalted.not_allows_exit] at hallowed
      cases hallowed
    · rw [hcalling.toRuns.dealt_exit hcalling.outside hrun]
      exact (List.append_nil _).symm
  | raise interrupt =>
    obtain rfl := Except.ok.inj hrun
    exact (List.append_nil _).symm
  | advance => exact deals_advance k k' hrun
  | bypass =>
    obtain ⟨_, -, rfl⟩ := eq_of_bypass hallowed hrun
    exact (List.append_nil _).symm

end Kernel

end CoopKernel
