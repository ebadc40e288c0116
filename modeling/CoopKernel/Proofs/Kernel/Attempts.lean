import CoopKernel.Proofs.Kernel.Dealings
import CoopKernel.Proofs.Kernel.Granted
import CoopKernel.Proofs.Memory.FirstFit

/-!
# Attempts to allocate

A program that asks for memory may wait until others have released enough of it. Its request
(`Demand`) is tried when it is made, and again whenever its thread has waited and is resumed. What
an attempt comes to is decided by the pool as it is at that moment, and by nothing that has happened
before (`Kernel.Attempt`): the thread waits if the pool could meet the request but has no room for
it now, and otherwise it leaves the section with its answer. If the answer is that the request was
met, the memory is live as the section is left (`Kernel.Obtains`).

That every attempt in a sound kernel is so, be it the first or a later one, is `Sound.attempt`.
-/

namespace CoopKernel

variable {ε : Type}

/-- A request for memory that can wait. -/
structure Demand (ε : Type) where
  pool : PoolId
  size : Nat
  purpose : Purpose ε

/-- Where a thread stands that has yet to try its request, or to try it again. -/
def Demand.position (d : Demand ε) : Position ε := .inside (.allocate d.pool d.size d.purpose)

namespace Kernel

open Memory (covering Segment)

variable {W W' : PoolId → Prop} {k k' : Kernel ε} {me id : ThreadId} {t : Thread (Position ε)}
  {d : Demand ε} {answer : Answer} {reply : Reply} {request : Call ε} {move : Move ε}
  {pools : Memory.Pools}

/-- The request that a call makes. A call whose arguments make no sense does not come to it. -/
def demand (k : Kernel ε) (request : Call ε) : Option (Demand ε) :=
  if request.senseless then none
  else match request with
    | .threadCreate entry stackSize priority =>
      some ⟨k.systemPool, stackSize, .stack entry priority⟩
    | .allocateBlocking pool size => some ⟨pool, size, .address⟩
    | .bufferAcquire => some ⟨k.sharedPool, k.config.bufferSize, .address⟩
    | _ => none

/-- The request that is tried in a move: that of a call, or that of a thread that has waited. -/
def tries (k : Kernel ε) : Move ε → Option (Demand ε)
  | .call request => k.demand request
  | .advance =>
    match k.activity with
    | .resuming (.allocate pool size purpose) => some ⟨pool, size, purpose⟩
    | _ => none
  | _ => none

theorem tries_advance_iff : k.tries .advance = some d ↔
    k.activity = .resuming (.allocate d.pool d.size d.purpose) := by
  rw [tries]
  split
  · next hactivity =>
    cases d
    simp [hactivity]
  · next hnot => exact iff_of_false (by simp) (hnot _ _ _)

/-! ## What comes of an attempt -/

/-- A thread waits for memory, and will try its request again. -/
structure Starves (k : Kernel ε) (id : ThreadId) (d : Demand ε) : Prop where
  away : k.sched.current ≠ some id
  waits : ∃ t, k.sched.threads.get? id = some t ∧ t.state = .waiting ∧
    t.waitingFor = some .memory ∧ t.position = some d.position

/-- A thread leaves the section with the answer to its call. -/
structure Leaves (k : Kernel ε) (id : ThreadId) (answer : Answer) : Prop where
  current : k.sched.current = some id
  outside : k.gate.inside = false
  activity : k.activity = .delivering (.reply answer)

/-- A thread is in no queue. -/
structure Unqueued (k : Kernel ε) (id : ThreadId) : Prop where
  memory : ∀ p pool, (id, pool) ∉ k.pools.waiters.level p
  ready : ∀ p, id ∉ k.sched.ready.level p
  waiting : ∀ reason, id ∉ k.sched.waiting.get reason
  mutexes : ∀ x mutex, k.sched.mutexes.get? x = some mutex → ∀ p, id ∉ mutex.waiters.level p

/-- What a thread is told of the memory that its request is met with. -/
def Hands (k : Kernel ε) (d : Demand ε) (address : Nat) (reply : Reply) : Prop :=
  match d.purpose with
  | .address => reply = .address address
  | .stack _ _ => ∃ thread, reply = .thread thread ∧
      k.stackOf thread = some { address, size := d.size }

/-- The request of a thread is met with the memory at an address. -/
structure Obtains (k : Kernel ε) (id : ThreadId) (d : Demand ε) (reply : Reply) (address : Nat)
    (books : Memory.Pool) : Prop where
  handed : k.Hands d address reply
  registered : k.pools.registry.get? d.pool = some books
  /-- As much is live there as was asked for, rounded up. -/
  live : ⟨address, covering d.size books.alignment⟩ ∈ books.live
  /-- Nothing else that is live in the pool overlaps it, ... -/
  apart : ∀ segment ∈ books.live, segment ≠ ⟨address, covering d.size books.alignment⟩ →
    segment.Apart ⟨address, covering d.size books.alignment⟩
  /-- ... and nothing that is live in another pool, unless the pools themselves overlap. -/
  abroad : ∀ other books', k.pools.registry.get? other = some books' →
    Segment.Apart ⟨books'.base, books'.size⟩ ⟨books.base, books.size⟩ →
    ∀ segment ∈ books'.live, segment.Apart ⟨address, covering d.size books.alignment⟩
  unqueued : k.Unqueued id

/-- What an attempt of a thread comes to for which it found these pools. -/
structure Attempt (pools : Memory.Pools) (k : Kernel ε) (id : ThreadId) (d : Demand ε) : Prop where
  /-- The thread waits exactly if the pool is there, has no room for the request now, and could meet
  it if nothing were live in it. -/
  waits : k.Starves id d ↔ 0 < d.size ∧ ∃ books, pools.registry.get? d.pool = some books ∧
    ¬ books.Room (covering d.size books.alignment) ∧ books.Capable d.size
  /-- It is told that its request is met exactly if the pool has room for it. -/
  granted : (∃ reply, k.Leaves id (.ok reply)) ↔ 0 < d.size ∧ ∃ books,
    pools.registry.get? d.pool = some books ∧ books.Room (covering d.size books.alignment) ∧
      books.Capable d.size
  /-- And then it is met. -/
  obtained : ∀ reply, k.Leaves id (.ok reply) → ∃ address books, k.Obtains id d reply address books
  empty : k.Leaves id (.error .invalidParameter) ↔ d.size = 0
  hopeless : k.Leaves id (.error .insufficientResources) ↔ 0 < d.size ∧ ∃ books,
    pools.registry.get? d.pool = some books ∧ ¬ books.Capable d.size
  unknown : k.Leaves id (.error .invalidId) ↔ 0 < d.size ∧ pools.registry.get? d.pool = none
  /-- Nothing else comes of it. -/
  concluded : k.Starves id d ∨ ∃ answer, k.Leaves id answer

theorem leaves_reply (hcurrent : k.sched.current = some id) (answer : Answer) :
    (k.reply answer).Leaves id answer :=
  ⟨hcurrent, rfl, rfl⟩

theorem Leaves.iff (h : k.Leaves id answer) {other : Answer} :
    k.Leaves id other ↔ answer = other := by
  constructor
  · intro hother
    have hsame := h.activity.symm.trans hother.activity
    simpa using hsame
  · rintro rfl
    exact h

theorem Leaves.not_starves (h : k.Leaves id answer) : ¬ k.Starves id d :=
  fun hstarves => hstarves.away h.current

/-- A thread that runs is in no queue. -/
theorem Runs.unqueued (h : k.Runs W me t) : k.Unqueued me := by
  have htidy := h.settled.sched.tidy h.record
  have hstate : t.state ≠ .waiting := by simp [h.running]
  have hplace : k.sched.place me = none := by
    rw [Scheduler.place_eq h.record, Thread.place, h.running]
  refine ⟨fun p pool hmem => ?_, fun p hmem => ?_, fun reason hmem => ?_,
    fun x mutex hmutex p hmem => ?_⟩
  · have hwaits := (h.settled.waiting.mem_level me pool p).mp hmem
    rw [Scheduler.waits, h.record, Option.bind_some, Thread.memoryWait_of_running htidy hstate]
      at hwaits
    cases hwaits
  · exact h.settled.sched.queued.not_mem_ready hplace p hmem
  · rw [h.settled.sched.queued.mem_waiting, hplace] at hmem
    cases hmem
  · obtain ⟨u, hu, hwanted, -⟩ := (h.settled.sched.owned.mem_waiters hmutex me p).mp hmem
    obtain rfl := Option.some.inj (h.record.symm.trans hu)
    rw [htidy.wanted_eq_none hstate] at hwanted
    cases hwanted

/-- Whoever runs after its request was met has what it asked for. -/
theorem Runs.obtains (h : k.Runs W me t) {books books' : Memory.Pool} {address : Nat}
    (hbooks : pools.Orderly) (hold : pools.registry.get? d.pool = some books)
    (hallocate : books.allocate d.size = .ok (address, books'))
    (hpools : k.pools = pools.put d.pool books') (hhanded : k.Hands d address reply) :
    k.Obtains me d reply address books' := by
  have hnew : k.pools.registry.get? d.pool = some books' := by
    rw [hpools, Memory.Pools.get?_put, if_pos rfl, hold, Option.map_some]
  obtain ⟨hlive, hapart⟩ := (hbooks.tiled hold).live_of_allocate hallocate
  refine ⟨hhanded, hnew, hlive, hapart, fun other books'' hother hregions segment hmem => ?_,
    h.unqueued⟩
  -- What is live in a pool lies in its region.
  have hmine := (h.settled.books.tiled hnew).tiling
  have htheirs := (h.settled.books.tiled hother).tiling
  have hstart : books'.base ≤ address := hmine.start_le_of_mem_live hlive
  have hstart' := htheirs.start_le_of_mem_live hmem
  have hstop := (hmine.of_mem_live hlive).2
  have hstop' := (htheirs.of_mem_live hmem).2
  simp only [Segment.Apart, Segment.stop] at hregions hstop hstop' ⊢
  omega

/-! ## Attempts -/

theorem pools_obtained (k : Kernel ε) (address size : Nat) (purpose : Purpose ε) :
    (k.obtained address size purpose).pools = k.pools := by
  cases purpose <;> rfl

theorem stopped_obtained (k : Kernel ε) (address size : Nat) (purpose : Purpose ε) :
    (k.obtained address size purpose).stopped = k.stopped := by
  cases purpose <;> rfl

/-- Memory that has been got is handed to the thread that asked for it, or is the stack of a new
thread. -/
theorem hands_obtained (hthreads : k.sched.threads.Ordered) (hcurrent : k.sched.current = some me)
    (pool : PoolId) (size address : Nat) (purpose : Purpose ε) :
    ∃ reply, (k.obtained address size purpose).Leaves me (.ok reply) ∧
      (k.obtained address size purpose).Hands ⟨pool, size, purpose⟩ address reply := by
  cases purpose with
  | address => exact ⟨_, leaves_reply hcurrent _, rfl⟩
  | stack entry priority =>
    refine ⟨_, ⟨hcurrent, rfl, rfl⟩, _, rfl, ?_⟩
    have hget := Registry.get?_add hthreads
      (k.sched.newcomer k.config.threadStem priority (some { address, size }))
      k.sched.threads.nextHandle
    rw [if_pos rfl] at hget
    exact congrArg (·.bind (·.stack)) hget

/-- An attempt of which an answer comes. -/
theorem Attempt.of_leaves (h : k.Leaves id answer)
    (hwaits : ¬ (0 < d.size ∧ ∃ books, pools.registry.get? d.pool = some books ∧
      ¬ books.Room (covering d.size books.alignment) ∧ books.Capable d.size))
    (hgranted : (∃ reply, answer = .ok reply) ↔ 0 < d.size ∧ ∃ books,
      pools.registry.get? d.pool = some books ∧ books.Room (covering d.size books.alignment) ∧
        books.Capable d.size)
    (hobtained : ∀ reply, answer = .ok reply → ∃ address books, k.Obtains id d reply address books)
    (hempty : answer = .error .invalidParameter ↔ d.size = 0)
    (hhopeless : answer = .error .insufficientResources ↔ 0 < d.size ∧ ∃ books,
      pools.registry.get? d.pool = some books ∧ ¬ books.Capable d.size)
    (hunknown : answer = .error .invalidId ↔ 0 < d.size ∧ pools.registry.get? d.pool = none) :
    Attempt pools k id d := by
  refine ⟨iff_of_false h.not_starves hwaits, ?_, ?_, ?_, ?_, ?_, .inr ⟨_, h⟩⟩ <;>
    simpa only [h.iff]

/-- What is tried inside the section is settled by the pool as it is. -/
theorem Runs.attempt (h : k.Runs W me t) (hsound' : k'.Sound W')
    (hrun : k.allocateBlocking d.pool d.size d.purpose = .ok k') : Attempt k.pools k' me d := by
  have htried := k.tried d.pool d.size d.purpose
  generalize k.allocateBlocking d.pool d.size d.purpose = outcome at htried hrun
  cases htried with
  | empty hsize =>
    obtain rfl := Except.ok.inj hrun
    exact .of_leaves (leaves_reply h.current _) (by simp [hsize]) (by simp [hsize]) (by simp)
      (by simp [hsize]) (by simp [hsize]) (by simp [hsize])
  | unknown hsize hbooks =>
    obtain rfl := Except.ok.inj hrun
    exact .of_leaves (leaves_reply h.current _) (by simp [hbooks]) (by simp [hbooks]) (by simp)
      (by simp [hsize]) (by simp [hbooks]) (by simp [hbooks, Nat.pos_of_ne_zero hsize])
  | @hopeless books _ hsize hbooks hfull hnot =>
    obtain rfl := Except.ok.inj hrun
    have hsome := Nat.pos_of_ne_zero hsize
    have hincapable : ¬ books.Capable d.size := by
      rw [← books.canEverFit_iff hsome, hnot]
      exact Bool.false_ne_true
    exact .of_leaves (leaves_reply h.current _) (by simp [hbooks, hincapable])
      (by simp [hbooks, hincapable]) (by simp) (by simp [hsize])
      (by simp [hbooks, hincapable, hsome]) (by simp [hbooks])
  | @granted pools address hsize hok =>
    obtain rfl := Except.ok.inj hrun
    obtain ⟨books, books', hbooks, hallocate, rfl⟩ := Memory.Pools.allocate_eq_ok hok
    have hsome := Nat.pos_of_ne_zero hsize
    have htiled := h.settled.books.tiled hbooks
    have hroom := htiled.room_of_allocate hallocate
    have hcapable := (books.canEverFit_iff hsome).mp (htiled.canEverFit_of_allocate hallocate)
    let granted : Kernel ε := ({ k with pools := k.pools.put d.pool books' } : Kernel ε).emit
      (.alloc d.pool address d.size)
    obtain ⟨reply, hleaves, hhands⟩ := hands_obtained (k := granted) h.settled.sched.threads
      h.current d.pool d.size address d.purpose
    have hgoing := (stopped_obtained granted address d.size d.purpose).trans h.going
    obtain ⟨_, _, hruns'⟩ := hsound'.runs hgoing hleaves.current
    have hobtains := hruns'.obtains h.settled.books hbooks hallocate
      (pools_obtained granted address d.size d.purpose) hhands
    exact .of_leaves hleaves (by simp [hbooks, hroom])
      (iff_of_true ⟨reply, rfl⟩ ⟨hsome, books, hbooks, hroom, hcapable⟩)
      (by rintro _ ⟨⟩; exact ⟨address, books', hobtains⟩) (by simp [hsize])
      (by simp [hbooks, hcapable]) (by simp [hbooks])
  | @starved books _ hsize hbooks hfull hfits =>
    have hsome := Nat.pos_of_ne_zero hsize
    have hcapable := (books.canEverFit_iff hsome).mp hfits
    have hroom := (h.settled.books.tiled hbooks).not_room_of_error hsome hfits hfull
    obtain ⟨u, hu, ⟨-, heq⟩ | ⟨hnot, rfl⟩⟩ := exists_of_standing (h.awaitMemory_ends hrun).own
    · cases congrArg Thread.state heq
    have haway : k'.sched.current ≠ some me := fun hcurrent => hnot (hsound'.running hcurrent hu)
    have hleaves : ∀ answer, ¬ k'.Leaves me answer := fun _ hleaves => haway hleaves.current
    have hstarves : k'.Starves me d := ⟨haway, _, hu, rfl, rfl, rfl⟩
    refine ⟨iff_of_true hstarves ⟨hsome, books, hbooks, hroom, hcapable⟩,
      iff_of_false (fun ⟨_, h⟩ => hleaves _ h) (by simp [hbooks, hroom]),
      fun _ h => absurd h (hleaves _), iff_of_false (hleaves _) hsize,
      iff_of_false (hleaves _) (by simp [hbooks, hcapable]),
      iff_of_false (hleaves _) (by simp [hbooks]), .inl hstarves⟩

/-- A call that makes a request tries it inside the section. -/
theorem Calling.call_eq (h : k.Calling W me t) (hdemand : k.demand request = some d) :
    k.call request = (k.entered request).allocateBlocking d.pool d.size d.purpose := by
  cases request with
  | threadCreate entry stackSize priority =>
    rw [demand] at hdemand
    split at hdemand
    · cases hdemand
    · next hsense =>
      obtain rfl := Option.some.inj hdemand
      rw [Kernel.call, if_neg fun hnot => hsense (decide_eq_true hnot)]
      exact h.inSection_entered _ (List.append_nil _).symm _
  | allocateBlocking pool size =>
    obtain rfl := Option.some.inj hdemand
    exact h.inSection_entered _ (List.append_nil _).symm _
  | bufferAcquire =>
    obtain rfl := Option.some.inj hdemand
    exact h.inSection_entered _ (List.append_nil _).symm _
  | _ => simp [demand] at hdemand

/-- Every attempt is settled by the pools as they are, be it the first one or a later one. -/
theorem Sound.attempt (h : k.Sound W) (hgoing : k.stopped = false)
    (hcurrent : k.sched.current = some id) (hallowed : k.allows move = true)
    (hrun : k.perform move = .ok k') (htries : k.tries move = some d) :
    Attempt k.pools k' id d := by
  have hsound' := h.performed hallowed hrun
  cases move with
  | call request =>
    obtain ⟨_, t, hcalling⟩ := h.deciding_calls hgoing
      (deciding_iff.mpr ⟨inProgram_iff.mp hallowed, hcurrent⟩)
    have hserving := hcalling.serving_entered request
    exact hserving.toRuns.attempt hsound' ((hcalling.call_eq htries).symm.trans hrun)
  | advance =>
    obtain ⟨_, _, hruns⟩ := h.runs hgoing hcurrent
    change k.advance = _ at hrun
    rw [Kernel.advance, tries_advance_iff.mp htries] at hrun
    exact hruns.attempt hsound' hrun
  | _ => cases htries

/-- A request that was waited for can be met, unless its pool has been removed. -/
theorem Sound.fits_of_tries (h : k.Sound W) (hgoing : k.stopped = false)
    (htries : k.tries .advance = some d) : k.pools.Fits d.pool d.size := by
  rcases h with hhalted | ⟨me, t, -, -, hposture⟩
  · simp [hhalted.stopped] at hgoing
  · exact (hposture.fits _ (tries_advance_iff.mp htries)).1

end Kernel

end CoopKernel
