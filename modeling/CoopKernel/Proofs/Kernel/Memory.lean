import CoopKernel.Kernel.Memory
import CoopKernel.Proofs.Kernel.Switching

/-!
# Memory calls go on

Each memory call of a running thread succeeds and leaves a sound kernel. This is where coverage is
made: a thread begins to wait for a pool only while something is allocated there
(`Serving.awaitMemory`), and a release that may empty a pool wakes a thread that waits for it, if
there is one (`Serving.free`).
-/

namespace CoopKernel.Kernel

variable {ε : Type} {W : PoolId → Prop} {k : Kernel ε} {me : ThreadId} {t : Thread (Position ε)}
  {pool : PoolId} {size : Nat} {books books' : Memory.Pool}

/-- The running thread serves on if only the pools have changed. -/
theorem Serving.repool {W' : PoolId → Prop} (h : k.Serving W me t) {pools' : Memory.Pools}
    (hsettled : Settled W' k.sched pools' k.main k.idle) :
    ({ k with pools := pools' } : Kernel ε).Serving W' me t :=
  ⟨⟨h.going, hsettled, h.current, h.record, h.running⟩, h.unrivalled, h.inside, h.program⟩

/-! ## Books of one pool -/

/-- Writing back the books of a pool leaves a kernel settled, if the pool itself stays covered. -/
theorem Settled.put {s : Scheduler (Position ε)} {pools : Memory.Pools} {main idle : ThreadId}
    {W' : PoolId → Prop} (h : Settled W s pools main idle)
    (hbooks : pools.registry.get? pool = some books)
    (hfit : books'.canEverFit = books.canEverFit) (htiled : books'.Tiled)
    (hW : ∀ {other}, W' other → other ≠ pool → W other)
    (hcovered : W' pool → Covered s (pools.put pool books') pool) :
    Settled W' s (pools.put pool books') main idle := by
  have hget := Memory.Pools.get?_put pools pool
  refine h.repool (h.books.put htiled) (Memory.Pools.extends_put hbooks hfit) rfl ?_ ?_
  · intro j p other hwait
    obtain ⟨old, hold⟩ := h.registered hwait
    rw [hget]
    split
    · exact ⟨books', by rw [hbooks, Option.map_some]⟩
    · exact ⟨old, hold⟩
  · intro other hother
    by_cases heq : other = pool
    · subst heq
      exact hcovered hother
    · refine (h.covered (hW hother heq)).mono (fun hwait => ⟨_, _, hwait⟩) ?_
        (fun hretried => hretried)
      rintro ⟨old, hold, hlive⟩
      exact ⟨old, by rw [hget, if_neg heq, hold], hlive⟩

/-- After an allocation the pool is covered by it. -/
theorem Serving.allocated (h : k.Serving (fun other => W other ∧ other ≠ pool) me t)
    {address : Nat} (hbooks : k.pools.registry.get? pool = some books)
    (hok : books.allocate size = .ok (address, books')) :
    ({ k with pools := k.pools.put pool books' } : Kernel ε).Serving W me t := by
  refine h.repool (h.settled.put hbooks (Memory.Pool.canEverFit_allocate hok)
    ((h.settled.books.tiled hbooks).allocate hok) (fun hother hne => ⟨hother, hne⟩) ?_)
  intro _ _
  refine .inl ⟨books', ?_, Memory.Pool.live_ne_nil_of_allocate hok⟩
  rw [Memory.Pools.get?_put, if_pos rfl, hbooks, Option.map_some]

/-! ## Allocation -/

/-- The running thread serves on with a new thread beside it. -/
theorem Serving.addThread (h : k.Serving W me t) (stem : String) {p : Priority}
    (hp : p ≠ .idle) (stack : Option Stack) :
    ({ k with sched := (k.sched.addThread stem p stack).2 } : Kernel ε).Serving W me t := by
  have hblank := Scheduler.blank_newcomer k.sched stem p stack
  have horderly := h.settled.sched.add hblank
  have hget := Registry.get?_add h.settled.sched.threads (k.sched.newcomer stem p stack)
  have hfresh := Registry.get?_nextHandle h.settled.sched.threads
  have hne : ∀ {j u}, k.sched.threads.get? j = some u → k.sched.threads.nextHandle ≠ j := by
    rintro j u hu rfl
    rw [hfresh] at hu
    simp at hu
  obtain ⟨_, hmain, -⟩ := h.settled.roles.alive
  obtain ⟨_, hidle, -⟩ := h.settled.roles.spare
  have hothers : ∀ j, j ≠ k.sched.threads.nextHandle →
      (k.sched.threads.add (k.sched.newcomer stem p stack)).get? j = k.sched.threads.get? j := by
    intro j hj
    rw [hget, if_neg hj]
  have hnew : ∀ u, (k.sched.threads.add (k.sched.newcomer stem p stack)).get?
      k.sched.threads.nextHandle = some u → u.Blank ∧ u.priority ≠ .idle := by
    intro u hu
    rw [hget, if_pos rfl] at hu
    obtain rfl := Option.some.inj hu
    exact ⟨hblank, hp⟩
  have hsettled := h.settled.exchange horderly hothers (by simp [hfresh]) hnew (hne hmain)
    (hne hidle)
  refine ⟨⟨h.going, hsettled, h.current, ?_, h.running⟩, ?_, h.inside, h.program⟩
  · exact (hothers me (Ne.symm (hne h.record))).trans h.record
  · intro j u hu hready
    by_cases hj : j = k.sched.threads.nextHandle
    · -- The newcomer outranks nobody, because it is dead until it is activated.
      have hdead := (hnew u (hj ▸ hu)).1.dead
      rw [hready] at hdead
      simp at hdead
    · exact h.unrivalled ((hothers j hj).symm.trans hu) hready

/-- What is allocated is used for its purpose. -/
theorem Serving.obtained (h : k.Serving W me t) (address size : Nat) {purpose : Purpose ε}
    (hpurpose : purpose.Fits) : (k.obtained address size purpose).Sound W := by
  cases purpose with
  | address => exact h.reply _
  | stack entry priority =>
    have h' := h.addThread k.config.threadStem hpurpose (some { address, size })
    have hentries : ∀ entries, ({ k with
        sched := (k.sched.addThread k.config.threadStem priority (some { address, size })).2
        entries } : Kernel ε).Serving W me t := fun _ =>
      ⟨⟨h'.going, h'.settled, h'.current, h'.record, h'.running⟩, h'.unrivalled, h'.inside,
        h'.program⟩
    exact ((hentries _).emit _).reply _

/-- A kernel in which the running thread has joined the memory queue is settled, if the pool it
waits for is covered. -/
theorem Serving.settled_wait (h : k.Serving (fun other => W other ∧ other ≠ pool) me t)
    (hoccupied : k.pools.Occupied pool) (hfits : k.pools.Fits pool size) {purpose : Purpose ε}
    (hpurpose : purpose.Fits) :
    Settled W ((k.sched.suspended me .memory .infinite).parked me
        (.inside (.allocate pool size purpose)))
      (k.pools.wait me t.priority.rank pool) k.main k.idle := by
  let here : Position ε := .inside (.allocate pool size purpose)
  let waiter : Thread (Position ε) :=
    { t.arm .memory .infinite with state := .waiting, position := some here }
  let s' := (k.sched.suspended me .memory .infinite).parked me here
  have hsuspended := h.settled.sched.suspended h.record h.running
    (by simp : WaitReason.memory ≠ .mutex) .infinite
  have hrecord := Scheduler.get?_suspended k.sched me me .memory .infinite
  rw [if_pos rfl, h.record, Option.map_some] at hrecord
  have horderly : s'.Orderly := hsuspended.parked hrecord here
  have hwaiter : s'.threads.get? me = some waiter := by
    rw [Scheduler.get?_parked, if_pos rfl, hrecord]
    rfl
  have hothers : ∀ j, j ≠ me → s'.threads.get? j = k.sched.threads.get? j := by
    intro j hj
    rw [Scheduler.get?_parked, if_neg hj, Scheduler.get?_suspended, if_neg hj]
  have hnone : k.sched.waits me = none := by
    rw [Scheduler.waits, h.record, Option.bind_some]
    exact Thread.memoryWait_eq_none (by simp [h.waitingFor])
  have hwaits : s'.waits = Function.update k.sched.waits me (some (t.priority, pool)) := by
    rw [(Scheduler.RousedBut.of_get? hothers).waits_eq horderly, Scheduler.waits, hwaiter]
    rfl
  have hplaced : waiter.Placed (k.pools.wait me t.priority.rank pool) me := by
    refine ⟨fun _ => rfl, ?_, fun _ => ⟨_, rfl, rfl⟩⟩
    intro _ pending hhere
    obtain rfl := Position.inside.inj (Option.some.inj hhere)
    exact ⟨hfits, hpurpose⟩
  refine h.settled.change h.record (.of_get? hothers) horderly hwaiter rfl (by simp [waiter])
    (by simp [waiter]) (fun hidle => absurd hidle h.program) hplaced
    (h.settled.books.of_registry rfl) (.of_registry rfl)
    (h.settled.waiting.enqueue hnone t.priority pool) ?_ ?_
  · intro j p other hwait
    rw [hwaits, Function.update_apply] at hwait
    split at hwait
    · obtain ⟨books, hbooks, -⟩ := hoccupied
      obtain ⟨-, rfl⟩ := Prod.ext_iff.mp (Option.some.inj hwait)
      exact ⟨books, hbooks⟩
    · exact h.settled.registered hwait
  · intro other hother
    by_cases heq : other = pool
    · -- The allocation that stands in the way may be released.
      subst heq
      exact fun _ => .inl hoccupied
    · refine (h.settled.covered ⟨hother, heq⟩).mono ?_ (fun hoccupied => hoccupied)
        ((Scheduler.RousedBut.of_get? hothers).retried ?_)
      · intro j p hwait
        rw [hwaits, Function.update_apply] at hwait
        split at hwait
        · rw [Option.some.injEq, Prod.mk.injEq] at hwait
          exact absurd hwait.2.symm heq
        · exact ⟨j, p, hwait⟩
      · intro u hu
        obtain rfl : t = u := Option.some.inj (h.record.symm.trans hu)
        exact Thread.not_retries (by simp [h.running])

/-- The running thread waits for memory of a pool in which something is allocated. -/
theorem Serving.awaitMemory (h : k.Serving (fun other => W other ∧ other ≠ pool) me t)
    (hoccupied : k.pools.Occupied pool) (hfits : k.pools.Fits pool size) {purpose : Purpose ε}
    (hpurpose : purpose.Fits) : GoesOn W (k.awaitMemory pool size purpose) := by
  have hold := h.settled.placed h.record
  have hsuspended := h.settled.sched.suspended h.record h.running
    (by simp : WaitReason.memory ≠ .mutex) .infinite
  have hget := Scheduler.get?_suspended k.sched me
  have hrecord := hget me .memory .infinite
  rw [if_pos rfl, h.record, Option.map_some] at hrecord
  rw [Kernel.awaitMemory, h.me_eq]
  show GoesOn W (k.orRefuse (k.sched.find me) _)
  rw [Scheduler.find_eq h.record]
  show GoesOn W (k.sched.block me .memory .infinite >>= _)
  rw [Scheduler.block_eq h.record]
  let waiting : Kernel ε := ({ k with
    pools := k.pools.wait me t.priority.rank pool
    sched := k.sched.suspended me .memory .infinite } : Kernel ε).emit (.wait pool me)
  refine switchNext_sound (k := waiting) h.going h.inside hsuspended ?_ h.current hrecord ?_ ?_
    (h.settled_wait hoccupied hfits hpurpose)
  · intro j u hu hrunning
    change (k.sched.suspended me .memory .infinite).threads.get? j = some u at hu
    rw [hget] at hu
    split at hu
    · rw [h.record, Option.map_some, Option.some.injEq] at hu
      simp [← hu] at hrunning
    · next hj => exact hj (h.eq_of_running hu hrunning)
  · exact hold.position (by simp [h.running])
  · exact fun hidle => absurd hidle h.program

/-- What an attempt to allocate with waiting comes to. It is refused if it asks for nothing, if the
pool is not there, or if the pool could not meet it even if it were empty. It is granted if the pool
meets it now. Otherwise the thread waits. -/
inductive Tried (k : Kernel ε) (pool : PoolId) (size : Nat) (purpose : Purpose ε) :
    Except Invariant (Kernel ε) → Prop
  | empty (hsize : size = 0) : Tried k pool size purpose (.ok (k.refuse .invalidParameter))
  | unknown (hsize : size ≠ 0) (hbooks : k.pools.registry.get? pool = none) :
    Tried k pool size purpose (.ok (k.refuse .invalidId))
  | hopeless {books : Memory.Pool} {requested : Nat} (hsize : size ≠ 0)
    (hbooks : k.pools.registry.get? pool = some books)
    (hfull : books.allocate size = .error (.exhausted requested))
    (hnot : books.canEverFit size = false) :
    Tried k pool size purpose (.ok (k.refuse .insufficientResources))
  | granted {pools : Memory.Pools} {address : Nat} (hsize : size ≠ 0)
    (hok : k.pools.allocate pool size = .ok (address, pools)) :
    Tried k pool size purpose (.ok ((({ k with pools } : Kernel ε).emit
      (.alloc pool address size)).obtained address size purpose))
  | starved {books : Memory.Pool} {requested : Nat} (hsize : size ≠ 0)
    (hbooks : k.pools.registry.get? pool = some books)
    (hfull : books.allocate size = .error (.exhausted requested))
    (hfits : books.canEverFit size = true) :
    Tried k pool size purpose (k.awaitMemory pool size purpose)

theorem tried (k : Kernel ε) (pool : PoolId) (size : Nat) (purpose : Purpose ε) :
    Tried k pool size purpose (k.allocateBlocking pool size purpose) := by
  by_cases hsize : size = 0
  · rw [Kernel.allocateBlocking, if_pos hsize]
    exact .empty hsize
  · rw [Kernel.allocateBlocking, if_neg hsize]
    cases hbooks : k.pools.registry.get? pool with
    | none =>
      rw [Memory.Pools.allocate_unknown hsize hbooks]
      exact .unknown hsize hbooks
    | some books =>
      have hpools := Memory.Pools.allocate_eq hsize hbooks
      cases hallocate : books.allocate size with
      | ok allocated =>
        rw [hallocate] at hpools
        rw [hpools]
        exact .granted hsize hpools
      | error error =>
        obtain ⟨requested, rfl⟩ := Memory.Pool.allocate_eq_error hsize hallocate
        rw [hpools, hallocate]
        show Tried k pool size purpose (k.orRefusePool (k.pools.canEverFit pool size) _)
        rw [Memory.Pools.canEverFit_eq hbooks]
        show Tried k pool size purpose (if books.canEverFit size then _ else _)
        split
        · next hfits => exact .starved hsize hbooks hallocate hfits
        · next hnot => exact .hopeless hsize hbooks hallocate (Bool.eq_false_iff.mpr hnot)

/-- An attempt to allocate with waiting goes on. If it is the first one every pool is covered, and
if it is a later one the request fits; either way the pool is covered afterwards. -/
theorem Serving.allocateBlocking (h : k.Serving (fun other => W other ∧ other ≠ pool) me t)
    (hpool : (W pool → Covered k.sched k.pools pool) ∨ k.pools.Fits pool size)
    {purpose : Purpose ε} (hpurpose : purpose.Fits) :
    GoesOn W (k.allocateBlocking pool size purpose) := by
  have hserving : (W pool → Covered k.sched k.pools pool) → k.Serving W me t := fun hcovered =>
    h.repool (h.settled.cover hcovered)
  have htried := k.tried pool size purpose
  generalize k.allocateBlocking pool size purpose = outcome at htried ⊢
  cases htried with
  | empty hsize =>
    exact (hserving (hpool.resolve_right fun hfits => hfits.1 hsize)).goesOn_reply _
  | unknown _ hbooks => exact (hserving fun _ => h.settled.covered_unknown hbooks).goesOn_reply _
  | hopeless _ hbooks _ hnot =>
    -- A later attempt never comes here, for what fits once fits for ever.
    have hcovered := hpool.resolve_right fun hfits =>
      Bool.eq_false_iff.mp hnot (hfits.2.2 _ hbooks)
    exact (hserving hcovered).goesOn_reply _
  | @granted _ address _ hok =>
    obtain ⟨books, books', hbooks, hallocate, rfl⟩ := Memory.Pools.allocate_eq_ok hok
    exact ⟨_, rfl, ((h.allocated hbooks hallocate).emit _).obtained address size hpurpose⟩
  | starved hsize hbooks hfull hfits =>
    -- The pool could meet the request if it were empty, so it is not empty.
    have hlive := (h.settled.books.tiled hbooks).live_ne_nil_of_exhausted hfits hfull
    exact h.awaitMemory ⟨_, hbooks, hlive⟩ (h.settled.books.fits hbooks hsize hfits) hpurpose

theorem Serving.allocate (h : k.Serving W me t) (pool : PoolId) (size : Nat) :
    GoesOn W (k.allocate pool size) := by
  refine h.orRefusePool ?_
  rintro ⟨address, pools'⟩ hok
  obtain ⟨books, books', hbooks, hallocate, rfl⟩ := Memory.Pools.allocate_eq_ok hok
  have h' : k.Serving (fun other => W other ∧ other ≠ pool) me t :=
    h.repool (h.settled.weaken And.left)
  exact ((h'.allocated hbooks hallocate).emit _).goesOn_reply _

/-! ## Release -/

/-- The thread that a release serves is ready to try the pool again, which covers the pool. -/
theorem Settled.serve {s : Scheduler (Position ε)} {pools : Memory.Pools} {main idle id : ThreadId}
    {u : Thread (Position ε)} {p : Priority} {rest : Memory.Waiters}
    (h : Settled (fun other => W other ∧ other ≠ pool) s pools main idle)
    (hu : s.threads.get? id = some u) (hwait : u.memoryWait = some (p, pool))
    (hrest : Memory.Waiting (Function.update s.waits id none) rest) :
    Settled W (s.awakened id u.priority .memory) { pools with waiters := rest } main idle := by
  obtain ⟨hreason, -, pending, hposition, hretries⟩ := Thread.memoryWait_eq_some hwait
  have hstate : u.state = .waiting := (h.sched.tidy hu).waiting_iff.mpr (by simp [hreason])
  have horderly := h.sched.awakened hu hreason (by simp)
  have hget := Scheduler.get?_awakened s id
  have hothers : ∀ j, j ≠ id →
      (s.awakened id u.priority .memory).threads.get? j = s.threads.get? j := by
    intro j hj
    rw [hget, if_neg hj]
  have hawake : (s.awakened id u.priority .memory).threads.get? id =
      some { u.disarm with state := .ready } := by
    rw [hget, if_pos rfl, hu, Option.map_some]
  have hplaced := h.placed hu
  have hidle : id ≠ idle := h.roles.ne_idle hu (.inl hstate)
  have hwaits : (s.awakened id u.priority .memory).waits = Function.update s.waits id none := by
    rw [(Scheduler.RousedBut.of_get? hothers).waits_eq horderly, Scheduler.waits, hawake]
    rfl
  refine h.change hu (.of_get? hothers) horderly hawake rfl (by simp) (by simp)
    (fun heq => absurd heq hidle) ?_ (h.books.of_registry rfl) (.of_registry rfl) hrest ?_ ?_
  · refine ⟨fun _ => hplaced.position (by simp [hstate]), ?_, by simp⟩
    intro _ pending' hposition'
    exact hplaced.fits (.inr hstate) pending' hposition'
  · intro j p other hwait
    rw [hwaits, Function.update_apply] at hwait
    split at hwait
    · simp at hwait
    · exact h.registered hwait
  · intro other hother
    by_cases heq : other = pool
    · -- Even if the pool is empty now, the woken thread will try it.
      subst heq
      exact fun _ => .inr ⟨id, _, hawake, rfl, .inside pending, hposition, hretries⟩
    · refine (h.covered ⟨hother, heq⟩).mono ?_ (fun hoccupied => hoccupied)
        ((Scheduler.RousedBut.of_get? hothers).retried ?_)
      · intro j p hwait
        rw [hwaits, Function.update_apply] at hwait
        split at hwait
        · simp at hwait
        · exact ⟨j, p, hwait⟩
      · intro v hv
        obtain rfl : u = v := Option.some.inj (hu.symm.trans hv)
        exact Thread.not_retries (by simp [hstate])

/-- The kernel after a release, before the call ends. -/
def freed (k : Kernel ε) (pool : PoolId) (address : Nat) (pools : Memory.Pools)
    (sched : Scheduler (Position ε)) : Kernel ε :=
  { k.emit (.free pool address) with pools, sched }

/-- A release that serves nobody is answered at once. -/
theorem free_eq_reply {pools' rest : Memory.Pools} {address released : Nat}
    (hok : k.pools.deallocate pool address = .ok (released, pools'))
    (hnext : pools'.wakeNext pool = (none, rest)) :
    k.free pool address = .ok ((k.freed pool address rest k.sched).reply (.ok .done)) := by
  obtain rfl := Memory.Pools.wakeNext_none hnext
  rw [Kernel.free, hok]
  simp only [orRefusePool, orRefuse, Except.mapError, emit, hnext]
  rfl

/-- A release that serves a thread is answered after that has run, if it outranks the caller. -/
theorem free_eq_preemptFor {pools' rest : Memory.Pools} {address released : Nat} {id : ThreadId}
    {u : Thread (Position ε)} (hok : k.pools.deallocate pool address = .ok (released, pools'))
    (hnext : pools'.wakeNext pool = (some id, rest)) (hu : k.sched.threads.get? id = some u)
    (hreason : u.waitingFor = some .memory) :
    k.free pool address =
      (k.freed pool address rest (k.sched.awakened id u.priority .memory)).preemptFor id
        (.ok .done) := by
  rw [Kernel.free, hok]
  simp only [orRefusePool, orRefuse, Except.mapError, emit, hnext, Scheduler.wake_eq hu hreason]
  rfl

theorem Serving.free (h : k.Serving W me t) (pool : PoolId) (address : Nat) :
    GoesOn W (k.free pool address) := by
  cases hok : k.pools.deallocate pool address with
  | error error =>
    rw [Kernel.free, hok]
    exact h.goesOn_reply _
  | ok result =>
    obtain ⟨released, pools'⟩ := result
    obtain ⟨books, books', hbooks, hdeallocate, rfl⟩ := Memory.Pools.deallocate_eq_ok hok
    have hfit := Memory.Pool.canEverFit_deallocate hdeallocate
    have htiled := (h.settled.books.tiled hbooks).deallocate hdeallocate
    cases hnext : k.pools.waiters.nextFor? pool with
    | none =>
      have hnobody := h.settled.waiting.nextFor?_eq_none.mp hnext
      have hsettled : Settled W k.sched (k.pools.put pool books') k.main k.idle := by
        refine h.settled.put hbooks hfit htiled (fun hother _ => hother) ?_
        rintro - ⟨id, p, hwait⟩
        exact absurd hwait (hnobody id p)
      rw [free_eq_reply hok (Memory.Pools.wakeNext_eq_none hnext)]
      exact ((h.repool hsettled).emit _).goesOn_reply _
    | some served =>
      obtain ⟨id, rest⟩ := served
      obtain ⟨p, hwait, hrest, -⟩ := h.settled.waiting.nextFor?_eq_some hnext
      obtain ⟨u, hu, hmemory⟩ := Option.bind_eq_some_iff.mp hwait
      obtain ⟨hreason, -, -⟩ := Thread.memoryWait_eq_some hmemory
      have hstate : u.state = .waiting :=
        (h.settled.sched.tidy hu).waiting_iff.mpr (by simp [hreason])
      have hne : id ≠ me := h.ne_of_not_running hu (by simp [hstate])
      have hget := Scheduler.get?_awakened k.sched id
      -- Between the release and the wake-up the pool may be empty while threads wait for it.
      have hput : Settled (fun other => W other ∧ other ≠ pool) k.sched (k.pools.put pool books')
          k.main k.idle :=
        h.settled.put hbooks hfit htiled (fun hother _ => hother.1) fun hpool => absurd rfl hpool.2
      have hsettled := hput.serve hu hmemory hrest
      have hawake : (k.sched.awakened id u.priority .memory).threads.get? id =
          some { u.disarm with state := .ready } := by
        rw [hget, if_pos rfl, hu, Option.map_some]
      have hrecord : (k.sched.awakened id u.priority .memory).threads.get? me = some t := by
        rw [hget, if_neg (Ne.symm hne), h.record]
      have hruns : (k.freed pool address { k.pools.put pool books' with waiters := rest }
          (k.sched.awakened id u.priority .memory)).Runs W me t :=
        ⟨h.going, hsettled, h.current, hrecord, h.running⟩
      rw [free_eq_preemptFor hok (Memory.Pools.wakeNext_eq_some hnext) hu hreason]
      refine hruns.preemptFor h.inside h.program hawake ?_ _
      intro j v hj hv hready
      change (k.sched.awakened id u.priority .memory).threads.get? j = some v at hv
      rw [hget, if_neg hj] at hv
      exact h.unrivalled hv hready

/-! ## Pools that come and go -/

theorem Serving.poolCreate (h : k.Serving W me t) (base size : Nat) :
    GoesOn W (k.poolCreate base size) := by
  refine h.orRefusePool ?_
  rintro ⟨pool, pools'⟩ hok
  obtain ⟨books, hnew, rfl, rfl⟩ := Memory.Pools.create_eq_ok hok
  have hget := Registry.get?_add h.settled.books.registry books
  have hfresh := Registry.get?_nextHandle h.settled.books.registry
  have hsettled : Settled W k.sched
      { k.pools with registry := k.pools.registry.add books } k.main k.idle := by
    refine h.settled.repool (h.settled.books.add (Memory.Pool.tiled_new hnew))
      (h.settled.books.extends_add books) rfl ?_ ?_
    · intro j p other hwait
      obtain ⟨old, hold⟩ := h.settled.registered hwait
      rw [hget]
      split
      · exact ⟨books, rfl⟩
      · exact ⟨old, hold⟩
    · intro other hother
      refine (h.settled.covered hother).mono (fun hwait => ⟨_, _, hwait⟩) ?_
        (fun hretried => hretried)
      rintro ⟨old, hold, hlive⟩
      have hne : other ≠ k.pools.registry.nextHandle := by
        rintro rfl
        simp [hfresh] at hold
      exact ⟨old, by rw [hget, if_neg hne, hold], hlive⟩
  exact ((h.repool hsettled).emit _).goesOn_reply _

theorem Serving.poolDelete (h : k.Serving W me t) (pool : PoolId) :
    GoesOn W (k.poolDelete pool) := by
  refine h.orRefusePool ?_
  intro pools' hok
  obtain ⟨-, -, hzero, -, rfl⟩ := Memory.Pools.delete_eq_ok hok
  have hnobody := h.settled.waiting.waitingOn_eq_zero.mp hzero
  have hget := Registry.get?_erase k.pools.registry pool
  have hsettled : Settled W k.sched
      { k.pools with registry := k.pools.registry.erase pool } k.main k.idle := by
    refine h.settled.repool (h.settled.books.erase pool)
      (Memory.Pools.extends_erase k.pools pool) rfl ?_ ?_
    · intro j p other hwait
      obtain ⟨old, hold⟩ := h.settled.registered hwait
      have hne : other ≠ pool := by
        rintro rfl
        exact hnobody j p hwait
      exact ⟨old, by rw [hget, if_neg hne, hold]⟩
    · intro other hother
      by_cases heq : other = pool
      · subst heq
        rintro ⟨id, p, hwait⟩
        exact absurd hwait (hnobody id p)
      · refine (h.settled.covered hother).mono (fun hwait => ⟨_, _, hwait⟩) ?_
          (fun hretried => hretried)
        rintro ⟨old, hold, hlive⟩
        exact ⟨old, by rw [hget, if_neg heq, hold], hlive⟩
  exact ((h.repool hsettled).emit _).goesOn_reply _

end CoopKernel.Kernel
