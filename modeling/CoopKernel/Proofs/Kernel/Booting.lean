import CoopKernel.Proofs.Kernel.Answers
import CoopKernel.Proofs.Memory.Layout

/-!
# Settings that a kernel can start with

Settings are checked before a kernel starts, so that with memory from the host nothing can go wrong
after the check. The check compares the sizes that were asked for. What is taken from a pool is
larger than what was asked for if that is not a multiple of the granularity, and may then not fit
although the check has passed (`exists_unserved`).

* `start_stocked` — the pools of a kernel that has just started;
* `outcome_of_provides` — exactly when a kernel starts and gives its first buffer, and how it is
  refused otherwise;
* `boots_of_dvd` — the check is enough if the pools end on the grid.
-/

namespace CoopKernel

open Memory (Pool Pools)

variable {ε : Type}

namespace Config

/-- Whether a request of a size can be met from a region that is free as a whole. -/
def Fits (config : Config) (size space : Nat) : Prop :=
  ∃ n, config.alignment ∣ n ∧ size ≤ n ∧ n ≤ space

/-- What settings that pass the check have in common. -/
structure Valid (config : Config) : Prop where
  pow : Memory.isPowerOfTwo config.alignment = true
  heap : 0 < config.heapSize
  shared : 0 < config.sharedSize
  stack : 0 < config.idleStackSize
  stack_le : config.idleStackSize ≤ config.heapSize
  buffer : 0 < config.bufferSize
  buffer_le : config.bufferSize ≤ config.sharedSize

theorem valid_of_validate {config : Config} (h : config.validate = .ok ()) : config.Valid := by
  rw [validate] at h
  split at h
  · next hchecks =>
    simp only [hasSizes, Bool.and_eq_true, decide_eq_true_eq] at hchecks
    obtain ⟨⟨⟨⟨⟨⟨⟨-, hheap⟩, hshared⟩, hstack⟩, hbuffer⟩, hpow⟩, hstack_le⟩, hbuffer_le⟩ := hchecks
    exact ⟨hpow, hheap, hshared, hstack, hstack_le, hbuffer, hbuffer_le⟩
  · cases h

theorem validate_eq_error {config : Config} {status : Status}
    (h : config.validate = .error status) : status = .invalidParameter := by
  rw [validate] at h
  split at h
  · cases h
  · exact (Except.error.inj h).symm

/-- A size that is no larger than a region fits into it if the region ends on the grid. -/
theorem Fits.of_dvd {config : Config} {size space : Nat} (hdvd : config.alignment ∣ space)
    (hle : size ≤ space) : config.Fits size space :=
  ⟨space, hdvd, hle, Nat.le_refl _⟩

end Config

/-- The host has memory for both pools. -/
structure Arena.Provides (arena : Arena) (config : Config) : Prop where
  heap : arena.heap ≠ 0 ∧ arena.heap + config.heapSize < Memory.addressSpace
  shared : arena.shared ≠ 0 ∧ arena.shared + config.sharedSize < Memory.addressSpace

namespace Kernel

variable {config : Config} {arena : Arena}

/-! ## The pools -/

/-- The system pool, from which nothing is taken yet. -/
def systemBooks (config : Config) (arena : Arena) : Pool :=
  .whole arena.heap config.heapSize config.alignment

/-- The shared pool, from which nothing is taken yet. -/
def sharedBooks (config : Config) (arena : Arena) : Pool :=
  .whole arena.shared config.sharedSize config.alignment

/-- The system pool by itself. -/
def systemStock (config : Config) (arena : Arena) : Pools where
  registry := ({} : Registry .pool Pool).add (systemBooks config arena)
  alignment := config.alignment

/-- Both pools, from which nothing is taken yet. -/
def stock (config : Config) (arena : Arena) : Pools :=
  { systemStock config arena with
    registry := (systemStock config arena).registry.add (sharedBooks config arena) }

theorem get?_stock_system (config : Config) (arena : Arena) :
    (stock config arena).registry.get? ⟨1⟩ = some (systemBooks config arena) := rfl

/-- What is taken from the system pool leaves the shared one as it is. -/
theorem get?_put_stock (config : Config) (arena : Arena) (books : Pool) :
    ((stock config arena).put ⟨1⟩ books).registry.get? ⟨2⟩ = some (sharedBooks config arena) := rfl

theorem create_eq {pools : Pools} {base size : Nat}
    (hpow : Memory.isPowerOfTwo pools.alignment = true) (husable : Pool.Usable base size) :
    pools.create base size =
      .ok (pools.registry.nextHandle,
        { pools with registry := pools.registry.add (.whole base size pools.alignment) }) := by
  rw [Pools.create, Pool.new_eq_ok_iff.mpr ⟨hpow, husable, rfl⟩]
  rfl

/-! ## The start -/

/-- A kernel is prepared by taking the idle thread's stack from the stock. -/
theorem prepare_of_valid (hvalidate : config.validate = .ok ())
    (hprovides : arena.Provides config) : (prepare config arena : Except Status (Kernel ε)) =
      (((stock config arena).allocate ⟨1⟩ config.idleStackSize).mapError Status.ofPoolError).map
        fun (address, pools) => prepared config pools address ⟨1⟩ ⟨2⟩ := by
  have hvalid := Config.valid_of_validate hvalidate
  have hnew : Pools.new config.alignment = .ok { alignment := config.alignment } :=
    if_pos hvalid.pow
  have hsystem : ({ alignment := config.alignment } : Pools).create arena.heap config.heapSize =
      .ok (⟨1⟩, systemStock config arena) :=
    create_eq hvalid.pow ⟨hprovides.heap.1, hvalid.heap.ne', hprovides.heap.2⟩
  have hshared : (systemStock config arena).create arena.shared config.sharedSize =
      .ok (⟨2⟩, stock config arena) :=
    create_eq hvalid.pow ⟨hprovides.shared.1, hvalid.shared.ne', hprovides.shared.2⟩
  rw [prepare, hvalidate, hnew]
  simp only [bind, Except.bind, Except.mapError, hsystem, hshared]
  cases (stock config arena).allocate ⟨1⟩ config.idleStackSize with
  | error error => rfl
  | ok allocated => rfl

/-- A kernel that can be prepared starts. -/
theorem start_of_prepare {pools : Pools} {address : Nat} {systemPool sharedPool : PoolId}
    (h : (prepare config arena : Except Status (Kernel ε)) =
      .ok (prepared config pools address systemPool sharedPool)) :
    start config arena = .ok (dawn (ε := ε) config pools address systemPool sharedPool) := by
  rw [start, h]
  rfl

/-- Settings that do not pass the check are refused before anything else is done. -/
theorem start_of_invalid (h : config.validate ≠ .ok ()) :
    (start config arena : Except Failure (Kernel ε)) = .error (.refused .invalidParameter) := by
  cases hvalidate : config.validate with
  | ok _ => exact absurd hvalidate h
  | error status =>
    obtain rfl := Config.validate_eq_error hvalidate
    rw [start, prepare, hvalidate]
    rfl

/-- A kernel starts if its idle thread's stack fits, and the stack is all that is allocated then. -/
theorem start_of_fits (hvalidate : config.validate = .ok ()) (hprovides : arena.Provides config)
    (hfits : config.Fits config.idleStackSize config.heapSize) :
    ∃ books granted, books.live = [⟨arena.heap, granted⟩] ∧ start config arena =
      .ok (dawn (ε := ε) config ((stock config arena).put ⟨1⟩ books) arena.heap ⟨1⟩ ⟨2⟩) := by
  have hvalid := Config.valid_of_validate hvalidate
  obtain ⟨books, granted, hallocate, hlive⟩ := Pool.allocate_whole arena.heap hvalid.stack
    hvalid.pow (Nat.lt_of_add_left_lt hprovides.heap.2) hfits
  refine ⟨books, granted, hlive, start_of_prepare ?_⟩
  rw [prepare_of_valid hvalidate hprovides, Pools.allocate_eq hvalid.stack.ne'
    (get?_stock_system config arena), systemBooks, hallocate]
  rfl

/-- A kernel whose idle thread's stack does not fit is refused, though its settings were not. -/
theorem start_of_not_fits (hvalidate : config.validate = .ok ()) (hprovides : arena.Provides config)
    (hfits : ¬ config.Fits config.idleStackSize config.heapSize) :
    (start config arena : Except Failure (Kernel ε)) =
      .error (.refused .insufficientResources) := by
  have hvalid := Config.valid_of_validate hvalidate
  obtain ⟨requested, hallocate⟩ := Pool.allocate_whole_eq_error arena.heap hvalid.stack hvalid.pow
    (Nat.lt_of_add_left_lt hprovides.heap.2) hfits
  rw [start, prepare_of_valid hvalidate hprovides, Pools.allocate_eq hvalid.stack.ne'
    (get?_stock_system config arena), systemBooks, hallocate]
  rfl

/-- A kernel starts only with settings that pass the check, with memory for both pools. -/
theorem provides_of_start {kernel : Kernel ε} (h : start config arena = .ok kernel) :
    config.validate = .ok () ∧ arena.Provides config := by
  rw [start] at h
  obtain ⟨ready, hready, -⟩ := bind_eq_ok h
  have hprepare := mapError_eq_ok hready
  rw [prepare] at hprepare
  obtain ⟨⟨⟩, hvalidate, hprepare⟩ := bind_eq_ok hprepare
  obtain ⟨pools, hnew, hprepare⟩ := bind_eq_ok hprepare
  obtain ⟨⟨systemPool, pools₁⟩, hheap, hprepare⟩ := bind_eq_ok hprepare
  obtain ⟨⟨sharedPool, pools₂⟩, hshared, -⟩ := bind_eq_ok hprepare
  obtain ⟨_, hnew₁, -, -⟩ := Pools.create_eq_ok (mapError_eq_ok hheap)
  obtain ⟨_, hnew₂, -, -⟩ := Pools.create_eq_ok (mapError_eq_ok hshared)
  obtain ⟨-, husable₁, -⟩ := Pool.new_eq_ok_iff.mp hnew₁
  obtain ⟨-, husable₂, -⟩ := Pool.new_eq_ok_iff.mp hnew₂
  exact ⟨hvalidate, ⟨husable₁.base_ne, husable₁.within⟩, ⟨husable₂.base_ne, husable₂.within⟩⟩

/-- Whatever kernel starts, the idle thread's stack is all that is allocated, at the beginning of
the system pool. -/
theorem start_stocked {kernel : Kernel ε} (h : start config arena = .ok kernel) :
    ∃ books granted, books.live = [⟨arena.heap, granted⟩] ∧
      kernel = dawn config ((stock config arena).put ⟨1⟩ books) arena.heap ⟨1⟩ ⟨2⟩ := by
  obtain ⟨hvalidate, hprovides⟩ := provides_of_start h
  by_cases hfits : config.Fits config.idleStackSize config.heapSize
  · obtain ⟨books, granted, hlive, hstart⟩ := start_of_fits hvalidate hprovides hfits
    exact ⟨books, granted, hlive, Except.ok.inj (h.symm.trans hstart)⟩
  · rw [start_of_not_fits hvalidate hprovides hfits] at h
    cases h

/-! ## The first buffer -/

variable {pools pools' : Pools} {address found : Nat}

/-- Whether a kernel's next call, a request for a buffer by the main thread, is answered so. -/
def FirstBuffer (k : Kernel ε) (answer : Answer) : Prop :=
  ∃ k', k.play [.call .bufferAcquire, .advance] = some k' ∧ k'.sched.current = some k'.main ∧
    k'.activity = .arriving (.returned answer)

/-- A call whose section ends at once with a reply is answered, since no interrupt is pending. -/
theorem firstBuffer_of_replies {answer : Answer} {k : Kernel ε} (hanswer : k.activity =
    .delivering (.reply answer)) (hline : k.line = {}) (hcurrent : k.sched.current = some k.main)
    (hcall : (dawn config pools address ⟨1⟩ ⟨2⟩).call .bufferAcquire = .ok k) :
    (dawn (ε := ε) config pools address ⟨1⟩ ⟨2⟩).FirstBuffer answer := by
  have hadvance : k.advance = .ok (k.arrive (.returned answer)) := by
    rw [advance, hanswer]
    show k.deliver _ = _
    rw [deliver, hline]
    rfl
  exact ⟨_, play_cons_iff.mpr ⟨_, rfl, hcall, play_cons_iff.mpr ⟨_, rfl, hadvance, rfl⟩⟩,
    hcurrent, rfl⟩

theorem firstBuffer_of_allocate (hbuffer : config.bufferSize ≠ 0)
    (h : pools.allocate ⟨2⟩ config.bufferSize = .ok (found, pools')) :
    (dawn (ε := ε) config pools address ⟨1⟩ ⟨2⟩).FirstBuffer (.ok (.address found)) := by
  have hcall : (dawn (ε := ε) config pools address ⟨1⟩ ⟨2⟩).call .bufferAcquire =
      .ok (({ dawn config pools address ⟨1⟩ ⟨2⟩ with
        pools := pools', gate := { inside := true } }.emit
          (.alloc ⟨2⟩ found config.bufferSize)).reply (.ok (.address found))) := by
    show allocateBlocking { dawn config pools address ⟨1⟩ ⟨2⟩ with gate := { inside := true } } ⟨2⟩
      config.bufferSize .address = _
    simp only [allocateBlocking, if_neg hbuffer, dawn, prepared, h]
    rfl
  exact firstBuffer_of_replies rfl rfl rfl hcall

theorem firstBuffer_of_exhausted {requested : Nat} (hbuffer : config.bufferSize ≠ 0)
    (h : pools.allocate ⟨2⟩ config.bufferSize = .error (.exhausted requested))
    (hfits : pools.canEverFit ⟨2⟩ config.bufferSize = .ok false) :
    (dawn (ε := ε) config pools address ⟨1⟩ ⟨2⟩).FirstBuffer (.error .insufficientResources) := by
  have hcall : (dawn (ε := ε) config pools address ⟨1⟩ ⟨2⟩).call .bufferAcquire =
      .ok ({ dawn config pools address ⟨1⟩ ⟨2⟩ with gate := { inside := true } }.refuse
        .insufficientResources) := by
    show allocateBlocking { dawn config pools address ⟨1⟩ ⟨2⟩ with gate := { inside := true } } ⟨2⟩
      config.bufferSize .address = _
    simp only [allocateBlocking, if_neg hbuffer, dawn, prepared, h, hfits]
    rfl
  exact firstBuffer_of_replies rfl rfl rfl hcall

/-- A kernel that has started has its shared pool as a whole, so its first buffer is taken from the
beginning of the pool if it fits, and refused if not. -/
theorem firstBuffer_of_start {kernel : Kernel ε} (h : start config arena = .ok kernel) :
    (config.Fits config.bufferSize config.sharedSize →
      kernel.FirstBuffer (.ok (.address arena.shared))) ∧
    (¬ config.Fits config.bufferSize config.sharedSize →
      kernel.FirstBuffer (.error .insufficientResources)) := by
  obtain ⟨hvalidate, hprovides⟩ := provides_of_start h
  have hvalid := Config.valid_of_validate hvalidate
  have hspace := Nat.lt_of_add_left_lt hprovides.shared.2
  obtain ⟨taken, _, -, rfl⟩ := start_stocked h
  have hrest := get?_put_stock config arena taken
  constructor
  · intro hfits
    obtain ⟨books, _, hallocate, -⟩ := Pool.allocate_whole arena.shared hvalid.buffer hvalid.pow
      hspace hfits
    have hgiven : ((stock config arena).put ⟨1⟩ taken).allocate ⟨2⟩ config.bufferSize =
        .ok (arena.shared, ((stock config arena).put ⟨1⟩ taken).put ⟨2⟩ books) := by
      rw [Pools.allocate_eq hvalid.buffer.ne' hrest, sharedBooks, hallocate]
      rfl
    exact firstBuffer_of_allocate hvalid.buffer.ne' hgiven
  · intro hfits
    obtain ⟨requested, hallocate⟩ := Pool.allocate_whole_eq_error arena.shared hvalid.buffer
      hvalid.pow hspace hfits
    have hexhausted : ((stock config arena).put ⟨1⟩ taken).allocate ⟨2⟩ config.bufferSize =
        .error (.exhausted requested) := by
      rw [Pools.allocate_eq hvalid.buffer.ne' hrest, sharedBooks, hallocate]
      rfl
    have hroom : (sharedBooks config arena).canEverFit config.bufferSize = false :=
      Bool.eq_false_iff.mpr
        (mt (Pool.canEverFit_whole_iff arena.shared hvalid.buffer hvalid.pow hspace).mp hfits)
    refine firstBuffer_of_exhausted hvalid.buffer.ne' hexhausted ?_
    rw [Pools.canEverFit_eq hrest, hroom]

/-! ## What settings lead to -/

/-- What settings lead to, given memory for both pools. -/
structure Outcome (ε : Type) (config : Config) (arena : Arena) : Prop where
  /-- Settings that do not pass the check are refused as such. -/
  rejected : config.validate ≠ .ok () →
    (start config arena : Except Failure (Kernel ε)) = .error (.refused .invalidParameter)
  /-- If they do, a kernel starts exactly if its idle thread's stack fits as it is allocated. -/
  started_iff : config.validate = .ok () →
    ((∃ kernel : Kernel ε, start config arena = .ok kernel) ↔
      config.Fits config.idleStackSize config.heapSize)
  /-- If the stack does not fit, it is the lack of room that the start is refused for. -/
  refused : config.validate = .ok () → ¬ config.Fits config.idleStackSize config.heapSize →
    (start config arena : Except Failure (Kernel ε)) = .error (.refused .insufficientResources)
  /-- A kernel that has started gives its first buffer if it fits as it is allocated. -/
  served : ∀ kernel : Kernel ε, start config arena = .ok kernel →
    config.Fits config.bufferSize config.sharedSize →
    kernel.FirstBuffer (.ok (.address arena.shared))
  /-- If the buffer does not fit, it is refused. -/
  unserved : ∀ kernel : Kernel ε, start config arena = .ok kernel →
    ¬ config.Fits config.bufferSize config.sharedSize →
    kernel.FirstBuffer (.error .insufficientResources)

/-- Whether a kernel starts, and whether it can give a buffer, depends on the sizes as they are
allocated, and not as the check compares them. -/
theorem outcome_of_provides (ε : Type) (h : arena.Provides config) : Outcome ε config arena where
  rejected := start_of_invalid
  started_iff := by
    intro hvalidate
    constructor
    · rintro ⟨kernel, hstart⟩
      by_contra hfits
      rw [start_of_not_fits hvalidate h hfits] at hstart
      cases hstart
    · intro hfits
      obtain ⟨_, _, -, hstart⟩ := start_of_fits hvalidate h hfits
      exact ⟨_, hstart⟩
  refused := fun hvalidate hfits => start_of_not_fits hvalidate h hfits
  served := fun _ hstart => (firstBuffer_of_start hstart).1
  unserved := fun _ hstart => (firstBuffer_of_start hstart).2

/-- With the settings that are there by default a kernel starts and gives its first buffer. -/
theorem outcome_of_provides_default : Arena.Provides {} {} ∧ Outcome Unit {} {} ∧
    ∃ kernel : Kernel Unit, start {} {} = .ok kernel ∧
      kernel.FirstBuffer (.ok (.address ({} : Arena).shared)) := by
  have hprovides : Arena.Provides {} {} := ⟨by decide, by decide⟩
  have houtcome := outcome_of_provides Unit hprovides
  obtain ⟨kernel, hstart⟩ := (houtcome.started_iff rfl).mpr (.of_dvd (by decide) (by decide))
  exact ⟨hprovides, houtcome, kernel, hstart,
    houtcome.served kernel hstart (.of_dvd (by decide) (by decide))⟩

/-- If both pools end on the grid, settings that pass the check are all that is needed. -/
theorem boots_of_dvd (hvalidate : config.validate = .ok ()) (hprovides : arena.Provides config)
    (hheap : config.alignment ∣ config.heapSize) (hshared : config.alignment ∣ config.sharedSize) :
    ∃ kernel : Kernel ε, start config arena = .ok kernel ∧
      kernel.FirstBuffer (.ok (.address arena.shared)) := by
  have hvalid := Config.valid_of_validate hvalidate
  obtain ⟨_, _, -, hstart⟩ := start_of_fits hvalidate hprovides (.of_dvd hheap hvalid.stack_le)
  exact ⟨_, hstart, (firstBuffer_of_start hstart).1 (.of_dvd hshared hvalid.buffer_le)⟩

/-- A system pool that ends off the grid, with a stack that needs all of it. -/
def tightHeap : Config := { heapSize := 100, idleStackSize := 100 }

/-- A shared pool that ends off the grid, with buffers that need all of it. -/
def tightShared : Config := { sharedSize := 100, bufferSize := 100 }

/-- Settings can pass the check, and still the kernel does not start, or starts and gives no
buffer. -/
theorem exists_unserved :
    (tightHeap.validate = .ok () ∧ Arena.Provides {} tightHeap ∧
      (start tightHeap {} : Except Failure (Kernel Unit)) =
        .error (.refused .insufficientResources)) ∧
    tightShared.validate = .ok () ∧ Arena.Provides {} tightShared ∧
      ∃ kernel : Kernel Unit, start tightShared {} = .ok kernel ∧
        kernel.FirstBuffer (.error .insufficientResources) := by
  have hheap : Arena.Provides {} tightHeap := ⟨by decide, by decide⟩
  have hshared : Arena.Provides {} tightShared := ⟨by decide, by decide⟩
  -- The next multiple of the granularity after a hundred is past the end of the pool.
  have hstack : ¬ tightHeap.Fits 100 100 := by
    rintro ⟨n, ⟨c, rfl⟩, hcovers, hle⟩
    simp only [tightHeap] at hcovers hle
    omega
  have hbuffer : ¬ tightShared.Fits 100 100 := by
    rintro ⟨n, ⟨c, rfl⟩, hcovers, hle⟩
    simp only [tightShared] at hcovers hle
    omega
  obtain ⟨_, _, -, hstart⟩ := start_of_fits (ε := Unit) rfl hshared
    (.of_dvd (by decide) (by decide))
  exact ⟨⟨rfl, hheap, start_of_not_fits rfl hheap hstack⟩, rfl, hshared, _, hstart,
    (firstBuffer_of_start hstart).2 hbuffer⟩

end Kernel

end CoopKernel
