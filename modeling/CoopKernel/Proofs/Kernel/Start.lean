import CoopKernel.Kernel.Start
import CoopKernel.Proofs.Kernel.Switching

/-!
# The start goes on

A kernel that starts has exactly two threads: the main thread runs, and the idle thread is ready to
rest (`dawn`). Its built-in pools may lie anywhere (`start_eq`), and it is sound
(`start_sound`).
-/

namespace CoopKernel.Kernel

variable {ε : Type}

/-- The main thread before it runs. -/
def mainThread (config : Config) : Thread (Position ε) where
  name := config.threadStem ++ "-" ++ toString 1
  priority := .normal
  stack := none
  position := some (.delivering (.reply (.ok .done)))

/-- The idle thread before it is activated. -/
def idleThread (config : Config) (address : Nat) : Thread (Position ε) where
  name := config.threadStem ++ "-" ++ toString 2
  priority := .idle
  stack := some { address, size := config.idleStackSize }

/-- The scheduler in which nobody lives yet. -/
def lifeless (config : Config) (address : Nat) : Scheduler (Position ε) where
  threads :=
    (({} : Registry .thread (Thread (Position ε))).add (mainThread config)).add
      (idleThread config address)

/-- The scheduler in which only the main thread lives. -/
def lonely (config : Config) (address : Nat) : Scheduler (Position ε) :=
  ((lifeless config address).readied ⟨1⟩ .normal).dispatched ⟨1⟩ .normal

/-- The scheduler in which the idle thread is ready to rest. -/
def early (config : Config) (address : Nat) : Scheduler (Position ε) :=
  ((lonely config address).parked ⟨2⟩ (.delivering .rest)).readied ⟨2⟩ .idle

/-- A kernel before its idle thread is activated. -/
def prepared (config : Config) (pools : Memory.Pools) (address : Nat)
    (systemPool sharedPool : PoolId) : Kernel ε where
  config
  sched := lonely config address
  pools
  entries := [(⟨2⟩, .rest)]
  main := ⟨1⟩
  idle := ⟨2⟩
  systemPool
  sharedPool

/-- A kernel that has just started. -/
def dawn (config : Config) (pools : Memory.Pools) (address : Nat)
    (systemPool sharedPool : PoolId) : Kernel ε :=
  { prepared config pools address systemPool sharedPool with
    sched := early config address
    journal := [{ event := .threadActivate ⟨2⟩, tick := 0 }] }

/-- Adding a pool keeps pools orderly and serves nobody. -/
theorem create_orderly {pools pools' : Memory.Pools} {base size : Nat} {pool : PoolId}
    (h : pools.Orderly) (hok : pools.create base size = .ok (pool, pools')) :
    pools'.Orderly ∧ pools'.waiters = pools.waiters := by
  obtain ⟨books, hnew, -, rfl⟩ := Memory.Pools.create_eq_ok hok
  exact ⟨h.add (Memory.Pool.tiled_new hnew), rfl⟩

theorem allocate_orderly {pools pools' : Memory.Pools} {size address : Nat} {pool : PoolId}
    (h : pools.Orderly) (hok : pools.allocate pool size = .ok (address, pools')) :
    pools'.Orderly ∧ pools'.waiters = pools.waiters := by
  obtain ⟨books, books', hbooks, hallocate, rfl⟩ := Memory.Pools.allocate_eq_ok hok
  exact ⟨h.put ((h.tiled hbooks).allocate hallocate), rfl⟩

theorem prepare_eq {config : Config} {arena : Arena} {kernel : Kernel ε}
    (h : prepare config arena = .ok kernel) :
    ∃ pools address systemPool sharedPool, pools.Orderly ∧ pools.waiters = {} ∧
      kernel = prepared config pools address systemPool sharedPool := by
  rw [prepare] at h
  obtain ⟨-, -, h⟩ := bind_eq_ok h
  obtain ⟨pools, hnew, h⟩ := bind_eq_ok h
  obtain ⟨⟨systemPool, pools₁⟩, hheap, h⟩ := bind_eq_ok h
  obtain ⟨⟨sharedPool, pools₂⟩, hshared, h⟩ := bind_eq_ok h
  obtain ⟨s₁, hs₁, h⟩ := bind_eq_ok h
  obtain ⟨s₂, hs₂, h⟩ := bind_eq_ok h
  obtain ⟨⟨address, pools₃⟩, hstack, h⟩ := bind_eq_ok h
  obtain rfl := Except.ok.inj hs₁
  obtain rfl := Except.ok.inj hs₂
  -- From here on only the pools matter. They are orderly when they are empty, and each of the three
  -- requests leaves them so.
  have hempty : pools.Orderly ∧ pools.waiters = {} := by
    rw [Memory.Pools.new] at hnew
    split at hnew
    · obtain rfl := Except.ok.inj hnew
      exact ⟨⟨Registry.ordered_empty, by simp [Registry.get?]⟩, rfl⟩
    · cases hnew
  obtain ⟨horderly₁, hwaiters₁⟩ := create_orderly hempty.1 (mapError_eq_ok hheap)
  obtain ⟨horderly₂, hwaiters₂⟩ := create_orderly horderly₁ (mapError_eq_ok hshared)
  obtain ⟨horderly₃, hwaiters₃⟩ := allocate_orderly horderly₂ (mapError_eq_ok hstack)
  exact ⟨pools₃, address, systemPool, sharedPool, horderly₃,
    hwaiters₃.trans (hwaiters₂.trans (hwaiters₁.trans hempty.2)), (Except.ok.inj h).symm⟩

/-- The main thread activates the idle thread, and goes on. -/
theorem activate_prepared (config : Config) (pools : Memory.Pools) (address : Nat)
    (systemPool sharedPool : PoolId) :
    (prepared (ε := ε) config pools address systemPool sharedPool).call (.threadActivate ⟨2⟩) =
      .ok { dawn config pools address systemPool sharedPool with
        activity := .delivering (.reply (.ok .done)) } :=
  rfl

theorem start_eq {config : Config} {arena : Arena} {kernel : Kernel ε}
    (h : start config arena = .ok kernel) :
    ∃ pools address systemPool sharedPool, pools.Orderly ∧ pools.waiters = {} ∧
      kernel = dawn config pools address systemPool sharedPool := by
  rw [start] at h
  obtain ⟨ready, hready, h⟩ := bind_eq_ok h
  obtain ⟨called, hcalled, h⟩ := bind_eq_ok h
  obtain ⟨arrived, harrived, h⟩ := bind_eq_ok h
  obtain ⟨pools, address, systemPool, sharedPool, horderly, hwaiters, rfl⟩ :=
    prepare_eq (mapError_eq_ok hready)
  obtain rfl := Except.ok.inj ((activate_prepared ..).symm.trans (mapError_eq_ok hcalled))
  obtain rfl := Except.ok.inj (mapError_eq_ok harrived)
  exact ⟨pools, address, systemPool, sharedPool, horderly, hwaiters, (Except.ok.inj h).symm⟩

/-! ## The first kernel is sound -/

/-- A registry of two objects, looked up. -/
theorem eq_of_get?_pair {sort : ObjectSort} {α : Type} {first second object : α} {next : Nat}
    {handle : Handle sort}
    (h : ({ entries := [(⟨1⟩, first), (⟨2⟩, second)], next } : Registry sort α).get? handle =
      some object) : (handle = ⟨1⟩ ∧ object = first) ∨ (handle = ⟨2⟩ ∧ object = second) := by
  have hmem := Registry.mem_entries_of_get? h
  simpa using hmem

theorem eq_of_get?_early {config : Config} {address : Nat} {id : ThreadId}
    {t : Thread (Position ε)} (h : (early config address).threads.get? id = some t) :
    (id = ⟨1⟩ ∧ t = { mainThread config with state := .running }) ∨
      (id = ⟨2⟩ ∧ t = { idleThread (ε := ε) config address with
        state := .ready, position := some (.delivering .rest) }) :=
  eq_of_get?_pair h

theorem orderly_early (config : Config) (address : Nat) :
    (early (ε := ε) config address).Orderly := by
  have hmain : (mainThread (ε := ε) config).Blank :=
    ⟨⟨by simp [mainThread], fun _ => rfl, by simp [mainThread], List.Pairwise.nil⟩, rfl, rfl⟩
  have hidle : (idleThread (ε := ε) config address).Blank :=
    ⟨⟨by simp [idleThread], fun _ => rfl, by simp [idleThread], List.Pairwise.nil⟩, rfl, rfl⟩
  -- The same operations that made the scheduler show that it is orderly.
  have hlifeless : (lifeless (ε := ε) config address).Orderly :=
    (Scheduler.orderly_empty.add hmain).add hidle
  let active : Thread (Position ε) := { mainThread config with state := .ready }
  let resting : Thread (Position ε) :=
    { idleThread (ε := ε) config address with position := some (.delivering .rest) }
  have hlonely : (lonely (ε := ε) config address).Orderly := by
    have hready : ((lifeless config address).readied ⟨1⟩ .normal).Orderly :=
      hlifeless.readied (t := mainThread config) rfl (.inl rfl)
    refine hready.dispatched (t := active) rfl rfl ?_
    intro j v hv
    have heither : (j = ⟨1⟩ ∧ v = active) ∨ (j = ⟨2⟩ ∧ v = idleThread config address) :=
      eq_of_get?_pair hv
    rcases heither with ⟨-, rfl⟩ | ⟨-, rfl⟩ <;> simp [active, idleThread]
  have hasleep : (lonely (ε := ε) config address).threads.get? ⟨2⟩ =
      some (idleThread config address) := rfl
  have hparked := hlonely.parked hasleep (.delivering .rest)
  exact hparked.readied (t := resting) rfl (.inl rfl)

/-- At the start nobody waits for memory. -/
theorem waits_early (config : Config) (address : Nat) (id : ThreadId) :
    (early (ε := ε) config address).waits id = none := by
  rw [Scheduler.waits, Option.bind_eq_none_iff]
  intro t ht
  rcases eq_of_get?_early ht with ⟨-, rfl⟩ | ⟨-, rfl⟩ <;>
    exact Thread.memoryWait_eq_none (by simp [mainThread, idleThread])

theorem settled_early (config : Config) {pools : Memory.Pools} (address : Nat)
    (horderly : pools.Orderly) (hwaiters : pools.waiters = {}) :
    Settled (fun _ => True) (early (ε := ε) config address) pools ⟨1⟩ ⟨2⟩ := by
  have hwaits := waits_early (ε := ε) config address
  refine ⟨orderly_early config address, ?_,
    ⟨by simp, ⟨_, rfl, by simp⟩, ⟨_, rfl, rfl, .inl rfl⟩, ?_⟩, ?_, ?_, horderly, ?_,
    by simp [hwaits], ?_⟩
  · intro id t ht _
    rcases eq_of_get?_early ht with ⟨-, rfl⟩ | ⟨-, rfl⟩ <;> rfl
  · intro id t ht hne
    rcases eq_of_get?_early ht with ⟨-, rfl⟩ | ⟨rfl, -⟩
    · simp [mainThread]
    · exact absurd rfl hne
  · intro t ht
    obtain rfl := Option.some.inj ht
    rfl
  · intro id t ht
    rcases eq_of_get?_early ht with ⟨-, rfl⟩ | ⟨-, rfl⟩
    · exact ⟨fun _ => rfl, by simp, by simp⟩
    · exact ⟨fun _ => rfl, by simp, by simp⟩
  · rw [hwaiters, funext hwaits]
    exact ⟨by simp, by simp⟩
  · rintro pool - ⟨id, p, hwait⟩
    rw [hwaits] at hwait
    simp at hwait

/-- A kernel that has just started is sound, and every pool is covered. -/
theorem start_sound {config : Config} {arena : Arena} {kernel : Kernel ε}
    (h : start config arena = .ok kernel) : kernel.Sound fun _ => True := by
  obtain ⟨pools, address, systemPool, sharedPool, horderly, hwaiters, rfl⟩ := start_eq h
  have hruns : (dawn (ε := ε) config pools address systemPool sharedPool).Runs (fun _ => True) ⟨1⟩
      { mainThread config with state := .running } :=
    ⟨rfl, settled_early config address horderly hwaiters, rfl, rfl, rfl⟩
  refine hruns.sound_outside ?_ rfl (by simp [dawn, prepared]) ?_
  · intro id t ht _
    rcases eq_of_get?_early ht with ⟨-, rfl⟩ | ⟨-, rfl⟩
    · show Priority.normal ≤ .normal
      decide
    · show Priority.idle ≤ .normal
      decide
  · intro hidle
    simp [dawn, prepared] at hidle

end CoopKernel.Kernel
