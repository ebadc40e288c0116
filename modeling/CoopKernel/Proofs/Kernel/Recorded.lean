import CoopKernel.Proofs.Kernel.Booting
import CoopKernel.Proofs.Kernel.Telling

/-!
# The journal determines mutexes and memory

Somebody who notes the events of a run from its beginning has, after every move, the true account
of the mutexes and of what is allocated where (`start_recorded`). At the beginning there are no
mutexes, and only the idle thread's stack is allocated, which no event says.

The idle thread's stack is not protected. A program may release it like anything else in the system
pool, and then it is allocated no more (`exists_idleStack_released`).
-/

namespace CoopKernel.Kernel

open Trace (Event Ledger)
open Trace.Ledger (Outstanding)

variable {ε : Type} {config : Config} {arena : Arena} {first k : Kernel ε}
  {moves : List (Move ε)} {pool : PoolId} {address : Nat}

/-- Whether the idle thread's stack lies at an address of a pool. -/
def isIdleStack (k : Kernel ε) (pool : PoolId) (address : Nat) : Bool :=
  pool == k.systemPool &&
    ((k.sched.threads.get? k.idle).bind (·.stack)).any (·.address == address)

/-- What there is before anything is reported: no mutexes, and the idle thread's stack. -/
def opening (k : Kernel ε) : Ledger where
  owners := fun _ => none
  lent := k.isIdleStack

/-- Whether something is allocated at an address of a pool. -/
def HasLive (k : Kernel ε) (pool : PoolId) (address : Nat) : Prop :=
  ∃ books segment, k.pools.registry.get? pool = some books ∧ segment ∈ books.live ∧
    segment.base = address

/-- The events that a kernel has reported since it started determine its mutexes and its memory. -/
structure Recorded (first k : Kernel ε) : Prop where
  /-- Replaying them, from no mutexes, gives all mutexes with their owners. -/
  mutexes : ∀ mutex, (first.opening.replay k.reported).owners mutex =
    (k.sched.mutexes.get? mutex).map Mutex.owner
  /-- What is allocated has been allocated and not released since, or it is the idle thread's stack
  and was never released. -/
  memory : ∀ pool address, k.HasLive pool address ↔ Outstanding k.reported pool address ∨
    first.isIdleStack pool address = true ∧ .free pool address ∉ k.reported

/-- Nothing is allocated before the idle thread has its stack. -/
theorem lent_stock (config : Config) (arena : Arena) (pool : PoolId) (address : Nat) :
    (stock config arena).lent pool address = false := by
  have hempty : ({} : Registry .pool Memory.Pool).Ordered := Registry.ordered_empty
  have hsystem : (systemStock config arena).registry.Ordered := hempty.add _
  rw [Memory.Pools.lent, stock, Registry.get?_add hsystem, systemStock, Registry.get?_add hempty]
  split
  · rfl
  · split <;> rfl

/-- A kernel that has just started has the account from which its events go on. -/
theorem ledger_of_start (hstart : start config arena = .ok first) :
    first.ledger = first.opening.replay first.reported := by
  obtain ⟨books, granted, hlive, rfl⟩ := start_stocked hstart
  let pools := (stock config arena).put ⟨1⟩ books
  have hlent : pools.lent = (dawn (ε := ε) config pools arena.heap ⟨1⟩ ⟨2⟩).isIdleStack := by
    funext pool address
    show _ = (pool == ⟨1⟩ && arena.heap == address)
    by_cases hpool : pool = ⟨1⟩
    · subst hpool
      rw [Memory.Pools.lent, Memory.Pools.get?_put, if_pos rfl, get?_stock_system]
      simp [Memory.Segment.beginsAt, hlive]
    · have hother := lent_stock config arena pool address
      rw [Memory.Pools.lent] at hother
      rw [Memory.Pools.lent, Memory.Pools.get?_put, if_neg hpool, hother, beq_false_of_ne hpool,
        Bool.false_and]
  exact congrArg (Ledger.mk fun _ => none) hlent

/-- Whoever has noted the events of a run has the true account at its end. -/
theorem ledger_of_play (hstart : start config arena = .ok first)
    (hplay : first.play moves = some k) : k.ledger = first.opening.replay k.reported := by
  refine (start_sound hstart).play_induction
    (P := fun _ last => last.ledger = first.opening.replay last.reported) hplay
    (ledger_of_start hstart) ?_
  intro before move last next _ hsound hallowed hperform _ ih
  obtain ⟨events, haccounts⟩ := hsound.accounts hallowed hperform
  rw [haccounts.ledger, haccounts.reported, Ledger.replay_append, ih]

theorem start_recorded (hstart : start config arena = .ok first)
    (hplay : first.play moves = some k) : Recorded first k where
  mutexes := fun mutex => congrFun (congrArg Ledger.owners (ledger_of_play hstart hplay).symm) mutex
  memory := by
    intro pool address
    have hrecorded := first.opening.lent_replay_iff k.reported pool address
    rw [← ledger_of_play hstart hplay] at hrecorded
    exact Memory.Pools.lent_iff.symm.trans hrecorded

/-- A run in which the main thread inherits a mutex from a thread whose program ends, and releases
a buffer. -/
def inherited : List (Move Unit) :=
  [answered .mutexCreate, answered (.threadCreate () 4096 .normal), answered (.threadActivate ⟨3⟩),
    [.call (.sleep .immediate), .advance, .advance], answered (.mutexAcquire ⟨1⟩ .infinite),
    [.call (.sleep .immediate), .advance, .advance, .advance], answered .bufferAcquire,
    answered (.bufferRelease ({} : Arena).shared),
    [.call (.mutexAcquire ⟨1⟩ .infinite), .advance, .advance, .advance],
    [.exit, .advance, .advance, .advance]].flatten

theorem recorded_inherited : ∃ first k : Kernel Unit, start {} {} = .ok first ∧
    first.play inherited = some k ∧ Recorded first k ∧ .handoff ⟨1⟩ ⟨1⟩ ∈ k.reported ∧
      .threadTerminate ⟨3⟩ ∈ k.reported ∧ k.sched.owners ⟨1⟩ = some (some ⟨1⟩) ∧
        .free ⟨2⟩ ({} : Arena).shared ∈ k.reported := by
  have hrun : (afterRun {} {} inherited).any (fun k : Kernel Unit =>
      k.reported.contains (.handoff ⟨1⟩ ⟨1⟩) && k.reported.contains (.threadTerminate ⟨3⟩) &&
        k.sched.owners ⟨1⟩ == some (some ⟨1⟩) &&
          k.reported.contains (.free ⟨2⟩ ({} : Arena).shared)) = true := by
    decide +kernel
  obtain ⟨k, hk, hfacts⟩ := Option.any_eq_true _ _ |>.mp hrun
  simp only [Bool.and_eq_true, beq_iff_eq, List.contains_iff_mem] at hfacts
  obtain ⟨⟨⟨hhandoff, hterminate⟩, howner⟩, hfree⟩ := hfacts
  obtain ⟨first, hstart, hplay⟩ := afterRun_eq_some hk
  exact ⟨first, k, hstart, hplay, start_recorded hstart hplay, hhandoff, hterminate, howner, hfree⟩

/-- A program can release the idle thread's stack, which is not allocated then. -/
theorem exists_idleStack_released : ∃ first k : Kernel Unit, start {} {} = .ok first ∧
    first.play (answered (.free ⟨1⟩ ({} : Arena).heap)) = some k ∧
      ¬ ∀ pool address, k.HasLive pool address ↔
        Outstanding k.reported pool address ∨ first.isIdleStack pool address = true := by
  have hrun : (start {} {}).toOption.any (fun first : Kernel Unit =>
      first.isIdleStack ⟨1⟩ ({} : Arena).heap &&
        (first.play (answered (.free ⟨1⟩ ({} : Arena).heap))).any fun k =>
          !k.pools.lent ⟨1⟩ ({} : Arena).heap) = true := by
    decide +kernel
  obtain ⟨first, hfirst, hrun⟩ := Option.any_eq_true _ _ |>.mp hrun
  rw [Bool.and_eq_true] at hrun
  obtain ⟨hstack, hrun⟩ := hrun
  obtain ⟨k, hplay, hgone⟩ := Option.any_eq_true _ _ |>.mp hrun
  refine ⟨first, k, eq_ok_of_toOption hfirst, hplay, fun hall => ?_⟩
  have hlent := Memory.Pools.lent_iff.mpr ((hall _ _).mpr (.inr hstack))
  rw [hlent] at hgone
  cases hgone

end CoopKernel.Kernel
