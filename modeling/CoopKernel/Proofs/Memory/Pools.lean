import CoopKernel.Memory.Pools
import CoopKernel.Proofs.Memory.Tiling
import CoopKernel.Proofs.Memory.Waiters
import CoopKernel.Proofs.Registry

/-!
# The pools of a system

Each operation on pools is described by what it does to the registry; the queue of waiting threads
is dealt with apart. A request that was found to fit into a pool fits for good (`Pools.Fits`): pools
do not change their dimensions, and the number of a pool that was removed is not given out again
(`Pools.Extends`).
-/

namespace CoopKernel.Memory.Pools

variable {pools pools' : Pools} {pool : PoolId} {books : Pool} {size address : Nat}

/-- Handles ascend, and the region of each pool is tiled. -/
structure Orderly (pools : Pools) : Prop where
  registry : pools.registry.Ordered
  tiled : ∀ {pool books}, pools.registry.get? pool = some books → books.Tiled

/-! ## Requests that fit -/

/-- The pool has been created, and if it is still there the request fits when it is empty. -/
def Fits (pools : Pools) (pool : PoolId) (size : Nat) : Prop :=
  size ≠ 0 ∧ pool.number < pools.registry.next ∧
    ∀ books, pools.registry.get? pool = some books → books.canEverFit size

/-- The pools that were there before have kept their dimensions or are gone. -/
structure Extends (pools pools' : Pools) : Prop where
  next_le : pools.registry.next ≤ pools'.registry.next
  same : ∀ {pool books'}, pool.number < pools.registry.next →
    pools'.registry.get? pool = some books' →
    ∃ books, pools.registry.get? pool = some books ∧ books'.canEverFit = books.canEverFit

theorem Extends.of_registry (h : pools'.registry = pools.registry) : pools.Extends pools' where
  next_le := Nat.le_of_eq (congrArg (·.next) h.symm)
  same := by
    intro pool books' _ hbooks'
    exact ⟨books', h ▸ hbooks', rfl⟩

theorem Extends.refl (pools : Pools) : pools.Extends pools := .of_registry rfl

theorem Orderly.of_registry (h : pools.Orderly) (hsame : pools'.registry = pools.registry) :
    pools'.Orderly where
  registry := hsame ▸ h.registry
  tiled := by
    intro pool books hbooks
    exact h.tiled (hsame ▸ hbooks)

theorem Fits.mono (h : pools.Fits pool size) (hextends : pools.Extends pools') :
    pools'.Fits pool size := by
  refine ⟨h.1, Nat.lt_of_lt_of_le h.2.1 hextends.next_le, ?_⟩
  intro books' hbooks'
  obtain ⟨books, hbooks, hsame⟩ := hextends.same h.2.1 hbooks'
  rw [hsame]
  exact h.2.2 books hbooks

theorem Orderly.fits (h : pools.Orderly) (hbooks : pools.registry.get? pool = some books)
    (hsize : size ≠ 0) (hfits : books.canEverFit size) : pools.Fits pool size := by
  refine ⟨hsize, Registry.number_lt_next h.registry hbooks, ?_⟩
  intro books' hbooks'
  obtain rfl : books = books' := Option.some.inj (hbooks.symm.trans hbooks')
  exact hfits

/-! ## Writing books back -/

theorem get?_put (pools : Pools) (pool other : PoolId) (books : Pool) :
    (pools.put pool books).registry.get? other =
      if other = pool then (pools.registry.get? pool).map fun _ => books
      else pools.registry.get? other :=
  Registry.get?_modify pools.registry pool other _

theorem Orderly.put (h : pools.Orderly) (htiled : books.Tiled) :
    (pools.put pool books).Orderly where
  registry := Registry.Ordered.modify h.registry pool fun _ => books
  tiled := by
    intro other books' hbooks'
    rw [get?_put] at hbooks'
    split at hbooks'
    · obtain ⟨_, _, rfl⟩ := Option.map_eq_some_iff.mp hbooks'
      exact htiled
    · exact h.tiled hbooks'

theorem extends_put {old : Pool} (hold : pools.registry.get? pool = some old)
    (hfit : books.canEverFit = old.canEverFit) : pools.Extends (pools.put pool books) where
  next_le := Nat.le_refl _
  same := by
    intro other books' _ hbooks'
    rw [get?_put] at hbooks'
    split at hbooks'
    · next heq =>
      rw [hold, Option.map_some, Option.some.injEq] at hbooks'
      exact ⟨old, heq ▸ hold, hbooks' ▸ hfit⟩
    · exact ⟨books', hbooks', rfl⟩

/-! ## Allocation and release -/

theorem get_eq (hbooks : pools.registry.get? pool = some books) : pools.get pool = .ok books := by
  rw [get, hbooks]

theorem get_eq_error (hnone : pools.registry.get? pool = none) :
    pools.get pool = .error (.unknownPool pool) := by
  rw [get, hnone]

/-- An allocation from a pool that exists is one by the pool itself. -/
theorem allocate_eq (hsize : size ≠ 0) (hbooks : pools.registry.get? pool = some books) :
    pools.allocate pool size =
      (books.allocate size).map fun (address, books') => (address, pools.put pool books') := by
  rw [allocate]
  show (if size = 0 then _ else pools.get pool >>= _) = _
  rw [if_neg hsize, get_eq hbooks]
  show (books.allocate size >>= _) = _
  cases books.allocate size <;> rfl

theorem allocate_zero (hsize : size = 0) : pools.allocate pool size = .error .zeroSize := by
  rw [allocate, if_pos hsize]
  rfl

theorem allocate_unknown (hsize : size ≠ 0) (hnone : pools.registry.get? pool = none) :
    pools.allocate pool size = .error (.unknownPool pool) := by
  rw [allocate]
  show (if size = 0 then _ else pools.get pool >>= _) = _
  rw [if_neg hsize, get_eq_error hnone]
  rfl

theorem deallocate_eq (hbooks : pools.registry.get? pool = some books) :
    pools.deallocate pool address =
      (books.deallocate address).map fun (released, books') =>
        (released, pools.put pool books') := by
  rw [deallocate]
  show (pools.get pool >>= _) = _
  rw [get_eq hbooks]
  show (books.deallocate address >>= _) = _
  cases books.deallocate address <;> rfl

theorem deallocate_unknown (hnone : pools.registry.get? pool = none) :
    pools.deallocate pool address = .error (.unknownPool pool) := by
  rw [deallocate]
  show (pools.get pool >>= _) = _
  rw [get_eq_error hnone]
  rfl

/-- An allocation that succeeds is one by a pool that exists. -/
theorem allocate_eq_ok (h : pools.allocate pool size = .ok (address, pools')) :
    ∃ books books', pools.registry.get? pool = some books ∧
      books.allocate size = .ok (address, books') ∧ pools' = pools.put pool books' := by
  by_cases hsize : size = 0
  · rw [allocate_zero hsize] at h
    cases h
  · cases hbooks : pools.registry.get? pool with
    | none =>
      rw [allocate_unknown hsize hbooks] at h
      cases h
    | some books =>
      rw [allocate_eq hsize hbooks] at h
      cases hallocate : books.allocate size with
      | error error =>
        rw [hallocate] at h
        cases h
      | ok allocated =>
        rw [hallocate] at h
        obtain ⟨rfl, rfl⟩ := Prod.ext_iff.mp (Except.ok.inj h)
        exact ⟨books, allocated.2, rfl, hallocate, rfl⟩

/-- A release that succeeds is one by a pool that exists. -/
theorem deallocate_eq_ok {released : Nat}
    (h : pools.deallocate pool address = .ok (released, pools')) :
    ∃ books books', pools.registry.get? pool = some books ∧
      books.deallocate address = .ok (released, books') ∧ pools' = pools.put pool books' := by
  cases hbooks : pools.registry.get? pool with
  | none =>
    rw [deallocate_unknown hbooks] at h
    cases h
  | some books =>
    rw [deallocate_eq hbooks] at h
    cases hdeallocate : books.deallocate address with
    | error error =>
      rw [hdeallocate] at h
      cases h
    | ok deallocated =>
      rw [hdeallocate] at h
      obtain ⟨rfl, rfl⟩ := Prod.ext_iff.mp (Except.ok.inj h)
      exact ⟨books, deallocated.2, rfl, hdeallocate, rfl⟩

theorem canEverFit_eq (hbooks : pools.registry.get? pool = some books) :
    pools.canEverFit pool size = .ok (books.canEverFit size) := by
  rw [canEverFit, get_eq hbooks]
  rfl

/-! ## Creation and removal -/

/-- A pool that is created gets the next handle. -/
theorem create_eq_ok {base : Nat} (h : pools.create base size = .ok (pool, pools')) :
    ∃ books, Pool.new base size pools.alignment = .ok books ∧ pool = pools.registry.nextHandle ∧
      pools' = { pools with registry := pools.registry.add books } := by
  rw [create] at h
  cases hnew : Pool.new base size pools.alignment with
  | error error =>
    rw [hnew] at h
    cases h
  | ok books =>
    rw [hnew] at h
    obtain ⟨rfl, rfl⟩ := Prod.ext_iff.mp (Except.ok.inj h)
    exact ⟨books, rfl, rfl, rfl⟩

theorem Orderly.add (h : pools.Orderly) (htiled : books.Tiled) :
    ({ pools with registry := pools.registry.add books } : Pools).Orderly where
  registry := h.registry.add books
  tiled := by
    intro other books' hbooks'
    rw [Registry.get?_add h.registry] at hbooks'
    split at hbooks'
    · obtain rfl := Option.some.inj hbooks'
      exact htiled
    · exact h.tiled hbooks'

theorem Orderly.extends_add (h : pools.Orderly) (books : Pool) :
    pools.Extends { pools with registry := pools.registry.add books } where
  next_le := Nat.le_succ _
  same := by
    intro other books' hlt hbooks'
    rw [Registry.get?_add h.registry] at hbooks'
    have hne : other ≠ pools.registry.nextHandle := by
      rintro rfl
      exact Nat.lt_irrefl _ hlt
    rw [if_neg hne] at hbooks'
    exact ⟨books', hbooks', rfl⟩

/-- A pool is removed if nobody waits for it and all of it is free. -/
theorem delete_eq (hbooks : pools.registry.get? pool = some books) :
    pools.delete pool =
      if 0 < pools.waiters.waitingOn pool then
        .error (.hasWaiters pool (pools.waiters.waitingOn pool))
      else if books.freeBytes ≠ books.size then
        .error (.inUse pool (books.size - books.freeBytes))
      else .ok { pools with registry := pools.registry.erase pool } := by
  rw [delete, get_eq hbooks]
  show (if 0 < pools.waiters.waitingOn pool then _ else _) = _
  split
  · rfl
  · show (if books.freeBytes ≠ books.size then _ else _) = _
    split <;> rfl

theorem delete_unknown (hnone : pools.registry.get? pool = none) :
    pools.delete pool = .error (.unknownPool pool) := by
  rw [delete, get_eq_error hnone]
  rfl

/-- Nobody waits for a pool that is removed, and all of it is free. -/
theorem delete_eq_ok (h : pools.delete pool = .ok pools') :
    ∃ books, pools.registry.get? pool = some books ∧ pools.waiters.waitingOn pool = 0 ∧
      books.freeBytes = books.size ∧
      pools' = { pools with registry := pools.registry.erase pool } := by
  cases hbooks : pools.registry.get? pool with
  | none =>
    rw [delete_unknown hbooks] at h
    cases h
  | some books =>
    rw [delete_eq hbooks] at h
    split at h
    · cases h
    · next hzero =>
      split at h
      · cases h
      · next hfree =>
        exact ⟨books, rfl, Nat.eq_zero_of_not_pos hzero, not_not.mp hfree, (Except.ok.inj h).symm⟩

theorem Orderly.erase (h : pools.Orderly) (pool : PoolId) :
    ({ pools with registry := pools.registry.erase pool } : Pools).Orderly where
  registry := h.registry.erase pool
  tiled := by
    intro other books' hbooks'
    rw [Registry.get?_erase] at hbooks'
    split at hbooks'
    · simp at hbooks'
    · exact h.tiled hbooks'

theorem extends_erase (pools : Pools) (pool : PoolId) :
    pools.Extends { pools with registry := pools.registry.erase pool } where
  next_le := Nat.le_refl _
  same := by
    intro other books' _ hbooks'
    rw [Registry.get?_erase] at hbooks'
    split at hbooks'
    · simp at hbooks'
    · exact ⟨books', hbooks', rfl⟩

/-! ## Ending a wait -/

theorem wakeNext_eq_none {pools : Pools} {pool : PoolId}
    (h : pools.waiters.nextFor? pool = none) : pools.wakeNext pool = (none, pools) := by
  rw [wakeNext, h]

theorem wakeNext_eq_some {pools : Pools} {pool : PoolId} {id : ThreadId} {waiters : Waiters}
    (h : pools.waiters.nextFor? pool = some (id, waiters)) :
    pools.wakeNext pool = (some id, { pools with waiters }) := by
  rw [wakeNext, h]

theorem wakeNext_none {pools rest : Pools} {pool : PoolId}
    (h : pools.wakeNext pool = (none, rest)) : rest = pools := by
  rw [wakeNext] at h
  split at h
  · exact (Prod.mk.inj h).2.symm
  · cases h

theorem registry_wakeNext {pools rest : Pools} {pool : PoolId} {waiter? : Option ThreadId}
    (h : pools.wakeNext pool = (waiter?, rest)) : rest.registry = pools.registry := by
  rw [wakeNext] at h
  split at h <;>
  · obtain ⟨-, rfl⟩ := Prod.ext_iff.mp h
    rfl

theorem registry_cancelWait (pools : Pools) (id : ThreadId) :
    (pools.cancelWait id).2.registry = pools.registry := by
  rw [cancelWait]
  split <;> rfl

/-! ## The queue -/

theorem waiters_allocate (h : pools.allocate pool size = .ok (address, pools')) :
    pools'.waiters = pools.waiters := by
  obtain ⟨-, -, -, -, rfl⟩ := allocate_eq_ok h
  rfl

theorem waiters_deallocate {released : Nat}
    (h : pools.deallocate pool address = .ok (released, pools')) :
    pools'.waiters = pools.waiters := by
  obtain ⟨-, -, -, -, rfl⟩ := deallocate_eq_ok h
  rfl

theorem waiters_create {base : Nat} (h : pools.create base size = .ok (pool, pools')) :
    pools'.waiters = pools.waiters := by
  obtain ⟨-, -, -, rfl⟩ := create_eq_ok h
  rfl

theorem waiters_delete (h : pools.delete pool = .ok pools') : pools'.waiters = pools.waiters := by
  obtain ⟨-, -, -, -, rfl⟩ := delete_eq_ok h
  rfl

/-- Nobody else moves when a thread is served. -/
theorem sublist_wakeNext {rest : Pools} {waiter? : Option ThreadId}
    (h : pools.wakeNext pool = (waiter?, rest)) (p : Priority) :
    (rest.waiters.level p).Sublist (pools.waiters.level p) := by
  cases hnext : pools.waiters.nextFor? pool with
  | none =>
    obtain ⟨-, rfl⟩ := Prod.mk.inj ((wakeNext_eq_none hnext).symm.trans h)
    exact List.Sublist.refl _
  | some served =>
    obtain ⟨-, rfl⟩ := Prod.mk.inj ((wakeNext_eq_some hnext).symm.trans h)
    obtain ⟨q, -, hrest, -⟩ := Waiters.nextFor?_erase hnext
    exact hrest ▸ LevelQueue.sublist_level_erase _ q p _

/-- Nobody else moves when a wait is cancelled. -/
theorem sublist_cancelWait (pools : Pools) (id : ThreadId) (p : Priority) :
    ((pools.cancelWait id).2.waiters.level p).Sublist (pools.waiters.level p) := by
  rw [cancelWait]
  split
  · exact List.Sublist.refl _
  · next hfound =>
    obtain ⟨q, -, hrest⟩ := Waiters.remove?_erase hfound
    exact hrest ▸ LevelQueue.sublist_level_erase _ q p _

/-- A thread whose wait is cancelled waits no more, if it did. -/
theorem waiting_cancelWait {waits : ThreadId → Option (Priority × PoolId)}
    (h : Waiting waits pools.waiters) (id : ThreadId) :
    Waiting (Function.update waits id none) (pools.cancelWait id).2.waiters := by
  rw [cancelWait]
  split
  · next hnone =>
    rw [← h.remove?_eq_none hnone, Function.update_eq_self]
    exact h
  · next hfound => exact h.remove?_eq_some hfound

end CoopKernel.Memory.Pools
