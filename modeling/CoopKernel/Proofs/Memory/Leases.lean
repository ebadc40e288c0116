import CoopKernel.Proofs.Memory.Pools

/-!
# Allocations over time

An allocation of a pool (`Pools.Leases`) outlives everything that is done to pools but its own
release: other allocations and releases leave it where it is, and a pool does not go away while
something is allocated in it. As long as it is there it can be released, and then exactly what was
granted for it is free again (`Pools.Released`).
-/

namespace CoopKernel.Memory.Pools

variable {pools pools' : Pools} {pool other : PoolId} {books : Pool} {size address : Nat}

/-- What was granted for a request is allocated at an address. -/
def Leases (pools : Pools) (pool : PoolId) (address size : Nat) : Prop :=
  ∃ books granted, pools.registry.get? pool = some books ∧ books.grantedSize size = some granted ∧
    ⟨address, granted⟩ ∈ books.live

/-- What was granted for a request has been released, and nothing else has changed. -/
structure Released (pools pools' : Pools) (pool : PoolId) (address size : Nat) : Prop where
  /-- The pool has exactly the granted bytes more, and exactly this allocation less. -/
  bytes : ∃ books books' granted, pools.registry.get? pool = some books ∧
    pools'.registry.get? pool = some books' ∧ books.grantedSize size = some granted ∧
    ⟨address, granted⟩ ∈ books.live ∧ books'.live = books.live.erase ⟨address, granted⟩ ∧
    books'.freeBytes = books.freeBytes + granted
  others : ∀ other, other ≠ pool → pools'.registry.get? other = pools.registry.get? other

theorem Leases.of_registry (h : pools.Leases pool address size)
    (hsame : pools'.registry = pools.registry) : pools'.Leases pool address size := by
  rw [Leases, hsame]
  exact h

theorem Released.of_registry {pools'' : Pools} (h : pools.Released pools' pool address size)
    (hsame : pools''.registry = pools'.registry) : pools.Released pools'' pool address size :=
  ⟨hsame ▸ h.bytes, hsame ▸ h.others⟩

/-- What was released had been allocated. -/
theorem Released.leases (h : pools.Released pools' pool address size) :
    pools.Leases pool address size := by
  obtain ⟨books, _, granted, hbooks, -, hgranted, hmem, -⟩ := h.bytes
  exact ⟨books, granted, hbooks, hgranted, hmem⟩

/-! ## Allocation -/

theorem mem_insert {segment lease : Segment} {live : List Segment} :
    lease ∈ Segment.insert segment live ↔ lease = segment ∨ lease ∈ live := by
  induction live with
  | nil => simp [Segment.insert]
  | cons first rest ih =>
    rw [Segment.insert]
    split
    · simp only [List.mem_cons, ih]
      exact or_left_comm
    · exact List.mem_cons

/-- What is allocated stays allocated when the books of its pool are replaced by such that still
have it. -/
theorem Leases.put {old : Pool} (h : pools.Leases other address size)
    (hold : pools.registry.get? pool = some old) (hgranted : books.grantedSize = old.grantedSize)
    (hlive : other = pool → ∀ granted, ⟨address, granted⟩ ∈ old.live →
      ⟨address, granted⟩ ∈ books.live) : (pools.put pool books).Leases other address size := by
  obtain ⟨books', granted, hbooks', hsize, hmem⟩ := h
  by_cases hother : other = pool
  · subst hother
    obtain rfl := Option.some.inj (hold.symm.trans hbooks')
    refine ⟨books, granted, ?_, by rw [hgranted, hsize], hlive rfl granted hmem⟩
    rw [get?_put, if_pos rfl, hold, Option.map_some]
  · exact ⟨books', granted, by rw [get?_put, if_neg hother, hbooks'], hsize, hmem⟩

theorem Leases.allocate {requested found : Nat} (h : pools.Leases other address size)
    (hok : pools.allocate pool requested = .ok (found, pools')) :
    pools'.Leases other address size := by
  obtain ⟨old, books, hold, hallocate, rfl⟩ := allocate_eq_ok hok
  obtain ⟨_, _, -, -, -, rfl⟩ := Pool.allocate_eq_ok hallocate
  exact h.put hold rfl fun _ granted hmem => mem_insert.mpr (.inr hmem)

/-- An allocation that succeeds is there afterwards. -/
theorem leases_of_allocate (hok : pools.allocate pool size = .ok (address, pools')) :
    pools'.Leases pool address size := by
  obtain ⟨old, books, hold, hallocate, rfl⟩ := allocate_eq_ok hok
  obtain ⟨granted, _, -, hgranted, -, hbooks⟩ := Pool.allocate_eq_ok hallocate
  refine ⟨books, granted, ?_, by rw [hbooks]; exact hgranted, ?_⟩
  · rw [get?_put, if_pos rfl, hold, Option.map_some]
  · rw [hbooks]
    exact mem_insert.mpr (.inl rfl)

/-! ## Release -/

/-- A release takes away what is allocated at its address and nothing else. -/
theorem Leases.deallocate {found released : Nat} (h : pools.Leases other address size)
    (hok : pools.deallocate pool found = .ok (released, pools')) :
    pools'.Leases other address size ∨ other = pool ∧ address = found := by
  obtain ⟨old, books, hold, hdeallocate, rfl⟩ := deallocate_eq_ok hok
  obtain ⟨segment, -, hbase, -, rfl⟩ := Pool.deallocate_eq_ok hdeallocate
  by_cases hsame : other = pool ∧ address = found
  · exact .inr hsame
  · refine .inl (h.put hold rfl fun hother granted hmem => ?_)
    have hapart : address ≠ segment.base := fun heq => hsame ⟨hother, heq.trans hbase⟩
    exact (List.mem_eraseP_of_neg (by simpa using hapart)).mpr hmem

/-- What is allocated can be released, and what was granted for it is free again. -/
theorem Leases.released (h : pools.Leases pool address size) (horderly : pools.Orderly) :
    ∃ granted pools', pools.deallocate pool address = .ok (granted, pools') ∧
      pools.Released pools' pool address size := by
  obtain ⟨books, granted, hbooks, hgranted, hmem⟩ := h
  have htiled := horderly.tiled hbooks
  have hdeallocate := htiled.deallocate_eq hmem
  refine ⟨granted, _, by rw [deallocate_eq hbooks, hdeallocate]; rfl, ⟨books, _, granted, hbooks,
    by rw [get?_put, if_pos rfl, hbooks, Option.map_some], hgranted, hmem, rfl, ?_⟩, ?_⟩
  · -- The bytes that are free or allocated are as many as before.
    have hbefore := htiled.freeBytes_add
    have hafter := (htiled.deallocate hdeallocate).freeBytes_add
    have hlive := Segment.total_erase hmem
    simp only at hafter hlive ⊢
    omega
  · intro other hother
    rw [get?_put, if_neg hother]

/-! ## Pools that come and go -/

theorem Leases.create {base requested : Nat} {created : PoolId}
    (h : pools.Leases other address size) (horderly : pools.Orderly)
    (hok : pools.create base requested = .ok (created, pools')) :
    pools'.Leases other address size := by
  obtain ⟨books', granted, hbooks', hsize, hmem⟩ := h
  obtain ⟨books, -, -, rfl⟩ := create_eq_ok hok
  refine ⟨books', granted, ?_, hsize, hmem⟩
  have hne : other ≠ pools.registry.nextHandle := by
    rintro rfl
    exact Nat.lt_irrefl _ (Registry.number_lt_next horderly.registry hbooks')
  rw [Registry.get?_add horderly.registry, if_neg hne, hbooks']

/-- A pool in which something is allocated is not removed. -/
theorem Leases.delete (h : pools.Leases other address size) (horderly : pools.Orderly)
    (hok : pools.delete pool = .ok pools') : pools'.Leases other address size := by
  obtain ⟨books', granted, hbooks', hsize, hmem⟩ := h
  obtain ⟨books, hbooks, -, hfree, rfl⟩ := delete_eq_ok hok
  have hne : other ≠ pool := by
    rintro rfl
    obtain rfl := Option.some.inj (hbooks.symm.trans hbooks')
    exact Nat.ne_of_lt ((horderly.tiled hbooks).freeBytes_lt hmem) hfree
  exact ⟨books', granted, by rw [Registry.get?_erase, if_neg hne, hbooks'], hsize, hmem⟩

end CoopKernel.Memory.Pools
