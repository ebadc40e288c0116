import CoopKernel.Proofs.Memory.Leases

/-!
# What is allocated where

Of what is allocated in the pools only the addresses are looked at here (`Pools.lent`). An
allocation adds its address (`lent_allocate`), and a release takes its address away
(`lent_deallocate`), because no two live segments begin at one address. Pools come and go without
anything in them (`lent_create`, `lent_delete`).
-/

namespace CoopKernel.Memory

namespace Tiling

variable {fresh : Bool} {start stop : Nat} {free live : List Segment}

/-- The live segments ascend. -/
theorem pairwise_live (h : Tiling fresh start free live stop) :
    live.Pairwise fun segment next => segment.base < next.base := by
  induction h with
  | done => exact .nil
  | live hbase hpos hrest ih =>
    refine .cons (fun next hmem => ?_) ih
    have hle := hrest.start_le_of_mem_live hmem
    rw [Segment.stop] at hle
    omega
  | free _ _ _ ih => exact ih

end Tiling

namespace Segment

variable {live : List Segment} {address found : Nat}

/-- Whether a segment begins at an address. -/
def beginsAt (live : List Segment) (address : Nat) : Bool :=
  live.any fun segment => segment.base == address

theorem beginsAt_iff : beginsAt live address = true ↔ ∃ segment ∈ live, segment.base = address := by
  simp [beginsAt]

theorem beginsAt_insert (segment : Segment) : beginsAt (Segment.insert segment live) found =
    if found = segment.base then true else beginsAt live found := by
  rw [Bool.eq_iff_iff, beginsAt_iff]
  simp only [Pools.mem_insert, or_and_right, exists_or, exists_eq_left]
  split
  · next heq => simp [heq]
  · next hne => simp [beginsAt_iff, Ne.symm hne]

/-- Among ascending segments there is one at most to be taken away. -/
theorem base_ne_of_mem_eraseP (h : live.Pairwise fun segment next => segment.base < next.base)
    {segment : Segment} (hmem : segment ∈ live.eraseP fun segment => segment.base == address) :
    segment.base ≠ address := by
  induction live with
  | nil => simp at hmem
  | cons first rest ih =>
    obtain ⟨hfirst, hrest⟩ := List.pairwise_cons.mp h
    by_cases heq : first.base = address
    · rw [List.eraseP_cons_of_pos (by simpa using heq)] at hmem
      exact Nat.ne_of_gt (heq ▸ hfirst segment hmem)
    · rw [List.eraseP_cons_of_neg (by simpa using heq)] at hmem
      rcases List.mem_cons.mp hmem with rfl | hlater
      · exact heq
      · exact ih hrest hlater

theorem beginsAt_eraseP (h : live.Pairwise fun segment next => segment.base < next.base) :
    beginsAt (live.eraseP fun segment => segment.base == address) found =
      if found = address then false else beginsAt live found := by
  rw [Bool.eq_iff_iff, beginsAt_iff]
  split
  · next heq =>
    refine iff_of_false ?_ Bool.false_ne_true
    rintro ⟨segment, hmem, hbase⟩
    exact base_ne_of_mem_eraseP h hmem (hbase.trans heq)
  · next hne =>
    rw [beginsAt_iff]
    refine exists_congr fun segment => and_congr_left fun hbase => ?_
    exact List.mem_eraseP_of_neg (by simpa [hbase] using hne)

end Segment

namespace Pools

variable {pools pools' : Pools} {pool other created : PoolId} {books : Pool}
  {size address found base released : Nat}

/-- Whether something is allocated at an address of a pool. -/
def lent (pools : Pools) (pool : PoolId) (address : Nat) : Bool :=
  (pools.registry.get? pool).any fun books => Segment.beginsAt books.live address

theorem lent_iff : pools.lent pool address = true ↔
    ∃ books segment, pools.registry.get? pool = some books ∧ segment ∈ books.live ∧
      segment.base = address := by
  simp only [lent, Option.any_eq_true, Segment.beginsAt_iff]
  grind

theorem lent_of_registry (h : pools'.registry = pools.registry) : pools'.lent = pools.lent := by
  funext pool address
  rw [lent, lent, h]

theorem lent_allocate (h : pools.allocate pool size = .ok (address, pools')) (other : PoolId)
    (found : Nat) : pools'.lent other found =
      if other = pool ∧ found = address then true else pools.lent other found := by
  obtain ⟨books, books', hbooks, hallocate, rfl⟩ := allocate_eq_ok h
  obtain ⟨granted, _, -, -, -, rfl⟩ := Pool.allocate_eq_ok hallocate
  rw [lent, get?_put]
  by_cases hother : other = pool
  · subst hother
    rw [if_pos rfl, hbooks, Option.map_some, Option.any_some, Segment.beginsAt_insert, lent, hbooks,
      Option.any_some]
    simp only [true_and]
  · rw [if_neg hother, if_neg fun hboth => hother hboth.1, lent]

theorem lent_deallocate (horderly : pools.Orderly)
    (h : pools.deallocate pool address = .ok (released, pools')) (other : PoolId) (found : Nat) :
    pools'.lent other found =
      if other = pool ∧ found = address then false else pools.lent other found := by
  obtain ⟨books, books', hbooks, hdeallocate, rfl⟩ := deallocate_eq_ok h
  obtain ⟨segment, -, rfl, -, rfl⟩ := Pool.deallocate_eq_ok hdeallocate
  rw [lent, get?_put]
  by_cases hother : other = pool
  · subst hother
    rw [if_pos rfl, hbooks, Option.map_some, Option.any_some,
      Segment.beginsAt_eraseP (horderly.tiled hbooks).tiling.pairwise_live, lent, hbooks,
      Option.any_some]
    simp only [true_and]
  · rw [if_neg hother, if_neg fun hboth => hother hboth.1, lent]

/-- Nothing is allocated in a pool that was just created. -/
theorem lent_create (horderly : pools.Orderly)
    (h : pools.create base size = .ok (created, pools')) : pools'.lent = pools.lent := by
  obtain ⟨books, hnew, -, rfl⟩ := create_eq_ok h
  funext other found
  rw [lent, Registry.get?_add horderly.registry]
  split
  · next hother =>
    have hfresh := Registry.get?_nextHandle horderly.registry
    rw [Pool.new] at hnew
    split at hnew
    · cases hnew
    · split at hnew
      · cases hnew
      · obtain rfl := Except.ok.inj hnew
        rw [hother, lent, hfresh]
        rfl
  · rfl

/-- A pool is only removed when nothing is allocated in it. -/
theorem lent_delete (horderly : pools.Orderly) (h : pools.delete pool = .ok pools') :
    pools'.lent = pools.lent := by
  obtain ⟨books, hbooks, -, hfree, rfl⟩ := delete_eq_ok h
  funext other found
  rw [lent, Registry.get?_erase]
  split
  · next hother =>
    have hempty : books.live = [] := by
      rw [List.eq_nil_iff_forall_not_mem]
      intro segment hmem
      exact Nat.ne_of_lt ((horderly.tiled hbooks).freeBytes_lt hmem) hfree
    rw [hother, lent, hbooks, Option.any_some, hempty]
    rfl
  · rfl

end Pools

end CoopKernel.Memory
