import Mathlib.Data.List.Nodup
import CoopKernel.Proofs.Memory.Lent

/-!
# How a pool is shared out

What is live in a pool does not overlap (`Tiling.pairwise_apart`), and an allocation is made where
nothing is live (`Pools.lent_eq_false_of_allocate`). So if the requests are known that the live
segments of a pool were granted to, the pool is shared out among them (`Pool.SharedOut`): each has a
range of its own that is large enough, the ranges are disjoint, and together they are what is used.
-/

namespace CoopKernel.Memory

namespace Segment

/-- Two segments have no address in common. -/
def Apart (first second : Segment) : Prop :=
  first.stop ≤ second.base ∨ second.stop ≤ first.base

theorem perm_insert (segment : Segment) (live : List Segment) :
    (Segment.insert segment live).Perm (segment :: live) := by
  induction live with
  | nil => exact .refl _
  | cons first rest ih =>
    rw [Segment.insert]
    split
    · exact (ih.cons first).trans (.swap segment first rest)
    · exact .refl _

theorem total_perm {segments others : List Segment} (h : segments.Perm others) :
    total segments = total others := by
  induction h with
  | nil => rfl
  | cons segment _ ih => rw [total_cons, total_cons, ih]
  | swap first second rest =>
    simp only [total_cons]
    omega
  | trans _ _ ih ih' => rw [ih, ih']

end Segment

/-- Live segments do not overlap. -/
theorem Tiling.pairwise_apart {fresh : Bool} {start stop : Nat} {free live : List Segment}
    (h : Tiling fresh start free live stop) : live.Pairwise Segment.Apart := by
  induction h with
  | done => exact .nil
  | live hbase hpos hrest ih =>
    refine .cons (fun next hmem => .inl ?_) ih
    exact hrest.start_le_of_mem_live hmem
  | free _ _ _ ih => exact ih

/-- Nothing was live at an address that is allocated. -/
theorem Pools.lent_eq_false_of_allocate {pools pools' : Pools} {pool : PoolId} {size address : Nat}
    (horderly : pools.Orderly) (hok : pools.allocate pool size = .ok (address, pools')) :
    pools.lent pool address = false := by
  obtain ⟨books, books', hbooks, hallocate, rfl⟩ := allocate_eq_ok hok
  have htiled := (horderly.tiled hbooks).allocate hallocate
  obtain ⟨granted, free, -, -, -, rfl⟩ := Pool.allocate_eq_ok hallocate
  -- The books after the allocation have two segments at the address if the books before had one.
  have hdistinct : (Segment.insert ⟨address, granted⟩ books.live).Pairwise
      fun segment next => segment.base ≠ next.base :=
    htiled.tiling.pairwise_live.imp Nat.ne_of_lt
  have hfresh := ((Segment.perm_insert _ _).pairwise_iff fun h => Ne.symm h).mp hdistinct
  rw [← Bool.not_eq_true, lent_iff]
  rintro ⟨_, segment, hsame, hmem, hbase⟩
  obtain rfl := Option.some.inj (hbooks.symm.trans hsame)
  exact (List.pairwise_cons.mp hfresh).1 segment hmem hbase.symm

namespace Pool

variable {pool : Pool} {requests : List Segment}

/-- What is set aside for a request that is met at its base. -/
def extent (pool : Pool) (request : Segment) : Segment :=
  ⟨request.base, (pool.grantedSize request.size).getD 0⟩

/-- A pool is shared out among requests, and nobody else has anything of it. -/
structure SharedOut (pool : Pool) (requests : List Segment) : Prop where
  /-- What is live is what was set aside for the requests. -/
  live : pool.live.Perm (requests.map pool.extent)
  /-- For each of them it was enough. -/
  enough : ∀ request ∈ requests, request.size ≤ (pool.extent request).size
  apart : (requests.map pool.extent).Pairwise Segment.Apart
  used : pool.stats.usedBytes = Segment.total (requests.map pool.extent)

theorem Tiled.nodup_live (h : pool.Tiled) : pool.live.Nodup :=
  h.tiling.pairwise_live.imp fun hlt heq => absurd (heq ▸ hlt) (Nat.lt_irrefl _)

/-- A pool is shared out among the requests that its live segments were granted to. -/
theorem Tiled.sharedOut (h : pool.Tiled) (hdistinct : (requests.map (·.base)).Nodup)
    (hgranted : ∀ request ∈ requests, ∃ granted, pool.grantedSize request.size = some granted ∧
      ⟨request.base, granted⟩ ∈ pool.live)
    (hall : ∀ segment ∈ pool.live, ∃ request ∈ requests, request.base = segment.base) :
    pool.SharedOut requests := by
  have hextent : ∀ request ∈ requests, pool.extent request ∈ pool.live := by
    intro request hmem
    obtain ⟨granted, hsize, hlive⟩ := hgranted request hmem
    rwa [extent, hsize]
  have hbases : (requests.map pool.extent).map (·.base) = requests.map (·.base) :=
    List.map_map
  have hperm : pool.live.Perm (requests.map pool.extent) := by
    refine (List.perm_ext_iff_of_nodup h.nodup_live (.of_map _ (hbases ▸ hdistinct))).mpr fun segment => ?_
    rw [List.mem_map]
    constructor
    · intro hmem
      obtain ⟨request, hrequest, hbase⟩ := hall segment hmem
      exact ⟨request, hrequest, h.tiling.eq_of_base_eq (hextent request hrequest) hmem hbase⟩
    · rintro ⟨request, hrequest, rfl⟩
      exact hextent request hrequest
  refine ⟨hperm, fun request hmem => ?_, ?_, ?_⟩
  · obtain ⟨granted, hsize, -⟩ := hgranted request hmem
    rw [extent, hsize]
    exact le_of_roundUp_eq_some h.pow hsize
  · exact (hperm.pairwise_iff Or.symm).mp h.tiling.pairwise_apart
  · rw [← Segment.total_perm hperm]
    exact Nat.sub_eq_of_eq_add' h.freeBytes_add.symm

end Pool

end CoopKernel.Memory
