import Mathlib.Data.List.TFAE
import CoopKernel.Proofs.Memory.FreeList

/-!
# The figures of a pool

Three books are kept of one pool: the list of what is free, the map of what is live, and a
low-water mark that only allocations touch. The figures are taken now from one and now from another,
and so are the checks whether a pool is in use. After any requests they agree, and they are true of
what callers were told (`Pool.Figures`): the used bytes are those that were granted and not yet
released, as far as the answers say (`Pool.outstanding`), and the low-water mark is the least number
of free bytes there was at any time, because a release only ever raises that number
(`Pool.Tiled.minFree_serve`).

A pool is removed by the sum over the free list. That this refuses for as long as something is live,
and for nothing else, is a matter of the same books (`Pool.Figures.deletion`).
-/

namespace CoopKernel.Memory

namespace Pool

variable {pool pool' : Pool} {lent : List Segment} {request : Request} {requests : List Request}

/-! ## What callers have -/

/-- What callers have of a pool after the answer to a request, if they had `lent` before: what is
granted is theirs, and what they release is not. -/
def settle (pool : Pool) (lent : List Segment) (request : Request) : List Segment :=
  match pool.answer request with
  | .error _ => lent
  | .ok (found, _) =>
    match request with
    | .allocate size => pool.extent ⟨found, size⟩ :: lent
    | .deallocate address => lent.filter fun segment => segment.base ≠ address

/-- What callers have after requests one after the other, if they had `lent` before. -/
def settleAll (pool : Pool) (lent : List Segment) : List Request → List Segment
  | [] => lent
  | request :: rest => (pool.serve request).settleAll (pool.settle lent request) rest

/-- The allocations that are outstanding after requests, by the answers to them. -/
def outstanding (pool : Pool) (requests : List Request) : List Segment := pool.settleAll [] requests

theorem settleAll_concat (pool : Pool) (lent : List Segment) (requests : List Request)
    (request : Request) : pool.settleAll lent (requests ++ [request]) =
      (pool.serveAll requests).settle (pool.settleAll lent requests) request := by
  induction requests generalizing pool lent with
  | nil => rfl
  | cons first rest ih => exact ih (pool.serve first) (pool.settle lent first)

theorem settle_of_error {error : PoolError} (h : pool.answer request = .error error) :
    pool.settle lent request = lent := by
  rw [settle, h]

/-- To release a live allocation is to take away what begins at its address. -/
theorem Tiled.erase_eq_filter (h : pool.Tiled) {segment : Segment} (hmem : segment ∈ pool.live) :
    pool.live.erase segment = pool.live.filter fun other => other.base ≠ segment.base := by
  rw [h.nodup_live.erase_eq_filter]
  refine List.filter_congr fun other hother => ?_
  have hsame : other = segment ↔ other.base = segment.base :=
    ⟨congrArg Segment.base, h.tiling.eq_of_base_eq hother hmem⟩
  rw [bne, beq_eq_decide, decide_eq_decide.mpr hsame, decide_not]

/-- If callers have what is live, they still do after an answer. -/
theorem Tiled.perm_settle (h : pool.Tiled) (hlent : pool.live.Perm lent) (request : Request) :
    (pool.serve request).live.Perm (pool.settle lent request) := by
  cases hanswer : pool.answer request with
  | error error => rwa [serve_of_error hanswer, settle_of_error hanswer]
  | ok result =>
    rw [serve_of_ok hanswer, settle, hanswer]
    cases request with
    | allocate size =>
      obtain ⟨granted, free, -, hgranted, -, hbooks⟩ := allocate_eq_ok hanswer
      rw [hbooks]
      show (Segment.insert _ pool.live).Perm (pool.extent ⟨result.1, size⟩ :: lent)
      rw [extent, hgranted]
      exact (Segment.perm_insert _ _).trans (hlent.cons _)
    | deallocate address =>
      obtain ⟨segment, hmem, rfl, -, hbooks⟩ := deallocate_eq_ok hanswer
      have herase := Segment.eraseP_base_eq fun other (hother : other ∈ pool.live) =>
        h.tiling.eq_of_base_eq hother hmem
      rw [hbooks, herase, h.erase_eq_filter hmem]
      exact hlent.filter _

/-- What is live after any requests is what is outstanding. -/
theorem Tiled.perm_outstanding (h : pool.Tiled) (hnone : pool.live = [])
    (requests : List Request) : (pool.serveAll requests).live.Perm (pool.outstanding requests) := by
  induction requests using List.reverseRecOn with
  | nil => exact .of_eq hnone
  | append_singleton requests request ih =>
    rw [serveAll_concat, outstanding, settleAll_concat]
    exact (h.serveAll requests).perm_settle ih request

/-! ## The low-water mark -/

/-- A release leaves at least as many bytes free as there were. -/
theorem Tiled.freeBytes_le_deallocate (h : pool.Tiled) {address released : Nat}
    (hok : pool.deallocate address = .ok (released, pool')) : pool.freeBytes ≤ pool'.freeBytes := by
  have hbefore := h.freeBytes_add
  have hafter := (h.deallocate hok).freeBytes_add
  obtain ⟨segment, hmem, -, -, rfl⟩ := deallocate_eq_ok hok
  have herase := Segment.eraseP_base_eq fun other (hother : other ∈ pool.live) =>
    h.tiling.eq_of_base_eq hother hmem
  have hlive := Segment.total_erase hmem
  simp only [herase] at hafter ⊢
  omega

/-- Only allocations look at the low-water mark, and that is enough. -/
theorem Tiled.minFree_serve (h : pool.Tiled) (hmark : pool.minFree ≤ pool.freeBytes)
    (request : Request) :
    (pool.serve request).minFree = min pool.minFree (pool.serve request).freeBytes := by
  cases hanswer : pool.answer request with
  | error error =>
    rw [serve_of_error hanswer]
    exact (Nat.min_eq_left hmark).symm
  | ok result =>
    rw [serve_of_ok hanswer]
    cases request with
    | allocate size =>
      obtain ⟨granted, free, -, -, -, hbooks⟩ := allocate_eq_ok hanswer
      rw [hbooks]
      rfl
    | deallocate address =>
      have hmore := h.freeBytes_le_deallocate hanswer
      obtain ⟨segment, -, -, -, hbooks⟩ := deallocate_eq_ok hanswer
      have hsame : result.2.minFree = pool.minFree := by rw [hbooks]
      rw [hsame]
      exact (Nat.min_eq_left (hmark.trans hmore)).symm

/-- The numbers of free bytes there were, from the first state to the last. -/
def visited (pool : Pool) (requests : List Request) : Set Nat :=
  {bytes | ∃ before, before <+: requests ∧ (pool.serveAll before).freeBytes = bytes}

theorem visited_concat (pool : Pool) (requests : List Request) (request : Request) :
    pool.visited (requests ++ [request]) =
      insert ((pool.serveAll requests).serve request).freeBytes (pool.visited requests) := by
  ext bytes
  simp only [visited, Set.mem_insert_iff, Set.mem_ofPred_eq, List.prefix_concat_iff, or_and_right,
    exists_or, exists_eq_left, serveAll_concat, eq_comm]

/-- The low-water mark is the least number of free bytes there was. -/
theorem Tiled.isLeast_minFree (h : pool.Tiled) (hmark : pool.minFree = pool.freeBytes)
    (requests : List Request) :
    IsLeast (pool.visited requests) (pool.serveAll requests).minFree := by
  induction requests using List.reverseRecOn with
  | nil =>
    refine ⟨⟨[], List.nil_prefix, hmark.symm⟩, ?_⟩
    rintro _ ⟨before, hprefix, rfl⟩
    rw [List.prefix_nil.mp hprefix]
    exact hmark.le
  | append_singleton requests request ih =>
    have hle := ih.2 ⟨requests, List.prefix_rfl, rfl⟩
    rw [serveAll_concat, visited_concat, (h.serveAll requests).minFree_serve hle, min_comm]
    exact ih.insert _

/-! ## Nothing in use -/

/-- The ways to tell that nothing is live. -/
theorem Tiled.pristine_tfae (h : pool.Tiled) :
    [pool.isPristine = true, pool.stats.isPristine = true, pool.stats.freeBytes = pool.size,
      pool.free = [⟨pool.base, pool.size⟩], pool.live = []].TFAE := by
  have hbytes := h.freeBytes_add
  tfae_have 1 ↔ 5 := List.isEmpty_iff
  tfae_have 5 → 4 := h.free_of_live_eq_nil
  tfae_have 4 → 3 := fun hwhole => by
    show Segment.total pool.free = pool.size
    rw [hwhole]
    rfl
  tfae_have 3 → 5 := fun hall => by
    rw [List.eq_nil_iff_forall_not_mem]
    exact fun segment hmem => Nat.ne_of_lt (h.freeBytes_lt hmem) hall
  tfae_have 2 ↔ 3 := by
    rw [Stats.isPristine, beq_iff_eq]
    show pool.size - pool.freeBytes = 0 ↔ pool.freeBytes = pool.size
    omega
  tfae_finish

end Pool

namespace Stats

/-- The share of something no larger than a hundredth of the address space is computed exactly. -/
theorem utilization_eq {stats : Stats} (hpos : 0 < stats.size)
    (hused : stats.usedBytes ≤ stats.size) (hsize : stats.size ≤ (addressSpace - 1) / 100) :
    stats.utilization = 100 * stats.usedBytes / stats.size ∧ stats.utilization ≤ 100 := by
  have hshare : 100 * stats.usedBytes / stats.size ≤ 100 :=
    Nat.div_le_of_le_mul (by rw [Nat.mul_comm]; exact Nat.mul_le_mul_right 100 hused)
  have hproduct : stats.usedBytes * 100 < addressSpace := by
    rw [addressSpace_eq] at hsize ⊢
    omega
  have hexact : stats.utilization = 100 * stats.usedBytes / stats.size := by
    rw [utilization, if_neg hpos.ne', Nat.mod_eq_of_lt hproduct, Nat.mul_comm]
    exact Nat.mod_eq_of_lt (by omega)
  exact ⟨hexact, hexact ▸ hshare⟩

end Stats

namespace Pools

variable {pools pools' : Pools} {pool : PoolId} {books : Pool}

/-- The pools after a request to one of them. -/
def serve (pools : Pools) (pool : PoolId) : Pool.Request → Pools
  | .allocate size =>
    match pools.allocate pool size with
    | .ok (_, pools') => pools'
    | .error _ => pools
  | .deallocate address =>
    match pools.deallocate pool address with
    | .ok (_, pools') => pools'
    | .error _ => pools

/-- The pools after requests to one of them, one after the other. -/
def serveAll (pools : Pools) (pool : PoolId) (requests : List Pool.Request) : Pools :=
  requests.foldl (·.serve pool) pools

/-- A request to one of the pools is answered by it. -/
theorem get?_serve (hbooks : pools.registry.get? pool = some books) (request : Pool.Request) :
    (pools.serve pool request).registry.get? pool = some (books.serve request) := by
  have hput (books' : Pool) : (pools.put pool books').registry.get? pool = some books' := by
    rw [get?_put, if_pos rfl, hbooks, Option.map_some]
  cases request with
  | allocate size =>
    by_cases hsize : size = 0
    · have hrefused : books.answer (.allocate size) = .error .zeroSize := if_pos hsize
      rw [serve, allocate_zero hsize, Pool.serve_of_error hrefused]
      exact hbooks
    · rw [serve, allocate_eq hsize hbooks, Pool.serve, Pool.answer]
      cases books.allocate size with
      | error error => exact hbooks
      | ok result => exact hput result.2
  | deallocate address =>
    rw [serve, deallocate_eq hbooks, Pool.serve, Pool.answer]
    cases books.deallocate address with
    | error error => exact hbooks
    | ok result => exact hput result.2

theorem waiters_serve (pools : Pools) (pool : PoolId) (request : Pool.Request) :
    (pools.serve pool request).waiters = pools.waiters := by
  cases request with
  | allocate size =>
    rw [serve]
    split
    · next hok => exact waiters_allocate hok
    · rfl
  | deallocate address =>
    rw [serve]
    split
    · next hok => exact waiters_deallocate hok
    · rfl

/-- The pools after requests hold the books that the requests lead to, and nobody waits who did not
before. -/
theorem of_serveAll (hbooks : pools.registry.get? pool = some books)
    (requests : List Pool.Request) :
    (pools.serveAll pool requests).registry.get? pool = some (books.serveAll requests) ∧
      (pools.serveAll pool requests).waiters = pools.waiters := by
  induction requests generalizing pools books with
  | nil => exact ⟨hbooks, rfl⟩
  | cons first rest ih =>
    obtain ⟨hrest, hwaiters⟩ := ih (get?_serve hbooks first)
    exact ⟨hrest, hwaiters.trans (waiters_serve pools pool first)⟩

/-- A pool that is created among none has its books, and nobody waits for it. -/
theorem of_create {alignment base size : Nat} (hnew : Pools.new alignment = .ok pools)
    (hcreate : pools.create base size = .ok (pool, pools')) :
    ∃ books, Pool.new base size alignment = .ok books ∧
      pools'.registry.get? pool = some books ∧ pools'.waiters.waitingOn pool = 0 := by
  rw [Pools.new] at hnew
  split at hnew
  · obtain rfl := Except.ok.inj hnew
    obtain ⟨books, hbooks, rfl, rfl⟩ := create_eq_ok hcreate
    exact ⟨books, hbooks, by rw [Registry.get?_add Registry.ordered_empty, if_pos rfl], rfl⟩
  · cases hnew

/-- A pool is removed if nobody waits for it and nothing is live in it, and what is live is what it
is kept for otherwise. -/
theorem delete_eq_of_perm (hbooks : pools.registry.get? pool = some books) (htiled : books.Tiled)
    {lent : List Segment} (hperm : books.live.Perm lent) :
    pools.delete pool =
      if 0 < pools.waiters.waitingOn pool then
        .error (.hasWaiters pool (pools.waiters.waitingOn pool))
      else if lent ≠ [] then .error (.inUse pool (Segment.total lent))
      else .ok { pools with registry := pools.registry.erase pool } := by
  have hbytes := htiled.freeBytes_add
  rw [Segment.total_perm hperm] at hbytes
  have hall : books.freeBytes = books.size ↔ books.live = [] := htiled.pristine_tfae.out 2 4
  have hnone : books.freeBytes = books.size ↔ lent = [] := by
    rw [hall, ← List.length_eq_zero_iff, hperm.length_eq, List.length_eq_zero_iff]
  have hused : books.size - books.freeBytes = Segment.total lent := by omega
  rw [delete_eq hbooks, hused]
  simp only [ne_eq, hnone]

end Pools

namespace Pool

variable {pool : Pool} {requests : List Request}

/-- The figures of a pool over a region after requests. -/
structure Figures (pool : Pool) (base size alignment : Nat) (requests : List Request) : Prop where
  /-- The low-water mark is the least number of free bytes there was, counting the first. -/
  lowest : IsLeast
    {bytes | ∃ before, before <+: requests ∧ (pool.serveAll before).stats.freeBytes = bytes}
    (pool.serveAll requests).stats.minFreeBytes
  /-- What is not free is used. -/
  sum : (pool.serveAll requests).stats.freeBytes + (pool.serveAll requests).stats.usedBytes = size
  /-- What is live is what was granted and not released. -/
  live : (pool.serveAll requests).live.Perm (pool.outstanding requests)
  used : (pool.serveAll requests).stats.usedBytes = Segment.total (pool.outstanding requests)
  count : (pool.serveAll requests).stats.liveAllocations = (pool.outstanding requests).length
  /-- All ways to tell whether the pool is in use come to the same. -/
  pristine : [(pool.serveAll requests).isPristine = true,
    (pool.serveAll requests).stats.isPristine = true,
    (pool.serveAll requests).stats.freeBytes = size,
    (pool.serveAll requests).free = [⟨base, size⟩],
    pool.outstanding requests = []].TFAE
  /-- If the pool was created among none and got the requests there, it is kept for being in use
  exactly if something is outstanding. -/
  kept : ∀ (pools pools' : Pools) id, Pools.new alignment = .ok pools →
    pools.create base size = .ok (id, pools') →
    ((∃ used, (pools'.serveAll id requests).delete id = .error (.inUse id used)) ↔
      pool.outstanding requests ≠ [])
  /-- Wherever else it is registered, threads that wait for it are the first thing it is kept for,
  and what is outstanding is the other. -/
  deletion : ∀ (pools : Pools) id, pools.registry.get? id = some (pool.serveAll requests) →
    pools.delete id =
      if 0 < pools.waiters.waitingOn id then
        .error (.hasWaiters id (pools.waiters.waitingOn id))
      else if pool.outstanding requests ≠ [] then
        .error (.inUse id (Segment.total (pool.outstanding requests)))
      else .ok { pools with registry := pools.registry.erase id }
  /-- The percentage is exact unless the pool is too large for it to be computed. -/
  utilization : size ≤ (addressSpace - 1) / 100 →
    (pool.serveAll requests).stats.utilization =
        100 * (pool.serveAll requests).stats.usedBytes / size ∧
      (pool.serveAll requests).stats.utilization ≤ 100

/-- The figures of a pool that could be made are right, whatever was asked of it. -/
theorem figures_of_new {base size alignment : Nat} (h : Pool.new base size alignment = .ok pool)
    (requests : List Request) : pool.Figures base size alignment requests := by
  have hnew := tiled_new h
  have htiled := hnew.serveAll requests
  obtain ⟨hsame, hregion, -⟩ := dimensions_serveAll pool requests
  obtain ⟨hbase, hsize, hnone, hmark⟩ : pool.base = base ∧ pool.size = size ∧ pool.live = [] ∧
      pool.minFree = pool.freeBytes := by
    obtain ⟨-, -, rfl⟩ := new_eq_ok_iff.mp h
    exact ⟨rfl, rfl, rfl, rfl⟩
  rw [hbase] at hsame
  rw [hsize] at hregion
  have hperm := hnew.perm_outstanding hnone requests
  have hbytes := htiled.freeBytes_add
  rw [Segment.total_perm hperm, hregion] at hbytes
  have hused : (pool.serveAll requests).stats.usedBytes =
      Segment.total (pool.outstanding requests) := by
    show (pool.serveAll requests).size - (pool.serveAll requests).freeBytes = _
    omega
  have hpristine := htiled.pristine_tfae
  have hlive : (pool.serveAll requests).live = [] ↔ pool.outstanding requests = [] := by
    rw [← List.length_eq_zero_iff, hperm.length_eq, List.length_eq_zero_iff]
  rw [hsame, hregion, hlive] at hpristine
  refine ⟨hnew.isLeast_minFree hmark requests, hused ▸ hbytes, hperm, hused, hperm.length_eq,
    hpristine, fun pools pools' id hpools hcreate => ?_,
    fun pools id hbooks => Pools.delete_eq_of_perm hbooks htiled hperm, fun hlimit => ?_⟩
  · obtain ⟨books, hbooks, hheld, hnobody⟩ := Pools.of_create hpools hcreate
    obtain rfl := Except.ok.inj (h.symm.trans hbooks)
    obtain ⟨hserved, hwaiters⟩ := Pools.of_serveAll hheld requests
    rw [Pools.delete_eq_of_perm hserved htiled hperm, hwaiters, hnobody, if_neg (Nat.lt_irrefl 0)]
    split <;> simp_all
  · have hpos := htiled.pos
    rw [← hregion] at hlimit ⊢
    exact Stats.utilization_eq hpos (Nat.sub_le _ _) hlimit

/-- Of a pool of a thousand bytes 168 were free when the fewest were. In the end two of four
allocations are outstanding. -/
theorem figures_thousand : ∃ pool, Pool.new 4096 1000 64 = .ok pool ∧
    (pool.serveAll [.allocate 128, .allocate 300, .allocate 350, .deallocate 4096,
      .deallocate 4544, .allocate 100]).stats = ⟨1000, 552, 448, 1, 2, 168⟩ ∧
    pool.Figures 4096 1000 64 [.allocate 128, .allocate 300, .allocate 350, .deallocate 4096,
      .deallocate 4544, .allocate 100] :=
  ⟨_, rfl, by decide +kernel, figures_of_new (show Pool.new 4096 1000 64 = .ok _ from rfl) _⟩

end Pool

end CoopKernel.Memory
