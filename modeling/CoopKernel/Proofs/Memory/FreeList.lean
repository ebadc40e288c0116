import Mathlib.Data.List.Sort
import CoopKernel.Proofs.Memory.Layout
import CoopKernel.Proofs.Memory.Shares

/-!
# The free list as a function of what is live

The free segments of a pool are the gaps between its live ones. The walk over the region says so
without a word about how the books came to be: where a live segment ends, the next free one begins
unless another live one does, and it ends where the next live one begins. Two walks over one region
that pass the same live segments therefore pass the same free ones (`Tiling.free_unique`).

All else is read off that. The books of a pool are those of any other history with the same live
allocations (`Pool.Tiled.unique`), so releases commute, a release undoes an allocation, and a pool
that everything is released in is whole again, whichever free segments were split and joined on the
way (`Pool.gaps_of_new`). Only the low-water mark remembers.
-/

namespace CoopKernel.Memory

namespace Tiling

variable {fresh fresh' : Bool} {start start' stop : Nat} {free free' live : List Segment}

/-- Where no free segment may come first, the walk stands at the first live one, or at its end. -/
theorem start_unique (h : Tiling false start free live stop)
    (h' : Tiling false start' free' live stop) : start = start' := by
  cases h with
  | done =>
    cases h' with
    | done => rfl
  | live hbase =>
    cases h' with
    | live hbase' => exact hbase.symm.trans hbase'

/-- A walk that begins with a free segment begins with nothing else. -/
theorem start_ne_of_free {segment : Segment} (hbase : segment.base = start)
    (hpos : 0 < segment.size) (hrest : Tiling false segment.stop free live stop) :
    start ≠ stop ∧ ∀ other ∈ live, start ≠ other.base := by
  have hlt : start < segment.stop := by
    rw [Segment.stop]
    omega
  exact ⟨Nat.ne_of_lt (Nat.lt_of_lt_of_le hlt hrest.start_le_stop), fun other hmem =>
    Nat.ne_of_lt (Nat.lt_of_lt_of_le hlt (hrest.start_le_of_mem_live hmem))⟩

/-- The live segments leave only one list of free ones. -/
theorem free_unique (h : Tiling fresh start free live stop)
    (h' : Tiling fresh' start free' live stop) : free = free' := by
  induction h generalizing fresh' free' with
  | done =>
    cases h' with
    | done => rfl
    | free hbase hpos hrest => exact absurd rfl (start_ne_of_free hbase hpos hrest).1
  | @live _ _ _ first _ _ hbase _ _ ih =>
    cases h' with
    | live _ _ hrest' => exact ih hrest'
    | free hbase' hpos' hrest' =>
      exact absurd hbase.symm ((start_ne_of_free hbase' hpos' hrest').2 first List.mem_cons_self)
  | @free start stop segment rest live hbase hpos hrest ih =>
    cases h' with
    | done => exact absurd rfl (start_ne_of_free hbase hpos hrest).1
    | @live _ _ _ first _ _ hbase' =>
      exact absurd hbase'.symm ((start_ne_of_free hbase hpos hrest).2 first List.mem_cons_self)
    | @free _ _ segment' rest' _ hbase' hpos' hrest' =>
      -- Both gaps end where the walk goes on, so they are one, and so are the walks behind them.
      have hstop : segment.stop = segment'.stop := hrest.start_unique hrest'
      have hsegment : segment = segment' := by
        cases segment
        cases segment'
        simp only [Segment.stop, Segment.mk.injEq] at hbase hbase' hstop ⊢
        omega
      rw [hsegment, ih (hstop ▸ hrest')]

end Tiling

namespace Pool

variable {pool pool' : Pool}

/-- Two pools over one region that have the same allocations have the same books. -/
theorem Tiled.unique (h : pool.Tiled) (h' : pool'.Tiled) (hbase : pool.base = pool'.base)
    (hsize : pool.size = pool'.size)
    (hlive : ∀ segment, segment ∈ pool.live ↔ segment ∈ pool'.live) :
    pool.live = pool'.live ∧ pool.free = pool'.free := by
  have : Std.Irrefl fun segment next : Segment => segment.base < next.base :=
    ⟨fun _ => Nat.lt_irrefl _⟩
  have hsame : pool.live = pool'.live :=
    List.Subset.antisymm_of_pairwise h.tiling.pairwise_live h'.tiling.pairwise_live
      (fun segment hmem => (hlive segment).mp hmem) fun segment hmem => (hlive segment).mpr hmem
  have htiling := h.tiling
  rw [hbase, hsize, hsame] at htiling
  exact ⟨hsame, htiling.free_unique h'.tiling⟩

/-! ## Releases -/

/-- The books after the allocations at some addresses are released one after the other. -/
def releaseAll (pool : Pool) : List Nat → Except PoolError Pool
  | [] => .ok pool
  | address :: rest => do
    let (_, books) ← pool.deallocate address
    books.releaseAll rest

/-- Live allocations can be released in any order. What else is live stays, and the region, its
granularity and the low-water mark are as before. -/
theorem Tiled.releaseAll (h : pool.Tiled) {segments : List Segment} (hdistinct : segments.Nodup)
    (hlive : segments ⊆ pool.live) :
    ∃ free live, pool.releaseAll (segments.map (·.base)) = .ok { pool with free, live } ∧
      Tiled { pool with free, live } ∧
      ∀ segment, segment ∈ live ↔ segment ∈ pool.live ∧ segment ∉ segments := by
  induction segments generalizing pool with
  | nil => exact ⟨pool.free, pool.live, rfl, h, by simp⟩
  | cons first rest ih =>
    obtain ⟨hfirst, hrest⟩ := List.nodup_cons.mp hdistinct
    obtain ⟨hmem, hlater⟩ := List.cons_subset.mp hlive
    have hdeallocate := h.deallocate_eq hmem
    have herase : ∀ segment, segment ∈ pool.live.erase first ↔
        segment ∈ pool.live ∧ segment ≠ first := fun segment => by
      rw [h.nodup_live.mem_erase_iff, and_comm]
    obtain ⟨free, live, hreleased, htiled, hleft⟩ := ih (h.deallocate hdeallocate) hrest
      fun segment hsegment => (herase segment).mpr
        ⟨hlater hsegment, fun heq => hfirst (heq ▸ hsegment)⟩
    refine ⟨free, live, ?_, htiled, fun segment => ?_⟩
    · rw [List.map_cons, Pool.releaseAll, hdeallocate]
      exact hreleased
    · rw [hleft, herase, List.mem_cons, not_or, and_assoc]

/-- The order of the releases makes no difference to the books. -/
theorem Tiled.releaseAll_perm (h : pool.Tiled) {segments segments' : List Segment}
    (hdistinct : segments.Nodup) (hlive : segments ⊆ pool.live) (hperm : segments.Perm segments') :
    pool.releaseAll (segments'.map (·.base)) = pool.releaseAll (segments.map (·.base)) := by
  obtain ⟨free, live, hreleased, htiled, hleft⟩ := h.releaseAll hdistinct hlive
  obtain ⟨free', live', hreleased', htiled', hleft'⟩ :=
    h.releaseAll (hperm.nodup_iff.mp hdistinct) fun segment hmem => hlive (hperm.mem_iff.mpr hmem)
  have hunique := htiled.unique htiled' rfl rfl fun segment => by
    rw [hleft, hleft', hperm.mem_iff]
  obtain ⟨rfl, rfl⟩ : live = live' ∧ free = free' := hunique
  rw [hreleased, hreleased']

/-- The books of a pool once nothing is live in it any more. -/
def emptied (pool : Pool) : Pool := { pool with free := [⟨pool.base, pool.size⟩], live := [] }

/-- When all that is live has been released, the region is one free segment. -/
theorem Tiled.releaseAll_live (h : pool.Tiled) {segments : List Segment}
    (hperm : segments.Perm pool.live) :
    pool.releaseAll (segments.map (·.base)) = .ok pool.emptied := by
  obtain ⟨free, live, hreleased, htiled, hleft⟩ :=
    h.releaseAll (hperm.nodup_iff.mpr h.nodup_live) hperm.subset
  have hnone : live = [] := List.eq_nil_iff_forall_not_mem.mpr fun segment hmem =>
    ((hleft segment).mp hmem).2 (hperm.mem_iff.mpr ((hleft segment).mp hmem).1)
  have hwhole : free = [⟨pool.base, pool.size⟩] := htiled.free_of_live_eq_nil hnone
  rw [hreleased, hnone, hwhole, emptied]

/-- Releasing what was just allocated leaves the books as they were, but for the low-water mark. -/
theorem Tiled.deallocate_of_allocate (h : pool.Tiled) {size address : Nat}
    (hok : pool.allocate size = .ok (address, pool')) :
    ∃ granted, pool'.deallocate address =
      .ok (granted, { pool with minFree := pool'.minFree }) := by
  have htiled := h.allocate hok
  obtain ⟨granted, free, -, -, -, rfl⟩ := allocate_eq_ok hok
  have hperm := Segment.perm_insert ⟨address, granted⟩ pool.live
  obtain ⟨hnew, -⟩ := List.nodup_cons.mp (hperm.nodup_iff.mp htiled.nodup_live)
  have hdeallocate := htiled.deallocate_eq (hperm.mem_iff.mpr List.mem_cons_self)
  have hleft : ∀ segment, segment ∈ (Segment.insert ⟨address, granted⟩ pool.live).erase
      ⟨address, granted⟩ ↔ segment ∈ pool.live := fun segment => by
    rw [htiled.nodup_live.mem_erase_iff, hperm.mem_iff, List.mem_cons]
    grind
  obtain ⟨hlive, hfree⟩ : (Segment.insert ⟨address, granted⟩ pool.live).erase ⟨address, granted⟩ =
      pool.live ∧ Segment.restore ⟨address, granted⟩ free = pool.free :=
    (htiled.deallocate hdeallocate).unique h rfl rfl hleft
  rw [hdeallocate]
  exact ⟨granted, by simp only [hlive, hfree]⟩

/-! ## After any requests -/

/-- What the free list of a pool over a region has to do with what is live in it. -/
structure Gaps (pool : Pool) (base size : Nat) : Prop where
  /-- Any two histories that end with the same allocations end with the same free segments. -/
  determined : ∀ requests requests',
    (∀ segment, segment ∈ (pool.serveAll requests).live ↔
      segment ∈ (pool.serveAll requests').live) →
    (pool.serveAll requests).free = (pool.serveAll requests').free
  /-- Live allocations can be released in any two orders, to the same effect: they are gone, and
  nothing else is. -/
  commuting : ∀ requests (segments segments' : List Segment), segments.Nodup →
    segments ⊆ (pool.serveAll requests).live → segments.Perm segments' →
    ∃ books, (pool.serveAll requests).releaseAll (segments.map (·.base)) = .ok books ∧
      (pool.serveAll requests).releaseAll (segments'.map (·.base)) = .ok books ∧
      ∀ segment, segment ∈ books.live ↔
        segment ∈ (pool.serveAll requests).live ∧ segment ∉ segments
  /-- The release of an allocation that was just made succeeds, and leaves what is free and what is
  live exactly as it was before. -/
  undone : ∀ requests requested address books,
    (pool.serveAll requests).allocate requested = .ok (address, books) →
    ∃ granted books', books.deallocate address = .ok (granted, books') ∧
      books'.free = (pool.serveAll requests).free ∧ books'.live = (pool.serveAll requests).live
  /-- Once all that is live is released, the region is a single free segment. -/
  emptied : ∀ requests (segments : List Segment), segments.Perm (pool.serveAll requests).live →
    ∃ books, (pool.serveAll requests).releaseAll (segments.map (·.base)) = .ok books ∧
      books.free = [⟨base, size⟩] ∧ books.live = []

/-- What is free in a pool that could be made depends on nothing but what is live. -/
theorem gaps_of_new {base size alignment : Nat} (h : Pool.new base size alignment = .ok pool) :
    pool.Gaps base size := by
  have htiled := (tiled_new h).serveAll
  obtain ⟨-, -, rfl⟩ := new_eq_ok_iff.mp h
  have hdimensions := dimensions_serveAll (whole base size alignment)
  refine ⟨fun requests requests' hlive => ?_,
    fun requests segments segments' hdistinct hlive hperm => ?_,
    fun requests requested address books hok => ?_, fun requests segments hperm => ?_⟩
  · obtain ⟨hbase, hsize, -⟩ := hdimensions requests
    obtain ⟨hbase', hsize', -⟩ := hdimensions requests'
    exact ((htiled requests).unique (htiled requests') (hbase.trans hbase'.symm)
      (hsize.trans hsize'.symm) hlive).2
  · obtain ⟨free, live, hreleased, -, hleft⟩ := (htiled requests).releaseAll hdistinct hlive
    exact ⟨_, hreleased, ((htiled requests).releaseAll_perm hdistinct hlive hperm).trans hreleased,
      hleft⟩
  · obtain ⟨granted, hdeallocate⟩ := (htiled requests).deallocate_of_allocate hok
    exact ⟨granted, _, hdeallocate, rfl, rfl⟩
  · obtain ⟨hbase, hsize, -⟩ := hdimensions requests
    refine ⟨_, (htiled requests).releaseAll_live hperm, ?_, rfl⟩
    rw [emptied, hbase, hsize]
    rfl

/-- Of three neighbours in a pool of a thousand bytes the outer two are released, and then the
middle one. -/
theorem gaps_thousand : ∃ pool, Pool.new 4096 1000 64 = .ok pool ∧
    (pool.serveAll [.allocate 64, .allocate 100, .allocate 64, .deallocate 4096,
      .deallocate 4288]).live = [⟨4160, 128⟩] ∧
    (pool.serveAll [.allocate 64, .allocate 100, .allocate 64, .deallocate 4096,
      .deallocate 4288]).free = [⟨4096, 64⟩, ⟨4288, 808⟩] ∧
    (pool.serveAll [.allocate 64, .allocate 100, .allocate 64, .deallocate 4096,
      .deallocate 4288, .deallocate 4160]).free = [⟨4096, 1000⟩] ∧
    pool.Gaps 4096 1000 :=
  ⟨_, rfl, by decide +kernel, by decide +kernel, by decide +kernel,
    gaps_of_new (show Pool.new 4096 1000 64 = .ok _ from rfl)⟩

end Pool

end CoopKernel.Memory
