import Mathlib.Tactic.Common
import CoopKernel.Memory.Pool
import CoopKernel.Proofs.Memory.Rounding

/-!
# The segments of a pool

The free segments and the live allocations of a pool together tile its region, and two free segments
are never adjacent. `Tiling` says so by walking over the region: each step uses up the first free
segment or the first live one, whichever begins where the walk stands. The walk is the induction
principle for both operations on the books.

* `Tiling.carve` — an allocation keeps the region tiled;
* `Tiling.restore` — so does a release;
* `Tiling.total` — the free and the live bytes make up the region;
* `Pool.Tiled.free_of_live_eq_nil` — a pool without allocations is one free segment.
-/

namespace CoopKernel.Memory

/-- The segments tile the addresses from `start` to `stop`. `fresh` says whether a free segment may
come first, which it may not right after another one. -/
inductive Tiling : (fresh : Bool) → (start : Nat) → (free live : List Segment) → (stop : Nat) → Prop
  | done {fresh : Bool} {start : Nat} : Tiling fresh start [] [] start
  | live {fresh : Bool} {start stop : Nat} {segment : Segment} {free live : List Segment} :
    segment.base = start → 0 < segment.size → Tiling true segment.stop free live stop →
    Tiling fresh start free (segment :: live) stop
  | free {start stop : Nat} {segment : Segment} {free live : List Segment} :
    segment.base = start → 0 < segment.size → Tiling false segment.stop free live stop →
    Tiling true start (segment :: free) live stop

namespace Segment

@[simp] theorem total_cons (segment : Segment) (segments : List Segment) :
    total (segment :: segments) = segment.size + total segments := rfl

theorem size_le_total {segment : Segment} {segments : List Segment} (hmem : segment ∈ segments) :
    segment.size ≤ total segments := by
  induction segments with
  | nil => simp at hmem
  | cons first rest ih =>
    rw [total_cons]
    rcases List.mem_cons.mp hmem with rfl | hlater
    · exact Nat.le_add_right _ _
    · exact Nat.le_add_left_of_le (ih hlater)

/-- Taking a segment away takes its bytes away. -/
theorem total_erase {segment : Segment} {segments : List Segment} (hmem : segment ∈ segments) :
    total (segments.erase segment) + segment.size = total segments := by
  induction segments with
  | nil => simp at hmem
  | cons first rest ih =>
    by_cases hfirst : first = segment
    · rw [hfirst, List.erase_cons_head, total_cons, Nat.add_comm]
    · rw [List.erase_cons_tail (by simpa using hfirst), total_cons, total_cons, Nat.add_assoc,
        ih ((List.mem_cons.mp hmem).resolve_left (Ne.symm hfirst))]

/-- Where no other segment begins at the same address, a segment can be told by its address. -/
theorem eraseP_base_eq {segment : Segment} {segments : List Segment}
    (hunique : ∀ other ∈ segments, other.base = segment.base → other = segment) :
    segments.eraseP (fun other => other.base == segment.base) = segments.erase segment := by
  induction segments with
  | nil => rfl
  | cons first rest ih =>
    have hrest := ih fun other hmem => hunique other (List.mem_cons_of_mem _ hmem)
    by_cases hfirst : first = segment
    · rw [hfirst, List.erase_cons_head, List.eraseP_cons_of_pos (by simp)]
    · have hbase : first.base ≠ segment.base := fun hbase =>
        hfirst (hunique first List.mem_cons_self hbase)
      rw [List.erase_cons_tail (by simpa using hfirst), List.eraseP_cons_of_neg (by simpa using hbase),
        hrest]

end Segment

namespace Tiling

variable {fresh : Bool} {start stop : Nat} {free live : List Segment}

theorem start_le_of_mem_free (h : Tiling fresh start free live stop) {segment : Segment}
    (hmem : segment ∈ free) : start ≤ segment.base := by
  induction h with
  | done => simp at hmem
  | live hbase _ _ ih => exact hbase ▸ Nat.le_trans (Nat.le_add_right _ _) (ih hmem)
  | free hbase _ _ ih =>
    rcases List.mem_cons.mp hmem with rfl | hrest
    · exact Nat.le_of_eq hbase.symm
    · exact hbase ▸ Nat.le_trans (Nat.le_add_right _ _) (ih hrest)

theorem start_le_of_mem_live (h : Tiling fresh start free live stop) {segment : Segment}
    (hmem : segment ∈ live) : start ≤ segment.base := by
  induction h with
  | done => simp at hmem
  | live hbase _ _ ih =>
    rcases List.mem_cons.mp hmem with rfl | hrest
    · exact Nat.le_of_eq hbase.symm
    · exact hbase ▸ Nat.le_trans (Nat.le_add_right _ _) (ih hrest)
  | free hbase _ _ ih => exact hbase ▸ Nat.le_trans (Nat.le_add_right _ _) (ih hmem)

/-- A free segment may come first if it does not have to. -/
theorem freshen (h : Tiling fresh start free live stop) : Tiling true start free live stop := by
  cases h with
  | done => exact .done
  | live hbase hpos hrest => exact .live hbase hpos hrest
  | free hbase hpos hrest => exact .free hbase hpos hrest

/-! ## Allocation -/

/-- Live segments that begin further on stand behind the new one. -/
theorem insert_of_lt {segment : Segment} (hlt : ∀ other ∈ live, segment.base < other.base) :
    Segment.insert segment live = segment :: live := by
  cases live with
  | nil => rfl
  | cons first rest =>
    have hfirst : ¬ first.base < segment.base := by
      have hlt := hlt first List.mem_cons_self
      omega
    rw [Segment.insert, if_neg hfirst]

/-- An allocation keeps the region tiled, and lies inside it. -/
theorem carve (h : Tiling fresh start free live stop) {size address : Nat} {free' : List Segment}
    (hsize : 0 < size) (hcarve : Segment.carve size free = some (address, free')) :
    start ≤ address ∧ Tiling fresh start free' (Segment.insert ⟨address, size⟩ live) stop := by
  induction h generalizing address free' with
  | done => simp [Segment.carve] at hcarve
  | @live fresh start stop segment free live hbase hpos hrest ih =>
    -- The grant lies further on, so the live segment stays in front of it.
    obtain ⟨hle, htiling⟩ := ih hcarve
    have hlt : segment.base < address := by
      rw [Segment.stop] at hle
      omega
    refine ⟨by omega, ?_⟩
    rw [Segment.insert, if_pos hlt]
    exact .live hbase hpos htiling
  | @free start stop segment rest live hbase hpos hrest ih =>
    rw [Segment.carve] at hcarve
    split at hcarve
    · next hfits =>
      -- This segment is cut: its front is live now, and what remains of it is free.
      obtain ⟨rfl, rfl⟩ := Prod.ext_iff.mp (Option.some.inj hcarve)
      have hfront : Segment.insert ⟨segment.base, size⟩ live = ⟨segment.base, size⟩ :: live := by
        apply insert_of_lt
        intro other hother
        have hle := hrest.start_le_of_mem_live hother
        rw [Segment.stop] at hle
        show segment.base < other.base
        omega
      refine ⟨Nat.le_of_eq hbase.symm, ?_⟩
      simp only [hfront]
      refine .live hbase hsize ?_
      show Tiling true (segment.base + size) _ live stop
      split
      · next heq =>
        rw [← heq]
        exact hrest.freshen
      · next hne =>
        have hstop : (⟨segment.base + size, segment.size - size⟩ : Segment).stop =
            segment.stop := by
          simp only [Segment.stop]
          omega
        refine .free rfl ?_ (hstop ▸ hrest)
        show 0 < segment.size - size
        omega
    · rw [Option.map_eq_some_iff] at hcarve
      obtain ⟨⟨address', rest'⟩, hcarve', heq⟩ := hcarve
      obtain ⟨rfl, rfl⟩ := Prod.ext_iff.mp heq
      obtain ⟨hle, htiling⟩ := ih hcarve'
      refine ⟨?_, .free hbase hpos htiling⟩
      show start ≤ address'
      rw [Segment.stop] at hle
      omega

/-! ## Release -/

/-- A segment in front of a tiled region joins with a free segment that touches it. -/
theorem join {segment : Segment} (hbase : segment.base = start) (hpos : 0 < segment.size)
    (h : Tiling true segment.stop free live stop) :
    Tiling true start (segment.join free) live stop := by
  cases h with
  | done => exact .free hbase hpos .done
  | @live _ _ _ first _ live hbase' hpos' hrest =>
    -- A live segment keeps the next free one at a distance, since no segment is empty.
    have hjoin : segment.join free = segment :: free := by
      cases free with
      | nil => rfl
      | cons next rest =>
        have hle := hrest.start_le_of_mem_free (List.mem_cons_self (a := next))
        have hapart : segment.stop ≠ next.base := by
          rw [Segment.stop] at hle
          omega
        rw [Segment.join, if_neg hapart]
    rw [hjoin]
    exact .free hbase hpos (.live hbase' hpos' hrest)
  | @free _ _ next rest _ hbase' hpos' hrest =>
    rw [Segment.join, if_pos hbase'.symm]
    have hstop : (⟨segment.base, segment.size + next.size⟩ : Segment).stop = next.stop := by
      simp only [Segment.stop] at hbase' ⊢
      omega
    refine .free hbase ?_ (hstop ▸ hrest)
    show 0 < segment.size + next.size
    omega

/-- Live segments begin at distinct addresses. -/
theorem eq_of_base_eq (h : Tiling fresh start free live stop) {first second : Segment}
    (hfirst : first ∈ live) (hsecond : second ∈ live) (hbase : first.base = second.base) :
    first = second := by
  induction h with
  | done => simp at hfirst
  | @live _ _ _ segment _ live _ hpos hrest ih =>
    have hapart : ∀ other ∈ live, segment.base + segment.size ≤ other.base :=
      fun _ hother => hrest.start_le_of_mem_live hother
    rcases List.mem_cons.mp hfirst with rfl | hlater
    · rcases List.mem_cons.mp hsecond with rfl | hlater
      · rfl
      · have hle := hapart second hlater
        omega
    · rcases List.mem_cons.mp hsecond with rfl | hlater'
      · have hle := hapart first hlater
        omega
      · exact ih hlater hlater'
  | free _ _ _ ih => exact ih hfirst hsecond

/-- A segment that begins no later than the others is put in front of them. -/
theorem restore_of_le {segment : Segment} (hle : ∀ other ∈ free, segment.base ≤ other.base) :
    segment.restore free = segment.join free := by
  cases free with
  | nil => rfl
  | cons first rest =>
    rw [Segment.restore, if_neg (Nat.not_lt.mpr (hle first List.mem_cons_self))]

/-- A release keeps the region tiled. Where no free segment may come first, the released one does
not come first either. -/
theorem restore (h : Tiling fresh start free live stop) {segment : Segment}
    (hmem : segment ∈ live) (hfirst : fresh = false → start < segment.base) :
    Tiling fresh start (segment.restore free)
      (live.eraseP fun other => other.base == segment.base) stop := by
  induction h with
  | done => simp at hmem
  | @live fresh start stop first free live hbase hpos hrest ih =>
    by_cases heq : segment.base = first.base
    · -- The walk has come to the released segment. It may be the first free one here, because
      -- otherwise it would begin further on.
      have hwalk : Tiling fresh start free (first :: live) stop := .live hbase hpos hrest
      obtain rfl : segment = first := hwalk.eq_of_base_eq hmem List.mem_cons_self heq
      obtain rfl : fresh = true := by
        rw [← Bool.not_eq_false]
        intro hfalse
        have hlt := hfirst hfalse
        omega
      have hfront : segment.restore free = segment.join free := by
        apply restore_of_le
        intro other hother
        have hle := hrest.start_le_of_mem_free hother
        rw [Segment.stop] at hle
        omega
      rw [List.eraseP_cons_of_pos (by simp), hfront]
      exact join hbase hpos hrest
    · rw [List.eraseP_cons_of_neg (by simpa using Ne.symm heq)]
      have hlater : segment ∈ live := by
        rcases List.mem_cons.mp hmem with rfl | hlater
        · exact absurd rfl heq
        · exact hlater
      exact .live hbase hpos (ih hlater (by simp))
  | @free start stop first rest live hbase hpos hrest ih =>
    have hle := hrest.start_le_of_mem_live hmem
    have hlt : first.base < segment.base := by
      rw [Segment.stop] at hle
      omega
    rw [Segment.restore, if_pos hlt]
    split
    · next htouch =>
      -- The released segment is the one right behind `first`, so the walk goes on behind both.
      cases hrest with
      | done => simp at hmem
      | @live _ _ _ next _ live hbase' hpos' hrest' =>
        have heq : segment.base = next.base := by rw [hbase', htouch]
        have hwalk : Tiling false first.stop rest (next :: live) stop := .live hbase' hpos' hrest'
        obtain rfl : segment = next := hwalk.eq_of_base_eq hmem List.mem_cons_self heq
        rw [List.eraseP_cons_of_pos (by simp)]
        have hstop : (⟨first.base, first.size + segment.size⟩ : Segment).stop = segment.stop := by
          simp only [Segment.stop] at htouch ⊢
          omega
        refine join hbase ?_ (hstop ▸ hrest')
        show 0 < first.size + segment.size
        omega
    · next hapart =>
      exact .free hbase hpos (ih hmem fun _ => by omega)

/-- A region that is tiled without live segments is one free segment, or empty. -/
theorem free_of_live_eq_nil (h : Tiling fresh start free [] stop) (hlt : start < stop) :
    free = [⟨start, stop - start⟩] := by
  cases h with
  | done => exact absurd hlt (Nat.lt_irrefl _)
  | @free _ _ segment rest _ hbase hpos hrest =>
    cases hrest with
    | done =>
      have hsegment : segment = ⟨start, segment.stop - start⟩ := by
        rw [← hbase, Segment.stop, Nat.add_sub_cancel_left]
      rw [← hsegment]

/-! ## Bytes -/

/-- The region is made up of the free and the live bytes. -/
theorem total (h : Tiling fresh start free live stop) :
    start + (Segment.total free + Segment.total live) = stop := by
  induction h with
  | done => rfl
  | live hbase _ _ ih =>
    rw [← ih, ← hbase, Segment.total_cons, Segment.stop]
    omega
  | free hbase _ _ ih =>
    rw [← ih, ← hbase, Segment.total_cons, Segment.stop]
    omega

/-- A live segment is not empty, and ends within the region. -/
theorem of_mem_live (h : Tiling fresh start free live stop) {segment : Segment}
    (hmem : segment ∈ live) : 0 < segment.size ∧ segment.stop ≤ stop := by
  induction h with
  | done => simp at hmem
  | live _ hpos hrest ih =>
    rcases List.mem_cons.mp hmem with rfl | hlater
    · exact ⟨hpos, hrest.total ▸ Nat.le_add_right _ _⟩
    · exact ih hlater
  | free _ _ _ ih => exact ih hmem

end Tiling

/-! ## The books of a pool -/

namespace Pool

/-- The segments tile the region, and the granularity is a power of two. -/
structure Tiled (pool : Pool) : Prop where
  pow : isPowerOfTwo pool.alignment
  pos : 0 < pool.size
  tiling : Tiling true pool.base pool.free pool.live (pool.base + pool.size)

variable {pool : Pool}

theorem tiled_new {base size alignment : Nat} (h : Pool.new base size alignment = .ok pool) :
    pool.Tiled := by
  rw [Pool.new] at h
  split at h
  · simp at h
  · next hpow =>
    split at h
    · simp at h
    · next hregion =>
      have hsize : 0 < size := by omega
      obtain rfl := Except.ok.inj h
      exact ⟨by simpa using hpow, hsize, .free rfl hsize .done⟩

/-- What an allocation that succeeds does to the books. -/
theorem allocate_eq_ok {pool' : Pool} {size address : Nat}
    (h : pool.allocate size = .ok (address, pool')) :
    ∃ granted free, size ≠ 0 ∧ pool.grantedSize size = some granted ∧
      Segment.carve granted pool.free = some (address, free) ∧
      pool' = { pool with
        free
        live := Segment.insert ⟨address, granted⟩ pool.live
        minFree := min pool.minFree (Segment.total free) } := by
  rw [Pool.allocate] at h
  split at h
  · simp at h
  · next hsize =>
    split at h
    · simp at h
    · next granted hgranted =>
      split at h
      · simp at h
      · next address' free hcarve =>
        obtain ⟨rfl, rfl⟩ := Prod.ext_iff.mp (Except.ok.inj h)
        exact ⟨granted, free, hsize, hgranted, hcarve, rfl⟩

/-- A request for something is turned away only because there is no room. -/
theorem allocate_eq_error {error : PoolError} {size : Nat} (hsize : size ≠ 0)
    (h : pool.allocate size = .error error) : ∃ requested, error = .exhausted requested := by
  rw [Pool.allocate, if_neg hsize] at h
  split at h
  · exact ⟨_, (Except.error.inj h).symm⟩
  · split at h
    · exact ⟨_, (Except.error.inj h).symm⟩
    · simp at h

/-- What a release that succeeds does to the books. -/
theorem deallocate_eq_ok {pool' : Pool} {address released : Nat}
    (h : pool.deallocate address = .ok (released, pool')) :
    ∃ segment ∈ pool.live, segment.base = address ∧ segment.size = released ∧
      pool' = { pool with
        free := segment.restore pool.free
        live := pool.live.eraseP fun other => other.base == segment.base } := by
  rw [Pool.deallocate] at h
  split at h
  · simp at h
  · split at h
    · simp at h
    · next segment hfound =>
      obtain ⟨rfl, rfl⟩ := Prod.ext_iff.mp (Except.ok.inj h)
      have hbase := List.find?_some hfound
      obtain rfl : segment.base = address := by simpa using hbase
      exact ⟨segment, List.mem_of_find?_eq_some hfound, rfl, rfl, rfl⟩

theorem Tiled.allocate {pool' : Pool} (h : pool.Tiled) {size address : Nat}
    (hok : pool.allocate size = .ok (address, pool')) : pool'.Tiled := by
  obtain ⟨granted, free, hsize, hgranted, hcarve, rfl⟩ := allocate_eq_ok hok
  have hle := le_of_roundUp_eq_some h.pow hgranted
  exact ⟨h.pow, h.pos, (h.tiling.carve (by omega) hcarve).2⟩

theorem Tiled.deallocate {pool' : Pool} (h : pool.Tiled) {address released : Nat}
    (hok : pool.deallocate address = .ok (released, pool')) : pool'.Tiled := by
  obtain ⟨segment, hmem, -, -, rfl⟩ := deallocate_eq_ok hok
  exact ⟨h.pow, h.pos, h.tiling.restore hmem (by simp)⟩

/-- What fits into a pool is decided by its dimensions, which an allocation leaves alone. -/
theorem canEverFit_allocate {pool' : Pool} {size address : Nat}
    (hok : pool.allocate size = .ok (address, pool')) : pool'.canEverFit = pool.canEverFit := by
  obtain ⟨granted, free, -, -, -, rfl⟩ := allocate_eq_ok hok
  rfl

theorem canEverFit_deallocate {pool' : Pool} {address released : Nat}
    (hok : pool.deallocate address = .ok (released, pool')) :
    pool'.canEverFit = pool.canEverFit := by
  obtain ⟨segment, -, -, -, rfl⟩ := deallocate_eq_ok hok
  rfl

/-- After an allocation something is allocated. -/
theorem live_ne_nil_of_allocate {pool' : Pool} {size address : Nat}
    (hok : pool.allocate size = .ok (address, pool')) : pool'.live ≠ [] := by
  obtain ⟨granted, free, -, -, -, rfl⟩ := allocate_eq_ok hok
  show Segment.insert _ pool.live ≠ []
  cases pool.live with
  | nil => simp [Segment.insert]
  | cons first rest =>
    rw [Segment.insert]
    split <;> simp

/-- A pool without allocations is one free segment. -/
theorem Tiled.free_of_live_eq_nil (h : pool.Tiled) (hlive : pool.live = []) :
    pool.free = [⟨pool.base, pool.size⟩] := by
  have htiling := h.tiling
  have hpos := h.pos
  rw [hlive] at htiling
  rw [htiling.free_of_live_eq_nil (by omega), Nat.add_sub_cancel_left]

/-- If a pool turns a request away that it could meet when empty, it is not empty. -/
theorem Tiled.live_ne_nil_of_exhausted (h : pool.Tiled) {size requested : Nat}
    (hfits : pool.canEverFit size) (herror : pool.allocate size = .error (.exhausted requested)) :
    pool.live ≠ [] := by
  intro hlive
  rw [Pool.canEverFit, Option.any_eq_true] at hfits
  obtain ⟨granted, hgranted, hle⟩ := hfits
  have hle : granted ≤ pool.size := by simpa using hle
  simp only [Pool.allocate, hgranted, h.free_of_live_eq_nil hlive, Segment.carve, if_pos hle]
    at herror
  split at herror <;> simp at herror

/-- A live allocation is released at its address: its bytes are free again, and nothing else has
changed. -/
theorem Tiled.deallocate_eq (h : pool.Tiled) {segment : Segment} (hmem : segment ∈ pool.live) :
    pool.deallocate segment.base = .ok (segment.size, { pool with
      free := segment.restore pool.free
      live := pool.live.erase segment }) := by
  have hstart := h.tiling.start_le_of_mem_live hmem
  obtain ⟨hpos, hstop⟩ := h.tiling.of_mem_live hmem
  have hcontains : pool.contains segment.base = true := by
    simp only [Segment.stop] at hstop
    simp only [Pool.contains, Bool.and_eq_true, decide_eq_true_eq]
    omega
  have herase := Segment.eraseP_base_eq fun other (hother : other ∈ pool.live) =>
    h.tiling.eq_of_base_eq hother hmem
  rw [Pool.deallocate, hcontains]
  cases hfound : pool.live.find? fun other => other.base == segment.base with
  | none => simpa using List.find?_eq_none.mp hfound segment hmem
  | some other =>
    have hbase := List.find?_some hfound
    obtain rfl := h.tiling.eq_of_base_eq (List.mem_of_find?_eq_some hfound) hmem
      (beq_iff_eq.mp hbase)
    simp only [Bool.not_true, Bool.false_eq_true, if_false, herase]

/-- What is free and what is allocated make up the pool. -/
theorem Tiled.freeBytes_add (h : pool.Tiled) :
    pool.freeBytes + Segment.total pool.live = pool.size := by
  have htotal := h.tiling.total
  rw [Pool.freeBytes]
  omega

/-- As long as something is allocated not all is free. -/
theorem Tiled.freeBytes_lt (h : pool.Tiled) {segment : Segment} (hmem : segment ∈ pool.live) :
    pool.freeBytes < pool.size := by
  have hbytes := h.freeBytes_add
  have hpos := (h.tiling.of_mem_live hmem).1
  have hle := Segment.size_le_total hmem
  omega

end Pool

end CoopKernel.Memory
