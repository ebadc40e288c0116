import Mathlib.Data.List.Induction
import Mathlib.Order.Bounds.Basic
import CoopKernel.Proofs.Memory.Leases

/-!
# How a pool is laid out

What can be said of a pool after any requests whatever since it was made (`Pool.Kept`): the free
segments ascend and never touch, together with the live ones they use up every byte of the region
once, and each live one stands on the grid of the pool's granularity and is as large as its request
needs. The walk over the region (`Tiling`) gives the first half. The grid and the sizes are a second
invariant (`Pool.Gridded`), which the walk knows nothing about: the region need not end on the grid,
so the last free segment may have any size, and only where segments begin is a matter of the grid.

* `Tiling.countP_covers` — every address of the region lies in exactly one segment;
* `Pool.Gridded.serve` — a request keeps all segments on the grid;
* `Pool.origin` — each live segment was granted to one of the requests and has stood since;
* `Pool.kept_of_new` — the whole of it, after any requests to a new pool.
-/

namespace CoopKernel.Memory

/-! ## The walk, address by address -/

namespace Segment

/-- Whether an address lies in the segment. -/
def covers (segment : Segment) (address : Nat) : Bool :=
  segment.base ≤ address && address < segment.stop

theorem covers_iff {segment : Segment} {address : Nat} :
    segment.covers address = true ↔ segment.base ≤ address ∧ address < segment.stop := by
  rw [covers, Bool.and_eq_true, decide_eq_true_eq, decide_eq_true_eq]

end Segment

namespace Tiling

variable {fresh : Bool} {start stop : Nat} {free live : List Segment}

theorem start_le_stop (h : Tiling fresh start free live stop) : start ≤ stop :=
  h.total ▸ Nat.le_add_right _ _

/-- A free segment is not empty, and ends within the region. -/
theorem of_mem_free (h : Tiling fresh start free live stop) {segment : Segment}
    (hmem : segment ∈ free) : 0 < segment.size ∧ segment.stop ≤ stop := by
  induction h with
  | done => simp at hmem
  | live _ _ _ ih => exact ih hmem
  | free _ hpos hrest ih =>
    rcases List.mem_cons.mp hmem with rfl | hlater
    · exact ⟨hpos, hrest.start_le_stop⟩
    · exact ih hlater

/-- Where no free segment may come first, there is something else in front of all of them. -/
theorem start_lt_of_mem_free (h : Tiling false start free live stop) {segment : Segment}
    (hmem : segment ∈ free) : start < segment.base := by
  cases h with
  | done => simp at hmem
  | live hbase hpos hrest =>
    have hle := hrest.start_le_of_mem_free hmem
    rw [Segment.stop] at hle
    omega

/-- The free segments ascend, with something between each and the next. -/
theorem pairwise_free (h : Tiling fresh start free live stop) :
    free.Pairwise fun segment next => segment.stop < next.base := by
  induction h with
  | done => exact .nil
  | live _ _ _ ih => exact ih
  | free _ _ hrest ih => exact .cons (fun _ hmem => hrest.start_lt_of_mem_free hmem) ih

/-- What a segment at the front and the rest of the walk cover is what the whole walk covers. -/
theorem covered_cons {segment : Segment} {address : Nat} (hbase : segment.base = start)
    (hle : segment.stop ≤ stop) :
    (if segment.stop ≤ address ∧ address < stop then 1 else 0) +
        (if segment.covers address = true then 1 else 0) =
      if start ≤ address ∧ address < stop then 1 else 0 := by
  simp only [Segment.covers_iff, Segment.stop] at hle ⊢
  grind

/-- Every address of the region lies in exactly one segment, and no other address lies in any. -/
theorem countP_covers (h : Tiling fresh start free live stop) (address : Nat) :
    (free ++ live).countP (·.covers address) =
      if start ≤ address ∧ address < stop then 1 else 0 := by
  induction h with
  | done =>
    rw [if_neg (by omega)]
    rfl
  | live hbase _ hrest ih =>
    rw [List.countP_append] at ih ⊢
    rw [List.countP_cons, ← Nat.add_assoc, ih, covered_cons hbase hrest.start_le_stop]
  | free hbase _ hrest ih =>
    rw [List.cons_append, List.countP_cons, ih, covered_cons hbase hrest.start_le_stop]

end Tiling

/-! ## The grid -/

namespace Segment

variable {P : Nat → Prop} {free : List Segment}

/-- Carving cuts a segment where one begins, and begins the next one as many bytes further on as it
takes. -/
theorem base_of_carve {size address : Nat} {free' : List Segment}
    (hcarve : carve size free = some (address, free')) (hfree : ∀ segment ∈ free, P segment.base)
    (hnext : ∀ base, P base → P (base + size)) :
    P address ∧ ∀ segment ∈ free', P segment.base := by
  induction free generalizing address free' with
  | nil => simp [carve] at hcarve
  | cons first rest ih =>
    rw [List.forall_mem_cons] at hfree
    rw [carve] at hcarve
    split at hcarve
    · obtain ⟨rfl, rfl⟩ := Prod.ext_iff.mp (Option.some.inj hcarve)
      refine ⟨hfree.1, ?_⟩
      show ∀ segment ∈ (if first.size = size then rest else _), P segment.base
      split
      · exact hfree.2
      · exact List.forall_mem_cons.mpr ⟨hnext _ hfree.1, hfree.2⟩
    · rw [Option.map_eq_some_iff] at hcarve
      obtain ⟨⟨address', rest'⟩, hcarve', heq⟩ := hcarve
      obtain ⟨rfl, rfl⟩ := Prod.ext_iff.mp heq
      obtain ⟨haddress, hrest⟩ := ih hcarve' hfree.2
      exact ⟨haddress, List.forall_mem_cons.mpr ⟨hfree.1, hrest⟩⟩

theorem base_of_mem_join {segment : Segment} (hsegment : P segment.base)
    (hfree : ∀ other ∈ free, P other.base) : ∀ other ∈ segment.join free, P other.base := by
  cases free with
  | nil => exact List.forall_mem_cons.mpr ⟨hsegment, hfree⟩
  | cons next rest =>
    rw [join]
    split
    · exact List.forall_mem_cons.mpr ⟨hsegment, (List.forall_mem_cons.mp hfree).2⟩
    · exact List.forall_mem_cons.mpr ⟨hsegment, hfree⟩

/-- After a release free segments begin only where one began before or what was released did. -/
theorem base_of_mem_restore {segment : Segment} (hsegment : P segment.base)
    (hfree : ∀ other ∈ free, P other.base) : ∀ other ∈ segment.restore free, P other.base := by
  induction free with
  | nil => exact List.forall_mem_cons.mpr ⟨hsegment, hfree⟩
  | cons first rest ih =>
    obtain ⟨hfirst, hrest⟩ := List.forall_mem_cons.mp hfree
    rw [restore]
    split
    · split
      · exact base_of_mem_join hfirst hrest
      · exact List.forall_mem_cons.mpr ⟨hfirst, ih hrest⟩
    · exact base_of_mem_join hsegment hfree

end Segment

namespace Pool

variable {pool pool' : Pool}

/-- Whether an address is a multiple of the granularity away from the beginning of the region. -/
def OnGrid (pool : Pool) (address : Nat) : Prop := ∃ n, address = pool.base + n * pool.alignment

/-- All segments begin on the grid. -/
def Gridded (pool : Pool) : Prop := ∀ segment ∈ pool.free ++ pool.live, pool.OnGrid segment.base

theorem OnGrid.add {address size : Nat} (h : pool.OnGrid address) (hdvd : pool.alignment ∣ size) :
    pool.OnGrid (address + size) := by
  obtain ⟨n, rfl⟩ := h
  obtain ⟨c, rfl⟩ := hdvd
  exact ⟨n + c, by rw [Nat.add_mul, Nat.mul_comm c, Nat.add_assoc]⟩

theorem Gridded.allocate {size address : Nat} (h : pool.Gridded) (htiled : pool.Tiled)
    (hok : pool.allocate size = .ok (address, pool')) : pool'.Gridded := by
  obtain ⟨granted, free, hsize, hgranted, hcarve, rfl⟩ := allocate_eq_ok hok
  obtain ⟨hfree, hlive⟩ := List.forall_mem_append.mp h
  have hdvd := (isLeast_of_roundUp_eq_some (Nat.pos_of_ne_zero hsize) htiled.pow hgranted).1.2.1
  obtain ⟨haddress, hfree'⟩ := Segment.base_of_carve (P := pool.OnGrid) hcarve hfree
    fun _ hbase => hbase.add hdvd
  refine List.forall_mem_append.mpr ⟨hfree', fun segment hmem => ?_⟩
  rcases Pools.mem_insert.mp hmem with rfl | hold
  · exact haddress
  · exact hlive segment hold

theorem Gridded.deallocate {address released : Nat} (h : pool.Gridded)
    (hok : pool.deallocate address = .ok (released, pool')) : pool'.Gridded := by
  obtain ⟨segment, hmem, -, -, rfl⟩ := deallocate_eq_ok hok
  obtain ⟨hfree, hlive⟩ := List.forall_mem_append.mp h
  have hfree' := Segment.base_of_mem_restore (P := pool.OnGrid) (hlive segment hmem) hfree
  exact List.forall_mem_append.mpr ⟨hfree', fun other hother =>
    hlive other (List.mem_of_mem_eraseP hother)⟩

/-! ## A pool that nothing was taken from -/

/-- The pool over a region that is free as a whole. -/
def whole (base size alignment : Nat) : Pool :=
  { base, size, alignment, free := [⟨base, size⟩], live := [], minFree := size }

/-- Whether a region is one that a pool can be made over. -/
structure Usable (base size : Nat) : Prop where
  base_ne : base ≠ 0
  size_ne : size ≠ 0
  within : base + size < addressSpace

theorem new_eq_ok_iff {base size alignment : Nat} : Pool.new base size alignment = .ok pool ↔
    isPowerOfTwo alignment = true ∧ Usable base size ∧ pool = whole base size alignment := by
  rw [Pool.new]
  split
  · next hpow => simp_all
  · next hpow =>
    have hpow : isPowerOfTwo alignment = true := by simpa using hpow
    split
    · next hregion =>
      refine iff_of_false (by simp) ?_
      rintro ⟨-, husable, -⟩
      have hbase := husable.base_ne
      have hsize := husable.size_ne
      have hwithin := husable.within
      omega
    · next hregion =>
      have husable : Usable base size := ⟨by omega, by omega, by omega⟩
      constructor
      · intro h
        exact ⟨hpow, husable, (Except.ok.inj h).symm⟩
      · rintro ⟨-, -, rfl⟩
        rfl

variable {size alignment request : Nat}

/-- Whether a request fits into the whole pool: some multiple of the granularity must cover it and
be no larger than the region. -/
theorem canEverFit_whole_iff (base : Nat) (hrequest : 0 < request)
    (hpow : isPowerOfTwo alignment = true) (hsize : size < addressSpace) :
    (whole base size alignment).canEverFit request = true ↔
      ∃ n, alignment ∣ n ∧ request ≤ n ∧ n ≤ size := by
  rw [canEverFit, Option.any_eq_true]
  constructor
  · rintro ⟨granted, hgranted, hle⟩
    obtain ⟨-, hdvd, hcovers⟩ := (isLeast_of_roundUp_eq_some hrequest hpow hgranted).1
    exact ⟨granted, hdvd, hcovers, of_decide_eq_true hle⟩
  · rintro ⟨n, hdvd, hcovers, hle⟩
    obtain ⟨granted, hgranted⟩ := exists_roundUp_eq_some hrequest hpow hdvd hcovers (by omega)
    have hleast := (isLeast_of_roundUp_eq_some hrequest hpow hgranted).2
      ⟨by omega, hdvd, hcovers⟩
    exact ⟨granted, hgranted, decide_eq_true (Nat.le_trans hleast hle)⟩

/-- The first request to a pool, if it fits, is met at the beginning of the region. -/
theorem allocate_whole (base : Nat) (hrequest : 0 < request) (hpow : isPowerOfTwo alignment = true)
    (hsize : size < addressSpace) (hfits : ∃ n, alignment ∣ n ∧ request ≤ n ∧ n ≤ size) :
    ∃ books granted, (whole base size alignment).allocate request = .ok (base, books) ∧
      books.live = [⟨base, granted⟩] := by
  have hroom := (canEverFit_whole_iff base hrequest hpow hsize).mpr hfits
  rw [canEverFit, Option.any_eq_true] at hroom
  obtain ⟨granted, hgranted, hle⟩ := hroom
  have hle : granted ≤ size := of_decide_eq_true hle
  have hgranted : roundUp request alignment = some granted := hgranted
  rw [Pool.allocate, if_neg hrequest.ne']
  simp only [grantedSize, whole, hgranted, Segment.carve, if_pos hle]
  exact ⟨_, granted, rfl, rfl⟩

/-- A request that does not fit finds the whole pool exhausted. -/
theorem allocate_whole_eq_error (base : Nat) (hrequest : 0 < request)
    (hpow : isPowerOfTwo alignment = true) (hsize : size < addressSpace)
    (hfits : ¬ ∃ n, alignment ∣ n ∧ request ≤ n ∧ n ≤ size) :
    ∃ requested, (whole base size alignment).allocate request = .error (.exhausted requested) := by
  have hroom := mt (canEverFit_whole_iff base hrequest hpow hsize).mp hfits
  rw [Bool.not_eq_true, canEverFit] at hroom
  rw [Pool.allocate, if_neg hrequest.ne']
  cases hgranted : (whole base size alignment).grantedSize request with
  | none => exact ⟨_, rfl⟩
  | some granted =>
    rw [hgranted, Option.any_some, decide_eq_false_iff_not] at hroom
    have hroom : ¬ granted ≤ size := hroom
    simp only [whole, Segment.carve, if_neg hroom]
    exact ⟨_, rfl⟩

/-! ## Requests -/

/-- A request to a pool. -/
inductive Request
  | allocate (size : Nat)
  | deallocate (address : Nat)
deriving DecidableEq, Repr

/-- How a pool answers a request, with the books afterwards. -/
def answer (pool : Pool) : Request → Except PoolError (Nat × Pool)
  | .allocate size => pool.allocate size
  | .deallocate address => pool.deallocate address

/-- The books after a request. -/
def serve (pool : Pool) (request : Request) : Pool :=
  match pool.answer request with
  | .ok (_, books) => books
  | .error _ => pool

/-- The books after requests one after the other. -/
def serveAll (pool : Pool) (requests : List Request) : Pool := requests.foldl serve pool

variable {request : Request} {requests : List Request}

/-- A request that is refused leaves the books as they are. -/
theorem serve_of_error {error : PoolError} (h : pool.answer request = .error error) :
    pool.serve request = pool := by
  rw [serve, h]

theorem serve_of_ok {found : Nat} (h : pool.answer request = .ok (found, pool')) :
    pool.serve request = pool' := by
  rw [serve, h]

theorem serveAll_concat (pool : Pool) (requests : List Request) (request : Request) :
    pool.serveAll (requests ++ [request]) = (pool.serveAll requests).serve request := by
  rw [serveAll, List.foldl_concat, ← serveAll]

theorem Tiled.serve (h : pool.Tiled) (request : Request) : (pool.serve request).Tiled := by
  cases hanswer : pool.answer request with
  | error error => rwa [serve_of_error hanswer]
  | ok result =>
    rw [serve_of_ok hanswer]
    cases request with
    | allocate size => exact h.allocate hanswer
    | deallocate address => exact h.deallocate hanswer

theorem Gridded.serve (h : pool.Gridded) (htiled : pool.Tiled) (request : Request) :
    (pool.serve request).Gridded := by
  cases hanswer : pool.answer request with
  | error error => rwa [serve_of_error hanswer]
  | ok result =>
    rw [serve_of_ok hanswer]
    cases request with
    | allocate size => exact h.allocate htiled hanswer
    | deallocate address => exact h.deallocate hanswer

/-- A pool keeps its region and its granularity. -/
theorem dimensions_serve (pool : Pool) (request : Request) :
    (pool.serve request).base = pool.base ∧ (pool.serve request).size = pool.size ∧
      (pool.serve request).alignment = pool.alignment := by
  cases hanswer : pool.answer request with
  | error error => rw [serve_of_error hanswer]; exact ⟨rfl, rfl, rfl⟩
  | ok result =>
    rw [serve_of_ok hanswer]
    cases request with
    | allocate size =>
      obtain ⟨_, _, -, -, -, hbooks⟩ := allocate_eq_ok hanswer
      rw [hbooks]
      exact ⟨rfl, rfl, rfl⟩
    | deallocate address =>
      obtain ⟨_, -, -, -, hbooks⟩ := deallocate_eq_ok hanswer
      rw [hbooks]
      exact ⟨rfl, rfl, rfl⟩

/-- A segment is live after a request if it was before, or if the request was for it. -/
theorem mem_live_serve {segment : Segment} (hmem : segment ∈ (pool.serve request).live) :
    segment ∈ pool.live ∨ ∃ size, request = .allocate size ∧ 0 < size ∧
      pool.grantedSize size = some segment.size ∧
      pool.answer request = .ok (segment.base, pool.serve request) := by
  cases hanswer : pool.answer request with
  | error error =>
    rw [serve_of_error hanswer] at hmem
    exact .inl hmem
  | ok result =>
    obtain ⟨found, books⟩ := result
    rw [serve_of_ok hanswer] at hmem ⊢
    cases request with
    | allocate size =>
      obtain ⟨granted, free, hsize, hgranted, -, hbooks⟩ := allocate_eq_ok hanswer
      rw [hbooks] at hmem
      rcases Pools.mem_insert.mp hmem with rfl | hold
      · exact .inr ⟨size, rfl, Nat.pos_of_ne_zero hsize, hgranted, rfl⟩
      · exact .inl hold
    | deallocate address =>
      obtain ⟨released, -, -, -, hbooks⟩ := deallocate_eq_ok hanswer
      rw [hbooks] at hmem
      exact .inl (List.mem_of_mem_eraseP hmem)

/-! ## After any requests -/

/-- A segment that is live after requests was granted to one of them, an allocation of `size` bytes,
and has been live ever since. -/
structure Origin (pool : Pool) (requests : List Request) (segment : Segment) (size : Nat) :
    Prop where
  pos : 0 < size
  granted : pool.grantedSize size = some segment.size
  request : ∃ before after, requests = before ++ .allocate size :: after ∧
    (∃ books, (pool.serveAll before).allocate size = .ok (segment.base, books)) ∧
    ∀ since, since <+: after →
      segment ∈ (pool.serveAll (before ++ .allocate size :: since)).live

/-- What is live stays live through another request unless it is not live after it. -/
theorem Origin.concat {segment : Segment} {size : Nat} (h : pool.Origin requests segment size)
    (hmem : segment ∈ (pool.serveAll (requests ++ [request])).live) :
    pool.Origin (requests ++ [request]) segment size where
  pos := h.pos
  granted := h.granted
  request := by
    obtain ⟨before, after, rfl, hanswer, hsince⟩ := h.request
    refine ⟨before, after ++ [request], by simp, hanswer, fun since hprefix => ?_⟩
    rcases List.prefix_concat_iff.mp hprefix with rfl | hearlier
    · simpa using hmem
    · exact hsince since hearlier

/-- What every request preserves holds after any number of them. -/
theorem serveAll_induction {P : Pool → Prop} (h : P pool)
    (hserve : ∀ pool request, P pool → P (pool.serve request)) (requests : List Request) :
    P (pool.serveAll requests) := by
  induction requests using List.reverseRecOn with
  | nil => exact h
  | append_singleton requests request ih =>
    rw [serveAll_concat]
    exact hserve _ request ih

theorem dimensions_serveAll (pool : Pool) (requests : List Request) :
    (pool.serveAll requests).base = pool.base ∧ (pool.serveAll requests).size = pool.size ∧
      (pool.serveAll requests).alignment = pool.alignment := by
  refine serveAll_induction (P := fun books => books.base = pool.base ∧ books.size = pool.size ∧
    books.alignment = pool.alignment) ⟨rfl, rfl, rfl⟩ (fun books request hbooks => ?_) requests
  obtain ⟨hbase, hsize, halignment⟩ := dimensions_serve books request
  rwa [hbase, hsize, halignment]

theorem Tiled.serveAll (h : pool.Tiled) (requests : List Request) :
    (pool.serveAll requests).Tiled :=
  serveAll_induction h (fun _ request hbooks => hbooks.serve request) requests

theorem Gridded.serveAll (h : pool.Gridded) (htiled : pool.Tiled) (requests : List Request) :
    (pool.serveAll requests).Gridded :=
  (serveAll_induction (P := fun books => books.Tiled ∧ books.Gridded) ⟨htiled, h⟩
    (fun _ request hbooks => ⟨hbooks.1.serve request, hbooks.2.serve hbooks.1 request⟩)
    requests).2

/-- If nothing was live at first, every live segment was granted to a request. -/
theorem origin (hnone : pool.live = []) (requests : List Request) {segment : Segment}
    (hmem : segment ∈ (pool.serveAll requests).live) :
    ∃ size, pool.Origin requests segment size := by
  induction requests using List.reverseRecOn with
  | nil =>
    have hempty : segment ∈ pool.live := hmem
    simp [hnone] at hempty
  | append_singleton requests request ih =>
    have hserved := hmem
    rw [serveAll_concat] at hserved
    rcases mem_live_serve hserved with hold | ⟨size, rfl, hpos, hgranted, hanswer⟩
    · obtain ⟨size, horigin⟩ := ih hold
      exact ⟨size, horigin.concat hmem⟩
    · have halignment := (dimensions_serveAll pool requests).2.2
      rw [grantedSize, halignment] at hgranted
      refine ⟨size, hpos, hgranted, requests, [], rfl, ⟨_, hanswer⟩, fun since hprefix => ?_⟩
      rw [List.prefix_nil.mp hprefix]
      exact hmem

/-- What can be said of a pool over a region after requests. -/
structure Kept (pool : Pool) (base size alignment : Nat) (requests : List Request) : Prop where
  /-- The pool has its region and its granularity still, and the region ends before the last
  address. -/
  dimensions : (pool.serveAll requests).base = base ∧ (pool.serveAll requests).size = size ∧
    (pool.serveAll requests).alignment = alignment ∧ base + size < addressSpace
  /-- The free segments ascend, with at least one byte between each and the next. -/
  ascending : (pool.serveAll requests).free.Pairwise fun segment next => segment.stop < next.base
  /-- Every address of the region lies in exactly one segment, and no other address in any. -/
  tiling : ∀ address,
    ((pool.serveAll requests).free ++ (pool.serveAll requests).live).countP (·.covers address) =
      if base ≤ address ∧ address < base + size then 1 else 0
  /-- No segment is empty or ends past the region. -/
  bounds : ∀ segment ∈ (pool.serveAll requests).free ++ (pool.serveAll requests).live,
    0 < segment.size ∧ segment.stop ≤ base + size
  /-- Live segments stand on the grid, and each is as large as the request needed that it was
  granted to. -/
  live : ∀ segment ∈ (pool.serveAll requests).live,
    (∃ n, segment.base = base + n * alignment) ∧
    ∃ requested, pool.Origin requests segment requested ∧
      IsLeast {n | 0 < n ∧ alignment ∣ n ∧ requested ≤ n} segment.size
  /-- The next request, if it is refused, leaves the pool as it is. -/
  refused : ∀ request error, (pool.serveAll requests).answer request = .error error →
    pool.serveAll (requests ++ [request]) = pool.serveAll requests

/-- A pool that could be made is kept as it should be, whatever is asked of it. -/
theorem kept_of_new {base size alignment : Nat} (h : Pool.new base size alignment = .ok pool)
    (requests : List Request) : pool.Kept base size alignment requests := by
  have htiled := tiled_new h
  obtain ⟨-, husable, rfl⟩ := new_eq_ok_iff.mp h
  have hgridded : (whole base size alignment).Gridded :=
    List.forall_mem_singleton.mpr ⟨0, by rw [Nat.zero_mul]; rfl⟩
  obtain ⟨hbase, hsize, halignment⟩ := dimensions_serveAll (whole base size alignment) requests
  have htiling := (htiled.serveAll requests).tiling
  rw [hbase, hsize] at htiling
  refine ⟨⟨hbase, hsize, halignment, husable.within⟩, htiling.pairwise_free, htiling.countP_covers,
    ?_, ?_, ?_⟩
  · intro segment hmem
    exact (List.mem_append.mp hmem).elim htiling.of_mem_free htiling.of_mem_live
  · intro segment hmem
    obtain ⟨n, hgrid⟩ := hgridded.serveAll htiled requests segment (List.mem_append_right _ hmem)
    obtain ⟨requested, horigin⟩ := origin rfl requests hmem
    rw [hbase, halignment] at hgrid
    exact ⟨⟨n, hgrid⟩, requested, horigin,
      isLeast_of_roundUp_eq_some horigin.pos htiled.pow horigin.granted⟩
  · intro request error hrefused
    rw [serveAll_concat, serve_of_error hrefused]

/-- A region of a thousand bytes does not end on the grid, and its pool is kept all the same. -/
theorem kept_thousand : ∃ pool, Pool.new 4096 1000 64 = .ok pool ∧
    (pool.serveAll [.allocate 100, .allocate 64, .deallocate 4096, .allocate 700]).live =
      [⟨4224, 64⟩, ⟨4288, 704⟩] ∧
    pool.Kept 4096 1000 64 [.allocate 100, .allocate 64, .deallocate 4096, .allocate 700] :=
  ⟨_, rfl, by decide +kernel, kept_of_new rfl _⟩

end Pool

end CoopKernel.Memory
