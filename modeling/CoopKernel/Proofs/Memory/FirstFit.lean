import CoopKernel.Proofs.Memory.FreeList
import Mathlib.Data.List.Pairwise

/-!
# First fit

What an allocation comes to can be said of the live allocations alone (`Pool.FirstFit`): it is made
at the lowest address where the rounded request fits between them, and it is refused only if there
is no such address. The books look for it in the free list instead. Both are the same because the
free segments are the gaps in full (`Tiling.exists_free_of_apart`): a range that is clear of
everything live lies in a single free segment, since right behind a free segment something is live
or the region ends. So the first segment that is large enough has the lowest address at its front
(`Pool.Tiled.isLeast_of_carve`).

Of a pool with nothing live in it this says which requests can be met at all. The check that is made
of the numbers before anybody waits for memory foretells just that (`Pool.forecast_of_new`).
-/

namespace CoopKernel.Memory

namespace Segment

variable {size address : Nat} {free free' : List Segment}

/-- Carving takes the front of the first segment that is large enough. -/
theorem carve_eq_some (h : carve size free = some (address, free')) :
    ∃ before segment after, free = before ++ segment :: after ∧
      (∀ other ∈ before, other.size < size) ∧ size ≤ segment.size ∧ segment.base = address := by
  induction free generalizing free' with
  | nil => simp [carve] at h
  | cons first rest ih =>
    rw [carve] at h
    split at h
    · next hfits =>
      obtain ⟨rfl, -⟩ := Prod.ext_iff.mp (Option.some.inj h)
      exact ⟨[], first, rest, rfl, by simp, hfits, rfl⟩
    · next hsmall =>
      rw [Option.map_eq_some_iff] at h
      obtain ⟨⟨address', rest'⟩, hcarve, heq⟩ := h
      obtain ⟨rfl, -⟩ := Prod.ext_iff.mp heq
      obtain ⟨before, segment, after, rfl, hbefore, hfits, hbase⟩ := ih hcarve
      have hfirst : first.size < size := Nat.lt_of_not_le hsmall
      exact ⟨first :: before, segment, after, rfl, List.forall_mem_cons.mpr ⟨hfirst, hbefore⟩,
        hfits, hbase⟩

/-- Carving fails only if no segment is large enough. -/
theorem carve_eq_none (h : carve size free = none) : ∀ segment ∈ free, segment.size < size := by
  induction free with
  | nil => simp
  | cons first rest ih =>
    rw [carve] at h
    split at h
    · simp at h
    · next hsmall =>
      exact List.forall_mem_cons.mpr ⟨Nat.lt_of_not_le hsmall, ih (Option.map_eq_none_iff.mp h)⟩

end Segment

namespace Tiling

variable {fresh : Bool} {start stop : Nat} {free live : List Segment}

/-- Nothing is both free and live. -/
theorem apart_of_mem (h : Tiling fresh start free live stop) {segment other : Segment}
    (hfree : segment ∈ free) (hlive : other ∈ live) : segment.Apart other := by
  induction h with
  | done => simp at hfree
  | live hbase hpos hrest ih =>
    rcases List.mem_cons.mp hlive with rfl | hlater
    · exact .inr (hrest.start_le_of_mem_free hfree)
    · exact ih hfree hlater
  | free hbase hpos hrest ih =>
    rcases List.mem_cons.mp hfree with rfl | hlater
    · exact .inl (hrest.start_le_of_mem_live hlive)
    · exact ih hlater hlive

/-- A range that begins before a walk and is apart from everything live on it ends where the walk
begins, if the walk does not begin with a free segment. -/
theorem stop_le_of_apart (h : Tiling false start free live stop) {range : Segment}
    (hbefore : range.base < start) (hstop : range.stop ≤ stop)
    (hapart : ∀ other ∈ live, range.Apart other) : range.stop ≤ start := by
  cases h with
  | done => exact hstop
  | @live _ _ _ first _ _ hbase hpos hrest =>
    have hfirst := hapart first List.mem_cons_self
    simp only [Segment.Apart, Segment.stop] at hfirst ⊢
    omega

/-- A range that is apart from everything live lies in one free segment. -/
theorem exists_free_of_apart (h : Tiling fresh start free live stop) {range : Segment}
    (hpos : 0 < range.size) (hstart : start ≤ range.base) (hstop : range.stop ≤ stop)
    (hapart : ∀ other ∈ live, range.Apart other) :
    ∃ segment ∈ free, segment.base ≤ range.base ∧ range.stop ≤ segment.stop := by
  induction h with
  | done =>
    rw [Segment.stop] at hstop
    omega
  | @live _ start _ first _ _ hbase _ _ ih =>
    obtain ⟨hfirst, hlater⟩ := List.forall_mem_cons.mp hapart
    refine ih ?_ hstop hlater
    simp only [Segment.Apart, Segment.stop] at hfirst ⊢
    omega
  | @free start _ first rest _ hbase _ hrest ih =>
    by_cases hinside : range.base < first.stop
    · exact ⟨first, List.mem_cons_self, hbase ▸ hstart, hrest.stop_le_of_apart hinside hstop hapart⟩
    · obtain ⟨segment, hmem, hholds⟩ := ih (Nat.le_of_not_lt hinside) hstop hapart
      exact ⟨segment, List.mem_cons_of_mem _ hmem, hholds⟩

end Tiling

namespace Pool

variable {pool : Pool} {size address request granted : Nat}

/-! ## Room -/

/-- A range of addresses lies in the region, and nothing live is in it. -/
structure Vacant (pool : Pool) (range : Segment) : Prop where
  base_le : pool.base ≤ range.base
  stop_le : range.stop ≤ pool.base + pool.size
  apart : ∀ segment ∈ pool.live, range.Apart segment

/-- Somewhere in the pool so many bytes in a row are vacant. -/
def Room (pool : Pool) (size : Nat) : Prop := ∃ address, pool.Vacant ⟨address, size⟩

/-- A range is vacant if a free segment holds it, and only then. -/
theorem Tiled.vacant_iff (h : pool.Tiled) {range : Segment} (hpos : 0 < range.size) :
    pool.Vacant range ↔
      ∃ segment ∈ pool.free, segment.base ≤ range.base ∧ range.stop ≤ segment.stop := by
  constructor
  · intro hvacant
    exact h.tiling.exists_free_of_apart hpos hvacant.base_le hvacant.stop_le hvacant.apart
  · rintro ⟨segment, hmem, hbase, hstop⟩
    refine ⟨(h.tiling.start_le_of_mem_free hmem).trans hbase,
      hstop.trans (h.tiling.of_mem_free hmem).2, fun other hother => ?_⟩
    exact (h.tiling.apart_of_mem hmem hother).imp hstop.trans fun hle => hle.trans hbase

/-- What is carved begins at the lowest address from which so many bytes are vacant. -/
theorem Tiled.isLeast_of_carve (h : pool.Tiled) {free : List Segment} (hpos : 0 < size)
    (hcarve : Segment.carve size pool.free = some (address, free)) :
    IsLeast {found | pool.Vacant ⟨found, size⟩} address := by
  obtain ⟨before, segment, after, hsplit, hsmall, hfits, rfl⟩ := Segment.carve_eq_some hcarve
  have hmem : segment ∈ pool.free := hsplit ▸ List.mem_append_right before List.mem_cons_self
  refine ⟨(h.vacant_iff hpos).mpr ⟨segment, hmem, Nat.le_refl _, Nat.add_le_add_left hfits _⟩, ?_⟩
  intro found hvacant
  obtain ⟨holder, hholder, hbase, hstop⟩ := (h.vacant_iff hpos).mp hvacant
  simp only [Segment.stop] at hbase hstop
  -- What holds the range is large enough, so it is not one of those that were passed over.
  rw [hsplit, List.mem_append, List.mem_cons] at hholder
  obtain hpassed | rfl | hlater := hholder
  · have hsmall := hsmall holder hpassed
    omega
  · exact hbase
  · have hascending := h.tiling.pairwise_free
    rw [hsplit] at hascending
    have hbehind := List.rel_of_pairwise_cons (List.pairwise_append.mp hascending).2.1 hlater
    rw [Segment.stop] at hbehind
    omega

/-- If nothing can be carved, so many bytes are vacant nowhere. -/
theorem Tiled.not_room_of_carve (h : pool.Tiled) (hpos : 0 < size)
    (hcarve : Segment.carve size pool.free = none) : ¬ pool.Room size := by
  rintro ⟨address, hvacant⟩
  obtain ⟨holder, hholder, hbase, hstop⟩ := (h.vacant_iff hpos).mp hvacant
  have hsmall := Segment.carve_eq_none hcarve holder hholder
  simp only [Segment.stop] at hbase hstop
  omega

/-! ## Allocations -/

/-- What is set aside for a request that is not empty is not empty. -/
theorem Tiled.granted_pos (h : pool.Tiled) (hrequest : 0 < request)
    (hgranted : pool.grantedSize request = some granted) : 0 < granted :=
  Nat.lt_of_lt_of_le hrequest (le_of_roundUp_eq_some h.pow hgranted)

/-- An allocation that succeeds is made at the lowest vacant address, and is all that is new. -/
theorem Tiled.allocated (h : pool.Tiled) {books : Pool}
    (hgranted : pool.grantedSize request = some granted)
    (hok : pool.allocate request = .ok (address, books)) :
    IsLeast {found | pool.Vacant ⟨found, granted⟩} address ∧
      books.live.Perm (⟨address, granted⟩ :: pool.live) := by
  obtain ⟨granted', free, hsize, hgranted', hcarve, rfl⟩ := allocate_eq_ok hok
  obtain rfl := Option.some.inj (hgranted'.symm.trans hgranted)
  have hpos := h.granted_pos (Nat.pos_of_ne_zero hsize) hgranted
  exact ⟨h.isLeast_of_carve hpos hcarve, Segment.perm_insert _ _⟩

/-- What is allocated is live with exactly the rounded size, and apart from everything else that is
live. -/
theorem Tiled.live_of_allocate (h : pool.Tiled) {books : Pool}
    (hok : pool.allocate request = .ok (address, books)) :
    ⟨address, covering request books.alignment⟩ ∈ books.live ∧
      ∀ segment ∈ books.live, segment ≠ ⟨address, covering request books.alignment⟩ →
        segment.Apart ⟨address, covering request books.alignment⟩ := by
  have htiled := h.allocate hok
  obtain ⟨granted, free, -, hgranted, -, rfl⟩ := allocate_eq_ok hok
  obtain rfl := eq_covering_of_roundUp_eq_some h.pow hgranted
  have hmem : ⟨address, covering request pool.alignment⟩ ∈
      Segment.insert ⟨address, covering request pool.alignment⟩ pool.live :=
    (Segment.perm_insert _ _).mem_iff.mpr List.mem_cons_self
  have hsymm : Std.Symm Segment.Apart := ⟨fun _ _ => Or.symm⟩
  exact ⟨hmem, fun segment hsegment hne => htiled.tiling.pairwise_apart.forall hsegment hmem hne⟩

/-- A pool that meets a request has room for it. -/
theorem Tiled.room_of_allocate (h : pool.Tiled) {books : Pool}
    (hok : pool.allocate request = .ok (address, books)) :
    pool.Room (covering request pool.alignment) := by
  obtain ⟨granted, free, -, hgranted, -⟩ := allocate_eq_ok hok
  rw [← eq_covering_of_roundUp_eq_some h.pow hgranted]
  exact ⟨address, (h.allocated hgranted hok).1.1⟩

/-- If there is room for what would be set aside, the allocation succeeds. -/
theorem Tiled.allocate_of_room (h : pool.Tiled) (hrequest : 0 < request)
    (hgranted : pool.grantedSize request = some granted) (hroom : pool.Room granted) :
    ∃ address books, pool.allocate request = .ok (address, books) := by
  cases hcarve : Segment.carve granted pool.free with
  | none => exact absurd hroom (h.not_room_of_carve (h.granted_pos hrequest hgranted) hcarve)
  | some result =>
    rw [Pool.allocate, if_neg hrequest.ne']
    simp only [hgranted, hcarve]
    exact ⟨_, _, rfl⟩

/-- If there is none, it is refused for as many bytes as it would have needed. -/
theorem Tiled.allocate_of_not_room (h : pool.Tiled) (hrequest : 0 < request)
    (hgranted : pool.grantedSize request = some granted) (hroom : ¬ pool.Room granted) :
    pool.allocate request = .error (.exhausted granted) := by
  cases hcarve : Segment.carve granted pool.free with
  | none =>
    rw [Pool.allocate, if_neg hrequest.ne']
    simp only [hgranted, hcarve]
  | some result =>
    have hpos := h.granted_pos hrequest hgranted
    exact absurd ⟨_, (h.isLeast_of_carve hpos hcarve).1⟩ hroom

/-- A request that cannot be rounded is refused for as many bytes as it asks for. -/
theorem allocate_of_grantedSize_eq_none (hrequest : 0 < request)
    (hgranted : pool.grantedSize request = none) :
    pool.allocate request = .error (.exhausted request) := by
  rw [Pool.allocate, if_neg hrequest.ne']
  simp only [hgranted]

/-- What a pool does with a request, as far as what is live in it determines that. -/
structure FirstFit (pool : Pool) (request granted : Nat) : Prop where
  /-- What is set aside is the request rounded up to the granularity. -/
  rounded : IsLeast {n | pool.alignment ∣ n ∧ request ≤ n} granted
  /-- The request is met exactly if there is room for it. -/
  met : (∃ address books, pool.allocate request = .ok (address, books)) ↔ pool.Room granted
  /-- It is met at the lowest address where it can be, and is live there with what was set aside;
  nothing else that is live has changed. -/
  lowest : ∀ address books, pool.allocate request = .ok (address, books) →
    IsLeast {found | pool.Vacant ⟨found, granted⟩} address ∧
      books.live.Perm (⟨address, granted⟩ :: pool.live)
  /-- Otherwise the pool is exhausted, also if the rounded request is no number of bytes at all. -/
  exhausted : ¬ pool.Room granted →
    pool.allocate request =
      .error (.exhausted (if granted < addressSpace then granted else request))

theorem Tiled.firstFit (h : pool.Tiled) (hwithin : pool.base + pool.size < addressSpace)
    (hrequest : 0 < request) : pool.FirstFit request (covering request pool.alignment) := by
  have hgranted : pool.grantedSize request = _ := roundUp_eq_ite hrequest h.pow
  have hrounded := isLeast_covering request (pos_of_isPowerOfTwo h.pow)
  by_cases hspace : covering request pool.alignment < addressSpace
  · rw [if_pos hspace] at hgranted
    refine ⟨hrounded, ⟨fun ⟨address, books, hok⟩ => ?_, h.allocate_of_room hrequest hgranted⟩,
      fun address books => h.allocated hgranted, fun hroom => ?_⟩
    · exact ⟨address, (h.allocated hgranted hok).1.1⟩
    · rw [if_pos hspace]
      exact h.allocate_of_not_room hrequest hgranted hroom
  · rw [if_neg hspace] at hgranted
    have hrefused := allocate_of_grantedSize_eq_none hrequest hgranted
    have hnone : ∀ address books, pool.allocate request ≠ .ok (address, books) := by
      simp [hrefused]
    refine ⟨hrounded, iff_of_false (fun ⟨address, books, hok⟩ => hnone address books hok) ?_,
      fun address books hok => absurd hok (hnone address books), fun _ => ?_⟩
    · -- There is no room in the pool for more than there are addresses.
      rintro ⟨address, hvacant⟩
      have hstop := hvacant.stop_le
      simp only [Segment.stop] at hstop
      omega
    · rw [if_neg hspace]
      exact hrefused

/-- Whatever was asked of a pool that could be made, it serves the next request first fit. -/
theorem firstFit_of_new {base size alignment : Nat} (h : Pool.new base size alignment = .ok pool)
    (requests : List Request) (hrequest : 0 < request) :
    (pool.serveAll requests).FirstFit request (covering request alignment) := by
  have htiled := (tiled_new h).serveAll requests
  obtain ⟨-, husable, rfl⟩ := new_eq_ok_iff.mp h
  obtain ⟨hbase, hsize, halignment⟩ := dimensions_serveAll (whole base size alignment) requests
  have hfit := htiled.firstFit (hbase.symm ▸ hsize.symm ▸ husable.within) hrequest
  rwa [halignment] at hfit

/-- Between two allocations a gap of 128 bytes was left. It is passed over by a request for 129, and
then taken by one for 100. -/
theorem firstFit_thousand : ∃ pool, Pool.new 4096 1000 64 = .ok pool ∧
    (pool.serveAll [.allocate 128, .allocate 64, .deallocate 4096, .allocate 129,
      .allocate 100]).live = [⟨4096, 128⟩, ⟨4224, 64⟩, ⟨4288, 192⟩] ∧
    (pool.serveAll [.allocate 128, .allocate 64, .deallocate 4096, .allocate 129]).FirstFit 100
      (covering 100 64) :=
  ⟨_, rfl, by decide +kernel,
    firstFit_of_new (show Pool.new 4096 1000 64 = .ok _ from rfl) _ (by decide)⟩

/-! ## What fits at all -/

/-- A request that is met fits. -/
theorem Tiled.canEverFit_of_allocate (h : pool.Tiled) {books : Pool}
    (hok : pool.allocate request = .ok (address, books)) : pool.canEverFit request = true := by
  obtain ⟨granted, free, -, hgranted, hcarve, -⟩ := allocate_eq_ok hok
  obtain ⟨before, segment, after, hsplit, -, hfits, -⟩ := Segment.carve_eq_some hcarve
  have hmem : segment ∈ pool.free := hsplit ▸ List.mem_append_right before List.mem_cons_self
  have hsegment := Segment.size_le_total hmem
  have hbytes := h.freeBytes_add
  rw [Pool.freeBytes] at hbytes
  rw [canEverFit, hgranted, Option.any_some, decide_eq_true_eq]
  omega

/-- The pool would meet a request if nothing were live. -/
def Capable (pool : Pool) (request : Nat) : Prop :=
  ∃ address books, pool.emptied.allocate request = .ok (address, books)

theorem canEverFit_iff (pool : Pool) (hrequest : 0 < request) :
    pool.canEverFit request = true ↔ pool.Capable request := by
  rw [canEverFit, Capable, Pool.allocate, if_neg hrequest.ne']
  have hsame : pool.emptied.grantedSize request = pool.grantedSize request := rfl
  rw [hsame]
  cases pool.grantedSize request with
  | none => simp
  | some granted =>
    rw [Option.any_some, decide_eq_true_eq]
    by_cases hle : granted ≤ pool.size
    · simp [emptied, Segment.carve, hle]
    · simp [emptied, Segment.carve, hle]

/-- A pool that refuses a request it could meet has no room for it. -/
theorem Tiled.not_room_of_error (h : pool.Tiled) (hrequest : 0 < request)
    (hfits : pool.canEverFit request = true) {error : PoolError}
    (hfull : pool.allocate request = .error error) :
    ¬ pool.Room (covering request pool.alignment) := by
  rw [canEverFit, Option.any_eq_true] at hfits
  obtain ⟨granted, hgranted, -⟩ := hfits
  rw [← eq_covering_of_roundUp_eq_some h.pow hgranted]
  intro hroom
  obtain ⟨address, books, hok⟩ := h.allocate_of_room hrequest hgranted hroom
  rw [hfull] at hok
  cases hok

theorem canEverFit_serve (pool : Pool) (served : Request) :
    (pool.serve served).canEverFit = pool.canEverFit := by
  obtain ⟨-, hsize, halignment⟩ := dimensions_serve pool served
  funext request
  rw [canEverFit, canEverFit, grantedSize, grantedSize, hsize, halignment]

/-- What becomes of a request, as foretold by whether it fits. -/
structure Forecast (pool : Pool) (request : Nat) : Prop where
  /-- It fits exactly if the pool would meet it once all that is live has been released, in
  whatever order that is done. -/
  emptied : ∀ segments : List Segment, segments.Perm pool.live →
    ∃ books, pool.releaseAll (segments.map (·.base)) = .ok books ∧
      (pool.canEverFit request = true ↔
        ∃ address books', books.allocate request = .ok (address, books'))
  /-- If it does not, the pool refuses it now and after any further requests. -/
  never : pool.canEverFit request = false → ∀ later, ∃ requested,
    (pool.serveAll later).allocate request = .error (.exhausted requested)

theorem Tiled.forecast (h : pool.Tiled) (hrequest : 0 < request) : pool.Forecast request where
  emptied segments hperm := ⟨_, h.releaseAll_live hperm, pool.canEverFit_iff hrequest⟩
  never hfits later := by
    have hsame : (pool.serveAll later).canEverFit = pool.canEverFit :=
      serveAll_induction (P := fun books => books.canEverFit = pool.canEverFit) rfl
        (fun books served hbooks => (canEverFit_serve books served).trans hbooks) later
    cases hanswer : (pool.serveAll later).allocate request with
    | ok result =>
      have hmet := (h.serveAll later).canEverFit_of_allocate hanswer
      rw [hsame, hfits] at hmet
      exact absurd hmet Bool.false_ne_true
    | error error =>
      obtain ⟨requested, rfl⟩ := allocate_eq_error hrequest.ne' hanswer
      exact ⟨requested, rfl⟩

/-- Whatever was asked of a pool that could be made, what it says of a request is true. -/
theorem forecast_of_new {base size alignment : Nat} (h : Pool.new base size alignment = .ok pool)
    (requests : List Request) (hrequest : 0 < request) :
    (pool.serveAll requests).Forecast request :=
  ((tiled_new h).serveAll requests).forecast hrequest

/-- A pool of a thousand bytes has no room for a thousand, since those would be rounded up. -/
theorem forecast_thousand : ∃ pool, Pool.new 4096 1000 64 = .ok pool ∧
    pool.canEverFit 1000 = false ∧ pool.canEverFit 960 = true ∧
    (pool.serveAll [.allocate 64, .allocate 100]).Forecast 1000 :=
  ⟨_, rfl, by decide +kernel, by decide +kernel,
    forecast_of_new (show Pool.new 4096 1000 64 = .ok _ from rfl) _ (by decide)⟩

end Pool

end CoopKernel.Memory
