import CoopKernel.Proofs.Kernel.Estates
import CoopKernel.Proofs.Memory.Shares

/-!
# What the system pool was asked for

The stacks of all threads are ranges of the system pool (`Kernel.stackRanges`). What is allocated
there was granted to requests (`Kernel.SharedAmong`), of which there is one more after an allocation
(`SharedAmong.add`) and one less after a release (`SharedAmong.remove`).
-/

namespace CoopKernel

open Memory (Segment Pool)

variable {ε : Type}

/-- The range that a stack was asked for. -/
def Stack.segment (stack : Stack) : Segment := ⟨stack.address, stack.size⟩

namespace Kernel

variable {W : PoolId → Prop} {k k' : Kernel ε} {id : ThreadId}

/-! ## The stacks of all threads -/

/-- The threads that have stacks, in ascending order, with their stacks. -/
def stacked (k : Kernel ε) : List (ThreadId × Stack) :=
  k.sched.threads.entries.filterMap fun entry => entry.2.stack.map (entry.1, ·)

/-- The ranges that the stacks of threads were asked for. -/
def stackRanges (k : Kernel ε) : List Segment := k.stacked.map (·.2.segment)

theorem mem_stacked_iff (h : k.Sound W) {stack : Stack} :
    (id, stack) ∈ k.stacked ↔ k.stackOf id = some stack := by
  rw [stacked, List.mem_filterMap, stackOf_eq_some]
  constructor
  · rintro ⟨⟨other, t⟩, hmem, hstack⟩
    obtain ⟨_, hsome, heq⟩ := Option.map_eq_some_iff.mp hstack
    obtain ⟨rfl, rfl⟩ := Prod.mk.inj heq
    exact ⟨t, (Registry.mem_entries_iff h.upright.orderly.threads).mp hmem, hsome⟩
  · rintro ⟨t, ht, hstack⟩
    exact ⟨(id, t), Registry.mem_entries_of_get? ht, by rw [hstack]; rfl⟩

theorem nodup_stacked (h : k.Sound W) : k.stacked.Nodup := by
  refine List.Pairwise.filterMap _ ?_ h.upright.orderly.threads.ascending
  rintro entry other hlt _ hentry _ hother rfl
  obtain ⟨stack, -, rfl⟩ := Option.map_eq_some_iff.mp hentry
  obtain ⟨_, -, heq⟩ := Option.map_eq_some_iff.mp hother
  exact absurd ((Prod.mk.inj heq).1 ▸ hlt) (Nat.lt_irrefl _)

/-- If nobody's stack has changed, the ranges are the same. -/
theorem stackRanges_perm_of_same (h : k.Sound W) (h' : k'.Sound W)
    (hsame : ∀ id, k'.stackOf id = k.stackOf id) : k.stackRanges.Perm k'.stackRanges := by
  refine List.Perm.map _ ((List.perm_ext_iff_of_nodup (nodup_stacked h) (nodup_stacked h')).mpr ?_)
  rintro ⟨id, stack⟩
  rw [mem_stacked_iff h, mem_stacked_iff h', hsame]

/-- If one thread has come with a stack, there is one range more. -/
theorem stackRanges_perm_of_new (h : k.Sound W) (h' : k'.Sound W) {stack : Stack}
    (hnew : k'.stackOf id = some stack) (hnone : k.stackOf id = none)
    (hothers : ∀ other, other ≠ id → k'.stackOf other = k.stackOf other) :
    k'.stackRanges.Perm (stack.segment :: k.stackRanges) := by
  have hfresh : (id, stack) ∉ k.stacked := by
    rw [mem_stacked_iff h, hnone]
    exact nofun
  have hperm : k'.stacked.Perm ((id, stack) :: k.stacked) := by
    refine (List.perm_ext_iff_of_nodup (nodup_stacked h') (.cons hfresh (nodup_stacked h))).mpr ?_
    rintro ⟨other, found⟩
    rw [mem_stacked_iff h', List.mem_cons, mem_stacked_iff h]
    by_cases hother : other = id
    · subst hother
      simp [hnew, hnone, eq_comm]
    · simp [hothers other hother, hother]
  exact hperm.map _

/-! ## What is shared out among requests -/

/-- What is allocated in the system pool was granted to some requests, each at its base. -/
structure SharedAmong (k : Kernel ε) (requests : List Segment) : Prop where
  lent : ∀ address, k.pools.lent k.systemPool address = true ↔
    ∃ request ∈ requests, request.base = address
  leases : ∀ request ∈ requests, k.pools.Leases k.systemPool request.base request.size
  nodup : (requests.map (·.base)).Nodup

section

variable {requests others : List Segment} {segment : Segment}

theorem SharedAmong.perm (h : k.SharedAmong requests) (hperm : requests.Perm others) :
    k.SharedAmong others where
  lent := fun address => by
    rw [h.lent]
    exact exists_congr fun request => and_congr_left fun _ => hperm.mem_iff
  leases := fun request hmem => h.leases request (hperm.mem_iff.mpr hmem)
  nodup := (hperm.map _).nodup_iff.mp h.nodup

/-- Dealings elsewhere make no difference. -/
theorem SharedAmong.same (h : k.SharedAmong requests) (hsystem : k'.systemPool = k.systemPool)
    (hlent : k'.pools.lent k.systemPool = k.pools.lent k.systemPool)
    (hleases : ∀ {address size}, k.pools.Leases k.systemPool address size →
      k'.pools.Leases k.systemPool address size) : k'.SharedAmong requests where
  lent := fun address => by rw [hsystem, hlent, h.lent]
  leases := fun request hmem => hsystem ▸ hleases (h.leases request hmem)
  nodup := h.nodup

/-- A request is met where nothing was allocated. -/
theorem SharedAmong.add (h : k.SharedAmong requests) (segment : Segment)
    (hsystem : k'.systemPool = k.systemPool)
    (hfresh : k.pools.lent k.systemPool segment.base = false)
    (hlent : ∀ address, k'.pools.lent k.systemPool address =
      if address = segment.base then true else k.pools.lent k.systemPool address)
    (hleases : ∀ {address size}, k.pools.Leases k.systemPool address size →
      k'.pools.Leases k.systemPool address size)
    (hnew : k'.pools.Leases k.systemPool segment.base segment.size) :
    k'.SharedAmong (segment :: requests) where
  lent := fun address => by
    rw [hsystem, hlent]
    simp only [List.mem_cons, or_and_right, exists_or, exists_eq_left]
    split
    · next heq => simp [heq]
    · next hne => simp [h.lent, Ne.symm hne]
  leases := fun request hmem => by
    rw [hsystem]
    rcases List.mem_cons.mp hmem with rfl | hold
    · exact hnew
    · exact hleases (h.leases request hold)
  nodup := by
    refine List.nodup_cons.mpr ⟨fun hmem => ?_, h.nodup⟩
    obtain ⟨request, hrequest, hbase⟩ := List.mem_map.mp hmem
    rw [(h.lent _).mpr ⟨request, hrequest, hbase⟩] at hfresh
    cases hfresh

/-- A request is done with, and the others are not touched. -/
theorem SharedAmong.remove (h : k.SharedAmong (segment :: requests))
    (hsystem : k'.systemPool = k.systemPool)
    (hlent : ∀ address, k'.pools.lent k.systemPool address =
      if address = segment.base then false else k.pools.lent k.systemPool address)
    (hleases : ∀ {address size}, address ≠ segment.base →
      k.pools.Leases k.systemPool address size → k'.pools.Leases k.systemPool address size) :
    k'.SharedAmong requests := by
  obtain ⟨hnot, hnodup⟩ := List.nodup_cons.mp h.nodup
  have hapart : ∀ request ∈ requests, request.base ≠ segment.base := fun request hmem heq =>
    hnot (List.mem_map.mpr ⟨request, hmem, heq⟩)
  refine ⟨fun address => ?_, fun request hmem => ?_, hnodup⟩
  · rw [hsystem, hlent]
    split
    · next heq =>
      refine iff_of_false Bool.false_ne_true ?_
      rintro ⟨request, hmem, hbase⟩
      exact hapart request hmem (hbase.trans heq)
    · next hne =>
      rw [h.lent]
      simp [Ne.symm hne]
  · rw [hsystem]
    exact hleases (hapart request hmem) (h.leases request (List.mem_cons_of_mem _ hmem))

/-- What is held at an address is held there once. -/
theorem perm_cons_filter (hnodup : (requests.map (·.base)).Nodup) (hmem : segment ∈ requests) :
    requests.Perm (segment :: requests.filter (·.base != segment.base)) := by
  induction requests with
  | nil => cases hmem
  | cons first rest ih =>
    obtain ⟨hnot, hrest⟩ := List.nodup_cons.mp hnodup
    rcases List.mem_cons.mp hmem with rfl | hlater
    · have hall : rest.filter (·.base != segment.base) = rest := by
        refine List.filter_eq_self.mpr fun other hother => ?_
        rw [bne_iff_ne]
        exact fun heq => hnot (List.mem_map.mpr ⟨other, hother, heq⟩)
      rw [List.filter_cons_of_neg (by simp), hall]
    · have hne : first.base ≠ segment.base := fun heq =>
        hnot (List.mem_map.mpr ⟨segment, hlater, heq.symm⟩)
      rw [List.filter_cons_of_pos (by simpa using hne)]
      exact ((ih hrest hlater).cons first).trans (.swap segment first _)

end

end Kernel

end CoopKernel
