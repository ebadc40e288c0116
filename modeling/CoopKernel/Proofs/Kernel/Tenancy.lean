import CoopKernel.Proofs.Kernel.Recorded
import CoopKernel.Proofs.Kernel.Sharing

/-!
# Who has what of the system pool

The stacks of threads and the memory that programs allocate come from one pool, and nothing in the
pool says whose a range is. A `Tenancy` is a kernel together with a record of what its programs have
of the system pool. As long as programs release only what is recorded there, the pool is shared out
among the stacks of the threads and the programs (`Tenancy.Settled`), and nothing of it is lost or
given away twice; in particular the stack of every thread is there when the thread is removed.

The record is not part of the kernel. A program that releases somebody else's range breaks all this,
and nothing keeps it from doing so.
-/

namespace CoopKernel

open Memory (Segment Pool)

variable {ε : Type}

namespace Kernel

open Trace (Event)

variable {W : PoolId → Prop} {k k' : Kernel ε} {id : ThreadId} {move : Move ε} {pool : PoolId}
  {address size : Nat} {pools' : Memory.Pools}

/-- The memory that a program asks for in a move, for the first time or once more. -/
def seeks (k : Kernel ε) : Move ε → Option (PoolId × Nat)
  | .call (.allocate pool size) => some (pool, size)
  | .call (.allocateBlocking pool size) => some (pool, size)
  | .call .bufferAcquire => some (k.sharedPool, k.config.bufferSize)
  | .advance =>
    match k.activity with
    | .resuming (.allocate pool size .address) => some (pool, size)
    | _ => none
  | _ => none

/-- The address that a program releases in a move, with its pool. -/
def quits (k : Kernel ε) : Move ε → Option (PoolId × Nat)
  | .call (.free pool address) => some (pool, address)
  | .call (.bufferRelease address) => some (k.sharedPool, address)
  | _ => none

/-- What a program gets of the system pool in a move. -/
def rents (k : Kernel ε) (move : Move ε) : List Segment :=
  match k.seeks move with
  | none => []
  | some (pool, size) =>
    if pool = k.systemPool then
      match k.pools.allocate pool size with
      | .error _ => []
      | .ok (address, _) => [⟨address, size⟩]
    else []

end Kernel

/-- A kernel, and what its programs have of the system pool. Once the kernel is shut down, nothing
more is recorded. -/
structure Tenancy (ε : Type) where
  kernel : Kernel ε
  held : List Segment := []

namespace Tenancy

open Kernel

/-- Whether a move can be made by programs that release only what they have of the system pool. -/
def permits (y : Tenancy ε) (move : Move ε) : Bool :=
  y.kernel.allows move && (y.kernel.quits move).all fun (pool, address) =>
    pool != y.kernel.systemPool || y.held.any (·.base == address)

/-- The record after a move that made the kernel what it is now. -/
def after (y : Tenancy ε) (move : Move ε) (k' : Kernel ε) : Tenancy ε :=
  if y.kernel.stopped then { y with kernel := k' }
  else {
    kernel := k'
    held := y.kernel.rents move ++ y.held.filter fun segment =>
      y.kernel.quits move != some (y.kernel.systemPool, segment.base) }

/-- Makes a move. The result is nothing if it cannot be made. -/
def perform (y : Tenancy ε) (move : Move ε) : Option (Tenancy ε) :=
  if y.permits move then (y.kernel.perform move).toOption.map (y.after move) else none

/-- Makes a list of moves. -/
def play (y : Tenancy ε) : List (Move ε) → Option (Tenancy ε)
  | [] => some y
  | move :: rest => (y.perform move).bind fun y' => y'.play rest

/-- The system pool is shared out among the stacks of the threads and the programs. -/
structure Settled (y : Tenancy ε) : Prop where
  /-- Every thread but the main thread has a stack. -/
  stack : ∀ {id t}, y.kernel.sched.threads.get? id = some t → id ≠ y.kernel.main →
    ∃ stack, t.stack = some stack ∧ stack.segment ∈ y.kernel.stackRanges
  /-- The ranges of the stacks and of the programs are live, large enough and disjoint, and nothing
  else is used. -/
  shared : ∃ books, y.kernel.pools.registry.get? y.kernel.systemPool = some books ∧
    books.SharedOut (y.kernel.stackRanges ++ y.held)

end Tenancy

namespace Kernel

open Trace (Event)

variable {W : PoolId → Prop} {k k' : Kernel ε} {id : ThreadId} {move : Move ε} {pool : PoolId}
  {address size : Nat} {pools' : Memory.Pools}

/-! ## What is dealt with programs -/

theorem deals_of_seeks (hgoing : k.stopped = false) (h : k.seeks move = some (pool, size)) :
    k.deals move = k.grants pool size .address := by
  cases move with
  | call request =>
    cases request with
    | allocate _ _ | allocateBlocking _ _ | bufferAcquire =>
      obtain ⟨rfl, rfl⟩ := Prod.mk.inj (Option.some.inj h)
      simp [deals, hgoing, Call.senseless, serves]
    | _ => cases h
  | advance =>
    rw [seeks] at h
    split at h
    · next hactivity =>
      obtain ⟨rfl, rfl⟩ := Prod.mk.inj (Option.some.inj h)
      simp only [deals, hactivity]
    · cases h
  | _ => cases h

theorem deals_of_quits (hgoing : k.stopped = false) (h : k.quits move = some (pool, address)) :
    k.deals move = k.gives pool address ∧ k.seeks move = none := by
  cases move with
  | call request =>
    cases request with
    | free _ _ | bufferRelease _ =>
      obtain ⟨rfl, rfl⟩ := Prod.mk.inj (Option.some.inj h)
      simp [deals, hgoing, Call.senseless, serves, seeks]
    | _ => cases h
  | _ => cases h

/-- What is dealt otherwise is for threads. -/
theorem deals_of_neither (hgoing : k.stopped = false) (hseeks : k.seeks move = none)
    (hquits : k.quits move = none) : k.deals move = [] ∨
      (∃ pool size entry priority, k.deals move = k.grants pool size (.stack entry priority)) ∨
      ∃ id, move = .call (.threadDelete id) ∧ k.deals move = k.removes id := by
  cases move with
  | call request =>
    cases hsense : request.senseless with
    | true => exact .inl (by simp [deals, hsense])
    | false =>
      have hserves : k.deals (.call request) = k.serves request := by
        simp [deals, hgoing, hsense]
      rw [hserves]
      cases request with
      | threadCreate entry stackSize priority => exact .inr (.inl ⟨_, _, entry, priority, rfl⟩)
      | threadDelete id => exact .inr (.inr ⟨id, rfl, rfl⟩)
      | allocate _ _ | allocateBlocking _ _ | bufferAcquire => cases hseeks
      | free _ _ | bufferRelease _ => cases hquits
      | _ => exact .inl rfl
  | advance =>
    rw [seeks] at hseeks
    cases hactivity : k.activity with
    | resuming pending =>
      cases pending with
      | allocate pool size purpose =>
        cases purpose with
        | address => simp [hactivity] at hseeks
        | stack entry priority =>
          exact .inr (.inl ⟨pool, size, entry, priority, by simp only [deals, hactivity]⟩)
      | _ => exact .inl (by simp only [deals, hactivity])
    | _ => exact .inl (by simp only [deals, hactivity])
  | _ => exact .inl rfl

/-- A request for the memory itself that can be met is met on the spot. -/
theorem pools_of_allocateBlocking (hok : k.pools.allocate pool size = .ok (address, pools'))
    (hrun : k.allocateBlocking pool size .address = .ok k') : k'.pools = pools' := by
  rw [allocateBlocking] at hrun
  split at hrun
  · next hzero =>
    rw [Memory.Pools.allocate_zero hzero] at hok
    cases hok
  · rw [hok] at hrun
    obtain rfl := Except.ok.inj hrun
    rfl

theorem pools_of_allocate (hok : k.pools.allocate pool size = .ok (address, pools'))
    (hrun : k.allocate pool size = .ok k') : k'.pools = pools' := by
  rw [Kernel.allocate, hok] at hrun
  obtain rfl := Except.ok.inj hrun
  rfl

/-- A program that asks for memory that there is has it afterwards. -/
theorem Sound.leases_of_seeks (h : k.Sound W) (hallowed : k.allows move = true)
    (hrun : k.perform move = .ok k') (hgoing : k.stopped = false)
    (hseeks : k.seeks move = some (pool, size))
    (hok : k.pools.allocate pool size = .ok (address, pools')) :
    k'.pools.Leases pool address size := by
  have hpools : k'.pools = pools' := by
    cases move with
    | call request =>
      obtain ⟨me, t, hcalling⟩ := (h.calling (inProgram_iff.mp hallowed)).resolve_left
        fun hhalted => by simp [hhalted.stopped] at hgoing
      let entered : Kernel ε := { k with gate := { inside := true } }
      have hbody : ∀ body : Kernel ε → Except Invariant (Kernel ε), k.inSection body = .ok k' →
          body entered = .ok k' := fun body hrun => (hcalling.inSection_eq body).symm.trans hrun
      cases request with
      | allocate _ _ =>
        obtain ⟨rfl, rfl⟩ := Prod.mk.inj (Option.some.inj hseeks)
        exact pools_of_allocate (k := entered) hok (hbody _ hrun)
      | allocateBlocking _ _ | bufferAcquire =>
        obtain ⟨rfl, rfl⟩ := Prod.mk.inj (Option.some.inj hseeks)
        exact pools_of_allocateBlocking (k := entered) hok (hbody _ hrun)
      | _ => cases hseeks
    | advance =>
      rw [seeks] at hseeks
      split at hseeks
      · next hactivity =>
        obtain ⟨rfl, rfl⟩ := Prod.mk.inj (Option.some.inj hseeks)
        change k.advance = _ at hrun
        rw [Kernel.advance, hactivity] at hrun
        exact pools_of_allocateBlocking hok hrun
      · cases hseeks
    | _ => cases hseeks
  rw [hpools]
  exact Memory.Pools.leases_of_allocate hok

/-- Dealings in other pools leave the system pool as it is. -/
theorem Sound.lent_elsewhere (h : k.Sound W) (hallowed : k.allows move = true)
    (hrun : k.perform move = .ok k')
    (halloc : ∀ {address size}, .alloc pool address size ∉ k.deals move)
    (hfree : ∀ {address}, .free pool address ∉ k.deals move) :
    k'.pools.lent pool = k.pools.lent pool := by
  funext address
  rw [Bool.eq_iff_iff, h.lent hallowed hrun, Trace.Ledger.lent_replay_iff]
  constructor
  · rintro (⟨_, _, _, hdeals, -⟩ | ⟨hlent, -⟩)
    · exact absurd (hdeals ▸ List.mem_append_right _ List.mem_cons_self) halloc
    · exact hlent
  · exact fun hlent => .inr ⟨hlent, hfree⟩

end Kernel

namespace Tenancy

open Kernel
open Trace (Event)

variable {y y' : Tenancy ε} {k' first : Kernel ε} {move : Move ε} {moves : List (Move ε)}
  {id : ThreadId} {pool : PoolId} {address size : Nat}

/-- What is known of a tenancy. -/
structure Orderly (y : Tenancy ε) : Prop where
  reachable : y.kernel.Reachable
  shared : y.kernel.SharedAmong (y.kernel.stackRanges ++ y.held)
  idle : (y.kernel.stackOf y.kernel.idle).isSome = true

/-- What a thread has for its stack is one of the ranges. -/
theorem Orderly.mem_stackRanges (h : y.Orderly) {stack : Stack}
    (hstack : y.kernel.stackOf id = some stack) : stack.segment ∈ y.kernel.stackRanges :=
  List.mem_map.mpr ⟨(id, stack), (mem_stacked_iff h.reachable.sound).mpr hstack, rfl⟩

theorem Orderly.hasStack (h : y.Orderly) {stack : Stack}
    (hstack : y.kernel.stackOf id = some stack) :
    y.kernel.pools.Leases y.kernel.systemPool stack.address stack.size :=
  h.shared.leases _ (List.mem_append_left _ (h.mem_stackRanges hstack))

/-- What is allocated in the system pool can be released. -/
theorem Orderly.gives_eq (h : y.Orderly)
    (hleases : y.kernel.pools.Leases y.kernel.systemPool address size) :
    y.kernel.gives y.kernel.systemPool address = [.free y.kernel.systemPool address] := by
  obtain ⟨_, _, hok, -⟩ := hleases.released h.reachable.sound.wellKept.books
  rw [gives, hok]

/-! ## One move -/

section

variable (h : y.Orderly) (hallowed : y.kernel.allows move = true)
  (hrun : y.kernel.perform move = .ok k')

include h hallowed hrun

theorem Orderly.sound_next : k'.Sound fun _ => False :=
  h.reachable.sound.performed hallowed hrun

theorem Orderly.systemPool_next : k'.systemPool = y.kernel.systemPool :=
  systemPool_of_fixed (h.reachable.sound.moved hallowed hrun).fixed

/-- The programs and the threads keep what they have if nothing is dealt in the system pool. -/
theorem Orderly.elsewhere (hdeals : ∀ event ∈ y.kernel.deals move, ∃ pool,
      pool ≠ y.kernel.systemPool ∧ ((∃ address size, event = .alloc pool address size) ∨
        ∃ address, event = .free pool address)) :
    k'.SharedAmong (k'.stackRanges ++ y.held) ∧ (k'.stackOf y.kernel.idle).isSome = true := by
  have hsound := h.reachable.sound
  have hcreate : ∀ {id p}, .threadCreate id p ∉ y.kernel.deals move := fun hmem => by
    simpa using hdeals _ hmem
  have hdelete : ∀ {id}, .threadDelete id ∉ y.kernel.deals move := fun hmem => by
    simpa using hdeals _ hmem
  have hfree : ∀ {address}, .free y.kernel.systemPool address ∉ y.kernel.deals move :=
    fun hmem => by simpa using hdeals _ hmem
  have halloc : ∀ {address size}, .alloc y.kernel.systemPool address size ∉ y.kernel.deals move :=
    fun hmem => by simpa using hdeals _ hmem
  have hsame : ∀ id, k'.stackOf id = y.kernel.stackOf id := fun id =>
    hsound.stackOf_same hallowed hrun (fun _ => hcreate) hdelete
  have hperm := stackRanges_perm_of_same hsound (h.sound_next hallowed hrun) hsame
  refine ⟨?_, by rw [hsame]; exact h.idle⟩
  exact (h.shared.perm (hperm.append_right _)).same (h.systemPool_next hallowed hrun)
    (hsound.lent_elsewhere hallowed hrun halloc hfree)
    fun hleases => (hsound.leases hallowed hrun hleases).resolve_right hfree

/-- A program gets the memory it asks for. -/
theorem Orderly.rented {pools' : Memory.Pools} (hgoing : y.kernel.stopped = false)
    (hseeks : y.kernel.seeks move = some (y.kernel.systemPool, size))
    (hok : y.kernel.pools.allocate y.kernel.systemPool size = .ok (address, pools')) :
    k'.SharedAmong (k'.stackRanges ++ (⟨address, size⟩ :: y.held)) ∧
      (k'.stackOf y.kernel.idle).isSome = true := by
  have hsound := h.reachable.sound
  have hdeals : y.kernel.deals move = [.alloc y.kernel.systemPool address size] := by
    rw [deals_of_seeks hgoing hseeks, grants, hok]
    rfl
  have hsame : ∀ id, k'.stackOf id = y.kernel.stackOf id := fun id =>
    hsound.stackOf_same hallowed hrun (by simp [hdeals]) (by simp [hdeals])
  have hperm := stackRanges_perm_of_same hsound (h.sound_next hallowed hrun) hsame
  refine ⟨?_, by rw [hsame]; exact h.idle⟩
  have hshared := h.shared.perm (hperm.append_right _)
  refine (hshared.add ⟨address, size⟩ (h.systemPool_next hallowed hrun)
    (Memory.Pools.lent_eq_false_of_allocate hsound.wellKept.books hok) (fun found => ?_)
    (fun hleases => ?_)
    (hsound.leases_of_seeks hallowed hrun hgoing hseeks hok)).perm List.perm_middle.symm
  · rw [hsound.lent hallowed hrun, hdeals]
    exact Trace.Ledger.setLent_lent_same y.kernel.ledger ..
  · exact (hsound.leases hallowed hrun hleases).resolve_right (by simp [hdeals])

/-- A program gives back what it has. -/
theorem Orderly.quitted (hgoing : y.kernel.stopped = false) {segment : Segment}
    (hquits : y.kernel.quits move = some (y.kernel.systemPool, segment.base))
    (hheld : segment ∈ y.held) :
    k'.SharedAmong (k'.stackRanges ++ y.held.filter (·.base != segment.base)) ∧
      (k'.stackOf y.kernel.idle).isSome = true := by
  have hsound := h.reachable.sound
  have hdeals : y.kernel.deals move = [.free y.kernel.systemPool segment.base] :=
    (deals_of_quits hgoing hquits).1.trans
      (h.gives_eq (h.shared.leases _ (List.mem_append_right _ hheld)))
  have hsame : ∀ id, k'.stackOf id = y.kernel.stackOf id := fun id =>
    hsound.stackOf_same hallowed hrun (by simp [hdeals]) (by simp [hdeals])
  have hperm := stackRanges_perm_of_same hsound (h.sound_next hallowed hrun) hsame
  have hnodup : (y.held.map (·.base)).Nodup := by
    have hall := h.shared.nodup
    rw [List.map_append] at hall
    exact hall.of_append_right
  refine ⟨?_, by rw [hsame]; exact h.idle⟩
  have hshared := h.shared.perm
    ((hperm.append (perm_cons_filter hnodup hheld)).trans List.perm_middle)
  refine hshared.remove (h.systemPool_next hallowed hrun) (fun found => ?_)
    fun hne hleases => (hsound.leases hallowed hrun hleases).resolve_right (by simp [hdeals, hne])
  rw [hsound.lent hallowed hrun, hdeals]
  exact Trace.Ledger.setLent_lent_same y.kernel.ledger ..

/-- A thread is created with the stack that was allocated for it. -/
theorem Orderly.founded {pools' : Memory.Pools} {id : ThreadId} {p : Priority}
    (hok : y.kernel.pools.allocate pool size = .ok (address, pools'))
    (hid : id = y.kernel.sched.threads.nextHandle)
    (hdeals : y.kernel.deals move = [.alloc pool address size, .threadCreate id p]) :
    k'.SharedAmong (k'.stackRanges ++ y.held) ∧ (k'.stackOf y.kernel.idle).isSome = true := by
  have hsound := h.reachable.sound
  have hcreates : .threadCreate id p ∈ y.kernel.deals move := by simp [hdeals]
  obtain ⟨stack, found, hstack, hmem, hleases, hgoing, hfrom⟩ :=
    hsound.stackOf_created hallowed hrun hcreates
  obtain ⟨rfl, rfl, rfl⟩ : found = pool ∧ stack.address = address ∧ stack.size = size := by
    simpa [hdeals] using hmem
  obtain rfl := h.reachable.custody.eq_of_mayStackFrom hsound hgoing hfrom
  have hnone : y.kernel.stackOf id = none := by
    rw [stackOf, hid, Registry.get?_nextHandle hsound.upright.orderly.threads]
    rfl
  have hothers : ∀ other, other ≠ id → k'.stackOf other = y.kernel.stackOf other :=
    fun other hother =>
      hsound.stackOf_same hallowed hrun (by simp [hdeals, hother]) (by simp [hdeals])
  have hperm := stackRanges_perm_of_new hsound (h.sound_next hallowed hrun) hstack hnone hothers
  have hne : y.kernel.idle ≠ id := by
    rintro rfl
    simpa [hnone] using h.idle
  refine ⟨?_, by rw [hothers _ hne]; exact h.idle⟩
  refine (h.shared.add stack.segment (h.systemPool_next hallowed hrun)
    (Memory.Pools.lent_eq_false_of_allocate hsound.wellKept.books hok) (fun found => ?_)
    (fun hleases => ?_) hleases).perm (hperm.append_right y.held).symm
  · rw [hsound.lent hallowed hrun, hdeals]
    exact Trace.Ledger.setLent_lent_same y.kernel.ledger ..
  · exact (hsound.leases hallowed hrun hleases).resolve_right (by simp [hdeals])

/-- A thread is removed with its stack. -/
theorem Orderly.removed {id : ThreadId} (hmove : move = .call (.threadDelete id))
    (hremovable : y.kernel.removable id = true)
    (hdeals : y.kernel.deals move = y.kernel.removes id) :
    k'.SharedAmong (k'.stackRanges ++ y.held) ∧ (k'.stackOf y.kernel.idle).isSome = true := by
  have hsound := h.reachable.sound
  obtain ⟨-, hsystem, t, ht, -⟩ := removable_iff.mp hremovable
  obtain ⟨-, stack, hstack, -⟩ := h.reachable.custody.kept ht hsystem
  have hstackOf : y.kernel.stackOf id = some stack := stackOf_eq_some.mpr ⟨t, ht, hstack⟩
  rw [removes, if_pos hremovable, hstackOf, Option.elim_some, h.gives_eq (h.hasStack hstackOf)]
    at hdeals
  subst hmove
  obtain ⟨me, -, hcurrent, -⟩ := hsound.upright.busy
  have hcalls : y.kernel.Calls k' me (.threadDelete id) := ⟨h.reachable, hallowed, hcurrent, hrun⟩
  have hgone : k'.stackOf id = none := by rw [stackOf, (hcalls.gone hremovable).1.thread]; rfl
  have hothers : ∀ other, other ≠ id → k'.stackOf other = y.kernel.stackOf other :=
    fun other hother =>
      hsound.stackOf_same hallowed hrun (by simp [hdeals]) (by simp [hdeals, hother])
  have hperm := stackRanges_perm_of_new (h.sound_next hallowed hrun) hsound hstackOf hgone
    fun other hother => (hothers other hother).symm
  refine ⟨?_, by rw [hothers _ (ne_of_not_isSystemThread (by simp [hsystem])).2.symm]; exact h.idle⟩
  have hshared := h.shared.perm (hperm.append_right y.held)
  refine hshared.remove (h.systemPool_next hallowed hrun) (fun found => ?_)
    fun hne hleases => (hsound.leases hallowed hrun hleases).resolve_right fun hmem => hne ?_
  · rw [hsound.lent hallowed hrun, hdeals]
    exact Trace.Ledger.setLent_lent_same y.kernel.ledger ..
  · simpa [hdeals, Stack.segment] using hmem

end

/-! ## Any move -/

/-- Nothing is dealt once the kernel is shut down. -/
theorem deals_of_stopped {W : PoolId → Prop} {k : Kernel ε} (h : k.Sound W)
    (hstopped : k.stopped = true) (move : Move ε) : k.deals move = [] := by
  cases move with
  | call request => simp [deals, hstopped]
  | advance =>
    have hhalted := h.halted hstopped
    rw [deals]
    split
    · next hactivity => exact absurd hactivity (hhalted.activity _)
    · rfl
  | _ => rfl

section

variable (h : y.Orderly) (hallowed : y.kernel.allows move = true)
  (hrun : y.kernel.perform move = .ok k')

include h hallowed hrun

theorem Orderly.undealt (hdeals : y.kernel.deals move = []) :
    k'.SharedAmong (k'.stackRanges ++ y.held) ∧ (k'.stackOf y.kernel.idle).isSome = true :=
  h.elsewhere hallowed hrun (by simp [hdeals])

/-- A program asks for memory. -/
theorem Orderly.sought (hgoing : y.kernel.stopped = false)
    (hseeks : y.kernel.seeks move = some (pool, size)) :
    k'.SharedAmong (k'.stackRanges ++ (y.kernel.rents move ++ y.held)) ∧
      (k'.stackOf y.kernel.idle).isSome = true := by
  have hdeals := deals_of_seeks hgoing hseeks
  rw [grants] at hdeals
  cases hallocate : y.kernel.pools.allocate pool size with
  | error _ =>
    rw [hallocate] at hdeals
    have hrents : y.kernel.rents move = [] := by
      rw [rents, hseeks]
      simp only [hallocate, ite_self]
    rw [hrents]
    exact h.undealt hallowed hrun hdeals
  | ok result =>
    obtain ⟨address, pools⟩ := result
    rw [hallocate] at hdeals
    by_cases hpool : pool = y.kernel.systemPool
    · subst hpool
      have hrents : y.kernel.rents move = [⟨address, size⟩] := by
        rw [rents, hseeks]
        simp only [hallocate, if_pos]
      rw [hrents]
      exact h.rented hallowed hrun hgoing hseeks hallocate
    · have hrents : y.kernel.rents move = [] := by
        rw [rents, hseeks]
        exact if_neg hpool
      rw [hrents]
      exact h.elsewhere hallowed hrun (by simp [hdeals, founds, hpool])

/-- A program releases memory. -/
theorem Orderly.released (hgoing : y.kernel.stopped = false)
    (hquits : y.kernel.quits move = some (pool, address))
    (hheld : pool = y.kernel.systemPool → ∃ segment ∈ y.held, segment.base = address) :
    k'.SharedAmong (k'.stackRanges ++ (y.held.filter fun segment =>
        some (pool, address) != some (y.kernel.systemPool, segment.base))) ∧
      (k'.stackOf y.kernel.idle).isSome = true := by
  by_cases hpool : pool = y.kernel.systemPool
  · subst hpool
    obtain ⟨segment, hmem, rfl⟩ := hheld rfl
    have hfilter : (y.held.filter fun other =>
        some (y.kernel.systemPool, segment.base) != some (y.kernel.systemPool, other.base)) =
          y.held.filter (·.base != segment.base) := by
      refine List.filter_congr fun other _ => ?_
      simp [bne, Bool.beq_eq_decide_eq, eq_comm]
    rw [hfilter]
    exact h.quitted hallowed hrun hgoing hquits hmem
  · have hall : (y.held.filter fun segment =>
        some (pool, address) != some (y.kernel.systemPool, segment.base)) = y.held := by
      refine List.filter_eq_self.mpr fun segment _ => ?_
      simp [hpool]
    rw [hall]
    have hdeals := (deals_of_quits hgoing hquits).1
    rw [gives] at hdeals
    split at hdeals
    · exact h.undealt hallowed hrun hdeals
    · exact h.elsewhere hallowed hrun (by simp [hdeals, hpool])

/-- No program asks for memory or releases any. -/
theorem Orderly.unsought (hgoing : y.kernel.stopped = false) (hseeks : y.kernel.seeks move = none)
    (hquits : y.kernel.quits move = none) :
    k'.SharedAmong (k'.stackRanges ++ y.held) ∧ (k'.stackOf y.kernel.idle).isSome = true := by
  obtain hdeals | ⟨pool, size, entry, priority, hdeals⟩ | ⟨id, hmove, hdeals⟩ :=
    deals_of_neither hgoing hseeks hquits
  · exact h.undealt hallowed hrun hdeals
  · rw [grants] at hdeals
    split at hdeals
    · exact h.undealt hallowed hrun hdeals
    · next address pools hok => exact h.founded hallowed hrun hok rfl hdeals
  · cases hremovable : y.kernel.removable id with
    | false => exact h.undealt hallowed hrun (by rw [hdeals, removes, hremovable]; rfl)
    | true => exact h.removed hallowed hrun hmove hremovable hdeals

end

/-- The record after a move is true. -/
theorem Orderly.sharedAmong_after (h : y.Orderly) (hpermits : y.permits move = true)
    (hrun : y.kernel.perform move = .ok k') :
    k'.SharedAmong (k'.stackRanges ++ (y.after move k').held) ∧
      (k'.stackOf y.kernel.idle).isSome = true := by
  obtain ⟨hallowed, hheld⟩ := Bool.and_eq_true _ _ |>.mp hpermits
  rw [Tenancy.after]
  split
  · next hstopped =>
    exact h.undealt hallowed hrun (deals_of_stopped h.reachable.sound hstopped move)
  · next hgoing =>
    rw [Bool.not_eq_true] at hgoing
    cases hseeks : y.kernel.seeks move with
    | some request =>
      have hquits : y.kernel.quits move = none := by
        rw [Option.eq_none_iff_forall_ne_some]
        rintro ⟨pool, address⟩ hquits
        rw [(deals_of_quits hgoing hquits).2] at hseeks
        cases hseeks
      have hfilter : (y.held.filter fun segment =>
          y.kernel.quits move != some (y.kernel.systemPool, segment.base)) = y.held := by
        simp [hquits]
      simp only [hfilter]
      exact h.sought hallowed hrun hgoing hseeks
    | none =>
      have hrents : y.kernel.rents move = [] := by rw [rents, hseeks]
      simp only [hrents, List.nil_append]
      cases hquits : y.kernel.quits move with
      | some release =>
        refine h.released hallowed hrun hgoing hquits fun hpool => ?_
        rw [hquits] at hheld
        simpa [hpool] using hheld
      | none =>
        have hfilter : (y.held.filter fun segment =>
            none != some (y.kernel.systemPool, segment.base)) = y.held := by simp
        rw [hfilter]
        exact h.unsought hallowed hrun hgoing hseeks hquits

theorem after_kernel (y : Tenancy ε) (move : Move ε) (k' : Kernel ε) :
    (y.after move k').kernel = k' := by
  rw [Tenancy.after]
  split <;> rfl

theorem Orderly.after (h : y.Orderly) (hpermits : y.permits move = true)
    (hrun : y.kernel.perform move = .ok k') : (y.after move k').Orderly := by
  obtain ⟨hallowed, -⟩ := Bool.and_eq_true _ _ |>.mp hpermits
  obtain ⟨hshared, hidle⟩ := h.sharedAmong_after hpermits hrun
  have hkernel := after_kernel y move k'
  have hfixed := (h.reachable.sound.moved hallowed hrun).fixed
  obtain ⟨config, arena, first, moves, hstart, hplay⟩ := h.reachable
  refine ⟨?_, ?_, ?_⟩
  · rw [hkernel]
    exact ⟨config, arena, first, moves ++ [move], hstart,
      play_concat_iff.mpr ⟨y.kernel, hplay, hallowed, hrun⟩⟩
  · rw [hkernel]
    exact hshared
  · rw [hkernel, show k'.idle = y.kernel.idle from congrArg (·.2.2.1) hfixed]
    exact hidle

/-! ## From the start -/

theorem play_cons_iff : y.play (move :: moves) = some y' ↔ ∃ k', y.permits move = true ∧
    y.kernel.perform move = .ok k' ∧ (y.after move k').play moves = some y' := by
  rw [play, perform, Option.bind_eq_some_iff]
  constructor
  · rintro ⟨next, hperform, hrest⟩
    split at hperform
    · next hpermits =>
      obtain ⟨k', hrun, rfl⟩ := Option.map_eq_some_iff.mp hperform
      exact ⟨k', hpermits, eq_ok_of_toOption hrun, hrest⟩
    · cases hperform
  · rintro ⟨k', hpermits, hrun, hrest⟩
    exact ⟨_, by rw [if_pos hpermits, hrun]; rfl, hrest⟩

/-- A tenancy goes along with a run of the kernel. -/
theorem play_kernel (hplay : y.play moves = some y') : y.kernel.play moves = some y'.kernel := by
  induction moves generalizing y with
  | nil =>
    obtain rfl := Option.some.inj hplay
    rfl
  | cons move rest ih =>
    obtain ⟨k', hpermits, hrun, hrest⟩ := play_cons_iff.mp hplay
    have hallowed := (Bool.and_eq_true _ _ |>.mp hpermits).1
    exact Kernel.play_cons_iff.mpr ⟨k', hallowed, hrun, after_kernel y move k' ▸ ih hrest⟩

theorem Orderly.play (h : y.Orderly) (hplay : y.play moves = some y') : y'.Orderly := by
  induction moves generalizing y with
  | nil =>
    obtain rfl := Option.some.inj hplay
    exact h
  | cons move rest ih =>
    obtain ⟨k', hpermits, hrun, hrest⟩ := play_cons_iff.mp hplay
    exact ih (h.after hpermits hrun) hrest

/-! ## What follows -/

theorem Orderly.stack (h : y.Orderly) {t : Thread (Position ε)}
    (ht : y.kernel.sched.threads.get? id = some t) (hid : id ≠ y.kernel.main) :
    ∃ stack, t.stack = some stack ∧ stack.segment ∈ y.kernel.stackRanges := by
  suffices hsome : (y.kernel.stackOf id).isSome = true by
    obtain ⟨stack, hstack⟩ := Option.isSome_iff_exists.mp hsome
    refine ⟨stack, ?_, h.mem_stackRanges hstack⟩
    obtain ⟨u, hu, hstack⟩ := stackOf_eq_some.mp hstack
    exact Option.some.inj (ht.symm.trans hu) ▸ hstack
  by_cases hidle : id = y.kernel.idle
  · rw [hidle]
    exact h.idle
  · obtain ⟨-, stack, hstack, -⟩ :=
      h.reachable.custody.kept ht (by simp [isSystemThread, hid, hidle])
    rw [stackOf_eq_some.mpr ⟨t, ht, hstack⟩]
    rfl

theorem Orderly.sharedOut (h : y.Orderly) :
    ∃ books, y.kernel.pools.registry.get? y.kernel.systemPool = some books ∧
      books.SharedOut (y.kernel.stackRanges ++ y.held) := by
  have horderly := h.reachable.sound.wellKept.books
  obtain ⟨stack, hstack⟩ := Option.isSome_iff_exists.mp h.idle
  obtain ⟨books, _, hbooks, -, -⟩ := h.hasStack hstack
  refine ⟨books, hbooks, (horderly.tiled hbooks).sharedOut h.shared.nodup ?_ ?_⟩
  · intro request hmem
    obtain ⟨_, granted, hsame, hgranted, hlive⟩ := h.shared.leases request hmem
    obtain rfl := Option.some.inj (hbooks.symm.trans hsame)
    exact ⟨granted, hgranted, hlive⟩
  · intro segment hmem
    exact (h.shared.lent _).mp (Memory.Pools.lent_iff.mpr ⟨books, segment, hbooks, hmem, rfl⟩)

/-- A call to delete a dead thread that was created is on its way back with success, and has given
back what was granted for the thread's stack. -/
theorem Orderly.deletion (h : y.Orderly) (hprogram : y.kernel.inProgram = true)
    (hremovable : y.kernel.removable id = true) :
    ∃ k₁ me, y.kernel.Calls k₁ me (.threadDelete id) ∧ Removed y.kernel k₁ id ∧
      k₁.Returning me (.returned (.ok .done)) := by
  have hsound := h.reachable.sound
  obtain ⟨me, -, hcurrent, -⟩ := hsound.upright.busy
  obtain ⟨k₁, hrun, -⟩ := hsound.perform (allows_call (.threadDelete id) hprogram)
  have hcalls : y.kernel.Calls k₁ me (.threadDelete id) := ⟨h.reachable, hprogram, hcurrent, hrun⟩
  obtain ⟨hgone, t, stack, ht, hstack, hback⟩ := hcalls.gone hremovable
  have hhas : y.kernel.HasStack id :=
    ⟨t, stack, ht, hstack, h.hasStack (stackOf_eq_some.mpr ⟨t, ht, hstack⟩)⟩
  refine ⟨k₁, me, hcalls, hhas.takenBack hgone hsound fun hu hstack' => ?_⟩
  obtain rfl := Option.some.inj (ht.symm.trans hu)
  exact Option.some.inj (hstack.symm.trans hstack') ▸ hback

theorem Orderly.settled (h : y.Orderly) : y.Settled := ⟨h.stack, h.sharedOut⟩

end Tenancy

end CoopKernel
