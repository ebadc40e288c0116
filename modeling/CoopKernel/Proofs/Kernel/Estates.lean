import CoopKernel.Proofs.Kernel.Dealings
import CoopKernel.Proofs.Kernel.Removal

/-!
# What dealings come to

Who has which stack and what is allocated where changes by what is dealt, and by nothing else.

* What is lent after a move is what was lent before, but for what was dealt (`Sound.lent`).
* What is allocated stays so, unless its release is dealt (`Sound.leases`).
* A thread keeps its stack, unless it is created or deleted (`Sound.stackOf_same`). One that is
  created gets the stack that was allocated for it (`Sound.stackOf_created`).
-/

namespace CoopKernel

variable {ε : Type}

/-- Nobody is gone but who has been deleted. -/
theorem Fate.gone {ticking : Bool} {events : List Trace.Event} {id : ThreadId}
    {t : Thread (Position ε)} (h : Fate ticking events id (some t) none) :
    .threadDelete id ∈ events := by
  generalize hbefore : some t = before at h
  generalize hafter : none = after at h
  cases h with
  | kept _ => simp [← hafter] at hbefore
  | chimed _ => simp [← hbefore] at hafter
  | deleted _ hreported => exact hreported
  | _ => cases hafter

namespace Trace.Ledger

variable {ledger : Ledger} {event : Event} {events : List Event} {pool : PoolId} {address : Nat}

/-- What is lent is a matter of dealings. -/
theorem lent_replay_filter (ledger : Ledger) (events : List Event) :
    (ledger.replay events).lent = (ledger.replay (events.filter Event.isDealing)).lent := by
  funext pool address
  rw [Bool.eq_iff_iff]
  induction events using List.reverseRecOn with
  | nil => rfl
  | append_singleton events event ih =>
    rw [List.filter_append, replay_append, replay_append]
    show ((ledger.replay events).note event).lent pool address = true ↔ _
    cases hdealing : event.isDealing with
    | true =>
      rw [List.filter_cons_of_pos hdealing, lent_note, ih]
      exact (lent_note _ event pool address).symm
    | false =>
      rw [List.filter_cons_of_neg (by simp [hdealing]), lent_note, ih]
      refine ⟨?_, fun h => .inr ⟨h, ?_⟩⟩
      · rintro (⟨size, rfl⟩ | ⟨h, -⟩)
        · cases hdealing
        · exact h
      · rintro rfl
        cases hdealing

end Trace.Ledger

namespace Kernel

open Trace (Event)

variable {W : PoolId → Prop} {k k' : Kernel ε} {me id : ThreadId} {move : Move ε} {ticking : Bool}
  {events : List Event} {pool : PoolId} {address size : Nat} {stack : Stack}

/-- A kernel keeps its settings, its system threads and its own pools. -/
theorem Moved.fixed (h : Moved move k k') : k'.fixed = k.fixed := by
  cases h.effect with
  | still _ _ _ _ _ hfixed => exact hfixed
  | turn _ _ hturn => exact hturn.fixed
  | shutdown _ _ _ _ _ _ _ _ _ hfixed => exact hfixed

theorem stackOf_eq_some : k.stackOf id = some stack ↔
    ∃ t, k.sched.threads.get? id = some t ∧ t.stack = some stack :=
  Option.bind_eq_some_iff

/-- Where a thread stands makes no difference to its stack. -/
theorem stackOf_standing (k : Kernel ε) (id : ThreadId) :
    (k.standing id).bind (·.stack) = k.stackOf id := by
  rw [standing, stackOf, Option.bind_map]
  refine congrArg _ (funext fun t => ?_)
  simp only [Function.comp]
  split <;> rfl

/-- A turn reports what is dealt in its move. -/
theorem Turn.deals (h : Turn move ticking { k with line := k'.line } k' me events)
    (hdealt : k'.dealt = k.dealt ++ k.deals move) :
    events.filter Event.isDealing = k.deals move := by
  obtain ⟨tail, htail, hjournal⟩ := h.journal
  have hnone : tail.filter Event.isDealing = [] := by
    refine List.filter_eq_nil_iff.mpr fun event hmem hdealing => ?_
    have hdispatch := htail event hmem
    cases event <;> cases hdealing <;> cases hdispatch
  have hsame : k'.dealt = k.dealt ++ (events ++ tail).filter Event.isDealing :=
    dealt_append _ hjournal
  rw [List.filter_append, hnone, List.append_nil] at hsame
  exact List.append_cancel_left (hsame.symm.trans hdealt)

/-- Whoever is gone after a turn has been deleted in it. -/
theorem Turn.deleted_of_gone (h : Turn move ticking k k' me events) {t : Thread (Position ε)}
    (ht : k.sched.threads.get? id = some t) (hnone : k'.sched.threads.get? id = none) :
    .threadDelete id ∈ events := by
  have hgone : k'.standing id = none := by rw [standing, hnone]; rfl
  have hid : id ≠ me := by
    rintro rfl
    obtain ⟨-, _, -, hstands, -⟩ := h.own
    rw [hstands] at hgone
    cases hgone
  have hfate := h.others id hid
  rw [hgone, ht] at hfate
  exact hfate.gone

/-- A thread keeps its stack in a turn, unless it is created or deleted. -/
theorem Turn.stackOf_same (h : Turn move ticking { k with line := k'.line } k' me events)
    (hcreate : ∀ p, .threadCreate id p ∉ events) (hdelete : .threadDelete id ∉ events) :
    k'.stackOf id = k.stackOf id := by
  cases ht' : k'.sched.threads.get? id with
  | some t' =>
    obtain ⟨t, ht, hstack⟩ := (h.stack ht').resolve_right fun ⟨p, hmem⟩ => hcreate p hmem
    rw [stackOf, stackOf, ht, ht']
    exact hstack.symm
  | none =>
    cases ht : k.sched.threads.get? id with
    | none => rw [stackOf, stackOf, ht, ht']
    | some t => exact absurd (h.deleted_of_gone ht ht') hdelete

section

variable (h : k.Sound W) (hallowed : k.allows move = true) (hrun : k.perform move = .ok k')

include h hallowed hrun

/-- What is lent after a move follows from what was lent before and from what was dealt. -/
theorem Sound.lent : k'.pools.lent = (k.ledger.replay (k.deals move)).lent := by
  obtain ⟨events, haccounts⟩ := h.accounts hallowed hrun
  have hdeals : events.filter Event.isDealing = k.deals move := by
    have hdealt := h.dealt hallowed hrun
    rw [Kernel.dealt, haccounts.reported, List.filter_append] at hdealt
    exact List.append_cancel_left hdealt
  rw [← hdeals, ← Trace.Ledger.lent_replay_filter, ← haccounts.ledger]
  rfl

/-- What is allocated stays so until its release is dealt. -/
theorem Sound.leases (hleases : k.pools.Leases pool address size) :
    k'.pools.Leases pool address size ∨ .free pool address ∈ k.deals move := by
  cases (h.moved hallowed hrun).effect with
  | still _ hpools _ _ _ => exact .inl (hpools ▸ hleases)
  | shutdown _ _ _ hpools _ _ _ _ _ => exact .inl (hpools ▸ hleases)
  | turn _ _ hturn =>
    refine (hturn.keeps.leases hleases).imp_right fun hmem => ?_
    rw [← hturn.deals (h.dealt hallowed hrun)]
    exact List.mem_filter.mpr ⟨hmem, rfl⟩

theorem Sound.stackOf_same (hcreate : ∀ p, .threadCreate id p ∉ k.deals move)
    (hdelete : .threadDelete id ∉ k.deals move) : k'.stackOf id = k.stackOf id := by
  cases (h.moved hallowed hrun).effect with
  | still hsched _ _ _ _ => rw [stackOf, hsched, stackOf]
  | shutdown _ _ _ _ _ hsched _ _ _ =>
    have hunplaced := congrArg (Option.bind · (·.stack))
      (unplaced_foldl_forgetPosition k.sched (k.sched.threads.handles.filter (· != k.main)) id)
    rw [← hsched] at hunplaced
    simp only [Option.bind_map] at hunplaced
    exact hunplaced
  | turn _ _ hturn =>
    have hdeals := hturn.deals (h.dealt hallowed hrun)
    rw [← hdeals] at hcreate hdelete
    exact hturn.stackOf_same (fun p hmem => hcreate p (List.mem_filter.mpr ⟨hmem, rfl⟩))
      fun hmem => hdelete (List.mem_filter.mpr ⟨hmem, rfl⟩)

/-- A thread that is created has the stack that was allocated for it. -/
theorem Sound.stackOf_created {p : Priority} (hcreate : .threadCreate id p ∈ k.deals move) :
    ∃ stack pool, k'.stackOf id = some stack ∧
      .alloc pool stack.address stack.size ∈ k.deals move ∧
      k'.pools.Leases pool stack.address stack.size ∧ k.stopped = false ∧ k.MayStackFrom pool := by
  have hdealt := h.dealt hallowed hrun
  have hnothing : k'.journal = k.journal → k.deals move = [] := fun hjournal => by
    rw [dealt_of_journal hjournal] at hdealt
    exact List.append_right_eq_self.mp hdealt.symm
  cases (h.moved hallowed hrun).effect with
  | still _ _ _ hjournal _ => simp [hnothing hjournal] at hcreate
  | shutdown _ _ _ _ hjournal _ _ _ _ => simp [hnothing hjournal] at hcreate
  | turn hgoing _ hturn =>
    rw [← hturn.deals hdealt] at hcreate ⊢
    obtain ⟨t, stack, pool, ht, hstack, hleases, hfrom, halloc⟩ :=
      hturn.creations (List.mem_filter.mp hcreate).1
    refine ⟨stack, pool, ?_, List.mem_filter.mpr ⟨halloc, rfl⟩, hleases, hgoing, hfrom⟩
    rw [← stackOf_standing, ht, Option.bind_some, hstack]

end

end Kernel

end CoopKernel
