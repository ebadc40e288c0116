import Mathlib.Data.List.Chain
import Mathlib.Data.List.Induction
import Mathlib.Logic.Function.Basic
import CoopKernel.Trace.Event

/-!
# What events add up to

Whoever reads a kernel's events, and nothing else, can keep an account of the system: who owns which
mutex and what is allocated where (`Ledger`), and which thread has the processor. The account of
mutexes and memory is a fold over the events (`Ledger.replay`). The processor is followed through
the events that report a switch, each of which has to begin where the one before ended (`Leads`).

* `Ledger.lent_replay_iff` — what is allocated after some events, in terms of the events alone;
* `Ledger.givesUp_terminate`, `Ledger.givesUp_exit` — the events of a termination come to the same
  in either order;
* `leads_append_iff`, `leads_iff` — a chain of switches can be cut anywhere, and leads to the target
  of its last one.
-/

namespace CoopKernel.Trace

/-! ## Mutexes and memory -/

/-- The account of somebody who reads events. -/
structure Ledger where
  /-- The mutexes that there are, each with its owner if it has one. -/
  owners : MutexId → Option (Option ThreadId)
  /-- Whether something is allocated at an address of a pool. -/
  lent : PoolId → Nat → Bool

namespace Ledger

variable {ledger : Ledger} {event : Event} {events : List Event} {pool : PoolId} {address : Nat}
  {mutex : MutexId} {thread owner : ThreadId} {handoffs : List (MutexId × ThreadId)}

/-- Notes whether something is allocated at an address. -/
def setLent (ledger : Ledger) (pool : PoolId) (address : Nat) (lent : Bool) : Ledger :=
  { ledger with
    lent := Function.update ledger.lent pool (Function.update (ledger.lent pool) address lent) }

/-- Notes what has become of a mutex. -/
def setOwner (ledger : Ledger) (mutex : MutexId) (owner : Option (Option ThreadId)) : Ledger :=
  { ledger with owners := Function.update ledger.owners mutex owner }

/-- Takes all mutexes from a thread. -/
def clearOwner (ledger : Ledger) (thread : ThreadId) : Ledger :=
  { ledger with
    owners := fun mutex =>
      if ledger.owners mutex = some (some thread) then some none else ledger.owners mutex }

/-- The account after an event. -/
def note (ledger : Ledger) : Event → Ledger
  | .mutexCreate mutex => ledger.setOwner mutex (some none)
  | .mutexDelete mutex => ledger.setOwner mutex none
  | .acquire mutex thread => ledger.setOwner mutex (some (some thread))
  | .handoff mutex thread => ledger.setOwner mutex (some (some thread))
  | .release mutex _ => ledger.setOwner mutex (some none)
  | .threadTerminate thread => ledger.clearOwner thread
  | .alloc pool address _ => ledger.setLent pool address true
  | .free pool address => ledger.setLent pool address false
  | _ => ledger

/-- The account after events, one after the other. -/
def replay (ledger : Ledger) (events : List Event) : Ledger := events.foldl note ledger

theorem replay_append (ledger : Ledger) (before after : List Event) :
    ledger.replay (before ++ after) = (ledger.replay before).replay after :=
  List.foldl_append

/-! ### Memory -/

/-- Something was allocated at an address, and has not been released there since. -/
def Outstanding (events : List Event) (pool : PoolId) (address : Nat) : Prop :=
  ∃ before after size, events = before ++ .alloc pool address size :: after ∧
    .free pool address ∉ after

theorem setLent_lent (ledger : Ledger) (pool other : PoolId) (address found : Nat) (lent : Bool) :
    (ledger.setLent pool address lent).lent other found =
      if other = pool ∧ found = address then lent else ledger.lent other found := by
  simp only [setLent, Function.update_apply]
  grind [Function.update_apply]

theorem setLent_lent_same (ledger : Ledger) (pool : PoolId) (address found : Nat) (lent : Bool) :
    (ledger.setLent pool address lent).lent pool found =
      if found = address then lent else ledger.lent pool found := by
  rw [setLent_lent]
  exact if_congr (and_iff_right rfl) rfl rfl

/-- What one event does to what is allocated at one address. -/
theorem lent_note (ledger : Ledger) (event : Event) (pool : PoolId) (address : Nat) :
    (ledger.note event).lent pool address = true ↔ (∃ size, event = .alloc pool address size) ∨
      ledger.lent pool address = true ∧ event ≠ .free pool address := by
  cases event <;> simp [note, setOwner, clearOwner, setLent_lent] <;> grind

/-- One more event, after everything that came before. -/
theorem outstanding_concat_iff : Outstanding (events ++ [event]) pool address ↔
    (∃ size, event = .alloc pool address size) ∨
      Outstanding events pool address ∧ event ≠ .free pool address := by
  constructor
  · rintro ⟨before, after, size, heq, hfree⟩
    rcases List.eq_nil_or_concat after with rfl | ⟨earlier, last, rfl⟩
    · obtain ⟨-, hlast⟩ := List.append_inj' heq rfl
      exact .inl ⟨size, List.singleton_inj.mp hlast⟩
    · rw [List.concat_eq_append] at heq hfree
      rw [← List.cons_append, ← List.append_assoc] at heq
      obtain ⟨hevents, hlast⟩ := List.append_inj' heq rfl
      obtain rfl := List.singleton_inj.mp hlast
      rw [List.mem_append, not_or, List.mem_singleton] at hfree
      exact .inr ⟨⟨before, earlier, size, hevents, hfree.1⟩, Ne.symm hfree.2⟩
  · rintro (⟨size, rfl⟩ | ⟨⟨before, after, size, rfl, hfree⟩, hne⟩)
    · exact ⟨events, [], size, rfl, List.not_mem_nil⟩
    · refine ⟨before, after ++ [event], size, by simp, ?_⟩
      rw [List.mem_append, not_or, List.mem_singleton]
      exact ⟨hfree, Ne.symm hne⟩

/-- After some events an address is lent if the last that was said about it is that it was
allocated, or if nothing was said about its release and it had been lent before. -/
theorem lent_replay_iff (ledger : Ledger) (events : List Event) (pool : PoolId) (address : Nat) :
    (ledger.replay events).lent pool address = true ↔ Outstanding events pool address ∨
      ledger.lent pool address = true ∧ .free pool address ∉ events := by
  induction events using List.reverseRecOn with
  | nil => simp [replay, Outstanding]
  | append_singleton events event ih =>
    rw [replay_append, outstanding_concat_iff]
    show ((ledger.replay events).note event).lent pool address = true ↔ _
    rw [lent_note, ih, List.mem_append, List.mem_singleton]
    grind

/-! ### Mutexes -/

theorem lent_replay_handoffs (ledger : Ledger) (handoffs : List (MutexId × ThreadId)) :
    (ledger.replay (handoffs.map fun entry => .handoff entry.1 entry.2)).lent = ledger.lent := by
  induction handoffs generalizing ledger with
  | nil => rfl
  | cons entry rest ih => exact ih (ledger.note (.handoff entry.1 entry.2))

theorem owners_replay_handoffs_of_not_mem (ledger : Ledger) (h : ∀ owner, (mutex, owner) ∉ handoffs) :
    (ledger.replay (handoffs.map fun entry => .handoff entry.1 entry.2)).owners mutex =
      ledger.owners mutex := by
  induction handoffs generalizing ledger with
  | nil => rfl
  | cons entry rest ih =>
    obtain ⟨first, heir⟩ := entry
    have hne : mutex ≠ first := by
      rintro rfl
      exact h heir List.mem_cons_self
    have hrest := ih (ledger.setOwner first (some (some heir)))
      fun owner hmem => h owner (List.mem_cons_of_mem _ hmem)
    exact hrest.trans (Function.update_of_ne hne _ _)

/-- A mutex that is passed to one thread only is that thread's in the end. -/
theorem owners_replay_handoffs_of_mem (ledger : Ledger) (h : (mutex, owner) ∈ handoffs)
    (honly : ∀ other, (mutex, other) ∈ handoffs → other = owner) :
    (ledger.replay (handoffs.map fun entry => .handoff entry.1 entry.2)).owners mutex =
      some (some owner) := by
  induction handoffs generalizing ledger with
  | nil => simp at h
  | cons entry rest ih =>
    have honly' := fun other hmem => honly other (List.mem_cons_of_mem entry hmem)
    by_cases hrest : (mutex, owner) ∈ rest
    · exact ih (ledger.note (.handoff entry.1 entry.2)) hrest honly'
    · obtain rfl := (List.mem_cons.mp h).resolve_right hrest
      have hnone : ∀ other, (mutex, other) ∉ rest := by
        intro other hmem
        exact hrest (honly' other hmem ▸ hmem)
      exact (owners_replay_handoffs_of_not_mem _ hnone).trans (Function.update_self _ _ _)

/-- A thread gives up all its mutexes, and some of them are passed on. -/
structure GivesUp (before after : MutexId → Option (Option ThreadId)) (thread : ThreadId)
    (handoffs : List (MutexId × ThreadId)) : Prop where
  passed : ∀ {mutex owner}, (mutex, owner) ∈ handoffs → after mutex = some (some owner)
  others : ∀ {mutex}, (∀ owner, (mutex, owner) ∉ handoffs) →
    after mutex = if before mutex = some (some thread) then some none else before mutex

/-- Who owns what after a thread has given everything up is clear from who did before. -/
theorem GivesUp.unique {before after after' : MutexId → Option (Option ThreadId)}
    (h : GivesUp before after thread handoffs) (h' : GivesUp before after' thread handoffs) :
    after = after' := by
  funext mutex
  by_cases hmem : ∃ owner, (mutex, owner) ∈ handoffs
  · obtain ⟨owner, hmem⟩ := hmem
    rw [h.passed hmem, h'.passed hmem]
  · rw [h.others (not_exists.mp hmem), h'.others (not_exists.mp hmem)]

/-- No mutex is passed to two threads. -/
theorem GivesUp.only {before after : MutexId → Option (Option ThreadId)}
    (h : GivesUp before after thread handoffs) {other : ThreadId}
    (hmem : (mutex, owner) ∈ handoffs) (hother : (mutex, other) ∈ handoffs) : other = owner := by
  have hsame := (h.passed hother).symm.trans (h.passed hmem)
  exact Option.some.inj (Option.some.inj hsame)

/-- A termination that is reported first clears what the thread owned, and then its mutexes are
passed on. -/
theorem givesUp_terminate (ledger : Ledger) (thread : ThreadId)
    (honly : ∀ {mutex owner other}, (mutex, owner) ∈ handoffs → (mutex, other) ∈ handoffs →
      other = owner) :
    GivesUp ledger.owners (ledger.replay (.threadTerminate thread ::
      handoffs.map fun entry => .handoff entry.1 entry.2)).owners thread handoffs where
  passed := fun hmem => owners_replay_handoffs_of_mem _ hmem fun _ => honly hmem
  others := fun hnone => owners_replay_handoffs_of_not_mem _ hnone

theorem owners_replay_concat_terminate (ledger : Ledger) (events : List Event) (thread : ThreadId)
    (mutex : MutexId) : (ledger.replay (events ++ [.threadTerminate thread])).owners mutex =
      if (ledger.replay events).owners mutex = some (some thread) then some none
      else (ledger.replay events).owners mutex := by
  rw [replay_append]
  rfl

/-- If it is reported last, it clears what has not been passed on. -/
theorem givesUp_exit (ledger : Ledger)
    (honly : ∀ {mutex owner other}, (mutex, owner) ∈ handoffs → (mutex, other) ∈ handoffs →
      other = owner)
    (hheirs : ∀ {mutex owner}, (mutex, owner) ∈ handoffs → owner ≠ thread) :
    GivesUp ledger.owners (ledger.replay ((handoffs.map fun entry => .handoff entry.1 entry.2) ++
      [.threadTerminate thread])).owners thread handoffs where
  passed := by
    intro mutex owner hmem
    have hothers : some (some owner) ≠ some (some thread) := by simpa using hheirs hmem
    rw [owners_replay_concat_terminate, owners_replay_handoffs_of_mem _ hmem fun _ => honly hmem,
      if_neg hothers]
  others := by
    intro mutex hnone
    rw [owners_replay_concat_terminate, owners_replay_handoffs_of_not_mem _ hnone]

end Ledger

/-! ## The processor -/

/-- Which thread lost the processor and which got it, if an event reports that. -/
def Event.switched? : Event → Option (ThreadId × ThreadId)
  | .switch source target => some (source, target)
  | .idle source target => some (source, target)
  | _ => none

/-- The switches among events. -/
def switches (events : List Event) : List (ThreadId × ThreadId) :=
  events.filterMap Event.switched?

theorem switches_append (before after : List Event) :
    switches (before ++ after) = switches before ++ switches after :=
  List.filterMap_append

/-- A chain of switches leads from one thread to another: each begins where the one before ended. -/
def Leads (first : ThreadId) : List (ThreadId × ThreadId) → ThreadId → Prop
  | [], last => first = last
  | (source, target) :: rest, last => source = first ∧ Leads target rest last

variable {first middle last other source target : ThreadId}
  {before after chain : List (ThreadId × ThreadId)}

/-- A chain can be cut anywhere. -/
theorem leads_append_iff :
    Leads first (before ++ after) last ↔ ∃ middle, Leads first before middle ∧
      Leads middle after last := by
  induction before generalizing first with
  | nil => simp [Leads]
  | cons switch rest ih =>
    obtain ⟨source, target⟩ := switch
    show source = first ∧ Leads target (rest ++ after) last ↔ _
    rw [ih]
    constructor
    · rintro ⟨hsource, middle, hrest, hafter⟩
      exact ⟨middle, ⟨hsource, hrest⟩, hafter⟩
    · rintro ⟨middle, ⟨hsource, hrest⟩, hafter⟩
      exact ⟨hsource, middle, hrest, hafter⟩

/-- A chain leads to the target of its last switch, and each switch begins where the one before
ended. -/
theorem leads_iff : Leads first chain last ↔
    last = (chain.getLast?.map Prod.snd).getD first ∧
      (∀ switch, chain.head? = some switch → switch.1 = first) ∧
      chain.IsChain fun switch next => next.1 = switch.2 := by
  induction chain generalizing first with
  | nil => simp [Leads, eq_comm]
  | cons switch rest ih =>
    obtain ⟨source, target⟩ := switch
    show source = first ∧ Leads target rest last ↔ _
    rw [ih, List.isChain_cons]
    cases rest with
    | nil => simp [eq_comm, and_comm]
    | cons next rest =>
      simp only [List.getLast?_cons, List.head?_cons, Option.map_some, Option.getD_some,
        Option.some.injEq, forall_eq', Option.mem_def]
      exact ⟨fun ⟨hsource, hlast, hnext, hchain⟩ => ⟨hlast, hsource, hnext, hchain⟩,
        fun ⟨hlast, hsource, hnext, hchain⟩ => ⟨hsource, hlast, hnext, hchain⟩⟩

end CoopKernel.Trace
