import CoopKernel.Proofs.LevelQueue
import CoopKernel.Proofs.Registry
import CoopKernel.Scheduler.Termination

/-!
# Orderly schedulers

The records of the threads say where each thread stands, and the queues say it again; who owns a
mutex is written down in the mutex and once more in its owner's record. In an orderly scheduler all
these agree. The agreement comes in three parts:

* `Thread.Tidy` — one record agrees with itself;
* `Scheduler.Queued` — the ready queue and the wait lists agree with the records;
* `Scheduler.Owned` — the mutexes and their waiters agree with the records.

A dead thread may still hold mutexes while it is being terminated, so that it holds none is said
apart (`Scheduler.EmptyHanded`).
-/

namespace CoopKernel

theorem Handle.eq_of_number_eq {sort : ObjectSort} {a b : Handle sort}
    (h : a.number = b.number) : a = b := by
  cases a
  cases b
  exact congrArg Handle.mk h

namespace Thread

variable {κ : Type}

/-- The fields of a record agree: exactly a waiting thread waits for something, a thread that does
not wait has no countdown, exactly a thread that waits for a mutex wants one, and the mutexes held
ascend. -/
structure Tidy (thread : Thread κ) : Prop where
  waiting_iff : thread.state = .waiting ↔ thread.waitingFor.isSome
  countdown : thread.waitingFor = none → thread.countdown = .none
  wanted_iff : thread.wanted.isSome ↔ thread.waitingFor = some .mutex
  held : thread.held.Pairwise fun a b => a.number < b.number

theorem Tidy.waitingFor_eq_none {thread : Thread κ} (h : thread.Tidy)
    (hstate : thread.state ≠ .waiting) : thread.waitingFor = none := by
  rw [← Option.not_isSome_iff_eq_none, ← h.waiting_iff]
  exact hstate

theorem Tidy.wanted_eq_none {thread : Thread κ} (h : thread.Tidy)
    (hstate : thread.state ≠ .waiting) : thread.wanted = none := by
  rw [← Option.not_isSome_iff_eq_none, h.wanted_iff, h.waitingFor_eq_none hstate]
  simp

/-- Who wants a mutex waits for it. -/
theorem Tidy.waiting_of_wanted {thread : Thread κ} (h : thread.Tidy) {m : MutexId}
    (hwanted : thread.wanted = some m) :
    thread.state = .waiting ∧ thread.waitingFor = some .mutex := by
  have hmutex : thread.waitingFor = some .mutex := h.wanted_iff.mp (by simp [hwanted])
  exact ⟨h.waiting_iff.mpr (by simp [hmutex]), hmutex⟩

theorem Tidy.nodup_held {thread : Thread κ} (h : thread.Tidy) : thread.held.Nodup :=
  h.held.imp fun hlt heq => absurd (heq ▸ hlt) (Nat.lt_irrefl _)

/-! ## The mutexes a thread holds -/

theorem mem_insertMutex {mutex other : MutexId} {held : List MutexId} :
    other ∈ insertMutex mutex held ↔ other = mutex ∨ other ∈ held := by
  induction held with
  | nil => simp [insertMutex]
  | cons first rest ih =>
    rw [insertMutex]
    split
    · rw [List.mem_cons, ih, List.mem_cons]
      exact or_left_comm
    · split
      · next heq => simp [heq]
      · rw [List.mem_cons]

theorem pairwise_insertMutex {mutex : MutexId} {held : List MutexId}
    (h : held.Pairwise fun a b => a.number < b.number) :
    (insertMutex mutex held).Pairwise fun a b => a.number < b.number := by
  induction held with
  | nil => exact List.pairwise_singleton _ _
  | cons first rest ih =>
    obtain ⟨hfirst, hrest⟩ := List.pairwise_cons.mp h
    rw [insertMutex]
    split
    · next hlt =>
      refine List.pairwise_cons.mpr ⟨?_, ih hrest⟩
      intro other hother
      rcases mem_insertMutex.mp hother with rfl | hmem
      · exact hlt
      · exact hfirst other hmem
    · next hge =>
      split
      · exact h
      · next hne =>
        -- Handles with the same number are the same, so what is not below `mutex` is above it.
        have hgt : mutex.number < first.number := by
          have hneq : first.number ≠ mutex.number := fun heq => hne (Handle.eq_of_number_eq heq)
          omega
        refine List.pairwise_cons.mpr ⟨?_, h⟩
        intro other hother
        rcases List.mem_cons.mp hother with rfl | hmem
        · exact hgt
        · exact Nat.lt_trans hgt (hfirst other hmem)

theorem mem_held_hold (thread : Thread κ) (mutex other : MutexId) :
    other ∈ (thread.hold mutex).held ↔ other = mutex ∨ other ∈ thread.held :=
  mem_insertMutex

theorem mem_held_letGo (thread : Thread κ) (mutex other : MutexId) :
    other ∈ (thread.letGo mutex).held ↔ other ∈ thread.held ∧ other ≠ mutex := by
  simp [letGo]

/-- The record of a thread that has been given the mutex it waited for. -/
def receive (thread : Thread κ) (mutex : MutexId) : Thread κ :=
  { (thread.hold mutex).disarm with wanted := none, state := .ready }

theorem Tidy.hold {thread : Thread κ} (h : thread.Tidy) (mutex : MutexId) :
    (thread.hold mutex).Tidy :=
  ⟨h.waiting_iff, h.countdown, h.wanted_iff, pairwise_insertMutex h.held⟩

theorem Tidy.letGo {thread : Thread κ} (h : thread.Tidy) (mutex : MutexId) :
    (thread.letGo mutex).Tidy :=
  ⟨h.waiting_iff, h.countdown, h.wanted_iff, h.held.filter _⟩

end Thread

namespace WaitLists

theorem get_add (lists : WaitLists) (reason other : WaitReason) (id : ThreadId) :
    (lists.add reason id).get other =
      if other = reason then lists.get reason ++ [id] else lists.get other := by
  rw [add]
  split
  · next h => rw [h, get_set_self]
  · next h => exact get_set_of_ne h

theorem get_remove (lists : WaitLists) (reason other : WaitReason) (id : ThreadId) :
    (lists.remove reason id).get other =
      if other = reason then (lists.get reason).filter (· != id) else lists.get other := by
  rw [remove]
  split
  · next h => rw [h, get_set_self]
  · next h => exact get_set_of_ne h

theorem set_get (lists : WaitLists) (reason : WaitReason) :
    lists.set reason (lists.get reason) = lists := by
  cases reason <;> rfl

theorem set_set (lists : WaitLists) (reason : WaitReason) (first second : List ThreadId) :
    (lists.set reason first).set reason second = lists.set reason second := by
  cases reason <;> rfl

end WaitLists

/-- Where a thread stands that neither runs nor is dead. -/
inductive Place
  /-- In the queue for the processor, at a level. -/
  | ready (level : Priority)
  /-- In the list of those who wait for a reason. -/
  | waiting (reason : WaitReason)
deriving DecidableEq, Repr

/-- Where a thread stands according to its record. -/
def Thread.place {κ : Type} (thread : Thread κ) : Option Place :=
  match thread.state with
  | .ready => some (.ready thread.priority)
  | .waiting => thread.waitingFor.map .waiting
  | .running => none
  | .dead => none

theorem Thread.place_eq_ready_iff {κ : Type} {thread : Thread κ} {p : Priority} :
    thread.place = some (.ready p) ↔ thread.state = .ready ∧ thread.priority = p := by
  rw [place]
  cases thread.state <;> simp

theorem Thread.place_eq_waiting_iff {κ : Type} {thread : Thread κ} {reason : WaitReason} :
    thread.place = some (.waiting reason) ↔
      thread.state = .waiting ∧ thread.waitingFor = some reason := by
  rw [place]
  cases thread.state <;> simp

theorem Thread.Tidy.place_waiting {κ : Type} {thread : Thread κ} (h : thread.Tidy)
    {reason : WaitReason} (hreason : thread.waitingFor = some reason) :
    thread.place = some (.waiting reason) := by
  have hstate : thread.state = .waiting := h.waiting_iff.mpr (by simp [hreason])
  rw [place, hstate, hreason]
  rfl

/-- The ready queue and the wait lists hold each thread where it stands, once, and nowhere else. -/
structure Queued (place : ThreadId → Option Place) (ready : LevelQueue ThreadId)
    (waiting : WaitLists) : Prop where
  mem_ready : ∀ id p, id ∈ ready.level p ↔ place id = some (.ready p)
  nodup_ready : ∀ p, (ready.level p).Nodup
  mem_waiting : ∀ id reason, id ∈ waiting.get reason ↔ place id = some (.waiting reason)
  nodup_waiting : ∀ reason, (waiting.get reason).Nodup

namespace Queued

variable {place : ThreadId → Option Place} {ready : LevelQueue ThreadId} {waiting : WaitLists}
  {id : ThreadId}

theorem not_mem_ready (h : Queued place ready waiting) (hplace : place id = none) (p : Priority) :
    id ∉ ready.level p := by
  rw [h.mem_ready, hplace]
  simp

theorem not_mem_waiting (h : Queued place ready waiting) (hplace : place id = none)
    (reason : WaitReason) : id ∉ waiting.get reason := by
  rw [h.mem_waiting, hplace]
  simp

/-- A thread that stands nowhere joins the ready queue. -/
theorem join_ready (h : Queued place ready waiting) (hplace : place id = none) (p : Priority) :
    Queued (Function.update place id (some (.ready p))) (ready.push p id) waiting where
  mem_ready := by
    intro other q
    rw [LevelQueue.mem_level_push, h.mem_ready, Function.update_apply]
    grind
  nodup_ready := fun q =>
    LevelQueue.nodup_level_push (h.nodup_ready q) (h.not_mem_ready hplace p)
  mem_waiting := by
    intro other reason
    rw [h.mem_waiting, Function.update_apply]
    grind
  nodup_waiting := h.nodup_waiting

/-- A thread that stands nowhere joins a wait list. -/
theorem join_waiting (h : Queued place ready waiting) (hplace : place id = none)
    (reason : WaitReason) :
    Queued (Function.update place id (some (.waiting reason))) ready (waiting.add reason id) where
  mem_ready := by
    intro other p
    rw [h.mem_ready, Function.update_apply]
    grind
  nodup_ready := h.nodup_ready
  mem_waiting := by
    intro other other'
    rw [WaitLists.get_add, Function.update_apply]
    have hmem := h.mem_waiting other other'
    grind
  nodup_waiting := by
    intro other
    rw [WaitLists.get_add]
    split
    · next heq =>
      have hnew := h.not_mem_waiting hplace reason
      exact (h.nodup_waiting reason).append (List.nodup_singleton id)
        (List.disjoint_singleton.mpr hnew)
    · exact h.nodup_waiting other

/-- A ready thread leaves the ready queue. -/
theorem leave_ready (h : Queued place ready waiting) {p : Priority}
    (hplace : place id = some (.ready p)) :
    Queued (Function.update place id none) (ready.erase p id) waiting where
  mem_ready := by
    intro other q
    have honly : id ∈ ready.level q → q = p := by
      rw [h.mem_ready, hplace]
      simp [eq_comm]
    rw [LevelQueue.mem_level_erase (h.nodup_ready p) honly, h.mem_ready, Function.update_apply]
    grind
  nodup_ready := fun q => LevelQueue.nodup_level_erase (h.nodup_ready q)
  mem_waiting := by
    intro other reason
    rw [h.mem_waiting, Function.update_apply]
    grind
  nodup_waiting := h.nodup_waiting

/-- A waiting thread leaves its wait list. -/
theorem leave_waiting (h : Queued place ready waiting) {reason : WaitReason}
    (hplace : place id = some (.waiting reason)) :
    Queued (Function.update place id none) ready (waiting.remove reason id) where
  mem_ready := by
    intro other p
    rw [h.mem_ready, Function.update_apply]
    grind
  nodup_ready := h.nodup_ready
  mem_waiting := by
    intro other other'
    rw [WaitLists.get_remove, Function.update_apply]
    have hmem := h.mem_waiting other other'
    grind
  nodup_waiting := by
    intro other
    rw [WaitLists.get_remove]
    split
    · exact (h.nodup_waiting reason).filter _
    · exact h.nodup_waiting other

end Queued

namespace Scheduler

variable {κ : Type}

/-- Where a thread stands. -/
def place (s : Scheduler κ) (id : ThreadId) : Option Place :=
  (s.threads.get? id).bind Thread.place

/-- The mutexes and their waiters agree with the records, and nobody waits for a mutex that is free
or its own. -/
structure Owned (threads : Registry .thread (Thread κ)) (mutexes : Registry .mutex Mutex) :
    Prop where
  owner_iff : ∀ m id, (∃ x, mutexes.get? m = some x ∧ x.owner = some id) ↔
    ∃ t, threads.get? id = some t ∧ m ∈ t.held
  mem_waiters : ∀ {m x}, mutexes.get? m = some x → ∀ id p, id ∈ x.waiters.level p ↔
    ∃ t, threads.get? id = some t ∧ t.wanted = some m ∧ t.priority = p
  nodup_waiters : ∀ {m x}, mutexes.get? m = some x → ∀ p, (x.waiters.level p).Nodup
  wanted_owned : ∀ {id t m}, threads.get? id = some t → t.wanted = some m →
    ∃ x owner, mutexes.get? m = some x ∧ x.owner = some owner ∧ owner ≠ id

/-- Records, queues and mutexes agree, and nobody runs but the current thread. -/
structure Orderly (s : Scheduler κ) : Prop where
  threads : s.threads.Ordered
  mutexes : s.mutexes.Ordered
  tidy : ∀ {id t}, s.threads.get? id = some t → t.Tidy
  running : ∀ {id t}, s.threads.get? id = some t → t.state = .running → s.current = some id
  queued : Queued s.place s.ready s.waiting
  owned : Owned s.threads s.mutexes

theorem orderly_empty : ({} : Scheduler κ).Orderly where
  threads := Registry.ordered_empty
  mutexes := Registry.ordered_empty
  tidy := by simp [Registry.get?]
  running := by simp [Registry.get?]
  queued := by
    refine ⟨by simp [place, Registry.get?], by simp, ?_, ?_⟩
    · intro id reason
      cases reason <;> simp [place, Registry.get?, WaitLists.get]
    · intro reason
      cases reason <;> exact List.nodup_nil
  owned := ⟨by simp [Registry.get?], by simp [Registry.get?], by simp [Registry.get?],
    by simp [Registry.get?]⟩

/-- The dead hold nothing. -/
def EmptyHanded (s : Scheduler κ) : Prop :=
  ∀ {id t}, s.threads.get? id = some t → t.state = .dead → t.held = []

end Scheduler

end CoopKernel
