import CoopKernel.Proofs.Kernel.Consistency

/-!
# What a termination changes, and what it leaves

A terminated thread is taken out of every queue, and each mutex it held goes to the waiter whose
turn it is (`Mutex.heir`). `Excised` says what that comes to, for each part of a scheduler: records,
mutexes, ready queue and wait lists are those of before, without the thread, and with the heirs gone
from where they waited to the ends of their levels. It is put together from what the hand-over of
one mutex does (`Orderly.handOver_handed`), by induction on the mutexes that are handed over
(`Orderly.handOverAll_handed`).
-/

namespace CoopKernel

/-! ## Queues without some of their elements -/

namespace LevelQueue

variable {α : Type} [DecidableEq α]

/-- The queue without the elements of a list. -/
def without (queue : LevelQueue α) (gone : List α) : LevelQueue α where
  idle := queue.idle.filter (· ∉ gone)
  low := queue.low.filter (· ∉ gone)
  normal := queue.normal.filter (· ∉ gone)
  high := queue.high.filter (· ∉ gone)

theorem level_without (q : LevelQueue α) (gone : List α) (p : Priority) :
    (q.without gone).level p = (q.level p).filter (· ∉ gone) := by
  cases p <;> rfl

theorem without_of_forall_not_mem {q : LevelQueue α} {gone : List α}
    (h : ∀ element ∈ gone, ∀ p, element ∉ q.level p) : q.without gone = q := by
  apply ext_level
  intro p
  rw [level_without, List.filter_eq_self]
  intro element hmem
  rw [decide_eq_true_iff]
  exact fun hgone => h element hgone p hmem

@[simp] theorem without_nil (q : LevelQueue α) : q.without [] = q :=
  without_of_forall_not_mem (by simp)

theorem without_without (q : LevelQueue α) (first second : List α) :
    (q.without first).without second = q.without (first ++ second) := by
  apply ext_level
  intro p
  rw [level_without, level_without, level_without, List.filter_filter]
  congr 1
  funext element
  simp [Bool.and_comm]

/-- An element that stands at one level only, and once, is gone when it is erased there. -/
theorem erase_eq_without {q : LevelQueue α} {p : Priority} {element : α}
    (hnodup : (q.level p).Nodup) (honly : ∀ p', element ∈ q.level p' → p' = p) :
    q.erase p element = q.without [element] := by
  apply ext_level
  intro p'
  rw [level_erase, level_without]
  split
  · next heq =>
    rw [heq, hnodup.erase_eq_filter]
    congr 1
    funext other
    simp [bne, beq_eq_decide]
  · next hne =>
    symm
    rw [List.filter_eq_self]
    intro other hmem
    rw [decide_eq_true_iff, List.mem_singleton]
    rintro rfl
    exact hne (honly p' hmem)

end LevelQueue

/-! ## Heirs -/

/-- The first waiter of the highest level that has any. -/
def Mutex.heir (mutex : Mutex) : Option ThreadId :=
  Priority.descending.findSome? fun p => (mutex.waiters.level p).head?

theorem Mutex.heir_eq (x : Mutex) :
    x.heir = (x.waiters.takeHighest? fun _ => true).map Prod.fst := by
  rw [heir, LevelQueue.takeHighest?, List.map_findSome?]
  congr 1
  funext p
  simp only [Function.comp_apply, LevelQueue.takeFrom?, Option.map_map]
  cases x.waiters.level p <;> rfl

/-- The threads that a termination gave a mutex to. -/
def Termination.heirs (report : Termination) : List ThreadId :=
  report.handoffs.map Prod.snd

namespace Scheduler

variable {κ : Type} {s s₁ s' : Scheduler κ} {id me owner : ThreadId} {t c : Thread κ} {m : MutexId}
  {x : Mutex} {ms rest : List MutexId} {handoffs : List (MutexId × ThreadId)}

/-- The waiter who is to have a mutex next. -/
def heir (s : Scheduler κ) (m : MutexId) : Option ThreadId :=
  (s.mutexes.get? m).bind Mutex.heir

/-- The level at which a thread queues. -/
def priority? (s : Scheduler κ) (id : ThreadId) : Option Priority :=
  (s.threads.get? id).map (·.priority)

/-- Who waits for one thing waits for nothing else. -/
theorem Orderly.waiting_filter (h : s.Orderly) (ht : s.threads.get? id = some t)
    {reason : WaitReason} (hreason : t.waitingFor = some reason) (other : WaitReason) :
    (s.waiting.remove reason id).get other = (s.waiting.get other).filter (· ∉ [id]) := by
  have htest : (fun j => decide (j ∉ [id])) = fun j : ThreadId => j != id := by
    funext j
    simp [bne, beq_eq_decide]
  rw [WaitLists.get_remove, htest]
  split
  · next heq => rw [heq]
  · next hne =>
    symm
    rw [List.filter_eq_self]
    intro j hj
    rw [bne_iff_ne]
    rintro rfl
    have hplace := (h.queued.mem_waiting j other).mp hj
    rw [place_eq ht, (h.tidy ht).place_waiting hreason] at hplace
    cases hplace
    exact hne rfl

/-! ## Handing mutexes over -/

/-- What the hand-over of some mutexes does besides changing records. -/
structure Handed (s s' : Scheduler κ) (ms : List MutexId) (handoffs : List (MutexId × ThreadId)) :
    Prop where
  answer : handoffs = ms.filterMap fun m => (s.heir m).map (m, ·)
  mutexes : ∀ m, s'.mutexes.get? m = (s.mutexes.get? m).map fun x =>
    { owner := if m ∈ ms then x.heir else x.owner
      waiters := x.waiters.without (handoffs.map Prod.snd) }
  ready : ∀ p, s'.ready.level p =
    s.ready.level p ++ (handoffs.map Prod.snd).filter (s.priority? · = some p)
  waiting : ∀ reason, s'.waiting.get reason =
    (s.waiting.get reason).filter (· ∉ handoffs.map Prod.snd)
  ticks : s'.ticks = s.ticks
  nextThread : s'.threads.next = s.threads.next
  nextMutex : s'.mutexes.next = s.mutexes.next

theorem handed_freed (hx : s.mutexes.get? m = some x)
    (hnone : x.waiters.takeHighest? (fun _ => true) = none) :
    s.Handed (s.freed m owner) [m] [] where
  answer := by simp [Scheduler.heir, hx, Mutex.heir_eq, hnone]
  mutexes := by
    intro m'
    show (s.mutexes.modify m _).get? m' = _
    rw [Registry.get?_modify]
    split
    · next heq =>
      rw [heq, hx]
      simp [Mutex.heir_eq, hnone]
    · next hne => simp [hne]
  ready := by simp [Scheduler.freed, updateMutex, Scheduler.update]
  waiting := by simp [Scheduler.freed, updateMutex, Scheduler.update]
  ticks := rfl
  nextThread := rfl
  nextMutex := rfl

theorem Orderly.handed_transferred (h : s.Orderly) (hx : s.mutexes.get? m = some x)
    {next : ThreadId} {u : Thread κ} (hu : s.threads.get? next = some u)
    (hwanted : u.wanted = some m) {waiters : LevelQueue ThreadId}
    (hserved : x.waiters.takeHighest? (fun _ => true) = some (next, waiters)) :
    s.Handed ((s.resigned m next u.priority).transferred m owner next) [m] [(m, next)] where
  answer := by simp [Scheduler.heir, hx, Mutex.heir_eq, hserved]
  mutexes := by
    intro m'
    show ((s.mutexes.modify m (·.stopWaiting next)).modify m _).get? m' = _
    rw [Registry.get?_modify, Registry.get?_modify_self]
    split
    · next heq =>
      have hlevel : x.waiters.erase u.priority next = x.waiters.without [next] :=
        LevelQueue.erase_eq_without (h.owned.nodup_waiters hx _) fun p hp =>
          h.owned.waiter_level hx hu hp
      rw [heq, hx]
      simp [h.owned.stopWaiting_of_wanted hx hu hwanted, Mutex.heir_eq, hserved, hlevel]
    · next hne =>
      rw [Registry.get?_modify_of_ne hne]
      cases hy : s.mutexes.get? m' with
      | none => rfl
      | some y =>
        -- The heir wanted the one mutex and no other.
        have hout : y.waiters.without [next] = y.waiters := by
          refine LevelQueue.without_of_forall_not_mem fun element hgone p hmem => ?_
          rw [List.mem_singleton.mp hgone, h.owned.mem_waiters hy] at hmem
          obtain ⟨v, hv, hother, -⟩ := hmem
          cases hu.symm.trans hv
          exact hne (Option.some.inj (hother.symm.trans hwanted))
        simp [hne, hout]
  ready := by
    intro p
    show (s.ready.push u.priority next).level p = _
    have hpriority : s.priority? next = some u.priority := by rw [priority?, hu, Option.map_some]
    rw [LevelQueue.level_push]
    split
    · next heq => simp [heq, hpriority]
    · next hne => simp [hpriority, Ne.symm hne]
  waiting := h.waiting_filter hu ((h.tidy hu).waiting_of_wanted hwanted).2
  ticks := rfl
  nextThread := rfl
  nextMutex := rfl

/-- What one hand-over does. -/
theorem Orderly.handOver_handed (h : s.Orderly) (hx : s.mutexes.get? m = some x)
    (howner : x.owner = some owner) (ht : s.threads.get? owner = some t) {next : Option ThreadId}
    (heq : s.handOver m owner = .ok (next, s₁)) : s.Handed s₁ [m] (next.toList.map (m, ·)) := by
  cases hserved : x.waiters.takeHighest? (fun _ => true) with
  | none =>
    cases (h.handOver_of_no_waiters hx ht hserved).symm.trans heq
    exact handed_freed hx hserved
  | some served =>
    obtain ⟨u, hu, hwanted, -, hpassed⟩ := h.handOver_of_waiter hx howner ht hserved
    cases hpassed.symm.trans heq
    exact h.handed_transferred hx hu hwanted hserved

/-- The hand-over of one mutex comes before those of the others. It leaves their heirs where they
wait, and everybody at their level. -/
theorem Handed.cons {first : List (MutexId × ThreadId)} (h₁ : s.Handed s₁ [m] first)
    (h : s₁.Handed s' rest handoffs) (hm : m ∉ rest)
    (hsame : ∀ m' ∈ rest, s₁.heir m' = s.heir m') (hpriority : s₁.priority? = s.priority?) :
    s.Handed s' (m :: rest) (first ++ handoffs) where
  answer := by
    have hlater : (rest.filterMap fun m' => (s₁.heir m').map (m', ·)) =
        rest.filterMap fun m' => (s.heir m').map (m', ·) :=
      List.filterMap_congr fun m' hm' => by rw [hsame m' hm']
    rw [h.answer, h₁.answer, hlater, ← List.filterMap_append]
    rfl
  mutexes := by
    intro m'
    rw [h.mutexes, h₁.mutexes, List.map_append]
    cases hx : s.mutexes.get? m' with
    | none => rfl
    | some x =>
      -- A mutex is given away once, to the heir it had at the beginning.
      by_cases hrest : m' ∈ rest
      · have hne : m' ≠ m := fun heq => hm (heq ▸ hrest)
        have hheir := hsame m' hrest
        rw [heir, heir, h₁.mutexes, hx] at hheir
        simp only [Option.map_some, Option.bind_some] at hheir
        simp only [Option.map_some, if_pos hrest, if_pos (List.mem_cons_of_mem m hrest), hheir,
          LevelQueue.without_without]
      · simp [hrest, LevelQueue.without_without]
  ready := by
    intro p
    rw [h.ready, h₁.ready, hpriority, List.append_assoc, ← List.filter_append, ← List.map_append]
  waiting := by
    intro reason
    rw [h.waiting, h₁.waiting, List.filter_filter, List.map_append]
    congr 1
    funext j
    rw [← Bool.decide_and]
    simp only [List.mem_append, not_or, and_comm]
  ticks := h.ticks.trans h₁.ticks
  nextThread := h.nextThread.trans h₁.nextThread
  nextMutex := h.nextMutex.trans h₁.nextMutex

/-- Handing over one mutex leaves alone who is to have another. -/
theorem Handed.heir_eq (h : s.Handed s₁ [m] handoffs) {m' : MutexId} (hne : m' ≠ m)
    (hout : ∀ {x}, s.mutexes.get? m' = some x → ∀ j ∈ handoffs.map Prod.snd, ∀ p,
      j ∉ x.waiters.level p) : s₁.heir m' = s.heir m' := by
  rw [heir, heir, h.mutexes]
  cases hx : s.mutexes.get? m' with
  | none => rfl
  | some x =>
    have hlevels := LevelQueue.without_of_forall_not_mem (hout hx)
    simp [hne, hlevels]

/-- Handing over all that a thread holds. -/
theorem Orderly.handOverAll_handed (h : s.Orderly) (ht : s.threads.get? id = some t)
    (hheld : t.held = ms) (heq : s.handOverAll id ms = .ok (handoffs, s')) :
    s.Handed s' ms handoffs := by
  induction ms generalizing s s' t handoffs with
  | nil =>
    cases heq
    exact ⟨rfl, by simp, by simp, by simp, rfl, rfl, rfl⟩
  | cons m rest ih =>
    obtain ⟨x, hx, howner⟩ := (h.owned.owner_iff m id).mpr ⟨t, ht, by simp [hheld]⟩
    obtain ⟨next, s₁, hfirst, horderly, -, hnext, hget⟩ := h.handOver hx howner ht
    obtain ⟨⟨next', s₁'⟩, hfirst', hrest⟩ := bind_eq_ok heq
    cases hfirst.symm.trans hfirst'
    obtain ⟨⟨later, s₂⟩, hlater, hanswer⟩ := bind_eq_ok hrest
    have hone := h.handOver_handed hx howner ht hfirst
    obtain ⟨hnot, hletGo⟩ := (h.tidy ht).letGo_of_held hheld
    have ht₁ : s₁.threads.get? id = some (t.letGo m) := by
      have hother : next ≠ some id := fun hid => (hnext id hid).1 rfl
      rw [hget, if_neg hother, if_pos rfl, ht, Option.map_some]
    have hpriority : s₁.priority? = s.priority? := by
      funext j
      rw [priority?, priority?, hget]
      split
      · cases s.threads.get? j <;> rfl
      · split
        · cases s.threads.get? j <;> rfl
        · rfl
    have hsame : ∀ m' ∈ rest, s₁.heir m' = s.heir m' := by
      intro m' hm'
      have hne : m' ≠ m := fun heq => hnot (heq ▸ hm')
      refine hone.heir_eq hne fun {y} hy j hj p hmem => ?_
      obtain ⟨-, v, hv, hwanted⟩ := hnext j (by simpa using hj)
      obtain ⟨w, hw, hother, -⟩ := (h.owned.mem_waiters hy j p).mp hmem
      cases hv.symm.trans hw
      exact hne (Option.some.inj (hother.symm.trans hwanted))
    have hall : s.Handed s₂ (m :: rest) (next.toList.map (m, ·) ++ later) :=
      hone.cons (ih horderly ht₁ hletGo hlater) hnot hsame hpriority
    cases next with
    | none => cases hanswer; exact hall
    | some j => cases hanswer; exact hall

/-! ## Leaving the queues -/

/-- Erasing a thread at its level takes it out of the ready queue, wherever it stands. -/
theorem Orderly.ready_erase (h : s.Orderly) (ht : s.threads.get? id = some t) :
    s.ready.erase t.priority id = s.ready.without [id] := by
  refine LevelQueue.erase_eq_without (h.queued.nodup_ready _) fun p hp => ?_
  have hplace := (h.queued.mem_ready id p).mp hp
  rw [place_eq ht] at hplace
  exact (Thread.place_eq_ready_iff.mp hplace).2.symm

theorem Orderly.waiting_buried (h : s.Orderly) (ht : s.threads.get? id = some t)
    (reason : WaitReason) :
    (s.buried id t).waiting.get reason = (s.waiting.get reason).filter (· ∉ [id]) := by
  show (t.waitingFor.elim s.waiting fun r => s.waiting.remove r id).get reason = _
  cases hreason : t.waitingFor with
  | some r => exact h.waiting_filter ht hreason reason
  | none =>
    symm
    rw [Option.elim_none, List.filter_eq_self]
    intro j hj
    rw [decide_eq_true_iff, List.mem_singleton]
    rintro rfl
    have hplace := (h.queued.mem_waiting j reason).mp hj
    rw [place_eq ht] at hplace
    rw [(Thread.place_eq_waiting_iff.mp hplace).2] at hreason
    cases hreason

theorem Orderly.mutexes_buried (h : s.Orderly) (ht : s.threads.get? id = some t) (m : MutexId) :
    (s.buried id t).mutexes.get? m = (s.mutexes.get? m).map fun x =>
      { x with waiters := x.waiters.without [id] } := by
  -- The thread is in the queue of the mutex it wants and of no other.
  have hout {y : Mutex} (hy : s.mutexes.get? m = some y) (hne : t.wanted ≠ some m) :
      y.waiters.without [id] = y.waiters := by
    refine LevelQueue.without_of_forall_not_mem fun element hgone p hmem => ?_
    rw [List.mem_singleton.mp hgone, h.owned.mem_waiters hy] at hmem
    obtain ⟨u, hu, hwanted, -⟩ := hmem
    cases ht.symm.trans hu
    exact hne hwanted
  show (t.wanted.elim s.mutexes fun m => s.mutexes.modify m (·.stopWaiting id)).get? m = _
  by_cases hwanted : t.wanted = some m
  · rw [hwanted, Option.elim_some, Registry.get?_modify_self]
    cases hx : s.mutexes.get? m with
    | none => rfl
    | some x =>
      have hlevel : x.waiters.erase t.priority id = x.waiters.without [id] :=
        LevelQueue.erase_eq_without (h.owned.nodup_waiters hx _) fun p hp =>
          h.owned.waiter_level hx ht hp
      rw [Option.map_some, Option.map_some, h.owned.stopWaiting_of_wanted hx ht hwanted, hlevel]
  · have hother : (t.wanted.elim s.mutexes fun m => s.mutexes.modify m (·.stopWaiting id)).get? m =
        s.mutexes.get? m := by
      cases hw : t.wanted with
      | none => rfl
      | some m' =>
        have hne : m ≠ m' := fun heq => hwanted (hw.trans (congrArg some heq.symm))
        rw [Option.elim_some, Registry.get?_modify_of_ne hne]
    rw [hother]
    cases hx : s.mutexes.get? m with
    | none => rfl
    | some x => rw [Option.map_some, hout hx hwanted]

/-! ## The whole termination -/

/-- What the termination of a thread comes to, with the record that the thread had and that of the
current thread. -/
structure Excised (s s' : Scheduler κ) (id : ThreadId) (t c : Thread κ) (report : Termination) :
    Prop where
  /-- The thread is dead, holds nothing, wants nothing and waits for nothing. -/
  record : s'.threads.get? id = some { t with
    state := .dead, waitingFor := none, countdown := .none, wanted := none, held := [] }
  /-- It is in no queue. -/
  absent : (∀ p, id ∉ s'.ready.level p) ∧ (∀ reason, id ∉ s'.waiting.get reason) ∧
    ∀ m x, s'.mutexes.get? m = some x → ∀ p, id ∉ x.waiters.level p
  /-- Its mutexes go, in their order, to the waiters who are to have them next. -/
  handoffs : report.handoffs = t.held.filterMap fun m => (s.heir m).map (m, ·)
  ascending : report.handoffs.Pairwise fun a b => a.1.number < b.1.number
  /-- An heir holds the mutex it wanted, wants and awaits nothing any more, and is ready. -/
  heir : ∀ {m j}, (m, j) ∈ report.handoffs → j ≠ id ∧ ∃ u, s.threads.get? j = some u ∧
    u.wanted = some m ∧ s'.threads.get? j = some { u.hold m with
      state := .ready, waitingFor := none, countdown := .none, wanted := none }
  /-- All other records are as they were. -/
  same : ∀ {j}, j ≠ id → j ∉ report.heirs → s'.threads.get? j = s.threads.get? j
  /-- A mutex that was held belongs to its heir, or to nobody if there is none. Owners of other
  mutexes stay, and from all queues of waiters the thread and the heirs are gone. -/
  mutexes : ∀ m, s'.mutexes.get? m = (s.mutexes.get? m).map fun x =>
    { owner := if m ∈ t.held then x.heir else x.owner
      waiters := x.waiters.without (id :: report.heirs) }
  /-- The heirs come after those who are ready already, each at its level, and in their order. -/
  ready : ∀ p, s'.ready.level p =
    (s.ready.level p).filter (· ≠ id) ++ report.heirs.filter (s.priority? · = some p)
  /-- The thread and the heirs wait no more. -/
  waiting : ∀ reason, s'.waiting.get reason =
    (s.waiting.get reason).filter (· ∉ id :: report.heirs)
  current : s'.current = s.current
  ticks : s'.ticks = s.ticks
  nextThread : s'.threads.next = s.threads.next
  nextMutex : s'.mutexes.next = s.mutexes.next
  previous : report.previous = t.state
  /-- The current thread is to be preempted if some heir outranks it, unless it is the one that has
  been terminated. -/
  preempt : report.preempt = true ↔ t.state ≠ .running ∧
    ∃ j ∈ report.heirs, ∃ u, s'.threads.get? j = some u ∧ c.priority < u.priority

/-- Behind a termination are the hand-overs of what the thread held. -/
theorem Orderly.handOverAll_of_terminate (h : s.Orderly) (ht : s.threads.get? id = some t)
    (halive : t.state ≠ .dead) {report : Termination} (heq : s.terminate id = .ok (report, s')) :
    (s.buried id t).handOverAll id t.held = .ok (report.handoffs, s') := by
  obtain ⟨left, hunlink, hburied⟩ := h.unlink ht halive
  have hnotDead : t.isDead = false := by simp [Thread.isDead, halive]
  rw [Scheduler.terminate, find_eq ht] at heq
  replace heq : (if t.isDead then _ else _) = _ := heq
  rw [hnotDead, hunlink] at heq
  obtain ⟨unlinked, hleft, hdone⟩ := bind_eq_ok (mapError_eq_ok heq)
  cases hleft
  obtain ⟨⟨handoffs, s₁⟩, hall, hrest⟩ := bind_eq_ok hdone
  rw [← hburied]
  replace hrest : (if t.state = .running then _ else _) = _ := hrest
  split at hrest
  · cases hrest
    exact hall
  · obtain ⟨preempt, -, hanswer⟩ := bind_eq_ok hrest
    cases hanswer
    exact hall

/-- Nobody waits for a mutex of its own. -/
theorem Orderly.not_waiter_of_held (h : s.Orderly) (ht : s.threads.get? id = some t)
    (hm : m ∈ t.held) (hx : s.mutexes.get? m = some x) (p : Priority) :
    id ∉ x.waiters.level p := by
  intro hmem
  obtain ⟨owner, howner, hne⟩ := h.owned.owned_of_mem_waiters hx hmem
  exact hne (Option.some.inj (howner.symm.trans ((h.owned.owner_eq_iff hx ht).mpr hm)))

theorem priority?_buried (s : Scheduler κ) (id : ThreadId) (t : Thread κ) :
    (s.buried id t).priority? = s.priority? := by
  funext j
  rw [priority?, priority?, get?_buried]
  split
  · next heq => rw [heq]; cases s.threads.get? id <;> rfl
  · rfl

/-- The mutexes that are handed over have the heirs they had while the thread was alive. -/
theorem Orderly.heir_buried (h : s.Orderly) (ht : s.threads.get? id = some t) (hm : m ∈ t.held) :
    (s.buried id t).heir m = s.heir m := by
  rw [heir, heir, h.mutexes_buried ht]
  cases hx : s.mutexes.get? m with
  | none => rfl
  | some x =>
    have hlevels : x.waiters.without [id] = x.waiters :=
      LevelQueue.without_of_forall_not_mem fun element hgone =>
        List.mem_singleton.mp hgone ▸ h.not_waiter_of_held ht hm hx
    rw [Option.map_some, hlevels]

theorem Orderly.mutexes_handed (h : s.Orderly) (ht : s.threads.get? id = some t)
    (hhanded : (s.buried id t).Handed s' t.held handoffs) (m : MutexId) :
    s'.mutexes.get? m = (s.mutexes.get? m).map fun x =>
      { owner := if m ∈ t.held then x.heir else x.owner
        waiters := x.waiters.without (id :: handoffs.map Prod.snd) } := by
  rw [hhanded.mutexes, h.mutexes_buried ht, Option.map_map]
  cases hx : s.mutexes.get? m with
  | none => rfl
  | some x =>
    simp only [Option.map_some, Function.comp_apply, LevelQueue.without_without,
      List.singleton_append]
    by_cases hm : m ∈ t.held
    · have hsame := h.heir_buried ht hm
      rw [heir, heir, h.mutexes_buried ht, hx] at hsame
      simp only [Option.map_some, Option.bind_some] at hsame
      rw [if_pos hm, if_pos hm, hsame]
    · rw [if_neg hm, if_neg hm]

theorem Orderly.ready_handed (h : s.Orderly) (ht : s.threads.get? id = some t)
    (hhanded : (s.buried id t).Handed s' t.held handoffs) (p : Priority) :
    s'.ready.level p = (s.ready.level p).filter (· ≠ id) ++
      (handoffs.map Prod.snd).filter (s.priority? · = some p) := by
  rw [hhanded.ready, priority?_buried]
  show (s.ready.erase t.priority id).level p ++ _ = _
  rw [h.ready_erase ht, LevelQueue.level_without]
  simp only [List.mem_singleton, ne_eq]

theorem Orderly.waiting_handed (h : s.Orderly) (ht : s.threads.get? id = some t)
    (hhanded : (s.buried id t).Handed s' t.held handoffs) (reason : WaitReason) :
    s'.waiting.get reason =
      (s.waiting.get reason).filter (· ∉ id :: handoffs.map Prod.snd) := by
  rw [hhanded.waiting, h.waiting_buried ht, List.filter_filter]
  congr 1
  funext j
  rw [← Bool.decide_and]
  simp only [List.mem_cons, List.not_mem_nil, or_false, not_or, and_comm]

/-- Whoever is dead is in no queue. -/
theorem Orderly.absent (h : s.Orderly) (ht : s.threads.get? id = some t) (hdead : t.state = .dead) :
    (∀ p, id ∉ s.ready.level p) ∧ (∀ reason, id ∉ s.waiting.get reason) ∧
      ∀ m x, s.mutexes.get? m = some x → ∀ p, id ∉ x.waiters.level p := by
  have hplace : s.place id = none := by rw [place_eq ht, Thread.place, hdead]
  refine ⟨h.queued.not_mem_ready hplace, h.queued.not_mem_waiting hplace, fun m x hx p hmem => ?_⟩
  obtain ⟨u, hu, hwanted, -⟩ := (h.owned.mem_waiters hx id p).mp hmem
  cases ht.symm.trans hu
  have hwaiting := ((h.tidy ht).waiting_of_wanted hwanted).1
  simp [hdead] at hwaiting

/-- What is handed over in order is listed in order. -/
theorem pairwise_handoffs (hheld : ms.Pairwise fun a b => a.number < b.number)
    (heir : MutexId → Option ThreadId) :
    (ms.filterMap fun m => (heir m).map (m, ·)).Pairwise fun a b => a.1.number < b.1.number := by
  rw [List.pairwise_filterMap]
  refine hheld.imp fun {a b} hlt entry hentry entry' hentry' => ?_
  obtain ⟨-, -, rfl⟩ := Option.map_eq_some_iff.mp hentry
  obtain ⟨-, -, rfl⟩ := Option.map_eq_some_iff.mp hentry'
  exact hlt

theorem nextMutex_buried (s : Scheduler κ) (id : ThreadId) (t : Thread κ) :
    (s.buried id t).mutexes.next = s.mutexes.next := by
  show (t.wanted.elim s.mutexes fun m => s.mutexes.modify m (·.stopWaiting id)).next = _
  cases t.wanted <;> rfl

/-- Whoever the thread, its termination excises it and hands over what it held; only the dead
cannot be terminated. -/
theorem Orderly.excised (h : s.Orderly) (hempty : s.EmptyHanded)
    (ht : s.threads.get? id = some t) (hcurrent : s.current = some me)
    (hc : s.threads.get? me = some c) :
    (t.state = .dead → s.terminate id = .error (.refused .invalidState)) ∧
      (t.state ≠ .dead →
        ∃ report s', s.terminate id = .ok (report, s') ∧ s.Excised s' id t c report) := by
  refine ⟨terminate_dead ht, fun halive => ?_⟩
  obtain ⟨report, s', heq, horderly, -, hrecord, hinherited, hprevious, hpreempt⟩ :=
    h.terminate hempty ht halive hcurrent hc
  have ht' : (s.buried id t).threads.get? id = some t.bury := by
    rw [get?_buried, if_pos rfl, ht, Option.map_some]
  have hhanded : (s.buried id t).Handed s' t.held report.handoffs :=
    (h.buried ht).handOverAll_handed ht' rfl (h.handOverAll_of_terminate ht halive heq)
  have hhandoffs : report.handoffs = t.held.filterMap fun m => (s.heir m).map (m, ·) := by
    rw [hhanded.answer]
    exact List.filterMap_congr fun m hm => by rw [h.heir_buried ht hm]
  refine ⟨report, s', heq, hrecord, horderly.absent hrecord rfl, hhandoffs, ?_, hinherited.heir,
    ?_, h.mutexes_handed ht hhanded, h.ready_handed ht hhanded, h.waiting_handed ht hhanded,
    hinherited.current, hhanded.ticks, hhanded.nextThread,
    hhanded.nextMutex.trans (nextMutex_buried s id t), hprevious, ?_⟩
  · rw [hhandoffs]
    exact pairwise_handoffs (h.tidy ht).held s.heir
  · intro j hj hout
    exact hinherited.same hj fun m hin => hout (List.mem_map_of_mem hin)
  · rw [hpreempt]
    simp only [Bool.and_eq_true, Bool.not_eq_true', beq_eq_false_iff_ne, ne_eq, List.any_eq_true,
      Option.any_eq_true, decide_eq_true_iff, Termination.heirs, List.mem_map]
    constructor
    · rintro ⟨hstate, entry, hin, u, hu, hlt⟩
      exact ⟨hstate, entry.2, ⟨entry, hin, rfl⟩, u, hu, hlt⟩
    · rintro ⟨hstate, -, ⟨entry, hin, rfl⟩, u, hu, hlt⟩
      exact ⟨hstate, entry, hin, u, hu, hlt⟩

end Scheduler

/-- A run at whose end a ready thread of low priority owns a mutex for which a thread of high
priority waits. -/
def Kernel.usurped : List (Move Unit) :=
  [answered .mutexCreate, answered (.threadCreate () 4096 .low),
    answered (.threadCreate () 4096 .high), answered (.threadActivate ⟨3⟩),
    [.call (.sleep (.ticks 1)), .advance, .advance], answered (.mutexAcquire ⟨1⟩ .infinite),
    [.raise .tick, .call .poll, .advance, .advance, .advance, .advance],
    [.call (.threadActivate ⟨4⟩), .advance, .advance],
    [.call (.mutexAcquire ⟨1⟩ .infinite), .advance, .advance, .advance]].flatten

theorem Scheduler.Orderly.excised_usurped :
    ∃ (k : Kernel Unit) (t c : Thread (Position Unit)) (report : Termination)
      (s' : Scheduler (Position Unit)), Kernel.afterRun {} {} Kernel.usurped = some k ∧
        k.sched.threads.get? ⟨3⟩ = some t ∧ t.state = .ready ∧
        k.sched.terminate ⟨3⟩ = .ok (report, s') ∧ k.sched.Excised s' ⟨3⟩ t c report ∧
        report.handoffs = [(⟨1⟩, ⟨4⟩)] ∧ report.preempt = true := by
  have hrun : (Kernel.afterRun {} {} Kernel.usurped).any (fun k : Kernel Unit =>
      (k.sched.threads.get? ⟨3⟩).any (·.state == .ready) &&
        (k.sched.terminate ⟨3⟩).toOption.any fun outcome =>
          outcome.1.handoffs == [(⟨1⟩, ⟨4⟩)] && outcome.1.preempt) = true := by decide +kernel
  obtain ⟨k, hk, hfacts⟩ := (Option.any_eq_true _ _).mp hrun
  obtain ⟨hthread, houtcome⟩ := Bool.and_eq_true_iff.mp hfacts
  obtain ⟨t, ht, hstate⟩ := (Option.any_eq_true _ _).mp hthread
  obtain ⟨⟨report, s'⟩, hterminate, hreport⟩ := (Option.any_eq_true _ _).mp houtcome
  obtain ⟨hhandoffs, hpreempt⟩ := Bool.and_eq_true_iff.mp hreport
  have hupright := (Kernel.reachable_of_afterRun hk).sound.upright
  obtain ⟨me, c, hcurrent, hc, -⟩ := hupright.busy
  have hready : t.state = .ready := eq_of_beq hstate
  obtain ⟨report', s'', heq, hexcised⟩ :=
    (hupright.orderly.excised hupright.emptyHanded ht hcurrent hc).2 (by simp [hready])
  cases heq.symm.trans (Kernel.eq_ok_of_toOption hterminate)
  exact ⟨k, t, c, report, s', hk, ht, hready, heq, hexcised, eq_of_beq hhandoffs, hpreempt⟩

end CoopKernel
