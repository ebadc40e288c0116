import CoopKernel.Proofs.Scheduler.Chime

/-!
# Orders of arrival

Threads leave the queues of a scheduler anywhere: the one that is served at the front, those that
time out or are terminated in the middle. They join them at the back only. So whatever has happened,
each queue has its threads in the order in which they came last, and one list of all arrivals is
enough to know the order in every queue (`byLast`).

How much a move disturbs the queues is said by `Scheduler.Shifts`: who arrives at the ready queue,
and who begins to wait for time or for a mutex. Moves in a row disturb the queues one after the
other (`Shifts.trans`), and each single move shifts at most one thread. A tick and a termination are
moves in a row.
-/

namespace CoopKernel

/-! ## Lists by last arrival -/

section Lists

variable {α : Type} {a b : α} {line line' arrivals : List α}

/-- Of two that stand in a row, the second may have just come. -/
theorem sublist_pair_concat {c : α} (h : [a, b].Sublist (line ++ [c])) :
    [a, b].Sublist line ∨ a ∈ line ∧ b = c := by
  have hback : [b, a].Sublist (c :: line.reverse) := by simpa using h.reverse
  cases hback with
  | cons _ hrest => exact .inl (by simpa using hrest.reverse)
  | cons_cons _ hrest => exact .inr ⟨by simpa using hrest, rfl⟩

/-- Part of a list without repetitions is what a test picks out of it, if those in the part pass the
test. -/
theorem eq_filter_of_sublist {test : α → Bool} (h : line.Sublist line') (hnodup : line'.Nodup)
    (hmem : ∀ c, c ∈ line ↔ c ∈ line' ∧ test c = true) : line = line'.filter test := by
  have hkept : line.filter test = line :=
    List.filter_eq_self.mpr fun c hc => ((hmem c).mp hc).2
  have hsub : line.Sublist (line'.filter test) := hkept ▸ h.filter test
  have hperm : line.Perm (line'.filter test) :=
    (List.perm_ext_iff_of_nodup (h.nodup hnodup) (hnodup.filter test)).mpr fun c => by
      rw [hmem, List.mem_filter]
  exact hsub.eq_of_length hperm.length_eq

variable [DecidableEq α]

/-- A list after an element has come last, wherever it was before. -/
def arrive (line : List α) (a : α) : List α := line.filter (· != a) ++ [a]

/-- Those that have arrived, each once, in the order in which they arrived for the last time. -/
def byLast (arrivals : List α) : List α := arrivals.foldl arrive []

/-- One arrived for the last time before another one did. -/
def LastBefore (arrivals : List α) (a b : α) : Prop :=
  ∃ earlier later, arrivals = earlier ++ later ∧ a ∈ earlier ∧ a ∉ later ∧ b ∈ later

theorem mem_arrive : b ∈ arrive line a ↔ b ∈ line ∨ b = a := by
  by_cases h : b = a <;> simp [arrive, h]

theorem nodup_arrive (h : line.Nodup) : (arrive line a).Nodup :=
  (h.filter _).append (List.nodup_singleton a) (by simp [List.Disjoint])

theorem arrive_of_not_mem (h : a ∉ line) : arrive line a = line ++ [a] := by
  have hkept : line.filter (· != a) = line :=
    List.filter_eq_self.mpr fun b hb => bne_iff_ne.mpr fun heq => h (heq ▸ hb)
  rw [arrive, hkept]

/-- Nothing is disturbed by the arrival of a new one. -/
theorem sublist_arrive (h : a ∉ line) : line.Sublist (arrive line a) := by
  rw [arrive_of_not_mem h]
  exact List.sublist_append_left line [a]

theorem arrive_mono (h : line.Sublist line') (a : α) : (arrive line a).Sublist (arrive line' a) :=
  (h.filter _).append (.refl [a])

theorem foldl_arrive_mono (h : line.Sublist line') (arrivals : List α) :
    (arrivals.foldl arrive line).Sublist (arrivals.foldl arrive line') := by
  induction arrivals generalizing line line' with
  | nil => exact h
  | cons a rest ih => exact ih (arrive_mono h a)

theorem byLast_concat (arrivals : List α) (a : α) :
    byLast (arrivals ++ [a]) = arrive (byLast arrivals) a := by
  rw [byLast, List.foldl_concat, byLast]

theorem nodup_byLast (arrivals : List α) : (byLast arrivals).Nodup := by
  induction arrivals using List.reverseRecOn with
  | nil => exact List.nodup_nil
  | append_singleton arrivals a ih => exact byLast_concat arrivals a ▸ nodup_arrive ih

theorem mem_byLast : a ∈ byLast arrivals ↔ a ∈ arrivals := by
  induction arrivals using List.reverseRecOn with
  | nil => rfl
  | append_singleton arrivals b ih =>
    rw [byLast_concat, mem_arrive, ih, List.mem_append, List.mem_singleton]

/-- Who stands before somebody else arrived before. -/
theorem lastBefore_of_sublist (h : [a, b].Sublist (byLast arrivals)) : LastBefore arrivals a b := by
  induction arrivals using List.reverseRecOn with
  | nil => cases h
  | append_singleton arrivals c ih =>
    rw [byLast_concat, arrive] at h
    rcases sublist_pair_concat h with hboth | ⟨hmem, rfl⟩
    · have hne : a ≠ c := by
        have hmem := hboth.subset List.mem_cons_self
        simp only [List.mem_filter, bne_iff_ne] at hmem
        exact hmem.2
      obtain ⟨earlier, later, rfl, ha, hnot, hb⟩ := ih (hboth.trans List.filter_sublist)
      refine ⟨earlier, later ++ [c], by rw [List.append_assoc], ha, ?_, List.mem_append_left _ hb⟩
      simp [hnot, hne]
    · rw [List.mem_filter, bne_iff_ne, mem_byLast] at hmem
      exact ⟨arrivals, [b], rfl, hmem.1, by simpa using hmem.2, List.mem_cons_self⟩

end Lists

namespace Scheduler

variable {κ : Type} {s s' s₁ : Scheduler κ} {id owner next : ThreadId} {t : Thread κ} {m : MutexId}
  {x : Mutex} {reason : WaitReason} {queue : List ThreadId}
  {arrived arrived' begun begun' : List ThreadId}

/-! ## What moves do to the queues -/

/-- A queue of threads whose waits may run out: those that sleep, those that wait for a mutex, and
those that wait for one mutex at one priority. -/
inductive TimedQueue (s : Scheduler κ) : List ThreadId → Prop
  | sleeping : TimedQueue s s.waiting.sleep
  | wanting : TimedQueue s s.waiting.mutex
  | waiters {m : MutexId} {x : Mutex} (hx : s.mutexes.get? m = some x) (p : Priority) :
    TimedQueue s (x.waiters.level p)

/-- From one scheduler to another nothing happens to the order in the queues, except that some
threads arrive at the ready queue and some begin to wait. -/
structure Shifts (s s' : Scheduler κ) (arrived begun : List ThreadId) : Prop where
  ready : ∀ p, (s'.ready.level p).Sublist (arrived.foldl arrive (s.ready.level p))
  timed : ∀ {queue}, s'.TimedQueue queue →
    ∃ before, s.TimedQueue before ∧ queue.Sublist (begun.foldl arrive before)

theorem Shifts.trans (h : s.Shifts s₁ arrived begun) (h' : s₁.Shifts s' arrived' begun') :
    s.Shifts s' (arrived ++ arrived') (begun ++ begun') where
  ready p := by
    rw [List.foldl_append]
    exact (h'.ready p).trans (foldl_arrive_mono (h.ready p) arrived')
  timed hqueue := by
    obtain ⟨middle, hmiddle, hlater⟩ := h'.timed hqueue
    obtain ⟨before, hbefore, hearlier⟩ := h.timed hmiddle
    refine ⟨before, hbefore, ?_⟩
    rw [List.foldl_append]
    exact hlater.trans (foldl_arrive_mono hearlier begun')

/-- Queue by queue. -/
theorem Shifts.of_queues
    (hready : ∀ p, (s'.ready.level p).Sublist (arrived.foldl arrive (s.ready.level p)))
    (hsleep : s'.waiting.sleep.Sublist (begun.foldl arrive s.waiting.sleep))
    (hmutex : s'.waiting.mutex.Sublist (begun.foldl arrive s.waiting.mutex))
    (hwaiters : ∀ {m x'}, s'.mutexes.get? m = some x' → (∀ p, x'.waiters.level p = []) ∨
      ∃ x, s.mutexes.get? m = some x ∧
        ∀ p, (x'.waiters.level p).Sublist (begun.foldl arrive (x.waiters.level p))) :
    s.Shifts s' arrived begun := by
  refine ⟨hready, fun hqueue => ?_⟩
  cases hqueue with
  | sleeping => exact ⟨_, .sleeping, hsleep⟩
  | wanting => exact ⟨_, .wanting, hmutex⟩
  | waiters hx p =>
    rcases hwaiters hx with hempty | ⟨x, hbefore, hsub⟩
    · exact ⟨_, .sleeping, hempty p ▸ List.nil_sublist _⟩
    · exact ⟨_, .waiters hbefore p, hsub p⟩

/-- The queues of the mutexes are as they were, apart from those that somebody leaves. -/
theorem waiters_of_modify {change : Mutex → Mutex}
    (hchange : ∀ x p, ((change x).waiters.level p).Sublist (x.waiters.level p)) {m' : MutexId}
    {x' : Mutex} (hx' : (s.mutexes.modify m change).get? m' = some x') :
    ∃ x, s.mutexes.get? m' = some x ∧ ∀ p, (x'.waiters.level p).Sublist (x.waiters.level p) := by
  rw [Registry.get?_modify] at hx'
  split at hx'
  · next heq =>
    obtain ⟨x, hx, rfl⟩ := Option.map_eq_some_iff.mp hx'
    exact ⟨x, heq ▸ hx, hchange x⟩
  · exact ⟨x', hx', fun _ => .refl _⟩

theorem sublist_stopWaiting (x : Mutex) (id : ThreadId) (p : Priority) :
    ((x.stopWaiting id).waiters.level p).Sublist (x.waiters.level p) := by
  rw [Mutex.stopWaiting]
  split
  · exact .refl _
  · next waiters htaken =>
    obtain ⟨q, -, -, rfl⟩ := LevelQueue.takeLowest?_erase htaken
    exact LevelQueue.sublist_level_erase ..

theorem sublist_remove (lists : WaitLists) (reason other : WaitReason) (id : ThreadId) :
    ((lists.remove reason id).get other).Sublist (lists.get other) := by
  rw [WaitLists.get_remove]
  split
  · next heq => exact heq ▸ List.filter_sublist
  · exact .refl _

/-- While nobody begins to wait for a mutex, the mutexes need not change. -/
theorem Shifts.of_lists
    (hready : ∀ p, (s'.ready.level p).Sublist (arrived.foldl arrive (s.ready.level p)))
    (hsleep : s'.waiting.sleep.Sublist s.waiting.sleep)
    (hmutex : s'.waiting.mutex.Sublist s.waiting.mutex) (hmutexes : s'.mutexes = s.mutexes) :
    s.Shifts s' arrived [] :=
  .of_queues hready hsleep hmutex fun hx => .inr ⟨_, hmutexes ▸ hx, fun _ => .refl _⟩

/-- Nothing moves if the queues are as they were. -/
theorem Shifts.of_eq (hready : s'.ready = s.ready) (hwaiting : s'.waiting = s.waiting)
    (hmutexes : s'.mutexes = s.mutexes) : s.Shifts s' [] [] :=
  .of_lists (fun _ => hready ▸ .refl _) (hwaiting ▸ .refl _) (hwaiting ▸ .refl _) hmutexes

/-- A change of who owns a mutex leaves its queue alone. -/
theorem Shifts.of_owner (change : Mutex → Mutex) (hready : s'.ready = s.ready)
    (hwaiting : s'.waiting = s.waiting) (hmutexes : s'.mutexes = s.mutexes.modify m change)
    (hchange : ∀ x, (change x).waiters = x.waiters) : s.Shifts s' [] [] := by
  refine .of_queues (fun p => hready ▸ .refl _) (hwaiting ▸ .refl _) (hwaiting ▸ .refl _)
    fun hx => .inr (waiters_of_modify (fun x p => hchange x ▸ .refl _) (hmutexes ▸ hx))

/-! ## Who stands nowhere -/

theorem Orderly.not_mem_ready (h : s.Orderly) (ht : s.threads.get? id = some t)
    (hstate : t.state ≠ .ready) (p : Priority) : id ∉ s.ready.level p := by
  rw [h.queued.mem_ready, place_eq ht, Thread.place_eq_ready_iff]
  exact fun hplace => hstate hplace.1

theorem Orderly.not_mem_timed (h : s.Orderly) (ht : s.threads.get? id = some t)
    (hstate : t.state ≠ .waiting) (hqueue : s.TimedQueue queue) : id ∉ queue := by
  have hlist : ∀ reason, id ∉ s.waiting.get reason := fun reason => by
    rw [h.queued.mem_waiting, place_eq ht, Thread.place_eq_waiting_iff]
    exact fun hplace => hstate hplace.1
  cases hqueue with
  | sleeping => exact hlist .sleep
  | wanting => exact hlist .mutex
  | waiters hx p =>
    rw [h.owned.mem_waiters hx]
    rintro ⟨u, hu, hwanted, -⟩
    obtain rfl := Option.some.inj (ht.symm.trans hu)
    exact hstate ((h.tidy ht).waiting_of_wanted hwanted).1

/-! ## Single moves -/

/-- A thread that joins the ready queue comes last at its level. -/
theorem Orderly.sublist_push (h : s.Orderly) (ht : s.threads.get? id = some t)
    (hstate : t.state ≠ .ready) (p q : Priority) :
    ((s.ready.push p id).level q).Sublist ([id].foldl arrive (s.ready.level q)) := by
  rw [LevelQueue.level_push, List.foldl_cons, List.foldl_nil]
  split
  · next heq => rw [heq, arrive_of_not_mem (h.not_mem_ready ht hstate p)]
  · exact sublist_arrive (h.not_mem_ready ht hstate q)

theorem Orderly.shifts_readied (h : s.Orderly) (ht : s.threads.get? id = some t)
    (hstate : t.state ≠ .ready) (p : Priority) : s.Shifts (s.readied id p) [id] [] :=
  .of_lists (h.sublist_push ht hstate p) (.refl _) (.refl _) rfl

theorem shifts_dispatched (s : Scheduler κ) (id : ThreadId) (p : Priority) :
    s.Shifts (s.dispatched id p) [] [] :=
  .of_lists (fun q => LevelQueue.sublist_level_erase s.ready p q id) (.refl _) (.refl _) rfl

theorem Orderly.shifts_awakened (h : s.Orderly) (ht : s.threads.get? id = some t)
    (hstate : t.state ≠ .ready) (p : Priority) (reason : WaitReason) :
    s.Shifts (s.awakened id p reason) [id] [] :=
  .of_lists (h.sublist_push ht hstate p) (sublist_remove s.waiting reason .sleep id)
    (sublist_remove s.waiting reason .mutex id) rfl

theorem Orderly.shifts_resigned (h : s.Orderly) (ht : s.threads.get? id = some t)
    (hstate : t.state ≠ .ready) (m : MutexId) (p : Priority) :
    s.Shifts (s.resigned m id p) [id] [] :=
  .of_queues (h.sublist_push ht hstate p) (sublist_remove s.waiting .mutex .sleep id)
    (sublist_remove s.waiting .mutex .mutex id)
    fun hx => .inr (waiters_of_modify (fun x p => sublist_stopWaiting x id p) hx)

theorem shifts_buried (s : Scheduler κ) (id : ThreadId) (t : Thread κ) :
    s.Shifts (s.buried id t) [] [] := by
  have hlist : ∀ other, ((s.buried id t).waiting.get other).Sublist (s.waiting.get other) := by
    intro other
    rw [Scheduler.buried]
    dsimp only
    cases t.waitingFor with
    | none => exact .refl _
    | some reason => exact sublist_remove s.waiting reason other id
  refine .of_queues (fun q => LevelQueue.sublist_level_erase s.ready t.priority q id)
    (hlist .sleep) (hlist .mutex) fun {m x'} hx => .inr ?_
  rw [Scheduler.buried] at hx
  cases hwanted : t.wanted with
  | none =>
    rw [hwanted] at hx
    exact ⟨x', hx, fun _ => .refl _⟩
  | some wanted =>
    rw [hwanted] at hx
    exact waiters_of_modify (fun x p => sublist_stopWaiting x id p) hx

/-- Who begins to sleep comes last among those who do. -/
theorem Orderly.shifts_suspended (h : s.Orderly) (ht : s.threads.get? id = some t)
    (hstate : t.state ≠ .waiting) (hreason : reason ≠ .mutex) (timeout : Timeout) :
    s.Shifts (s.suspended id reason timeout) [] (if reason = .sleep then [id] else []) := by
  have hsleeping := h.not_mem_timed ht hstate .sleeping
  cases reason with
  | mutex => exact absurd rfl hreason
  | io => exact .of_lists (fun _ => .refl _) (.refl _) (.refl _) rfl
  | memory => exact .of_lists (fun _ => .refl _) (.refl _) (.refl _) rfl
  | sleep =>
    refine .of_queues (fun _ => .refl _) ?_ (sublist_arrive (h.not_mem_timed ht hstate .wanting))
      fun {m x'} hx => .inr ⟨x', hx, fun p => ?_⟩
    · show (s.waiting.sleep ++ [id]).Sublist (arrive s.waiting.sleep id)
      rw [arrive_of_not_mem hsleeping]
    · have hwaiters : s.mutexes.get? m = some x' := hx
      exact sublist_arrive (h.not_mem_timed ht hstate (.waiters hwaiters p))

/-- Who begins to wait for a mutex comes last among those who do, and at its level. -/
theorem Orderly.shifts_enlisted (h : s.Orderly) (ht : s.threads.get? id = some t)
    (hstate : t.state ≠ .waiting) (m : MutexId) (p : Priority) (timeout : Timeout) :
    s.Shifts (s.enlisted m id p timeout) [] [id] := by
  refine .of_queues (fun _ => .refl _) (sublist_arrive (h.not_mem_timed ht hstate .sleeping)) ?_
    fun {m' x'} hx' => .inr ?_
  · show (s.waiting.mutex ++ [id]).Sublist (arrive s.waiting.mutex id)
    rw [arrive_of_not_mem (h.not_mem_timed ht hstate .wanting)]
  · change (s.mutexes.modify m (·.addWaiter id p)).get? m' = some x' at hx'
    rw [Registry.get?_modify] at hx'
    split at hx'
    · next heq =>
      obtain ⟨x, hx, rfl⟩ := Option.map_eq_some_iff.mp hx'
      refine ⟨x, heq ▸ hx, fun q => ?_⟩
      have hnot := fun q => h.not_mem_timed ht hstate (.waiters hx q)
      show ((x.waiters.push p id).level q).Sublist (arrive (x.waiters.level q) id)
      rw [LevelQueue.level_push]
      split
      · next heq => rw [heq, arrive_of_not_mem (hnot p)]
      · exact sublist_arrive (hnot q)
    · exact ⟨x', hx', fun q => sublist_arrive (h.not_mem_timed ht hstate (.waiters hx' q))⟩

theorem shifts_transferred (s : Scheduler κ) (m : MutexId) (owner next : ThreadId) :
    s.Shifts (s.transferred m owner next) [] [] :=
  .of_owner (fun x => { x with owner := some next }) rfl rfl rfl fun _ => rfl

theorem shifts_freed (s : Scheduler κ) (m : MutexId) (owner : ThreadId) :
    s.Shifts (s.freed m owner) [] [] :=
  .of_owner (fun x => { x with owner := none }) rfl rfl rfl fun _ => rfl

theorem shifts_locked (s : Scheduler κ) (m : MutexId) (id : ThreadId) :
    s.Shifts (s.locked m id) [] [] :=
  .of_owner (fun x => { x with owner := some id }) rfl rfl rfl fun _ => rfl

theorem Orderly.shifts_createMutex (h : s.Orderly) : s.Shifts s.createMutex.2 [] [] := by
  refine .of_queues (fun _ => .refl _) (.refl _) (.refl _) fun hx => ?_
  change (s.mutexes.add {}).get? _ = _ at hx
  rw [Registry.get?_add h.mutexes] at hx
  split at hx
  · obtain rfl := Option.some.inj hx
    exact .inl LevelQueue.level_empty
  · exact .inr ⟨_, hx, fun _ => .refl _⟩

theorem shifts_deleteMutex (s : Scheduler κ) (m : MutexId) :
    s.Shifts { s with mutexes := s.mutexes.erase m } [] [] := by
  refine .of_queues (fun _ => .refl _) (.refl _) (.refl _) fun hx => .inr ⟨_, ?_, fun _ => .refl _⟩
  change (s.mutexes.erase m).get? _ = _ at hx
  rw [Registry.get?_erase] at hx
  split at hx
  · cases hx
  · exact hx

/-! ## Moves in a row -/

/-- A thread whose wait runs out with a tick arrives at the ready queue. -/
theorem Orderly.shifts_chimed (h : s.Orderly) (ht : s.threads.get? id = some t)
    (hreason : t.waitingFor = some reason) :
    s.Shifts (s.chimed id t) (if t.countdown.next.expired then [id] else []) [] := by
  have hstate : t.state = .waiting := (h.tidy ht).waiting_iff.mpr (by simp [hreason])
  have hcounted : (s.update id Scheduler.counted).threads.get? id = some (Scheduler.counted t) := by
    rw [get?_update, if_pos rfl, ht, Option.map_some]
  have hsame : s.Shifts (s.update id Scheduler.counted) [] [] := .of_eq rfl rfl rfl
  have hnot : (Scheduler.counted t).state ≠ .ready := by simp [Scheduler.counted, hstate]
  have horderly := h.counted ht hstate
  rw [Scheduler.chimed]
  cases t.countdown.next.expired with
  | false => exact hsame
  | true =>
    cases t.wanted with
    | none => exact hsame.trans (horderly.shifts_awakened hcounted hnot t.priority .sleep)
    | some m => exact hsame.trans (horderly.shifts_resigned hcounted hnot m t.priority)

theorem Orderly.shifts_foldl_rung (h : s.Orderly) {front : List ThreadId} (hnodup : front.Nodup)
    (htimed : ∀ id ∈ front, s.Timed id) (report : TickReport) :
    s.Shifts (front.foldl rung (s, report)).1 (front.filter s.lapses) [] := by
  induction front using List.reverseRecOn with
  | nil => exact .of_eq rfl rfl rfl
  | append_singleton front id ih =>
    have hfront := (List.nodup_append.mp hnodup).1
    have hmem : ∀ j ∈ front, s.Timed j := fun j hj => htimed j (List.mem_append_left _ hj)
    obtain ⟨t, reason, ht, hreason, -⟩ := htimed id (by simp)
    obtain ⟨hnow, hlast⟩ := h.foldl_rung_concat hnodup htimed ht report
    have hlapses : [id].filter s.lapses = if t.countdown.next.expired then [id] else [] := by
      have : s.lapses id = t.countdown.next.expired := by rw [lapses, ht, Option.any_some]
      simp [List.filter_cons, this]
    rw [hlast, List.filter_append, hlapses]
    exact (ih hfront hmem).trans ((h.foldl_rung hfront hmem report).1.shifts_chimed hnow hreason)

/-- With a tick those arrive at the ready queue whose waits run out, as they are reported. -/
theorem Orderly.shifts_tick (h : s.Orderly) {report : TickReport}
    (htick : s.tick = .ok (report, s')) :
    s.Shifts s' (report.woken ++ report.timedOut.map Prod.fst) [] := by
  obtain ⟨hwoken, htimedOut⟩ := h.report_tick htick
  obtain ⟨-, rfl⟩ := Prod.ext_iff.mp (Except.ok.inj (htick.symm.trans h.tick_eq))
  rw [hwoken, htimedOut, ← List.filter_append]
  have hlater : s.Shifts s.later [] [] := .of_eq rfl rfl rfl
  exact hlater.trans (h.later.shifts_foldl_rung h.nodup_timed (fun _ => h.timed_of_mem) _)

/-- With a hand-over the new owner arrives at the ready queue, if there is one. -/
theorem Orderly.shifts_handOver (h : s.Orderly) (hx : s.mutexes.get? m = some x)
    (howner : x.owner = some owner) (ht : s.threads.get? owner = some t) {next : Option ThreadId}
    (hover : s.handOver m owner = .ok (next, s')) : s.Shifts s' next.toList [] := by
  cases hserved : x.waiters.takeHighest? (fun _ => true) with
  | none =>
    rw [h.handOver_of_no_waiters hx ht hserved] at hover
    obtain ⟨rfl, rfl⟩ := Prod.mk.inj (Except.ok.inj hover)
    exact shifts_freed s m owner
  | some served =>
    obtain ⟨heir, waiters⟩ := served
    obtain ⟨u, hu, hwanted, -, heq⟩ := h.handOver_of_waiter hx howner ht hserved
    obtain ⟨rfl, rfl⟩ := Prod.mk.inj (Except.ok.inj (hover.symm.trans heq))
    have hstate := ((h.tidy hu).waiting_of_wanted hwanted).1
    exact (h.shifts_resigned hu (by simp [hstate]) m u.priority).trans (shifts_transferred ..)

theorem Orderly.shifts_handOverAll (h : s.Orderly) (ht : s.threads.get? id = some t)
    {ms : List MutexId} (hheld : t.held = ms) {handoffs : List (MutexId × ThreadId)}
    (hover : s.handOverAll id ms = .ok (handoffs, s')) :
    s.Shifts s' (handoffs.map Prod.snd) [] := by
  -- On the mutexes that are still held, as in `Orderly.handOverAll`.
  induction ms generalizing s s' t handoffs with
  | nil =>
    obtain ⟨rfl, rfl⟩ := Prod.mk.inj (Except.ok.inj hover)
    exact .of_eq rfl rfl rfl
  | cons m rest ih =>
    obtain ⟨x, hx, howner⟩ := (h.owned.owner_iff m id).mpr ⟨t, ht, by simp [hheld]⟩
    obtain ⟨next, s₁, heq, horderly, -, hnext, hget⟩ := h.handOver hx howner ht
    have ht₁ : s₁.threads.get? id = some (t.letGo m) := by
      have hnot : next ≠ some id := fun hid => (hnext id hid).1 rfl
      rw [hget, if_neg hnot, if_pos rfl, ht, Option.map_some]
    have hfirst := h.shifts_handOver hx howner ht heq
    rw [Scheduler.handOverAll] at hover
    obtain ⟨_, hnow, hover⟩ := bind_eq_ok hover
    obtain rfl := Except.ok.inj (heq.symm.trans hnow)
    obtain ⟨⟨later, s₂⟩, hrest, hover⟩ := bind_eq_ok hover
    have hlater := ih horderly ht₁ ((h.tidy ht).letGo_of_held hheld).2 hrest
    cases next with
    | none =>
      obtain ⟨rfl, rfl⟩ := Prod.mk.inj (Except.ok.inj hover)
      exact hfirst.trans hlater
    | some heir =>
      obtain ⟨rfl, rfl⟩ := Prod.mk.inj (Except.ok.inj hover)
      exact hfirst.trans hlater

end Scheduler

end CoopKernel
