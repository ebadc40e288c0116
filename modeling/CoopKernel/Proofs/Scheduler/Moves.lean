import CoopKernel.Proofs.Scheduler.Orderly

/-!
# Moves of one thread

Most of what a scheduler does moves one thread from one place to another. For each such move there
are two statements: an equation that says which state comes out, without failure, and that this
state is orderly again. The moves are

* `makeReady` and `requeueCurrent` — from nowhere to the ready queue;
* `pickNext` — from the head of the ready queue to the processor;
* `block` — from nowhere to a wait list;
* `wake` — from a wait list to the ready queue.
-/

namespace CoopKernel

/-! ## Operations in sequence -/

/-- What succeeds has succeeded in its first part. -/
theorem bind_eq_ok {σ α β : Type} {x : Except σ α} {f : α → Except σ β} {b : β}
    (h : x >>= f = .ok b) : ∃ a, x = .ok a ∧ f a = .ok b := by
  cases x with
  | error error => cases h
  | ok a => exact ⟨a, rfl, h⟩

theorem mapError_eq_ok {σ τ α : Type} {x : Except σ α} {f : σ → τ} {a : α}
    (h : x.mapError f = .ok a) : x = .ok a := by
  cases x with
  | error error => cases h
  | ok b => exact congrArg Except.ok (Except.ok.inj h)

end CoopKernel

namespace CoopKernel.Scheduler

variable {κ : Type} {s : Scheduler κ} {id : ThreadId} {t : Thread κ}

/-! ## Changing one record -/

theorem get?_update (s : Scheduler κ) (id other : ThreadId) (f : Thread κ → Thread κ) :
    (s.update id f).threads.get? other =
      if other = id then (s.threads.get? id).map f else s.threads.get? other :=
  Registry.get?_modify s.threads id other f

theorem expect_eq (ht : s.threads.get? id = some t) : s.expect id = .ok t := by
  rw [expect, ht]

theorem find_eq (ht : s.threads.get? id = some t) : s.find id = .ok t := by
  rw [find, ht]

theorem find_eq_error (ht : s.threads.get? id = none) : s.find id = .error .invalidId := by
  rw [find, ht]

theorem currentPriority_eq (hcurrent : s.current = some id) (ht : s.threads.get? id = some t) :
    s.currentPriority = .ok t.priority := by
  rw [currentPriority, hcurrent]
  show (s.expect id >>= fun thread => pure thread.priority) = _
  rw [expect_eq ht]
  rfl

theorem outranksCurrent_eq (hcurrent : s.current = some id) (ht : s.threads.get? id = some t)
    {other : ThreadId} {u : Thread κ} (hu : s.threads.get? other = some u) :
    s.outranksCurrent other = .ok (decide (t.priority < u.priority)) := by
  rw [outranksCurrent, expect_eq hu, currentPriority_eq hcurrent ht]
  rfl

theorem place_eq (ht : s.threads.get? id = some t) : s.place id = t.place := by
  rw [place, ht, Option.bind_some]

theorem place_update (ht : s.threads.get? id = some t) (f : Thread κ → Thread κ) :
    (s.update id f).place = Function.update s.place id (f t).place := by
  funext other
  rw [place, get?_update, Function.update_apply]
  split
  · rw [ht, Option.map_some, Option.bind_some]
  · rfl

/-- Ownership is kept by a change that leaves priority, mutexes held and mutex wanted. -/
theorem Owned.modify {threads : Registry .thread (Thread κ)} {mutexes : Registry .mutex Mutex}
    (h : Owned threads mutexes) {f : Thread κ → Thread κ} (ht : threads.get? id = some t)
    (hpriority : (f t).priority = t.priority) (hheld : (f t).held = t.held)
    (hwanted : (f t).wanted = t.wanted) : Owned (threads.modify id f) mutexes where
  owner_iff := by
    intro m other
    rw [h.owner_iff, Registry.get?_modify]
    grind
  mem_waiters := by
    intro m x hx other p
    rw [h.mem_waiters hx, Registry.get?_modify]
    grind
  nodup_waiters := h.nodup_waiters
  wanted_owned := by
    intro other u m hu hm
    rw [Registry.get?_modify] at hu
    have howned := fun v (hv : threads.get? other = some v) => h.wanted_owned (m := m) hv
    grind

/-- An orderly scheduler stays orderly when one record and the queues change together. -/
theorem Orderly.modify (h : s.Orderly) (ht : s.threads.get? id = some t) {f : Thread κ → Thread κ}
    {s' : Scheduler κ} (hthreads : s'.threads = s.threads.modify id f)
    (hmutexes : s'.mutexes.Ordered) (hcurrent : s'.current = s.current) (htidy : (f t).Tidy)
    (hrunning : (f t).state = .running → t.state = .running)
    (hqueued : Queued (Function.update s.place id (f t).place) s'.ready s'.waiting)
    (howned : Owned (s.threads.modify id f) s'.mutexes) : s'.Orderly where
  threads := hthreads ▸ h.threads.modify id f
  mutexes := hmutexes
  tidy := by
    intro other u hu
    rw [hthreads, Registry.get?_modify] at hu
    split at hu
    · rw [ht, Option.map_some, Option.some.injEq] at hu
      exact hu ▸ htidy
    · exact h.tidy hu
  running := by
    intro other u hu hstate
    rw [hthreads, Registry.get?_modify] at hu
    rw [hcurrent]
    split at hu
    · next heq =>
      rw [ht, Option.map_some, Option.some.injEq] at hu
      exact heq ▸ h.running ht (hrunning (hu ▸ hstate))
    · exact h.running hu hstate
  queued := by
    have hplace : s'.place = Function.update s.place id (f t).place := by
      rw [← place_update ht]
      funext other
      rw [place, place, hthreads]
      rfl
    rw [hplace]
    exact hqueued
  owned := hthreads ▸ howned

/-- A change that touches neither places nor mutexes. -/
theorem Orderly.update (h : s.Orderly) (ht : s.threads.get? id = some t) {f : Thread κ → Thread κ}
    (htidy : (f t).Tidy) (hstate : (f t).state = t.state)
    (hwaiting : (f t).waitingFor = t.waitingFor) (hpriority : (f t).priority = t.priority)
    (hheld : (f t).held = t.held) (hwanted : (f t).wanted = t.wanted) :
    (s.update id f).Orderly := by
  have hplace : (f t).place = t.place := by
    rw [Thread.place, Thread.place, hstate, hwaiting, hpriority]
  refine h.modify ht rfl h.mutexes rfl htidy (fun hrunning => hstate ▸ hrunning) ?_
    (h.owned.modify ht hpriority hheld hwanted)
  rw [hplace, ← place_eq ht, Function.update_eq_self]
  exact h.queued

/-! ## Joining the ready queue -/

/-- The scheduler after a thread has joined the ready queue. -/
def readied (s : Scheduler κ) (id : ThreadId) (p : Priority) : Scheduler κ :=
  { s.update id fun t => { t with state := .ready } with ready := s.ready.push p id }

theorem makeReady_eq (ht : s.threads.get? id = some t) :
    s.makeReady id = .ok (s.readied id t.priority) := by
  rw [makeReady, expect_eq ht]
  rfl

theorem get?_readied (s : Scheduler κ) (id other : ThreadId) (p : Priority) :
    (s.readied id p).threads.get? other =
      if other = id then (s.threads.get? id).map fun t => { t with state := .ready }
      else s.threads.get? other :=
  get?_update s id other _

theorem level_readied (s : Scheduler κ) (id : ThreadId) (p q : Priority) :
    (s.readied id p).ready.level q =
      s.ready.level q ++ if p = q then [id] else [] :=
  LevelQueue.level_push_append ..

theorem Orderly.readied (h : s.Orderly) (ht : s.threads.get? id = some t)
    (hstate : t.state = .dead ∨ t.state = .running) : (s.readied id t.priority).Orderly := by
  have hplace : s.place id = none := by
    rw [place_eq ht, Thread.place]
    rcases hstate with hdead | hrunning
    · rw [hdead]
    · rw [hrunning]
  have htidy := h.tidy ht
  have hnotWaiting : t.state ≠ .waiting := by
    rcases hstate with hdead | hrunning
    · simp [hdead]
    · simp [hrunning]
  have hwaitingFor : t.waitingFor = none := htidy.waitingFor_eq_none hnotWaiting
  refine h.modify (f := fun t => { t with state := .ready }) ht rfl h.mutexes rfl ?_ (by simp)
    (h.queued.join_ready hplace t.priority) (h.owned.modify ht rfl rfl rfl)
  exact ⟨by simp [hwaitingFor], htidy.countdown, htidy.wanted_iff, htidy.held⟩

theorem requeueCurrent_eq (hcurrent : s.current = some id) (ht : s.threads.get? id = some t)
    (hstate : t.state = .running) : s.requeueCurrent = .ok (s.readied id t.priority) := by
  rw [requeueCurrent, hcurrent]
  show (s.expect id >>= fun thread =>
    if thread.state = .running then s.makeReady id else return s) = _
  rw [expect_eq ht, ← makeReady_eq ht]
  exact if_pos hstate

/-! ## Getting the processor -/

/-- The scheduler after a ready thread has got the processor. -/
def dispatched (s : Scheduler κ) (id : ThreadId) (p : Priority) : Scheduler κ :=
  { s.update id fun t => { t with state := .running } with
    ready := s.ready.erase p id, current := some id }

theorem get?_dispatched (s : Scheduler κ) (id other : ThreadId) (p : Priority) :
    (s.dispatched id p).threads.get? other =
      if other = id then (s.threads.get? id).map fun t => { t with state := .running }
      else s.threads.get? other :=
  get?_update s id other _

theorem level_dispatched (s : Scheduler κ) (id : ThreadId) (p q : Priority) :
    (s.dispatched id p).ready.level q =
      if q = p then (s.ready.level p).erase id else s.ready.level q :=
  LevelQueue.level_erase ..

/-- If somebody is ready, a ready thread that no other ready thread outranks is picked. -/
theorem Orderly.pickNext_eq (h : s.Orderly) {other : ThreadId} {u : Thread κ}
    (hother : s.threads.get? other = some u) (hready : u.state = .ready) :
    ∃ id t, s.threads.get? id = some t ∧ t.state = .ready ∧
      (∀ j v, s.threads.get? j = some v → v.state = .ready → v.priority ≤ t.priority) ∧
      s.pickNext = .ok ({ source := s.current, target := id }, s.dispatched id t.priority) := by
  have hplaceOf : ∀ {j v}, s.threads.get? j = some v → v.state = .ready →
      s.place j = some (.ready v.priority) := by
    intro j v hv hstate
    rw [place_eq hv, Thread.place, hstate]
  obtain ⟨⟨id, ready⟩, htaken⟩ := LevelQueue.exists_takeHighest?_true
    ((h.queued.mem_ready _ _).mpr (hplaceOf hother hready))
  obtain ⟨p, rest, hlevel, hrest, habove⟩ := LevelQueue.takeHighest?_true htaken
  have hplace : s.place id = some (.ready p) :=
    (h.queued.mem_ready _ _).mp (hlevel ▸ List.mem_cons_self)
  obtain ⟨t, ht, htplace⟩ := Option.bind_eq_some_iff.mp hplace
  have htready : t.state = .ready ∧ t.priority = p := Thread.place_eq_ready_iff.mp htplace
  refine ⟨id, t, ht, htready.1, ?_, ?_⟩
  · -- The levels above the one that is served are empty.
    intro j v hv hvready
    rw [htready.2, ← Priority.not_lt]
    intro hlt
    have hmem := (h.queued.mem_ready _ _).mpr (hplaceOf hv hvready)
    rw [habove _ hlt] at hmem
    exact List.not_mem_nil hmem
  · rw [pickNext, htaken]
    show (s.expect id >>= fun _ => _) = _
    rw [expect_eq ht, htready.2, hrest]
    rfl

/-- If somebody is picked, it is the first thread of its level, and nobody stands above. -/
theorem Orderly.pickNext_front (h : s.Orderly) {switch : Switch} {s' : Scheduler κ}
    (hpick : s.pickNext = .ok (switch, s')) :
    ∃ id t rest, s.threads.get? id = some t ∧ t.state = .ready ∧
      s.ready.level t.priority = id :: rest ∧ (∀ p, t.priority < p → s.ready.level p = []) ∧
      switch = { source := s.current, target := id } ∧ s' = s.dispatched id t.priority := by
  cases htaken : s.ready.takeHighest? fun _ => true with
  | none =>
    rw [pickNext, htaken] at hpick
    cases hpick
  | some taken =>
    obtain ⟨id, ready⟩ := taken
    obtain ⟨p, rest, hlevel, rfl, habove⟩ := LevelQueue.takeHighest?_true htaken
    have hplace : s.place id = some (.ready p) :=
      (h.queued.mem_ready _ _).mp (hlevel ▸ List.mem_cons_self)
    obtain ⟨t, ht, htplace⟩ := Option.bind_eq_some_iff.mp hplace
    obtain ⟨hready, rfl⟩ := Thread.place_eq_ready_iff.mp htplace
    refine ⟨id, t, rest, ht, hready, hlevel, habove, ?_⟩
    rw [pickNext, htaken] at hpick
    obtain ⟨u, -, hpick⟩ := bind_eq_ok hpick
    obtain ⟨rfl, rfl⟩ := Prod.mk.inj (Except.ok.inj hpick)
    exact ⟨rfl, rfl⟩

/-- If somebody is picked, it is a ready thread. -/
theorem Orderly.pickNext_eq_ok (h : s.Orderly) {switch : Switch} {s' : Scheduler κ}
    (hpick : s.pickNext = .ok (switch, s')) :
    ∃ id t, s.threads.get? id = some t ∧ t.state = .ready ∧
      switch = { source := s.current, target := id } ∧ s' = s.dispatched id t.priority := by
  obtain ⟨id, t, _, ht, hready, -, -, hswitch, hs'⟩ := h.pickNext_front hpick
  exact ⟨id, t, ht, hready, hswitch, hs'⟩

theorem Orderly.dispatched (h : s.Orderly) (ht : s.threads.get? id = some t)
    (hready : t.state = .ready)
    (hnone : ∀ j v, s.threads.get? j = some v → v.state ≠ .running) :
    (s.dispatched id t.priority).Orderly := by
  have htidy := h.tidy ht
  have hwaitingFor : t.waitingFor = none := htidy.waitingFor_eq_none (by simp [hready])
  have hplace : s.place id = some (.ready t.priority) := by
    rw [place_eq ht, Thread.place, hready]
  have howned : Owned (s.threads.modify id fun t => { t with state := .running }) s.mutexes :=
    h.owned.modify ht rfl rfl rfl
  have hthreads : (s.threads.modify id fun t => { t with state := .running }).Ordered :=
    h.threads.modify id _
  refine ⟨hthreads, h.mutexes, ?_, ?_, ?_, howned⟩
  · intro other u hu
    rw [get?_dispatched] at hu
    split at hu
    · rw [ht, Option.map_some, Option.some.injEq] at hu
      subst hu
      exact ⟨by simp [hwaitingFor], htidy.countdown, htidy.wanted_iff, htidy.held⟩
    · exact h.tidy hu
  · intro other u hu hstate
    rw [get?_dispatched] at hu
    split at hu
    · next heq => rw [heq]; rfl
    · exact absurd hstate (hnone other u hu)
  · have hnow : (s.dispatched id t.priority).place = Function.update s.place id none :=
      place_update ht _
    rw [hnow]
    exact h.queued.leave_ready hplace

/-! ## Beginning to wait -/

/-- The scheduler after a thread has joined a wait list. -/
def suspended (s : Scheduler κ) (id : ThreadId) (reason : WaitReason) (timeout : Timeout) :
    Scheduler κ :=
  { s.update id fun t => { t.arm reason timeout with state := .waiting } with
    waiting := s.waiting.add reason id }

theorem block_eq (ht : s.threads.get? id = some t) (reason : WaitReason) (timeout : Timeout) :
    s.block id reason timeout = .ok (s.suspended id reason timeout) := by
  rw [block, expect_eq ht]
  rfl

theorem get?_suspended (s : Scheduler κ) (id other : ThreadId) (reason : WaitReason)
    (timeout : Timeout) :
    (s.suspended id reason timeout).threads.get? other =
      if other = id then
        (s.threads.get? id).map fun t => { t.arm reason timeout with state := .waiting }
      else s.threads.get? other :=
  get?_update s id other _

theorem Orderly.suspended (h : s.Orderly) (ht : s.threads.get? id = some t)
    (hstate : t.state = .running) {reason : WaitReason} (hreason : reason ≠ .mutex)
    (timeout : Timeout) : (s.suspended id reason timeout).Orderly := by
  have hplace : s.place id = none := by rw [place_eq ht, Thread.place, hstate]
  have htidy := h.tidy ht
  have hwanted : t.wanted = none := htidy.wanted_eq_none (by simp [hstate])
  refine h.modify (f := fun t => { t.arm reason timeout with state := .waiting }) ht rfl h.mutexes
    rfl ?_ (by simp) (h.queued.join_waiting hplace reason) (h.owned.modify ht rfl rfl rfl)
  exact ⟨by simp [Thread.arm], by simp [Thread.arm], by simp [Thread.arm, hwanted, hreason],
    htidy.held⟩

/-! ## Ending a wait -/

/-- The scheduler after a thread has gone from a wait list to the ready queue. -/
def awakened (s : Scheduler κ) (id : ThreadId) (p : Priority) (reason : WaitReason) :
    Scheduler κ :=
  { s.update id fun t => { t.disarm with state := .ready } with
    ready := s.ready.push p id, waiting := s.waiting.remove reason id }

theorem wake_eq {reason : WaitReason} (ht : s.threads.get? id = some t)
    (hreason : t.waitingFor = some reason) :
    s.wake id = .ok (s.awakened id t.priority reason) := by
  -- The scheduler between the two halves of the move, when the thread stands nowhere.
  let between : Scheduler κ :=
    { s.update id Thread.disarm with waiting := s.waiting.remove reason id }
  have hstop : s.stopWaiting id = .ok between := by
    rw [stopWaiting, expect_eq ht]
    simp only [bind, Except.bind, hreason]
    rfl
  have hdisarmed : between.threads.get? id = some t.disarm := by
    show (s.update id Thread.disarm).threads.get? id = _
    rw [get?_update, if_pos rfl, ht, Option.map_some]
  rw [wake, hstop]
  refine (makeReady_eq hdisarmed).trans ?_
  simp only [between, Scheduler.readied, Scheduler.awakened, Scheduler.update,
    Registry.modify_modify]
  rfl

theorem get?_awakened (s : Scheduler κ) (id other : ThreadId) (p : Priority)
    (reason : WaitReason) :
    (s.awakened id p reason).threads.get? other =
      if other = id then (s.threads.get? id).map fun t => { t.disarm with state := .ready }
      else s.threads.get? other :=
  get?_update s id other _

theorem Orderly.awakened (h : s.Orderly) (ht : s.threads.get? id = some t) {reason : WaitReason}
    (hreason : t.waitingFor = some reason) (hnotMutex : reason ≠ .mutex) :
    (s.awakened id t.priority reason).Orderly := by
  have htidy := h.tidy ht
  have hplace : s.place id = some (.waiting reason) := by
    rw [place_eq ht, htidy.place_waiting hreason]
  have hwanted : ¬ t.wanted.isSome := by
    rw [htidy.wanted_iff, hreason]
    simp [hnotMutex]
  refine h.modify (f := fun t => { t.disarm with state := .ready }) ht rfl h.mutexes rfl ?_
    (by simp) ?_ (h.owned.modify ht rfl rfl rfl)
  · exact ⟨by simp [Thread.disarm], by simp [Thread.disarm],
      by simpa [Thread.disarm] using hwanted, htidy.held⟩
  · have hleft := h.queued.leave_waiting hplace
    have hjoined := hleft.join_ready (Function.update_self id none s.place) t.priority
    rw [Function.update_idem] at hjoined
    exact hjoined

end CoopKernel.Scheduler
