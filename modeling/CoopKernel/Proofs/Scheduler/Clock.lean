import CoopKernel.Proofs.Scheduler.Rousing
import CoopKernel.Scheduler.Clock

/-!
# The clock

A tick takes the threads off a wait list, looks at each, and puts those back whose wait goes on.
While it is at work the list is incomplete, and no scheduler in between is orderly. The schedulers
that are orderly are those with the threads still to be looked at put back (`Scheduler.putBack`),
and seen through them a tick is a sequence of moves that are known already: a countdown, a wake-up
(`Scheduler.awakened`), a wait for a mutex that runs out (`Scheduler.resigned`).

A thread that waits for a mutex never holds it (`Owned.not_ownsWanted`), so that a tick finds no
waiter that owns what it waits for (`Orderly.not_ownsWanted_of_turn`).
-/

namespace CoopKernel.Scheduler

variable {κ : Type} {s : Scheduler κ} {id : ThreadId} {t : Thread κ} {rest : List ThreadId}

/-! ## Countdowns -/

/-- The record of a thread that has been counted down by one tick. -/
def counted (t : Thread κ) : Thread κ := { t with countdown := t.countdown.next }

/-- Puts threads back at the end of a wait list. -/
def putBack (s : Scheduler κ) (reason : WaitReason) (rest : List ThreadId) : Scheduler κ :=
  { s with waiting := s.waiting.set reason (s.waiting.get reason ++ rest) }

theorem countDown_eq (ho : s.threads.Ordered) (ht : s.threads.get? id = some t) :
    s.countDown id = .ok (t.countdown.next.expired, s.update id counted) := by
  rw [countDown, expect_eq ht]
  have hthreads : (s.threads.modify id fun u => { u with countdown := t.countdown.next }) =
      s.threads.modify id counted := by
    apply Registry.modify_congr ho
    intro u hu
    obtain rfl : t = u := Option.some.inj (ht.symm.trans hu)
    rfl
  show Except.ok (_, s.update id fun u => { u with countdown := t.countdown.next }) = _
  rw [Scheduler.update, hthreads]
  rfl

theorem Orderly.counted (h : s.Orderly) (ht : s.threads.get? id = some t)
    (hstate : t.state = .waiting) : (s.update id counted).Orderly := by
  have htidy := h.tidy ht
  refine h.update ht ?_ rfl rfl rfl rfl rfl
  refine ⟨htidy.waiting_iff, ?_, htidy.wanted_iff, htidy.held⟩
  intro hnone
  have hsome := htidy.waiting_iff.mp hstate
  rw [show t.waitingFor = none from hnone] at hsome
  simp at hsome

theorem roused_counted (ht : s.threads.get? id = some t) : s.Roused (s.update id counted) :=
  .of_modify rfl rfl ht ⟨rfl, rfl, rfl, fun _ => rfl, .inl ⟨rfl, rfl, rfl⟩⟩

/-! ## One thread -/

/-- The first thread that is put back waits for the reason of the list. -/
theorem Orderly.exists_of_putBack {reason : WaitReason}
    (h : (s.putBack reason (id :: rest)).Orderly) :
    ∃ t, s.threads.get? id = some t ∧ t.waitingFor = some reason ∧ t.state = .waiting := by
  have hmem : id ∈ (s.putBack reason (id :: rest)).waiting.get reason := by
    simp [putBack]
  obtain ⟨t, ht, hplace⟩ := Option.bind_eq_some_iff.mp ((h.queued.mem_waiting _ _).mp hmem)
  obtain ⟨hstate, hreason⟩ := Thread.place_eq_waiting_iff.mp hplace
  exact ⟨t, ht, hreason, hstate⟩

/-- A thread that goes back to the list stands where it stood. -/
theorem putBack_add (s : Scheduler κ) (reason : WaitReason) (id : ThreadId)
    (rest : List ThreadId) :
    ({ s with waiting := s.waiting.add reason id } : Scheduler κ).putBack reason rest =
      s.putBack reason (id :: rest) := by
  simp only [putBack, WaitLists.add, WaitLists.set_set, WaitLists.get_set_self,
    List.append_assoc, List.singleton_append]

/-- A thread that does not go back to the list has left it. -/
theorem remove_putBack {reason : WaitReason}
    (hnodup : ((s.putBack reason (id :: rest)).waiting.get reason).Nodup) :
    (s.putBack reason (id :: rest)).waiting.remove reason id =
      (s.putBack reason rest).waiting := by
  simp only [putBack, WaitLists.get_set_self] at hnodup
  have hnot : id ∉ s.waiting.get reason := fun hmem =>
    (List.nodup_append.mp hnodup).2.2 id hmem id List.mem_cons_self rfl
  have hrest : (s.waiting.get reason ++ id :: rest).filter (· != id) =
      s.waiting.get reason ++ rest := by
    rw [← hnodup.erase_eq_filter, List.erase_append_right _ hnot, List.erase_cons_head]
  simp only [putBack, WaitLists.remove, WaitLists.set_set, WaitLists.get_set_self, hrest]

/-- A thread that wakes up instead of going back to the list. -/
theorem awakened_putBack {reason : WaitReason} (p : Priority)
    (hnodup : ((s.putBack reason (id :: rest)).waiting.get reason).Nodup) :
    (s.putBack reason (id :: rest)).awakened id p reason =
      ((s.update id Thread.disarm).readied id p).putBack reason rest := by
  rw [Scheduler.awakened, remove_putBack hnodup]
  simp only [Scheduler.readied, Scheduler.update, Registry.modify_modify]
  rfl

/-- A thread that stops waiting for a mutex instead of going back to the list. -/
theorem resigned_putBack {m : MutexId} (p : Priority)
    (hnodup : ((s.putBack .mutex (id :: rest)).waiting.get .mutex).Nodup) :
    (s.putBack .mutex (id :: rest)).resigned m id p =
      (((s.update id fun t => { t.disarm with wanted := none }).updateMutex m
        (·.stopWaiting id)).readied id p).putBack .mutex rest := by
  rw [Scheduler.resigned, remove_putBack hnodup]
  simp only [Scheduler.readied, Scheduler.update, updateMutex, Registry.modify_modify]
  rfl

/-- The report after a tick has looked at a thread. -/
def noted (report : TickReport) (id : ThreadId) (t : Thread κ) : TickReport :=
  if t.countdown.next.expired then
    match t.wanted with
    | none => { report with woken := report.woken ++ [id] }
    | some m => { report with timedOut := report.timedOut ++ [(id, m)] }
  else report

/-- The scheduler after a tick has looked at a thread: it is counted down, and stops waiting if
nothing is left of its wait. -/
def chimed (s : Scheduler κ) (id : ThreadId) (t : Thread κ) : Scheduler κ :=
  if t.countdown.next.expired then
    match t.wanted with
    | none => (s.update id counted).awakened id t.priority .sleep
    | some m => (s.update id counted).resigned m id t.priority
  else s.update id counted

/-- What is looked at is a list of threads, and each of them chimes when its turn comes, seen with
the threads after it put back. -/
def LooksAt (reason : WaitReason)
    (look : Scheduler κ × TickReport → ThreadId → Except Invariant (Scheduler κ × TickReport)) :
    Prop :=
  ∀ {s : Scheduler κ} {id rest t}, (s.putBack reason (id :: rest)).Orderly →
    s.threads.get? id = some t → ∀ report, ∃ s', look (s, report) id = .ok (s', noted report id t) ∧
      s'.ticks = s.ticks ∧ s'.putBack reason rest = (s.putBack reason (id :: rest)).chimed id t

theorem looksAt_tickSleeper : LooksAt (κ := κ) .sleep tickSleeper := by
  intro s id rest t h ht report
  obtain ⟨_, ht', hreason, -⟩ := h.exists_of_putBack
  obtain rfl := Option.some.inj (ht.symm.trans ht')
  -- A sleeping thread wants no mutex.
  have hwanted : t.wanted = none := by
    rw [← Option.not_isSome_iff_eq_none,
      (h.tidy (show (s.putBack .sleep (id :: rest)).threads.get? id = some t from ht)).wanted_iff,
      hreason]
    simp
  have hcount : s.countDown id = _ := countDown_eq h.threads ht
  rw [Scheduler.tickSleeper, hcount, noted, Scheduler.chimed, hwanted]
  show ∃ s', (if t.countdown.next.expired then _ else _) = _ ∧ _
  cases t.countdown.next.expired with
  | false => exact ⟨_, rfl, rfl, putBack_add (s.update id Scheduler.counted) .sleep id rest⟩
  | true =>
    have hdisarmed : ((s.update id Scheduler.counted).update id Thread.disarm).threads.get? id =
        some (Scheduler.counted t).disarm := by
      rw [get?_update, if_pos rfl, get?_update, if_pos rfl, ht, Option.map_some, Option.map_some]
    have hview := awakened_putBack (s := s.update id Scheduler.counted) t.priority
      (h.queued.nodup_waiting .sleep)
    rw [if_pos rfl, makeReady_eq hdisarmed]
    exact ⟨_, rfl, rfl, hview.symm⟩

/-- Nobody holds the mutex it waits for: a hand-over ends the wait at once. -/
theorem Owned.not_ownsWanted {threads : Registry .thread (Thread κ)}
    {mutexes : Registry .mutex Mutex} (h : Owned threads mutexes)
    (ht : threads.get? id = some t) : t.ownsWanted = false := by
  rw [Thread.ownsWanted]
  cases hwanted : t.wanted with
  | none => rfl
  | some m =>
    obtain ⟨x, owner, hx, howner, hne⟩ := h.wanted_owned ht hwanted
    rw [Option.any_some, ← Bool.not_eq_true, List.contains_iff_mem]
    intro hheld
    have hself := (h.owner_eq_iff hx ht).mpr hheld
    exact hne (Option.some.inj (howner.symm.trans hself))

theorem looksAt_tickMutexWaiter : LooksAt (κ := κ) .mutex tickMutexWaiter := by
  intro s id rest t h ht report
  have hlisted : (s.putBack .mutex (id :: rest)).threads.get? id = some t := ht
  obtain ⟨_, ht', hreason, -⟩ := h.exists_of_putBack
  obtain rfl := Option.some.inj (ht.symm.trans ht')
  obtain ⟨m, hwanted⟩ := Option.isSome_iff_exists.mp ((h.tidy hlisted).wanted_iff.mpr hreason)
  have hcount : s.countDown id = _ := countDown_eq h.threads ht
  have hcounted : (s.update id Scheduler.counted).threads.get? id =
      some (Scheduler.counted t) := by
    rw [get?_update, if_pos rfl, ht, Option.map_some]
  have howns : t.ownsWanted = false := h.owned.not_ownsWanted hlisted
  have hwanted' : (Scheduler.counted t).wanted = some m := hwanted
  rw [Scheduler.tickMutexWaiter, hcount, noted, Scheduler.chimed, hwanted]
  show ∃ s', ((s.update id Scheduler.counted).expect id >>= fun thread =>
    if thread.ownsWanted then _ else if t.countdown.next.expired then _ else _) = _ ∧ _
  rw [expect_eq hcounted]
  show ∃ s', (if t.ownsWanted then _
    else if t.countdown.next.expired then _ else _) = _ ∧ _
  rw [howns, if_neg Bool.false_ne_true]
  cases t.countdown.next.expired with
  | false => exact ⟨_, rfl, rfl, putBack_add (s.update id Scheduler.counted) .mutex id rest⟩
  | true =>
    have hready : (((s.update id Scheduler.counted).update id fun t =>
        { t.disarm with wanted := none }).updateMutex m (·.stopWaiting id)).threads.get? id =
        some { (Scheduler.counted t).disarm with wanted := none } := by
      show ((s.update id Scheduler.counted).update id _).threads.get? id = _
      rw [get?_update, if_pos rfl, hcounted, Option.map_some]
    have hview := resigned_putBack (s := s.update id Scheduler.counted) (m := m) t.priority
      (h.queued.nodup_waiting .mutex)
    rw [if_pos rfl, hwanted']
    show ∃ s', ((((s.update id Scheduler.counted).update id fun t =>
      { t.disarm with wanted := none }).updateMutex m (·.stopWaiting id)).makeReady id >>= _) =
        _ ∧ _
    rw [makeReady_eq hready]
    exact ⟨_, rfl, rfl, hview.symm⟩

/-- A thread that waits for time or for a mutex and chimes is at most roused by it. -/
theorem Orderly.chimed (h : s.Orderly) (ht : s.threads.get? id = some t) {reason : WaitReason}
    (hreason : t.waitingFor = some reason) (htimed : reason = .sleep ∨ reason = .mutex) :
    (s.chimed id t).Orderly ∧ s.Roused (s.chimed id t) := by
  have hstate : t.state = .waiting := (h.tidy ht).waiting_iff.mpr (by simp [hreason])
  have horderly := h.counted ht hstate
  have hroused := roused_counted ht
  have hcounted : (s.update id Scheduler.counted).threads.get? id =
      some (Scheduler.counted t) := by
    rw [get?_update, if_pos rfl, ht, Option.map_some]
  rw [Scheduler.chimed]
  split
  · split
    · next hwanted =>
      have hsleep : t.waitingFor = some .sleep := by
        rw [← Option.not_isSome_iff_eq_none, (h.tidy ht).wanted_iff, hreason] at hwanted
        rcases htimed with rfl | rfl
        · exact hreason
        · exact absurd rfl hwanted
      have hsleep' : (Scheduler.counted t).waitingFor = some .sleep := hsleep
      exact ⟨horderly.awakened hcounted hsleep' (by simp),
        hroused.trans (horderly.roused_awakened hcounted hsleep' (by simp))⟩
    · next m hwanted =>
      have hwanted' : (Scheduler.counted t).wanted = some m := hwanted
      have hmutex := ((horderly.tidy hcounted).waiting_of_wanted hwanted').2
      have hresigned := horderly.resigned hcounted hwanted'
      exact ⟨hresigned, hroused.trans (horderly.roused_resigned hcounted hmutex _)⟩
  · exact ⟨horderly, hroused⟩

/-- What looking at one thread of a list comes to, with the threads after it put back: order is kept
and nobody is more than roused. -/
def Ticked (reason : WaitReason) (rest : List ThreadId) (before after : Scheduler κ) : Prop :=
  (after.putBack reason rest).Orderly ∧ before.Roused (after.putBack reason rest) ∧
    after.ticks = before.ticks

theorem LooksAt.ticked {reason : WaitReason}
    {look : Scheduler κ × TickReport → ThreadId → Except Invariant (Scheduler κ × TickReport)}
    (hlook : LooksAt reason look) (htimed : reason = .sleep ∨ reason = .mutex)
    (h : (s.putBack reason (id :: rest)).Orderly) (report : TickReport) :
    ∃ out, look (s, report) id = .ok out ∧
      Ticked reason rest (s.putBack reason (id :: rest)) out.1 := by
  obtain ⟨t, ht, hreason, -⟩ := h.exists_of_putBack
  obtain ⟨s', heq, hticks, hview⟩ := hlook h ht report
  obtain ⟨horderly, hroused⟩ := h.chimed ht hreason htimed
  exact ⟨_, heq, hview ▸ horderly, hview ▸ hroused, hticks⟩

theorem Orderly.tickSleeper (h : (s.putBack .sleep (id :: rest)).Orderly) (report : TickReport) :
    ∃ out, tickSleeper (s, report) id = .ok out ∧
      Ticked .sleep rest (s.putBack .sleep (id :: rest)) out.1 :=
  looksAt_tickSleeper.ticked (.inl rfl) h report

theorem Orderly.tickMutexWaiter (h : (s.putBack .mutex (id :: rest)).Orderly)
    (report : TickReport) :
    ∃ out, tickMutexWaiter (s, report) id = .ok out ∧
      Ticked .mutex rest (s.putBack .mutex (id :: rest)) out.1 :=
  looksAt_tickMutexWaiter.ticked (.inr rfl) h report

/-! ## The whole list -/

/-- If looking at one thread goes well, so does looking at any number of them from the front. -/
theorem Orderly.foldlM_ticked {reason : WaitReason}
    {look : Scheduler κ × TickReport → ThreadId → Except Invariant (Scheduler κ × TickReport)}
    (hlook : ∀ {s : Scheduler κ} {id rest}, (s.putBack reason (id :: rest)).Orderly →
      ∀ report, ∃ out, look (s, report) id = .ok out ∧
        Ticked reason rest (s.putBack reason (id :: rest)) out.1)
    {front : List ThreadId} (h : (s.putBack reason (front ++ rest)).Orderly) (report : TickReport) :
    ∃ out, front.foldlM look (s, report) = .ok out ∧
      Ticked reason rest (s.putBack reason (front ++ rest)) out.1 := by
  -- After each look there is one thread less to put back, until only `rest` is left.
  induction front generalizing s report with
  | nil => exact ⟨(s, report), rfl, h, .refl _, rfl⟩
  | cons id front ih =>
    obtain ⟨⟨s₁, report₁⟩, heq, horderly, hroused, hticks⟩ := hlook h report
    obtain ⟨out, heqRest, horderly', hroused', hticks'⟩ := ih horderly report₁
    refine ⟨out, ?_, horderly', hroused.trans hroused', hticks'.trans hticks⟩
    rw [List.foldlM_cons, heq]
    exact heqRest

theorem putBack_nil (s : Scheduler κ) (reason : WaitReason) : s.putBack reason [] = s := by
  rw [putBack, List.append_nil, WaitLists.set_get]

/-- Taking a list off and putting all of it back is doing nothing. -/
theorem putBack_taken (s : Scheduler κ) (reason : WaitReason) :
    ({ s with waiting := s.waiting.set reason [] } : Scheduler κ).putBack reason
      (s.waiting.get reason) = s := by
  simp only [putBack, WaitLists.get_set_self, WaitLists.set_set, List.nil_append, WaitLists.set_get]

/-- The sleeping threads at a tick. -/
theorem Orderly.tickSleepers (h : s.Orderly) :
    ∃ s₁ report, s.waiting.sleep.foldlM Scheduler.tickSleeper
        ({ s with ticks := s.ticks + 1, waiting := s.waiting.set .sleep [] },
          { tick := s.ticks + 1 }) = .ok (s₁, report) ∧
      s₁.Orderly ∧ s.Roused s₁ ∧ s₁.ticks = s.ticks + 1 := by
  let later : Scheduler κ := { s with ticks := s.ticks + 1 }
  have hlater : later.Orderly := ⟨h.threads, h.mutexes, h.tidy, h.running, h.queued, h.owned⟩
  have hroused : s.Roused later := ⟨rfl, fun ht => ⟨_, ht, .refl _⟩, fun ht => ⟨_, ht, .refl _⟩⟩
  rw [← putBack_taken later .sleep, ← List.append_nil (later.waiting.get .sleep)] at hlater
  obtain ⟨⟨s₁, report⟩, heq, horderly, hroused₁, hticks⟩ :=
    hlater.foldlM_ticked (fun h => h.tickSleeper) { tick := s.ticks + 1 }
  rw [putBack_nil] at horderly hroused₁
  rw [List.append_nil, putBack_taken] at hroused₁
  exact ⟨s₁, report, heq, horderly, hroused.trans hroused₁, hticks⟩

/-- A tick never fails, keeps order, and at most ends waits for time and for mutexes. -/
theorem Orderly.tick (h : s.Orderly) :
    ∃ report s', s.tick = .ok (report, s') ∧ s'.Orderly ∧ s.Roused s' ∧ s'.ticks = s.ticks + 1 := by
  obtain ⟨s₁, report₁, heq₁, horderly₁, hroused₁, hticks₁⟩ := h.tickSleepers
  rw [← putBack_taken s₁ .mutex, ← List.append_nil (s₁.waiting.get .mutex)] at horderly₁
  obtain ⟨⟨s₂, report₂⟩, heq₂, horderly₂, hroused₂, hticks₂⟩ :=
    horderly₁.foldlM_ticked (fun h => h.tickMutexWaiter) report₁
  rw [putBack_nil] at horderly₂ hroused₂
  rw [List.append_nil, putBack_taken] at hroused₂
  refine ⟨report₂, s₂, ?_, horderly₂, hroused₁.trans hroused₂, hticks₂.trans hticks₁⟩
  rw [Scheduler.tick]
  show (s.waiting.sleep.foldlM Scheduler.tickSleeper _ >>= _) = _
  rw [heq₁]
  show ((s₁.waiting.get .mutex).foldlM Scheduler.tickMutexWaiter
    ({ s₁ with waiting := s₁.waiting.set .mutex [] }, report₁) >>= _) = _
  rw [heq₂]
  rfl

/-- The record of a thread that waits for a mutex as a tick finds it when it gets to the thread. -/
def MutexTurn (s : Scheduler κ) (id : ThreadId) (t : Thread κ) : Prop :=
  ∃ s₁ report₁ front rest s₂ report₂ expired s₃,
    s.waiting.sleep.foldlM Scheduler.tickSleeper
      ({ s with ticks := s.ticks + 1, waiting := s.waiting.set .sleep [] },
        { tick := s.ticks + 1 }) = .ok (s₁, report₁) ∧
    s₁.waiting.mutex = front ++ id :: rest ∧
    front.foldlM Scheduler.tickMutexWaiter
      ({ s₁ with waiting := s₁.waiting.set .mutex [] }, report₁) = .ok (s₂, report₂) ∧
    s₂.countDown id = .ok (expired, s₃) ∧ s₃.expect id = .ok t

/-- No thread owns the mutex it waits for when a tick gets to it. -/
theorem Orderly.not_ownsWanted_of_turn (h : s.Orderly) (hturn : s.MutexTurn id t) :
    t.ownsWanted = false := by
  obtain ⟨s₁, report₁, front, rest, s₂, report₂, expired, s₃, hsleepers, hlist, hfront, hcount,
    hexpect⟩ := hturn
  have horderly₁ : s₁.Orderly := by
    obtain ⟨s₁', report₁', heq, horderly, -, -⟩ := h.tickSleepers
    rw [hsleepers] at heq
    obtain ⟨rfl, -⟩ := Prod.ext_iff.mp (Except.ok.inj heq)
    exact horderly
  rw [← putBack_taken s₁ .mutex, show s₁.waiting.get .mutex = _ from hlist] at horderly₁
  have horderly₂ : (s₂.putBack .mutex (id :: rest)).Orderly := by
    obtain ⟨out, heq, horderly, -, -⟩ :=
      horderly₁.foldlM_ticked (fun h => h.tickMutexWaiter) report₁
    rw [hfront] at heq
    obtain rfl := Except.ok.inj heq
    exact horderly
  obtain ⟨u, hu, -, -⟩ := horderly₂.exists_of_putBack
  have hordered : s₂.threads.Ordered := horderly₂.threads
  rw [countDown_eq hordered hu] at hcount
  obtain ⟨-, rfl⟩ := Prod.ext_iff.mp (Except.ok.inj hcount)
  have hcounted : (s₂.update id Scheduler.counted).threads.get? id =
      some (Scheduler.counted u) := by
    rw [get?_update, if_pos rfl, hu, Option.map_some]
  rw [expect_eq hcounted] at hexpect
  obtain rfl := Except.ok.inj hexpect
  have howns : u.ownsWanted = false := horderly₂.owned.not_ownsWanted hu
  exact howns

end CoopKernel.Scheduler
