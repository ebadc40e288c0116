import Mathlib.Data.List.Induction
import CoopKernel.Proofs.Scheduler.Clock
import CoopKernel.Proofs.Scheduler.Termination

/-!
# Ticks, thread by thread

A tick goes through two lists and changes the records of the threads in them, one after the other.
It takes each list apart while it goes through it, but what comes out is as if the lists had stood
still: the threads of the first list and then those of the second, each in its turn, are counted
down where they stand or made ready (`rung`, `Orderly.tick_eq`).

No thread is in both lists and none is in a list twice, so the outcome can be said for each thread
alone: a thread whose wait is timed is counted down by one, and stops waiting if nothing is left of
its wait (`Thread.chime`); every other thread stays as it is (`Orderly.get?_tick`). The report has
those whose waits have run out, in the order of the lists (`Orderly.report_tick`). Nothing but a
tick moves the clock.
-/

namespace CoopKernel

variable {κ : Type}

/-- Whether ticks count for a wait. -/
def WaitReason.timed : WaitReason → Bool
  | .sleep => true
  | .mutex => true
  | .io => false
  | .memory => false

/-- The record of a thread on a list after a tick has looked at it. -/
def Thread.countedDown (t : Thread κ) : Thread κ :=
  if t.countdown.next.expired then { t.disarm with wanted := none, state := .ready }
  else Scheduler.counted t

/-- The record of any thread after a tick. -/
def Thread.chime (t : Thread κ) : Thread κ :=
  if t.waitingFor.any WaitReason.timed then t.countedDown else t

theorem Thread.chime_of_untimed {t : Thread κ} (h : t.waitingFor.any WaitReason.timed = false) :
    t.chime = t := by
  rw [chime, h, if_neg Bool.false_ne_true]

theorem Thread.chime_of_timed {t : Thread κ} {reason : WaitReason}
    (hreason : t.waitingFor = some reason) (htimed : reason.timed = true) :
    t.chime = t.countedDown := by
  rw [chime, hreason, Option.any_some, if_pos htimed]

/-- After a tick a thread on a list waits for what it waited for, or for nothing. -/
theorem Thread.waitingFor_countedDown (t : Thread κ) :
    t.countedDown.waitingFor = t.waitingFor ∨ t.countedDown.waitingFor = none := by
  rw [countedDown]
  split
  · exact .inr rfl
  · exact .inl rfl

theorem WaitReason.timed_iff {reason : WaitReason} :
    reason.timed = true ↔ reason = .sleep ∨ reason = .mutex := by
  cases reason <;> simp [timed]

namespace Scheduler

variable {s : Scheduler κ} {id : ThreadId} {t : Thread κ} {front rest : List ThreadId}
  {report : TickReport}

/-! ## One thread -/

/-- The records of some threads have been counted down, and the others are as they were. -/
def CountedDown (front : List ThreadId) (s s' : Scheduler κ) : Prop :=
  ∀ j, s'.threads.get? j =
    if j ∈ front then (s.threads.get? j).map Thread.countedDown else s.threads.get? j

/-- A thread that chimes is counted down, and no other thread. -/
theorem countedDown_chimed (ht : s.threads.get? id = some t) :
    CountedDown [id] s (s.chimed id t) := by
  intro j
  have hsuffices : (s.chimed id t).threads.get? j =
      if j = id then some t.countedDown else s.threads.get? j := by
    rw [Scheduler.chimed, Thread.countedDown]
    have hcounted := fun j => get?_update s id j counted
    cases t.countdown.next.expired with
    | false => exact (hcounted j).trans (by rw [ht]; rfl)
    | true =>
      cases hwanted : t.wanted with
      | none =>
        show ((s.update id counted).awakened id t.priority .sleep).threads.get? j = _
        rw [get?_awakened, hcounted, hcounted, if_pos rfl, ht, ← hwanted]
        split <;> rfl
      | some m =>
        show ((s.update id counted).resigned m id t.priority).threads.get? j = _
        rw [get?_resigned, hcounted, hcounted, if_pos rfl, ht]
        split <;> rfl
  rw [hsuffices]
  by_cases hj : j = id
  · rw [if_pos hj, if_pos (List.mem_singleton.mpr hj), hj, ht, Option.map_some]
  · rw [if_neg hj, if_neg (List.mem_singleton.not.mpr hj)]

/-- Chiming takes a thread off its own list only. -/
theorem Orderly.get_chimed_of_ne (h : s.Orderly) (ht : s.threads.get? id = some t)
    {reason other : WaitReason} (hreason : t.waitingFor = some reason)
    (htimed : reason.timed = true) (hother : other ≠ reason) :
    (s.chimed id t).waiting.get other = s.waiting.get other := by
  have hwanted := (h.tidy ht).wanted_iff
  rw [hreason] at hwanted
  rw [Scheduler.chimed]
  cases t.countdown.next.expired with
  | false => rfl
  | true =>
    cases hwants : t.wanted with
    | none =>
      obtain rfl : reason = .sleep := (WaitReason.timed_iff.mp htimed).resolve_right fun heq => by
        simp [hwants, heq] at hwanted
      exact (WaitLists.get_remove ..).trans (if_neg hother)
    | some m =>
      obtain rfl : reason = .mutex := by simpa [hwants] using hwanted
      exact (WaitLists.get_remove ..).trans (if_neg hother)

/-! ## A list of threads -/

/-- The scheduler and the report when a tick gets past a thread. -/
def rung (state : Scheduler κ × TickReport) (id : ThreadId) : Scheduler κ × TickReport :=
  match state.1.threads.get? id with
  | none => state
  | some t => (state.1.chimed id t, noted state.2 id t)

theorem rung_eq (ht : s.threads.get? id = some t) :
    rung (s, report) id = (s.chimed id t, noted report id t) := by
  rw [rung, ht]

/-- Counting down one thread after others counts down all of them, if none comes twice. -/
theorem CountedDown.concat {s₁ s₂ : Scheduler κ} (hnot : id ∉ front)
    (h : CountedDown front s s₁) (h' : CountedDown [id] s₁ s₂) :
    CountedDown (front ++ [id]) s s₂ := by
  intro j
  rw [h', h]
  by_cases hj : j = id
  · subst hj
    rw [if_neg hnot, if_pos List.mem_cons_self, if_pos (by simp)]
  · rw [if_neg (List.mem_singleton.not.mpr hj)]
    simp only [List.mem_append, List.mem_singleton, hj, or_false]

/-- Whether ticks count for the wait of a thread. -/
def Timed (s : Scheduler κ) (id : ThreadId) : Prop :=
  ∃ t reason, s.threads.get? id = some t ∧ t.waitingFor = some reason ∧ reason.timed = true

/-- Threads whose waits are timed chime one after the other, each as it was before all of them. -/
theorem Orderly.foldl_rung (h : s.Orderly) (hnodup : front.Nodup)
    (htimed : ∀ id ∈ front, s.Timed id) (report : TickReport) :
    (front.foldl rung (s, report)).1.Orderly ∧
      CountedDown front s (front.foldl rung (s, report)).1 := by
  induction front using List.reverseRecOn with
  | nil => exact ⟨h, fun j => (if_neg List.not_mem_nil).symm⟩
  | append_singleton front id ih =>
    obtain ⟨hfront, -, hnot⟩ := List.nodup_append.mp hnodup
    have hnot : id ∉ front := fun hmem => hnot id hmem id (List.mem_singleton.mpr rfl) rfl
    obtain ⟨horderly, hcounted⟩ := ih hfront fun j hj => htimed j (List.mem_append_left _ hj)
    obtain ⟨t, reason, ht, hreason, htimed⟩ := htimed id (by simp)
    have hnow : (front.foldl rung (s, report)).1.threads.get? id = some t := by
      rw [hcounted, if_neg hnot, ht]
    rw [List.foldl_concat, rung_eq hnow]
    exact ⟨(horderly.chimed hnow hreason (WaitReason.timed_iff.mp htimed)).1,
      hcounted.concat hnot (countedDown_chimed hnow)⟩

/-- The last of several threads to chime is as it was before all of them. -/
theorem Orderly.foldl_rung_concat (h : s.Orderly) (hnodup : (front ++ [id]).Nodup)
    (htimed : ∀ j ∈ front ++ [id], s.Timed j) (ht : s.threads.get? id = some t)
    (report : TickReport) :
    (front.foldl rung (s, report)).1.threads.get? id = some t ∧
      (front ++ [id]).foldl rung (s, report) =
        ((front.foldl rung (s, report)).1.chimed id t,
          noted (front.foldl rung (s, report)).2 id t) := by
  obtain ⟨hfront, -, hnot⟩ := List.nodup_append.mp hnodup
  have hnot : id ∉ front := fun hmem => hnot id hmem id (List.mem_singleton.mpr rfl) rfl
  have hcounted := (h.foldl_rung hfront (fun j hj => htimed j (List.mem_append_left _ hj)) report).2
  have hnow : (front.foldl rung (s, report)).1.threads.get? id = some t := by
    rw [hcounted, if_neg hnot, ht]
  exact ⟨hnow, by rw [List.foldl_concat, rung_eq hnow]⟩

/-! ## The whole tick -/

theorem Orderly.mem_waiting_iff (h : s.Orderly) (ht : s.threads.get? id = some t)
    (reason : WaitReason) : id ∈ s.waiting.get reason ↔ t.waitingFor = some reason := by
  rw [h.queued.mem_waiting, place_eq ht]
  refine ⟨fun hplace => (Thread.place_eq_waiting_iff.mp hplace).2, (h.tidy ht).place_waiting⟩

/-- Looking at the threads of a list, seen with the threads after them put back. -/
theorem LooksAt.foldlM_eq {reason : WaitReason}
    {look : Scheduler κ × TickReport → ThreadId → Except Invariant (Scheduler κ × TickReport)}
    (hlook : LooksAt reason look) (htimed : reason.timed = true)
    (h : (s.putBack reason (front ++ rest)).Orderly) (report : TickReport) :
    ∃ s', front.foldlM look (s, report) =
        .ok (s', (front.foldl rung (s.putBack reason (front ++ rest), report)).2) ∧
      s'.putBack reason rest = (front.foldl rung (s.putBack reason (front ++ rest), report)).1 ∧
      ∀ other, other ≠ reason → s'.waiting.get other = s.waiting.get other := by
  -- After each look there is one thread less to put back, until only `rest` is left.
  induction front generalizing s report with
  | nil => exact ⟨s, rfl, rfl, fun _ _ => rfl⟩
  | cons id front ih =>
    rw [List.cons_append] at h ⊢
    obtain ⟨t, ht, hreason, -⟩ := h.exists_of_putBack
    obtain ⟨s₁, heq, -, hview⟩ := hlook h ht report
    have hsame : ∀ other, other ≠ reason → s₁.waiting.get other = s.waiting.get other := by
      intro other hother
      have hget := h.get_chimed_of_ne ht hreason htimed hother
      rw [← hview] at hget
      simpa [putBack, WaitLists.get_set_of_ne hother] using hget
    have horderly := (h.chimed ht hreason (WaitReason.timed_iff.mp htimed)).1
    rw [← hview] at horderly
    obtain ⟨s', heqRest, hviewRest, hsameRest⟩ := ih horderly (noted report id t)
    have hrung : rung (s.putBack reason (id :: (front ++ rest)), report) id =
        (s₁.putBack reason (front ++ rest), noted report id t) := by
      rw [hview]
      exact rung_eq ht
    refine ⟨s', ?_, ?_, fun other hother => (hsameRest other hother).trans (hsame other hother)⟩
    · rw [List.foldlM_cons, heq, List.foldl_cons, hrung]
      exact heqRest
    · rw [List.foldl_cons, hrung]
      exact hviewRest

/-- The threads whose waits are timed, in the order in which a tick gets to them. -/
def timed (s : Scheduler κ) : List ThreadId := s.waiting.sleep ++ s.waiting.mutex

/-- The scheduler one tick later, before any thread has noticed. -/
def later (s : Scheduler κ) : Scheduler κ := { s with ticks := s.ticks + 1 }

theorem Orderly.later (h : s.Orderly) : s.later.Orderly :=
  ⟨h.threads, h.mutexes, h.tidy, h.running, h.queued, h.owned⟩

/-- The scheduler and the report when all threads whose waits are timed have chimed. -/
def chimes (s : Scheduler κ) : Scheduler κ × TickReport :=
  s.timed.foldl rung (s.later, { tick := s.ticks + 1 })

/-- A tick lets the sleeping threads chime and then those that wait for mutexes. -/
theorem Orderly.tick_eq (h : s.Orderly) : s.tick = .ok (s.chimes.2, s.chimes.1) := by
  have hlater := h.later
  have hsleepers := h.later
  rw [← putBack_taken s.later .sleep, ← List.append_nil (s.later.waiting.get .sleep)] at hsleepers
  obtain ⟨s₁, heq₁, hview₁, hsame⟩ :=
    looksAt_tickSleeper.foldlM_eq rfl hsleepers { tick := s.ticks + 1 }
  rw [List.append_nil, putBack_taken] at heq₁ hview₁
  rw [putBack_nil] at hview₁
  have hmutex : s₁.waiting.get .mutex = s.waiting.get .mutex := hsame .mutex (by simp)
  -- The second list is the one that there was before the first was looked at.
  have hwaiters : s₁.Orderly := by
    rw [hview₁]
    exact (hlater.foldl_rung (h.queued.nodup_waiting .sleep) (fun id hmem => by
      obtain ⟨t, ht, hplace⟩ :=
        Option.bind_eq_some_iff.mp ((h.queued.mem_waiting id .sleep).mp hmem)
      exact ⟨t, .sleep, ht, (Thread.place_eq_waiting_iff.mp hplace).2, rfl⟩) _).1
  rw [← putBack_taken s₁ .mutex, ← List.append_nil (s₁.waiting.get .mutex)] at hwaiters
  obtain ⟨s₂, heq₂, hview₂, -⟩ := looksAt_tickMutexWaiter.foldlM_eq rfl hwaiters
    ((s.later.waiting.get .sleep).foldl rung (s.later, { tick := s.ticks + 1 })).2
  rw [List.append_nil, putBack_taken, hmutex] at heq₂ hview₂
  rw [putBack_nil, hview₁] at hview₂
  rw [Scheduler.tick, chimes, timed, List.foldl_append]
  show ((s.later.waiting.get .sleep).foldlM Scheduler.tickSleeper
    ({ s.later with waiting := s.later.waiting.set .sleep [] }, { tick := s.ticks + 1 }) >>= _) = _
  rw [heq₁]
  show ((s₁.waiting.get .mutex).foldlM Scheduler.tickMutexWaiter
    ({ s₁ with waiting := s₁.waiting.set .mutex [] }, _) >>= _) = _
  rw [hmutex, heq₂, hview₂, hview₁]
  rfl

theorem Orderly.timed_of_mem (h : s.Orderly) (hmem : id ∈ s.timed) : s.Timed id := by
  have hlisted : ∃ reason, reason.timed = true ∧ id ∈ s.waiting.get reason := by
    rcases List.mem_append.mp hmem with hsleep | hmutex
    · exact ⟨.sleep, rfl, hsleep⟩
    · exact ⟨.mutex, rfl, hmutex⟩
  obtain ⟨reason, htimed, hlisted⟩ := hlisted
  obtain ⟨t, ht, hplace⟩ := Option.bind_eq_some_iff.mp ((h.queued.mem_waiting ..).mp hlisted)
  exact ⟨t, reason, ht, (Thread.place_eq_waiting_iff.mp hplace).2, htimed⟩

/-- A thread is in one of the two lists if its wait is timed. -/
theorem Orderly.mem_timed_iff (h : s.Orderly) (ht : s.threads.get? id = some t) :
    id ∈ s.timed ↔ t.waitingFor.any WaitReason.timed = true := by
  have hsleep := h.mem_waiting_iff ht .sleep
  have hmutex := h.mem_waiting_iff ht .mutex
  rw [timed, List.mem_append]
  change _ ∨ id ∈ s.waiting.get .mutex ↔ _
  rw [hmutex, show id ∈ s.waiting.sleep ↔ _ from hsleep]
  cases t.waitingFor with
  | none => simp
  | some reason => simp [WaitReason.timed_iff]

/-- No thread is in both lists. -/
theorem Orderly.nodup_timed (h : s.Orderly) : s.timed.Nodup := by
  refine (h.queued.nodup_waiting .sleep).append (h.queued.nodup_waiting .mutex) ?_
  intro id hsleep hmutex
  have hplace := (h.queued.mem_waiting id .sleep).mp hsleep
  rw [(h.queued.mem_waiting id .mutex).mp hmutex] at hplace
  simp at hplace

/-- A tick counts down the threads whose waits are timed, and leaves all others alone. -/
theorem Orderly.get?_tick (h : s.Orderly) {report : TickReport} {s' : Scheduler κ}
    (htick : s.tick = .ok (report, s')) (j : ThreadId) :
    s'.threads.get? j = (s.threads.get? j).map Thread.chime := by
  obtain ⟨-, rfl⟩ := Prod.ext_iff.mp (Except.ok.inj (htick.symm.trans h.tick_eq))
  refine ((h.later.foldl_rung h.nodup_timed (fun _ => h.timed_of_mem) _).2 j).trans ?_
  show (if j ∈ s.timed then (s.threads.get? j).map _ else s.threads.get? j) = _
  cases ht : s.threads.get? j with
  | none => simp
  | some t =>
    simp only [h.mem_timed_iff ht, Option.map_some, Thread.chime]
    split <;> rfl

/-! ## What a tick reports -/

/-- Whether the wait of a thread runs out with the next tick. -/
def lapses (s : Scheduler κ) (id : ThreadId) : Bool :=
  (s.threads.get? id).any fun t => t.countdown.next.expired

/-- Whether a thread wants a mutex. -/
def wants (s : Scheduler κ) (id : ThreadId) : Bool :=
  (s.threads.get? id).any fun t => t.wanted.isSome

/-- Threads that chime are reported in the order in which they do, each once its wait runs out. -/
theorem Orderly.report_foldl_rung (h : s.Orderly) (hnodup : front.Nodup)
    (htimed : ∀ id ∈ front, s.Timed id) (report : TickReport) :
    (front.foldl rung (s, report)).2.woken =
        report.woken ++ front.filter (fun id => s.lapses id && !s.wants id) ∧
      (front.foldl rung (s, report)).2.timedOut.map Prod.fst =
        report.timedOut.map Prod.fst ++ front.filter fun id => s.lapses id && s.wants id := by
  induction front using List.reverseRecOn with
  | nil => simp
  | append_singleton front id ih =>
    obtain ⟨hwoken, htimedOut⟩ := ih (List.nodup_append.mp hnodup).1
      fun j hj => htimed j (List.mem_append_left _ hj)
    obtain ⟨t, reason, ht, -⟩ := htimed id (by simp)
    rw [(h.foldl_rung_concat hnodup htimed ht report).2, List.filter_append, List.filter_append,
      ← List.append_assoc, ← List.append_assoc, ← hwoken, ← htimedOut]
    have hlapses : s.lapses id = t.countdown.next.expired := by rw [lapses, ht, Option.any_some]
    have hwants : s.wants id = t.wanted.isSome := by rw [wants, ht, Option.any_some]
    rw [noted]
    cases hexpired : t.countdown.next.expired <;> cases hwanted : t.wanted <;>
      simp [hlapses, hwants, hexpired, hwanted]

/-- A tick reports the sleeping threads whose waits run out and those that wait for mutexes, each
in the order of its list. -/
theorem Orderly.report_tick (h : s.Orderly) {report : TickReport} {s' : Scheduler κ}
    (htick : s.tick = .ok (report, s')) :
    report.woken = s.waiting.sleep.filter s.lapses ∧
      report.timedOut.map Prod.fst = s.waiting.mutex.filter s.lapses := by
  obtain ⟨rfl, -⟩ := Prod.ext_iff.mp (Except.ok.inj (htick.symm.trans h.tick_eq))
  obtain ⟨hwoken, htimedOut⟩ := h.later.report_foldl_rung h.nodup_timed
    (fun _ => h.timed_of_mem) { tick := s.ticks + 1 }
  -- In one of the two lists nobody wants a mutex, and in the other everybody does.
  have hwants : ∀ reason, ∀ id ∈ s.waiting.get reason, s.wants id = (reason == .mutex) := by
    intro reason id hmem
    obtain ⟨t, ht, hplace⟩ := Option.bind_eq_some_iff.mp ((h.queued.mem_waiting ..).mp hmem)
    rw [wants, ht, Option.any_some, Bool.eq_iff_iff, (h.tidy ht).wanted_iff,
      (Thread.place_eq_waiting_iff.mp hplace).2]
    cases reason <;> simp
  have hsplit : ∀ test : Bool → Bool, s.timed.filter (fun id => s.lapses id && test (s.wants id)) =
      s.waiting.sleep.filter (fun id => s.lapses id && test false) ++
        s.waiting.mutex.filter (fun id => s.lapses id && test true) := by
    intro test
    rw [timed, List.filter_append]
    congr 1
    · exact List.filter_congr fun id hmem => by rw [hwants .sleep id hmem]; rfl
    · exact List.filter_congr fun id hmem => by rw [hwants .mutex id hmem]; rfl
  exact ⟨hwoken.trans ((hsplit (!·)).trans (by simp)),
    htimedOut.trans ((hsplit id).trans (by simp))⟩

/-- Whatever is reported, the number of the tick stays. -/
theorem tick_foldl_rung (s : Scheduler κ) (report : TickReport) (front : List ThreadId) :
    (front.foldl rung (s, report)).2.tick = report.tick := by
  have hnoted : ∀ (report : TickReport) id (t : Thread κ),
      (noted report id t).tick = report.tick := by
    intro report id t
    rw [noted]
    cases t.countdown.next.expired with
    | false => rfl
    | true => cases t.wanted <;> rfl
  induction front generalizing s report with
  | nil => rfl
  | cons id rest ih =>
    rw [List.foldl_cons, rung]
    cases s.threads.get? id with
    | none => exact ih s report
    | some t => exact (ih _ _).trans (hnoted report id t)

/-- The ticks are numbered one after the other. -/
theorem Orderly.number_tick (h : s.Orderly) {report : TickReport} {s' : Scheduler κ}
    (htick : s.tick = .ok (report, s')) : report.tick = s.ticks + 1 := by
  obtain ⟨rfl, -⟩ := Prod.ext_iff.mp (Except.ok.inj (htick.symm.trans h.tick_eq))
  exact tick_foldl_rung s.later _ s.timed

/-! ## Where a tick leaves the queues -/

/-- Whether a thread has a priority. -/
def hasPriority (s : Scheduler κ) (p : Priority) (id : ThreadId) : Bool :=
  (s.threads.get? id).any fun t => t.priority == p

/-- A thread whose wait runs out comes last at its level. -/
theorem level_chimed (s : Scheduler κ) (id : ThreadId) (t : Thread κ) (p : Priority) :
    (s.chimed id t).ready.level p =
      s.ready.level p ++ if t.countdown.next.expired && t.priority == p then [id] else [] := by
  have hpush : (s.ready.push t.priority id).level p =
      s.ready.level p ++ if t.priority == p then [id] else [] := by
    simp only [LevelQueue.level_push_append, beq_iff_eq]
  rw [Scheduler.chimed]
  cases t.countdown.next.expired with
  | false => exact (List.append_nil _).symm
  | true =>
    cases t.wanted with
    | none => exact hpush
    | some m => exact hpush

theorem Orderly.level_foldl_rung (h : s.Orderly) (hnodup : front.Nodup)
    (htimed : ∀ id ∈ front, s.Timed id) (report : TickReport) (p : Priority) :
    (front.foldl rung (s, report)).1.ready.level p =
      s.ready.level p ++ front.filter fun id => s.lapses id && s.hasPriority p id := by
  induction front using List.reverseRecOn with
  | nil => exact (List.append_nil _).symm
  | append_singleton front id ih =>
    obtain ⟨t, reason, ht, -⟩ := htimed id (by simp)
    have hlast : (s.lapses id && s.hasPriority p id) =
        (t.countdown.next.expired && t.priority == p) := by
      rw [lapses, hasPriority, ht, Option.any_some, Option.any_some]
    rw [(h.foldl_rung_concat hnodup htimed ht report).2, level_chimed,
      ih (List.nodup_append.mp hnodup).1 fun j hj => htimed j (List.mem_append_left _ hj),
      List.filter_append, List.append_assoc, ← hlast]
    simp [List.filter_cons]

/-- Those who are reported come last at their levels, in the order of the report. -/
theorem Orderly.level_tick (h : s.Orderly) {report : TickReport} {s' : Scheduler κ}
    (htick : s.tick = .ok (report, s')) (p : Priority) : s'.ready.level p = s.ready.level p ++
      (report.woken ++ report.timedOut.map Prod.fst).filter (s.hasPriority p) := by
  obtain ⟨hwoken, htimedOut⟩ := h.report_tick htick
  obtain ⟨-, rfl⟩ := Prod.ext_iff.mp (Except.ok.inj (htick.symm.trans h.tick_eq))
  rw [hwoken, htimedOut, ← List.filter_append, List.filter_filter]
  refine (h.later.level_foldl_rung h.nodup_timed (fun _ => h.timed_of_mem) _ p).trans ?_
  simp only [Bool.and_comm]
  rfl

/-- A tick does not look at the lists of those whose waits are not timed. -/
theorem waiting_foldl_rung {reason : WaitReason} (huntimed : reason.timed = false)
    (s : Scheduler κ) (report : TickReport) (front : List ThreadId) :
    (front.foldl rung (s, report)).1.waiting.get reason = s.waiting.get reason := by
  have hchimed : ∀ (s : Scheduler κ) id t,
      (s.chimed id t).waiting.get reason = s.waiting.get reason := by
    intro s id t
    have hremove : ∀ other : WaitReason, other.timed = true →
        (s.waiting.remove other id).get reason = s.waiting.get reason := fun other hother =>
      (WaitLists.get_remove ..).trans (if_neg fun heq => by simp [heq, hother] at huntimed)
    rw [Scheduler.chimed]
    cases t.countdown.next.expired with
    | false => rfl
    | true =>
      cases t.wanted with
      | none => exact hremove .sleep rfl
      | some m => exact hremove .mutex rfl
  induction front generalizing s report with
  | nil => rfl
  | cons id rest ih =>
    rw [List.foldl_cons, rung]
    cases s.threads.get? id with
    | none => exact ih s report
    | some t => exact (ih _ _).trans (hchimed s id t)

theorem Orderly.waiting_tick (h : s.Orderly) {report : TickReport} {s' : Scheduler κ}
    (htick : s.tick = .ok (report, s')) {reason : WaitReason} (huntimed : reason.timed = false) :
    s'.waiting.get reason = s.waiting.get reason := by
  obtain ⟨-, rfl⟩ := Prod.ext_iff.mp (Except.ok.inj (htick.symm.trans h.tick_eq))
  exact waiting_foldl_rung huntimed s.later _ s.timed

end Scheduler

namespace Scheduler

variable {s s' : Scheduler κ} {id owner : ThreadId} {m : MutexId}

/-! ## Only ticks move the clock -/

theorem ticks_stopWaiting (h : s.stopWaiting id = .ok s') : s'.ticks = s.ticks := by
  rw [stopWaiting] at h
  obtain ⟨t, -, h⟩ := bind_eq_ok h
  cases hreason : t.waitingFor with
  | none =>
    rw [hreason] at h
    exact Except.ok.inj h ▸ rfl
  | some reason =>
    rw [hreason] at h
    exact Except.ok.inj h ▸ rfl

theorem ticks_wake (h : s.wake id = .ok s') : s'.ticks = s.ticks := by
  rw [wake] at h
  obtain ⟨stopped, hstopped, h⟩ := bind_eq_ok h
  rw [makeReady] at h
  obtain ⟨t, -, h⟩ := bind_eq_ok h
  rw [← ticks_stopWaiting hstopped]
  exact Except.ok.inj h ▸ rfl

theorem ticks_handOver {next : Option ThreadId} (h : s.handOver m owner = .ok (next, s')) :
    s'.ticks = s.ticks := by
  rw [handOver] at h
  obtain ⟨t, -, h⟩ := bind_eq_ok h
  dsimp only at h
  split at h
  · cases h
  · next x _ =>
    cases hpass : x.pass.1 with
    | none =>
      rw [hpass] at h
      obtain ⟨-, rfl⟩ := Prod.ext_iff.mp (Except.ok.inj h)
      rfl
    | some heir =>
      rw [hpass] at h
      obtain ⟨u, -, h⟩ := bind_eq_ok h
      obtain ⟨woken, hwoken, h⟩ := bind_eq_ok h
      obtain ⟨-, rfl⟩ := Prod.ext_iff.mp (Except.ok.inj h)
      have hticks := ticks_wake hwoken
      exact hticks

theorem ticks_handOverAll {ms : List MutexId} {handoffs : List (MutexId × ThreadId)}
    (h : s.handOverAll owner ms = .ok (handoffs, s')) : s'.ticks = s.ticks := by
  induction ms generalizing s s' handoffs with
  | nil =>
    obtain ⟨-, rfl⟩ := Prod.ext_iff.mp (Except.ok.inj h)
    rfl
  | cons m rest ih =>
    rw [handOverAll] at h
    obtain ⟨⟨next, s₁⟩, hfirst, h⟩ := bind_eq_ok h
    obtain ⟨⟨later, s₂⟩, hrest, h⟩ := bind_eq_ok h
    have hticks := (ih hrest).trans (ticks_handOver hfirst)
    cases next with
    | none =>
      obtain ⟨-, rfl⟩ := Prod.ext_iff.mp (Except.ok.inj h)
      exact hticks
    | some heir =>
      obtain ⟨-, rfl⟩ := Prod.ext_iff.mp (Except.ok.inj h)
      exact hticks

theorem Orderly.ticks_terminate (h : s.Orderly) {report : Termination}
    (hok : s.terminate id = .ok (report, s')) : s'.ticks = s.ticks := by
  obtain ⟨t, -, -, hover⟩ := h.terminate_eq_ok hok
  exact ticks_handOverAll (s := s.buried id t) hover

end Scheduler

end CoopKernel
