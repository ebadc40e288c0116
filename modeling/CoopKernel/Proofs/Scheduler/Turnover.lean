import Mathlib.Data.List.Rotate
import CoopKernel.Proofs.Scheduler.Acts

/-!
# Whose turn it is

In a scheduler that has been in use from the beginning, the four levels of the ready queue are parts
of one list, which has the ready threads in the order in which they arrived (`Scheduler.line`). The
thread that is picked is the first of those in it that have the highest priority
(`Scheduler.Picks`).

While nothing happens but ticks, and nobody's wait runs out, the threads at the highest level that
is not empty take turns with the running thread, each after all the others: a round turns the ring
that they form by one (`Ring.round`), and any number of rounds turns it as often (`Ring.rounds`).
-/

namespace CoopKernel.Scheduler

variable {κ : Type} {s s' : Scheduler κ} {id me : ThreadId} {t : Thread κ} {p : Priority}
  {acts : List (Act κ)} {arrived : List ThreadId}

/-! ## One list -/

/-- The ready threads, in the order in which they arrived for the last time. -/
def line (s : Scheduler κ) (arrived : List ThreadId) : List ThreadId :=
  (byLast arrived).filter fun id => s.state? id == some .ready

theorem Orderly.mem_level_iff (h : s.Orderly) :
    id ∈ s.ready.level p ↔ s.hasPriority p id = true ∧ s.state? id = some .ready := by
  rw [h.queued.mem_ready, place, hasPriority, state?]
  cases s.threads.get? id with
  | none => simp
  | some t => simp [Thread.place_eq_ready_iff, and_comm]

/-- A ready thread stands in the line, if the levels have their threads in order of arrival. -/
theorem Orderly.mem_line_iff (h : s.Orderly)
    (hsub : ∀ p, (s.ready.level p).Sublist (byLast arrived)) :
    id ∈ s.line arrived ↔ s.state? id = some .ready := by
  rw [line, List.mem_filter, beq_iff_eq, and_iff_right_iff_imp]
  intro hready
  obtain ⟨t, ht, -⟩ := Option.map_eq_some_iff.mp hready
  exact (hsub t.priority).subset (h.mem_level_iff.mpr ⟨by simp [hasPriority, ht], hready⟩)

/-- Each level is the part of the line that has its priority. -/
theorem Orderly.level_eq (h : s.Orderly) (hsub : (s.ready.level p).Sublist (byLast arrived)) :
    s.ready.level p = (s.line arrived).filter (s.hasPriority p) := by
  rw [line, List.filter_filter]
  refine eq_filter_of_sublist hsub (nodup_byLast arrived) fun id => ?_
  rw [Bool.and_eq_true, beq_iff_eq, ← h.mem_level_iff]
  exact ⟨fun hmem => ⟨hsub.subset hmem, hmem⟩, And.right⟩

/-! ## Who is picked -/

/-- The thread that is picked is ready, nobody who is ready has a higher priority, and of those with
the same priority it arrived first. It has the processor, and stands in the queue no more. -/
structure Picks (s s' : Scheduler κ) (arrived : List ThreadId) (id : ThreadId) (t : Thread κ) :
    Prop where
  record : s.threads.get? id = some t
  ready : t.state = .ready
  highest : ∀ {j u}, s.threads.get? j = some u → u.state = .ready → u.priority ≤ t.priority
  earliest : ∀ {j u}, s.threads.get? j = some u → u.state = .ready → u.priority = t.priority →
    j ≠ id → LastBefore arrived id j
  current : s'.current = some id
  running : s'.threads.get? id = some { t with state := .running }
  others : ∀ j, j ≠ id → s'.threads.get? j = s.threads.get? j
  level : s.ready.level t.priority = id :: s'.ready.level t.priority
  levels : ∀ p, p ≠ t.priority → s'.ready.level p = s.ready.level p

theorem Orderly.picks (h : s.Orderly) (hsub : ∀ p, (s.ready.level p).Sublist (byLast arrived))
    {switch : Switch} (hpick : s.pickNext = .ok (switch, s')) :
    switch.source = s.current ∧ ∃ t, s.Picks s' arrived switch.target t := by
  obtain ⟨id, t, rest, ht, hready, hlevel, habove, rfl, rfl⟩ := h.pickNext_front hpick
  have hget := fun j => get?_dispatched s id j t.priority
  have hstands : ∀ {j u}, s.threads.get? j = some u → u.state = .ready →
      j ∈ s.ready.level u.priority := fun hu hready => by
    rw [h.queued.mem_ready, place_eq hu, Thread.place, hready]
  refine ⟨rfl, t, ht, hready, fun {j u} hu huready => ?_, fun {j u} hu huready hpriority hj => ?_,
    rfl, ?_, fun j hj => (hget j).trans (if_neg hj), ?_, fun p hp => ?_⟩
  · rw [← Priority.not_lt]
    intro hlt
    have hmem := hstands hu huready
    rw [habove _ hlt] at hmem
    exact List.not_mem_nil hmem
  · -- Whoever else stands at the level stands behind the first, in the queue and in the line.
    have hmem := hstands hu huready
    rw [hpriority, hlevel, List.mem_cons] at hmem
    have hrest : [id, j].Sublist (id :: rest) :=
      (List.singleton_sublist.mpr (hmem.resolve_left hj)).cons_cons id
    exact lastBefore_of_sublist ((hlevel ▸ hrest).trans (hsub t.priority))
  · exact (hget id).trans (by rw [if_pos rfl, ht, Option.map_some])
  · rw [level_dispatched, if_pos rfl, hlevel, List.erase_cons_head]
  · rw [level_dispatched, if_neg hp]

/-- Somebody is picked if somebody is ready. -/
theorem Orderly.exists_pickNext (h : s.Orderly) (hready : s.state? id = some .ready) :
    ∃ switch s', s.pickNext = .ok (switch, s') := by
  obtain ⟨t, ht, hstate⟩ := Option.map_eq_some_iff.mp hready
  obtain ⟨_, _, -, -, -, hpick⟩ := h.pickNext_eq ht hstate
  exact ⟨_, _, hpick⟩

/-! ## Rounds -/

/-- A tick, after which the running thread gives way. -/
def round : List (Act κ) := [.tick, .requeueCurrent, .pickNext]

/-- Rounds in a row. -/
def rounds : Nat → List (Act κ)
  | 0 => []
  | n + 1 => round ++ rounds n

/-- Nobody's wait runs out within a number of ticks. -/
def Patient (s : Scheduler κ) (n : Nat) : Prop :=
  ∀ {id t left}, s.threads.get? id = some t → t.waitingFor.any WaitReason.timed = true →
    t.countdown = .remaining left → n < left

/-- The running thread and those that are ready at its priority, which nobody outranks. -/
structure Ring (s : Scheduler κ) (me : ThreadId) (t : Thread κ) (ring : List ThreadId) : Prop where
  current : s.current = some me
  record : s.threads.get? me = some t
  running : t.state = .running
  ring : me :: s.ready.level t.priority = ring
  above : ∀ p, t.priority < p → s.ready.level p = []

variable {n : Nat} {ring : List ThreadId} {report : TickReport}

/-- Who waits for a tick does not see its wait run out, if there is time enough. -/
theorem Patient.chime (h : s.Patient (n + 1)) (ht : s.threads.get? id = some t) :
    t.chime.state = t.state ∧ t.chime.priority = t.priority ∧
      (t.chime.waitingFor.any WaitReason.timed = true → ∀ left,
        t.chime.countdown = .remaining left → n < left) := by
  by_cases htimed : t.waitingFor.any WaitReason.timed = true
  · have hleft : ∀ left, t.countdown = .remaining left → n + 1 < left := fun _ => h ht htimed
    have hexpired : t.countdown.next.expired = false := by
      cases hcount : t.countdown with
      | unlimited => rfl
      | remaining left =>
        have hlt := hleft left hcount
        simp [Countdown.next, Countdown.expired]
        omega
    rw [Thread.chime, if_pos htimed, Thread.countedDown, hexpired, if_neg Bool.false_ne_true]
    refine ⟨rfl, rfl, fun _ left hnext => ?_⟩
    change t.countdown.next = .remaining left at hnext
    cases hcount : t.countdown with
    | unlimited =>
      rw [hcount] at hnext
      cases hnext
    | remaining before =>
      rw [hcount] at hnext
      obtain rfl := Countdown.remaining.inj hnext
      have hlt := hleft before hcount
      omega
  · rw [Thread.chime, if_neg htimed]
    exact ⟨rfl, rfl, fun htrue => absurd htrue htimed⟩

theorem Patient.tick (h : s.Patient (n + 1)) (horderly : s.Orderly)
    (htick : s.tick = .ok (report, s')) : s'.Patient n := by
  intro id t left ht htimed hleft
  rw [horderly.get?_tick htick] at ht
  obtain ⟨before, hbefore, rfl⟩ := Option.map_eq_some_iff.mp ht
  exact (h.chime hbefore).2.2 htimed left hleft

/-- If nobody's wait runs out, nobody is reported. -/
theorem Patient.nobody_reported (h : s.Patient (n + 1)) (horderly : s.Orderly)
    (htick : s.tick = .ok (report, s')) : report.woken ++ report.timedOut.map Prod.fst = [] := by
  obtain ⟨hwoken, htimedOut⟩ := horderly.report_tick htick
  rw [hwoken, htimedOut, ← List.filter_append, List.filter_eq_nil_iff]
  intro id hmem hlapses
  obtain ⟨t, ht, hexpired⟩ := Option.any_eq_true _ _ |>.mp hlapses
  have htimed := (horderly.mem_timed_iff ht).mp hmem
  cases hcount : t.countdown with
  | unlimited => simp [hcount, Countdown.next, Countdown.expired] at hexpired
  | remaining left =>
    have hlt := h ht htimed hcount
    simp [hcount, Countdown.next, Countdown.expired] at hexpired
    omega

/-- If nobody's wait runs out, a tick leaves the ready queue alone. -/
theorem Patient.level_tick (h : s.Patient (n + 1)) (horderly : s.Orderly)
    (htick : s.tick = .ok (report, s')) (p : Priority) : s'.ready.level p = s.ready.level p := by
  rw [horderly.level_tick htick, h.nobody_reported horderly htick]
  exact List.append_nil _

/-- A change to one thread that does not touch its wait takes nobody's patience away. -/
theorem Patient.of_update {f : Thread κ → Thread κ} (h : s.Patient n)
    (hget : ∀ j, s'.threads.get? j =
      if j = id then (s.threads.get? id).map f else s.threads.get? j)
    (hwaiting : ∀ t, (f t).waitingFor = t.waitingFor)
    (hcount : ∀ t, (f t).countdown = t.countdown) : s'.Patient n := by
  intro j u left hu htimed hleft
  rw [hget] at hu
  split at hu
  · obtain ⟨t, ht, rfl⟩ := Option.map_eq_some_iff.mp hu
    exact h ht (hwaiting t ▸ htimed) (hcount t ▸ hleft)
  · exact h hu htimed hleft

theorem Ring.record_readied (h : s.Ring me t ring) :
    (s.readied me t.priority).threads.get? me = some { t with state := .ready } := by
  rw [get?_readied, if_pos rfl, h.record, Option.map_some]

theorem Ring.state?_readied (h : s.Ring me t ring) :
    (s.readied me t.priority).state? me = some .ready := by
  rw [state?, h.record_readied]
  rfl

/-- When the running thread has come last at its level, nobody runs. -/
theorem Ring.vacant_readied (h : s.Ring me t ring) (horderly : s.Orderly) {j : ThreadId}
    {v : Thread κ} (hv : (s.readied me t.priority).threads.get? j = some v) :
    v.state ≠ .running := by
  intro hrunning
  by_cases hj : j = me
  · rw [hj, h.record_readied] at hv
    obtain rfl := Option.some.inj hv
    cases hrunning
  · rw [get?_readied, if_neg hj] at hv
    exact hj (Option.some.inj ((horderly.running hv hrunning).symm.trans h.current))

/-- Whoever is picked then stands at the level of the ring, because nobody stands above. -/
theorem Ring.front_readied (h : s.Ring me t ring) {next : ThreadId} {rest : List ThreadId}
    (hfront : (s.readied me t.priority).ready.level p = next :: rest)
    (habove : ∀ q, p < q → (s.readied me t.priority).ready.level q = []) : p = t.priority := by
  refine Priority.rank_injective (Nat.le_antisymm ?_ ?_)
  · refine Priority.not_lt.mp fun hlt => ?_
    have hne : p ≠ t.priority := fun heq => absurd (heq ▸ hlt) (Nat.lt_irrefl _)
    rw [level_readied, h.above _ hlt, if_neg (Ne.symm hne)] at hfront
    cases hfront
  · refine Priority.not_lt.mp fun hlt => ?_
    have hempty := habove _ hlt
    rw [level_readied, if_pos rfl] at hempty
    exact List.append_ne_nil_of_right_ne_nil _ (List.cons_ne_nil me []) hempty

/-- The running thread may give way, and it is the one that arrives. -/
theorem Ring.run_passes (h : s.Ring me t ring) {switch : Switch}
    (hpick : (s.readied me t.priority).pickNext = .ok (switch, s')) :
    s.run [.requeueCurrent, .pickNext] = some (s', [me]) := by
  have hrequeued : (Act.requeueCurrent : Act κ).perform s =
      some (s.readied me t.priority, [me]) := by
    have hstate : s.state? me = some .running := by
      rw [state?, h.record, Option.map_some, h.running]
    rw [Act.perform, requeueCurrent_eq h.current h.record h.running, h.current]
    simp [hstate, Except.toOption]
  have hdue : (Act.pickNext : Act κ).due (s.readied me t.priority) = true := by
    rw [Act.due, show (s.readied me t.priority).current = some me from h.current, Option.all_some,
      h.state?_readied]
    rfl
  refine run_cons_iff.mpr ⟨_, [me], [], rfl, hrequeued, run_singleton hdue ?_, rfl⟩
  rw [Act.perform, hpick]
  rfl

/-- The running thread comes last at its level, and the first one there gets the processor. -/
theorem Ring.passes (h : s.Ring me t ring) (horderly : s.Orderly) (hpatient : s.Patient n) :
    ∃ next u s', s.run [.requeueCurrent, .pickNext] = some (s', [me]) ∧ s'.Orderly ∧
      s'.Patient n ∧ s'.Ring next u (ring.rotate 1) ∧ u.priority = t.priority ∧
      ∀ p, p ≠ t.priority → s'.ready.level p = s.ready.level p := by
  let queued := s.readied me t.priority
  have horderly₁ : queued.Orderly := horderly.readied h.record (.inr h.running)
  obtain ⟨switch, s', hpick⟩ := horderly₁.exists_pickNext h.state?_readied
  obtain ⟨next, u, rest, hu, hready, hfront, habove, -, rfl⟩ := horderly₁.pickNext_front hpick
  have hpriority : u.priority = t.priority := h.front_readied hfront habove
  have hothers : ∀ p, p ≠ t.priority →
      (queued.dispatched next u.priority).ready.level p = s.ready.level p := fun p hp => by
    rw [level_dispatched, if_neg (hpriority ▸ hp), level_readied, if_neg (Ne.symm hp),
      List.append_nil]
  have hring : (queued.dispatched next u.priority).Ring next { u with state := .running }
      (ring.rotate 1) := by
    rw [level_readied, if_pos hpriority.symm] at hfront
    refine ⟨rfl, ?_, rfl, ?_, fun p hp => ?_⟩
    · rw [get?_dispatched, if_pos rfl, hu, Option.map_some]
    · show next :: (queued.dispatched next u.priority).ready.level u.priority = _
      rw [level_dispatched, if_pos rfl, level_readied, if_pos hpriority.symm, hfront,
        List.erase_cons_head, ← hfront, hpriority, ← h.ring, List.rotate_cons_succ,
        List.rotate_zero]
    · replace hp : t.priority < p := hpriority ▸ hp
      rw [hothers p fun heq => absurd (heq ▸ hp) (Nat.lt_irrefl _), h.above p hp]
  have hpatient₁ : queued.Patient n :=
    hpatient.of_update (fun j => get?_readied s me j t.priority) (fun _ => rfl) fun _ => rfl
  have hpatient' : (queued.dispatched next u.priority).Patient n :=
    hpatient₁.of_update (fun j => get?_dispatched queued next j u.priority) (fun _ => rfl)
      fun _ => rfl
  exact ⟨next, _, _, h.run_passes hpick,
    horderly₁.dispatched hu hready fun _ _ hv => h.vacant_readied horderly hv, hpatient', hring,
    hpriority, hothers⟩

/-- A round turns the ring by one. -/
theorem Ring.round (h : s.Ring me t ring) (horderly : s.Orderly) (hpatient : s.Patient (n + 1)) :
    ∃ next u s', s.run round = some (s', [me]) ∧ s'.Orderly ∧ s'.Patient n ∧
      s'.Ring next u (ring.rotate 1) ∧ u.priority = t.priority ∧
      ∀ p, p ≠ t.priority → s'.ready.level p = s.ready.level p := by
  obtain ⟨report, ticked, htick, horderly₁, hroused, -⟩ := horderly.tick
  have hlevel := hpatient.level_tick horderly htick
  have hnone : t.waitingFor = none :=
    (horderly.tidy h.record).waitingFor_eq_none (by simp [h.running])
  have hring : ticked.Ring me t ring := by
    refine ⟨hroused.current.trans h.current, ?_, h.running, (hlevel _).symm ▸ h.ring,
      fun p hp => (hlevel p).trans (h.above p hp)⟩
    rw [horderly.get?_tick htick, h.record, Option.map_some,
      Thread.chime_of_untimed (by simp [hnone])]
  obtain ⟨next, u, s', hrun, horderly', hpatient', hring', hpriority, hsame⟩ :=
    hring.passes horderly₁ (hpatient.tick horderly htick)
  refine ⟨next, u, s', run_cons_iff.mpr ⟨ticked, [], [me], rfl, ?_, hrun, rfl⟩, horderly',
    hpatient', hring', hpriority, fun p hp => (hsame p hp).trans (hlevel p)⟩
  rw [Act.perform, htick]
  exact congrArg (fun arrived => some (ticked, arrived)) (hpatient.nobody_reported horderly htick)

/-- Any number of rounds turn the ring as often, and touch no other level. -/
theorem Ring.rounds (h : s.Ring me t ring) (horderly : s.Orderly) (hpatient : s.Patient n) :
    ∃ next u s' arrived, s.run (rounds n) = some (s', arrived) ∧ s'.Ring next u (ring.rotate n) ∧
      u.priority = t.priority ∧ ∀ p, p ≠ t.priority → s'.ready.level p = s.ready.level p := by
  induction n generalizing s me t ring with
  | zero => exact ⟨me, t, s, [], rfl, (List.rotate_zero ring).symm ▸ h, rfl, fun _ _ => rfl⟩
  | succ n ih =>
    obtain ⟨_, _, s₁, hfirst, horderly₁, hpatient₁, hring₁, hpriority₁, hsame₁⟩ :=
      h.round horderly hpatient
    obtain ⟨next, u, s', later, hrest, hring, hpriority, hsame⟩ := ih hring₁ horderly₁ hpatient₁
    refine ⟨next, u, s', _, run_append hfirst hrest, ?_, hpriority.trans hpriority₁,
      fun p hp => (hsame p (hpriority₁ ▸ hp)).trans (hsame₁ p hp)⟩
    rwa [List.rotate_rotate, Nat.add_comm] at hring

/-! ## The law -/

/-- What is promised of a scheduler to whose ready queue threads have arrived in a given order. -/
structure InTurn (s : Scheduler κ) (arrived : List ThreadId) : Prop where
  /-- The line has the ready threads. -/
  mem_line : ∀ {id}, id ∈ s.line arrived ↔ s.state? id = some .ready
  /-- It has them in the order in which they became ready. -/
  ordered : ∀ {a b}, [a, b].Sublist (s.line arrived) → LastBefore arrived a b
  /-- The four levels of the queue are the parts of the line. -/
  level : ∀ p, s.ready.level p = (s.line arrived).filter (s.hasPriority p)
  /-- Whoever is picked became ready first among those of the highest priority. -/
  picks : ∀ {switch s'}, s.pickNext = .ok (switch, s') →
    switch.source = s.current ∧ ∃ t, s.Picks s' arrived switch.target t
  /-- Somebody is picked if somebody is ready. -/
  picked : ∀ {id}, s.state? id = some .ready → ∃ switch s', s.pickNext = .ok (switch, s')
  /-- In rounds in which nobody's wait runs out, the threads at the highest level take turns, each
  after all the others, and no other level changes. -/
  rounds : ∀ {me t ring n}, s.Ring me t ring → s.Patient n → ∃ next u s' later,
    s.run (rounds n) = some (s', later) ∧ ring[n % ring.length]? = some next ∧
      s'.Ring next u (ring.rotate n) ∧ u.priority = t.priority ∧
      ∀ p, p ≠ t.priority → s'.ready.level p = s.ready.level p

/-- In a scheduler that has been used as it is meant to be, threads get the processor in turn. -/
theorem inTurn_of_run (hrun : ({} : Scheduler κ).run acts = some (s, arrived)) :
    s.InTurn arrived := by
  obtain ⟨horderly, -, hsub, -⟩ := carries_of_run hrun
  refine ⟨horderly.mem_line_iff hsub, fun hpair => ?_, fun p => horderly.level_eq (hsub p),
    horderly.picks hsub, horderly.exists_pickNext, fun {me t ring n} hring hpatient => ?_⟩
  · exact lastBefore_of_sublist (hpair.trans List.filter_sublist)
  · obtain ⟨next, u, s', later, hrounds, hturned, hpriority, hsame⟩ :=
      hring.rounds horderly hpatient
    refine ⟨next, u, s', later, hrounds, ?_, hturned, hpriority, hsame⟩
    have hlength : 0 < ring.length := by rw [← hring.ring]; exact Nat.succ_pos _
    rw [← List.head?_rotate (Nat.mod_lt n hlength), List.rotate_mod, ← hturned.ring]
    rfl

/-- Five threads are made ready, and the first that runs goes to sleep. -/
def carousel : List (Act Unit) :=
  [.addThread "early" .normal none, .addThread "first" .normal none,
    .addThread "second" .normal none, .addThread "third" .normal none,
    .addThread "below" .low none, .makeReady ⟨1⟩, .makeReady ⟨2⟩, .makeReady ⟨5⟩, .makeReady ⟨3⟩,
    .makeReady ⟨4⟩, .pickNext, .block ⟨1⟩ .sleep (.ticks 6), .pickNext]

/-- The three threads that are left at the level take turns while the other one sleeps. -/
theorem inTurn_carousel : ∃ s arrived t, ({} : Scheduler Unit).run carousel = some (s, arrived) ∧
    s.InTurn arrived ∧ s.Ring ⟨2⟩ t [⟨2⟩, ⟨3⟩, ⟨4⟩] ∧ s.Patient 5 ∧
    ∃ u s' later, s.run (rounds 5) = some (s', later) ∧ s'.Ring ⟨4⟩ u [⟨4⟩, ⟨2⟩, ⟨3⟩] := by
  have hfacts : (({} : Scheduler Unit).run carousel).any (fun (s, _) => s.current == some ⟨2⟩ &&
      (s.threads.get? ⟨2⟩).any (fun t => t.state == .running && t.priority == .normal) &&
      s.ready == { normal := [⟨3⟩, ⟨4⟩], low := [⟨5⟩] } &&
      s.threads.entries.all fun entry => entry.2.waitingFor.isNone ||
        entry.2.countdown == .remaining 6) := by
    decide +kernel
  obtain ⟨⟨s, arrived⟩, hrun, hfacts⟩ := Option.any_eq_true _ _ |>.mp hfacts
  simp only [Bool.and_eq_true, beq_iff_eq, List.all_eq_true] at hfacts
  obtain ⟨⟨⟨hcurrent, hrecord⟩, hready⟩, hcountdowns⟩ := hfacts
  obtain ⟨t, ht, hthread⟩ := Option.any_eq_true _ _ |>.mp hrecord
  obtain ⟨hrunning, hpriority⟩ : t.state = .running ∧ t.priority = .normal := by
    simpa using hthread
  have hring : s.Ring ⟨2⟩ t [⟨2⟩, ⟨3⟩, ⟨4⟩] := by
    refine ⟨hcurrent, ht, hrunning, by rw [hpriority, hready]; rfl, fun p hp => ?_⟩
    rw [hpriority] at hp
    rw [hready]
    revert hp
    cases p <;> decide
  have hpatient : s.Patient 5 := by
    intro id u left hu htimed hleft
    have hwaits := hcountdowns _ (Registry.mem_entries_of_get? hu)
    obtain rfl : left = 6 := by
      cases hwaiting : u.waitingFor with
      | none => simp [hwaiting] at htimed
      | some reason => simpa [hwaiting, hleft] using hwaits
    decide
  have hturns := inTurn_of_run hrun
  obtain ⟨next, u, s', later, hrounds, hnext, hring', -⟩ := hturns.rounds hring hpatient
  obtain rfl : ⟨4⟩ = next := Option.some.inj hnext
  exact ⟨s, arrived, t, hrun, hturns, hring, hpatient, u, s', later, hrounds, hring'⟩

end CoopKernel.Scheduler
