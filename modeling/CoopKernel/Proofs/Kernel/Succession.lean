import CoopKernel.Proofs.Kernel.Completion
import CoopKernel.Proofs.Kernel.Enacting
import CoopKernel.Proofs.Kernel.Entries
import CoopKernel.Proofs.Kernel.Excision
import CoopKernel.Proofs.Kernel.Lasting
import CoopKernel.Proofs.Kernel.Releases

/-!
# Who has a mutex next

A mutex that somebody waits for changes hands in three ways only: its owner releases it, the owner
is terminated, or the owner's program ends. Each time it goes to the waiter who is next in line
(`Kernel.NextInLine`): nobody else who waits for it has a higher priority, and of those with the
same priority this one has waited longest. The others stay where they are (`Kernel.Passes`), and
nobody else can get hold of the mutex in between, because a mutex that somebody waits for is never
free.
-/

namespace CoopKernel

variable {ε : Type}

theorem Move.releases_iff {move : Move ε} {m : MutexId} :
    move.releases m = true ↔ move = .call (.mutexRelease m) := by
  constructor
  · intro h
    unfold releases at h
    split at h
    · rw [beq_iff_eq.mp h]
    · cases h
  · rintro rfl
    exact beq_self_eq_true m

namespace Scheduler

variable {κ : Type} {s s' : Scheduler κ} {m : MutexId} {id : ThreadId} {t c : Thread κ}

/-! ## Passing a mutex on -/

/-- A mutex has passed to the first of those who waited for it, or to nobody if there were none, and
those who wait for it still stand in the order in which they stood. -/
def Bequeathed (s s' : Scheduler κ) (m : MutexId) : Prop :=
  ∀ x, s.mutexes.get? m = some x → ∃ x', s'.mutexes.get? m = some x' ∧ x'.owner = x.heir ∧
    ∀ p, (x'.waiters.level p).Sublist (x.waiters.level p)

theorem sublist_level_without (queue : LevelQueue ThreadId) (gone : List ThreadId) (p : Priority) :
    ((queue.without gone).level p).Sublist (queue.level p) := by
  rw [LevelQueue.level_without]
  exact List.filter_sublist

theorem Handed.bequeathed {ms : List MutexId} {handoffs : List (MutexId × ThreadId)}
    (h : s.Handed s' ms handoffs) (hm : m ∈ ms) : s.Bequeathed s' m := by
  intro x hx
  refine ⟨_, by rw [h.mutexes, hx, Option.map_some], if_pos hm, sublist_level_without _ _⟩

theorem Excised.bequeathed {report : Termination} (h : s.Excised s' id t c report)
    (hm : m ∈ t.held) : s.Bequeathed s' m := by
  intro x hx
  refine ⟨_, by rw [h.mutexes, hx, Option.map_some], if_pos hm, sublist_level_without _ _⟩

/-- What happens later without touching the mutexes makes no difference. -/
theorem Bequeathed.of_mutexes {s'' : Scheduler κ} (h : s.Bequeathed s' m)
    (hmutexes : s''.mutexes = s'.mutexes) : s.Bequeathed s'' m := by
  intro x hx
  rw [hmutexes]
  exact h x hx

/-- The owner of a mutex hands it to the first of those who wait for it. Nobody else is affected. -/
structure HandsOver (s s' : Scheduler κ) (m : MutexId) (owner id : ThreadId) : Prop where
  orderly : s'.Orderly
  current : s'.current = s.current
  bequeathed : s.Bequeathed s' m
  receives : s'.threads.get? id = (s.threads.get? id).map (·.receive m)
  letsGo : s'.threads.get? owner = (s.threads.get? owner).map (·.letGo m)
  others : ∀ {j}, j ≠ id → j ≠ owner → s'.threads.get? j = s.threads.get? j

theorem Orderly.handOver_heir {x : Mutex} {owner : ThreadId} (h : s.Orderly)
    (hx : s.mutexes.get? m = some x) (howner : x.owner = some owner)
    (ht : s.threads.get? owner = some t) (hheir : x.heir = some id) :
    id ≠ owner ∧ ∃ s', s.handOver m owner = .ok (some id, s') ∧ s.HandsOver s' m owner id := by
  obtain ⟨next, s', heq, horderly, hcurrent, hnext, hget⟩ := h.handOver hx howner ht
  have hhanded := h.handOver_handed hx howner ht heq
  obtain rfl : next = some id := by
    have hanswer := hhanded.answer
    cases next <;> simp_all [Scheduler.heir]
  obtain ⟨hne, -⟩ := hnext id rfl
  refine ⟨hne, s', heq, horderly, hcurrent, hhanded.bequeathed List.mem_cons_self, ?_, ?_, ?_⟩
  · rw [hget, if_pos rfl]
  · rw [hget, if_neg (mt Option.some.inj hne), if_pos rfl]
  · intro j hid hother
    rw [hget, if_neg (mt Option.some.inj (Ne.symm hid)), if_neg hother]

theorem mutexes_requeueCurrent (h : s.requeueCurrent = .ok s') : s'.mutexes = s.mutexes := by
  rw [requeueCurrent] at h
  cases hcurrent : s.current with
  | none =>
    rw [hcurrent] at h
    exact Except.ok.inj h ▸ rfl
  | some me =>
    rw [hcurrent] at h
    obtain ⟨t, -, h⟩ := bind_eq_ok h
    split at h
    · obtain ⟨_, -, h⟩ := bind_eq_ok h
      exact Except.ok.inj h ▸ rfl
    · exact Except.ok.inj h ▸ rfl

theorem mutexes_pickNext {switch : Switch} (h : s.pickNext = .ok (switch, s')) :
    s'.mutexes = s.mutexes := by
  rw [pickNext] at h
  cases htaken : s.ready.takeHighest? (fun _ => true) with
  | none =>
    rw [htaken] at h
    cases h
  | some taken =>
    rw [htaken] at h
    obtain ⟨_, -, h⟩ := bind_eq_ok h
    obtain ⟨-, rfl⟩ := Prod.mk.inj (Except.ok.inj h)
    rfl

end Scheduler

namespace Kernel

variable {W : PoolId → Prop} {k k' : Kernel ε} {me id owner : ThreadId} {m : MutexId}
  {t u : Thread (Position ε)} {move : Move ε} {here : Position ε}

/-! ## The next in line -/

/-- A thread waits for a mutex, nobody else who waits for it has a higher priority, and of those
with the same priority it has waited longest. -/
structure NextInLine (k : Kernel ε) (m : MutexId) (id : ThreadId) (u : Thread (Position ε)) :
    Prop where
  record : k.sched.threads.get? id = some u
  waiting : u.state = .waiting
  wanted : u.wanted = some m
  highest : ∀ {j v}, k.sched.threads.get? j = some v → v.wanted = some m →
    v.priority ≤ u.priority
  longest : ∀ {j v}, k.sched.threads.get? j = some v → v.wanted = some m →
    v.priority = u.priority → j ≠ id → LastBefore k.blockings id j

/-- A mutex that somebody waits for has an heir. -/
theorem Sound.exists_heir (h : k.Sound W) {x : Mutex} (hx : k.sched.mutexes.get? m = some x)
    (hwants : k.Wants id m) : ∃ heir, x.heir = some heir := by
  obtain ⟨t, ht, hwanted⟩ := hwants
  obtain ⟨⟨heir, waiters⟩, hserved⟩ := LevelQueue.exists_takeHighest?_true
    ((h.upright.orderly.owned.mem_waiters hx id t.priority).mpr ⟨t, ht, hwanted, rfl⟩)
  exact ⟨heir, by rw [Mutex.heir_eq, hserved, Option.map_some]⟩

/-- The first waiter of the highest level is next in line. -/
theorem Reachable.nextInLine (h : k.Reachable) {x : Mutex} (hx : k.sched.mutexes.get? m = some x)
    (hheir : x.heir = some id) : ∃ u, k.NextInLine m id u := by
  have horderly := h.sound.upright.orderly
  have hmem := fun j p => horderly.owned.mem_waiters hx j p
  rw [Mutex.heir_eq] at hheir
  obtain ⟨⟨first, waiters⟩, hserved, rfl⟩ := Option.map_eq_some_iff.mp hheir
  obtain ⟨p, rest, hlevel, -, habove⟩ := LevelQueue.takeHighest?_true hserved
  obtain ⟨u, hu, hwanted, rfl⟩ := (hmem first p).mp (hlevel ▸ List.mem_cons_self)
  refine ⟨u, hu, ((horderly.tidy hu).waiting_of_wanted hwanted).1, hwanted, ?_, ?_⟩
  · intro j v hv hwants
    rw [← Priority.not_lt]
    intro hlt
    have hqueued := (hmem j v.priority).mpr ⟨v, hv, hwants, rfl⟩
    rw [habove _ hlt] at hqueued
    cases hqueued
  · intro j v hv hwants hpriority hne
    have hqueued := (hmem j u.priority).mpr ⟨v, hv, hwants, hpriority⟩
    rw [hlevel] at hqueued
    have hlater : j ∈ rest := (List.mem_cons.mp hqueued).resolve_left hne
    have hpair : [first, j].Sublist (x.waiters.level u.priority) := by
      rw [hlevel]
      exact (List.singleton_sublist.mpr hlater).cons_cons first
    exact lastBefore_of_sublist (hpair.trans (h.sublist_blockings (.waiters hx u.priority)))

/-! ## Moves that leave the mutexes alone -/

theorem mutexes_switchNext (hrun : k.switchNext here = .ok k') :
    k'.sched.mutexes = k.sched.mutexes := by
  obtain ⟨-, _, target, s', hpick, hgoes⟩ := switchNext_cases hrun
  have hsame := Scheduler.mutexes_pickNext hpick
  rcases hgoes with ⟨-, rfl⟩ | ⟨-, there, -, rfl⟩
  · rwa [sched_resume]
  · rwa [sched_resume]

theorem mutexes_yield (hrun : k.yield here = .ok k') : k'.sched.mutexes = k.sched.mutexes := by
  rw [yield] at hrun
  obtain ⟨s', hqueued, hrun⟩ := bind_eq_ok hrun
  exact (mutexes_switchNext hrun).trans (Scheduler.mutexes_requeueCurrent hqueued)

theorem mutexes_preemptFor {answer : Answer} (hrun : k.preemptFor id answer = .ok k') :
    k'.sched.mutexes = k.sched.mutexes := by
  rw [preemptFor] at hrun
  obtain ⟨outranks, -, hrun⟩ := bind_eq_ok hrun
  cases outranks with
  | false => exact Except.ok.inj hrun ▸ rfl
  | true => exact mutexes_yield (k := k.emit (.preempt id)) hrun

/-! ## Moves that give a mutex up -/

/-- What becomes of a thread that has released a mutex to one that waited for it: it goes on at once
unless the new owner outranks it. -/
structure Concedes (k' : Kernel ε) (me : ThreadId) (c : Thread (Position ε)) (m : MutexId)
    (id : ThreadId) (u : Thread (Position ε)) : Prop where
  goesOn : u.priority ≤ c.priority →
    k'.sched.current = some me ∧ k'.activity = .delivering (.reply (.ok .done))
  /-- The new owner goes on where it waited, and the reply is still to come. -/
  givesWay : c.priority < u.priority → k'.sched.current = some id ∧
    k'.activity.position? = u.position ∧ k'.sched.threads.get? me = some { c.letGo m with
      state := .ready, position := some (.inside (.reply (.ok .done))) }

/-- Nobody who is ready outranks a thread that has just handed a mutex over, except perhaps its new
owner. -/
theorem Serving.unrivalled_handOver {s' : Scheduler (Position ε)} {j : ThreadId}
    {w : Thread (Position ε)} (h : k.Serving W me t) (hhands : k.sched.HandsOver s' m me id)
    (hj : j ≠ id) (hw : s'.threads.get? j = some w) (hready : w.state = .ready) :
    w.priority ≤ t.priority := by
  by_cases hme : j = me
  · rw [hme, hhands.letsGo, h.record] at hw
    obtain rfl := Option.some.inj hw
    cases h.running.symm.trans hready
  · exact h.unrivalled ((hhands.others hj hme).symm.trans hw) hready

theorem Serving.release_concedes (h : k.Serving W me t) {x : Mutex}
    (hx : k.sched.mutexes.get? m = some x) (howner : x.owner = some me) (hheir : x.heir = some id)
    (hu : k.sched.threads.get? id = some u) (hrun : k.release m = .ok k') :
    k.sched.Bequeathed k'.sched m ∧ k'.Concedes me t m id u := by
  obtain ⟨-, s', heq, hhands⟩ := h.settled.sched.handOver_heir hx howner h.record hheir
  let passed : Kernel ε :=
    (({ k with sched := s' } : Kernel ε).emit (.release m me)).emit (.handoff m id)
  rw [Kernel.release, h.me_eq] at hrun
  change k.orFail (k.sched.release m me) _ = _ at hrun
  rw [Scheduler.release_eq hx, if_pos howner, heq] at hrun
  change passed.preemptFor id (.ok .done) = _ at hrun
  refine ⟨hhands.bequeathed.of_mutexes (mutexes_preemptFor hrun), ?_⟩
  have hcurrent : s'.current = some me := hhands.current.trans h.current
  have hme : s'.threads.get? me = some (t.letGo m) := by
    rw [hhands.letsGo, h.record, Option.map_some]
  have hid : s'.threads.get? id = some (u.receive m) := by
    rw [hhands.receives, hu, Option.map_some]
  rcases preemptFor_cases (m := passed) hhands.orderly h.inside hcurrent hme h.running hid rfl
    (h.unrivalled_handOver hhands) hrun with ⟨hle, rfl⟩ | ⟨houtranks, -, -, hgives⟩
  · exact ⟨fun _ => ⟨hcurrent, rfl⟩, fun hlt => absurd hlt (Priority.not_lt.mpr hle)⟩
  · exact ⟨fun hle => absurd houtranks (Priority.not_lt.mpr hle),
      fun _ => ⟨hgives.current, hgives.goesOn, hgives.caller⟩⟩

theorem Runs.terminate_bequeaths (h : k.Runs W me t) (hu : k.sched.threads.get? id = some u)
    (hm : m ∈ u.held) (hrun : k.terminate id = .ok k') :
    k'.sched = k.sched ∨ k.sched.Bequeathed k'.sched m := by
  have halive : u.state ≠ .dead := fun hdead => by
    rw [h.settled.emptyHanded hu hdead] at hm
    cases hm
  rw [Kernel.terminate] at hrun
  split at hrun
  · exact .inl (Except.ok.inj hrun ▸ rfl)
  · obtain ⟨report, s', heq, hexcised⟩ :=
      (h.settled.sched.excised h.settled.emptyHanded hu h.current h.record).2 halive
    rw [heq] at hrun
    change (if report.previous = .running then _ else if report.preempt then _ else _) = _ at hrun
    rw [parted_terminate] at hrun
    refine .inr ((hexcised.bequeathed hm).of_mutexes ?_)
    split at hrun
    · exact mutexes_switchNext hrun
    · split at hrun
      · exact mutexes_yield hrun
      · exact Except.ok.inj hrun ▸ rfl

theorem Runs.exit_bequeaths (h : k.Runs W me t) (hinside : k.gate.inside = false)
    (hm : m ∈ t.held) (hrun : k.exit = .ok k') : k.sched.Bequeathed k'.sched m := by
  obtain ⟨report, s', heq, hexcised⟩ :=
    (h.settled.sched.excised h.settled.emptyHanded h.record h.current h.record).2
      (by simp [h.running])
  obtain ⟨switch, picked, there, hpick, -, rfl⟩ := h.exit_eq_ok hinside heq hrun
  refine (hexcised.bequeathed hm).of_mutexes ?_
  rw [sched_resume]
  exact Scheduler.mutexes_pickNext hpick

/-- Nobody loses a mutex except by releasing it or by the end of its life. -/
theorem Sound.gives_up (h : k.Sound W) (hallowed : k.allows move = true)
    (hrun : k.perform move = .ok k') (howns : k.Owns owner m) (hnot : ¬ k'.Owns owner m) :
    move = .call (.threadTerminate owner) ∨
      k.sched.current = some owner ∧ (move = .exit ∨ move = .call (.mutexRelease m)) := by
  have hmoved := h.moved hallowed hrun
  have hholds := h.owns_iff.mp howns
  have hlives := h.lives hholds
  by_contra hother
  rw [not_or, not_and, not_or] at hother
  have hlives' := hmoved.lives hlives hother.1 fun hcurrent => (hother.2 hcurrent).1
  have hkeeps : k.sched.current = some owner → move.releases m = false := by
    intro hcurrent
    rw [← Bool.not_eq_true, Move.releases_iff]
    exact (hother.2 hcurrent).2
  exact hnot ((h.performed hallowed hrun).owns_iff.mpr (hmoved.holds hlives hlives' hkeeps hholds))

/-- A mutex that is given up passes to the first of those who wait for it. -/
theorem Sound.bequeaths (h : k.Sound W) (hallowed : k.allows move = true)
    (hrun : k.perform move = .ok k') (howns : k.Owns owner m) (hnot : ¬ k'.Owns owner m)
    {x : Mutex} (hx : k.sched.mutexes.get? m = some x) (hheir : x.heir = some id)
    (hu : k.sched.threads.get? id = some u) : k.sched.Bequeathed k'.sched m := by
  have hchanged : k'.sched ≠ k.sched := by
    intro hsame
    rw [Owns, hsame] at hnot
    exact hnot howns
  have hcalling : k.inProgram = true → ∃ me t, k.Calling W me t := fun hprogram =>
    (h.calling (inProgram_iff.mp hprogram)).resolve_left fun hhalted => by
      cases (h.moved hallowed hrun).effect with
      | still hsched _ _ _ _ => exact hchanged hsched
      | turn hgoing _ _ => simp [hhalted.stopped] at hgoing
      | shutdown hgoing _ _ _ _ _ _ _ _ => simp [hhalted.stopped] at hgoing
  obtain ⟨c, hc, hm⟩ := h.owns_iff.mp howns
  rcases h.gives_up hallowed hrun howns hnot with rfl | ⟨hcurrent, rfl | rfl⟩
  · obtain ⟨me, t, hcalling⟩ := hcalling hallowed
    change k.inSection _ = _ at hrun
    rw [hcalling.inSection_eq] at hrun
    exact (hcalling.serving.terminate_bequeaths hc hm hrun).resolve_left hchanged
  · rw [allows, Bool.and_eq_true] at hallowed
    obtain ⟨me, t, hcalling⟩ := hcalling hallowed.1
    obtain rfl := Option.some.inj (hcurrent.symm.trans hcalling.current)
    obtain rfl := Option.some.inj (hc.symm.trans hcalling.record)
    exact hcalling.exit_bequeaths hcalling.outside hm hrun
  · obtain ⟨me, t, hcalling⟩ := hcalling hallowed
    obtain rfl := Option.some.inj (hcurrent.symm.trans hcalling.current)
    obtain ⟨y, hy, howner⟩ := howns
    obtain rfl := Option.some.inj (hx.symm.trans hy)
    change k.inSection _ = _ at hrun
    rw [hcalling.inSection_eq] at hrun
    exact (hcalling.serving.release_concedes hx howner hheir hu hrun).1

/-! ## Who gets it -/

/-- A mutex has passed in a move to the next in line. Everybody else who waited for it and is alive
waits on, where it stood. -/
structure Passes (k k' : Kernel ε) (m : MutexId) (id : ThreadId) (u : Thread (Position ε)) :
    Prop where
  next : k.NextInLine m id u
  owns : k'.Owns id m
  ready : k'.CanRun id
  others : ∀ {j}, k.Wants j m → j ≠ id → k'.lives j = true → k'.Wants j m
  order : ∀ {x x'}, k.sched.mutexes.get? m = some x → k'.sched.mutexes.get? m = some x' →
    ∀ p, (x'.waiters.level p).Sublist (x.waiters.level p)

/-- Whoever waits for a mutex and lives through a move that processes no tick waits on, or has the
mutex then and can run. -/
theorem Sound.waits_on (h : k.Sound W) (hallowed : k.allows move = true)
    (hrun : k.perform move = .ok k') (hquiet : k.takes move = []) (hwants : k.Wants id m)
    (hlives : k'.lives id = true) : k'.Wants id m ∨ k'.Owns id m ∧ k'.CanRun id := by
  have hmoved := h.moved hallowed hrun
  obtain ⟨t, ht, hwanted⟩ := hwants
  cases hmoved.effect with
  | still hsched _ _ _ _ => exact .inl ⟨t, by rw [hsched, ht], hwanted⟩
  | shutdown _ _ _ _ _ hsched _ _ _ =>
    obtain ⟨u, hu, -⟩ := lives_iff.mp hlives
    obtain ⟨v, hv, hsame⟩ := exists_of_forgotten hsched hu
    obtain rfl := Option.some.inj (ht.symm.trans hv)
    exact .inl ⟨u, hu, (congrArg Thread.wanted hsame).symm.trans hwanted⟩
  | @turn me ticking events hgoing hcurrent hturn =>
    have hid : id ≠ me := by
      rintro rfl
      exact h.not_current_of_wants ⟨t, ht, hwanted⟩ hcurrent
    obtain ⟨hstanding, t', hstands', halive, hfate⟩ := hturn.other h hcurrent hid hlives
    rw [hstanding, ht] at hfate
    rcases hfate.of_wanting (h.upright.orderly.tidy ht) hwanted halive with
      ⟨-, rfl⟩ | ⟨rfl, -⟩ | ⟨rfl, -⟩
    · exact .inl ((wants_iff hstands').mpr hwanted)
    · have hticks : k'.sched.ticks = k.sched.ticks + 1 := hturn.ticks
      rw [hmoved.ticks hgoing, hquiet] at hticks
      exact absurd (Nat.add_left_cancel hticks) Nat.zero_ne_one
    · have hmem : m ∈ (t.receive m).held := (Thread.mem_held_hold t m m).mpr (.inl rfl)
      exact .inr ⟨(h.performed hallowed hrun).owns_iff.mpr ((holds_iff hstands').mpr hmem),
        .of_standing hstands' rfl⟩

/-- A mutex that is given up while somebody waits for it passes to the next in line. -/
theorem Reachable.passes (h : k.Reachable) (hallowed : k.allows move = true)
    (hrun : k.perform move = .ok k') (howns : k.Owns owner m) (hnot : ¬ k'.Owns owner m)
    (hwants : k.Wants id m) : ∃ heir u, k.Passes k' m heir u := by
  have hsound := h.sound
  have hsound' := hsound.performed hallowed hrun
  have hquiet : k.takes move = [] := by
    rcases hsound.gives_up hallowed hrun howns hnot with rfl | ⟨-, rfl | rfl⟩ <;> rfl
  have ⟨x, hx, _⟩ := howns
  obtain ⟨heir, hheir⟩ := hsound.exists_heir hx hwants
  obtain ⟨u, hnext⟩ := h.nextInLine hx hheir
  obtain ⟨x', hx', hpassed, hsublist⟩ :=
    hsound.bequeaths hallowed hrun howns hnot hx hheir hnext.record x hx
  have hmine : k'.Owns heir m := ⟨x', hx', hpassed.trans hheir⟩
  refine ⟨heir, u, hnext, hmine, ?_, fun {j} hj hne hlives => ?_, fun {y y'} hy hy' => ?_⟩
  · have hlives := hsound'.lives (hsound'.owns_iff.mp hmine)
    refine ((hsound.waits_on hallowed hrun hquiet ⟨u, hnext.record, hnext.wanted⟩
      hlives).resolve_left fun hwants => ?_).2
    exact hsound'.not_holds_of_wants hwants (hsound'.owns_iff.mp hmine)
  · exact (hsound.waits_on hallowed hrun hquiet hj hlives).resolve_right
      fun hother => hne (hother.1.unique hmine)
  · obtain rfl := Option.some.inj (hx.symm.trans hy)
    obtain rfl := Option.some.inj (hx'.symm.trans hy')
    exact hsublist

/-! ## Every kernel -/

/-- How mutexes change hands while threads wait for them. -/
structure Succession (k : Kernel ε) : Prop where
  /-- A mutex that somebody waits for is not free. -/
  taken : ∀ {id m}, k.Wants id m → ∃ owner, owner ≠ id ∧ k.Owns owner m
  /-- Its owner is alive, so that the end of the owner's life gives it up. -/
  alive : ∀ {owner m}, k.Owns owner m → k.lives owner = true
  /-- Whenever it is given up, it passes to the next in line. -/
  passes : ∀ {move k' owner id m}, k.allows move = true → k.perform move = .ok k' →
    k.Owns owner m → ¬ k'.Owns owner m → k.Wants id m → ∃ heir u, k.Passes k' m heir u
  /-- Whoever gets hold of it instead of a thread that waits has waited as well, and outranks that
  thread or has waited longer. -/
  overtakes : ∀ {move k' id other m t}, k.allows move = true → k.perform move = .ok k' →
    k.sched.threads.get? id = some t → t.wanted = some m → other ≠ id →
    ¬ k.Owns other m → k'.Owns other m → ∃ u, k.sched.threads.get? other = some u ∧
      u.wanted = some m ∧ t.priority ≤ u.priority ∧
        (t.priority = u.priority → LastBefore k.blockings other id)
  /-- Whoever releases it gives way at once to a new owner of a higher priority. -/
  release : ∀ {me id m}, k.stopped = false → k.inProgram = true → k.sched.current = some me →
    k.Owns me m → k.Wants id m → ∃ k' c heir u, k.call (.mutexRelease m) = .ok k' ∧
      k.sched.threads.get? me = some c ∧ k.Passes k' m heir u ∧ k'.Concedes me c m heir u

theorem Sound.taken (h : k.Sound W) (hwants : k.Wants id m) :
    ∃ owner, owner ≠ id ∧ k.Owns owner m := by
  obtain ⟨t, ht, hwanted⟩ := hwants
  obtain ⟨x, owner, hx, howner, hne⟩ := h.upright.orderly.owned.wanted_owned ht hwanted
  exact ⟨owner, hne, x, hx, howner⟩

theorem Reachable.succession (h : k.Reachable) : k.Succession where
  taken := h.sound.taken
  alive := fun howns => h.sound.lives (h.sound.owns_iff.mp howns)
  passes := h.passes
  overtakes := by
    intro move k' id other m t hallowed hrun ht hwanted hne hnot howns'
    obtain ⟨owner, -, howns⟩ := h.sound.taken ⟨t, ht, hwanted⟩
    have hlost : ¬ k'.Owns owner m := fun hkept => hnot (howns'.unique hkept ▸ howns)
    obtain ⟨heir, u, hpasses⟩ := h.passes hallowed hrun howns hlost ⟨t, ht, hwanted⟩
    obtain rfl := howns'.unique hpasses.owns
    exact ⟨u, hpasses.next.record, hpasses.next.wanted, hpasses.next.highest ht hwanted,
      fun hpriority => hpasses.next.longest ht hwanted hpriority (Ne.symm hne)⟩
  release := by
    intro me id m hgoing hprogram hcurrent howns hwants
    have hallowed := allows_call (.mutexRelease m) hprogram
    obtain ⟨k', hcall, -⟩ := h.sound.perform hallowed
    obtain ⟨me', c, hcalling⟩ := (h.sound.calling (inProgram_iff.mp hprogram)).resolve_left
      fun hhalted => by simp [hhalted.stopped] at hgoing
    obtain rfl := Option.some.inj (hcurrent.symm.trans hcalling.current)
    have ⟨x, hx, howner⟩ := howns
    obtain ⟨heir, hheir⟩ := h.sound.exists_heir hx hwants
    have hrun := hcall
    change k.inSection _ = _ at hrun
    rw [hcalling.inSection_eq] at hrun
    obtain ⟨u, hnext⟩ := h.nextInLine hx hheir
    obtain ⟨hpassed, hconcedes⟩ :=
      hcalling.serving.release_concedes hx howner hheir hnext.record hrun
    obtain ⟨x', hx', hnew, -⟩ := hpassed x hx
    have hheirs : k'.Owns heir m := ⟨x', hx', hnew.trans hheir⟩
    have hlost : ¬ k'.Owns me m := by
      intro hkept
      -- Nobody waits for a mutex of its own.
      rw [hkept.unique hheirs] at howns
      exact h.sound.not_holds_of_wants ⟨u, hnext.record, hnext.wanted⟩ (h.sound.owns_iff.mp howns)
    obtain ⟨heir', v, hpasses⟩ := h.passes hallowed hcall howns hlost hwants
    obtain rfl := hheirs.unique hpasses.owns
    obtain rfl := Option.some.inj (hnext.record.symm.trans hpasses.next.record)
    exact ⟨k', c, heir, u, hcall, hcalling.record, hpasses, hconcedes⟩

/-- A run at whose end three threads wait for a mutex of the main thread: thread 3, of the priority
of the main thread, came first, and threads 4 and 5, of a higher priority, came later. -/
def queued : List (Move Unit) :=
  [answered .mutexCreate, answered (.mutexAcquire ⟨1⟩ .infinite),
    answered (.threadCreate () 4096 .normal), answered (.threadCreate () 4096 .high),
    answered (.threadCreate () 4096 .high), answered (.threadActivate ⟨3⟩),
    [.call (.sleep .immediate), .advance, .advance],
    [.call (.mutexAcquire ⟨1⟩ .infinite), .advance, .advance, .advance],
    [.call (.threadActivate ⟨4⟩), .advance, .advance],
    [.call (.mutexAcquire ⟨1⟩ .infinite), .advance, .advance, .advance],
    [.call (.threadActivate ⟨5⟩), .advance, .advance],
    [.call (.mutexAcquire ⟨1⟩ .infinite), .advance, .advance, .advance]].flatten

theorem Reachable.succession_queued : ∃ (k k' : Kernel Unit) (x : Mutex) (u : Thread _),
    afterRun {} {} queued = some k ∧ k.Succession ∧ k.sched.mutexes.get? ⟨1⟩ = some x ∧
      x = { owner := some ⟨1⟩, waiters := { normal := [⟨3⟩], high := [⟨4⟩, ⟨5⟩] } } ∧
      k.call (.mutexRelease ⟨1⟩) = .ok k' ∧ k.Passes k' ⟨1⟩ ⟨4⟩ u ∧
      k'.sched.current = some ⟨4⟩ := by
  have hrun : (afterRun {} {} queued).any (fun k : Kernel Unit =>
      !k.stopped && k.inProgram && k.sched.current == some ⟨1⟩ &&
        k.sched.mutexes.get? ⟨1⟩ ==
          some { owner := some ⟨1⟩, waiters := { normal := [⟨3⟩], high := [⟨4⟩, ⟨5⟩] } } &&
        ((k.sched.threads.get? ⟨3⟩).any fun t => t.wanted == some ⟨1⟩) &&
        (k.call (.mutexRelease ⟨1⟩)).toOption.any fun k' =>
          k'.sched.current == some ⟨4⟩ && k'.sched.owners ⟨1⟩ == some (some ⟨4⟩)) = true := by
    decide +kernel
  obtain ⟨k, hk, hrun⟩ := Option.any_eq_true _ _ |>.mp hrun
  simp only [Bool.and_eq_true, beq_iff_eq, Bool.not_eq_true'] at hrun
  obtain ⟨⟨⟨⟨⟨hgoing, hprogram⟩, hcurrent⟩, hx⟩, hwaiter⟩, hcall⟩ := hrun
  obtain ⟨t, ht, hwanted⟩ := Option.any_eq_true _ _ |>.mp hwaiter
  obtain ⟨k', hk', hafter⟩ := Option.any_eq_true _ _ |>.mp hcall
  simp only [Bool.and_eq_true, beq_iff_eq] at hafter
  obtain ⟨hnext, howner⟩ := hafter
  have hsuccession : k.Succession := Reachable.succession (reachable_of_afterRun hk)
  obtain ⟨m, c, heir, u, hm, -, hpasses, -⟩ := hsuccession.release hgoing hprogram hcurrent
    ⟨_, hx, rfl⟩ ⟨t, ht, beq_iff_eq.mp hwanted⟩
  obtain rfl := Except.ok.inj (hm.symm.trans (eq_ok_of_toOption hk'))
  -- The heir is the one that the mutex belongs to after the call.
  obtain rfl : heir = ⟨4⟩ := by
    obtain ⟨y, hy, hmine⟩ := hpasses.owns
    rw [Scheduler.owners, hy, Option.map_some, hmine] at howner
    exact Option.some.inj (Option.some.inj howner)
  exact ⟨k, m, _, u, hk, hsuccession, hx, rfl, hm, hpasses, hnext⟩

end Kernel

end CoopKernel
