import CoopKernel.Proofs.Scheduler.Ownership

/-!
# Handing a mutex over

An owner that gives up a mutex either leaves it free, if nobody waits for it, or makes the next
waiter its owner and ready at once. The second is two moves in a row: the waiter stops waiting
(`Scheduler.resigned`), as if its wait had run out, and the mutex goes from one thread that wants
nothing to another (`Scheduler.transferred`). Between the two the records agree, which is why order
is proved for each of them alone.
-/

namespace CoopKernel.Scheduler

variable {κ : Type} {s : Scheduler κ} {owner next : ThreadId} {t u : Thread κ} {m : MutexId}
  {x : Mutex}

/-! ## Leaving a mutex free -/

/-- The scheduler after the owner has left a mutex free. -/
def freed (s : Scheduler κ) (m : MutexId) (owner : ThreadId) : Scheduler κ :=
  (s.updateMutex m fun x => { x with owner := none }).update owner (·.letGo m)

theorem get?_freed (s : Scheduler κ) (m : MutexId) (owner other : ThreadId) :
    (s.freed m owner).threads.get? other =
      if other = owner then (s.threads.get? owner).map (·.letGo m) else s.threads.get? other :=
  Registry.get?_modify s.threads owner other _

/-- A mutex that nobody wants may be left free. -/
theorem Owned.free {threads : Registry .thread (Thread κ)} {mutexes : Registry .mutex Mutex}
    (h : Owned threads mutexes) (hx : mutexes.get? m = some x) (howner : x.owner = some owner)
    (ht : threads.get? owner = some t)
    (hnone : ∀ j v, threads.get? j = some v → v.wanted ≠ some m) :
    Owned (threads.modify owner (·.letGo m))
      (mutexes.modify m fun x => { x with owner := none }) := by
  have hnobody : ∀ j p, j ∉ x.waiters.level p := by
    intro j p hmem
    obtain ⟨v, hv, hwanted, -⟩ := (h.mem_waiters hx j p).mp hmem
    exact hnone j v hv hwanted
  refine h.change ht hx rfl ?_ (fun _ _ => .rfl) ?_ ?_ (h.nodup_waiters (x := x) hx) ?_
  · intro m'
    rw [Thread.mem_held_letGo]
    split
    · next heq => simp [heq]
    · next hm => simp [hm]
  · intro j hj
    simp [howner, Ne.symm hj]
  · intro j p
    split
    · exact ⟨fun hmem => absurd hmem (hnobody j p), fun hboth => absurd hboth.1 (hnone owner t ht)⟩
    · rfl
  · exact fun j p hmem => absurd hmem (hnobody j p)

theorem Orderly.freed (h : s.Orderly) (hx : s.mutexes.get? m = some x)
    (howner : x.owner = some owner) (ht : s.threads.get? owner = some t)
    (hnone : ∀ j v, s.threads.get? j = some v → v.wanted ≠ some m) :
    (s.freed m owner).Orderly := by
  have hplace : (t.letGo m).place = s.place owner := by rw [place_eq ht]; rfl
  have hmutexes : (s.mutexes.modify m fun x => { x with owner := none }).Ordered :=
    h.mutexes.modify m _
  refine h.modify (f := fun t => t.letGo m) ht rfl hmutexes rfl ((h.tidy ht).letGo m)
    (fun hrunning => hrunning) ?_ (h.owned.free hx howner ht hnone)
  rw [hplace, Function.update_eq_self]
  exact h.queued

/-! ## From one owner to another -/

/-- The scheduler after a mutex has gone from one thread to another. -/
def transferred (s : Scheduler κ) (m : MutexId) (owner next : ThreadId) : Scheduler κ :=
  ((s.updateMutex m fun x => { x with owner := some next }).update owner (·.letGo m)).update next
    (·.hold m)

theorem get?_transferred (hne : owner ≠ next) (other : ThreadId) :
    (s.transferred m owner next).threads.get? other =
      if other = next then (s.threads.get? next).map (·.hold m)
      else if other = owner then (s.threads.get? owner).map (·.letGo m)
      else s.threads.get? other := by
  rw [transferred, get?_update, get?_update, get?_update]
  show (if _ then Option.map _ (if _ then _ else s.threads.get? next) else _) = _
  rw [if_neg (Ne.symm hne)]
  rfl

theorem Owned.transfer {threads : Registry .thread (Thread κ)} {mutexes : Registry .mutex Mutex}
    (h : Owned threads mutexes) (hx : mutexes.get? m = some x) (howner : x.owner = some owner)
    (hne : owner ≠ next) (ht : threads.get? owner = some t) (hu : threads.get? next = some u)
    (hnone : u.wanted = none) :
    Owned ((threads.modify owner (·.letGo m)).modify next (·.hold m))
      (mutexes.modify m fun x => { x with owner := some next }) := by
  -- Two records change, and in both it is only the mutexes held.
  have hget : ∀ j, ((threads.modify owner (·.letGo m)).modify next (·.hold m)).get? j =
      if j = next then some (u.hold m)
      else if j = owner then some (t.letGo m) else threads.get? j := by
    intro j
    rw [Registry.get?_modify, Registry.get?_modify, Registry.get?_modify]
    grind
  have hletGo : (t.letGo m).wanted = t.wanted ∧ (t.letGo m).priority = t.priority := ⟨rfl, rfl⟩
  have hhold : (u.hold m).wanted = u.wanted ∧ (u.hold m).priority = u.priority := ⟨rfl, rfl⟩
  refine ⟨?_, ?_, ?_, ?_⟩
  · intro m' j
    rw [hget, Registry.get?_modify]
    have howner := h.owner_iff m' j
    have hmem := Thread.mem_held_letGo t m m'
    have hmem' := Thread.mem_held_hold u m m'
    grind
  · intro m' x' hx' j p
    rw [Registry.get?_modify] at hx'
    rw [hget]
    have hwaiters := fun y (hy : mutexes.get? m' = some y) => h.mem_waiters hy j p
    grind
  · intro m' x' hx' p
    rw [Registry.get?_modify] at hx'
    have hnodup := fun y (hy : mutexes.get? m' = some y) => h.nodup_waiters hy p
    grind
  · intro j v m' hv hm'
    rw [hget] at hv
    rw [Registry.get?_modify]
    have howned := fun w (hw : threads.get? j = some w) => h.wanted_owned (m := m') hw
    grind

theorem Orderly.transferred (h : s.Orderly) (hx : s.mutexes.get? m = some x)
    (howner : x.owner = some owner) (hne : owner ≠ next) (ht : s.threads.get? owner = some t)
    (hu : s.threads.get? next = some u) (hnone : u.wanted = none) :
    (s.transferred m owner next).Orderly := by
  have hget := get?_transferred (s := s) (m := m) hne
  have hthreads : ((s.threads.modify owner (·.letGo m)).modify next (·.hold m)).Ordered :=
    (h.threads.modify owner _).modify next _
  have hmutexes : (s.mutexes.modify m fun x => { x with owner := some next }).Ordered :=
    h.mutexes.modify m _
  refine ⟨hthreads, hmutexes, ?_, ?_, ?_, h.owned.transfer hx howner hne ht hu hnone⟩
  · intro j v hv
    have htidy := fun (hv : s.threads.get? j = some v) => h.tidy hv
    have hletGo := (h.tidy ht).letGo m
    have hhold := (h.tidy hu).hold m
    rw [hget] at hv
    grind
  · intro j v hv hrunning
    show s.current = some j
    have hrun := fun w (hw : s.threads.get? j = some w) => h.running hw
    have hletGo : (t.letGo m).state = t.state := rfl
    have hhold : (u.hold m).state = u.state := rfl
    rw [hget] at hv
    grind
  · have hplace : (s.transferred m owner next).place = s.place := by
      funext j
      rw [place, place, hget]
      have hletGo : (t.letGo m).place = t.place := rfl
      have hhold : (u.hold m).place = u.place := rfl
      grind
    rw [hplace]
    exact h.queued

/-! ## Giving a mutex up -/

/-- What a hand-over does is decided by whom the mutex is passed to. -/
theorem handOver_eq (hx : s.mutexes.get? m = some x) (ht : s.threads.get? owner = some t) :
    s.handOver m owner =
      let left := (s.update owner (·.letGo m)).updateMutex m fun _ => x.pass.2
      match x.pass.1 with
      | none => .ok (none, left)
      | some next => do
        let _ ← left.expect next
        let given := left.update next fun u => { u.hold m with wanted := none }
        return (some next, ← given.wake next) := by
  have hmutex : (s.update owner (·.letGo m)).mutexes.get? m = some x := hx
  rw [handOver, expect_eq ht]
  simp only [bind, Except.bind, hmutex]
  rfl

theorem Orderly.handOver_of_no_waiters (h : s.Orderly) (hx : s.mutexes.get? m = some x)
    (ht : s.threads.get? owner = some t)
    (hnone : x.waiters.takeHighest? (fun _ => true) = none) :
    s.handOver m owner = .ok (none, s.freed m owner) := by
  have hpass : x.pass = (none, { x with owner := none }) := by rw [Mutex.pass, hnone]
  have hmutexes : (s.mutexes.modify m fun _ => { x with owner := none }) =
      s.mutexes.modify m fun x => { x with owner := none } := by
    apply Registry.modify_congr h.mutexes
    intro y hy
    rw [hx, Option.some.injEq] at hy
    rw [hy]
  rw [handOver_eq hx ht, hpass, Scheduler.freed, updateMutex, updateMutex, ← hmutexes]
  rfl

theorem Orderly.handOver_of_waiter (h : s.Orderly) (hx : s.mutexes.get? m = some x)
    (howner : x.owner = some owner) (ht : s.threads.get? owner = some t)
    {waiters : LevelQueue ThreadId}
    (hserved : x.waiters.takeHighest? (fun _ => true) = some (next, waiters)) :
    ∃ u, s.threads.get? next = some u ∧ u.wanted = some m ∧ owner ≠ next ∧
      s.handOver m owner =
        .ok (some next, (s.resigned m next u.priority).transferred m owner next) := by
  obtain ⟨p, rest, hlevel, hwaiters, -⟩ := LevelQueue.takeHighest?_true hserved
  obtain ⟨u, hu, hwanted, hp⟩ := (h.owned.mem_waiters hx _ _).mp (hlevel ▸ List.mem_cons_self)
  obtain ⟨o, ho, hone⟩ := h.owned.owned_of_wanted hx hu hwanted
  have hne : owner ≠ next := Option.some.inj (howner.symm.trans ho) ▸ hone
  refine ⟨u, hu, hwanted, hne, ?_⟩
  have hpass : x.pass = (some next, { owner := some next, waiters }) := by
    rw [Mutex.pass, hserved]
  have hmutexes : (s.mutexes.modify m fun _ => { owner := some next, waiters }) =
      (s.mutexes.modify m (·.stopWaiting next)).modify m fun x =>
        { x with owner := some next } := by
    rw [Registry.modify_modify]
    apply Registry.modify_congr h.mutexes
    intro z hz
    obtain rfl : x = z := Option.some.inj (hx.symm.trans hz)
    rw [Function.comp_apply, h.owned.stopWaiting_of_wanted hx hu hwanted, hwaiters, hp]
  -- The scheduler in the middle of the hand-over, when the next owner is still on the wait list.
  let left : Scheduler κ :=
    (s.update owner (·.letGo m)).updateMutex m fun _ => { owner := some next, waiters }
  have hleft : left.threads.get? next = some u := by
    show (s.update owner (·.letGo m)).threads.get? next = _
    rw [get?_update, if_neg (Ne.symm hne), hu]
  have hgiven : (left.update next fun u => { u.hold m with wanted := none }).threads.get? next =
      some { u.hold m with wanted := none } := by
    rw [get?_update, if_pos rfl, hleft, Option.map_some]
  have hmutex : u.waitingFor = some .mutex := ((h.tidy hu).waiting_of_wanted hwanted).2
  rw [handOver_eq hx ht, hpass]
  show (left.expect next >>= fun _ => _) = _
  rw [expect_eq hleft]
  show ((left.update next fun u => { u.hold m with wanted := none }).wake next >>= fun woken =>
    Except.ok (some next, woken)) = _
  rw [wake_eq hgiven (show (u.hold m).waitingFor = _ from hmutex)]
  simp only [left, Scheduler.transferred, Scheduler.resigned, Scheduler.awakened, updateMutex,
    Scheduler.update, hmutexes, Registry.modify_modify]
  rw [← Registry.modify_modify, ← Registry.modify_comm hne]
  simp only [Registry.modify_modify]
  rfl

/-- A hand-over never fails. It changes the owner, who holds the mutex no more, and the next owner,
who is ready; both are known by what they wanted and held before. -/
theorem Orderly.handOver (h : s.Orderly) (hx : s.mutexes.get? m = some x)
    (howner : x.owner = some owner) (ht : s.threads.get? owner = some t) :
    ∃ next s', s.handOver m owner = .ok (next, s') ∧ s'.Orderly ∧ s'.current = s.current ∧
      (∀ j, next = some j → j ≠ owner ∧ ∃ v, s.threads.get? j = some v ∧ v.wanted = some m) ∧
      ∀ j, s'.threads.get? j =
        if next = some j then (s.threads.get? j).map (·.receive m)
        else if j = owner then (s.threads.get? j).map (·.letGo m) else s.threads.get? j := by
  cases hserved : x.waiters.takeHighest? (fun _ => true) with
  | none =>
    -- Whoever wanted the mutex would be in its queue.
    have hnone : ∀ j v, s.threads.get? j = some v → v.wanted ≠ some m := by
      intro j v hv hm
      have hmem := (h.owned.mem_waiters hx j v.priority).mpr ⟨v, hv, hm, rfl⟩
      exact absurd (LevelQueue.takeHighest?_eq_none.mp hserved _ j hmem) (by simp)
    refine ⟨none, s.freed m owner, h.handOver_of_no_waiters hx ht hserved,
      h.freed hx howner ht hnone, rfl, by simp, ?_⟩
    intro j
    rw [get?_freed, if_neg (by simp : none ≠ some j)]
    split
    · next heq => rw [heq]
    · rfl
  | some served =>
    obtain ⟨next, waiters⟩ := served
    obtain ⟨u, hu, hwanted, hne, heq⟩ := h.handOver_of_waiter hx howner ht hserved
    -- The mutex is still the old owner's after the first of the two moves.
    have hresigned := h.resigned hu hwanted
    have hx' : (s.resigned m next u.priority).mutexes.get? m = some (x.stopWaiting next) := by
      show (s.mutexes.modify m _).get? m = _
      rw [Registry.get?_modify_self, hx, Option.map_some]
    have howner' : (x.stopWaiting next).owner = some owner := by
      rw [h.owned.stopWaiting_of_wanted hx hu hwanted]
      exact howner
    have ht' : (s.resigned m next u.priority).threads.get? owner = some t := by
      rw [get?_resigned, if_neg hne, ht]
    have hu' := get?_resigned s m next next u.priority
    rw [if_pos rfl, hu, Option.map_some] at hu'
    refine ⟨some next, _, heq, hresigned.transferred hx' howner' hne ht' hu' rfl, rfl, ?_, ?_⟩
    · rintro j ⟨⟩
      exact ⟨Ne.symm hne, u, hu, hwanted⟩
    · intro j
      rw [get?_transferred hne, hu', ht', get?_resigned, Option.map_some, Option.map_some]
      have hreceive : ({ u.disarm with wanted := none, state := .ready } : Thread κ).hold m =
        u.receive m := rfl
      grind

/-- Only the owner can give a mutex up. -/
theorem release_eq (hx : s.mutexes.get? m = some x) :
    s.release m owner =
      if x.owner = some owner then (s.handOver m owner).mapError .broken
      else .error (.refused .invalidState) := by
  rw [release, findMutex_eq hx]
  show (if x.owner ≠ some owner then _ else _) = _
  by_cases howner : x.owner = some owner
  · rw [if_pos howner, if_neg (not_not_intro howner)]
  · rw [if_neg howner, if_pos howner]
    rfl

theorem release_unknown (hx : s.mutexes.get? m = none) :
    s.release m owner = .error (.refused .invalidId) := by
  rw [release, findMutex_eq_error hx]
  rfl

/-- Only the owner of a mutex can release it, and the mutex is handed over then. -/
theorem exists_of_release {next : Option ThreadId} {s' : Scheduler κ}
    (hok : s.release m owner = .ok (next, s')) :
    ∃ x, s.mutexes.get? m = some x ∧ x.owner = some owner ∧
      s.handOver m owner = .ok (next, s') := by
  cases hx : s.mutexes.get? m with
  | none =>
    rw [release_unknown hx] at hok
    cases hok
  | some x =>
    rw [release_eq hx] at hok
    split at hok
    · next howner => exact ⟨x, rfl, howner, mapError_eq_ok hok⟩
    · cases hok

end CoopKernel.Scheduler
