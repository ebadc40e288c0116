import CoopKernel.Proofs.Kernel.Refusals
import CoopKernel.Proofs.Kernel.Stacks

/-!
# The removal of a thread

A thread that cannot be removed is left alone. One that can is gone, with its entry, before its
stack is released, and if the stack cannot be released the call is refused all the same. So a
removal is all or nothing exactly if the stack is allocated (`Calls.removal`). It is as long as
nothing at its address has been released; but a program that has released the stack of a thread is
told that the thread cannot be removed when it has been (`exists_halfRemoved`).
-/

namespace CoopKernel.Kernel

variable {ε : Type} {W W' : PoolId → Prop} {k k' k₀ k₁ k₂ : Kernel ε} {me id : ThreadId}
  {t : Thread (Position ε)} {answer : Answer} {during : List (Move ε)}

/-- A thread is gone with its entry, and no other. -/
structure Gone (k₀ k₁ : Kernel ε) (id : ThreadId) : Prop where
  thread : k₁.sched.threads.get? id = none
  entry : k₁.entries = k₀.entries.filter (·.1 != id)
  others : ∀ j, j ≠ id → (k₁.sched.threads.get? j).isSome = (k₀.sched.threads.get? j).isSome

/-- A thread is gone, and exactly what was granted for its stack has been given back to the system
pool. -/
structure Removed (k₀ k₁ : Kernel ε) (id : ThreadId) : Prop extends Gone k₀ k₁ id where
  stack : ∃ t stack, k₀.sched.threads.get? id = some t ∧ t.stack = some stack ∧
    k₀.pools.Released k₁.pools k₀.systemPool stack.address stack.size

/-- A call to remove a thread has changed nothing, if it is refused, or has removed the thread and
released its stack. -/
def AllOrNothing (k₀ k₁ : Kernel ε) (id : ThreadId) : Answer → Prop
  | .error status => Unaffected k₀ k₁ (.threadDelete id) status
  | .ok _ => Removed k₀ k₁ id

/-- What was granted for the stack of a thread is allocated in the system pool, at its address. Who
has it is not recorded anywhere, so it can have been released and granted to somebody else. -/
def HasStack (k : Kernel ε) (id : ThreadId) : Prop :=
  ∃ t stack, k.sched.threads.get? id = some t ∧ t.stack = some stack ∧
    k.pools.Leases k.systemPool stack.address stack.size

/-- The system pool has taken back what it had at the address of a stack, whatever that is, or has
refused to, and then the caller is refused. -/
def TakesBack (k₀ k₁ : Kernel ε) (me : ThreadId) (stack : Stack) : Prop :=
  match k₀.pools.deallocate k₀.systemPool stack.address with
  | .ok (_, pools) => k₁.pools.registry = pools.registry ∧ k₁.Returning me (.returned (.ok .done))
  | .error error =>
    k₁.pools = k₀.pools ∧ k₁.Returning me (.returned (.error (.ofPoolError error)))

/-- What a call to remove a thread does. -/
structure Removal (k₀ k₁ : Kernel ε) (me id : ThreadId) : Prop where
  /-- A thread that cannot be removed is left alone, and the call is refused. -/
  kept : k₀.removable id = false → ∃ status, Unaffected k₀ k₁ (.threadDelete id) status ∧
    k₁.Returning me (.returned (.error status))
  /-- Any other is gone, and the call succeeds exactly if its stack can be released. -/
  gone : k₀.removable id = true → Gone k₀ k₁ id ∧ ∃ t stack,
    k₀.sched.threads.get? id = some t ∧ t.stack = some stack ∧ TakesBack k₀ k₁ me stack
  /-- However the call comes back, it was all or nothing exactly if a thread that can be removed had
  its stack. -/
  law : ∀ {during k₂ answer}, k₁.play during = some k₂ → k₁.follows (quiet me) during = true →
    k₂.sched.current = some me → k₂.activity = .arriving (.returned answer) →
      (AllOrNothing k₀ k₁ id answer ↔ (k₀.removable id = true → k₀.HasStack id))
  /-- It had, if nothing at the address of the stack was released since the thread was created. -/
  spared : k₀.spares id = true → k₀.removable id = true → k₀.HasStack id

theorem isSome_standing (k : Kernel ε) (id : ThreadId) :
    (k.standing id).isSome = (k.sched.threads.get? id).isSome :=
  Option.isSome_map

/-- A thread that can be removed and was spared has its stack. -/
theorem Custody.hasStack (h : k.Custody) (hremovable : k.removable id = true)
    (hspared : k.spares id = true) : k.HasStack id := by
  obtain ⟨-, hsystem, t, ht, -⟩ := removable_iff.mp hremovable
  obtain ⟨-, stack, hstack, hleased⟩ := h.kept ht hsystem
  refine ⟨t, stack, ht, hstack, hleased ?_⟩
  simpa [spares, ht, hstack] using hspared

/-- Whoever is refused after the thread is gone has not been left alone. -/
theorem Gone.not_unaffected (h : Gone k₀ k₁ id) (hremovable : k₀.removable id = true)
    {status : Status} : ¬ Unaffected k₀ k₁ (.threadDelete id) status := by
  intro hsame
  obtain ⟨-, -, t, ht, -⟩ := removable_iff.mp hremovable
  have hthread := h.thread
  rw [hsame.same] at hthread
  exact absurd (ht.symm.trans hthread) (by simp)

/-- Nobody else is gone when a thread has been removed. -/
theorem gone_of_isSome (hentries : k'.entries = (k.without id).entries)
    (hsome : ∀ j, (k'.sched.threads.get? j).isSome =
      ((k.without id).sched.threads.get? j).isSome) : Gone k k' id := by
  have herased : ∀ j, (k.without id).sched.threads.get? j =
      if j = id then none else k.sched.threads.get? j := Registry.get?_erase k.sched.threads id
  refine ⟨?_, hentries, fun j hj => ?_⟩
  · rw [← Option.not_isSome_iff_eq_none, hsome, herased, if_pos rfl]
    simp
  · rw [hsome, herased, if_neg hj]

/-- A release that succeeds comes back, and nobody has come or gone meanwhile. -/
theorem Runs.free_returning (h : k.Runs W me t) (hsound : k'.Sound W') {pool : PoolId}
    {pools' : Memory.Pools} {address released : Nat}
    (hok : k.pools.deallocate pool address = .ok (released, pools'))
    (hrun : k.free pool address = .ok k') :
    k'.pools.registry = pools'.registry ∧ k'.entries = k.entries ∧
      (∀ j, (k'.sched.threads.get? j).isSome = (k.sched.threads.get? j).isSome) ∧
      k'.Returning me (.returned (.ok .done)) := by
  obtain ⟨_, rest, s, here, hnext, hserved, harrival, hends⟩ := h.free_ends hok hrun
  refine ⟨?_, hends.entries, fun j => ?_, ?_⟩
  · rw [hends.pools]
    exact Memory.Pools.registry_wakeNext hnext
  · rw [← isSome_standing]
    by_cases hj : j = me
    · rw [hj, hends.own, h.record]
      rfl
    · rw [hends.others j hj]
      show (s.threads.get? j).isSome = _
      rcases hserved with rfl | ⟨waiter, u, hu, -, -, rfl⟩
      · rfl
      · rw [Scheduler.get?_awakened]
        split
        · next heq => rw [heq, hu, Option.map_some]; rfl
        · rfl
  · exact .of_standing (.inl (hends.stopped.trans h.going)) hsound hends.own rfl rfl harrival

/-- A thread that can be removed is gone whether its stack can be released or not. -/
theorem Serving.delete_gone (h : k.Serving W me t) (hsound : k'.Sound W')
    (hrun : k.delete id = .ok k') {u : Thread (Position ε)} {stack : Stack}
    (hu : k.sched.threads.get? id = some u) (hstack : u.stack = some stack)
    (hremovable : k.removable id = true) : Gone k k' id ∧ TakesBack k k' me stack := by
  rw [TakesBack]
  rcases h.delete_cases id with ⟨hnot, -⟩ | ⟨v, hv, -, -, hserving, heq⟩
  · simp [hremovable] at hnot
  · obtain rfl := Option.some.inj (hu.symm.trans hv)
    rw [hstack] at heq
    rw [heq] at hrun
    cases hok : k.pools.deallocate k.systemPool stack.address with
    | error error =>
      have hrefused : (k.without id).free k.systemPool stack.address =
          .ok ((k.without id).refuse (.ofPoolError error)) := by
        rw [Kernel.free, show (k.without id).pools = k.pools from rfl, hok]
        rfl
      obtain rfl := Except.ok.inj (hrun.symm.trans hrefused)
      exact ⟨gone_of_isSome rfl fun _ => rfl, rfl, .leaving hserving.current rfl rfl⟩
    | ok result =>
      obtain ⟨released, pools⟩ := result
      obtain ⟨hregistry, hentries, hsome, hreturning⟩ := hserving.free_returning hsound hok hrun
      exact ⟨gone_of_isSome hentries hsome, hregistry, hreturning⟩

/-- A call to remove a thread is carried out inside the section, unless the kernel is shut down. -/
theorem Calls.delete (h : k₀.Calls k₁ me (.threadDelete id)) : k₀.gate.inside = false ∧
    (k₀.removable id = false ∧ k₁ = (k₀.entered (.threadDelete id)).refuse .invalidState ∨
      ∃ W t, (k₀.entered (.threadDelete id)).Serving W me t ∧
        (k₀.entered (.threadDelete id)).delete id = .ok k₁) := by
  rcases h.reachable.sound.calling (inProgram_iff.mp h.program) with hhalted | ⟨_, t, hcalling⟩
  · exact ⟨hhalted.gate, .inl ⟨by simp [removable, hhalted.stopped],
      Except.ok.inj (h.called.symm.trans (hhalted.call_eq rfl))⟩⟩
  · obtain rfl := Option.some.inj (h.current.symm.trans hcalling.current)
    have hrun := h.called
    change k₀.inSection _ = _ at hrun
    rw [hcalling.inSection_entered (.threadDelete id) (List.append_nil _).symm] at hrun
    exact ⟨hcalling.outside, .inr ⟨_, t, hcalling.serving_entered _, hrun⟩⟩

/-- A thread that cannot be removed is left alone. -/
theorem Calls.kept (h : k₀.Calls k₁ me (.threadDelete id)) (hnot : k₀.removable id = false) :
    ∃ status, Unaffected k₀ k₁ (.threadDelete id) status ∧
      k₁.Returning me (.returned (.error status)) := by
  obtain ⟨houtside, ⟨-, heq⟩ | ⟨_, t, hserving, hrun⟩⟩ := h.delete
  · exact ⟨_, h.refused houtside heq⟩
  · rcases hserving.delete_cases id with ⟨-, status, hrefused⟩ | ⟨_, -, -, hremovable, -⟩
    · exact ⟨status, h.refused houtside (Except.ok.inj (hrun.symm.trans hrefused))⟩
    · exact absurd (hnot.symm.trans hremovable) (by simp)

/-- A thread that can be removed is gone, and its stack is given back if it can be. -/
theorem Calls.gone (h : k₀.Calls k₁ me (.threadDelete id)) (hremovable : k₀.removable id = true) :
    Gone k₀ k₁ id ∧ ∃ t stack,
      k₀.sched.threads.get? id = some t ∧ t.stack = some stack ∧ TakesBack k₀ k₁ me stack := by
  obtain ⟨-, hsystem, t, ht, -⟩ := removable_iff.mp hremovable
  obtain ⟨-, stack, hstack, -⟩ := h.reachable.custody.kept ht hsystem
  obtain ⟨-, ⟨hnot, -⟩ | ⟨_, _, hserving, hrun⟩⟩ := h.delete
  · exact absurd (hnot.symm.trans hremovable) (by simp)
  · obtain ⟨hgone, hback⟩ := hserving.delete_gone h.sound hrun ht hstack hremovable
    exact ⟨⟨hgone.thread, hgone.entry, hgone.others⟩, t, stack, ht, hstack, hback⟩

/-- A stack that is allocated is released, and the call comes back with success. -/
theorem HasStack.takenBack (h : k₀.HasStack id) (hgone : Gone k₀ k₁ id) (hsound : k₀.Sound W)
    (hback : ∀ {t stack}, k₀.sched.threads.get? id = some t → t.stack = some stack →
      TakesBack k₀ k₁ me stack) :
    Removed k₀ k₁ id ∧ k₁.Returning me (.returned (.ok .done)) := by
  obtain ⟨t, stack, ht, hstack, hleases⟩ := h
  obtain ⟨_, _, hsettled, -⟩ := hsound.exists_settled
  obtain ⟨granted, pools, hok, hreleased⟩ := hleases.released hsettled.books
  have hback := hback ht hstack
  rw [TakesBack, hok] at hback
  obtain ⟨hregistry, hreturning⟩ := hback
  exact ⟨⟨hgone, t, stack, ht, hstack, hreleased.of_registry hregistry⟩, hreturning⟩

/-- Whether a removal was all or nothing depends on the stack alone. -/
theorem Calls.allOrNothing_iff (h : k₀.Calls k₁ me (.threadDelete id))
    (hplay : k₁.play during = some k₂) (hquiet : k₁.follows (quiet me) during = true)
    (hcurrent : k₂.sched.current = some me) (hback : k₂.activity = .arriving (.returned answer)) :
    AllOrNothing k₀ k₁ id answer ↔ (k₀.removable id = true → k₀.HasStack id) := by
  -- Whatever the call is on its way back with is what it comes back with.
  have hanswer : ∀ {other}, k₁.Returning me (.returned other) → answer = other := fun hreturning =>
    Arrival.returned.inj
      ((hreturning.run h.sound hplay hquiet).eq_of_arriving hcurrent hback)
  cases hremovable : k₀.removable id with
  | false =>
    obtain ⟨status, hsame, hreturning⟩ := h.kept hremovable
    obtain rfl := hanswer hreturning
    exact ⟨fun _ => nofun, fun _ => hsame⟩
  | true =>
    obtain ⟨hgone, t, stack, ht, hstack, hback⟩ := h.gone hremovable
    constructor
    · intro hall _
      cases answer with
      | error status => exact absurd hall (hgone.not_unaffected hremovable)
      | ok reply =>
        obtain ⟨u, stack', hu, hstack', hreleased⟩ := Removed.stack hall
        exact ⟨u, stack', hu, hstack', hreleased.leases⟩
    · intro hhas
      obtain ⟨hremoved, hreturning⟩ := (hhas rfl).takenBack hgone h.reachable.sound
        fun hu hstack' => by
          obtain rfl := Option.some.inj (ht.symm.trans hu)
          exact Option.some.inj (hstack.symm.trans hstack') ▸ hback
      obtain rfl := hanswer hreturning
      exact hremoved

/-- A call to remove a thread leaves it alone and is refused, or removes it and is refused only if
the stack of the thread cannot be released. -/
theorem Calls.removal (h : k₀.Calls k₁ me (.threadDelete id)) : Removal k₀ k₁ me id :=
  ⟨h.kept, h.gone, h.allOrNothing_iff, fun hspared hremovable =>
    h.reachable.custody.hasStack hremovable hspared⟩

/-- A run that ends with the program of a third thread. -/
def ended : List (Move Unit) :=
  answered (.threadCreate () 4096 .high) ++
    [.call (.threadActivate ⟨3⟩), .advance, .advance, .exit, .advance, .advance, .advance]

theorem Calls.removal_ended :
    ∃ k₀ k₁ k₂ : Kernel Unit, afterRun {} {} ended = some k₀ ∧
      k₀.Calls k₁ ⟨1⟩ (.threadDelete ⟨3⟩) ∧ k₀.removable ⟨3⟩ = true ∧ k₀.spares ⟨3⟩ = true ∧
      k₁.play [.advance] = some k₂ ∧ k₂.activity = .arriving (.returned (.ok .done)) ∧
      Removal k₀ k₁ ⟨1⟩ ⟨3⟩ ∧ Removed k₀ k₁ ⟨3⟩ := by
  have hrun : (afterRun {} {} ended).any (fun k₀ : Kernel Unit =>
      k₀.inProgram && k₀.sched.current == some ⟨1⟩ && k₀.removable ⟨3⟩ && k₀.spares ⟨3⟩ &&
        (k₀.call (.threadDelete ⟨3⟩)).toOption.any fun k₁ =>
          k₁.follows (quiet ⟨1⟩) [.advance] && (k₁.play [.advance]).any fun k₂ =>
            k₂.sched.current == some ⟨1⟩ && k₂.answer? == some (.ok .done)) = true := by
    decide +kernel
  obtain ⟨k₀, hk₀, hrun⟩ := Option.any_eq_true _ _ |>.mp hrun
  rw [Bool.and_eq_true] at hrun
  obtain ⟨hfacts, hrun⟩ := hrun
  obtain ⟨k₁, hk₁, hrun⟩ := Option.any_eq_true _ _ |>.mp hrun
  rw [Bool.and_eq_true] at hrun
  obtain ⟨hquiet, hrun⟩ := hrun
  obtain ⟨k₂, hk₂, hback⟩ := Option.any_eq_true _ _ |>.mp hrun
  simp only [Bool.and_eq_true, beq_iff_eq] at hfacts hback
  obtain ⟨⟨⟨hprogram, hcurrent⟩, hremovable⟩, hspared⟩ := hfacts
  have hreturned := answer?_eq_some.mp hback.2
  have hcalls : k₀.Calls k₁ ⟨1⟩ (.threadDelete ⟨3⟩) :=
    ⟨reachable_of_afterRun hk₀, hprogram, hcurrent, eq_ok_of_toOption hk₁⟩
  have hremoval := hcalls.removal
  exact ⟨k₀, k₁, k₂, hk₀, hcalls, hremovable, hspared, hk₂, hreturned, hremoval,
    (hremoval.law hk₂ hquiet hback.1 hreturned).mpr fun _ => hremoval.spared hspared hremovable⟩

/-- A run in which the main thread releases the stack of a thread that it has created. -/
def robbed : List (Move Unit) :=
  answered (.threadCreate () 4096 .low) ++
    answered (.free ⟨1⟩ (({} : Arena).heap + ({} : Config).idleStackSize))

/-- A thread whose stack was released is gone when its removal is refused. -/
theorem exists_halfRemoved :
    ∃ k₀ k₁ k₂ : Kernel Unit, afterRun {} {} robbed = some k₀ ∧
      k₀.Calls k₁ ⟨1⟩ (.threadDelete ⟨3⟩) ∧ k₁.play [.advance] = some k₂ ∧
      k₂.sched.current = some ⟨1⟩ ∧
      k₂.activity = .arriving (.returned (.error .invalidParameter)) ∧
      (k₀.sched.threads.get? ⟨3⟩).isSome = true ∧ k₁.sched.threads.get? ⟨3⟩ = none ∧
      ¬ AllOrNothing k₀ k₁ ⟨3⟩ (.error .invalidParameter) := by
  have hrun : (afterRun {} {} robbed).any (fun k₀ : Kernel Unit =>
      k₀.inProgram && k₀.sched.current == some ⟨1⟩ && (k₀.sched.threads.get? ⟨3⟩).isSome &&
        (k₀.call (.threadDelete ⟨3⟩)).toOption.any fun k₁ =>
          (k₁.sched.threads.get? ⟨3⟩).isNone && (k₁.play [.advance]).any fun k₂ =>
            k₂.sched.current == some ⟨1⟩ && k₂.answer? == some (.error .invalidParameter)) =
      true := by
    decide +kernel
  obtain ⟨k₀, hk₀, hrun⟩ := Option.any_eq_true _ _ |>.mp hrun
  rw [Bool.and_eq_true] at hrun
  obtain ⟨hfacts, hrun⟩ := hrun
  obtain ⟨k₁, hk₁, hrun⟩ := Option.any_eq_true _ _ |>.mp hrun
  rw [Bool.and_eq_true, Option.isNone_iff_eq_none] at hrun
  obtain ⟨hnone, hrun⟩ := hrun
  obtain ⟨k₂, hk₂, hback⟩ := Option.any_eq_true _ _ |>.mp hrun
  simp only [Bool.and_eq_true, beq_iff_eq] at hfacts hback
  obtain ⟨⟨hprogram, hcurrent⟩, hsome⟩ := hfacts
  refine ⟨k₀, k₁, k₂, hk₀,
    ⟨reachable_of_afterRun hk₀, hprogram, hcurrent, eq_ok_of_toOption hk₁⟩, hk₂, hback.1,
    answer?_eq_some.mp hback.2, hsome, hnone, fun hsame => ?_⟩
  -- A refusal that had changed nothing would have left the thread.
  rw [Unaffected.same hsame] at hnone
  change k₀.sched.threads.get? ⟨3⟩ = none at hnone
  simp [hnone] at hsome

end CoopKernel.Kernel
