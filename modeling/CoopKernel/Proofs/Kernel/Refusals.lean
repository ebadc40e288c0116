import CoopKernel.Proofs.Kernel.Interrupts
import CoopKernel.Proofs.Kernel.Returning

/-!
# A refused call changes nothing

If a call fails without having blocked its thread, the kernel that has left the section is the one
that entered it (`Kernel.Unaffected`): no thread, mutex or pool, no queue and no counter of handles
has changed, and nothing was reported. What is left to do is to deliver the interrupts that are
pending, and to hand the refusal to the program.

The reason is that every call finds out whether it can be granted before it changes anything
(`Calling.concluded`). A removal of a thread is excepted, because it does not.
-/

namespace CoopKernel.Kernel

variable {ε : Type} {W : PoolId → Prop} {k k₀ k₁ k₂ : Kernel ε} {id : ThreadId} {request : Call ε}
  {status : Status} {during : List (Move ε)}

/-- The program of a thread makes a call. -/
structure Calls (k₀ k₁ : Kernel ε) (id : ThreadId) (request : Call ε) : Prop where
  reachable : k₀.Reachable
  program : k₀.inProgram = true
  current : k₀.sched.current = some id
  called : k₀.call request = .ok k₁

/-- A thread has not blocked: it can run, or does. -/
def CanRun (k : Kernel ε) (id : ThreadId) : Prop :=
  ∃ t, k.sched.threads.get? id = some t ∧ (t.state = .ready ∨ t.state = .running)

/-- A call has been refused, and the kernel is as it was before the call. -/
structure Unaffected (k₀ k₁ : Kernel ε) (request : Call ε) (status : Status) : Prop where
  /-- Apart from the line and from what the running thread is doing, nothing has changed. -/
  same : k₁ = { k₀ with line := k₁.line, activity := k₁.activity }
  line : k₁.line.pending = k₀.line.pending ++ request.interrupts
  /-- The refusal is on its way. It is there already if the call never entered the section. -/
  refuses : k₁.activity = .delivering (.reply (.error status)) ∨
    request.senseless = true ∧ k₁.activity = .arriving (.returned (.error status))
  /-- What comes next is the delivery of what is pending. -/
  delivers : k₁.activity = .delivering (.reply (.error status)) → k₁.stopped = false →
    ∀ interrupt rest, k₁.line.pending = interrupt :: rest →
      k₁.advance = dispatch { k₁ with line := { pending := rest }, gate := { inside := true } }
        (.reply (.error status)) interrupt
  /-- When nothing is pending, the program gets the refusal. -/
  arrives : k₁.activity = .delivering (.reply (.error status)) → k₁.line.pending = [] →
    k₁.advance = .ok { k₁ with activity := .arriving (.returned (.error status)) }

theorem Calls.sound (h : k₀.Calls k₁ id request) : k₁.Sound fun _ => False :=
  h.reachable.sound.performed (allows_call request h.program) h.called

/-- A thread that can run does not stand waiting or dead. -/
theorem CanRun.standing {t : Thread (Position ε)} (h : k.CanRun id) (hstands : k.standing id = some t) :
    t.state = .ready := by
  obtain ⟨u, hu, hable⟩ := h
  obtain ⟨v, hv, ⟨-, rfl⟩ | ⟨hnot, rfl⟩⟩ := exists_of_standing hstands
  · rfl
  · obtain rfl := Option.some.inj (hu.symm.trans hv)
    exact hable.resolve_right hnot

/-- Leaving the section with a refusal leaves everything as it was before the section was entered.
-/
theorem unaffected_of_refuse (hsound : k₁.Sound W) (houtside : k₀.gate.inside = false)
    (heq : k₁ = (k₀.entered request).refuse status) : Unaffected k₀ k₁ request status := by
  have hgate : k₀.gate = { inside := false } := congrArg CriticalSection.mk houtside
  have hadvance : k₁.advance = k₁.deliver (.reply (.error status)) := by rw [heq]; rfl
  refine ⟨?_, by rw [heq]; rfl, .inl (by rw [heq]; rfl), fun hactivity hgoing interrupt rest hpending =>
    hsound.advance_delivering hgoing hactivity hpending, fun _ hdry => ?_⟩
  · rw [heq]
    simp only [entered, refuse, reply, leave, CriticalSection.leave, ← hgate]
  · rw [hadvance, Kernel.deliver, Line.take?, hdry]
    rfl

/-- A call that leaves the section with a refusal comes back with it. -/
theorem Calls.refused (h : k₀.Calls k₁ id request) (houtside : k₀.gate.inside = false)
    (heq : k₁ = (k₀.entered request).refuse status) :
    Unaffected k₀ k₁ request status ∧ k₁.Returning id (.returned (.error status)) := by
  have hcurrent : k₁.sched.current = some id := by
    rw [heq]
    exact h.current
  exact ⟨unaffected_of_refuse h.sound houtside heq, .leaving hcurrent (by rw [heq]; rfl) rfl⟩

/-- A call that makes no sense is refused before it enters the section. -/
theorem Calls.refused_senseless (h : k₀.Calls k₁ id request) (hsense : request.senseless = true) :
    Unaffected k₀ k₁ request .invalidParameter ∧
      k₁.Returning id (.returned (.error .invalidParameter)) := by
  obtain rfl := Except.ok.inj (h.called.symm.trans (call_senseless hsense))
  refine ⟨⟨rfl, ?_, .inr ⟨hsense, rfl⟩, ?_, ?_⟩, .arrived h.current rfl⟩
  · cases request with
    | threadCreate _ _ _ => exact (List.append_nil _).symm
    | sleep _ => exact (List.append_nil _).symm
    | _ => cases hsense
  · rintro ⟨⟩
  · rintro ⟨⟩

/-- Whoever shuts the kernel down keeps the processor. -/
theorem Calls.going_or_current (h : k₀.Calls k₁ id request) (hgoing : k₀.stopped = false) :
    k₁.stopped = false ∨ k₁.sched.current = some id := by
  have hallowed : k₀.allows (.call request) = true := h.program
  cases hstopped : k₁.stopped with
  | false => exact .inl rfl
  | true =>
    have hmoved := h.reachable.sound.moved hallowed h.called
    exact .inr ((hmoved.shutdown hgoing hstopped).2.1.trans h.current)

/-- How a call comes back that its thread did not block in: it has been refused, and then nothing
has changed, or it does not come back with a refusal. -/
theorem Calls.unaffected_or_returning (h : k₀.Calls k₁ id request)
    (hremoval : request.isRemoval = false) (hable : k₁.CanRun id) :
    (∃ status, Unaffected k₀ k₁ request status ∧ k₁.Returning id (.returned (.error status))) ∨
      ∃ arrival, k₁.Returning id arrival ∧ ∀ status, arrival ≠ .returned (.error status) := by
  have hsound := h.sound
  cases hsense : request.senseless with
  | true => exact .inl ⟨_, h.refused_senseless hsense⟩
  | false =>
    rcases h.reachable.sound.calling (inProgram_iff.mp h.program) with hhalted | ⟨me, t, hcalling⟩
    · exact .inl ⟨_, h.refused hhalted.gate (Except.ok.inj (h.called.symm.trans
        (hhalted.call_eq hsense)))⟩
    · obtain rfl := Option.some.inj (h.current.symm.trans hcalling.current)
      by_cases hawaits : request.awaitsResult = true
      · -- Beginning an operation either blocks the thread or ends the call on the spot.
        obtain ⟨issue, rfl⟩ : ∃ issue, request = .awaitIo issue := by
          cases request with
          | awaitIo issue => exact ⟨issue, rfl⟩
          | _ => cases hawaits
        have hrun := h.called
        change k₀.inSection _ = _ at hrun
        rw [hcalling.inSection_eq] at hrun
        cases issue with
        | raising interrupts =>
          cases hable.standing (hcalling.serving.awaitIo_ends hrun).own
        | reentrant =>
          obtain rfl := Except.ok.inj (hrun.symm.trans hcalling.serving.awaitIo_reentrant)
          exact .inr ⟨_, .arrived h.current rfl, by simp⟩
      · obtain ⟨base, hconcluded, hbase⟩ :=
          hcalling.concluded hsense (by simpa using hawaits) h.called
        rw [hbase hremoval] at hconcluded
        cases hconcluded with
        | refused heq => exact .inl ⟨_, h.refused hcalling.outside heq⟩
        | granted hstands hready hposition harrival _ =>
          exact .inr ⟨_, .of_standing (h.going_or_current hcalling.going) hsound hstands hready
            hposition harrival, by simp⟩
        | blocked hstands hwaiting _ =>
          rw [hable.standing hstands] at hwaiting
          cases hwaiting
        | died hstands hdead =>
          rw [hable.standing hstands] at hdead
          cases hdead

/-- A call that fails without having blocked its thread has changed nothing. -/
theorem Calls.unaffected (h : k₀.Calls k₁ id request) (hremoval : request.isRemoval = false)
    (hable : k₁.CanRun id) (hduring : k₁.play during = some k₂)
    (hquiet : k₁.follows (quiet id) during = true) (hcurrent : k₂.sched.current = some id)
    (hfails : k₂.activity = .arriving (.returned (.error status))) :
    Unaffected k₀ k₁ request status := by
  rcases h.unaffected_or_returning hremoval hable with
    ⟨other, hsame, hreturning⟩ | ⟨arrival, hreturning, hnot⟩
  · have heq := (hreturning.run h.sound hduring hquiet).eq_of_arriving hcurrent hfails
    obtain rfl : status = other := by simpa using heq
    exact hsame
  · have heq := (hreturning.run h.sound hduring hquiet).eq_of_arriving hcurrent hfails
    exact absurd heq.symm (hnot status)

/-- A run that ends with a thread of high priority in its program, while the main thread owns a
mutex and a tick is pending. -/
def contested : List (Move Unit) := rivalry ++ [.raise .tick]

theorem Calls.unaffected_contested :
    ∃ k₀ k₁ k₂ : Kernel Unit, afterRun {} {} contested = some k₀ ∧
      k₀.Calls k₁ ⟨3⟩ (.mutexAcquire ⟨1⟩ .immediate) ∧ k₁.CanRun ⟨3⟩ ∧
      k₁.play [.advance, .advance] = some k₂ ∧
      k₁.follows (quiet ⟨3⟩) [.advance, .advance] = true ∧ k₂.sched.current = some ⟨3⟩ ∧
      k₂.activity = .arriving (.returned (.error .failure)) ∧
      Unaffected k₀ k₁ (.mutexAcquire ⟨1⟩ .immediate) .failure := by
  have hcalls : (afterRun {} {} (contested ++ [.call (.mutexAcquire ⟨1⟩ .immediate)])).map
      (fun k : Kernel Unit => ((k.sched.threads.get? ⟨3⟩).map Thread.state,
        k.follows (quiet ⟨3⟩) [.advance, .advance])) = some (some .running, true) := by
    decide +kernel
  have hreturns : ((afterRun {} {} (contested ++ [.call (.mutexAcquire ⟨1⟩ .immediate)])).bind
      fun k : Kernel Unit => (k.play [.advance, .advance]).map fun k' =>
        (k'.sched.current, k'.answer?)) = some (some ⟨3⟩, some (.error .failure)) := by
    decide +kernel
  have hcurrent : (afterRun {} {} contested).map (fun k : Kernel Unit => k.sched.current) =
      some (some ⟨3⟩) := by decide +kernel
  obtain ⟨k₁, hk₁, hfacts⟩ := Option.map_eq_some_iff.mp hcalls
  obtain ⟨hrecord, hquiet⟩ := Prod.mk.inj hfacts
  obtain ⟨t, ht, hrunning⟩ := Option.map_eq_some_iff.mp hrecord
  obtain ⟨first, hstart, hplay⟩ := afterRun_eq_some hk₁
  obtain ⟨k₀, hbefore, hprogram, hcalled⟩ := play_concat_iff.mp hplay
  have hk₀ : afterRun {} {} contested = some k₀ := by
    rw [afterRun, hstart]
    exact hbefore
  rw [hk₀] at hcurrent
  rw [hk₁, Option.bind_some] at hreturns
  obtain ⟨k₂, hk₂, hfacts⟩ := Option.map_eq_some_iff.mp hreturns
  obtain ⟨hcurrent₂, hanswer⟩ := Prod.mk.inj hfacts
  have hfails := answer?_eq_some.mp hanswer
  have hcall : k₀.Calls k₁ ⟨3⟩ (.mutexAcquire ⟨1⟩ .immediate) :=
    ⟨reachable_of_afterRun hk₀, hprogram, Option.some.inj hcurrent, hcalled⟩
  have hable : k₁.CanRun ⟨3⟩ := ⟨t, ht, .inr hrunning⟩
  exact ⟨k₀, k₁, k₂, hk₀, hcall, hable, hk₂, hquiet, hcurrent₂, hfails,
    hcall.unaffected rfl hable hk₂ hquiet hcurrent₂ hfails⟩

end CoopKernel.Kernel
