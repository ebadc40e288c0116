import CoopKernel.Proofs.Kernel.Refusals
import CoopKernel.Proofs.Kernel.Telling

/-!
# After a shutdown

A shutdown is the main thread's, and it is for good. From the moment it is granted, whatever the
main thread calls and whatever is put on the line, the kernel stays as it was when the call came in
(`Kernel.Closed`): the main thread keeps the processor, the other threads have lost their positions
and nothing else about any thread, mutex, pool, queue or the clock changes. An interrupt that is
pending is taken off the line without being processed, and every call comes back refused
(`Kernel.Answers`). Any other thread that asks for a shutdown is refused, and nothing stops.

The frozen kernel needs no invariant of its own: each of its moves changes the line and what the
main thread is doing, and nothing else (`Halted.same`).
-/

namespace CoopKernel

variable {ε : Type}

/-- Whether a move is a step that the kernel takes by itself. -/
def Move.isAdvance : Move ε → Bool
  | .advance => true
  | _ => false

/-- The status with which a kernel that is shut down refuses a call. -/
def Call.refusal (request : Call ε) : Status :=
  if request.senseless then .invalidParameter else .invalidState

namespace Kernel

variable {W : PoolId → Prop} {k k' k₀ k₁ k₂ : Kernel ε} {me : ThreadId} {move : Move ε}
  {moves : List (Move ε)} {answer : Answer}

/-- Whatever is raised meanwhile, the running thread comes back to its program with an answer, and
does so in two steps of the kernel. -/
def Answers (k : Kernel ε) (me : ThreadId) (answer : Answer) : Prop :=
  ∀ during k', k.play during = some k' → (∀ move ∈ during, move.ofProgram = false) →
    k'.Returning me (.returned answer) ∧
      (2 ≤ during.countP Move.isAdvance → k'.inProgram = true)

/-- The kernel has been shut down by a call that was made in `k₀`. -/
structure Closed (k₀ k : Kernel ε) : Prop where
  stopped : k.stopped = true
  /-- The main thread runs, and nobody else. -/
  current : k.sched.current = some k₀.main
  /-- The mutexes with their owners and queues, the ready queue and the waiting threads, the clock,
  the pools with their queue, the programs of the threads and the journal are as they were. -/
  same : k = { k₀ with
    sched := { k₀.sched with threads := k.sched.threads }
    stopped := true
    line := k.line
    activity := k.activity }
  /-- The threads are as they were, except that they do not remember where to go on. -/
  threads : ∀ id, (k.sched.threads.get? id).map Thread.unplaced =
    (k₀.sched.threads.get? id).map Thread.unplaced
  /-- An interrupt that is pending is taken off the line, and means nothing. -/
  drops : ∀ destination, k.activity = .delivering destination →
    k.advance = .ok { k with
      line := { pending := k.line.pending.tail }
      activity := destination.activity }
  /-- Every call is refused. -/
  refuses : k.inProgram = true → ∀ request : Call ε, ∃ k', k.call request = .ok k' ∧
    k'.Answers k₀.main (.error request.refusal)

/-- What a thread gets that asks for a shutdown. -/
structure ShutsDown (k₀ k₁ : Kernel ε) (me : ThreadId) : Prop where
  granted : me = k₀.main → k₀.stopped = false → k₁.Answers me (.ok .done)
  freezes : me = k₀.main → k₀.stopped = false →
    ∀ moves k, k₁.play moves = some k → k₀.Closed k
  /-- A kernel is shut down once. -/
  again : k₀.stopped = true → k₁.Answers me (.error .invalidState)
  /-- Only the main thread can do it. -/
  refused : me ≠ k₀.main → k₁.stopped = false ∧ Unaffected k₀ k₁ .shutdown .invalidState ∧
    k₁.Returning me (.returned (.error .invalidState))

/-! ## The frozen kernel -/

theorem Sound.halted (h : k.Sound W) (hstopped : k.stopped = true) : k.Halted := by
  rcases h with hhalted | ⟨me, t, hruns, -, -⟩
  · exact hhalted
  · rw [hruns.going] at hstopped
    cases hstopped

theorem Halted.current (h : k.Halted) : k.sched.current = some k.main := by
  obtain ⟨s, _, -, hcurrent, -, -, -, hsched⟩ := h.frozen
  rw [hsched, current_foldl_forgetPosition, hcurrent]

/-- A call is refused for its arguments, or because the kernel is shut down. -/
theorem Halted.call_refused (h : k.Halted) (request : Call ε) : ∃ k', k.call request = .ok k' ∧
    k' = { k with line := k'.line, activity := k'.activity } ∧
    (k'.activity = .delivering (.reply (.error request.refusal)) ∨
      k'.activity = .arriving (.returned (.error request.refusal))) := by
  have hgate : k.gate = { inside := false } := congrArg CriticalSection.mk h.gate
  rw [Call.refusal]
  cases hsense : request.senseless with
  | true => exact ⟨_, call_senseless hsense, rfl, .inr rfl⟩
  | false =>
    refine ⟨_, h.call_eq hsense, ?_, .inl rfl⟩
    simp only [entered, refuse, reply, leave, CriticalSection.leave, ← hgate]

/-- A move of a kernel that is shut down changes the line and what the main thread is doing. -/
theorem Halted.same (h : k.Halted) (hallowed : k.allows move = true)
    (hperform : k.perform move = .ok k') :
    k' = { k with line := k'.line, activity := k'.activity } := by
  cases move with
  | call request =>
    obtain ⟨_, heq, hsame, -⟩ := h.call_refused request
    obtain rfl := Except.ok.inj (hperform.symm.trans heq)
    exact hsame
  | exit =>
    rw [h.not_allows_exit] at hallowed
    cases hallowed
  | raise interrupt =>
    obtain rfl := Except.ok.inj hperform
    rfl
  | advance =>
    change k.advance = _ at hperform
    rw [Kernel.advance] at hperform
    cases hactivity : k.activity with
    | program =>
      rw [hactivity] at hperform
      obtain rfl := Except.ok.inj hperform
      rfl
    | arriving arrival =>
      rw [hactivity] at hperform
      obtain rfl := Except.ok.inj hperform
      rfl
    | resting =>
      simp only [hactivity] at hperform
      split at hperform <;> (obtain rfl := Except.ok.inj hperform; rfl)
    | resuming pending => exact absurd hactivity (h.activity pending)
    | delivering destination =>
      simp only [hactivity, h.deliver_eq] at hperform
      obtain rfl := Except.ok.inj hperform
      rfl
  | bypass =>
    obtain ⟨_, -, rfl⟩ := eq_of_bypass hallowed hperform
    rfl

/-! ## The way back of the main thread -/

/-- What the running thread is doing while at most so many steps are left until it is in its program
with an answer. -/
def Homeward (answer : Answer) : Nat → Activity ε → Prop
  | steps, activity => activity = .program ∨
      (1 ≤ steps ∧ activity = .arriving (.returned answer)) ∨
      2 ≤ steps ∧ activity = .delivering (.reply answer)

/-- A step of the kernel leaves one step less. -/
theorem Halted.homeward (h : k.Halted) {steps : Nat} (hhome : Homeward answer steps k.activity)
    (hallowed : k.allows move = true) (hpassive : move.ofProgram = false)
    (hperform : k.perform move = .ok k') :
    Homeward answer (steps - if move.isAdvance then 1 else 0) k'.activity := by
  cases move with
  | call request => cases hpassive
  | exit => cases hpassive
  | raise interrupt =>
    obtain rfl := Except.ok.inj hperform
    exact hhome
  | advance =>
    change k.advance = _ at hperform
    rw [Kernel.advance] at hperform
    rcases hhome with hactivity | ⟨-, hactivity⟩ | ⟨htwo, hactivity⟩
    · rw [hactivity] at hperform
      obtain rfl := Except.ok.inj hperform
      exact .inl hactivity
    · rw [hactivity] at hperform
      obtain rfl := Except.ok.inj hperform
      exact .inl rfl
    · simp only [hactivity, h.deliver_eq] at hperform
      obtain rfl := Except.ok.inj hperform
      exact .inr (.inl ⟨Nat.le_sub_one_of_lt htwo, rfl⟩)
  | bypass =>
    obtain ⟨_, hanswering, rfl⟩ := eq_of_bypass hallowed hperform
    rcases hhome with hactivity | ⟨-, hactivity⟩ | ⟨htwo, hactivity⟩
    · cases hanswering.symm.trans hactivity
    · cases hanswering.symm.trans hactivity
    · cases hanswering.symm.trans hactivity
      exact .inr (.inl ⟨Nat.le_of_lt htwo, rfl⟩)

/-- The main thread is never kept from its program for long. -/
theorem Halted.answers (h : k.Halted) (hhome : Homeward answer 2 k.activity) :
    k.Answers k.main answer := by
  intro during k' hplay hpassive
  have hsound : k.Sound fun _ => False := .inl h
  -- Along the run the kernel stays frozen, and each step of its own brings the thread nearer.
  have hrun := hsound.play_induction (P := fun moves last => (∀ move ∈ moves,
      move.ofProgram = false) → last.stopped = true ∧ last.sched.current = some k.main ∧
        Homeward answer (2 - moves.countP Move.isAdvance) last.activity) hplay
    (fun _ => ⟨h.stopped, h.current, hhome⟩) (by
      intro before move last next _ hlast hallowed hperform _ ih hpassive
      obtain ⟨hstopped, hcurrent, hhome⟩ := ih fun m hm => hpassive m (List.mem_append_left _ hm)
      have hhalted := hlast.halted hstopped
      have hstep := hhalted.homeward hhome hallowed (hpassive move (by simp)) hperform
      have hsame := hhalted.same hallowed hperform
      refine ⟨by rw [hsame]; exact hstopped, by rw [hsame]; exact hcurrent, ?_⟩
      rw [List.countP_append, List.countP_singleton, ← Nat.sub_sub]
      exact hstep)
  obtain ⟨-, hcurrent, hhome⟩ := hrun hpassive
  refine ⟨?_, fun htwo => ?_⟩
  · rcases hhome with hactivity | ⟨-, hactivity⟩ | ⟨-, hactivity⟩
    · exact .back hcurrent hactivity
    · exact .arrived hcurrent hactivity
    · exact .leaving hcurrent (congrArg Activity.position? hactivity) rfl
  · rw [Nat.sub_eq_zero_of_le htwo] at hhome
    rcases hhome with hactivity | ⟨hnot, -⟩ | ⟨hnot, -⟩
    · exact inProgram_iff.mpr hactivity
    · cases hnot
    · cases hnot

/-! ## The closed kernel -/

/-- The scheduler of which threads have lost their positions differs in its threads alone. -/
theorem foldl_forgetPosition_eq (s : Scheduler (Position ε)) (ids : List ThreadId) :
    ids.foldl Scheduler.forgetPosition s =
      { s with threads := (ids.foldl Scheduler.forgetPosition s).threads } := by
  induction ids generalizing s with
  | nil => rfl
  | cons id rest ih => exact ih (s.forgetPosition id)

/-- A frozen kernel that differs from the one that was shut down in its line and in what the main
thread is doing is closed. -/
theorem Halted.closed (h : k.Halted)
    (hsame : k = { k₀ with
      sched := { k₀.sched with threads := k.sched.threads }
      stopped := true
      line := k.line
      activity := k.activity })
    (hthreads : ∀ id, (k.sched.threads.get? id).map Thread.unplaced =
      (k₀.sched.threads.get? id).map Thread.unplaced) : k₀.Closed k := by
  have hmain : k.main = k₀.main := by rw [hsame]
  refine ⟨h.stopped, hmain ▸ h.current, hsame, hthreads, ?_, fun hprogram request => ?_⟩
  · intro destination hactivity
    rw [Kernel.advance, hactivity]
    exact h.deliver_eq destination
  · obtain ⟨k', hcall, hkept, hactivity⟩ := h.call_refused request
    have hhalted : k'.Halted := by
      obtain ⟨_, heq, hhalted⟩ := h.call request
      obtain rfl := Except.ok.inj (hcall.symm.trans heq)
      exact hhalted
    have hmain' : k'.main = k₀.main := by rw [hkept]; exact hmain
    exact ⟨k', hcall, hmain' ▸ hhalted.answers
      (hactivity.elim (fun h => .inr (.inr ⟨le_rfl, h⟩)) fun h => .inr (.inl ⟨by simp, h⟩))⟩

/-- A closed kernel stays closed. -/
theorem Closed.moved (h : k₀.Closed k) (hsound : k.Sound W) (hsound' : k'.Sound W)
    (hallowed : k.allows move = true) (hperform : k.perform move = .ok k') : k₀.Closed k' := by
  have hsame := (hsound.halted h.stopped).same hallowed hperform
  have hthreads : k'.sched.threads = k.sched.threads := by rw [hsame]
  have hstopped : k'.stopped = true := by
    rw [hsame]
    exact h.stopped
  refine (hsound'.halted hstopped).closed ?_ fun id => by rw [hthreads, h.threads]
  rw [hthreads]
  exact hsame.trans (congrArg (fun last : Kernel ε =>
    { last with line := k'.line, activity := k'.activity }) h.same)

/-- What the main thread finds when its shutdown has been granted. -/
theorem Calling.shutdown_eq {t : Thread (Position ε)} (h : k.Calling W me t)
    (hmain : me = k.main) :
    k.call .shutdown = .ok { k with
      sched := (k.sched.threads.handles.filter (· != k.main)).foldl Scheduler.forgetPosition k.sched
      stopped := true
      activity := .delivering (.reply (.ok .done)) } := by
  have hgate : k.gate = { inside := false } := congrArg CriticalSection.mk h.outside
  show k.inSection _ = _
  rw [h.inSection_eq, Kernel.shutdown, if_neg (not_not.mpr (hmain ▸ h.current)), hgate]
  rfl

/-- Anybody else is refused. -/
theorem Calling.shutdown_refused {t : Thread (Position ε)} (h : k.Calling W me t)
    (hother : me ≠ k.main) :
    k.call .shutdown = .ok ((k.entered .shutdown).refuse .invalidState) := by
  have hcurrent : (k.entered .shutdown).sched.current ≠ some (k.entered .shutdown).main := by
    show k.sched.current ≠ some k.main
    rw [h.current]
    exact fun heq => hother (Option.some.inj heq)
  show k.inSection _ = _
  rw [h.inSection_entered .shutdown (List.append_nil _).symm, Kernel.shutdown, if_pos hcurrent]

/-- The main thread's shutdown freezes the kernel for good; anybody else's is refused. -/
theorem Calls.closes (h : k₀.Calls k₁ me .shutdown) : k₀.ShutsDown k₁ me := by
  have hsound := h.reachable.sound
  rcases hsound.calling (inProgram_iff.mp h.program) with hhalted | ⟨me', t, hcalling⟩
  · -- The kernel was shut down before, so that only the main thread can call.
    have hmain : me = k₀.main := Option.some.inj (h.current.symm.trans hhalted.current)
    obtain ⟨_, heq, hkept, hactivity⟩ := hhalted.call_refused .shutdown
    obtain rfl := Except.ok.inj (h.called.symm.trans heq)
    have hstopped : k₁.stopped = true := by rw [hkept]; exact hhalted.stopped
    have hmain' : k₁.main = me := by rw [hkept]; exact hmain.symm
    refine ⟨fun _ hgoing => ?_, fun _ hgoing => ?_, fun _ => ?_, fun hother => absurd hmain hother⟩
    · simp [hhalted.stopped] at hgoing
    · simp [hhalted.stopped] at hgoing
    · exact hmain' ▸ (h.sound.halted hstopped).answers
        (hactivity.elim (fun h => .inr (.inr ⟨le_rfl, h⟩)) fun h => .inr (.inl ⟨by simp, h⟩))
  · obtain rfl := Option.some.inj (h.current.symm.trans hcalling.current)
    refine ⟨fun hmain _ => ?_, fun hmain _ moves k hplay => ?_, fun hstopped => ?_, fun hother => ?_⟩
    · obtain rfl := Except.ok.inj (h.called.symm.trans (hcalling.shutdown_eq hmain))
      subst hmain
      exact (h.sound.halted rfl).answers (.inr (.inr ⟨le_rfl, rfl⟩))
    · obtain rfl := Except.ok.inj (h.called.symm.trans (hcalling.shutdown_eq hmain))
      refine h.sound.play_induction (P := fun _ last => k₀.Closed last) hplay ?_
        fun _ hlast hallowed hperform hnext hclosed =>
          hclosed.moved hlast hnext hallowed hperform
      refine (h.sound.halted rfl).closed ?_ fun id => unplaced_foldl_forgetPosition k₀.sched _ id
      rw [← foldl_forgetPosition_eq]
    · simp [hcalling.going] at hstopped
    · have heq := Except.ok.inj (h.called.symm.trans (hcalling.shutdown_refused hother))
      obtain ⟨hunaffected, hreturning⟩ := h.refused hcalling.outside heq
      refine ⟨?_, hunaffected, hreturning⟩
      rw [heq]
      exact hcalling.going

/-- A run in which a thread that outranks the main thread sleeps until the tick that is pending. -/
def overslept : List (Move Unit) :=
  answered (.threadCreate () 4096 .high) ++
    [.call (.threadActivate ⟨3⟩), .advance, .advance, .call (.sleep (.ticks 1))] ++
    [.advance, .advance, .advance, .raise .tick]

theorem Calls.closes_overslept :
    ∃ k₀ k₁ k₂ : Kernel Unit, afterRun {} {} overslept = some k₀ ∧
      k₀.Calls k₁ ⟨1⟩ .shutdown ∧ ⟨1⟩ = k₀.main ∧ k₀.stopped = false ∧
      k₀.line.pending = [.tick] ∧ k₁.play [.advance, .advance] = some k₂ ∧
      k₂.line.pending = [] ∧ k₁.Answers ⟨1⟩ (.ok .done) ∧ k₀.Closed k₂ := by
  have hbefore : (afterRun {} {} overslept).map (fun k : Kernel Unit =>
      (k.sched.current, k.main, k.stopped, k.line.pending)) =
        some (some ⟨1⟩, ⟨1⟩, false, [.tick]) := by decide +kernel
  have hafter : (afterRun {} {} (overslept ++ [.call .shutdown])).map (fun k : Kernel Unit =>
      (k.play [.advance, .advance]).map fun k' => k'.line.pending) = some (some []) := by
    decide +kernel
  obtain ⟨k₀, hk₀, hfacts⟩ := Option.map_eq_some_iff.mp hbefore
  obtain ⟨hcurrent, hmain, hgoing, hpending⟩ : _ ∧ _ ∧ _ ∧ _ := by simpa using hfacts
  obtain ⟨k₁, hk₁, hfacts⟩ := Option.map_eq_some_iff.mp hafter
  obtain ⟨k₂, hk₂, hdry⟩ := Option.map_eq_some_iff.mp hfacts
  obtain ⟨first, hstart, hplay⟩ := afterRun_eq_some hk₁
  obtain ⟨k, hlast, hprogram, hcalled⟩ := play_concat_iff.mp hplay
  obtain rfl : k₀ = k := by
    rw [afterRun, hstart] at hk₀
    exact Option.some.inj (hk₀.symm.trans hlast)
  have hcall : k₀.Calls k₁ ⟨1⟩ .shutdown :=
    ⟨reachable_of_afterRun hk₀, hprogram, hcurrent, hcalled⟩
  exact ⟨k₀, k₁, k₂, hk₀, hcall, hmain.symm, hgoing, hpending, hk₂, hdry,
    hcall.closes.granted hmain.symm hgoing, hcall.closes.freezes hmain.symm hgoing _ _ hk₂⟩

end Kernel

end CoopKernel
