import CoopKernel.Proofs.Kernel.Answers

/-!
# On the way back to a program

Once it is settled how control comes to a program, nothing that others do changes it: a thread that
has been given its answer, or has been activated, may lose the processor any number of times on its
way out of the section, but as long as it lives it arrives with that answer (`Returning.run`).
-/

namespace CoopKernel

variable {ε : Type}

/-- Whether a move is made by the program of the running thread. -/
def Move.ofProgram : Move ε → Bool
  | .call _ => true
  | .exit => true
  | _ => false

namespace Kernel

variable {W W' : PoolId → Prop} {k k' k₁ : Kernel ε} {me id : ThreadId}
  {t : Thread (Position ε)} {destination : Destination ε} {arrival : Arrival ε} {move : Move ε}
  {moves : List (Move ε)}

/-- The rule that a thread lives and its program makes no move. -/
def quiet (id : ThreadId) (k : Kernel ε) (move : Move ε) : Bool :=
  !(k.sched.current == some id && move.ofProgram) && (k.perform move).toOption.all (·.lives id)

theorem quiet_iff (hperform : k.perform move = .ok k') : quiet id k move = true ↔
    (k.sched.current = some id → move.ofProgram = false) ∧ k'.lives id = true := by
  rw [quiet, hperform, Bool.and_eq_true, Bool.not_eq_true', Bool.and_eq_false_imp, beq_iff_eq]
  rfl

/-- How far a thread has come on its way to its program. -/
inductive Returning (k : Kernel ε) (id : ThreadId) (arrival : Arrival ε) : Prop
  /-- It has lost the processor on its way. -/
  | parked {t : Thread (Position ε)} {here : Position ε} (hgoing : k.stopped = false)
    (hcurrent : k.sched.current ≠ some id) (hrecord : k.sched.threads.get? id = some t)
    (hready : t.state = .ready) (hposition : t.position = some here)
    (harrival : here.arrival? = some arrival)
  | leaving {here : Position ε} (hcurrent : k.sched.current = some id)
    (hposition : k.activity.position? = some here) (harrival : here.arrival? = some arrival)
  | arrived (hcurrent : k.sched.current = some id) (hactivity : k.activity = .arriving arrival)
  /-- It has got there. -/
  | back (hcurrent : k.sched.current = some id) (hactivity : k.activity = .program)
  /-- The kernel was shut down meanwhile. -/
  | ended (hstopped : k.stopped = true) (hcurrent : k.sched.current ≠ some id)

/-- The answer with which the running thread comes to its program. -/
def answer? (k : Kernel ε) : Option Answer :=
  match k.activity with
  | .arriving (.returned answer) => some answer
  | _ => none

theorem answer?_eq_some {answer : Answer} :
    k.answer? = some answer ↔ k.activity = .arriving (.returned answer) := by
  rw [answer?]
  split <;> simp_all

/-! ## Where a thread stands on its way -/

/-- Whoever is ready, or runs, on its way to its program is returning. -/
theorem Returning.of_standing {here : Position ε}
    (hgoing : k.stopped = false ∨ k.sched.current = some id) (hsound : k.Sound W)
    (hstands : k.standing id = some t) (hready : t.state = .ready)
    (hposition : t.position = some here) (harrival : here.arrival? = some arrival) :
    Returning k id arrival := by
  obtain ⟨u, hu, ⟨hrunning, rfl⟩ | ⟨hnot, rfl⟩⟩ := exists_of_standing hstands
  · exact .leaving (hsound.upright.orderly.running hu hrunning) hposition harrival
  · have hwithout : k.sched.current ≠ some id := fun hcurrent => hnot (hsound.running hcurrent hu)
    exact .parked (hgoing.resolve_right hwithout) hwithout hu hready hposition harrival

/-- A thread at its destination arrives as it was to arrive. -/
theorem Destination.activity_eq (h : (Position.delivering destination).arrival? = some arrival) :
    destination.activity = .arriving arrival := by
  cases destination with
  | reply answer =>
    obtain rfl := Option.some.inj h
    rfl
  | start entry =>
    obtain rfl := Option.some.inj h
    rfl
  | rest => cases h

/-- What is being done on the way to a program is to leave the section with the answer, or to
deliver interrupts. -/
theorem Activity.eq_of_arrival {activity : Activity ε} {here : Position ε}
    (hposition : activity.position? = some here) (harrival : here.arrival? = some arrival) :
    (∃ answer, activity = .resuming (.reply answer) ∧ arrival = .returned answer) ∨
      ∃ destination, activity = .delivering destination ∧
        (Position.delivering destination).arrival? = some arrival := by
  cases activity with
  | resuming pending =>
    obtain rfl := Option.some.inj hposition
    cases pending with
    | reply answer => exact .inl ⟨answer, rfl, (Option.some.inj harrival).symm⟩
    | _ => cases harrival
  | delivering destination =>
    obtain rfl := Option.some.inj hposition
    exact .inr ⟨destination, rfl, harrival⟩
  | _ => cases hposition

/-! ## One move -/

/-- A thread that delivers an interrupt stands where it stood. -/
theorem Runs.dispatch_own (h : k.Runs W me t) {interrupt : Interrupt}
    (hrun : dispatch k destination interrupt = .ok k') :
    k'.stopped = false ∧ k'.standing me =
      some { t with state := .ready, position := some (.delivering destination) } := by
  cases interrupt with
  | tick =>
    obtain ⟨report, s', -, hends⟩ := h.dispatchTick_ends hrun
    exact ⟨hends.stopped.trans h.going, hends.own⟩
  | ioComplete id result =>
    rcases h.dispatchResult_ends hrun with ⟨-, rfl⟩ | ⟨u, m, -, -, -, hwoken, hends⟩
    · exact ⟨h.going, (resume_ends h.sole h.record h.running _).own⟩
    · have hstopped : m.stopped = k.stopped := by rcases hwoken with rfl | rfl <;> rfl
      exact ⟨hends.stopped.trans (hstopped.trans h.going), hends.own⟩

/-- A thread with the processor that delivers interrupts goes on doing so, until it arrives. -/
theorem Returning.deliver (hsound : k.Sound W) (hsound' : k'.Sound W')
    (hcurrent : k.sched.current = some id) (hactivity : k.activity = .delivering destination)
    (harrival : (Position.delivering destination).arrival? = some arrival)
    (hrun : k.advance = .ok k') : Returning k' id arrival := by
  have hdeliver : k.deliver destination = .ok k' := by
    rw [← hrun, Kernel.advance, hactivity]
  rcases hsound with hhalted | ⟨me, t, hruns, hrank, hposture⟩
  · obtain rfl := Except.ok.inj (hdeliver.symm.trans (hhalted.deliver_eq destination))
    exact .arrived hcurrent (Destination.activity_eq harrival)
  · obtain rfl := Option.some.inj (hcurrent.symm.trans hruns.current)
    cases hpending : k.line.pending with
    | nil =>
      rw [Kernel.deliver, Line.take?, hpending] at hdeliver
      obtain rfl := Except.ok.inj hdeliver
      rw [reach_eq]
      exact .arrived hcurrent (Destination.activity_eq harrival)
    | cons interrupt rest =>
      have houtside := hposture.outside (by simp [hactivity])
      rw [deliver_eq hruns.going houtside hpending] at hdeliver
      let entered : Kernel ε := { k with line := { pending := rest }, gate := { inside := true } }
      have hentered : entered.Runs _ id t :=
        ⟨hruns.going, hruns.settled, hruns.current, hruns.record, hruns.running⟩
      obtain ⟨hgoing, hstands⟩ := hentered.dispatch_own hdeliver
      exact .of_standing (.inl hgoing) hsound' hstands rfl rfl harrival

/-- A thread with the processor goes on by itself. -/
theorem Returning.advance (h : Returning k id arrival) (hsound : k.Sound W) (hsound' : k'.Sound W')
    (hcurrent : k.sched.current = some id) (hrun : k.advance = .ok k') :
    Returning k' id arrival := by
  cases h with
  | parked _ hnot _ _ _ _ => exact absurd hcurrent hnot
  | ended _ hnot => exact absurd hcurrent hnot
  | leaving _ hposition harrival =>
    rcases Activity.eq_of_arrival hposition harrival with
      ⟨answer, hactivity, rfl⟩ | ⟨destination, hactivity, hleads⟩
    · rw [Kernel.advance, hactivity] at hrun
      obtain rfl := Except.ok.inj hrun
      exact .leaving hcurrent rfl rfl
    · exact .deliver hsound hsound' hcurrent hactivity hleads hrun
  | arrived _ hactivity =>
    rw [Kernel.advance, hactivity] at hrun
    obtain rfl := Except.ok.inj hrun
    exact .back hcurrent rfl
  | back _ hactivity =>
    rw [Kernel.advance, hactivity] at hrun
    obtain rfl := Except.ok.inj hrun
    exact .back hcurrent hactivity

/-- A thread with the processor that gets back past what is pending comes with its answer. -/
theorem Returning.bypass (h : Returning k id arrival) (hcurrent : k.sched.current = some id)
    {answer : Answer} (hactivity : k.activity = .delivering (.reply answer)) :
    Returning (k.arrive (.returned answer)) id arrival := by
  cases h with
  | parked _ hnot _ _ _ _ => exact absurd hcurrent hnot
  | ended _ hnot => exact absurd hcurrent hnot
  | leaving _ hposition harrival =>
    rw [hactivity] at hposition
    obtain rfl := Option.some.inj hposition
    exact .arrived hcurrent (Destination.activity_eq harrival)
  | arrived _ harriving => cases hactivity.symm.trans harriving
  | back _ hprogram => cases hactivity.symm.trans hprogram

/-- A thread without the processor that goes on living meets one of the fates of a turn, or the
kernel is shut down. -/
theorem Moved.fate (h : Moved move k k') (hsound : k.Sound W) (hgoing : k.stopped = false)
    (hnot : k.sched.current ≠ some id) (hlives : k'.lives id = true) :
    (k'.stopped = false ∧ ∃ ticking events t', k'.standing id = some t' ∧ t'.state ≠ .dead ∧
      Fate ticking events id (k.sched.threads.get? id) (some t')) ∨
    (k'.stopped = true ∧ k'.sched.current ≠ some id) := by
  cases h.effect with
  | still hsched _ hstopped _ _ =>
    obtain ⟨t, ht, halive⟩ := lives_iff.mp hlives
    refine .inl ⟨hstopped.trans hgoing, false, [], t, ?_, halive, ?_⟩
    · rw [standing_eq (hsched.symm ▸ hsound.not_running hnot), ht]
    · rw [← hsched, ht]
      exact .kept rfl
  | shutdown _ _ hstopped _ _ hsched _ _ _ =>
    refine .inr ⟨hstopped, ?_⟩
    rwa [hsched, current_foldl_forgetPosition]
  | @turn me ticking events _ hcurrent hturn =>
    have hid : id ≠ me := by
      rintro rfl
      exact hnot hcurrent
    obtain ⟨hstanding, t', hstands', halive, hfate⟩ := hturn.other hsound hcurrent hid hlives
    exact .inl ⟨hturn.stopped.trans hgoing, ticking, events, t', hstands', halive,
      hstanding ▸ hfate⟩

/-- A ready thread stays where it stands whatever others do, unless they end its life or shut the
kernel down. -/
theorem Moved.ready (h : Moved move k k') (hsound : k.Sound W) (hgoing : k.stopped = false)
    (hnot : k.sched.current ≠ some id) (hrecord : k.sched.threads.get? id = some t)
    (hready : t.state = .ready) (hlives : k'.lives id = true) :
    k'.stopped = false ∧ k'.standing id = some t ∨
      k'.stopped = true ∧ k'.sched.current ≠ some id := by
  rcases h.fate hsound hgoing hnot hlives with ⟨hgoing', _, _, t', hstands', halive, hfate⟩ | hended
  · rw [hrecord] at hfate
    have hsame := hfate.of_ready (hsound.upright.orderly.tidy hrecord) hready halive
    exact .inl ⟨hgoing', hsame ▸ hstands'⟩
  · exact .inr hended

/-- A kernel that is shut down stays so, and nobody else gets the processor. -/
theorem Moved.stopped (h : Moved move k k') (hstopped : k.stopped = true) :
    k'.stopped = true ∧ k'.sched.current = k.sched.current := by
  cases h.effect with
  | still hsched _ hsame _ _ => exact ⟨hsame.trans hstopped, by rw [hsched]⟩
  | turn hgoing _ _ => simp [hgoing] at hstopped
  | shutdown hgoing _ _ _ _ _ _ _ _ => simp [hgoing] at hstopped

/-- The kernel is shut down by a call. Nothing changes but where threads stand, and the caller keeps
the processor. -/
theorem Moved.shutdown (h : Moved move k k') (hgoing : k.stopped = false)
    (hstopped : k'.stopped = true) : move = .call .shutdown ∧
      k'.sched.current = k.sched.current ∧
      ∃ ids : List ThreadId, k'.sched = ids.foldl Scheduler.forgetPosition k.sched := by
  cases h.effect with
  | still _ _ hsame _ _ =>
    rw [hsame, hgoing] at hstopped
    cases hstopped
  | turn _ _ hturn =>
    rw [hturn.stopped, hgoing] at hstopped
    cases hstopped
  | shutdown _ _ _ _ _ hsched _ _ hmove =>
    exact ⟨hmove, by rw [hsched, current_foldl_forgetPosition], _, hsched⟩

/-- What others do makes no difference. -/
theorem Returning.others (h : Returning k id arrival) (hsound : k.Sound W) (hsound' : k'.Sound W')
    (hnot : k.sched.current ≠ some id) (hmoved : Moved move k k') (hlives : k'.lives id = true) :
    Returning k' id arrival := by
  cases h with
  | leaving hcurrent _ _ => exact absurd hcurrent hnot
  | arrived hcurrent _ => exact absurd hcurrent hnot
  | back hcurrent _ => exact absurd hcurrent hnot
  | ended hstopped _ =>
    obtain ⟨hstopped', hcurrent⟩ := hmoved.stopped hstopped
    exact .ended hstopped' (hcurrent ▸ hnot)
  | parked hgoing _ hrecord hready hposition harrival =>
    rcases hmoved.ready hsound hgoing hnot hrecord hready hlives with
      ⟨hgoing', hstands⟩ | ⟨hstopped, hnot'⟩
    · exact .of_standing (.inl hgoing') hsound' hstands hready hposition harrival
    · exact .ended hstopped hnot'

theorem Returning.moved (h : Returning k id arrival) (hsound : k.Sound W) (hsound' : k'.Sound W')
    (hallowed : k.allows move = true) (hperform : k.perform move = .ok k')
    (hrule : quiet id k move = true) : Returning k' id arrival := by
  obtain ⟨hpassive, hlives⟩ := (quiet_iff hperform).mp hrule
  by_cases hcurrent : k.sched.current = some id
  · cases move with
    | call request => cases hpassive hcurrent
    | exit => cases hpassive hcurrent
    | advance => exact h.advance hsound hsound' hcurrent hperform
    | bypass =>
      obtain ⟨answer, hactivity, rfl⟩ := eq_of_bypass hallowed hperform
      exact h.bypass hcurrent hactivity
    | raise interrupt =>
      obtain rfl := Except.ok.inj hperform
      cases h with
      | parked _ hnot _ _ _ _ => exact absurd hcurrent hnot
      | ended _ hnot => exact absurd hcurrent hnot
      | leaving _ hposition harrival => exact .leaving hcurrent hposition harrival
      | arrived _ hactivity => exact .arrived hcurrent hactivity
      | back _ hactivity => exact .back hcurrent hactivity
  · exact h.others hsound hsound' hcurrent (hsound.moved hallowed hperform) hlives

/-! ## Runs -/

/-- A thread on its way to its program arrives as it was to arrive, if it lives. -/
theorem Returning.run (h : Returning k₁ id arrival) (hsound : k₁.Sound W)
    (hplay : k₁.play moves = some k) (hquiet : k₁.follows (quiet id) moves = true) :
    Returning k id arrival := by
  refine hsound.play_induction (P := fun moves k => k₁.follows (quiet id) moves = true →
    Returning k id arrival) hplay (fun _ => h) ?_ hquiet
  intro before move last next hbefore hlast hallowed hperform hnext ih hquiet
  obtain ⟨hquiet, hrule⟩ := (follows_concat hbefore hperform).mp hquiet
  exact (ih hquiet).moved hlast hnext hallowed hperform hrule

/-- Whoever arrives, arrives as it was to arrive. -/
theorem Returning.eq_of_arriving (h : Returning k id arrival) (hcurrent : k.sched.current = some id)
    {other : Arrival ε} (hactivity : k.activity = .arriving other) : other = arrival := by
  cases h with
  | parked _ hnot _ _ _ _ => exact absurd hcurrent hnot
  | ended _ hnot => exact absurd hcurrent hnot
  | leaving _ hposition _ =>
    rw [hactivity] at hposition
    cases hposition
  | arrived _ hsame => exact Activity.arriving.inj (hactivity.symm.trans hsame)
  | back _ hprogram =>
    rw [hactivity] at hprogram
    cases hprogram

end Kernel

end CoopKernel
