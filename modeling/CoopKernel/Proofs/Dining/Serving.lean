import CoopKernel.Proofs.Dining.Diners

/-!
# A supper while it is served

What is true of a supper from the moment at which the table is laid is said of the kernel, the
frames of the threads and the table (`Orderly`): every thread whose frame is a philosopher's has a
seat of its own, is somewhere in its dinner and is shown in the phase that belongs there (`Seated`),
and nobody but a philosopher has to do with a fork.

In one step of a supper the kernel makes a move, and the running thread may change its own frame and
what is shown of its own seat (`Turned`). So everybody else is where a move of the kernel leaves
him, and only the running thread is looked at closely (`Orderly.moved`).
-/

namespace CoopKernel

namespace Dining

open Kernel

/-! ## Who sits where -/

/-- The frames of the threads at a supper. -/
abbrev Frames := List (ThreadId × Course)

/-- A thread is at some step of the dinner of a seat. -/
def Sits (frames : Frames) (id : ThreadId) (seat : Nat) (step : DinerStep) : Prop :=
  frames.lookup id = some (.philosopher seat step)

/-- Nobody sits at two seats. -/
theorem Sits.unique {frames : Frames} {id : ThreadId} {a b : Nat} {step step' : DinerStep}
    (h : Sits frames id a step) (hother : Sits frames id b step') : a = b ∧ step = step' := by
  cases h.symm.trans hother
  exact ⟨rfl, rfl⟩

/-- Nobody has a seat. -/
def Vacant (frames : Frames) (seat : Nat) : Prop := ∀ id step, ¬ Sits frames id seat step

/-- The phase that is shown of a seat. -/
def Table.phase? (table : Table) (seat : Nat) : Option Phase := table.seats[seat]?.map Seat.phase

/-- The phase in which a philosopher is shown after a step, if it stays at the table. -/
def DinerStep.phase : DinerStep → Phase
  | think => .thinking
  | takeFirst => .hungry
  | takeSecond => .hungry
  | eat => .eating
  | putSecond => .eating
  | putFirst => .eating
  | leave => .thinking

/-- A phase goes with the step of a philosopher: once the step is made it is the phase of that step,
and before that it is the one of the step before. -/
def Shown (decides : Bool) (step : DinerStep) (phase : Phase) : Prop :=
  if decides then step = .think ∧ phase = .thinking ∨
    ∃ before : DinerStep, before.next = step ∧ phase = before.phase
  else phase = step.phase

/-- Who is shown eating. -/
theorem Shown.eating {decides : Bool} {step : DinerStep} (h : Shown decides step .eating) :
    decides = false ∧ (step = .eat ∨ step = .putSecond ∨ step = .putFirst) ∨
      decides = true ∧ (step = .putSecond ∨ step = .putFirst ∨ step = .think) := by
  cases decides with
  | false =>
    rw [Shown, if_neg (by simp)] at h
    refine .inl ⟨rfl, ?_⟩
    cases step <;> simp [DinerStep.phase] at h ⊢
  | true =>
    rw [Shown, if_pos rfl] at h
    refine .inr ⟨rfl, ?_⟩
    obtain ⟨-, hphase⟩ | ⟨before, rfl, hphase⟩ := h
    · cases hphase
    · cases before <;> simp [DinerStep.phase, DinerStep.next] at hphase ⊢

/-- A philosopher is at dinner. -/
structure Seated (k : Kernel ε) (table : Table) (id : ThreadId) (seat : Nat) (step : DinerStep) :
    Prop where
  lives : k.lives id = true
  dines : ∃ first second, table.forksOf seat = some (first, second) ∧
    Dines k table.forks first second id step
  shown : ∃ phase, table.phase? seat = some phase ∧ Shown (k.deciding id) step phase

/-- What is true of a supper while it is served. -/
structure Orderly (menu : Menu) (k : Kernel Role) (frames : Frames) (table : Table) : Prop where
  sound : k.Sound fun _ => False
  two : 2 ≤ table.forks.length
  /-- The host lays no more forks. -/
  enough : menu.seats ≤ table.forks.length
  distinct : table.forks.Nodup
  registered : ∀ fork ∈ table.forks, (k.sched.mutexes.get? fork).isSome = true
  /-- Once the kernel is shut down, nobody comes to the table. -/
  halted : k.stopped = true → k.starts = false
  laid : ∀ {id}, frames.lookup id = some (.host .lay) → k.deciding id = true
  /-- Nobody but a philosopher has to do with a fork. -/
  taken : ∀ {id fork}, fork ∈ table.forks → k.Holds id fork ∨ k.Wants id fork →
    ∃ seat step, Sits frames id seat step
  /-- No seat is given to two threads. -/
  own : ∀ {id other seat step step'}, Sits frames id seat step → Sits frames other seat step' →
    id = other
  seated : ∀ {id seat step}, Sits frames id seat step → Seated k table id seat step
  vacant : ∀ {seat}, Vacant frames seat →
    table.phase? seat = if seat < table.forks.length then some .thinking else none

/-- What the running thread does in one step besides the move of the kernel. -/
structure Turned (k : Kernel Role) (frames frames' : Frames) (table table' : Table) : Prop where
  forks : table'.forks = table.forks
  others : ∀ {id}, k.sched.current ≠ some id → frames'.lookup id = frames.lookup id
  stays : ∀ {id seat step}, Sits frames id seat step → ∃ step', Sits frames' id seat step'
  /-- A newcomer takes a seat that nobody has. -/
  comes : ∀ {id seat step}, Sits frames' id seat step →
    (∃ step', Sits frames id seat step') ∨ seat < table.forks.length ∧ Vacant frames seat
  /-- Only what is shown of the running thread changes. -/
  shows : ∀ {seat}, (∀ id step, k.sched.current = some id → ¬ Sits frames' id seat step) →
    table'.phase? seat = table.phase? seat

variable {menu : Menu} {k k' : Kernel Role} {frames frames' : Frames} {table table' : Table}
  {id me : ThreadId} {seat : Nat} {step : DinerStep} {move : Move Role}
  {fork first second : MutexId}

theorem Table.forksOf_congr (h : table'.forks = table.forks) (seat : Nat) :
    table'.forksOf seat = table.forksOf seat := by
  rw [forksOf, forksOf, h]

theorem Turned.same (k : Kernel Role) (frames : Frames) (table : Table) :
    Turned k frames frames table table :=
  ⟨rfl, fun _ => rfl, fun h => ⟨_, h⟩, fun h => .inl ⟨_, h⟩, fun _ => rfl⟩

/-! ## One move -/

theorem Table.ne_of_forksOf (hdistinct : table.forks.Nodup) (htwo : 2 ≤ table.forks.length)
    (h : table.forksOf seat = some (first, second)) : first ≠ second := by
  rintro rfl
  exact absurd (lt_of_forksOf hdistinct htwo h) (Nat.lt_irrefl _)

/-- What happens without a decision of the philosopher leaves it where it is, unless it comes back
from a call. -/
theorem Seated.moved {W W' : PoolId → Prop} (h : Seated k table id seat step)
    (hdistinct : table.forks.Nodup) (htwo : 2 ≤ table.forks.length) (hsound : k.Sound W)
    (hsound' : k'.Sound W') (hallowed : k.allows move = true) (hrun : k.perform move = .ok k')
    (hpassive : k.deciding id = true → move.ofProgram = false)
    (hback : k'.deciding id = true → k.deciding id = true) (hlives' : k'.lives id = true)
    (hforks : table'.forks = table.forks) (hshows : table'.phase? seat = table.phase? seat) :
    Seated k' table' id seat step := by
  obtain ⟨first, second, hmine, hdines⟩ := h.dines
  obtain ⟨hdines', hsame⟩ := (hdines.moved (Table.ne_of_forksOf hdistinct htwo hmine) hsound hsound'
    hallowed hrun hpassive h.lives hlives').resolve_right fun ⟨haway, hdecides', _⟩ => by
      simp [hback hdecides'] at haway
  refine ⟨hlives', ⟨first, second, (Table.forksOf_congr hforks seat).trans hmine, ?_⟩, ?_⟩
  · rw [hforks]
    exact hdines'
  · rw [hshows, hsame]
    exact h.shown

/-- Only the running thread can be new at the table. -/
theorem Turned.newcomer (h : Turned k frames frames' table table')
    (hsits : Sits frames' id seat step) (hvacant : Vacant frames seat) : k.sched.current = some id := by
  by_contra hnot
  exact hvacant id step ((h.others hnot).symm.trans hsits)

/-- Everybody has a seat of its own after a turn. -/
theorem Orderly.own_of_turned (h : Orderly menu k frames table)
    (hturned : Turned k frames frames' table table') {other : ThreadId} {step' : DinerStep}
    (hsits : Sits frames' id seat step) (hother : Sits frames' other seat step') : id = other := by
  rcases hturned.comes hsits with ⟨_, hbefore⟩ | ⟨-, hvacant⟩
  · rcases hturned.comes hother with ⟨_, hbefore'⟩ | ⟨-, hvacant⟩
    · exact h.own hbefore hbefore'
    · exact absurd hbefore (hvacant _ _)
  · exact Option.some.inj
      ((hturned.newcomer hsits hvacant).symm.trans (hturned.newcomer hother hvacant))

/-- What is shown of the others stays as it is. -/
theorem Orderly.shows_of_turned (h : Orderly menu k frames table)
    (hturned : Turned k frames frames' table table') (hsits : Sits frames' id seat step)
    (hnot : k.sched.current ≠ some id) : table'.phase? seat = table.phase? seat :=
  hturned.shows fun _ _ hcurrent hother => hnot (h.own_of_turned hturned hother hsits ▸ hcurrent)

/-- Whoever has to do with a fork after a turn is a philosopher. -/
theorem Orderly.taken_of_turned (h : Orderly menu k frames table)
    (hturned : Turned k frames frames' table table') (hmoved : Moved move k k')
    (hacquires : ∀ {id fork}, k.sched.current = some id → fork ∈ table.forks →
      move.acquires fork = true → ∃ seat step, Sits frames' id seat step)
    (hfork : fork ∈ table.forks) (hmine : k'.Holds id fork ∨ k'.Wants id fork) :
    ∃ seat step, Sits frames' id seat step := by
  have hold : k.Holds id fork ∨ k.Wants id fork → ∃ seat step, Sits frames' id seat step :=
    fun hmine =>
      have ⟨seat, _, hsits⟩ := h.taken hfork hmine
      ⟨seat, hturned.stays hsits⟩
  rcases hmine with hholds | hwants
  · rcases hmoved.held hholds with hholds | hwants | ⟨hcurrent, hacquired⟩
    · exact hold (.inl hholds)
    · exact hold (.inr hwants)
    · exact hacquires hcurrent hfork hacquired
  · rcases hmoved.wants hwants with hwants | ⟨hcurrent, hacquired⟩
    · exact hold (.inr hwants)
    · exact hacquires hcurrent hfork hacquired

/-- The kernel makes a move, and the running thread what its program says. -/
theorem Orderly.moved (h : Orderly menu k frames table)
    (hturned : Turned k frames frames' table table') (hallowed : k.allows move = true)
    (hrun : k.perform move = .ok k')
    (hdeletes : ∀ fork ∈ table.forks, move ≠ .call (.mutexDelete fork))
    (hkills : ∀ {id seat step}, Sits frames id seat step → move ≠ .call (.threadTerminate id))
    (hacquires : ∀ {id fork}, k.sched.current = some id → fork ∈ table.forks →
      move.acquires fork = true → ∃ seat step, Sits frames' id seat step)
    (hlaid : ∀ {id}, k.sched.current = some id → frames'.lookup id = some (.host .lay) →
      k'.deciding id = true)
    (hseated : ∀ {id seat step}, k.sched.current = some id → Sits frames' id seat step →
      k'.Sound (fun _ => False) → Seated k' table' id seat step) :
    Orderly menu k' frames' table' := by
  have hmoved := h.sound.moved hallowed hrun
  have hsound' := h.sound.performed hallowed hrun
  exact {
    sound := hsound'
    two := hturned.forks ▸ h.two
    enough := hturned.forks ▸ h.enough
    distinct := hturned.forks ▸ h.distinct
    registered := fun fork hfork => by
      rw [hturned.forks] at hfork
      exact h.sound.mutex_stays hallowed hrun (hdeletes fork hfork) (h.registered fork hfork)
    halted := hmoved.starts h.halted
    laid := fun {id} hframe => by
      by_cases hcurrent : k.sched.current = some id
      · exact hlaid hcurrent hframe
      · have hdecides := h.laid ((hturned.others hcurrent).symm.trans hframe)
        exact absurd (deciding_iff.mp hdecides).2 hcurrent
    taken := fun hfork => h.taken_of_turned hturned hmoved hacquires (hturned.forks ▸ hfork)
    own := h.own_of_turned hturned
    seated := fun {id seat step} hsits => by
      by_cases hcurrent : k.sched.current = some id
      · exact hseated hcurrent hsits hsound'
      · have hbefore : Sits frames id seat step := (hturned.others hcurrent).symm.trans hsits
        have hseated := h.seated hbefore
        refine hseated.moved h.distinct h.two h.sound hsound' hallowed hrun
          (fun hdecides => absurd (deciding_iff.mp hdecides).2 hcurrent) (fun hdecides' => ?_)
          (hmoved.lives hseated.lives (hkills hbefore) fun hsame => absurd hsame hcurrent)
          hturned.forks (h.shows_of_turned hturned hsits hcurrent)
        rw [h.sound.not_deciding_of_moved hallowed hrun hcurrent] at hdecides'
        cases hdecides'
    vacant := fun {seat} hvacant => by
      rw [hturned.forks, hturned.shows fun id step _ => hvacant id step]
      refine h.vacant fun id step hsits => ?_
      obtain ⟨step', hsits'⟩ := hturned.stays hsits
      exact hvacant id step' hsits' }

/-! ## Moves that the supper has no part in -/

/-- Interrupts are raised and the kernel goes on by itself, and nobody comes back from a call. -/
theorem Orderly.passive (h : Orderly menu k frames table) (hallowed : k.allows move = true)
    (hrun : k.perform move = .ok k') (hpassive : move.ofProgram = false)
    (hback : ∀ {id}, k'.deciding id = true → k.deciding id = true) :
    Orderly menu k' frames table := by
  have hcalls : ∀ request : Call Role, move ≠ .call request := by
    rintro request rfl
    cases hpassive
  refine h.moved (.same k frames table) hallowed hrun (fun fork _ => hcalls _) (fun _ => hcalls _)
    (fun {id fork} _ _ hacquires => ?_) (fun _ hframe => ?_)
    (fun {id seat step} _ hsits hsound' => ?_)
  · cases move with
    | call request => exact absurd rfl (hcalls request)
    | _ => cases hacquires
  · exact (deciding_of_passive (h.laid hframe) hpassive hrun).1
  · have hseated := h.seated hsits
    refine hseated.moved h.distinct h.two h.sound hsound' hallowed hrun (fun _ => hpassive) hback
      ((h.sound.moved hallowed hrun).lives hseated.lives (hcalls _) fun _ hexit => ?_) rfl rfl
    rw [hexit] at hpassive
    cases hpassive

/-- A thread that is not at the supper makes a move. -/
theorem Orderly.stranger (h : Orderly menu k frames table) (hallowed : k.allows move = true)
    (hrun : k.perform move = .ok k')
    (hdeletes : ∀ fork ∈ table.forks, move ≠ .call (.mutexDelete fork))
    (hkills : ∀ {id seat step}, Sits frames id seat step → move ≠ .call (.threadTerminate id))
    (hacquires : ∀ fork ∈ table.forks, move.acquires fork = false)
    (hstranger : ∀ {id}, k.sched.current = some id → frames.lookup id = none) :
    Orderly menu k' frames table := by
  refine h.moved (.same k frames table) hallowed hrun hdeletes hkills
    (fun _ hfork hacquired => ?_) (fun hcurrent hframe => ?_) (fun hcurrent hsits _ => ?_)
  · rw [hacquires _ hfork] at hacquired
    cases hacquired
  · cases (hstranger hcurrent).symm.trans hframe
  · cases (hstranger hcurrent).symm.trans hsits

/-- What was reported makes no difference. -/
theorem Orderly.cleared (h : Orderly menu k frames table) :
    Orderly menu k.cleared frames table where
  sound := h.sound.cleared
  two := h.two
  enough := h.enough
  distinct := h.distinct
  registered := h.registered
  halted := h.halted
  laid := h.laid
  taken := h.taken
  own := h.own
  seated hsits := by
    obtain ⟨hlives, ⟨first, second, hforks, hdines⟩, hshown⟩ := h.seated hsits
    exact ⟨hlives, ⟨first, second, hforks, hdines.cleared⟩, hshown⟩
  vacant := h.vacant

end Dining

end CoopKernel
