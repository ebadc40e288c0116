import CoopKernel.Proofs.Dining.Serving

/-!
# What the programs of a supper do

Every turn of a program at a supper keeps it served. The host lays no more forks and calls nothing
that touches one (`Orderly.host`). A philosopher that decides shows its phase and makes the call of
its step (`Orderly.diner`); one that comes back from a call goes on to the next step
(`Orderly.resumes`).
-/

namespace CoopKernel.Dining

open Kernel

variable {menu : Menu} {k k' : Kernel Role} {frames : Frames} {table table' : Table}
  {id me : ThreadId} {seat : Nat} {step : DinerStep} {move : Move Role} {course : Course}
  {first second : MutexId} {hall : Hall}

/-! ## Frames -/

/-- The frames after a turn of a thread. -/
def withFrame (frames : Frames) (me : ThreadId) (course : Course) : Frames :=
  (me, course) :: frames.filter (·.1 != me)

/-- Taking one thread's frame away leaves those of the others. -/
theorem lookup_filter_ne (frames : Frames) (hid : id ≠ me) :
    (frames.filter (·.1 != me)).lookup id = frames.lookup id := by
  induction frames with
  | nil => rfl
  | cons entry rest ih =>
    rw [List.filter_cons]
    split
    · rw [List.lookup_cons, List.lookup_cons, ih]
    · next hmine =>
      have hme : entry.1 = me := by simpa using hmine
      rw [ih, List.lookup_cons, hme, beq_false_of_ne hid]

theorem lookup_withFrame (frames : Frames) (me : ThreadId) (course : Course) (id : ThreadId) :
    (withFrame frames me course).lookup id = if id = me then some course else frames.lookup id := by
  rw [withFrame, List.lookup_cons]
  split
  · next hid => rw [if_pos (beq_iff_eq.mp hid)]
  · next hid =>
    have hne : id ≠ me := by simpa using hid
    rw [if_neg hne, lookup_filter_ne frames hne]

/-- The running thread has the frame that its turn left. -/
theorem frame_of_current (hcurrent : k.sched.current = some me) (hid : k.sched.current = some id) :
    (withFrame frames me course).lookup id = some course := by
  obtain rfl := Option.some.inj (hcurrent.symm.trans hid)
  exact (lookup_withFrame ..).trans (if_pos rfl)

/-- The running thread takes a turn. -/
theorem Turned.takes (hcurrent : k.sched.current = some me) (hforks : table'.forks = table.forks)
    (hstays : ∀ {seat step}, Sits frames me seat step → ∃ step', course = .philosopher seat step')
    (hcomes : ∀ {seat step}, course = .philosopher seat step →
      (∃ step', Sits frames me seat step') ∨ seat < table.forks.length ∧ Vacant frames seat)
    (hshows : ∀ {seat}, (∀ step, course ≠ .philosopher seat step) →
      table'.phase? seat = table.phase? seat) :
    Turned k frames (withFrame frames me course) table table' where
  forks := hforks
  others {id} hnot := by
    rw [lookup_withFrame, if_neg]
    rintro rfl
    exact hnot hcurrent
  stays {id seat step} hsits := by
    by_cases hid : id = me
    · subst hid
      obtain ⟨step', rfl⟩ := hstays hsits
      exact ⟨step', (lookup_withFrame ..).trans (if_pos rfl)⟩
    · exact ⟨step, ((lookup_withFrame ..).trans (if_neg hid)).trans hsits⟩
  comes {id seat step} hsits := by
    rw [Sits, lookup_withFrame] at hsits
    split at hsits
    · next hid =>
      subst hid
      exact hcomes (Option.some.inj hsits)
    · exact .inl ⟨step, hsits⟩
  shows {seat} hnobody := hshows fun step hcourse =>
    hnobody me step hcurrent
      ((lookup_withFrame ..).trans ((if_pos rfl).trans (congrArg some hcourse)))

/-! ## The host -/

/-- Whether a call has nothing to do with mutexes and ends no thread. -/
def harmless : Call Role → Bool
  | .mutexAcquire _ _ => false
  | .mutexDelete _ => false
  | .threadTerminate _ => false
  | _ => true

/-- The host lays no more forks than it has to, and leaves the forks and the philosophers alone. -/
theorem actHost_eq (henough : menu.seats ≤ hall.table.forks.length) (ticks : Nat)
    (step : HostStep) : ∃ step' said action, step' ≠ .lay ∧
      actHost menu ticks step hall = ({ frame := .host step', shared := hall, said }, action) ∧
      (action = .pass ∨ action = .finish ∨ ∃ request, action = .call request ∧
        harmless request = true) := by
  cases step with
  | lay =>
    rw [actHost, if_neg (Nat.not_lt.mpr henough)]
    exact ⟨_, _, _, by simp, rfl, .inl rfl⟩
  | seat seat =>
    rw [actHost]
    split
    · exact ⟨_, _, _, by simp, rfl, .inr (.inr ⟨_, rfl, rfl⟩)⟩
    · exact ⟨_, _, _, by simp, rfl, .inl rfl⟩
  | bring seat thread => exact ⟨_, _, _, by simp, rfl, .inr (.inr ⟨_, rfl, rfl⟩)⟩
  | wait =>
    rw [actHost]
    split
    · exact ⟨_, _, _, by simp, rfl, .inl rfl⟩
    · exact ⟨_, _, _, by simp, rfl, .inr (.inr ⟨_, rfl, rfl⟩)⟩
  | look =>
    refine ⟨if menu.closing.stopsAfter ticks then .leave else .wait, _, _, ?_, rfl, .inl rfl⟩
    split <;> simp
  | leave => exact ⟨_, _, _, by simp, rfl, .inr (.inl rfl)⟩

/-- Whatever a call of the host comes to, the table stays as it is once it is laid. -/
theorem resume_host {host : HostStep} (hlaid : host ≠ .lay) (me : ThreadId)
    (outcome : Except Invariant Answer) (hall : Hall) : ∃ host' hall', host' ≠ .lay ∧
      resume me outcome (.host host) hall = { frame := .host host', shared := hall' } ∧
      hall'.table = hall.table := by
  rcases outcome with _ | (status | reply)
  · exact ⟨.leave, hall, by simp, rfl, rfl⟩
  · exact ⟨.leave, { hall with failure := some status }, by simp, rfl, rfl⟩
  · cases host with
    | lay => exact absurd rfl hlaid
    | seat seat => cases reply <;> exact ⟨_, _, by simp, rfl, rfl⟩
    | _ => exact ⟨_, _, by simp, rfl, rfl⟩

/-- The host takes a turn while the kernel makes a move that is harmless. -/
theorem Orderly.host (h : Orderly menu k frames table) (hcurrent : k.sched.current = some me)
    (hframe : ∀ seat step, ¬ Sits frames me seat step) {host : HostStep} (hlaid : host ≠ .lay)
    (hallowed : k.allows move = true) (hrun : k.perform move = .ok k')
    (hharmless : ∀ request, move = .call request → harmless request = true) :
    Orderly menu k' (withFrame frames me (.host host)) table := by
  refine h.moved (.takes hcurrent rfl (fun hsits => absurd hsits (hframe _ _)) (fun heq => ?_)
      fun _ => rfl) hallowed hrun (fun fork _ hdeletes => ?_) (fun {id seat step} _ hkills => ?_)
    (fun {id fork} _ _ hacquires => ?_) (fun {id} hid hlay => ?_)
    (fun {id seat step} hid hsits _ => ?_)
  · cases heq
  · cases hharmless _ hdeletes
  · cases hharmless _ hkills
  · cases move with
    | call request =>
      cases request with
      | mutexAcquire _ _ => cases hharmless _ rfl
      | _ => cases hacquires
    | _ => cases hacquires
  · cases (frame_of_current hcurrent hid).symm.trans hlay
    exact absurd rfl hlaid
  · cases (frame_of_current hcurrent hid).symm.trans hsits

/-! ## Philosophers -/

theorem Table.phase?_enter (table : Table) (seat other : Nat) (phase : Phase) :
    (table.enter seat phase).phase? other =
      if seat = other then (table.phase? other).map fun _ => phase else table.phase? other := by
  rw [phase?, phase?, enter, List.getElem?_modify]
  split
  · cases table.seats[other]? <;> rfl
  · cases table.seats[other]? <;> rfl

theorem Table.phase?_serve (table : Table) (seat other : Nat) :
    (table.serve seat).phase? other = table.phase? other := by
  rw [phase?, phase?, serve, List.getElem?_modify]
  split
  · cases table.seats[other]? <;> rfl
  · cases table.seats[other]? <;> rfl

/-- A table after the philosopher of a seat has made a step. -/
structure Table.Steps (table : Table) (seat : Nat) (step : DinerStep) (table' : Table) : Prop where
  forks : table'.forks = table.forks
  others : ∀ {other}, other ≠ seat → table'.phase? other = table.phase? other
  own : ∀ {phase}, table.phase? seat = some phase → Shown true step phase →
    table'.phase? seat = some step.phase

/-- A philosopher at the table makes the call of its step, and is shown in the phase of it. -/
theorem actPhilosopher_eq (menu : Menu) (hforks : hall.table.forksOf seat = some (first, second))
    (hstays : step ≠ .leave) : ∃ table' said request, step.Makes first second request ∧
      hall.table.Steps seat step table' ∧ actPhilosopher menu seat step hall =
        ({ frame := .philosopher seat step, shared := { hall with table := table' }, said },
          .call request) := by
  have henters : ∀ table : Table, table.forks = hall.table.forks →
      (∀ other, table.phase? other = hall.table.phase? other) → ∀ phase, phase = step.phase →
      hall.table.Steps seat step (table.enter seat phase) := by
    rintro table hsame hphase _ rfl
    refine ⟨hsame, fun hother => ?_, fun hshown _ => ?_⟩
    · rw [Table.phase?_enter, if_neg hother.symm, hphase]
    · rw [Table.phase?_enter, if_pos rfl, hphase, hshown, Option.map_some]
  have hkeeps : (∀ before : DinerStep, before.next = step → before.phase = step.phase) →
      step ≠ .think → hall.table.Steps seat step hall.table := by
    refine fun hsame hthink => ⟨rfl, fun _ => rfl, fun hshown hphase => ?_⟩
    rw [Shown, if_pos rfl] at hphase
    obtain ⟨hstep, -⟩ | ⟨before, hnext, rfl⟩ := hphase
    · exact absurd hstep hthink
    · rw [hshown, hsame before hnext]
  rw [actPhilosopher, hforks]
  cases step with
  | think => exact ⟨_, _, _, ⟨_, rfl⟩, henters _ rfl (fun _ => rfl) _ rfl, rfl⟩
  | takeFirst => exact ⟨_, _, _, rfl, henters _ rfl (fun _ => rfl) _ rfl, rfl⟩
  | eat =>
    exact ⟨_, _, _, ⟨_, rfl⟩,
      henters (hall.table.serve seat) rfl (Table.phase?_serve _ _) _ rfl, rfl⟩
  | takeSecond | putSecond | putFirst =>
    refine ⟨_, _, _, rfl, hkeeps ?_ (by simp), rfl⟩
    intro before hnext
    cases before <;> first | rfl | cases hnext
  | leave => exact absurd rfl hstays

/-- A philosopher that decides makes the call of its step. -/
theorem Orderly.diner (h : Orderly menu k frames table) (hdecides : k.deciding me = true)
    (hframe : Sits frames me seat step) (hforks : table.forksOf seat = some (first, second))
    (hsteps : table.Steps seat step table') {request : Call Role}
    (hmakes : step.Makes first second request) (hrun : k.call request = .ok k') :
    Orderly menu k' (withFrame frames me (.philosopher seat step)) table' := by
  obtain ⟨hprogram, hcurrent⟩ := deciding_iff.mp hdecides
  obtain ⟨hdeletes, hkills⟩ := hmakes.spares
  have hmoved := h.sound.moved_call hdecides hrun
  refine h.moved
    (.takes hcurrent hsteps.forks (fun hsits => ?_) (fun heq => ?_) fun hseat => ?_)
    (allows_call request (inProgram_iff.mpr hprogram)) hrun (fun fork _ hmove => ?_)
    (fun _ hmove => ?_) (fun hid _ _ => ⟨_, _, frame_of_current hcurrent hid⟩)
    (fun hid hlay => ?_) (fun {id seat' step'} hid hsits hsound' => ?_)
  · cases hframe.symm.trans hsits
    exact ⟨_, rfl⟩
  · cases heq
    exact .inl ⟨_, hframe⟩
  · exact hsteps.others fun heq => hseat step (by rw [heq])
  · exact hdeletes fork (Move.call.inj hmove)
  · exact hkills _ (Move.call.inj hmove)
  · cases (frame_of_current hcurrent hid).symm.trans hlay
  · cases (frame_of_current hcurrent hid).symm.trans hsits
    obtain rfl := Option.some.inj (hcurrent.symm.trans hid)
    obtain ⟨hlives, ⟨_, _, hsame, hdines⟩, phase, hphase, hshown⟩ := h.seated hframe
    cases hsame.symm.trans hforks
    obtain ⟨hfirst, hsecond⟩ := Table.mem_of_forksOf hforks
    obtain ⟨haway, hdines'⟩ := hdines.makes h.sound hsound' hdecides
      (Table.ne_of_forksOf h.distinct h.two hforks) hfirst hsecond h.registered hmakes hrun
    refine ⟨hmoved.lives hlives (fun hmove => hkills _ (Move.call.inj hmove)) (by simp),
      ⟨first, second, (Table.forksOf_congr hsteps.forks seat).trans hforks, hsteps.forks ▸ hdines'⟩,
      step.phase, ?_, ?_⟩
    · rw [hdecides] at hshown
      exact hsteps.own hphase hshown
    · rw [haway, Shown, if_neg (by simp)]

/-! ## Arrivals -/

section

variable (h : Orderly menu k frames table) (hcurrent : k.sched.current = some me)
  {arrival : Arrival Role} (hactivity : k.activity = .arriving arrival)
  (hrun : k.advance = .ok k')

include h hcurrent hactivity hrun

/-- A program begins; if it is a philosopher's, its seat is its own. -/
theorem Orderly.begins (hall : Hall) {role : Role} (hstarted : arrival = .started role)
    (hserves : ∀ {seat}, role = .philosopher seat →
      seat < table.forks.length ∧ Vacant frames seat) :
    Orderly menu k' (withFrame frames me (start me role hall).frame) table := by
  obtain ⟨hdecides', hsched, hstopped⟩ := deciding_of_arriving hcurrent hactivity hrun
  have hnobody : ∀ seat step, ¬ Sits frames me seat step := fun seat step hsits => by
    obtain ⟨-, ⟨_, _, -, hdines⟩, -⟩ := h.seated hsits
    obtain ⟨reply, hreply⟩ := hdines.of_arriving h.sound hcurrent hactivity
    cases hstarted.symm.trans hreply
  have hrole : ∀ {seat step}, (start me role hall).frame = .philosopher seat step →
      role = .philosopher seat ∧ step = .think := fun heq => by
    cases role with
    | host => cases heq
    | philosopher _ =>
      cases heq
      exact ⟨rfl, rfl⟩
  have hgoing : k'.stopped = false := by
    rw [hstopped]
    cases hover : k.stopped with
    | false => rfl
    | true =>
      have hnot := h.halted hover
      rw [Kernel.starts, hactivity, hstarted] at hnot
      cases hnot
  refine h.moved (.takes hcurrent rfl (fun hsits => absurd hsits (hnobody _ _))
    (fun heq => .inr (hserves (hrole heq).1)) fun _ => rfl) (allows_advance _) hrun (by simp)
    (by simp)
    (fun _ _ hacquires => by cases hacquires)
    (fun hid _ => Option.some.inj (hcurrent.symm.trans hid) ▸ hdecides')
    (fun {id seat step} hid hsits hsound' => ?_)
  obtain rfl := Option.some.inj (hcurrent.symm.trans hid)
  obtain ⟨rfl, rfl⟩ := hrole (Option.some.inj ((frame_of_current hcurrent hid).symm.trans hsits))
  obtain ⟨hseat, hvacant⟩ := hserves rfl
  obtain ⟨first, second, hforks⟩ := Table.exists_forksOf hseat
  refine ⟨hsound'.lives_of_current (hsched ▸ hcurrent), ⟨first, second, hforks,
    .decides hgoing hdecides' (by simp) fun fork hfork => ?_⟩,
    .thinking, (h.vacant hvacant).trans (if_pos hseat), by simp [hdecides', Shown]⟩
  refine iff_of_false (fun hholds => ?_) (by simp [DinerStep.hands])
  rw [Kernel.Holds, hsched] at hholds
  obtain ⟨_, _, hsits⟩ := h.taken hfork (.inl hholds)
  exact hnobody _ _ hsits

/-- A philosopher comes back from a call with success, and goes on to its next step. -/
theorem Orderly.resumes (hframe : Sits frames me seat step) :
    (∃ reply, arrival = .returned (.ok reply)) ∧
      Orderly menu k' (withFrame frames me (.philosopher seat step.next)) table := by
  obtain ⟨hlives, ⟨first, second, hforks, hdines⟩, phase, hphase, hshown⟩ := h.seated hframe
  obtain ⟨hdecides', hsched, -⟩ := deciding_of_arriving hcurrent hactivity hrun
  have haway : k.deciding me = false := by
    rw [← Bool.not_eq_true]
    intro hdecides
    cases hactivity.symm.trans (deciding_iff.mp hdecides).1
  refine ⟨hdines.of_arriving h.sound hcurrent hactivity, h.moved
    (.takes hcurrent rfl (fun hsits => ?_) (fun heq => ?_) fun _ => rfl) (allows_advance _) hrun
    (by simp) (by simp)
    (fun _ _ hacquires => by cases hacquires) (fun hid hlay => ?_)
    (fun {id seat' step'} hid hsits hsound' => ?_)⟩
  · cases hframe.symm.trans hsits
    exact ⟨_, rfl⟩
  · cases heq
    exact .inl ⟨_, hframe⟩
  · cases (frame_of_current hcurrent hid).symm.trans hlay
  · cases (frame_of_current hcurrent hid).symm.trans hsits
    obtain rfl := Option.some.inj (hcurrent.symm.trans hid)
    have hlives' := hsound'.lives_of_current (hsched ▸ hcurrent)
    obtain ⟨-, -, hdines'⟩ := (hdines.moved (Table.ne_of_forksOf h.distinct h.two hforks) h.sound
      hsound' (allows_advance _) hrun (fun _ => rfl) hlives hlives').resolve_left
        fun ⟨_, hsame⟩ => by simp [hdecides', haway] at hsame
    rw [haway, Shown, if_neg (by simp)] at hshown
    refine ⟨hlives', ⟨first, second, hforks, hdines'⟩, phase, hphase, ?_⟩
    rw [hdecides', Shown, if_pos rfl]
    exact .inr ⟨step, rfl, hshown⟩

end

end CoopKernel.Dining
