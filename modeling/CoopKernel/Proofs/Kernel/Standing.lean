import CoopKernel.Proofs.Kernel.Start

/-!
# Where threads stand, and how calls end

The record of the running thread does not say where the thread is: that is the kernel's activity.
To follow a thread through a run it is better not to care who has the processor. `Kernel.standing`
is a thread's record as it would be if the thread gave the processor away now, and it does not
change when the processor changes hands.

A call ends in one of four ways: it replies, it lets its thread wait, it lets others go first, or it
does so for the sake of one candidate. In all of them the running thread comes to stand somewhere
and everybody else stands where they stood (`Kernel.Ends`).
-/

namespace CoopKernel

variable {ε : Type}

/-- Where the running thread would go on if it gave the processor away now. A program does not give
it away by itself. -/
def Activity.position? : Activity ε → Option (Position ε)
  | .resuming pending => some (.inside pending)
  | .delivering destination => some (.delivering destination)
  | .program => none
  | .arriving _ => none
  | .resting => none

/-- How a thread at a position will come to its program, if that is settled. -/
def Position.arrival? : Position ε → Option (Arrival ε)
  | .inside (.reply answer) => some (.returned answer)
  | .delivering (.reply answer) => some (.returned answer)
  | .delivering (.start entry) => some (.started entry)
  | _ => none

theorem Activity.eq_resuming {activity : Activity ε} {pending : Pending ε}
    (h : activity.position? = some (.inside pending)) : activity = .resuming pending := by
  cases activity with
  | resuming _ =>
    cases h
    rfl
  | _ => cases h

/-- Whether an event says no more than who gets the processor. -/
def Trace.Event.isDispatch : Trace.Event → Bool
  | .switch _ _ => true
  | .idle _ _ => true
  | .preempt _ => true
  | _ => false

namespace Kernel

variable {k k' : Kernel ε} {me id : ThreadId} {t : Thread (Position ε)} {here : Position ε}

/-! ## Standing -/

/-- A thread as it stands: if it has the processor, as if it was ready to go on with what it is
doing. -/
def standing (k : Kernel ε) (id : ThreadId) : Option (Thread (Position ε)) :=
  (k.sched.threads.get? id).map fun t =>
    if t.state = .running then { t with state := .ready, position := k.activity.position? } else t

theorem standing_of_running (ht : k.sched.threads.get? id = some t) (hstate : t.state = .running) :
    k.standing id = some { t with state := .ready, position := k.activity.position? } := by
  rw [standing, ht, Option.map_some, if_pos hstate]

/-- Threads without the processor stand where their records say. -/
theorem standing_eq (hnot : ∀ u, k.sched.threads.get? id = some u → u.state ≠ .running) :
    k.standing id = k.sched.threads.get? id := by
  rw [standing]
  cases ht : k.sched.threads.get? id with
  | none => rfl
  | some u => rw [Option.map_some, if_neg (hnot u ht)]

/-- Whoever stands somewhere is registered, with the same record but for the processor. -/
theorem exists_of_standing (h : k.standing id = some t) :
    ∃ u, k.sched.threads.get? id = some u ∧
      (u.state = .running ∧ t = { u with state := .ready, position := k.activity.position? } ∨
        u.state ≠ .running ∧ t = u) := by
  obtain ⟨u, hu, rfl⟩ := Option.map_eq_some_iff.mp h
  refine ⟨u, hu, ?_⟩
  by_cases hstate : u.state = .running
  · exact .inl ⟨hstate, if_pos hstate⟩
  · exact .inr ⟨hstate, if_neg hstate⟩

/-! ## Ends -/

/-- The events of a journal that were added to another one, apart from those that only say who got
the processor. -/
def Reports (k k' : Kernel ε) (events : List Trace.Event) : Prop :=
  ∃ tail, (∀ event ∈ tail, event.isDispatch = true) ∧
    k'.journal = k.journal ++ (events ++ tail).map fun event => { event, tick := k'.sched.ticks }

theorem Reports.none (hjournal : k'.journal = k.journal) : k.Reports k' [] :=
  ⟨[], by simp, by simp [hjournal]⟩

/-- What is reported first comes before what is reported later at the same tick. -/
theorem Reports.of_emitted {m : Kernel ε} {events : List Trace.Event}
    (hemitted : m.journal = k.journal ++ events.map fun event => { event, tick := m.sched.ticks })
    (hticks : k'.sched.ticks = m.sched.ticks) (h : m.Reports k' []) : k.Reports k' events := by
  obtain ⟨tail, htail, hjournal⟩ := h
  refine ⟨tail, htail, ?_⟩
  rw [hjournal, hemitted, hticks, List.nil_append, List.map_append, List.append_assoc]

/-- What a kernel was started with; it stays so. -/
def fixed (k : Kernel ε) : Config × ThreadId × ThreadId × PoolId × PoolId :=
  (k.config, k.main, k.idle, k.systemPool, k.sharedPool)

/-- A call has ended: the running thread stands somewhere, and the others stand where they stood. -/
structure Ends (k k' : Kernel ε) (me : ThreadId) (t : Thread (Position ε)) : Prop where
  line : k'.line = k.line
  stopped : k'.stopped = k.stopped
  pools : k'.pools = k.pools
  entries : k'.entries = k.entries
  fixed : k'.fixed = k.fixed
  ticks : k'.sched.ticks = k.sched.ticks
  underway : k'.activity.position?.isSome = true
  journal : k.Reports k' []
  own : k'.standing me = some t
  others : ∀ j, j ≠ me → k'.standing j = k.sched.threads.get? j

/-- Nobody has the processor but one thread at most. -/
def Sole (k : Kernel ε) (me : ThreadId) : Prop :=
  ∀ {j u}, k.sched.threads.get? j = some u → u.state = .running → j = me

theorem sole_of_orderly (horderly : k.sched.Orderly) (hcurrent : k.sched.current = some me) :
    k.Sole me := by
  intro j u hu hrunning
  rw [horderly.running hu hrunning, Option.some.injEq] at hcurrent
  exact hcurrent

/-- Going on without giving the processor away is an end too. -/
theorem ends_of_activity (hsole : k.Sole me) (ht : k.sched.threads.get? me = some t)
    (hrunning : t.state = .running) (hactivity : k'.activity.position? = some here)
    (hsched : k'.sched = k.sched) (hline : k'.line = k.line) (hstopped : k'.stopped = k.stopped)
    (hpools : k'.pools = k.pools) (hentries : k'.entries = k.entries)
    (hfixed : k'.fixed = k.fixed) (hjournal : k'.journal = k.journal) :
    k.Ends k' me { t with state := .ready, position := some here } := by
  refine ⟨hline, hstopped, hpools, hentries, hfixed, by rw [hsched], by rw [hactivity]; rfl,
    .none hjournal, ?_, ?_⟩
  · rw [standing_of_running (by rw [hsched, ht]) hrunning, hactivity]
  · intro j hj
    have hget : k'.sched.threads.get? j = k.sched.threads.get? j := by rw [hsched]
    rw [standing_eq (by rw [hget]; exact fun u hu hstate => hj (hsole hu hstate)), hget]

theorem reply_ends (hsole : k.Sole me) (ht : k.sched.threads.get? me = some t)
    (hrunning : t.state = .running) (answer : Answer) :
    k.Ends (k.reply answer) me
      { t with state := .ready, position := some (.delivering (.reply answer)) } :=
  ends_of_activity hsole ht hrunning rfl rfl rfl rfl rfl rfl rfl rfl

@[simp] theorem position?_resume (k : Kernel ε) (there : Position ε) :
    (k.resume there).activity.position? = some there := by
  cases there <;> rfl

@[simp] theorem sched_resume (k : Kernel ε) (there : Position ε) :
    (k.resume there).sched = k.sched := by
  cases there <;> rfl

@[simp] theorem line_resume (k : Kernel ε) (there : Position ε) :
    (k.resume there).line = k.line := by
  cases there <;> rfl

@[simp] theorem stopped_resume (k : Kernel ε) (there : Position ε) :
    (k.resume there).stopped = k.stopped := by
  cases there <;> rfl

@[simp] theorem pools_resume (k : Kernel ε) (there : Position ε) :
    (k.resume there).pools = k.pools := by
  cases there <;> rfl

@[simp] theorem entries_resume (k : Kernel ε) (there : Position ε) :
    (k.resume there).entries = k.entries := by
  cases there <;> rfl

@[simp] theorem journal_resume (k : Kernel ε) (there : Position ε) :
    (k.resume there).journal = k.journal := by
  cases there <;> rfl

@[simp] theorem fixed_resume (k : Kernel ε) (there : Position ε) :
    (k.resume there).fixed = k.fixed := by
  cases there <;> rfl

theorem resume_ends (hsole : k.Sole me) (ht : k.sched.threads.get? me = some t)
    (hrunning : t.state = .running) (here : Position ε) :
    k.Ends (k.resume here) me { t with state := .ready, position := some here } := by
  refine ends_of_activity hsole ht hrunning (position?_resume k here) ?_ ?_ ?_ ?_ ?_ ?_ ?_ <;>
    cases here <;> rfl

theorem isDispatch_switchEvent (k : Kernel ε) (source target : ThreadId) :
    (k.switchEvent source target).isDispatch = true := by
  rw [switchEvent]
  split <;> rfl

/-- Another thread can only have been picked if both have a position. -/
theorem switchNext_leave_eq_ok (hinside : k.gate.inside = true) {s' : Scheduler (Position ε)}
    (hpick : k.sched.pickNext = .ok ({ source := some me, target := id }, s')) (hne : id ≠ me)
    (h : k.switchNext here = .ok k') :
    ∃ there, s'.position? id = some there ∧ k.switchNext here =
      .ok ({ ({ k with sched := s' } : Kernel ε).emit (k.switchEvent me id) with
        sched := s'.parked me here }.resume there) := by
  have hleave : Switch.isSwitch { source := some me, target := id } = true := by
    simp [Switch.isSwitch, Ne.symm hne]
  rw [switchNext, hinside, hpick] at h
  cases hthere : s'.position? id with
  | none =>
    simp only [bind, Except.bind, emit, hleave, hthere] at h
    cases h
  | some there =>
    cases hposition : s'.position? me with
    | none =>
      simp only [bind, Except.bind, Option.bind, emit, hleave, hthere, hposition] at h
      cases h
    | some _ =>
      exact ⟨there, rfl, switchNext_leave hinside hpick hne hthere (by rw [hposition]; rfl) here⟩

/-- The running thread gives the processor away: either it is picked itself and goes on, or another
one is picked and goes on where it stands. -/
theorem switchNext_cases (h : k.switchNext here = .ok k') :
    k.gate.inside = true ∧ ∃ me target s',
      k.sched.pickNext = .ok ({ source := some me, target }, s') ∧
        (target = me ∧ k' = ({ k with sched := s' } : Kernel ε).resume here ∨
          target ≠ me ∧ ∃ there, s'.position? target = some there ∧
            k' = { ({ k with sched := s' } : Kernel ε).emit (k.switchEvent me target) with
              sched := s'.parked me here }.resume there) := by
  cases hinside : k.gate.inside with
  | false =>
    rw [switchNext, hinside] at h
    cases h
  | true =>
    refine ⟨rfl, ?_⟩
    cases hpick : k.sched.pickNext with
    | error invariant =>
      rw [switchNext, hinside, hpick] at h
      cases h
    | ok picked =>
      obtain ⟨⟨source, target⟩, s'⟩ := picked
      cases source with
      | none =>
        -- Nobody runs who could give the processor away.
        rw [switchNext, hinside, hpick] at h
        cases hthere : s'.position? target with
        | none =>
          simp only [bind, Except.bind, emit, Switch.isSwitch, hthere] at h
          cases h
        | some there =>
          simp only [bind, Except.bind, emit, Switch.isSwitch, hthere] at h
          cases h
      | some me =>
        refine ⟨me, target, s', rfl, ?_⟩
        by_cases hne : target = me
        · subst hne
          exact .inl ⟨rfl, Except.ok.inj (h.symm.trans (switchNext_stay hinside hpick here))⟩
        · obtain ⟨there, hthere, hleave⟩ := switchNext_leave_eq_ok hinside hpick hne h
          exact .inr ⟨hne, there, hthere, Except.ok.inj (h.symm.trans hleave)⟩

/-- A thread that is picked, and goes on where it stood, stands there still; so do the others. -/
theorem resume_picked_ends {m : Kernel ε} {u : Thread (Position ε)} {there : Position ε}
    (hu : k.sched.threads.get? id = some u) (hrunning : u.state = .running)
    (hvacant : ∀ j v, j ≠ id → k.sched.threads.get? j = some v → v.state ≠ .running)
    (hparked : ∀ j, (m.sched.parked me here).threads.get? j =
      if j = id then some { u with state := .ready, position := some there }
      else k.sched.threads.get? j)
    (ht : m.sched.threads.get? me = some t) (hline : k.line = m.line)
    (hstopped : k.stopped = m.stopped) (hpools : k.pools = m.pools)
    (hentries : k.entries = m.entries) (hfixed : k.fixed = m.fixed)
    (hticks : k.sched.ticks = m.sched.ticks) (hjournal : m.Reports k []) :
    m.Ends (k.resume there) me { t with position := some here } := by
  have hstanding : ∀ j, (k.resume there).standing j =
      (m.sched.parked me here).threads.get? j := by
    intro j
    rw [hparked]
    split
    · next hj =>
      rw [hj, standing_of_running (by rw [sched_resume, hu]) hrunning, position?_resume]
    · next hj =>
      rw [standing_eq (by rw [sched_resume]; exact fun v hv => hvacant j v hj hv), sched_resume]
  refine ⟨(line_resume ..).trans hline, (stopped_resume ..).trans hstopped,
    (pools_resume ..).trans hpools, (entries_resume ..).trans hentries,
    (fixed_resume ..).trans hfixed, by rw [sched_resume, hticks],
    by rw [position?_resume]; rfl, ?_, ?_, ?_⟩
  · obtain ⟨tail, htail, hemitted⟩ := hjournal
    exact ⟨tail, htail, by rw [journal_resume, sched_resume, hemitted]⟩
  · rw [hstanding, Scheduler.get?_parked, if_pos rfl, ht, Option.map_some]
  · intro j hj
    rw [hstanding, Scheduler.get?_parked, if_neg hj]

/-- Whoever is picked goes on at the position in its record, and the others stay where they are. -/
theorem dispatched_ends {u : Thread (Position ε)} {there : Position ε} (hvacant : k.sched.Vacant)
    (hu : k.sched.threads.get? id = some u) (hready : u.state = .ready)
    (ht : k.sched.threads.get? me = some t)
    (hsame : ∀ j, j ≠ id → (k.sched.parked me here).threads.get? j = k.sched.threads.get? j)
    (hthere : (k.sched.parked me here).threads.get? id = some { u with position := some there }) :
    k.Ends (({ k with sched := k.sched.dispatched id u.priority } : Kernel ε).resume there) me
      { t with position := some here } := by
  have hdispatched := fun j => Scheduler.get?_dispatched k.sched id j u.priority
  have hid : (k.sched.dispatched id u.priority).threads.get? id =
      some { u with state := .running } := by
    rw [hdispatched, if_pos rfl, hu, Option.map_some]
  refine resume_picked_ends hid rfl ?_ ?_ ht rfl rfl rfl rfl rfl rfl (.none rfl)
  · intro j v hj hv
    rw [hdispatched, if_neg hj] at hv
    exact hvacant hv
  · intro j
    rw [hdispatched]
    split
    · next hj => rw [hj, hthere, ← hready]
    · next hj => exact hsame j hj

/-- A thread that gives the processor away stands where it will go on, whoever is picked. -/
theorem switchNext_ends (horderly : k.sched.Orderly) (hvacant : k.sched.Vacant)
    (hcurrent : k.sched.current = some me) (ht : k.sched.threads.get? me = some t)
    (h : k.switchNext here = .ok k') : k.Ends k' me { t with position := some here } := by
  obtain ⟨-, _, id, s', hpick, hgoes⟩ := switchNext_cases h
  obtain ⟨_, u, hu, hready, hswitch, rfl⟩ := horderly.pickNext_eq_ok hpick
  rw [hcurrent] at hswitch
  obtain ⟨⟨⟩, rfl⟩ := Switch.mk.inj hswitch
  have hparked := fun j => Scheduler.get?_parked k.sched me j here
  rcases hgoes with ⟨rfl, rfl⟩ | ⟨hne, there, hthere, rfl⟩
  · -- The thread that is picked is the one that gave way.
    obtain rfl : t = u := Option.some.inj (ht.symm.trans hu)
    refine dispatched_ends hvacant hu hready ht (fun j hj => ?_) ?_
    · rw [hparked, if_neg hj]
    · rw [hparked, if_pos rfl, ht, Option.map_some]
  · -- Somebody else is picked, and goes on at the position in its record.
    have hdispatched := fun j => Scheduler.get?_dispatched k.sched id j u.priority
    have hid : (k.sched.dispatched id u.priority).threads.get? id =
        some { u with state := .running } := by
      rw [hdispatched, if_pos rfl, hu, Option.map_some]
    have hposition : u.position = some there := by
      rw [Scheduler.position?, hid, Option.bind_some] at hthere
      exact hthere
    have hme : ∀ j, ((k.sched.dispatched id u.priority).parked me here).threads.get? j =
        if j = id then some { u with state := .running }
        else (k.sched.parked me here).threads.get? j := by
      intro j
      rw [Scheduler.get?_parked, hparked, hdispatched, hdispatched, if_neg (Ne.symm hne), hu]
      grind
    refine resume_picked_ends ((hme id).trans (if_pos rfl)) rfl ?_ ?_ ht rfl rfl rfl rfl rfl rfl ?_
    · intro j v hj hv
      rw [hme, if_neg hj, hparked] at hv
      split at hv
      · rw [ht, Option.map_some] at hv
        have hstate : t.state ≠ .running := hvacant ht
        exact Option.some.inj hv ▸ hstate
      · exact hvacant hv
    · intro j
      rw [hme]
      split
      · next hj =>
        rw [hj, hparked, if_neg hne, hu, ← hready, ← hposition]
      · rfl
    · exact ⟨[k.switchEvent me id], by simp [isDispatch_switchEvent], rfl⟩

/-- A thread that lets others go first is ready to go on. -/
theorem yield_ends (horderly : k.sched.Orderly) (hcurrent : k.sched.current = some me)
    (ht : k.sched.threads.get? me = some t) (hrunning : t.state = .running)
    (h : k.yield here = .ok k') :
    k.Ends k' me { t with state := .ready, position := some here } := by
  rw [yield, Scheduler.requeueCurrent_eq hcurrent ht hrunning] at h
  have hreadied := fun j => Scheduler.get?_readied k.sched me j t.priority
  have hme : (k.sched.readied me t.priority).threads.get? me = some { t with state := .ready } := by
    rw [hreadied, if_pos rfl, ht, Option.map_some]
  have hvacant : (k.sched.readied me t.priority).Vacant := by
    intro j v hv hstate
    rw [hreadied] at hv
    split at hv
    · rw [ht, Option.map_some] at hv
      rw [← Option.some.inj hv] at hstate
      cases hstate
    · next hj =>
      rw [horderly.running hv hstate, Option.some.injEq] at hcurrent
      exact hj hcurrent
  have hends := switchNext_ends (k := { k with sched := k.sched.readied me t.priority })
    (horderly.readied ht (.inr hrunning)) hvacant hcurrent hme h
  refine ⟨hends.line, hends.stopped, hends.pools, hends.entries, hends.fixed, hends.ticks,
    hends.underway, hends.journal, hends.own, ?_⟩
  intro j hj
  rw [hends.others j hj]
  show (k.sched.readied me t.priority).threads.get? j = _
  rw [hreadied, if_neg hj]

/-- A thread that gives way to a candidate, or not, goes on with its reply. -/
theorem preemptFor_ends (horderly : k.sched.Orderly) (hcurrent : k.sched.current = some me)
    (ht : k.sched.threads.get? me = some t) (hrunning : t.state = .running) {answer : Answer}
    (h : k.preemptFor id answer = .ok k') :
    ∃ there, there.arrival? = some (.returned answer) ∧
      k.Ends k' me { t with state := .ready, position := some there } := by
  rw [preemptFor] at h
  obtain ⟨outranks, -, h⟩ := bind_eq_ok h
  cases outranks with
  | false =>
    obtain rfl := Except.ok.inj h
    exact ⟨_, rfl, reply_ends (sole_of_orderly horderly hcurrent) ht hrunning answer⟩
  | true =>
    have hends := yield_ends (k := k.emit (.preempt id)) horderly hcurrent ht hrunning h
    refine ⟨_, rfl, hends.line, hends.stopped, hends.pools, hends.entries, hends.fixed,
      hends.ticks, hends.underway, ?_, hends.own, hends.others⟩
    obtain ⟨tail, htail, hjournal⟩ := hends.journal
    refine ⟨.preempt id :: tail, by simpa [Trace.Event.isDispatch] using htail, ?_⟩
    rw [hjournal, hends.ticks]
    simp [emit]

end Kernel

end CoopKernel
