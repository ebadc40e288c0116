import CoopKernel.Proofs.Kernel.Entries
import CoopKernel.Proofs.Kernel.Lasting

/-!
# How lives end, and begin anew

A program can end its thread's life in two ways: it comes to its end, or it terminates its own
thread. The kernel does the same in both (`Kernel.EndsAlike`), although it comes to it on two
paths, which report in different orders, and of which only the second notes where the thread has
got to.

Afterwards the thread is over (`Kernel.Over`). Another thread goes on where it stood, and nothing
that happens gives the processor to the dead (`Moved.lifeless`), until somebody activates it. Then
it begins its program anew, with nothing left of its earlier life (`Kernel.Begins`).
-/

namespace CoopKernel

variable {ε : Type}

/-- A thread holds nothing, wants nothing, waits for nothing and is not counted down. -/
structure Thread.Bare {κ : Type} (t : Thread κ) : Prop where
  held : t.held = []
  wanted : t.wanted = none
  waitingFor : t.waitingFor = none
  countdown : t.countdown = .none

theorem Thread.Tidy.bare {κ : Type} {t : Thread κ} (h : t.Tidy) (hstate : t.state ≠ .waiting)
    (hheld : t.held = []) : t.Bare :=
  ⟨hheld, h.wanted_eq_none hstate, h.waitingFor_eq_none hstate,
    h.countdown (h.waitingFor_eq_none hstate)⟩

/-- The others bring nobody back to life, except by activating it. -/
theorem Fate.dead {ticking : Bool} {events : List Trace.Event} {id : ThreadId}
    {t? : Option (Thread (Position ε))} {t' : Thread (Position ε)}
    (h : Fate ticking events id t? (some t'))
    (hdead : ∀ t, t? = some t → t.Tidy ∧ t.state = .dead) (hnot : .threadActivate id ∉ events) :
    t'.state = .dead := by
  generalize hafter : some t' = after at h
  cases h with
  | kept _ => exact (hdead t' hafter.symm).2
  | chimed _ =>
    obtain ⟨t, rfl, rfl⟩ := Option.map_eq_some_iff.mp hafter.symm
    obtain ⟨htidy, hstate⟩ := hdead t rfl
    have hidle := htidy.waitingFor_eq_none (by simp [hstate])
    rw [Thread.chime_of_untimed (by simp [hidle])]
    exact hstate
  | created hblank _ =>
    obtain rfl := Option.some.inj hafter
    exact hblank.dead
  | deleted _ _ => cases hafter
  | activated _ _ hreported => exact absurd hreported hnot
  | buried _ =>
    obtain rfl := Option.some.inj hafter
    rfl
  | @served t hreason | @informed t hreason =>
    -- The dead wait for nothing.
    obtain ⟨htidy, hstate⟩ := hdead t rfl
    simp [htidy.waitingFor_eq_none (by simp [hstate])] at hreason
  | @received t _ hwanted _ =>
    obtain ⟨htidy, hstate⟩ := hdead t rfl
    simp [htidy.wanted_eq_none (by simp [hstate])] at hwanted

/-- The others stay where they stand when a thread's life is ended. -/
theorem Scheduler.Inherited.position {κ : Type} {s s' : Scheduler κ} {id j : ThreadId}
    {handoffs : List (MutexId × ThreadId)} (h : s.Inherited s' id handoffs) (hj : j ≠ id)
    {u : Thread κ} (hu : s'.threads.get? j = some u) :
    ∃ v, s.threads.get? j = some v ∧ u.position = v.position := by
  by_cases hin : ∃ x, (x, j) ∈ handoffs
  · obtain ⟨x, hin⟩ := hin
    obtain ⟨-, v, hv, -, hreceived⟩ := h.heir hin
    obtain rfl := Option.some.inj (hreceived.symm.trans hu)
    exact ⟨v, hv, rfl⟩
  · exact ⟨u, (h.same hj (not_exists.mp hin)).symm.trans hu, rfl⟩

namespace Kernel

variable {W W' : PoolId → Prop} {k k' k₁ k₂ m : Kernel ε} {me id : ThreadId}
  {t u : Thread (Position ε)} {move : Move ε} {moves : List (Move ε)} {program : ε}

/-! ## At rest -/

/-- A thread does not have the processor, and if it is still registered it is dead, with nothing
left of its life. -/
structure AtRest (k : Kernel ε) (id : ThreadId) : Prop where
  away : k.sched.current ≠ some id
  record : ∀ {t}, k.sched.threads.get? id = some t → t.state = .dead ∧ t.Bare

/-- The rule that nobody activates a thread. -/
def unrevived (id : ThreadId) (_ : Kernel ε) : Move ε → Bool
  | .call (.threadActivate other) => other != id
  | _ => true

theorem lives_eq_false : k.lives id = false ↔
    ∀ t, k.sched.threads.get? id = some t → t.state = .dead := by
  rw [← Bool.not_eq_true, lives_iff]
  simp

theorem Sound.atRest (h : k.Sound W) (hover : k.lives id = false) : k.AtRest id := by
  refine ⟨fun hcurrent => ?_, fun {t} ht => ?_⟩
  · simp [h.lives_of_current hcurrent] at hover
  · have hdead := lives_eq_false.mp hover t ht
    have htidy := h.upright.orderly.tidy ht
    exact ⟨hdead, htidy.bare (by simp [hdead]) (h.upright.emptyHanded ht hdead)⟩

/-- A move brings nobody to life but the thread that it activates. -/
theorem Moved.lifeless (h : Moved move k k') (hsound : k.Sound W) (hover : k.lives id = false)
    (hmove : move ≠ .call (.threadActivate id)) : k'.lives id = false := by
  have hdead := lives_eq_false.mp hover
  refine lives_eq_false.mpr fun t' ht' => ?_
  cases h.effect with
  | still hsched _ _ _ _ _ _ => exact hdead t' (hsched ▸ ht')
  | shutdown _ _ _ _ _ hsched _ _ _ _ _ =>
    obtain ⟨u, hu, hsame⟩ := exists_of_forgotten hsched ht'
    have hstate := congrArg Thread.state hsame
    change u.state = t'.state at hstate
    exact hstate.symm.trans (hdead u hu)
  | @turn me _ events _ hcurrent hturn =>
    have hid : id ≠ me := by
      rintro rfl
      simp [hsound.lives_of_current hcurrent] at hover
    obtain ⟨u, hu, -, -, hstate⟩ := exists_standing ht'
    have hfate := hturn.others id hid
    rw [hu] at hfate
    refine hstate.mp (hfate.dead (fun t ht => ?_) fun hmem => hmove (hturn.explained _ hmem))
    exact ⟨hsound.upright.orderly.tidy ht, hdead t ht⟩

theorem Sound.lifeless (h : k.Sound W) (hplay : k.play moves = some k')
    (hrule : k.follows (unrevived id) moves = true) (hover : k.lives id = false) :
    k'.lives id = false := by
  refine h.play_induction (P := fun moves next => k.follows (unrevived id) moves = true →
    next.lives id = false) hplay (fun _ => hover) ?_ hrule
  intro before move last next hbefore hlast hallowed hperform _ ih hrule
  obtain ⟨hrule, hmove⟩ := (follows_concat hbefore hperform).mp hrule
  refine (hlast.moved hallowed hperform).lifeless hlast (ih hrule) ?_
  rintro rfl
  simp [unrevived] at hmove

/-! ## A new beginning -/

/-- A thread comes to the beginning of its program, with nothing in its hands. -/
structure Enters (k : Kernel ε) (id : ThreadId) (program : ε) : Prop where
  current : k.sched.current = some id
  activity : k.activity = .arriving (.started program)
  bare : ∃ t, k.sched.threads.get? id = some t ∧ t.Bare

/-- A thread is about to begin its program, with nothing in its hands. When the program makes its
first move, it has come to its beginning before. -/
structure Begins (k : Kernel ε) (id : ThreadId) (program : ε) : Prop where
  stands : ∃ t, k.standing id = some t ∧ t.state = .ready ∧
    t.position = some (.delivering (.start program)) ∧ t.Bare
  first : ∀ {moves k'}, k.play moves = some k' → k.follows (quiet id) moves = true →
    k'.deciding id = true → ∃ before after m, moves = before ++ after ∧
      k.play before = some m ∧ m.Enters id program

/-- A thread with nothing in its hands has nothing in its hands until its program makes a move. -/
theorem Sound.empty_hands (h : k.Sound W) (hplay : k.play moves = some k')
    (hquiet : k.follows (quiet id) moves = true) (hnone : ∀ x, ¬ k.Holds id x ∧ ¬ k.Wants id x)
    (x : MutexId) : ¬ k'.Holds id x ∧ ¬ k'.Wants id x := by
  refine h.play_induction (P := fun moves next => k.follows (quiet id) moves = true →
    ∀ x, ¬ next.Holds id x ∧ ¬ next.Wants id x) hplay (fun _ => hnone) ?_ hquiet x
  intro before move last next hbefore hlast hallowed hperform _ ih hquiet x
  obtain ⟨hquiet, hrule⟩ := (follows_concat hbefore hperform).mp hquiet
  obtain ⟨hpassive, -⟩ := (quiet_iff hperform).mp hrule
  have hmoved := hlast.moved hallowed hperform
  have hnone := ih hquiet
  refine ⟨fun hholds => ?_, hmoved.not_wants (fun y => (hnone y).2) hpassive x⟩
  rcases hmoved.held hholds with hheld | hwanted | ⟨hcurrent, hacquires⟩
  · exact (hnone x).1 hheld
  · exact (hnone x).2 hwanted
  · have hpassive := hpassive hcurrent
    cases move with
    | call _ => cases hpassive
    | _ => cases hacquires

/-- Whoever runs and holds nothing has nothing in its hands. -/
theorem Sound.bare (h : k.Sound W) (hcurrent : k.sched.current = some id)
    (hnone : ∀ x, ¬ k.Holds id x) : ∃ t, k.sched.threads.get? id = some t ∧ t.Bare := by
  obtain ⟨me, t, hbusy, ht, hrunning, -⟩ := h.upright.busy
  obtain rfl := Option.some.inj (hcurrent.symm.trans hbusy)
  refine ⟨t, ht, (h.upright.orderly.tidy ht).bare (by simp [hrunning]) ?_⟩
  exact List.eq_nil_iff_forall_not_mem.mpr fun x hmem => hnone x ⟨t, ht, hmem⟩

/-- Whoever stands at the beginning of its program, and is not in it yet, begins it. -/
theorem Sound.begins (h : k.Sound W) (hgoing : k.stopped = false)
    (hnot : k.deciding id = false) (hstands : k.standing id = some t) (hready : t.state = .ready)
    (hposition : t.position = some (.delivering (.start program))) (hbare : t.Bare) :
    k.Begins id program := by
  refine ⟨⟨t, hstands, hready, hposition, hbare⟩, fun {moves k'} hplay hquiet hdeciding => ?_⟩
  have hreturning : Returning k id (.started program) :=
    .of_standing (.inl hgoing) h hstands hready hposition rfl
  have hnone : ∀ x, ¬ k.Holds id x ∧ ¬ k.Wants id x := fun x =>
    ⟨by simp [holds_iff hstands, hbare.held], by simp [wants_iff hstands, hbare.wanted]⟩
  refine h.play_induction (P := fun moves k' => k.follows (quiet id) moves = true →
    k'.deciding id = true → ∃ before after m, moves = before ++ after ∧
      k.play before = some m ∧ m.Enters id program) hplay (fun _ hdeciding => ?_) ?_ hquiet
      hdeciding
  · rw [hnot] at hdeciding
    cases hdeciding
  · intro before move last next hbefore hlast hallowed hperform _ ih hquiet hdeciding
    obtain ⟨hquiet, -⟩ := (follows_concat hbefore hperform).mp hquiet
    rcases hlast.deciding_of_moved hallowed hperform hdeciding with
      hearlier | ⟨-, hcurrent, arrival, hactivity⟩
    · obtain ⟨start, rest, m, rfl, hstart, henters⟩ := ih hquiet hearlier
      exact ⟨start, rest ++ [move], m, by rw [List.append_assoc], hstart, henters⟩
    · -- It has come to its program just now, and has been on its way to the beginning since.
      obtain rfl := (hreturning.run h hbefore hquiet).eq_of_arriving hcurrent hactivity
      refine ⟨before, [move], last, rfl, hbefore, hcurrent, hactivity, hlast.bare hcurrent ?_⟩
      exact fun x => (h.empty_hands hbefore hquiet hnone x).1

/-- A thread that is over, and has a program, begins it when it is activated. -/
theorem Sound.revives (h : k.Sound W) (hprogram : k.inProgram = true) (hgoing : k.stopped = false)
    (hu : k.sched.threads.get? id = some u) (hover : k.lives id = false)
    (hentry : k.entries.lookup id = some (.start program)) :
    ∃ k', k.call (.threadActivate id) = .ok k' ∧ k'.Begins id program := by
  obtain ⟨hdead, hbare⟩ := (h.atRest hover).record hu
  have hallowed := allows_call (.threadActivate id) hprogram
  obtain ⟨k', hcall, hsound⟩ := h.call (inProgram_iff.mp hprogram) (.threadActivate id)
  refine ⟨k', hcall, ?_⟩
  obtain ⟨me, t, hcalling⟩ := (h.calling (inProgram_iff.mp hprogram)).resolve_left fun hhalted => by
    simp [hhalted.stopped] at hgoing
  let entered : Kernel ε := { k with gate := { inside := true } }
  have hbegins := activate_eq (k := entered) hu hdead hentry
  have hrun : entered.activate id = .ok k' := by
    rw [← hcalling.inSection_eq (·.activate id)]
    exact hcall
  obtain ⟨here, -, hends⟩ :=
    hcalling.serving.activate_ends hu hdead (hbegins.symm.trans hrun)
  have hne : id ≠ me := hcalling.ne_of_not_running hu (by simp [hdead])
  have hbegun := (get?_begun hu (.start program) id).trans (if_pos rfl)
  have hstands := (hends.others id hne).trans hbegun
  refine hsound.begins (hends.stopped.trans hgoing) ?_ hstands rfl rfl
    ⟨hbare.held, hbare.wanted, hbare.waitingFor, hbare.countdown⟩
  exact h.not_deciding_of_moved hallowed hcall (h.atRest hover).away

/-! ## Two ways to come to an end -/

/-- Another thread has the processor and goes on where it stood. Until then no interrupt is
delivered. -/
structure HandsOn (k k' : Kernel ε) (me : ThreadId) : Prop where
  line : k'.line = k.line
  ticks : k'.sched.ticks = k.sched.ticks
  next : ∃ id t here, id ≠ me ∧ k'.sched.current = some id ∧ k.sched.threads.get? id = some t ∧
    t.position = some here ∧ k'.activity.position? = some here

/-- A thread's life has ended. The processor has gone to another one, and does not come back until
the thread is activated. If it is, it begins its program anew. -/
structure Over (k k' : Kernel ε) (me : ThreadId) (program : ε) : Prop where
  handsOn : k.HandsOn k' me
  rests : ∀ {moves m}, k'.play moves = some m → k'.follows (unrevived me) moves = true →
    m.AtRest me
  begins : ∀ {moves m}, k'.play moves = some m → k'.follows (unrevived me) moves = true →
    k'.follows (remains me) moves = true → m.inProgram = true → m.stopped = false →
    ∃ m', m.call (.threadActivate me) = .ok m' ∧ m'.Begins me program

theorem parted_emit (k : Kernel ε) (id : ThreadId) (s : Scheduler (Position ε))
    (events : List Trace.Event) (event : Trace.Event) :
    (k.parted id s events).emit event = k.parted id s (events ++ [event]) := by
  simp [parted, emit]

/-- When a program terminates its own thread, the thread that is picked goes on at its position, as
after the end of a program (`Runs.exit_eq_ok`). -/
theorem Serving.terminate_eq_ok (h : k.Serving W me t) (hmain : me ≠ k.main)
    {report : Termination} {s' : Scheduler (Position ε)}
    (heq : k.sched.terminate me = .ok (report, s')) (hrun : k.terminate me = .ok k') :
    ∃ next picked there, next ≠ me ∧
      s'.pickNext = .ok ({ source := some me, target := next }, picked) ∧
      picked.position? next = some there ∧
      k' = ({ k.parted me s' (.threadTerminate me :: handoffEvents report.handoffs ++
        [k.switchEvent me next]) with
          sched := picked.parked me (.inside (.reply (.ok .done))) } : Kernel ε).resume there := by
  have halive : t.state ≠ .dead := by simp [h.running]
  obtain ⟨_, _, hsame, horderly, -, hburied, hinherited, hprevious, -⟩ :=
    h.settled.sched.terminate h.settled.emptyHanded h.record halive h.current h.record
  obtain ⟨rfl, rfl⟩ := Prod.mk.inj (Except.ok.inj (heq.symm.trans hsame))
  have hsystem : k.isSystemThread me = false := by simp [isSystemThread, hmain, h.program]
  let ended := k.parted me s' (.threadTerminate me :: handoffEvents report.handoffs)
  have hswitch : ended.switchNext (.inside (.reply (.ok .done))) = .ok k' := by
    rw [← hrun, Kernel.terminate, hsystem, heq]
    show _ = if report.previous = .running then _ else _
    rw [if_pos (hprevious.trans h.running), parted_terminate]
  obtain ⟨-, _, next, picked, hpick, hgoes⟩ := switchNext_cases hswitch
  obtain ⟨_, u, hu, hready, hpicks, rfl⟩ := horderly.pickNext_eq_ok hpick
  rw [hinherited.current.trans h.current] at hpicks
  obtain ⟨⟨⟩, rfl⟩ := Switch.mk.inj hpicks
  have hne : next ≠ me := by
    rintro rfl
    obtain rfl := Option.some.inj (hburied.symm.trans hu)
    cases hready
  obtain ⟨-, there, hthere, rfl⟩ := hgoes.resolve_left fun hstays => hne hstays.1
  refine ⟨next, _, there, hne, hpick, hthere, ?_⟩
  show Kernel.resume { ended.emit (k.switchEvent me next) with sched := _ } there = _
  rw [parted_emit]

/-- A thread whose life has ended is over. -/
theorem Reachable.over (h : k'.Reachable) (hhands : k.HandsOn k' id)
    (hu : k'.sched.threads.get? id = some u) (hdead : u.state = .dead)
    (hentry : k'.entries.lookup id = some (.start program)) : k.Over k' id program := by
  have hover : k'.lives id = false := lives_eq_false.mpr fun v hv => by
    rwa [← Option.some.inj (hu.symm.trans hv)]
  refine ⟨hhands, fun hplay hrule => ?_, fun hplay hrule hstays hprogram hgoing => ?_⟩
  · exact (h.play hplay).sound.atRest (h.sound.lifeless hplay hrule hover)
  · obtain ⟨hentry, hsome⟩ := h.entry_kept hplay hstays hentry (by simp [hu])
    obtain ⟨v, hv⟩ := Option.isSome_iff_exists.mp hsome
    have hrests := h.sound.lifeless hplay hrule hover
    exact (h.play hplay).sound.revives hprogram hgoing hv hrests hentry

end Kernel

end CoopKernel
