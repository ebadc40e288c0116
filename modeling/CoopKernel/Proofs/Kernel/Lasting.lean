import CoopKernel.Proofs.Kernel.Returning
import CoopKernel.Proofs.Kernel.Telling

/-!
# What others cannot do to a thread

What a thread has does not depend on others as much as it may seem.

* A thread lives until it is terminated or its program ends (`Moved.lives`), and a mutex is there
  until somebody asks to delete it (`Sound.mutex_stays`).
* Nobody gets hold of a mutex who has not asked for it (`Moved.held`), and who wants nothing and
  makes no call has in its hands what it had (`Moved.hands`).
* Whoever is in its program stays there until the program makes a move (`deciding_of_passive`), and
  comes there only by arriving (`Sound.deciding_of_moved`).
-/

namespace CoopKernel

variable {ε : Type}

/-! ## Records -/

section

variable {ticking : Bool} {events : List Trace.Event} {id me : ThreadId} {x : MutexId}
  {t t' : Thread (Position ε)} {t? : Option (Thread (Position ε))} {move : Move ε}

theorem Thread.state_chime (h : t.state ≠ .dead) : t.chime.state ≠ .dead := by
  rw [chime, countedDown]
  split
  · split
    · simp
    · exact h
  · exact h

/-- A wait without a time limit is not counted down. -/
theorem Thread.countedDown_of_unlimited (h : t.countdown = .unlimited) : t.countedDown = t := by
  have hcounted : Scheduler.counted t = t := by
    cases t
    cases h
    rfl
  rw [countedDown, h]
  exact hcounted

/-- Nobody's life is ended by others without a report. -/
theorem Fate.lives (h : Fate ticking events id (some t) t?) (hlives : t.state ≠ .dead)
    (hnot : .threadTerminate id ∉ events) : ∃ t', t? = some t' ∧ t'.state ≠ .dead := by
  generalize hbefore : some t = before at h
  cases h with
  | kept _ => exact ⟨t, hbefore.symm, hlives⟩
  | chimed _ => exact ⟨t.chime, by rw [← hbefore]; rfl, Thread.state_chime hlives⟩
  | created _ _ => cases hbefore
  | deleted hdead _ =>
    obtain rfl := Option.some.inj hbefore
    exact absurd hdead hlives
  | buried hreported => exact absurd hreported hnot
  | _ => exact ⟨_, rfl, by simp [Thread.receive]⟩

theorem Own.lives (h : Own move events me t t') (hnot : .threadTerminate me ∉ events) :
    t'.state ≠ .dead := by
  cases h with
  | died hreported _ => exact absurd hreported hnot
  | _ => simp

/-- Others do not move a thread that goes on living. -/
theorem Fate.position_of_lives (h : Fate ticking events id (some t) (some t'))
    (hlives : t.state ≠ .dead) (hlives' : t'.state ≠ .dead) : t'.position = t.position := by
  generalize hbefore : some t = before at h
  generalize hafter : some t' = after at h
  cases h with
  | kept _ => rw [Option.some.inj (hafter.trans hbefore.symm)]
  | chimed _ =>
    rw [← hbefore] at hafter
    rw [Option.some.inj hafter, Thread.position_chime]
  | created _ _ => cases hbefore
  | deleted _ _ => cases hafter
  | activated hdead _ =>
    obtain rfl := Option.some.inj hbefore
    exact absurd hdead hlives
  | buried _ =>
    obtain rfl := Option.some.inj hafter
    exact absurd rfl hlives'
  | _ =>
    obtain rfl := Option.some.inj hbefore
    obtain rfl := Option.some.inj hafter
    rfl

/-- Others do not put a mutex into the hands of a thread that does not want it. -/
theorem Fate.held (h : Fate ticking events id t? (some t')) (hmem : x ∈ t'.held) :
    ∃ t, t? = some t ∧ (x ∈ t.held ∨ t.wanted = some x) := by
  generalize hafter : some t' = after at h
  cases h with
  | kept _ => exact ⟨t', hafter.symm, .inl hmem⟩
  | chimed _ =>
    obtain ⟨t, rfl, rfl⟩ := Option.map_eq_some_iff.mp hafter.symm
    exact ⟨t, rfl, .inl (t.held_chime ▸ hmem)⟩
  | created hblank _ =>
    obtain rfl := Option.some.inj hafter
    rw [hblank.held] at hmem
    cases hmem
  | deleted _ _ => cases hafter
  | buried _ =>
    obtain rfl := Option.some.inj hafter
    cases hmem
  | @received t m hwanted _ =>
    obtain rfl := Option.some.inj hafter
    refine ⟨t, rfl, ?_⟩
    rcases (Thread.mem_held_hold t m x).mp hmem with rfl | hold
    · exact .inr hwanted
    · exact .inl hold
  | _ =>
    obtain rfl := Option.some.inj hafter
    exact ⟨_, rfl, .inl hmem⟩

/-- A thread gets hold of a mutex by asking for it. -/
theorem Own.held (h : Own move events me t t') (hmem : x ∈ t'.held) :
    x ∈ t.held ∨ move.acquires x = true := by
  cases h with
  | took hmove _ =>
    rcases (Thread.mem_held_hold t _ x).mp hmem with rfl | hold
    · exact .inr (by simp [hmove, Move.acquires])
    · exact .inl hold
  | gave _ _ => exact .inl ((Thread.mem_held_letGo t _ x).mp hmem).1
  | died _ _ => cases hmem
  | _ => exact .inl hmem

end

namespace Trace.Ledger

variable {ledger : Ledger} {events : List Event} {x : MutexId}

/-- A mutex is there until it is reported to be deleted. -/
theorem isSome_owners_replay (hnot : .mutexDelete x ∉ events)
    (hsome : (ledger.owners x).isSome = true) :
    ((ledger.replay events).owners x).isSome = true := by
  induction events generalizing ledger with
  | nil => exact hsome
  | cons event rest ih =>
    obtain ⟨hne, hrest⟩ := not_or.mp (mt List.mem_cons.mpr hnot)
    refine ih hrest ?_
    cases event with
    | mutexDelete mutex =>
      have hother : x ≠ mutex := fun heq => hne (by rw [heq])
      simpa [note, setOwner, Function.update_of_ne hother] using hsome
    | mutexCreate _ | acquire _ _ | handoff _ _ | release _ _ =>
      rw [note, setOwner]
      by_cases hx : x = ‹MutexId›
      · rw [hx]
        simp
      · simpa [Function.update_of_ne hx] using hsome
    | threadTerminate thread =>
      rw [note, clearOwner]
      show (if _ then _ else _ : Option (Option ThreadId)).isSome = true
      split
      · rfl
      · exact hsome
    | _ => exact hsome

end Trace.Ledger

namespace Kernel

variable {W W' : PoolId → Prop} {k k' : Kernel ε} {me id : ThreadId} {move : Move ε}
  {t : Thread (Position ε)} {x : MutexId} {here : Position ε} {reply : Reply}

/-- What a thread holds and wants can be seen from where it stands. -/
theorem holds_iff (hstands : k.standing id = some t) : k.Holds id x ↔ x ∈ t.held := by
  obtain ⟨u, hu, -⟩ := exists_of_standing hstands
  obtain ⟨v, hv, hheld, -⟩ := exists_standing hu
  obtain rfl := Option.some.inj (hstands.symm.trans hv)
  simp [Holds, hu, hheld]

theorem wants_iff (hstands : k.standing id = some t) : k.Wants id x ↔ t.wanted = some x := by
  obtain ⟨u, hu, -⟩ := exists_of_standing hstands
  obtain ⟨v, hv, -, hwanted, -⟩ := exists_standing hu
  obtain rfl := Option.some.inj (hstands.symm.trans hv)
  simp [Wants, hu, hwanted]

/-! ## Reports that are moved into a log -/

/-- The kernel after what it has reported was moved into a log. -/
def cleared (k : Kernel ε) : Kernel ε := { k with journal := [] }

theorem Sound.cleared (h : k.Sound W) : k.cleared.Sound W := by
  rcases h with hhalted | ⟨me, t, hruns, hrank, hposture⟩
  · exact .inl (hhalted.keep rfl rfl rfl rfl rfl hhalted.gate hhalted.activity)
  · exact .inr ⟨me, t, ⟨hruns.going, hruns.settled, hruns.current, hruns.record, hruns.running⟩,
      hrank, hposture.gate, hposture.fits, hposture.rests⟩

/-- Some run leads to the kernel, in which the reports were moved into a log now and then. -/
inductive Logged : Kernel ε → Prop
  | start {config : Config} {arena : Arena} {k : Kernel ε} (h : start config arena = .ok k) :
    Logged k
  | moves {k k' : Kernel ε} {move : Move ε} (h : Logged k) (hallowed : k.allows move = true)
    (hrun : k.perform move = .ok k') : Logged k'
  | clears {k : Kernel ε} (h : Logged k) : Logged k.cleared

theorem Logged.sound (h : k.Logged) : k.Sound fun _ => False := by
  induction h with
  | start h => exact (start_sound h).weaken False.elim
  | moves _ hallowed hrun ih => exact ih.performed hallowed hrun
  | clears _ ih => exact ih.cleared

/-! ## What others cannot do -/

/-- A thread lives on unless it is terminated or its program ends. -/
theorem Moved.lives (h : Moved move k k') (hlives : k.lives id = true)
    (hterminate : move ≠ .call (.threadTerminate id))
    (hexit : k.sched.current = some id → move ≠ .exit) : k'.lives id = true := by
  obtain ⟨t, ht, halive⟩ := lives_iff.mp hlives
  cases h.effect with
  | still hsched _ _ _ _ => exact lives_iff.mpr ⟨t, hsched ▸ ht, halive⟩
  | shutdown _ _ _ _ _ hsched _ _ _ =>
    have hsame := unplaced_foldl_forgetPosition k.sched
      (k.sched.threads.handles.filter (· != k.main)) id
    rw [← hsched, ht] at hsame
    obtain ⟨u, hu, heq⟩ := Option.map_eq_some_iff.mp hsame
    refine lives_iff.mpr ⟨u, hu, ?_⟩
    have hstate := congrArg Thread.state heq
    change u.state = t.state at hstate
    rwa [hstate]
  | @turn me _ events _ hcurrent hturn =>
    have hnot : .threadTerminate id ∉ events := by
      intro hmem
      rcases hturn.explained _ hmem with hmove | ⟨hmove, rfl⟩
      · exact hterminate hmove
      · exact hexit hcurrent hmove
    obtain ⟨t', ht', halive'⟩ : ∃ t', k'.standing id = some t' ∧ t'.state ≠ .dead := by
      by_cases hid : id = me
      · subst hid
        obtain ⟨_, t', -, ht', hown⟩ := hturn.own
        exact ⟨t', ht', hown.lives hnot⟩
      · have hfate := hturn.others id hid
        change Fate _ _ _ (k.sched.threads.get? id) _ at hfate
        rw [ht] at hfate
        exact hfate.lives halive hnot
    obtain ⟨u, hu, ⟨hrunning, -⟩ | ⟨-, rfl⟩⟩ := exists_of_standing ht'
    · exact lives_iff.mpr ⟨u, hu, by simp [hrunning]⟩
    · exact lives_iff.mpr ⟨t', hu, halive'⟩

/-- Others do not move a thread that goes on living, nor take from it what it holds, unless they
shut the kernel down. -/
theorem Moved.stands (h : Moved move k k') (hsound : k.Sound W) (hgoing : k.stopped = false)
    (hnot : k.sched.current ≠ some id) (hstands : k.standing id = some t) (halive : t.state ≠ .dead)
    (hlives' : k'.lives id = true) :
    (k'.stopped = false ∧ ∃ t', k'.standing id = some t' ∧ t'.state ≠ .dead ∧
      t'.position = t.position ∧ t.held ⊆ t'.held) ∨
    (k'.stopped = true ∧ k'.sched.current ≠ some id) := by
  rcases h.fate hsound hgoing hnot hlives' with ⟨hgoing', _, _, t', hstands', halive', hfate⟩ | hended
  · rw [← standing_eq (hsound.not_running hnot), hstands] at hfate
    exact .inl ⟨hgoing', t', hstands', halive', hfate.position_of_lives halive halive',
      fun _ => hfate.mem_held halive halive'⟩
  · exact .inr hended

/-- Nobody gets hold of a mutex who has not asked for it. -/
theorem Moved.held (h : Moved move k k') (hholds : k'.Holds id x) :
    k.Holds id x ∨ k.Wants id x ∨ k.sched.current = some id ∧ move.acquires x = true := by
  obtain ⟨t', ht', hmem⟩ := hholds
  cases h.effect with
  | still hsched _ _ _ _ => exact .inl ⟨t', hsched ▸ ht', hmem⟩
  | shutdown _ _ _ _ _ hsched _ _ _ =>
    obtain ⟨u, hu, hsame⟩ := exists_of_forgotten hsched ht'
    have hheld := congrArg Thread.held hsame
    change u.held = t'.held at hheld
    exact .inl ⟨u, hu, by rwa [hheld]⟩
  | @turn me _ _ _ hcurrent hturn =>
    obtain ⟨u, hu, hheld, -, -⟩ := exists_standing ht'
    rw [← hheld] at hmem
    by_cases hid : id = me
    · subst hid
      obtain ⟨v, v', hv, hv', hown⟩ := hturn.own
      obtain rfl := Option.some.inj (hu.symm.trans hv')
      exact (hown.held hmem).imp (fun hold => ⟨v, hv, hold⟩) fun hmove => .inr ⟨hcurrent, hmove⟩
    · obtain ⟨v, hv, hold | hwanted⟩ := (hu ▸ hturn.others id hid).held hmem
      · exact .inl ⟨v, hv, hold⟩
      · exact .inr (.inl ⟨v, hv, hwanted⟩)

/-- Whoever has the processor is alive. -/
theorem Sound.lives_of_current (h : k.Sound W) (hcurrent : k.sched.current = some id) :
    k.lives id = true := by
  obtain ⟨me, t, hbusy, ht, hrunning, -⟩ := h.upright.busy
  obtain rfl := Option.some.inj (hcurrent.symm.trans hbusy)
  exact lives_iff.mpr ⟨t, ht, by simp [hrunning]⟩

/-- A mutex is there until somebody asks to delete it. -/
theorem Sound.mutex_stays (h : k.Sound W) (hallowed : k.allows move = true)
    (hrun : k.perform move = .ok k') (hmove : move ≠ .call (.mutexDelete x))
    (hsome : (k.sched.mutexes.get? x).isSome = true) :
    (k'.sched.mutexes.get? x).isSome = true := by
  obtain ⟨events, haccounts⟩ := h.accounts hallowed hrun
  have hnot : .mutexDelete x ∉ events := by
    intro hmem
    have hreported := haccounts.reported
    have hquiet : k'.journal ≠ k.journal := by
      intro hjournal
      rw [reported, hjournal, reported] at hreported
      rw [List.append_right_eq_self.mp hreported.symm] at hmem
      cases hmem
    cases (h.moved hallowed hrun).effect with
    | still _ _ _ hjournal _ => exact hquiet hjournal
    | shutdown _ _ _ _ hjournal _ _ _ _ => exact hquiet hjournal
    | @turn _ _ turned _ _ hturn =>
      obtain ⟨tail, htail, hjournal⟩ := hturn.journal
      have hevents : events = turned ++ tail := by
        rw [reported, hjournal, reported, List.map_append, List.map_map] at hreported
        simpa [Function.comp_def] using (List.append_cancel_left hreported).symm
      rw [hevents] at hmem
      rcases List.mem_append.mp hmem with hmem | hmem
      · exact hmove (hturn.explained _ hmem)
      · cases htail _ hmem
  have hbefore : (k.ledger.owners x).isSome = true := by
    simpa [ledger, Scheduler.owners] using hsome
  have howners := Trace.Ledger.isSome_owners_replay hnot hbefore
  rw [← haccounts.ledger] at howners
  simpa [ledger, Scheduler.owners] using howners

/-- Only a call to shut the kernel down stops it. -/
theorem Moved.going_on (h : Moved move k k') (hgoing : k.stopped = false)
    (hmove : move ≠ .call .shutdown) : k'.stopped = false := by
  cases hstopped : k'.stopped with
  | false => rfl
  | true => exact absurd (h.shutdown hgoing hstopped).1 hmove

/-- Whether the running thread is on its way to the beginning of its program. -/
def starts (k : Kernel ε) : Bool :=
  match k.activity with
  | .arriving (.started _) => true
  | .delivering (.start _) => true
  | _ => false

/-- Nobody begins its program after a shutdown. -/
theorem Moved.starts (h : Moved move k k') (hover : k.stopped = true → k.starts = false)
    (hstopped : k'.stopped = true) : k'.starts = false := by
  cases h.effect with
  | still _ _ hsame _ hdrift =>
    have hnot := hover (hsame.symm.trans hstopped)
    rw [Kernel.starts] at hnot ⊢
    generalize k'.activity = activity at hdrift ⊢
    cases hdrift with
    | stays => exact hnot
    | @reaches destination hactivity _ =>
      rw [hactivity] at hnot
      cases destination <;> first | rfl | cases hnot
    | _ => rfl
  | turn hgoing _ hturn => simp [hturn.stopped.trans hgoing] at hstopped
  | shutdown _ _ _ _ _ _ _ hactivity _ _ => rw [Kernel.starts, hactivity]

/-! ## Who decides -/

/-- Whether a thread is in its program, about to decide what to do next. -/
def deciding (k : Kernel ε) (id : ThreadId) : Bool :=
  k.inProgram && k.sched.current == some id

theorem deciding_iff : k.deciding id = true ↔ k.activity = .program ∧ k.sched.current = some id := by
  rw [deciding, Bool.and_eq_true, inProgram_iff, beq_iff_eq]

/-- Whoever is in its program was there before, or has just arrived. -/
theorem Sound.deciding_of_moved (h : k.Sound W) (hallowed : k.allows move = true)
    (hrun : k.perform move = .ok k') (hdeciding : k'.deciding id = true) :
    k.deciding id = true ∨
      move = .advance ∧ k.sched.current = some id ∧ ∃ arrival, k.activity = .arriving arrival := by
  obtain ⟨hprogram, hcurrent⟩ := deciding_iff.mp hdeciding
  cases (h.moved hallowed hrun).effect with
  | still hsched _ _ _ hdrift =>
    rw [hsched] at hcurrent
    rw [hprogram] at hdrift
    generalize hafter : Activity.program = after at hdrift
    cases hdrift with
    | stays => exact .inl (deciding_iff.mpr ⟨hafter.symm, hcurrent⟩)
    | begins hactivity =>
      refine .inr ⟨?_, hcurrent, _, hactivity⟩
      cases move with
      | call _ => exact absurd hallowed (by simp [allows, inProgram, hactivity])
      | exit => exact absurd hallowed (by simp [allows, inProgram, hactivity])
      | raise _ =>
        obtain rfl := Except.ok.inj hrun
        cases hactivity.symm.trans hprogram
      | advance => rfl
      | bypass =>
        obtain ⟨_, hanswering, -⟩ := eq_of_bypass hallowed hrun
        cases hactivity.symm.trans hanswering
    | @reaches destination _ _ => cases destination <;> cases hafter
    | _ => cases hafter
  | shutdown _ _ _ _ _ _ _ hactivity _ _ => cases hactivity.symm.trans hprogram
  | turn _ _ hturn =>
    have hunderway := hturn.underway
    rw [hprogram] at hunderway
    cases hunderway

theorem not_deciding_of_away (hnot : k.sched.current ≠ some id) : k.deciding id = false := by
  rw [← Bool.not_eq_true]
  exact fun hdeciding => hnot (deciding_iff.mp hdeciding).2

/-- Nobody else comes to its program in a move. -/
theorem Sound.not_deciding_of_moved (h : k.Sound W) (hallowed : k.allows move = true)
    (hrun : k.perform move = .ok k') (hnot : k.sched.current ≠ some id) :
    k'.deciding id = false := by
  rw [← Bool.not_eq_true]
  intro hdeciding
  rcases h.deciding_of_moved hallowed hrun hdeciding with hbefore | ⟨-, hcurrent, -⟩
  · exact hnot (deciding_iff.mp hbefore).2
  · exact hnot hcurrent

/-- Whoever decides goes on deciding until its program makes a move. -/
theorem deciding_of_passive (hdeciding : k.deciding id = true) (hmove : move.ofProgram = false)
    (hrun : k.perform move = .ok k') : k'.deciding id = true ∧ k'.sched = k.sched ∧
      k'.stopped = k.stopped := by
  cases move with
  | call _ => cases hmove
  | exit => cases hmove
  | raise _ =>
    obtain rfl := Except.ok.inj hrun
    exact ⟨hdeciding, rfl, rfl⟩
  | advance =>
    change k.advance = _ at hrun
    rw [Kernel.advance, (deciding_iff.mp hdeciding).1] at hrun
    obtain rfl := Except.ok.inj hrun
    exact ⟨hdeciding, rfl, rfl⟩
  | bypass =>
    rw [perform, answering, (deciding_iff.mp hdeciding).1] at hrun
    obtain rfl := Except.ok.inj hrun
    exact ⟨hdeciding, rfl, rfl⟩

/-- Whoever arrives at its program is there after the next step. -/
theorem deciding_of_arriving (hcurrent : k.sched.current = some id) {arrival : Arrival ε}
    (hactivity : k.activity = .arriving arrival) (hrun : k.advance = .ok k') :
    k'.deciding id = true ∧ k'.sched = k.sched ∧ k'.stopped = k.stopped := by
  rw [Kernel.advance, hactivity] at hrun
  obtain rfl := Except.ok.inj hrun
  exact ⟨deciding_iff.mpr ⟨rfl, hcurrent⟩, rfl, rfl⟩

/-- A call is made, and a program ended, by whoever decides. -/
theorem deciding_of_allows (hallowed : k.allows move = true) (hmove : move.ofProgram = true)
    (hcurrent : k.sched.current = some id) : k.deciding id = true := by
  have hprogram : k.inProgram = true := by
    cases move with
    | call _ => exact hallowed
    | exit => exact (Bool.and_eq_true _ _ |>.mp hallowed).1
    | _ => cases hmove
  exact deciding_iff.mpr ⟨inProgram_iff.mp hprogram, hcurrent⟩

/-- Whoever decides can make any call. -/
theorem Sound.moved_call (h : k.Sound W) (hdeciding : k.deciding id = true) {request : Call ε}
    (hrun : k.call request = .ok k') : Moved (.call request) k k' :=
  h.moved (inProgram_iff.mpr (deciding_iff.mp hdeciding).1) hrun

/-- A thread that wants nothing and makes no call has in its hands what it had. -/
theorem Moved.hands (h : Moved move k k') (hlives : k.lives id = true)
    (hlives' : k'.lives id = true) (hwants : ¬ k.Wants id x)
    (hpassive : k.sched.current = some id → move.ofProgram = false) :
    k'.Holds id x ↔ k.Holds id x := by
  have hreleases : k.sched.current = some id → move.releases x = false := fun hcurrent => by
    cases move with
    | call _ => cases hpassive hcurrent
    | _ => rfl
  refine ⟨fun hholds => ?_, h.holds hlives hlives' hreleases⟩
  rcases h.held hholds with hholds | hwanted | ⟨hcurrent, hacquires⟩
  · exact hholds
  · exact absurd hwanted hwants
  · cases move with
    | call _ => cases hpassive hcurrent
    | _ => cases hacquires

/-! ## Wanting a mutex -/

/-- A thread that wants nothing and makes no call goes on wanting nothing. -/
theorem Moved.not_wants (h : Moved move k k') (hwants : ∀ x, ¬ k.Wants id x)
    (hpassive : k.sched.current = some id → move.ofProgram = false) (x : MutexId) :
    ¬ k'.Wants id x := by
  intro hwanted
  rcases h.wants hwanted with hwanted | ⟨hcurrent, hacquires⟩
  · exact hwants x hwanted
  · cases move with
    | call _ => cases hpassive hcurrent
    | _ => cases hacquires

/-- Whoever wants a mutex does not hold it. -/
theorem Sound.not_holds_of_wants (h : k.Sound W) (hwants : k.Wants id x) : ¬ k.Holds id x := by
  intro hholds
  obtain ⟨t, ht, hwanted⟩ := hwants
  obtain ⟨mutex, owner, hmutex, howner, hne⟩ := h.upright.orderly.owned.wanted_owned ht hwanted
  obtain ⟨other, hother, hmine⟩ := h.owns_iff.mpr hholds
  obtain rfl := Option.some.inj (hmutex.symm.trans hother)
  exact hne (Option.some.inj (howner.symm.trans hmine))

theorem Wants.unique {y : MutexId} (h : k.Wants id x) (hother : k.Wants id y) : x = y := by
  obtain ⟨t, ht, hx⟩ := h
  obtain ⟨u, hu, hy⟩ := hother
  obtain rfl := Option.some.inj (ht.symm.trans hu)
  exact Option.some.inj (hx.symm.trans hy)

theorem Owns.unique {other : ThreadId} (h : k.Owns id x) (hother : k.Owns other x) :
    id = other := by
  obtain ⟨mutex, hmutex, howner⟩ := h
  obtain ⟨mutex', hmutex', howner'⟩ := hother
  obtain rfl := Option.some.inj (hmutex.symm.trans hmutex')
  exact Option.some.inj (howner.symm.trans howner')

/-- Whoever wants a mutex does not run. -/
theorem Sound.not_current_of_wants (h : k.Sound W) (hwants : k.Wants id x) :
    k.sched.current ≠ some id := by
  obtain ⟨t, ht, hwanted⟩ := hwants
  intro hcurrent
  have hwaiting := ((h.upright.orderly.tidy ht).waiting_of_wanted hwanted).1
  rw [h.running hcurrent ht] at hwaiting
  cases hwaiting

end Kernel

end CoopKernel
