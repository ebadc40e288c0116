import CoopKernel.Proofs.Kernel.MemoryQueue

/-!
# What a thread holds and wants along a run

Two things about a thread and a mutex only change by the thread's own doing, whatever else happens.

* A thread that holds a mutex holds it until it releases the mutex or its life ends
  (`Sound.owns`).
* A thread that does not want a mutex does not come to want it unless it asks for it, and as long as
  it does not want it, nobody passes the mutex to it (`Sound.unwanted`).

Both are said by a rule for the moves of a run (`Kernel.follows`), and proved by a look at what one
move does (`Kernel.Moved`).
-/

namespace CoopKernel

variable {ε : Type}

/-- Whether a move releases a mutex. -/
def Move.releases (move : Move ε) (x : MutexId) : Bool :=
  match move with
  | .call (.mutexRelease y) => y == x
  | _ => false

/-- Whether a move asks for a mutex. -/
def Move.acquires (move : Move ε) (x : MutexId) : Bool :=
  match move with
  | .call (.mutexAcquire y _) => y == x
  | _ => false

/-! ## Records -/

section

variable {ticking : Bool} {events : List Trace.Event} {id me : ThreadId} {x : MutexId}
  {t t' : Thread (Position ε)} {t? : Option (Thread (Position ε))} {move : Move ε}

theorem Thread.position_chime (t : Thread (Position ε)) : t.chime.position = t.position := by
  rw [chime, countedDown]
  split
  · split <;> rfl
  · rfl

theorem Thread.held_chime (t : Thread (Position ε)) : t.chime.held = t.held := by
  rw [chime, countedDown]
  split
  · split <;> rfl
  · rfl

theorem Thread.wanted_chime (h : t.chime.wanted = some x) : t.wanted = some x := by
  rw [chime, countedDown] at h
  split at h
  · split at h
    · cases h
    · exact h
  · exact h

/-- Others do not take a mutex from a thread that goes on living. -/
theorem Fate.mem_held (h : Fate ticking events id (some t) (some t')) (hlives : t.state ≠ .dead)
    (hlives' : t'.state ≠ .dead) (hmem : x ∈ t.held) : x ∈ t'.held := by
  generalize hbefore : some t = before at h
  generalize hafter : some t' = after at h
  cases h with
  | kept _ =>
    obtain rfl := Option.some.inj (hbefore.trans hafter.symm)
    exact hmem
  | chimed _ =>
    rw [← hbefore] at hafter
    obtain rfl := Option.some.inj hafter
    rw [Thread.held_chime]
    exact hmem
  | created _ => cases hbefore
  | deleted _ _ => cases hafter
  | activated hdead _ =>
    obtain rfl := Option.some.inj hbefore
    exact absurd hdead hlives
  | buried _ =>
    obtain rfl := Option.some.inj hafter
    exact absurd rfl hlives'
  | served _ =>
    obtain rfl := Option.some.inj hbefore
    obtain rfl := Option.some.inj hafter
    exact hmem
  | informed _ _ =>
    obtain rfl := Option.some.inj hbefore
    obtain rfl := Option.some.inj hafter
    exact hmem
  | @received u m _ _ =>
    obtain rfl := Option.some.inj hbefore
    obtain rfl := Option.some.inj hafter
    exact (Thread.mem_held_hold t m x).mpr (.inr hmem)

/-- A thread keeps what it does not release itself. -/
theorem Own.mem_held (h : Own move events me t t') (hlives' : t'.state ≠ .dead)
    (hmove : move.releases x = false) (hmem : x ∈ t.held) : x ∈ t'.held := by
  cases h with
  | took _ _ => exact (Thread.mem_held_hold t _ x).mpr (.inr hmem)
  | gave hrelease _ =>
    refine (Thread.mem_held_letGo t _ x).mpr ⟨hmem, ?_⟩
    rintro rfl
    rw [hrelease] at hmove
    simp [Move.releases] at hmove
  | died _ _ => exact absurd rfl hlives'
  | _ => exact hmem

/-- Others do not make a thread want a mutex. -/
theorem Fate.wanted (h : Fate ticking events id t? (some t')) (hwanted : t'.wanted = some x) :
    ∃ t, t? = some t ∧ t.wanted = some x := by
  generalize hafter : some t' = after at h
  cases h with
  | kept _ => exact ⟨t', hafter.symm, hwanted⟩
  | chimed _ =>
    obtain ⟨t, rfl, rfl⟩ := Option.map_eq_some_iff.mp hafter.symm
    exact ⟨t, rfl, t.wanted_chime hwanted⟩
  | created hblank =>
    obtain rfl := Option.some.inj hafter
    rw [hblank.tidy.wanted_eq_none (by simp [hblank.dead])] at hwanted
    cases hwanted
  | deleted _ _ => cases hafter
  | @activated t _ _ =>
    obtain rfl := Option.some.inj hafter
    exact ⟨t, rfl, hwanted⟩
  | @served t _ =>
    obtain rfl := Option.some.inj hafter
    exact ⟨t, rfl, hwanted⟩
  | @informed t _ _ _ =>
    obtain rfl := Option.some.inj hafter
    exact ⟨t, rfl, hwanted⟩
  | _ =>
    obtain rfl := Option.some.inj hafter
    cases hwanted

/-- A thread wants a mutex when it asks for it. -/
theorem Own.wanted (h : Own move events me t t') (hwanted : t'.wanted = some x) :
    t.wanted = some x ∨ move.acquires x = true := by
  cases h with
  | queued hmove _ =>
    obtain rfl := Option.some.inj hwanted
    exact .inr (by simp [hmove, Move.acquires])
  | died _ _ => cases hwanted
  | _ => exact .inl hwanted

end

namespace Kernel

variable {W W' : PoolId → Prop} {k k' k₁ : Kernel ε} {move : Move ε} {moves : List (Move ε)}
  {id : ThreadId} {x : MutexId} {t : Thread (Position ε)}

/-! ## One move -/

/-- Whether a thread is alive. -/
def lives (k : Kernel ε) (id : ThreadId) : Bool :=
  (k.sched.threads.get? id).any fun t => !t.isDead

/-- A thread holds a mutex. -/
def Holds (k : Kernel ε) (id : ThreadId) (x : MutexId) : Prop :=
  ∃ t, k.sched.threads.get? id = some t ∧ x ∈ t.held

/-- A thread wants a mutex. -/
def Wants (k : Kernel ε) (id : ThreadId) (x : MutexId) : Prop :=
  ∃ t, k.sched.threads.get? id = some t ∧ t.wanted = some x

theorem lives_iff :
    k.lives id = true ↔ ∃ t, k.sched.threads.get? id = some t ∧ t.state ≠ .dead := by
  rw [lives, Option.any_eq_true]
  simp [Thread.isDead]

/-- What a thread holds, what it wants and whether it lives can be seen from where it stands. -/
theorem exists_standing (ht : k.sched.threads.get? id = some t) :
    ∃ u, k.standing id = some u ∧ u.held = t.held ∧ u.wanted = t.wanted ∧
      (u.state = .dead ↔ t.state = .dead) := by
  by_cases hrunning : t.state = .running
  · exact ⟨_, standing_of_running ht hrunning, rfl, rfl, by simp [hrunning]⟩
  · refine ⟨t, ?_, rfl, rfl, .rfl⟩
    rw [standing_eq, ht]
    intro v hv
    rwa [← Option.some.inj (ht.symm.trans hv)]

/-- The records of a kernel that was shut down are the old ones without positions. -/
theorem exists_of_forgotten {ids : List ThreadId}
    (hsched : k'.sched = ids.foldl Scheduler.forgetPosition k.sched)
    (ht : k'.sched.threads.get? id = some t) :
    ∃ u, k.sched.threads.get? id = some u ∧ u.unplaced = t.unplaced := by
  have hsame := unplaced_foldl_forgetPosition k.sched ids id
  rw [← hsched, ht] at hsame
  exact Option.map_eq_some_iff.mp hsame.symm

theorem Moved.holds (h : Moved move k k') (hlives : k.lives id = true)
    (hlives' : k'.lives id = true)
    (hkeeps : k.sched.current = some id → move.releases x = false) (hholds : k.Holds id x) :
    k'.Holds id x := by
  obtain ⟨t, ht, hmem⟩ := hholds
  obtain ⟨t', ht', halive'⟩ := lives_iff.mp hlives'
  have halive : t.state ≠ .dead := by
    obtain ⟨u, hu, halive⟩ := lives_iff.mp hlives
    obtain rfl := Option.some.inj (ht.symm.trans hu)
    exact halive
  refine ⟨t', ht', ?_⟩
  cases h.effect with
  | still hsched _ _ _ _ =>
    rw [hsched, ht] at ht'
    exact Option.some.inj ht' ▸ hmem
  | shutdown _ _ _ _ _ hsched _ _ _ =>
    obtain ⟨u, hu, hsame⟩ := exists_of_forgotten hsched ht'
    obtain rfl := Option.some.inj (ht.symm.trans hu)
    have hheld := congrArg Thread.held hsame
    change t.held = t'.held at hheld
    rw [← hheld]
    exact hmem
  | @turn me _ _ _ hcurrent hturn =>
    obtain ⟨u, hu, hheld, -, hdead⟩ := exists_standing ht'
    have hstands : u.state ≠ .dead := fun h => halive' (hdead.mp h)
    rw [← hheld]
    by_cases hid : id = me
    · subst hid
      obtain ⟨v, v', hv, hv', hown⟩ := hturn.own
      obtain rfl := Option.some.inj (ht.symm.trans hv)
      obtain rfl := Option.some.inj (hu.symm.trans hv')
      exact hown.mem_held hstands (hkeeps hcurrent) hmem
    · have hfate := hturn.others id hid
      rw [hu] at hfate
      change Fate _ _ _ (k.sched.threads.get? id) _ at hfate
      rw [ht] at hfate
      exact hfate.mem_held halive hstands hmem

theorem Moved.wants (h : Moved move k k') (hwants : k'.Wants id x) :
    k.Wants id x ∨ k.sched.current = some id ∧ move.acquires x = true := by
  obtain ⟨t', ht', hwanted⟩ := hwants
  cases h.effect with
  | still hsched _ _ _ _ => exact .inl ⟨t', hsched ▸ ht', hwanted⟩
  | shutdown _ _ _ _ _ hsched _ _ _ =>
    obtain ⟨u, hu, hsame⟩ := exists_of_forgotten hsched ht'
    have hwants := congrArg Thread.wanted hsame
    exact .inl ⟨u, hu, hwants.trans hwanted⟩
  | @turn me _ _ _ hcurrent hturn =>
    obtain ⟨u, hu, -, hsame, -⟩ := exists_standing ht'
    have hwanted := hsame.trans hwanted
    by_cases hid : id = me
    · subst hid
      obtain ⟨v, v', hv, hv', hown⟩ := hturn.own
      obtain rfl := Option.some.inj (hu.symm.trans hv')
      exact (hown.wanted hwanted).imp (fun hwanted => ⟨v, hv, hwanted⟩) fun hmove =>
        ⟨hcurrent, hmove⟩
    · exact .inl ((hu ▸ hturn.others id hid).wanted hwanted)

/-! ## What has been passed on -/

/-- The ticks at which a mutex was passed to a thread according to a part of a journal. -/
def passed (entries : List Trace.Stamped) (x : MutexId) (id : ThreadId) : List Nat :=
  (entries.filter fun stamped => stamped.event = .handoff x id).map (·.tick)

/-- The ticks at which a mutex was passed to a thread since an earlier moment of a run. -/
def passedSince (k₁ k : Kernel ε) (x : MutexId) (id : ThreadId) : List Nat :=
  passed (k.journal.drop k₁.journal.length) x id

theorem passedSince_self (k : Kernel ε) (x : MutexId) (id : ThreadId) :
    passedSince k k x id = [] := by
  rw [passedSince, List.drop_length]
  rfl

theorem passedSince_of_append (hbefore : k₁.journal <+: k.journal) {new : List Trace.Stamped}
    (hjournal : k'.journal = k.journal ++ new) (x : MutexId) (id : ThreadId) :
    passedSince k₁ k' x id = passedSince k₁ k x id ++ passed new x id := by
  rw [passedSince, passedSince, hjournal, List.drop_append_of_le_length hbefore.length_le, passed,
    List.filter_append, List.map_append]
  rfl

theorem passed_eq_nil {entries : List Trace.Stamped}
    (h : ∀ stamped ∈ entries, stamped.event ≠ .handoff x id) : passed entries x id = [] := by
  rw [passed, List.map_eq_nil_iff, List.filter_eq_nil_iff]
  simpa using h

/-- What a move reports: a mutex is passed to a thread that wants it, and in no move that takes a
tick. -/
theorem Moved.journal (h : Moved move k k') : ∃ new, k'.journal = k.journal ++ new ∧
    ∀ stamped ∈ new, ∀ {x id}, stamped.event = .handoff x id →
      k.Wants id x ∧ stamped.tick = k.sched.ticks ∧ ∃ u, k.sched.threads.get? id = some u ∧
        k'.standing id = some (u.receive x) := by
  cases h.effect with
  | still _ _ _ hjournal _ => exact ⟨[], by simpa using hjournal, by simp⟩
  | shutdown _ _ _ _ hjournal _ _ _ _ => exact ⟨[], by simpa using hjournal, by simp⟩
  | @turn me ticking events _ _ hturn =>
    obtain ⟨tail, htail, hjournal⟩ := hturn.journal
    refine ⟨_, hjournal, fun stamped hmem x id hevent => ?_⟩
    obtain ⟨event, hin, rfl⟩ := List.mem_map.mp hmem
    obtain rfl : event = .handoff x id := hevent
    have hreported : .handoff x id ∈ events := by
      refine (List.mem_append.mp hin).resolve_right fun htailed => ?_
      cases htail _ htailed
    obtain ⟨hticking, u, hu, hwanted, hreceived⟩ := hturn.handoffs hreported
    refine ⟨⟨u, hu, hwanted⟩, ?_, u, hu, hreceived⟩
    rw [hturn.ticks, hticking]
    rfl

/-! ## Runs -/

/-- The rule that a thread neither releases a mutex nor dies. -/
def keeps (id : ThreadId) (x : MutexId) (k : Kernel ε) (move : Move ε) : Bool :=
  !(k.sched.current == some id && move.releases x) && (k.perform move).toOption.all (·.lives id)

/-- The rule that a thread does not ask for a mutex. -/
def leaves (id : ThreadId) (x : MutexId) (k : Kernel ε) (move : Move ε) : Bool :=
  !(k.sched.current == some id && move.acquires x)

/-- A thread owns a mutex. -/
def Owns (k : Kernel ε) (id : ThreadId) (x : MutexId) : Prop :=
  ∃ mutex, k.sched.mutexes.get? x = some mutex ∧ mutex.owner = some id

theorem Sound.owns_iff (h : k.Sound W) : k.Owns id x ↔ k.Holds id x :=
  h.upright.orderly.owned.owner_iff x id

/-- Whoever has the processor runs. -/
theorem Sound.running (h : k.Sound W) (hcurrent : k.sched.current = some id)
    {t : Thread (Position ε)} (hrecord : k.sched.threads.get? id = some t) : t.state = .running := by
  obtain ⟨_, u, hbusy, hu, hrunning, -⟩ := h.upright.busy
  obtain rfl := Option.some.inj (hcurrent.symm.trans hbusy)
  rwa [Option.some.inj (hrecord.symm.trans hu)]

/-- Whoever does not have the processor does not run. -/
theorem Sound.not_running (h : k.Sound W) (hnot : k.sched.current ≠ some id) :
    ∀ u, k.sched.threads.get? id = some u → u.state ≠ .running := fun _ hu hrunning =>
  hnot (h.upright.orderly.running hu hrunning)

/-- Nobody dead owns anything. -/
theorem Sound.lives (h : k.Sound W) (hholds : k.Holds id x) : k.lives id = true := by
  obtain ⟨t, ht, hmem⟩ := hholds
  refine lives_iff.mpr ⟨t, ht, fun hdead => ?_⟩
  rw [h.upright.emptyHanded ht hdead] at hmem
  cases hmem

/-- A thread owns a mutex until it releases it or dies. -/
theorem Sound.owns (h : k.Sound W) (hplay : k.play moves = some k')
    (hkeeps : k.follows (keeps id x) moves = true) (howns : k.Owns id x) : k'.Owns id x := by
  refine h.play_induction (P := fun moves next =>
    k.follows (keeps id x) moves = true → next.Owns id x) hplay (fun _ => howns) ?_ hkeeps
  intro before move last next hbefore hlast hallowed hperform hnext ih hkeeps
  obtain ⟨hkeeps, hrule⟩ := (follows_concat hbefore hperform).mp hkeeps
  rw [keeps, hperform, Bool.and_eq_true] at hrule
  have hholds := hlast.owns_iff.mp (ih hkeeps)
  have hreleases : last.sched.current = some id → move.releases x = false := by
    intro hcurrent
    simpa [hcurrent] using hrule.1
  exact hnext.owns_iff.mpr ((hlast.moved hallowed hperform).holds (hlast.lives hholds) hrule.2
    hreleases hholds)

/-- What is reported stays reported. -/
theorem Sound.journal_prefix (h : k.Sound W) (hplay : k.play moves = some k') :
    k.journal <+: k'.journal := by
  refine h.play_induction (P := fun _ next => k.journal <+: next.journal) hplay List.prefix_rfl ?_
  intro before move last next _ hlast hallowed hperform _ ih
  obtain ⟨new, hnew, -⟩ := (hlast.moved hallowed hperform).journal
  exact ih.trans (hnew ▸ List.prefix_append ..)

/-- A thread that does not want a mutex is left alone with it until it asks for it. -/
theorem Sound.unwanted (h : k.Sound W) (hplay : k.play moves = some k')
    (hleaves : k.follows (leaves id x) moves = true) (hnot : ¬ k.Wants id x) :
    ¬ k'.Wants id x ∧ passedSince k k' x id = [] := by
  refine h.play_induction (P := fun moves next => k.follows (leaves id x) moves = true →
    ¬ next.Wants id x ∧ passedSince k next x id = []) hplay
    (fun _ => ⟨hnot, passedSince_self ..⟩) ?_ hleaves
  intro before move last next hbefore hlast hallowed hperform _ ih hleaves
  obtain ⟨hleaves, hrule⟩ := (follows_concat hbefore hperform).mp hleaves
  obtain ⟨hnot, hpassed⟩ := ih hleaves
  have hmoved := hlast.moved hallowed hperform
  obtain ⟨new, hnew, hhandoffs⟩ := hmoved.journal
  have hsilent : passed new x id = [] :=
    passed_eq_nil fun stamped hmem hevent => hnot (hhandoffs stamped hmem hevent).1
  refine ⟨fun hwants => ?_, ?_⟩
  · refine (hmoved.wants hwants).elim hnot ?_
    rintro ⟨hcurrent, hacquires⟩
    simp [leaves, hcurrent, hacquires] at hrule
  · rw [passedSince_of_append (h.journal_prefix hbefore) hnew, hpassed, hsilent, List.append_nil]

end Kernel

end CoopKernel
