import CoopKernel.Proofs.Kernel.Exits
import CoopKernel.Proofs.Kernel.Parting

/-!
# What is left of a life

A program that comes to its end drops its values, and nothing is left of it. A program that
terminates its own thread leaves its frames behind, and they are given up when the thread is
activated again. The kernel is the same after both (`Laden.Reachable.endsAlike`), and as long as
nothing in the frames makes a parting call, what was left behind is given up without harm, whenever
the thread is activated (`Laden.Spent`).

A value in the frames that makes a parting call makes a difference, and so does a panic that has
not come to its end: then the thread cannot be activated again (`Laden.exists_unrevived`).
-/

namespace CoopKernel

variable {ε : Type}

/-- The others leave the dead where they have once been. -/
theorem Fate.position_of_dead {ticking : Bool} {events : List Trace.Event} {id : ThreadId}
    {t t' : Thread (Position ε)} (h : Fate ticking events id (some t) (some t')) (htidy : t.Tidy)
    (hdead : t.state = .dead) (hnot : .threadActivate id ∉ events) : t'.position = t.position := by
  have hidle := htidy.waitingFor_eq_none (by simp [hdead])
  generalize hbefore : some t = before at h
  generalize hafter : some t' = after at h
  cases h with
  | kept _ => rw [Option.some.inj (hafter.trans hbefore.symm)]
  | chimed _ =>
    rw [← hbefore, Option.map_some, Thread.chime_of_untimed (by simp [hidle])] at hafter
    rw [Option.some.inj hafter]
  | created _ _ => cases hbefore
  | deleted _ _ => cases hafter
  | activated _ _ hreported => exact absurd hreported hnot
  | buried _ =>
    obtain rfl := Option.some.inj hbefore
    obtain rfl := Option.some.inj hafter
    rfl
  | served hreason | informed hreason _ =>
    -- The dead wait for nothing.
    obtain rfl := Option.some.inj hbefore
    simp [hidle] at hreason
  | received hwanted _ =>
    obtain rfl := Option.some.inj hbefore
    simp [htidy.wanted_eq_none (by simp [hdead])] at hwanted

namespace Kernel

variable {W : PoolId → Prop} {k k' : Kernel ε} {id : ThreadId} {t t' : Thread (Position ε)}
  {move : Move ε}

/-- Nothing that happens to the others brings a dead thread to another place. -/
theorem Moved.position_of_dead (h : Moved move k k') (hsound : k.Sound W)
    (hgoing : k'.stopped = false) (hmove : move ≠ .call (.threadActivate id))
    (ht : k.sched.threads.get? id = some t) (hdead : t.state = .dead)
    (ht' : k'.sched.threads.get? id = some t') :
    t'.state = .dead ∧ t'.position = t.position := by
  have hover : k.lives id = false := lives_eq_false.mpr fun u hu => by
    rwa [← Option.some.inj (ht.symm.trans hu)]
  have hdead' : t'.state = .dead := lives_eq_false.mp (h.lifeless hsound hover hmove) t' ht'
  refine ⟨hdead', ?_⟩
  cases h.effect with
  | still hsched _ _ _ _ _ _ =>
    rw [hsched, ht] at ht'
    rw [Option.some.inj ht']
  | shutdown _ _ hstopped _ _ _ _ _ _ _ _ =>
    rw [hgoing] at hstopped
    cases hstopped
  | @turn me _ events _ hcurrent hturn =>
    have hid : id ≠ me := by
      rintro rfl
      simp [hsound.lives_of_current hcurrent] at hover
    have hfate := hturn.others id hid
    have hstands : k'.standing id = some t' := by
      rw [standing_eq, ht']
      intro u hu
      rw [← Option.some.inj (ht'.symm.trans hu), hdead']
      simp
    rw [hstands,
      show ({ k with line := k'.line } : Kernel ε).sched.threads.get? id = some t from ht] at hfate
    exact hfate.position_of_dead (hsound.upright.orderly.tidy ht) hdead fun hmem =>
      hmove (hturn.explained _ hmem)

theorem carries_eq_of_position {parts : ε → Bool} (ht : k.sched.threads.get? id = some t)
    (ht' : k'.sched.threads.get? id = some t') (hposition : t'.position = t.position) :
    k'.carries parts id = k.carries parts id := by
  rw [carries, carries, ht, ht', Option.bind_some, Option.bind_some, hposition]

end Kernel

namespace Laden

open Kernel (unrevived remains answered)

variable {W : PoolId → Prop} {y y' z : Laden ε} {k' : Kernel ε} {move : Move ε}
  {occurrence : Occurrence ε} {course : List (Occurrence ε)} {id me : ThreadId} {program : ε}

/-! ## Threads whose remains do no harm -/

/-- A thread is dead, and what is left of it does no harm when it is given up. -/
structure Spent (y : Laden ε) (id : ThreadId) : Prop where
  dead : ∃ t, y.kernel.sched.threads.get? id = some t ∧ t.state = .dead
  clear : id ∈ y.lodged → y.frames id = false

theorem Spent.parting (h : y.Spent id) : y.parting (.call (.threadActivate id)) = .silent := by
  refine if_neg fun hharms => ?_
  simp only [Bool.and_eq_true, List.contains_iff_mem] at hharms
  simp [h.clear hharms.1.2] at hharms

theorem Spent.over (h : y.Spent id) : y.kernel.lives id = false := by
  obtain ⟨t, ht, hdead⟩ := h.dead
  exact Kernel.lives_eq_false.mpr fun u hu => by rwa [← Option.some.inj (ht.symm.trans hu)]

/-- A move adds nothing to what is left of a thread, unless the thread makes it or is activated. -/
theorem mem_of_mem_after (k' : Kernel ε) (hcurrent : y.kernel.sched.current ≠ some me)
    (hmove : move ≠ .call (.threadActivate me)) :
    (me ∈ (y.after move k').lodged → me ∈ y.lodged) ∧
      (me ∈ (y.after move k').keeping → me ∈ y.keeping) ∧
        (me ∈ (y.after move k').panicking → me ∈ y.panicking) := by
  unfold after
  split
  · next other =>
    have hother : me ≠ other := by
      rintro rfl
      exact hmove rfl
    split
    · refine ⟨fun hmem => ?_, List.mem_of_mem_filter, List.mem_of_mem_filter⟩
      exact List.mem_of_mem_filter ((List.mem_cons.mp hmem).resolve_left hother)
    · exact ⟨id, id, id⟩
  · split
    · exact ⟨List.mem_of_mem_filter, List.mem_of_mem_filter, List.mem_of_mem_filter⟩
    · exact ⟨id, id, id⟩
  · exact ⟨List.mem_of_mem_filter, List.mem_of_mem_filter, List.mem_of_mem_filter⟩
  · next other hother =>
    split
    · refine ⟨id, id, fun hmem => (List.mem_cons.mp hmem).resolve_left ?_⟩
      rintro rfl
      exact hcurrent hother
    · exact ⟨id, id, id⟩
  · exact ⟨id, id, id⟩

theorem frames_eq_false : y.frames me = false ↔
    me ∉ y.keeping ∧ me ∉ y.panicking ∧ y.kernel.carries y.parts me = false := by
  simp [frames, and_assoc]

theorem parts_after (y : Laden ε) (move : Move ε) (k' : Kernel ε) :
    (y.after move k').parts = y.parts := by
  unfold after
  split
  · split <;> rfl
  · split <;> rfl
  · rfl
  · split <;> rfl
  · rfl

/-- What is left of a dead thread does no harm after a move either. -/
theorem Spent.after (h : y.Spent me) (hsound : y.kernel.Sound W)
    (hallowed : y.kernel.allows move = true) (hrun : y.kernel.perform move = .ok k')
    (hgoing : k'.stopped = false) (hmove : move ≠ .call (.threadActivate me))
    (hstays : (k'.sched.threads.get? me).isSome = true) : (y.after move k').Spent me := by
  obtain ⟨t, ht, hdead⟩ := h.dead
  obtain ⟨t', ht'⟩ := Option.isSome_iff_exists.mp hstays
  obtain ⟨hdead', hposition⟩ :=
    (hsound.moved hallowed hrun).position_of_dead hsound hgoing hmove ht hdead ht'
  have haway : y.kernel.sched.current ≠ some me := (hsound.atRest h.over).away
  obtain ⟨hlodged, hkeeping, hpanicking⟩ := mem_of_mem_after k' haway hmove
  refine ⟨⟨t', by rw [after_kernel]; exact ht', hdead'⟩, fun hmem => ?_⟩
  obtain ⟨hkept, hcalm, hcarries⟩ := frames_eq_false.mp (h.clear (hlodged hmem))
  refine frames_eq_false.mpr ⟨fun hmem => hkept (hkeeping hmem),
    fun hmem => hcalm (hpanicking hmem), ?_⟩
  rw [after_kernel, parts_after, Kernel.carries_eq_of_position ht ht' hposition]
  exact hcarries

/-- Nothing that happens aside from the kernel concerns a dead thread. -/
theorem Spent.aside (h : y.Spent me) (haway : y.kernel.sched.current ≠ some me)
    (hnot : ∀ move, occurrence ≠ .move move) (hperform : y.perform occurrence = .ok y') :
    y'.Spent me := by
  have hothers : me ∉ y.kernel.sched.current.toList := fun hmem =>
    haway (Option.mem_toList.mp hmem)
  cases occurrence with
  | move move => exact absurd rfl (hnot move)
  | keep | drop | panic | recover =>
    obtain rfl := Except.ok.inj hperform
    refine ⟨h.dead, fun hmem => ?_⟩
    obtain ⟨hkept, hcalm, hcarries⟩ := frames_eq_false.mp (h.clear hmem)
    exact frames_eq_false.mpr ⟨by simp_all, by simp_all, hcarries⟩

/-- What is left of a dead thread does no harm as long as it stays and is not activated. -/
theorem Spent.play (h : y.Spent me) (hsound : y.kernel.Sound W) (hplay : y.play course = some z)
    (hharmless : y.follows harmless course = true) (hgoing : z.kernel.stopped = false)
    (hrule : y.kernel.follows (unrevived me) (movesOf course) = true)
    (hstays : y.kernel.follows (remains me) (movesOf course) = true) : z.Spent me := by
  induction course generalizing y W with
  | nil =>
    obtain rfl := Option.some.inj hplay
    exact h
  | cons occurrence rest ih =>
    obtain ⟨next, hallowed, hperform, hrest⟩ := play_cons_iff.mp hplay
    obtain ⟨hfirst, hlater⟩ := (follows_cons hperform).mp hharmless
    have hstirs := stirs hallowed hperform
    have hnext := hstirs.sound hsound
    have hgoing' : next.kernel.stopped = false :=
      hnext.going (play_kernel hrest hlater) hgoing
    cases hstirs with
    | @moves move k' _ hmove hrun =>
      rw [after_kernel] at hgoing'
      obtain ⟨hunrevived, hrule⟩ := (Kernel.follows_cons hrun).mp hrule
      obtain ⟨hthere, hstays⟩ := (Kernel.follows_cons hrun).mp hstays
      rw [remains, hrun] at hthere
      refine ih (h.after hsound hmove hrun hgoing' ?_ hthere) hnext hrest hlater
        (by rw [after_kernel]; exact hrule) (by rw [after_kernel]; exact hstays)
      rintro rfl
      simp [unrevived] at hunrevived
    | trips _ hparting _ => simp [harmless, hparting] at hfirst
    | seizes _ hparting _ => simp [harmless, hparting] at hfirst
    | aside _ hnot hkernel =>
      have hmoves : movesOf (occurrence :: rest) = movesOf rest := by
        cases occurrence with
        | move move => exact absurd rfl (hnot move)
        | _ => rfl
      rw [hmoves, ← hkernel] at hrule hstays
      exact ih (h.aside (hsound.atRest h.over).away hnot hperform) hnext hrest hlater hrule hstays

/-! ## Two ways to come to an end -/

/-- A thread's life has ended, and it begins its program anew when it is activated. Whenever it is,
what is left of it does no harm. -/
structure Over (y y' : Laden ε) (me : ThreadId) (program : ε) : Prop
    extends Kernel.Over y.kernel y'.kernel me program where
  revives : ∀ {course z}, y'.play course = some z → y'.follows harmless course = true →
    y'.kernel.follows (unrevived me) (movesOf course) = true →
    y'.kernel.follows (remains me) (movesOf course) = true →
    z.allows (.move (.call (.threadActivate me))) = true → z.kernel.stopped = false →
    ∃ z', z.perform (.move (.call (.threadActivate me))) = .ok z' ∧ z'.kernel.Begins me program

/-- A run at whose end a thread owns a mutex that the main thread waits for, and a tick is
pending. -/
def bequest : List (Move Unit) :=
  [answered .mutexCreate, answered (.threadCreate () 4096 .normal), answered (.threadActivate ⟨3⟩),
    [.call (.sleep .immediate), .advance, .advance], answered (.mutexAcquire ⟨1⟩ .infinite),
    [.call (.sleep .immediate), .advance, .advance, .advance],
    [.call (.mutexAcquire ⟨1⟩ .infinite), .advance, .advance, .advance], [.raise .tick]].flatten

/-- That run, at whose end the thread has dropped a value that makes a parting call. -/
def bequeathed : List (Occurrence Unit) := bequest.map .move ++ [.keep, .drop]

end Laden

end CoopKernel
