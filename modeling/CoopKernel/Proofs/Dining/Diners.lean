import CoopKernel.Proofs.Dining.Forks
import CoopKernel.Proofs.Kernel.Granted

/-!
# What a philosopher has in its hands

A philosopher goes round in its steps, and each of them is one call to the kernel. Between two calls
it is in one of three places (`Dines`): it decides to make the next step; the call of its step is
granted and on its way back; or it waits for the fork that its step asks for. Each place says which
forks it has in its hands.

What anybody else does leaves a philosopher where it is, or brings it back from its call
(`Dines.moved`). When it makes the call of its step, it leaves its program for one of the other two
places (`Dines.makes`).
-/

namespace CoopKernel

variable {ε : Type}

namespace Dining

open Kernel

namespace DinerStep

variable {step : DinerStep} {first second fork : MutexId} {request : Call ε}

/-- The fork that a step asks for. -/
def asks (first second : MutexId) : DinerStep → Option MutexId
  | takeFirst => some first
  | takeSecond => some second
  | _ => none

/-- The call of a step. -/
def Makes (first second : MutexId) (request : Call ε) : DinerStep → Prop
  | think => ∃ count, request = .sleep (.ticks count)
  | takeFirst => request = .mutexAcquire first .infinite
  | takeSecond => request = .mutexAcquire second .infinite
  | eat => ∃ count, request = .sleep (.ticks count)
  | putSecond => request = .mutexRelease second
  | putFirst => request = .mutexRelease first
  | leave => False

/-- A philosopher deletes no fork and ends no thread. -/
theorem Makes.spares (h : step.Makes first second request) :
    (∀ x, request ≠ .mutexDelete x) ∧ ∀ id, request ≠ .threadTerminate id := by
  cases step with
  | think | eat =>
    obtain ⟨_, rfl⟩ := h
    simp
  | leave => exact h.elim
  | _ =>
    obtain rfl := h
    simp

theorem next_ne_leave (h : step ≠ leave) : step.next ≠ leave := by
  cases step <;> simp [next] at h ⊢

/-- A fork that was asked for comes to those in the hands. -/
theorem mem_hands_next_of_asks (h : step.asks first second = some fork) (x : MutexId) :
    x ∈ step.next.hands first second ↔ x = fork ∨ x ∈ step.hands first second := by
  cases step <;> simp only [asks, Option.some.injEq, reduceCtorEq] at h <;> subst h <;>
    simp [next, hands, or_comm]

/-- The fork that a step asks for is not in the hands yet. -/
theorem not_mem_hands_of_asks (hne : first ≠ second) (h : step.asks first second = some fork) :
    fork ∉ step.hands first second := by
  cases step <;> simp only [asks, Option.some.injEq, reduceCtorEq] at h <;> subst h <;>
    simp [hands, hne.symm]

theorem ne_leave_of_asks (h : step.asks first second = some fork) : step ≠ leave := by
  rintro rfl
  cases h

end DinerStep

/-- Of some forks a thread holds just these. -/
def Grasps (k : Kernel ε) (forks : List MutexId) (id : ThreadId) (hands : List MutexId) : Prop :=
  ∀ fork ∈ forks, k.Holds id fork ↔ fork ∈ hands

/-- Where a philosopher is in its dinner. -/
inductive Dines (k : Kernel ε) (forks : List MutexId) (first second : MutexId) (id : ThreadId) :
    DinerStep → Prop
  /-- It is in its program and makes the step next. -/
  | decides {step : DinerStep} (hgoing : k.stopped = false) (hdecides : k.deciding id = true)
    (hstays : step ≠ .leave) (hhands : Grasps k forks id (step.hands first second)) :
    Dines k forks first second id step
  /-- It has made the step, and the call is sure to come back with success. -/
  | granted {step : DinerStep} (haway : k.deciding id = false) (hgranted : k.Granted id)
    (hwants : ∀ x, ¬ k.Wants id x) (hstays : step ≠ .leave)
    (hhands : Grasps k forks id (step.next.hands first second)) :
    Dines k forks first second id step
  /-- It waits for the fork that the step asks for. -/
  | waits {step : DinerStep} {fork : MutexId} (hasks : step.asks first second = some fork)
    (hawaits : k.Awaits id fork) (hhands : Grasps k forks id (step.hands first second)) :
    Dines k forks first second id step

namespace Dines

variable {W W' : PoolId → Prop} {k k' : Kernel ε} {forks : List MutexId}
  {first second fork : MutexId} {id : ThreadId} {step : DinerStep} {move : Move ε}
  {request : Call ε}

theorem ne_leave (h : Dines k forks first second id step) : step ≠ .leave := by
  cases h with
  | decides _ _ hstays _ => exact hstays
  | granted _ _ _ hstays _ => exact hstays
  | waits hasks _ _ => exact DinerStep.ne_leave_of_asks hasks

/-- A philosopher has in its hands what its step says, until the call of the step is granted. -/
theorem grasps (h : Dines k forks first second id step) :
    (k.deciding id = true ∨ (step.asks first second).isSome = true) ∧
        Grasps k forks id (step.hands first second) ∨
      k.deciding id = false ∧ Grasps k forks id (step.next.hands first second) := by
  cases h with
  | decides _ hdecides _ hhands => exact .inl ⟨.inl hdecides, hhands⟩
  | granted haway _ _ _ hhands => exact .inr ⟨haway, hhands⟩
  | waits hasks _ hhands => exact .inl ⟨.inr (by rw [hasks]; rfl), hhands⟩

theorem cleared (h : Dines k forks first second id step) :
    Dines k.cleared forks first second id step := by
  cases h with
  | decides hgoing hdecides hstays hhands => exact .decides hgoing hdecides hstays hhands
  | granted haway hgranted hwants hstays hhands =>
    exact .granted haway hgranted.cleared hwants hstays hhands
  | waits hasks hawaits hhands => exact .waits hasks hawaits.cleared hhands

/-! ## What anybody else does -/

/-- What happens without a decision of the philosopher leaves it where it is, or brings it back from
its call. -/
theorem moved (h : Dines k forks first second id step) (hne : first ≠ second)
    (hsound : k.Sound W) (hsound' : k'.Sound W') (hallowed : k.allows move = true)
    (hrun : k.perform move = .ok k') (hpassive : k.deciding id = true → move.ofProgram = false)
    (hlives : k.lives id = true) (hlives' : k'.lives id = true) :
    Dines k' forks first second id step ∧ k'.deciding id = k.deciding id ∨
      k.deciding id = false ∧ k'.deciding id = true ∧ Dines k' forks first second id step.next := by
  have hmoved := hsound.moved hallowed hrun
  -- Nobody else makes a call in the name of the running thread.
  have hothers : k.sched.current = some id → move.ofProgram = false := fun hcurrent => by
    cases hmove : move.ofProgram with
    | false => rfl
    | true => exact hmove.symm.trans (hpassive (deciding_of_allows hallowed hmove hcurrent))
  cases h with
  | decides hgoing hdecides hstays hhands =>
    obtain ⟨hdecides', hsched, hstopped⟩ := deciding_of_passive hdecides (hpassive hdecides) hrun
    refine .inl ⟨.decides (hstopped.trans hgoing) hdecides' hstays fun x hx => ?_,
      hdecides'.trans hdecides.symm⟩
    rw [← hhands x hx, Kernel.Holds, Kernel.Holds, hsched]
  | granted haway hgranted hwants hstays hhands =>
    have hhands' : Grasps k' forks id (step.next.hands first second) := fun x hx =>
      (hmoved.hands hlives hlives' (hwants x) hothers).trans (hhands x hx)
    cases hdecides' : k'.deciding id with
    | true =>
      rcases hsound.deciding_of_moved hallowed hrun hdecides' with hdecides | ⟨rfl, hcurrent, -⟩
      · simp [haway] at hdecides
      · have hgoing' := hmoved.going_on (hgranted.going hcurrent) (by simp)
        exact .inr ⟨haway, rfl,
          .decides hgoing' hdecides' (DinerStep.next_ne_leave hstays) hhands'⟩
    | false =>
      have hgranted' := hgranted.moved hsound hsound' hallowed hrun haway hlives hlives'
      exact .inl ⟨.granted hdecides' (hgranted'.resolve_right (by simp [hdecides']))
        (hmoved.not_wants hwants hothers) hstays hhands', haway.symm⟩
  | @waits fork hasks hawaits hhands =>
    have hnot := hsound.not_current_of_wants hawaits.wants
    have haway := not_deciding_of_away hnot
    have haway' := hsound.not_deciding_of_moved hallowed hrun hnot
    have hkept : ∀ {x}, x ∈ forks → x ≠ fork →
        (k'.Holds id x ↔ x ∈ step.hands first second) := fun hx hother =>
      (hmoved.hands hlives hlives' (fun hwanted => hother (hwanted.unique hawaits.wants))
        fun hcurrent => absurd hcurrent hnot).trans (hhands _ hx)
    refine .inl ⟨?_, haway'.trans haway.symm⟩
    rcases hawaits.moved hsound hmoved hlives' with hawaits' | ⟨hgranted', hholds'⟩
    · refine .waits hasks hawaits' fun x hx => ?_
      by_cases hfork : x = fork
      · subst hfork
        exact iff_of_false (hsound'.not_holds_of_wants hawaits'.wants)
          (DinerStep.not_mem_hands_of_asks hne hasks)
      · exact hkept hx hfork
    · refine .granted haway' hgranted' (fun x hwants' => ?_) (DinerStep.ne_leave_of_asks hasks)
        fun x hx => ?_
      · rcases hmoved.wants hwants' with hwants | ⟨hcurrent, -⟩
        · obtain rfl := hwants.unique hawaits.wants
          exact hsound'.not_holds_of_wants hwants' hholds'
        · exact hnot hcurrent
      · rw [DinerStep.mem_hands_next_of_asks hasks]
        by_cases hfork : x = fork
        · subst hfork
          exact iff_of_true hholds' (.inl rfl)
        · rw [hkept hx hfork, or_iff_right hfork]

/-- A philosopher that comes to its program comes back from a call with success. -/
theorem of_arriving (h : Dines k forks first second id step) (hsound : k.Sound W)
    (hcurrent : k.sched.current = some id) {arrival : Arrival ε}
    (hactivity : k.activity = .arriving arrival) : ∃ reply, arrival = .returned (.ok reply) := by
  cases h with
  | decides _ hdecides _ _ => cases hactivity.symm.trans (deciding_iff.mp hdecides).1
  | granted _ hgranted _ _ _ => exact hgranted.of_arriving hsound hcurrent hactivity
  | waits _ hawaits _ => exact absurd hcurrent (hsound.not_current_of_wants hawaits.wants)

/-! ## The call of a step -/

/-- A philosopher that decides has in its hands what the step to be made says. -/
theorem of_deciding (h : Dines k forks first second id step) (hsound : k.Sound W)
    (hdecides : k.deciding id = true) :
    k.stopped = false ∧ step ≠ .leave ∧ Grasps k forks id (step.hands first second) := by
  cases h with
  | decides hgoing _ hstays hhands => exact ⟨hgoing, hstays, hhands⟩
  | granted haway _ _ _ _ => simp [haway] at hdecides
  | waits _ hawaits _ =>
    exact absurd (deciding_iff.mp hdecides).2 (hsound.not_current_of_wants hawaits.wants)

section

variable (hsound : k.Sound W) (hsound' : k'.Sound W') (hgoing : k.stopped = false)
  (hdecides : k.deciding id = true) (hhands : Grasps k forks id (step.hands first second))

include hsound hsound' hgoing hdecides hhands

theorem sleeps {count : Nat} (hstays : step ≠ .leave)
    (hsame : step.next.hands first second = step.hands first second)
    (hrun : k.call (.sleep (.ticks count)) = .ok k') :
    k'.deciding id = false ∧ Dines k' forks first second id step := by
  have hmoved := hsound.moved_call hdecides hrun
  obtain ⟨hgranted, haway, hholds⟩ := hsound.sleep_granted hgoing hdecides hsound'
    (hmoved.going_on hgoing (by simp)) hrun
  refine ⟨haway, .granted haway hgranted (fun x hwants => ?_) hstays fun x hx => ?_⟩
  · rcases hmoved.wants hwants with hwants | ⟨-, hacquires⟩
    · exact hsound.not_current_of_wants hwants (deciding_iff.mp hdecides).2
    · cases hacquires
  · rw [hholds, hsame]
    exact hhands x hx

theorem takes (hne : first ≠ second) (hfork : (k.sched.mutexes.get? fork).isSome = true)
    (hmem : fork ∈ forks) (hasks : step.asks first second = some fork)
    (hrun : k.call (.mutexAcquire fork .infinite) = .ok k') :
    k'.deciding id = false ∧ Dines k' forks first second id step := by
  have hmoved := hsound.moved_call hdecides hrun
  have hnot : ¬ k.Holds id fork := fun hholds =>
    DinerStep.not_mem_hands_of_asks hne hasks ((hhands fork hmem).mp hholds)
  obtain ⟨haway, ⟨hgranted, hholds⟩ | ⟨hawaits, hholds⟩⟩ := hsound.acquire_granted hgoing hdecides
    hsound' (hmoved.going_on hgoing (by simp)) hfork hnot hrun
  · refine ⟨haway, .granted haway hgranted (fun x hwants => ?_) (DinerStep.ne_leave_of_asks hasks)
      fun x hx => ?_⟩
    · rcases hmoved.wants hwants with hwants' | ⟨-, hacquires⟩
      · exact hsound.not_current_of_wants hwants' (deciding_iff.mp hdecides).2
      · obtain rfl : fork = x := beq_iff_eq.mp hacquires
        exact hsound'.not_holds_of_wants hwants ((hholds fork).mpr (.inl rfl))
    · rw [hholds, hhands x hx, DinerStep.mem_hands_next_of_asks hasks]
  · exact ⟨haway, .waits hasks hawaits fun x hx => (hholds x).trans (hhands x hx)⟩

theorem gives (hstays : step ≠ .leave) (hmem : fork ∈ forks)
    (hfork : fork ∈ step.hands first second)
    (hnext : ∀ x, x ∈ step.next.hands first second ↔ x ∈ step.hands first second ∧ x ≠ fork)
    (hrun : k.call (.mutexRelease fork) = .ok k') :
    k'.deciding id = false ∧ Dines k' forks first second id step := by
  have hmoved := hsound.moved_call hdecides hrun
  obtain ⟨hgranted, haway, hholds⟩ := hsound.release_granted hgoing hdecides hsound'
    (hmoved.going_on hgoing (by simp)) ((hhands fork hmem).mpr hfork) hrun
  refine ⟨haway, .granted haway hgranted (fun x hwants => ?_) hstays fun x hx => ?_⟩
  · rcases hmoved.wants hwants with hwants | ⟨-, hacquires⟩
    · exact hsound.not_current_of_wants hwants (deciding_iff.mp hdecides).2
    · cases hacquires
  · rw [hholds, hhands x hx, hnext]

end

/-- When a philosopher makes the call of its step, it leaves its program, and the call is granted or
it waits for the fork that it asks for. -/
theorem makes (h : Dines k forks first second id step) (hsound : k.Sound W)
    (hsound' : k'.Sound W') (hdecides : k.deciding id = true) (hne : first ≠ second)
    (hfirst : first ∈ forks) (hsecond : second ∈ forks)
    (hforks : ∀ fork ∈ forks, (k.sched.mutexes.get? fork).isSome = true)
    (hmakes : step.Makes first second request) (hrun : k.call request = .ok k') :
    k'.deciding id = false ∧ Dines k' forks first second id step := by
  obtain ⟨hgoing, hstays, hhands⟩ := h.of_deciding hsound hdecides
  cases step with
  | think | eat =>
    obtain ⟨count, rfl⟩ := hmakes
    exact sleeps hsound hsound' hgoing hdecides hhands hstays rfl hrun
  | takeFirst =>
    obtain rfl := hmakes
    exact takes hsound hsound' hgoing hdecides hhands hne (hforks _ hfirst) hfirst rfl hrun
  | takeSecond =>
    obtain rfl := hmakes
    exact takes hsound hsound' hgoing hdecides hhands hne (hforks _ hsecond) hsecond rfl hrun
  | putSecond =>
    obtain rfl := hmakes
    refine gives hsound hsound' hgoing hdecides hhands hstays hsecond (by simp [DinerStep.hands])
      (fun x => ?_) hrun
    simp only [DinerStep.next, DinerStep.hands, List.mem_cons, List.not_mem_nil, or_false]
    constructor
    · rintro rfl
      exact ⟨.inl rfl, hne⟩
    · rintro ⟨rfl | rfl, hx⟩
      · rfl
      · exact absurd rfl hx
  | putFirst =>
    obtain rfl := hmakes
    exact gives hsound hsound' hgoing hdecides hhands hstays hfirst (by simp [DinerStep.hands])
      (by simp [DinerStep.next, DinerStep.hands]) hrun
  | leave => exact absurd rfl hstays

end Dines

end Dining

end CoopKernel
