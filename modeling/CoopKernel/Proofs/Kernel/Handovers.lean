import CoopKernel.Proofs.Kernel.Telling

/-!
# Following the processor

Somebody who reads the switches that a kernel reports should know who runs: the target of the last
one, or the main thread if there is none, and each should begin where the one before ended
(`Kernel.Traced`). That is so as long as no program ends. The end of a program gives the processor
away without a word, and from then on the reports are about a thread that has ended.

* `Sound.leads_of_play` — between two ends of programs the switches lead from the one who runs first
  to the one who runs last;
* `start_handovers` — a run is followed at every moment exactly if no program ends in it;
* `exists_untraced` — a run in which a program ends.
-/

namespace CoopKernel.Kernel

open Trace (Event Leads switches)

variable {ε : Type} {W : PoolId → Prop} {config : Config} {arena : Arena}
  {first k k' k₁ k₂ : Kernel ε} {moves before after : List (Move ε)} {main me : ThreadId}

/-- The reported switches say who runs. -/
structure Traced (k : Kernel ε) (main : ThreadId) : Prop where
  /-- The target of the last switch runs, or the main thread if there was none. -/
  running : k.sched.current = some (((switches k.reported).getLast?.map Prod.snd).getD main)
  /-- The first switch was from the main thread. -/
  begins : ∀ switch, (switches k.reported).head? = some switch → switch.1 = main
  /-- Every other switch was from the target of the one before. -/
  chain : (switches k.reported).IsChain fun switch next => next.1 = switch.2

theorem traced_iff : k.Traced main ↔
    ∃ me, k.sched.current = some me ∧ Leads main (switches k.reported) me := by
  simp only [Trace.leads_iff]
  constructor
  · rintro ⟨hrunning, hbegins, hchain⟩
    exact ⟨_, hrunning, rfl, hbegins, hchain⟩
  · rintro ⟨me, hme, rfl, hbegins, hchain⟩
    exact ⟨hme, hbegins, hchain⟩

/-! ## Runs -/

/-- As long as no program ends, the switches lead from one running thread to the next. -/
theorem Sound.leads_of_play (h : k.Sound W) (hplay : k.play moves = some k')
    (hexit : .exit ∉ moves) (hme : k.sched.current = some me) :
    ∃ events next, k'.reported = k.reported ++ events ∧ k'.sched.current = some next ∧
      Leads me (switches events) next := by
  refine h.play_induction (P := fun moves k' => .exit ∉ moves → ∃ events next,
    k'.reported = k.reported ++ events ∧ k'.sched.current = some next ∧
      Leads me (switches events) next) hplay
    (fun _ => ⟨[], me, (List.append_nil _).symm, hme, rfl⟩) ?_ hexit
  intro before move last next _ hsound _ hperform _ ih hexit
  rw [List.mem_append, not_or, List.mem_singleton] at hexit
  obtain ⟨events, middle, hreported, hmiddle, hbefore⟩ := ih hexit.1
  obtain ⟨later, htold⟩ := hsound.told (Ne.symm hexit.2) hperform
  obtain ⟨final, hfinal, hafter⟩ := htold.leads middle hmiddle
  refine ⟨events ++ later, final, ?_, hfinal, ?_⟩
  · rw [htold.reported, hreported, List.append_assoc]
  · rw [Trace.switches_append]
    exact Trace.leads_append_iff.mpr ⟨middle, hbefore, hafter⟩

/-- How far the reports of a run follow the processor. -/
structure Handovers (first : Kernel ε) (moves : List (Move ε)) (k : Kernel ε) : Prop where
  /-- They do at every moment of the run exactly if no program ends in it. -/
  traced_iff : (∀ before after k₁, moves = before ++ after → first.play before = some k₁ →
    k₁.Traced first.main) ↔ .exit ∉ moves
  /-- Since the last end of a program they do. -/
  since : ∀ before after k₁, moves = before ++ after → first.play before = some k₁ →
    .exit ∉ after → ∃ events me next, k.reported = k₁.reported ++ events ∧
      k₁.sched.current = some me ∧ k.sched.current = some next ∧ Leads me (switches events) next
  /-- The end of a program reports no switch, although somebody else gets the processor. -/
  unsaid : ∀ before after k₁ k₂, moves = before ++ .exit :: after →
    first.play before = some k₁ → k₁.exit = .ok k₂ →
      switches k₂.reported = switches k₁.reported ∧ k₂.sched.current ≠ k₁.sched.current

/-- The main thread runs when a kernel has just started, and no switch has been reported. -/
theorem traced_of_start (hstart : start config arena = .ok first) :
    first.sched.current = some first.main ∧ switches first.reported = [] := by
  obtain ⟨pools, address, systemPool, sharedPool, -, -, rfl⟩ := start_eq hstart
  exact ⟨rfl, rfl⟩

theorem Sound.unsaid (h : k.Sound W) (hplay : k.play (before ++ .exit :: after) = some k')
    (hbefore : k.play before = some k₁) (hrun : k₁.exit = .ok k₂) :
    switches k₂.reported = switches k₁.reported ∧ k₂.sched.current ≠ k₁.sched.current := by
  rw [play_append, hbefore, Option.bind_some] at hplay
  obtain ⟨_, hallowed, -, -⟩ := play_cons_iff.mp hplay
  obtain ⟨events, htaken⟩ := (h.play hbefore).takenOver hallowed hrun
  refine ⟨?_, htaken.passed⟩
  rw [htaken.reported, Trace.switches_append, htaken.unsaid, List.append_nil]

/-- The reports of a run follow the processor as long as no program ends. -/
theorem start_handovers (hstart : start config arena = .ok first)
    (hplay : first.play moves = some k) : Handovers first moves k := by
  have hsound := start_sound hstart
  obtain ⟨hmain, hsilent⟩ := traced_of_start hstart
  have hafter : ∀ {before after k₁}, moves = before ++ after → first.play before = some k₁ →
      k₁.play after = some k := by
    rintro before after k₁ rfl hbefore
    rw [play_append, hbefore, Option.bind_some] at hplay
    exact hplay
  refine ⟨⟨fun hall hexit => ?_, fun hexit before after k₁ hsplit hbefore => ?_⟩,
    fun before after k₁ hsplit hbefore hexit => ?_,
    fun before after k₁ k₂ hsplit hbefore hrun => ?_⟩
  · -- Before and after the end of a program the same switches cannot both say who runs.
    obtain ⟨before, after, rfl⟩ := List.append_of_mem hexit
    have hrest := hplay
    rw [play_append, Option.bind_eq_some_iff] at hrest
    obtain ⟨k₁, hbefore, hrest⟩ := hrest
    obtain ⟨k₂, hallowed, hrun, -⟩ := play_cons_iff.mp hrest
    obtain ⟨hsame, hne⟩ := hsound.unsaid hplay hbefore hrun
    have htraced := hall before (.exit :: after) k₁ rfl hbefore
    have htraced' := hall (before ++ [.exit]) after k₂ (by simp)
      (play_concat_iff.mpr ⟨k₁, hbefore, hallowed, hrun⟩)
    rw [htraced'.running, htraced.running, hsame] at hne
    exact hne rfl
  · rw [hsplit, List.mem_append, not_or] at hexit
    obtain ⟨events, next, hreported, hnext, hleads⟩ := hsound.leads_of_play hbefore hexit.1 hmain
    rw [traced_iff, hreported, Trace.switches_append, hsilent]
    exact ⟨next, hnext, hleads⟩
  · obtain ⟨me, _, hme, -⟩ := (hsound.play hbefore).wellKept.busy
    obtain ⟨events, next, hreported, hnext, hleads⟩ :=
      (hsound.play hbefore).leads_of_play (hafter hsplit hbefore) hexit hme
    exact ⟨events, me, next, hreported, hme, hnext, hleads⟩
  · exact hsound.unsaid (hsplit ▸ hplay) hbefore hrun

/-- A run in which the program of a thread ends that was activated and outranks the main thread. -/
def outlived : List (Move Unit) :=
  answered (.threadCreate () 4096 .high) ++
    [.call (.threadActivate ⟨3⟩), .advance, .advance, .exit]

theorem handovers_outlived : ∃ first k : Kernel Unit, start {} {} = .ok first ∧
    first.play outlived = some k ∧ Handovers first outlived k := by
  have hrun : (afterRun (ε := Unit) {} {} outlived).isSome = true := by decide +kernel
  obtain ⟨k, hk⟩ := Option.isSome_iff_exists.mp hrun
  obtain ⟨first, hstart, hplay⟩ := afterRun_eq_some hk
  exact ⟨first, k, hstart, hplay, start_handovers hstart hplay⟩

/-- The main thread runs again, but the last that was reported is that the other thread does. -/
theorem exists_untraced : ∃ first k : Kernel Unit, start {} {} = .ok first ∧
    first.play outlived = some k ∧ switches k.reported = [(⟨1⟩, ⟨3⟩)] ∧
      k.sched.current = some ⟨1⟩ ∧ ¬ k.Traced first.main := by
  have hrun : (afterRun {} {} outlived).any (fun k : Kernel Unit =>
      switches k.reported == [(⟨1⟩, ⟨3⟩)] && k.sched.current == some ⟨1⟩) = true := by
    decide +kernel
  obtain ⟨k, hk, hfacts⟩ := Option.any_eq_true _ _ |>.mp hrun
  simp only [Bool.and_eq_true, beq_iff_eq] at hfacts
  obtain ⟨hswitches, hcurrent⟩ := hfacts
  obtain ⟨first, hstart, hplay⟩ := afterRun_eq_some hk
  refine ⟨first, k, hstart, hplay, hswitches, hcurrent, fun htraced => ?_⟩
  have hrunning := htraced.running
  rw [hswitches, hcurrent] at hrunning
  cases hrunning

end CoopKernel.Kernel
