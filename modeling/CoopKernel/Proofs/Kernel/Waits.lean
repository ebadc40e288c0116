import CoopKernel.Proofs.Kernel.Completion
import CoopKernel.Proofs.Kernel.MemoryQueue

/-!
# Who waits for a result

A thread comes to wait for a result only by beginning an operation (`Moved.awaitsIo`). From then on
it waits until a result for it is dispatched or its life ends, whatever else happens
(`Sound.awaitsIo_moved`). A result that its call returns was dispatched while it waited
(`Calls.result_of_awaitIo`).
-/

namespace CoopKernel.Kernel

variable {ε : Type} {W : PoolId → Prop} {k k' k₀ k₁ k₂ : Kernel ε} {id : ThreadId} {move : Move ε}
  {moves during : List (Move ε)} {r : Int32}

theorem lives_of_awaitsIo (h : k.awaitsIo id = true) : k.lives id = true := by
  obtain ⟨t, ht, hwaiting, -⟩ := awaitsIo_iff.mp h
  exact lives_iff.mpr ⟨t, ht, by simp [hwaiting]⟩

/-- Whoever waits for a result does not have the processor. -/
theorem Sound.current_ne_of_awaitsIo (h : k.Sound W) (hawaits : k.awaitsIo id = true) :
    k.sched.current ≠ some id := by
  intro hcurrent
  obtain ⟨t, ht, hwaiting, -⟩ := awaitsIo_iff.mp hawaits
  exact absurd ((h.running hcurrent ht).symm.trans hwaiting) (by simp)

theorem awaitsIo_of_standing {t : Thread (Position ε)} (hstands : k.standing id = some t)
    (hwaiting : t.state = .waiting) (hreason : t.waitingFor = some .io) : k.awaitsIo id = true := by
  obtain ⟨u, hu, ⟨-, rfl⟩ | ⟨-, rfl⟩⟩ := exists_of_standing hstands
  · cases hwaiting
  · exact awaitsIo_iff.mpr ⟨_, hu, hwaiting, hreason⟩

/-- A shutdown changes nothing for those who wait. -/
theorem awaitsIo_foldl_forgetPosition {ids : List ThreadId}
    (hsched : k'.sched = ids.foldl Scheduler.forgetPosition k.sched) (id : ThreadId) :
    k'.awaitsIo id = k.awaitsIo id := by
  have hunplaced := unplaced_foldl_forgetPosition k.sched ids id
  rw [Bool.eq_iff_iff, awaitsIo_iff, awaitsIo_iff, hsched]
  constructor
  · rintro ⟨t, ht, hwaiting, hreason⟩
    rw [ht] at hunplaced
    obtain ⟨u, hu, hstate, hsame, -⟩ := exists_of_unplaced_eq hunplaced
    exact ⟨u, hu, hstate.trans hwaiting, hsame.trans hreason⟩
  · rintro ⟨t, ht, hwaiting, hreason⟩
    rw [ht] at hunplaced
    obtain ⟨u, hu, hstate, hsame, -⟩ := exists_of_unplaced_eq hunplaced.symm
    exact ⟨u, hu, hstate.trans hwaiting, hsame.trans hreason⟩

/-- Whoever waits for a result waited for it before, or has just begun to. -/
theorem Moved.awaitsIo (h : Moved move k k') (hawaits : k'.awaitsIo id = true) :
    k.awaitsIo id = true ∨ k.sched.current = some id ∧
      ∃ interrupts, move = .call (.awaitIo (.raising interrupts)) := by
  obtain ⟨u, hu, hwaiting, hreason⟩ := awaitsIo_iff.mp hawaits
  cases h.effect with
  | still hsched _ _ _ _ =>
    rw [hsched] at hu
    exact .inl (awaitsIo_iff.mpr ⟨u, hu, hwaiting, hreason⟩)
  | shutdown _ _ _ _ _ hsched _ _ _ =>
    rw [awaitsIo_foldl_forgetPosition hsched] at hawaits
    exact .inl hawaits
  | @turn me _ _ _ hcurrent hturn =>
    have hstands : k'.standing id = some u := by
      rw [standing_eq, hu]
      intro v hv
      obtain rfl := Option.some.inj (hu.symm.trans hv)
      simp [hwaiting]
    by_cases hid : id = me
    · subst hid
      obtain ⟨t, t', -, ht', hown⟩ := hturn.own
      obtain rfl := Option.some.inj (hstands.symm.trans ht')
      cases hown with
      | slept _ _ hresult _ _ => exact .inr ⟨hcurrent, hresult (Option.some.inj hreason)⟩
      | queued _ _ => cases hreason
      | starved _ _ _ => cases hreason
      | _ => cases hwaiting
    · have hfate := hturn.others id hid
      rw [hstands] at hfate
      exact .inl (awaitsIo_iff.mpr ⟨u, hfate.eq_of_untimed hwaiting hreason rfl, hwaiting, hreason⟩)

/-- A thread that waits for a result waits until a result for it is dispatched or its life ends. -/
theorem Sound.awaitsIo_moved (h : k.Sound W) (hgoing : k.stopped = false)
    (hallowed : k.allows move = true) (hperform : k.perform move = .ok k')
    (hawaits : k.awaitsIo id = true) :
    resultsFor id (k.takes move) = [] ∧ k'.awaitsIo id = k'.lives id ∨
      ∃ r, resultsFor id (k.takes move) = [r] ∧ k'.awaitsIo id = false ∧ k'.lives id = true := by
  obtain ⟨t, ht, hwaiting, hreason⟩ := awaitsIo_iff.mp hawaits
  have hsilent : resultsFor id (k.takes move) = [] →
      resultsFor id (k.takes move) = [] ∧ k'.awaitsIo id = k'.lives id := by
    intro hnone
    refine ⟨hnone, Bool.eq_iff_iff.mpr ⟨lives_of_awaitsIo, fun hlives => ?_⟩⟩
    have hmoved := h.moved hallowed hperform
    cases hstopped : k'.stopped with
    | false =>
      rcases h.awaiting hallowed hperform hstopped ht hreason hlives with
        ⟨-, hstands⟩ | ⟨r, hsome, -⟩
      · exact awaitsIo_of_standing hstands hwaiting hreason
      · simp [hnone] at hsome
    | true =>
      obtain ⟨-, -, _, hsched⟩ := hmoved.shutdown hgoing hstopped
      rwa [awaitsIo_foldl_forgetPosition hsched]
  rcases k.takes_eq move with hnone | ⟨destination, interrupt, rest, rfl, hactivity, hpending, htakes⟩
  · exact .inl (hsilent (by rw [hnone]; rfl))
  · cases interrupt with
    | tick => exact .inl (hsilent (by rw [htakes]; rfl))
    | ioComplete other r =>
      by_cases hother : other = id
      · subst hother
        have hstands := h.awaiting_dispatched hgoing hactivity hpending hperform ht hreason
        rw [if_pos rfl] at hstands
        obtain ⟨u, hu, hable⟩ := CanRun.of_standing hstands rfl
        refine .inr ⟨r, by rw [htakes, resultsFor_self], ?_, lives_iff.mpr ⟨u, hu, ?_⟩⟩
        · rw [← Bool.not_eq_true, awaitsIo_iff]
          rintro ⟨v, hv, hwaits, -⟩
          obtain rfl := Option.some.inj (hu.symm.trans hv)
          simp [hwaits] at hable
        · rcases hable with hstate | hstate <;> simp [hstate]
      · exact .inl (hsilent (by rw [htakes, resultsFor_of_ne hother]))

/-- While a thread is not in its program and lives, it does not shut the kernel down. -/
theorem Sound.going_of_quiet (h : k.Sound W) (hgoing : k.stopped = false)
    (hplay : k.play moves = some k') (hquiet : k.follows (quiet id) moves = true)
    (hcurrent : k'.sched.current = some id) : k'.stopped = false := by
  refine h.play_induction (P := fun moves k' => k.follows (quiet id) moves = true →
    k'.sched.current = some id → k'.stopped = false) hplay (fun _ _ => hgoing) ?_ hquiet hcurrent
  intro before move last next hbefore hlast hallowed hperform hnext ih hquiet hcurrent
  obtain ⟨hquiet, hrule⟩ := (follows_concat hbefore hperform).mp hquiet
  have hmoved := hlast.moved hallowed hperform
  cases hstopped : last.stopped with
  | true =>
    have hsame := (hmoved.stopped hstopped).2
    rw [ih hquiet (hsame.symm.trans hcurrent)] at hstopped
    cases hstopped
  | false =>
    by_contra hended
    rw [Bool.not_eq_false] at hended
    -- Only the program of the running thread can have asked for it.
    obtain ⟨hmove, hsame, -⟩ := hmoved.shutdown hstopped hended
    rw [hmove, quiet, hsame.symm.trans hcurrent] at hrule
    simp [Move.ofProgram] at hrule

/-- A result that a call returns was dispatched while the call's thread waited, before any other. -/
theorem Calls.result_of_awaitIo {issue : Issue} (h : k₀.Calls k₁ id (.awaitIo issue))
    (hduring : k₁.play during = some k₂) (hquiet : k₁.follows (quiet id) during = true)
    (hcurrent : k₂.sched.current = some id)
    (hreturned : k₂.activity = .arriving (.returned (.ok (.result r)))) :
    k₀.stopped = false ∧ k₂.stopped = false ∧ k₁.awaitsIo id = true ∧
      (resultsFor id (k₁.dispatchedIn during)).head? = some r := by
  have hreturning : ∀ {arrival}, k₁.Returning id arrival →
      Arrival.returned (.ok (.result r)) = arrival := fun hreturning =>
    (hreturning.run h.sound hduring hquiet).eq_of_arriving hcurrent hreturned
  rcases h.reachable.sound.calling (inProgram_iff.mp h.program) with hhalted | ⟨me, t, hcalling⟩
  · have hrefused : k₁ = (k₀.entered (.awaitIo issue)).refuse .invalidState :=
      Except.ok.inj (h.called.symm.trans (hhalted.call_eq rfl))
    have harrival : Arrival.returned (.ok (.result r)) =
        (.returned (.error .invalidState) : Arrival ε) :=
      hreturning (.leaving (by rw [hrefused]; exact h.current) (by rw [hrefused]; rfl) rfl)
    cases harrival
  · have hgoing := hcalling.going
    have hmoved : Moved (.call (.awaitIo issue)) k₀ k₁ :=
      h.reachable.sound.moved h.program h.called
    obtain rfl := Option.some.inj (h.current.symm.trans hcalling.current)
    cases issue with
    | raising interrupts =>
      have hawaited := h.awaited hgoing hduring hquiet
      obtain ⟨_, hsame, hfirst⟩ := hawaited.returns hcurrent _ hreturned
      cases hsame
      have hgoing₁ : k₁.stopped = false := by
        cases hmoved.effect with
        | still _ _ hsame _ _ => exact hsame.trans hgoing
        | turn _ _ hturn => exact hturn.stopped.trans hgoing
        | shutdown _ _ _ _ _ _ _ _ hmove => cases hmove
      exact ⟨hgoing, h.sound.going_of_quiet hgoing₁ hduring hquiet hcurrent, hawaited.waiting,
        hfirst⟩
    | reentrant =>
      have hcalled := h.called
      change k₀.inSection _ = _ at hcalled
      rw [hcalling.inSection_eq, hcalling.serving.awaitIo_reentrant] at hcalled
      obtain rfl := Except.ok.inj hcalled
      have harrival := hreturning (.arrived h.current rfl)
      cases harrival

end CoopKernel.Kernel
