import CoopKernel.Proofs.Kernel.Attempts

/-!
# Allocation with waiting

A call that asks for memory that can wait makes any number of attempts, and while its thread waits
others may do what they like: take what was released for it, release more, or remove the pool. The
attempts of a run are kept (`Kernel.attempts`), each as the kernels before and after it. All but the
last one have left the thread waiting, and the last one says where the call is now
(`Kernel.Allocating`). So the answer is that of a single attempt, and what it says of the pool was
true at that moment (`Kernel.Allocation`).
-/

namespace CoopKernel.Kernel

variable {ε : Type} {W W' : PoolId → Prop} {k k' k₀ k₁ k₂ : Kernel ε} {id : ThreadId}
  {t : Thread (Position ε)} {d : Demand ε} {answer : Answer} {request : Call ε} {move : Move ε}
  {moves during : List (Move ε)} {made : List (Kernel ε × Kernel ε)}

/-- The attempt that a thread makes in a move, if it makes one: the kernels before and after it. -/
def attempted (k k' : Kernel ε) (id : ThreadId) (move : Move ε) : List (Kernel ε × Kernel ε) :=
  if k.sched.current = some id ∧ (k.tries move).isSome then [(k, k')] else []

/-- The attempts that a thread makes in a run, in order. -/
def attempts (k : Kernel ε) (id : ThreadId) : List (Move ε) → List (Kernel ε × Kernel ε)
  | [] => []
  | move :: rest => ((k.perform move).toOption.map fun k' =>
      k.attempted k' id move ++ k'.attempts id rest).getD []

theorem attempts_cons (hperform : k.perform move = .ok k') :
    k.attempts id (move :: moves) = k.attempted k' id move ++ k'.attempts id moves := by
  rw [Kernel.attempts, hperform]
  rfl

/-- The attempt that is made in the last move of a run is the last one. -/
theorem attempts_concat (hplay : k.play moves = some k') (hperform : k'.perform move = .ok k₂) :
    k.attempts id (moves ++ [move]) = k.attempts id moves ++ k'.attempted k₂ id move :=
  collect_concat (fun _ => rfl) attempts_cons hplay hperform

theorem attempted_of_away (hnot : k.sched.current ≠ some id) (k' : Kernel ε) (move : Move ε) :
    k.attempted k' id move = [] :=
  if_neg fun h => hnot h.1

theorem attempted_of_tries (hcurrent : k.sched.current = some id) (htries : k.tries move = some d)
    (k' : Kernel ε) : k.attempted k' id move = [(k, k')] :=
  if_pos ⟨hcurrent, by rw [htries]; rfl⟩

theorem attempted_of_tries_eq_none (htries : k.tries move = none) (k' : Kernel ε) :
    k.attempted k' id move = [] :=
  if_neg fun h => by simp [htries] at h

/-! ## Stages -/

/-- The last of some attempts of a thread has come to an answer, and the others have left it
waiting. -/
structure Answered (id : ThreadId) (d : Demand ε) (made : List (Kernel ε × Kernel ε))
    (answer : Answer) : Prop where
  again : ∀ attempt ∈ made.dropLast, attempt.2.Starves id d
  left : ∃ last ∈ made.getLast?, last.2.Leaves id answer

/-- The answer is that of the only attempt that has come to one. -/
theorem Answered.iff (h : Answered id d made answer) {other : Answer} :
    answer = other ↔ ∃ attempt ∈ made, attempt.2.Leaves id other := by
  obtain ⟨last, hlast, hleft⟩ := h.left
  constructor
  · rintro rfl
    exact ⟨last, List.mem_of_mem_getLast? hlast, hleft⟩
  · rintro ⟨attempt, hmem, hleaves⟩
    rw [← List.dropLast_append_getLast? last hlast, List.mem_append, List.mem_singleton] at hmem
    rcases hmem with hearlier | rfl
    · exact absurd (h.again attempt hearlier) hleaves.not_starves
    · exact hleft.iff.mp hleaves

/-- How far the request of a thread has come, after some attempts. -/
inductive Allocating (id : ThreadId) (d : Demand ε) (made : List (Kernel ε × Kernel ε))
    (k : Kernel ε) : Prop
  /-- Each has left the thread waiting. It still waits, or will try again as soon as it runs. -/
  | pending {t : Thread (Position ε)} (hgoing : k.stopped = false)
    (hstands : k.standing id = some t) (halive : t.state ≠ .dead)
    (hposition : t.position = some d.position)
    (hstarved : ∀ attempt ∈ made, attempt.2.Starves id d)
  /-- The last one has come to an answer, with which the thread returns. -/
  | answered {answer : Answer} (hanswered : Answered id d made answer)
    (hreturning : k.Returning id (.returned answer))
  /-- The kernel was shut down while the thread waited. -/
  | ended (hstopped : k.stopped = true) (hcurrent : k.sched.current ≠ some id)
    (hstarved : ∀ attempt ∈ made, attempt.2.Starves id d)

/-- What an attempt comes to is the next stage. -/
theorem Attempt.allocating {pools : Memory.Pools} (h : Attempt pools k' id d)
    (hsound' : k'.Sound W') (hgoing : k'.stopped = false)
    (hstarved : ∀ attempt ∈ made, attempt.2.Starves id d) :
    Allocating id d (made ++ [(k, k')]) k' := by
  rcases h.concluded with hstarves | ⟨answer, hleaves⟩
  · obtain ⟨t, ht, hwaiting, -, hposition⟩ := hstarves.waits
    have hstands := (standing_eq (hsound'.not_running hstarves.away)).trans ht
    refine .pending hgoing hstands (by simp [hwaiting]) hposition fun attempt hmem => ?_
    rcases List.mem_append.mp hmem with hearlier | hlast
    · exact hstarved attempt hearlier
    · rw [List.mem_singleton.mp hlast]
      exact hstarves
  · exact .answered ⟨by simpa using hstarved, (k, k'), by simp, hleaves⟩
      (.leaving hleaves.current (by rw [hleaves.activity]; rfl) rfl)

/-- A thread that has the processor while its request is pending tries it. -/
theorem Sound.tries_of_standing (h : k.Sound W) (hgoing : k.stopped = false)
    (hcurrent : k.sched.current = some id) (hstands : k.standing id = some t)
    (hposition : t.position = some d.position) : k.tries .advance = some d := by
  obtain ⟨_, _, -, -, -, -, hhere⟩ := h.standing_current hgoing hcurrent hstands
  exact tries_advance_iff.mpr (Activity.eq_resuming (hhere.symm.trans hposition))

/-- Nobody tries anything on the way back to its program. -/
theorem Returning.tries_eq_none {arrival : Arrival ε} (h : k.Returning id arrival)
    (hcurrent : k.sched.current = some id) (hmove : move.ofProgram = false) :
    k.tries move = none := by
  cases move with
  | call _ => cases hmove
  | exit => rfl
  | raise _ => rfl
  | bypass => rfl
  | advance =>
    cases htries : k.tries .advance with
    | none => rfl
    | some d =>
      have hactivity := tries_advance_iff.mp htries
      cases h with
      | parked _ hnot _ _ _ _ => exact absurd hcurrent hnot
      | ended _ hnot => exact absurd hcurrent hnot
      | leaving _ hposition harrival =>
        rw [hactivity] at hposition
        obtain rfl := Option.some.inj hposition
        cases harrival
      | arrived _ hsame => cases hsame.symm.trans hactivity
      | back _ hsame => cases hsame.symm.trans hactivity

/-- While a request is pending, its thread does nothing but to try it again. -/
theorem Sound.attempted_pending (h : k.Sound W) (hgoing : k.stopped = false)
    (hcurrent : k.sched.current = some id) (hstands : k.standing id = some t)
    (hposition : t.position = some d.position) (hallowed : k.allows move = true)
    (hperform : k.perform move = .ok k') :
    k.attempted k' id move = [] ∧ k'.stopped = k.stopped ∧ k'.standing id = some t ∨
      move = .advance ∧ k.attempted k' id move = [(k, k')] ∧ Attempt k.pools k' id d ∧
        k.pools.Fits d.pool d.size := by
  have htries := h.tries_of_standing hgoing hcurrent hstands hposition
  rcases raised_or_resumed (tries_advance_iff.mp htries) hallowed hperform with
    ⟨interrupt, rfl, rfl⟩ | ⟨rfl, -⟩
  · exact .inl ⟨attempted_of_tries_eq_none rfl _, rfl, hstands⟩
  · exact .inr ⟨rfl, attempted_of_tries hcurrent htries _,
      h.attempt hgoing hcurrent hallowed hperform htries, h.fits_of_tries hgoing htries⟩

/-- Every move takes a request from stage to stage, and an attempt that is made in it is of the
request, which its pool can meet. -/
theorem Allocating.moved (h : Allocating id d made k) (hsound : k.Sound W) (hsound' : k'.Sound W')
    (hallowed : k.allows move = true) (hperform : k.perform move = .ok k')
    (hrule : quiet id k move = true) :
    Allocating id d (made ++ k.attempted k' id move) k' ∧
      ∀ attempt ∈ k.attempted k' id move,
        Attempt attempt.1.pools attempt.2 id d ∧ attempt.1.pools.Fits d.pool d.size := by
  have hmoved := hsound.moved hallowed hperform
  obtain ⟨hpassive, hlives⟩ := (quiet_iff hperform).mp hrule
  cases h with
  | ended hstopped hnot hstarved =>
    obtain ⟨hstopped', hcurrent⟩ := hmoved.stopped hstopped
    rw [attempted_of_away hnot, List.append_nil]
    exact ⟨.ended hstopped' (hcurrent ▸ hnot) hstarved, by simp⟩
  | answered hanswered hreturning =>
    have hnone : k.attempted k' id move = [] := by
      by_cases hcurrent : k.sched.current = some id
      · exact attempted_of_tries_eq_none (hreturning.tries_eq_none hcurrent (hpassive hcurrent)) k'
      · exact attempted_of_away hcurrent k' move
    rw [hnone, List.append_nil]
    exact ⟨.answered hanswered (hreturning.moved hsound hsound' hallowed hperform hrule), by simp⟩
  | @pending t hgoing hstands halive hposition hstarved =>
    by_cases hcurrent : k.sched.current = some id
    · rcases hsound.attempted_pending hgoing hcurrent hstands hposition hallowed hperform with
        ⟨hnone, hstopped, hstands'⟩ | ⟨rfl, hone, hattempt, hfits⟩
      · rw [hnone, List.append_nil]
        exact ⟨.pending (hstopped.trans hgoing) hstands' halive hposition hstarved, by simp⟩
      · rw [hone]
        have hgoing' := hmoved.going_on hgoing (by simp)
        exact ⟨hattempt.allocating hsound' hgoing' hstarved, by simpa using ⟨hattempt, hfits⟩⟩
    · rw [attempted_of_away hcurrent, List.append_nil]
      refine ⟨?_, by simp⟩
      rcases hmoved.stands hsound hgoing hcurrent hstands halive hlives with
        ⟨hgoing', t', hstands', halive', hsame, -⟩ | ⟨hstopped, hnot⟩
      · exact .pending hgoing' hstands' halive' (hsame.trans hposition) hstarved
      · exact .ended hstopped hnot hstarved

theorem Allocating.run (h : Allocating id d made k₁) (hsound : k₁.Sound W)
    (hplay : k₁.play moves = some k) (hquiet : k₁.follows (quiet id) moves = true) :
    Allocating id d (made ++ k₁.attempts id moves) k ∧ ∀ attempt ∈ k₁.attempts id moves,
      Attempt attempt.1.pools attempt.2 id d ∧ attempt.1.pools.Fits d.pool d.size := by
  refine hsound.play_induction (P := fun moves k => k₁.follows (quiet id) moves = true →
    Allocating id d (made ++ k₁.attempts id moves) k ∧ ∀ attempt ∈ k₁.attempts id moves,
      Attempt attempt.1.pools attempt.2 id d ∧ attempt.1.pools.Fits d.pool d.size)
    hplay (fun _ => ⟨?_, by simp [Kernel.attempts]⟩) ?_ hquiet
  · rwa [Kernel.attempts, List.append_nil]
  · intro before move last next hbefore hlast hallowed hperform hnext ih hquiet
    obtain ⟨hquiet, hrule⟩ := (follows_concat hbefore hperform).mp hquiet
    obtain ⟨hstage, hexact⟩ := ih hquiet
    obtain ⟨hstage', hexact'⟩ := hstage.moved hlast hnext hallowed hperform hrule
    rw [attempts_concat hbefore hperform, ← List.append_assoc]
    exact ⟨hstage', List.forall_mem_append.mpr ⟨hexact, hexact'⟩⟩

/-- Whatever has become of the request, the thread was left waiting before. -/
theorem Allocating.again (h : Allocating id d made k) :
    ∀ attempt ∈ made.dropLast, attempt.2.Starves id d := by
  cases h with
  | answered hanswered _ => exact hanswered.again
  | pending _ _ _ _ hstarved | ended _ _ hstarved =>
    exact fun attempt hmem => hstarved attempt (List.dropLast_subset _ hmem)

/-- A thread that was only left waiting tries again when it runs. -/
theorem Allocating.retries (h : Allocating id d made k) (hsound : k.Sound W)
    (hstarved : ∀ attempt ∈ made, attempt.2.Starves id d) (hcurrent : k.sched.current = some id) :
    k.stopped = false ∧ k.tries .advance = some d := by
  cases h with
  | pending hgoing hstands _ hposition _ =>
    exact ⟨hgoing, hsound.tries_of_standing hgoing hcurrent hstands hposition⟩
  | answered hanswered _ =>
    obtain ⟨last, hlast, hleft⟩ := hanswered.left
    exact absurd (hstarved last (List.mem_of_mem_getLast? hlast)) hleft.not_starves
  | ended _ hnot _ => exact absurd hcurrent hnot

/-- Whoever arrives, arrives with an answer to its request. -/
theorem Allocating.of_arriving (h : Allocating id d made k) (hsound : k.Sound W)
    (hcurrent : k.sched.current = some id) {arrival : Arrival ε}
    (hactivity : k.activity = .arriving arrival) :
    ∃ answer, arrival = .returned answer ∧ Answered id d made answer := by
  cases h with
  | pending hgoing hstands _ hposition _ =>
    have htries := hsound.tries_of_standing hgoing hcurrent hstands hposition
    cases hactivity.symm.trans (tries_advance_iff.mp htries)
  | answered hanswered hreturning =>
    exact ⟨_, hreturning.eq_of_arriving hcurrent hactivity, hanswered⟩
  | ended _ hnot _ => exact absurd hcurrent hnot

/-! ## Calls -/

/-- What the answer to a call that asked for memory says. -/
structure Verdict (k₀ : Kernel ε) (id : ThreadId) (d : Demand ε) (made : List (Kernel ε × Kernel ε))
    (answer : Answer) : Prop where
  /-- It is the answer with which the last attempt has left the section. -/
  left : ∃ last ∈ made.getLast?, last.2.Leaves id answer
  /-- If it says that the request was met, the request was met as the section was left. -/
  obtained : ∀ reply, answer = .ok reply →
    ∃ last ∈ made.getLast?, ∃ address books, last.2.Obtains id d reply address books
  /-- It says that the request makes no sense exactly if nothing was asked for. -/
  empty : answer = .error .invalidParameter ↔ d.size = 0
  /-- It says that the request cannot be met exactly if the pool was there when the call was made,
  and could not have met it even with nothing live in it. -/
  hopeless : answer = .error .insufficientResources ↔ 0 < d.size ∧
    ∃ books, k₀.pools.registry.get? d.pool = some books ∧ ¬ books.Capable d.size
  /-- It says that the pool is not there exactly if it was not there at one of the attempts. -/
  unknown : answer = .error .invalidId ↔ 0 < d.size ∧
    ∃ attempt ∈ made, attempt.1.pools.registry.get? d.pool = none

/-- What has become of a call that asks for memory, at some moment until which its thread has lived
and its program has made no other move. -/
structure Allocation (k₀ k₂ : Kernel ε) (id : ThreadId) (d : Demand ε)
    (made : List (Kernel ε × Kernel ε)) : Prop where
  /-- Each attempt is settled by the pools as they were at that moment, ... -/
  exact : ∀ attempt ∈ made, Attempt attempt.1.pools attempt.2 id d
  /-- ... and another one is made only after the thread has waited. -/
  again : ∀ attempt ∈ made.dropLast, attempt.2.Starves id d
  /-- As long as every attempt has left it waiting, the thread tries again when it is resumed. -/
  retries : (∀ attempt ∈ made, attempt.2.Starves id d) → k₂.sched.current = some id →
    k₂.activity = .resuming (.allocate d.pool d.size d.purpose) ∧
      ∃ k₃, k₂.advance = .ok k₃ ∧ Attempt k₂.pools k₃ id d
  /-- Nothing comes to the program but an answer, and what it says is true. -/
  returns : ∀ arrival, k₂.sched.current = some id → k₂.activity = .arriving arrival →
    ∃ answer, arrival = .returned answer ∧ Verdict k₀ id d made answer

/-- An answer is true if every attempt was settled by the pools, and the pool could meet the request
whenever it was tried again. -/
theorem Answered.verdict (h : Answered id d ((k₀, k₁) :: made) answer)
    (hfirst : Attempt k₀.pools k₁ id d)
    (hlater : ∀ attempt ∈ made, Attempt attempt.1.pools attempt.2 id d ∧
      attempt.1.pools.Fits d.pool d.size) : Verdict k₀ id d ((k₀, k₁) :: made) answer := by
  have hexact : ∀ attempt ∈ (k₀, k₁) :: made, Attempt attempt.1.pools attempt.2 id d :=
    List.forall_mem_cons.mpr ⟨hfirst, fun attempt hmem => (hlater attempt hmem).1⟩
  refine ⟨h.left, ?_, ?_, ?_, ?_⟩
  · rintro reply rfl
    obtain ⟨last, hlast, hleft⟩ := h.left
    exact ⟨last, hlast, (hexact last (List.mem_of_mem_getLast? hlast)).obtained reply hleft⟩
  · rw [h.iff]
    exact ⟨fun ⟨attempt, hmem, hleaves⟩ => (hexact attempt hmem).empty.mp hleaves,
      fun hsize => ⟨_, List.mem_cons_self, hfirst.empty.mpr hsize⟩⟩
  · rw [h.iff]
    refine ⟨fun ⟨attempt, hmem, hleaves⟩ => ?_,
      fun hhopeless => ⟨_, List.mem_cons_self, hfirst.hopeless.mpr hhopeless⟩⟩
    rcases List.mem_cons.mp hmem with rfl | hretry
    · exact hfirst.hopeless.mp hleaves
    · -- Nobody waits for what cannot be met.
      obtain ⟨hattempt, -, -, hfits⟩ := hlater attempt hretry
      obtain ⟨hsize, books, hbooks, hincapable⟩ := hattempt.hopeless.mp hleaves
      exact absurd ((books.canEverFit_iff hsize).mp (hfits books hbooks)) hincapable
  · rw [h.iff]
    constructor
    · rintro ⟨attempt, hmem, hleaves⟩
      obtain ⟨hsize, hnone⟩ := (hexact attempt hmem).unknown.mp hleaves
      exact ⟨hsize, attempt, hmem, hnone⟩
    · rintro ⟨hsize, attempt, hmem, hnone⟩
      exact ⟨attempt, hmem, (hexact attempt hmem).unknown.mpr ⟨hsize, hnone⟩⟩

/-- A call that asks for memory makes its first attempt at once. -/
theorem Sound.begins_allocating (h : k₀.Sound W) (hgoing : k₀.stopped = false)
    (hprogram : k₀.inProgram = true) (hcurrent : k₀.sched.current = some id)
    (hdemand : k₀.demand request = some d) : ∃ k₁, k₀.call request = .ok k₁ ∧
      k₁.Sound (fun _ => False) ∧ Attempt k₀.pools k₁ id d ∧ Allocating id d [(k₀, k₁)] k₁ := by
  obtain ⟨k₁, hcalled, -⟩ := h.call (inProgram_iff.mp hprogram) request
  have hallowed := allows_call request hprogram
  have hsound := h.performed hallowed hcalled
  have hattempt := h.attempt hgoing hcurrent hallowed hcalled hdemand
  have hgoing' := (h.moved hallowed hcalled).going_on hgoing fun hmove => by
    obtain rfl := Move.call.inj hmove
    cases hdemand
  exact ⟨k₁, hcalled, hsound, hattempt, hattempt.allocating hsound hgoing' (List.forall_mem_nil _)⟩

/-- Whatever others do meanwhile, a call that asks for memory waits, tries again and answers exactly
as the pool demands. -/
theorem Reachable.allocation (h : k₀.Reachable) (hgoing : k₀.stopped = false)
    (hprogram : k₀.inProgram = true) (hcurrent : k₀.sched.current = some id)
    (hdemand : k₀.demand request = some d) : ∃ k₁, k₀.call request = .ok k₁ ∧
      ∀ during k₂, k₁.play during = some k₂ → k₁.follows (quiet id) during = true →
        Allocation k₀ k₂ id d ((k₀, k₁) :: k₁.attempts id during) := by
  obtain ⟨k₁, hcalled, hsound, hfirst, hbegun⟩ :=
    h.sound.begins_allocating hgoing hprogram hcurrent hdemand
  refine ⟨k₁, hcalled, fun during k₂ hduring hquiet => ?_⟩
  have hsound₂ := hsound.play hduring
  obtain ⟨hstage, hlater⟩ := hbegun.run hsound hduring hquiet
  refine ⟨List.forall_mem_cons.mpr ⟨hfirst, fun attempt hmem => (hlater attempt hmem).1⟩,
    hstage.again, fun hstarved hcurrent₂ => ?_, fun arrival hcurrent₂ hactivity => ?_⟩
  · obtain ⟨hgoing₂, htries⟩ := hstage.retries hsound₂ hstarved hcurrent₂
    obtain ⟨k₃, hadvance, -⟩ := hsound₂.advance
    exact ⟨tries_advance_iff.mp htries, k₃, hadvance,
      hsound₂.attempt hgoing₂ hcurrent₂ (allows_advance k₂) hadvance htries⟩
  · obtain ⟨answer, hsame, hanswered⟩ := hstage.of_arriving hsound₂ hcurrent₂ hactivity
    exact ⟨answer, hsame, hanswered.verdict hfirst hlater⟩

/-- A pool of 128 bytes in which the main thread has two allocations. Thread 3 outranks it. -/
def tight : List (Move Unit) :=
  answered (.poolCreate 4096 128) ++ answered (.allocate ⟨3⟩ 64) ++ answered (.allocate ⟨3⟩ 64) ++
    answered (.threadCreate () 4096 .high) ++ [.call (.threadActivate ⟨3⟩), .advance, .advance]

/-- The main thread releases one allocation, and after a while the other one. -/
def loosened : List (Move Unit) :=
  [.advance, .advance, .advance, .call (.free ⟨3⟩ 4096), .advance, .advance, .advance, .advance,
    .call (.free ⟨3⟩ 4160), .advance, .advance]

/-- Thread 3 asks for the whole pool. It tries again after the first release, waits once more, and
has the pool after the second one. -/
theorem Reachable.allocation_tight : ∃ k₀ k₁ k₂ : Kernel Unit, afterRun {} {} tight = some k₀ ∧
    k₀.call (.allocateBlocking ⟨3⟩ 128) = .ok k₁ ∧ k₁.play loosened = some k₂ ∧
    (k₁.attempts ⟨3⟩ loosened).length = 2 ∧ k₂.sched.current = some ⟨3⟩ ∧
    k₂.activity = .arriving (.returned (.ok (.address 4096))) ∧
    Allocation k₀ k₂ ⟨3⟩ ⟨⟨3⟩, 128, .address⟩ ((k₀, k₁) :: k₁.attempts ⟨3⟩ loosened) := by
  have hbefore : (afterRun {} {} tight).map (fun k : Kernel Unit =>
      (k.stopped, k.inProgram, k.sched.current)) = some (false, true, some ⟨3⟩) := by
    decide +kernel
  have hcalls : (afterRun {} {} (tight ++ [.call (.allocateBlocking ⟨3⟩ 128)])).map
      (fun k : Kernel Unit => ((k.attempts ⟨3⟩ loosened).length,
        k.follows (quiet ⟨3⟩) loosened)) = some (2, true) := by
    decide +kernel
  have hreturns : ((afterRun {} {} (tight ++ [.call (.allocateBlocking ⟨3⟩ 128)])).bind
      fun k : Kernel Unit => (k.play loosened).map fun k' =>
        (k'.sched.current, k'.answer?)) = some (some ⟨3⟩, some (.ok (.address 4096))) := by
    decide +kernel
  obtain ⟨k₀, hk₀, hfacts⟩ := Option.map_eq_some_iff.mp hbefore
  obtain ⟨hgoing, hprogram, hcurrent⟩ : k₀.stopped = false ∧ k₀.inProgram = true ∧
      k₀.sched.current = some ⟨3⟩ := by simpa using hfacts
  have hdemand : k₀.demand (.allocateBlocking ⟨3⟩ 128) = some ⟨⟨3⟩, 128, .address⟩ := rfl
  obtain ⟨k₁, hcalled, hlaw⟩ :=
    Reachable.allocation (reachable_of_afterRun hk₀) hgoing hprogram hcurrent hdemand
  obtain ⟨first, hstart, hplay⟩ := afterRun_eq_some hk₀
  have hk₁ : afterRun {} {} (tight ++ [.call (.allocateBlocking ⟨3⟩ 128)]) = some k₁ := by
    rw [afterRun, hstart]
    exact play_concat_iff.mpr ⟨k₀, hplay, hprogram, hcalled⟩
  rw [hk₁, Option.map_some, Option.some.injEq, Prod.mk.injEq] at hcalls
  rw [hk₁, Option.bind_some] at hreturns
  obtain ⟨k₂, hk₂, hfacts⟩ := Option.map_eq_some_iff.mp hreturns
  obtain ⟨hcurrent₂, hanswer⟩ := Prod.mk.inj hfacts
  exact ⟨k₀, k₁, k₂, hk₀, hcalled, hk₂, hcalls.1, hcurrent₂, answer?_eq_some.mp hanswer,
    hlaw loosened k₂ hk₂ hcalls.2⟩

end CoopKernel.Kernel
