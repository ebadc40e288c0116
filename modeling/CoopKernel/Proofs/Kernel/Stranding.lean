import Mathlib.Data.List.Induction
import CoopKernel.Proofs.Kernel.Consistency

/-!
# Threads that are left waiting for memory

A release wakes one thread that waits for the pool, and counts on it: it is not the release that
allocates, but the woken thread when it tries again. If that thread is terminated first, nobody
tries again, and the others that wait for the pool may be left behind although all of the pool is
free (`exists_stranded`).

Nothing else leaves a thread behind. If a quiescent kernel has a thread that waits for a free pool,
then the run that led there terminated a thread that was about to try the pool again, and from then
on the pool was stranded in every state (`stranded_iff_forsaken`). The proof follows coverage
(`Kernel.Covered`) along the run: every move keeps it but such a termination, and a pool that is not
stranded is covered.
-/

namespace CoopKernel.Kernel

variable {ε : Type} {W : PoolId → Prop} {k k' first : Kernel ε} {pool : PoolId} {move : Move ε}
  {moves : List (Move ε)}

/-- Every thread but the idle one waits or is dead. -/
def Quiescent (k : Kernel ε) : Prop :=
  ∀ id t, k.sched.threads.get? id = some t → id ≠ k.idle → t.state = .waiting ∨ t.state = .dead

/-- Some thread is queued for memory of a pool. -/
def InDemand (k : Kernel ε) (pool : PoolId) : Prop :=
  ∃ id p, (id, pool) ∈ k.pools.waiters.level p

/-- Threads wait for memory of a pool that is all free, and nobody is about to try the pool
again. -/
structure Stranded (k : Kernel ε) (pool : PoolId) : Prop where
  inDemand : k.InDemand pool
  free : ¬ k.pools.Occupied pool
  forgotten : ¬ k.sched.Retried pool
  untried : ¬ k.activity.Retries pool

/-- A run has terminated a thread that was about to try a pool again, and has left the pool stranded
ever since. -/
def Forsaken (first : Kernel ε) (moves : List (Move ε)) (pool : PoolId) : Prop :=
  ∃ before id after k₁ k₂, moves = before ++ .call (.threadTerminate id) :: after ∧
    first.play before = some k₁ ∧ k₁.Drops id pool ∧ k₁.call (.threadTerminate id) = .ok k₂ ∧
    ∀ passed k', passed <+: after → k₂.play passed = some k' → k'.Stranded pool

/-! ## Covered or stranded -/

theorem Runs.inDemand_iff {me : ThreadId} {t : Thread (Position ε)} (h : k.Runs W me t) :
    k.InDemand pool ↔ ∃ id p, k.sched.waits id = some (p, pool) := by
  simp only [InDemand, h.settled.waiting.mem_level]

/-- A pool that is not stranded is covered. -/
theorem Sound.covered_or_stranded (h : k.Sound W) (pool : PoolId) :
    k.Sound (· = pool) ∨ k.Stranded pool := by
  rcases h with hhalted | ⟨me, t, hruns, hrank, hposture⟩
  · exact .inl (.inl hhalted)
  · by_cases hstranded : k.Stranded pool
    · exact .inr hstranded
    · refine .inl (.inr ⟨me, t, ⟨hruns.going, ?_, hruns.current, hruns.record, hruns.running⟩,
        hrank, hposture⟩)
      refine { hruns.settled with covered := ?_ }
      rintro _ ⟨rfl, hidle⟩ hwaits
      by_contra hnone
      rw [not_or] at hnone
      exact hstranded ⟨hruns.inDemand_iff.mpr hwaits, hnone.1, hnone.2, hidle⟩

/-- A kernel that was shut down is not quiescent, for its main thread runs. -/
theorem Halted.not_quiescent (h : k.Halted) : ¬ k.Quiescent := by
  intro hquiescent
  have hupright := (show k.Sound (fun _ => False) from .inl h).upright
  obtain ⟨me, t, hcurrent, ht, hrunning, -⟩ := hupright.busy
  obtain ⟨s, _, -, hmain, -, -, -, hsched⟩ := h.frozen
  rw [hsched, current_foldl_forgetPosition, hmain, Option.some.injEq] at hcurrent
  subst hcurrent
  have hstate := hquiescent k.main t ht hupright.roles.apart
  rw [hrunning] at hstate
  simp at hstate

/-- In a quiescent kernel nobody is about to try a pool again, so if a pool is covered and somebody
waits for it, then some of it is in use. -/
theorem Sound.occupied_of_quiescent (h : k.Sound (· = pool)) (hquiescent : k.Quiescent)
    (hdemand : k.InDemand pool) : k.pools.Occupied pool := by
  rcases h with hhalted | ⟨me, t, hruns, -, hposture⟩
  · exact absurd hquiescent hhalted.not_quiescent
  · have hidle : ∀ {id u}, k.sched.threads.get? id = some u → u.state ≠ .waiting →
        u.state ≠ .dead → id = k.idle := by
      intro id u hu hnotWaiting hnotDead
      by_contra hne
      exact (hquiescent id u hu hne).elim hnotWaiting hnotDead
    have hme : me = k.idle :=
      hidle hruns.record (by simp [hruns.running]) (by simp [hruns.running])
    -- Of those that could try again only the idle thread is left, and it does nothing but rest.
    have huntried : ¬ k.activity.Retries pool := by
      rcases hposture.rests hme with hresting | hdelivering
      · rw [hresting]
        exact fun hretries => hretries
      · rw [hdelivering]
        exact fun hretries => hretries
    refine (hruns.settled.covered ⟨rfl, huntried⟩ (hruns.inDemand_iff.mp hdemand)).resolve_right ?_
    rintro ⟨id, u, hu, hready, here, hhere, hretries⟩
    have hrest := hruns.settled.position_idle hu (hidle hu (by simp [hready]) (by simp [hready]))
    obtain rfl := Option.some.inj (hhere.symm.trans hrest)
    exact hretries

/-! ## Along a run -/

/-- Only a termination takes the last hope of a pool away. -/
theorem MoveDrops.exists (h : k.MoveDrops pool move) :
    ∃ id, move = .call (.threadTerminate id) ∧ k.Drops id pool := by
  cases move with
  | call request =>
    cases request with
    | threadTerminate id => exact ⟨id, rfl, h⟩
    | _ => exact absurd h fun hfalse => hfalse
  | _ => exact absurd h fun hfalse => hfalse

/-- Along a run a pool is covered, or some termination has left it forsaken. -/
theorem Sound.covered_or_forsaken (h : first.Sound fun _ => True)
    (hplay : first.play moves = some k) (pool : PoolId) :
    k.Sound (· = pool) ∨ Forsaken first moves pool := by
  -- From the end of the run, since it is the last move that may lose what the others have kept.
  induction moves using List.reverseRecOn generalizing k with
  | nil =>
    obtain rfl := Option.some.inj hplay
    exact .inl (h.weaken fun _ => trivial)
  | append_singleton moves move ih =>
    obtain ⟨last, hlast, hallowed, hperform⟩ := play_concat_iff.mp hplay
    refine ((h.play hplay).covered_or_stranded pool).elim .inl fun hstranded => ?_
    rcases ih hlast with hcovered | ⟨before, id, after, k₁, k₂, rfl, hbefore, hdrops, hcall, hsince⟩
    · obtain ⟨_, heq, hsound⟩ := hcovered.perform hallowed
      obtain rfl := Except.ok.inj (hperform.symm.trans heq)
      by_cases hdrops : last.MoveDrops pool move
      · -- This is the termination, and nothing has happened since.
        obtain ⟨id, rfl, hdrops⟩ := hdrops.exists
        refine .inr ⟨moves, id, [], last, k, rfl, hlast, hdrops, hperform, ?_⟩
        intro passed k' hpassed hk'
        obtain rfl := List.prefix_nil.mp hpassed
        obtain rfl := Option.some.inj hk'
        exact hstranded
      · refine .inl (hsound.weaken ?_)
        rintro _ rfl
        exact ⟨rfl, hdrops⟩
    · -- The termination was earlier, and the pool is stranded after one more move.
      refine .inr ⟨before, id, after ++ [move], k₁, k₂, by simp, hbefore, hdrops, hcall, ?_⟩
      intro passed k' hpassed hk'
      rcases List.prefix_concat_iff.mp hpassed with rfl | hpassed
      · rw [List.append_assoc, List.cons_append] at hplay
        obtain rfl := Option.some.inj ((play_of_split hplay hbefore hcall).symm.trans hk')
        exact hstranded
      · exact hsince passed k' hpassed hk'

/-! ## A wake-up that is lost -/

/-- Two threads wait for a pool of one block. The block is released, which wakes the first of them,
and the main thread terminates it before it can try again and goes to sleep. -/
def lostWakeUp : List (Move Unit) :=
  answered (.poolCreate 4096 64) ++ answered (.allocate ⟨3⟩ 64) ++
    answered (.threadCreate () 4096 .low) ++ answered (.threadCreate () 4096 .low) ++
    answered (.threadActivate ⟨3⟩) ++ answered (.threadActivate ⟨4⟩) ++
    [.call (.sleep (.ticks 1)), .advance, .advance, .call (.allocateBlocking ⟨3⟩ 64)] ++
    [.advance, .advance, .call (.allocateBlocking ⟨3⟩ 64), .advance] ++
    [.raise .tick, .advance, .advance, .advance, .advance, .advance] ++
    answered (.free ⟨3⟩ 4096) ++ answered (.threadTerminate ⟨3⟩) ++ [.call (.sleep (.ticks 5))]

/-- In the end everybody but the idle thread is dead or waits, the second thread for the block. -/
theorem afterRun_lostWakeUp : ∃ k, afterRun {} {} lostWakeUp = some k ∧ k.Quiescent ∧
    k.InDemand ⟨3⟩ ∧ ¬ k.pools.Occupied ⟨3⟩ := by
  have hthreads : (afterRun {} {} lostWakeUp).map (fun k : Kernel Unit => (k.idle,
      k.sched.threads.entries.map fun entry => (entry.1, entry.2.state))) =
        some (⟨2⟩, [(⟨1⟩, .waiting), (⟨2⟩, .running), (⟨3⟩, .dead), (⟨4⟩, .waiting)]) := by
    decide +kernel
  have hpools : (afterRun {} {} lostWakeUp).map (fun k : Kernel Unit => (k.pools.waiters.low,
      (k.pools.registry.get? ⟨3⟩).map (·.live.isEmpty))) = some ([(⟨4⟩, ⟨3⟩)], some true) := by
    decide +kernel
  obtain ⟨k, hk, hthreads⟩ := Option.map_eq_some_iff.mp hthreads
  obtain ⟨hidle, hstates⟩ := Prod.mk.inj hthreads
  rw [hk, Option.map_some, Option.some.injEq] at hpools
  obtain ⟨hwaiters, hlive⟩ := Prod.mk.inj hpools
  refine ⟨k, hk, ?_, ⟨⟨4⟩, .low, ?_⟩, ?_⟩
  · intro id t ht hne
    have hentry := List.mem_map_of_mem (f := fun entry => (entry.1, entry.2.state))
      (Registry.mem_entries_of_get? ht)
    rw [hstates] at hentry
    rw [hidle] at hne
    simp only [List.mem_cons, Prod.mk.injEq, List.not_mem_nil, or_false] at hentry
    rcases hentry with ⟨-, hwaiting⟩ | ⟨rfl, -⟩ | ⟨-, hdead⟩ | ⟨-, hwaiting⟩
    · exact .inl hwaiting
    · exact absurd rfl hne
    · exact .inr hdead
    · exact .inl hwaiting
  · rw [LevelQueue.level, hwaiters]
    exact List.mem_cons_self
  · rintro ⟨books, hbooks, hnonempty⟩
    rw [hbooks, Option.map_some, Option.some.injEq, List.isEmpty_iff] at hlive
    exact hnonempty hlive

/-- A thread can be left waiting for a pool that is all free, with nobody to try again. -/
theorem exists_stranded : ∃ k : Kernel Unit, afterRun {} {} lostWakeUp = some k ∧ k.Reachable ∧
    k.Quiescent ∧ k.InDemand ⟨3⟩ ∧ ¬ k.pools.Occupied ⟨3⟩ := by
  obtain ⟨k, hk, hquiescent, hdemand, hfree⟩ := afterRun_lostWakeUp
  exact ⟨k, hk, reachable_of_afterRun hk, hquiescent, hdemand, hfree⟩

/-! ## When a wake-up is lost -/

/-- In a quiescent kernel, a thread waits for a pool that is all free exactly if some termination
has left the pool forsaken. -/
theorem stranded_iff_forsaken {config : Config} {arena : Arena}
    (hstart : start config arena = .ok first) (hplay : first.play moves = some k)
    (hquiescent : k.Quiescent) (pool : PoolId) :
    k.InDemand pool ∧ ¬ k.pools.Occupied pool ↔ Forsaken first moves pool := by
  constructor
  · rintro ⟨hdemand, hfree⟩
    refine ((start_sound hstart).covered_or_forsaken hplay pool).resolve_left fun hcovered => ?_
    exact hfree (hcovered.occupied_of_quiescent hquiescent hdemand)
  · rintro ⟨before, id, after, k₁, k₂, rfl, hbefore, -, hcall, hsince⟩
    have hstranded := hsince after k (List.prefix_refl after) (play_of_split hplay hbefore hcall)
    exact ⟨hstranded.inDemand, hstranded.free⟩

theorem stranded_iff_forsaken_lostWakeUp : ∃ first k : Kernel Unit, start {} {} = .ok first ∧
    first.play lostWakeUp = some k ∧ k.Quiescent ∧
    (k.InDemand ⟨3⟩ ∧ ¬ k.pools.Occupied ⟨3⟩) ∧ Forsaken first lostWakeUp ⟨3⟩ := by
  obtain ⟨k, hk, hquiescent, hdemand, hfree⟩ := afterRun_lostWakeUp
  obtain ⟨first, hstart, hplay⟩ := afterRun_eq_some hk
  exact ⟨first, k, hstart, hplay, hquiescent, ⟨hdemand, hfree⟩,
    (stranded_iff_forsaken hstart hplay hquiescent ⟨3⟩).mp ⟨hdemand, hfree⟩⟩

end CoopKernel.Kernel
