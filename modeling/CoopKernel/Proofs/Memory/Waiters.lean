import Mathlib.Logic.Function.Basic
import CoopKernel.Memory.Waiters
import CoopKernel.Proofs.LevelQueue

/-!
# Threads in the memory queue

What each thread waits for is a function (`waits`), and the memory queue holds exactly what the
function says. Beginning a wait and ending one are updates of the function.

Serving and removing are searches of the levels that end with one entry erased
(`Waiters.nextFor?_erase`, `Waiters.remove?_erase`), whatever else is known of the queue.
-/

namespace CoopKernel.Memory

namespace Waiters

variable {waiters rest : Waiters} {thread : ThreadId} {pool : PoolId}

theorem nextFor?_eq_none : waiters.nextFor? pool = none ↔
    ∀ p thread, (thread, pool) ∉ waiters.level p := by
  rw [nextFor?, Option.map_eq_none_iff, LevelQueue.takeHighest?_eq_none]
  constructor
  · intro hnone p thread hmem
    simpa using hnone p (thread, pool) hmem
  · rintro hnone p ⟨thread, other⟩ hmem
    rw [beq_eq_false_iff_ne]
    rintro rfl
    exact hnone p thread hmem

theorem remove?_eq_none : waiters.remove? thread = none ↔
    ∀ p pool, (thread, pool) ∉ waiters.level p := by
  rw [remove?, Option.map_eq_none_iff, LevelQueue.takeLowest?_eq_none]
  constructor
  · intro hnone p pool hmem
    simpa using hnone p (thread, pool) hmem
  · rintro hnone p ⟨other, pool⟩ hmem
    rw [beq_eq_false_iff_ne]
    rintro rfl
    exact hnone p pool hmem

/-- Whoever is served is erased from a level above which nobody waits for the pool. -/
theorem nextFor?_erase (h : waiters.nextFor? pool = some (thread, rest)) :
    ∃ p, (thread, pool) ∈ waiters.level p ∧ rest = LevelQueue.erase waiters p (thread, pool) ∧
      ∀ p', p < p' → ∀ other, (other, pool) ∉ waiters.level p' := by
  obtain ⟨⟨⟨_, other⟩, _⟩, htaken, heq⟩ := Option.map_eq_some_iff.mp h
  obtain ⟨rfl, rfl⟩ := Prod.mk.inj heq
  obtain ⟨p, hmem, htest, hrest, habove⟩ := LevelQueue.takeHighest?_erase htaken
  obtain rfl : other = pool := by simpa using htest
  exact ⟨p, hmem, hrest, fun p' hlt other hother => by simpa using habove p' hlt _ hother⟩

/-- Whoever is removed is erased from some level. -/
theorem remove?_erase (h : waiters.remove? thread = some (pool, rest)) :
    ∃ p, (thread, pool) ∈ waiters.level p ∧
      rest = LevelQueue.erase waiters p (thread, pool) := by
  obtain ⟨⟨⟨other, _⟩, _⟩, htaken, heq⟩ := Option.map_eq_some_iff.mp h
  obtain ⟨rfl, rfl⟩ := Prod.mk.inj heq
  obtain ⟨p, hmem, htest, hrest⟩ := LevelQueue.takeLowest?_erase htaken
  obtain rfl : other = thread := by simpa using htest
  exact ⟨p, hmem, hrest⟩

end Waiters

/-- The memory queue holds each waiting thread once, at its level and with its pool. -/
structure Waiting (waits : ThreadId → Option (Priority × PoolId)) (waiters : Waiters) : Prop where
  mem_level : ∀ id pool p, (id, pool) ∈ waiters.level p ↔ waits id = some (p, pool)
  nodup : ∀ p, (waiters.level p).Nodup

namespace Waiting

variable {waits : ThreadId → Option (Priority × PoolId)} {waiters rest : Waiters} {id : ThreadId}
  {pool : PoolId} {p : Priority}

theorem enqueue (h : Waiting waits waiters) (hnone : waits id = none) (p : Priority)
    (pool : PoolId) :
    Waiting (Function.update waits id (some (p, pool))) (waiters.enqueue id p.rank pool) where
  mem_level := by
    intro other pool' p'
    rw [Waiters.enqueue, Priority.ofRank_rank, LevelQueue.mem_level_push, h.mem_level,
      Function.update_apply]
    grind
  nodup := by
    intro p'
    rw [Waiters.enqueue, Priority.ofRank_rank]
    refine LevelQueue.nodup_level_push (h.nodup p') ?_
    rw [h.mem_level, hnone]
    simp

/-- A waiting thread that is taken out of the queue waits no more. -/
theorem erase (h : Waiting waits waiters) (hwaits : waits id = some (p, pool)) :
    Waiting (Function.update waits id none) (LevelQueue.erase waiters p (id, pool)) where
  mem_level := by
    intro other pool' p'
    -- The thread has one priority, so it is at one level only.
    have honly : (id, pool) ∈ waiters.level p' → p' = p := by
      rw [h.mem_level, hwaits, Option.some.injEq, Prod.mk.injEq]
      exact fun hsame => hsame.1.symm
    rw [LevelQueue.mem_level_erase (h.nodup p) honly, h.mem_level, Function.update_apply, Ne,
      Prod.mk.injEq]
    grind
  nodup := fun _ => LevelQueue.nodup_level_erase (h.nodup _)

/-- Nobody is served if and only if nobody waits for the pool. -/
theorem nextFor?_eq_none (h : Waiting waits waiters) :
    waiters.nextFor? pool = none ↔ ∀ id p, waits id ≠ some (p, pool) := by
  rw [Waiters.nextFor?_eq_none, forall_comm]
  simp only [h.mem_level, ne_eq]

/-- The thread that is served waited for the pool, and no thread of a higher level did. -/
theorem nextFor?_eq_some (h : Waiting waits waiters)
    (hserved : waiters.nextFor? pool = some (id, rest)) :
    ∃ p, waits id = some (p, pool) ∧ Waiting (Function.update waits id none) rest ∧
      ∀ other p', waits other = some (p', pool) → p' ≤ p := by
  obtain ⟨p, hmem, rfl, habove⟩ := Waiters.nextFor?_erase hserved
  have hwaits := (h.mem_level _ _ p).mp hmem
  refine ⟨p, hwaits, h.erase hwaits, ?_⟩
  intro other p' hother
  rw [← Priority.not_lt]
  intro hlt
  exact habove p' hlt other ((h.mem_level _ _ p').mpr hother)

/-- A thread that is not found does not wait. -/
theorem remove?_eq_none (h : Waiting waits waiters) (hnone : waiters.remove? id = none) :
    waits id = none := by
  rw [Waiters.remove?_eq_none] at hnone
  rw [Option.eq_none_iff_forall_not_mem]
  rintro ⟨p, pool⟩ hwaits
  exact hnone p pool ((h.mem_level id pool p).mpr hwaits)

theorem remove?_eq_some (h : Waiting waits waiters)
    (hfound : waiters.remove? id = some (pool, rest)) :
    Waiting (Function.update waits id none) rest := by
  obtain ⟨p, hmem, rfl⟩ := Waiters.remove?_erase hfound
  exact h.erase ((h.mem_level _ _ p).mp hmem)

/-- If no waiting thread is counted for a pool, none waits for it. -/
theorem waitingOn_eq_zero (h : Waiting waits waiters) :
    waiters.waitingOn pool = 0 ↔ ∀ id p, waits id ≠ some (p, pool) := by
  rw [Waiters.waitingOn, LevelQueue.count, List.countP_eq_zero]
  constructor
  · intro hnone id p hwaits
    have hmem := LevelQueue.mem_toList.mpr ⟨p, (h.mem_level id pool p).mpr hwaits⟩
    exact absurd (hnone _ hmem) (by simp)
  · rintro hnone ⟨id, pool'⟩ hmem
    obtain ⟨p, hlevel⟩ := LevelQueue.mem_toList.mp hmem
    rw [beq_iff_eq]
    rintro rfl
    exact hnone id p ((h.mem_level id pool' p).mp hlevel)

end Waiting

end CoopKernel.Memory
