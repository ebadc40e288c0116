import Mathlib.Algebra.Order.BigOperators.Group.List
import Mathlib.Algebra.Order.Ring.Nat
import Mathlib.Logic.Relation
import CoopKernel.Proofs.Dining.Laying

/-!
# Table manners

Philosophers never share a fork and never wait in a circle (`Supper.Laid.civil`), whatever is raised
and whoever else runs. Both come from what a philosopher has in its hands at each step: whoever eats
has two forks, and whoever waits for a fork and has another one waits for the one with the higher
number. So along a chain of waiting philosophers the numbers of the forks rise, and the chain ends
with a philosopher that does not wait.
-/

namespace CoopKernel.Dining

open Kernel

namespace Supper

/-- A philosopher eats, from the moment before it enters the phase until it calls the kernel to give
the first fork back. -/
def Eats (supper : Supper) (id : ThreadId) (seat : Nat) : Prop :=
  Sits supper.frames id seat .eat ∨
    Sits supper.frames id seat .putSecond ∧ supper.kernel.deciding id = true

/-- A thread waits for a fork. -/
def Waits (supper : Supper) (id : ThreadId) : Prop :=
  ∃ fork ∈ supper.shared.table.forks, supper.kernel.Wants id fork

/-- A thread waits for a fork that another one owns. -/
def WaitsFor (supper : Supper) (id other : ThreadId) : Prop :=
  ∃ fork ∈ supper.shared.table.forks, supper.kernel.Wants id fork ∧ supper.kernel.Owns other fork

/-- Nobody shares a fork and nobody waits in a circle. -/
structure Civil (supper : Supper) : Prop where
  /-- Whoever eats owns both of its forks. -/
  armed : ∀ {id seat}, supper.Eats id seat → ∃ first second,
    supper.shared.table.forksOf seat = some (first, second) ∧
      supper.kernel.Owns id first ∧ supper.kernel.Owns id second
  /-- Whoever eats is shown so, except just before it enters the phase. -/
  shown : ∀ {id seat}, supper.Eats id seat → supper.shared.table.phase? seat = some .eating ∨
    Sits supper.frames id seat .eat ∧ supper.kernel.deciding id = true
  /-- Neighbours do not eat at the same time. -/
  alone : ∀ {id other a b}, supper.Eats id a → supper.Eats other b →
    ¬ Adjacent supper.shared.table.forks.length a b
  /-- Nobody waits for two others. -/
  follows : ∀ {id other other'}, supper.WaitsFor id other → supper.WaitsFor id other' →
    other = other'
  acyclic : ∀ id, ¬ Relation.TransGen supper.WaitsFor id id
  /-- Whoever waits for a fork waits in the end for a philosopher that does not wait for one. -/
  ends : ∀ {id}, supper.Waits id → ∃ other seat step, Relation.TransGen supper.WaitsFor id other ∧
    Sits supper.frames other seat step ∧ ¬ supper.Waits other

variable {menu : Menu} {supper next : Supper} {id other : ThreadId} {a b seat : Nat}
  {happenings : List Happening} {fork fork' : MutexId}

/-! ## Eating -/

theorem Served.armed (h : supper.Served menu) (heats : supper.Eats id seat) : ∃ first second,
    supper.shared.table.forksOf seat = some (first, second) ∧
      supper.kernel.Owns id first ∧ supper.kernel.Owns id second := by
  have hboth : ∃ first second, supper.shared.table.forksOf seat = some (first, second) ∧
      Grasps supper.kernel supper.shared.table.forks id [first, second] := by
    rcases heats with hsits | ⟨hsits, hdecides⟩
    · obtain ⟨-, ⟨first, second, hforks, hdines⟩, -⟩ := h.seated hsits
      exact ⟨first, second, hforks, hdines.grasps.elim And.right And.right⟩
    · obtain ⟨-, ⟨first, second, hforks, hdines⟩, -⟩ := h.seated hsits
      exact ⟨first, second, hforks, (hdines.of_deciding h.sound hdecides).2.2⟩
  obtain ⟨first, second, hforks, hhands⟩ := hboth
  obtain ⟨hfirst, hsecond⟩ := Table.mem_of_forksOf hforks
  exact ⟨first, second, hforks, h.sound.owns_iff.mpr ((hhands first hfirst).mpr (by simp)),
    h.sound.owns_iff.mpr ((hhands second hsecond).mpr (by simp))⟩

theorem Eats.sits (h : supper.Eats id seat) : ∃ step, Sits supper.frames id seat step :=
  h.elim (fun hsits => ⟨_, hsits⟩) fun hsits => ⟨_, hsits.1⟩

theorem Served.shown (h : supper.Served menu) (heats : supper.Eats id seat) :
    supper.shared.table.phase? seat = some .eating ∨
      Sits supper.frames id seat .eat ∧ supper.kernel.deciding id = true := by
  rcases heats with hsits | ⟨hsits, hdecides⟩
  · obtain ⟨-, -, phase, hphase, hshown⟩ := h.seated hsits
    cases hdecides : supper.kernel.deciding id with
    | true => exact .inr ⟨hsits, rfl⟩
    | false =>
      rw [hdecides, Shown, if_neg (by simp)] at hshown
      exact .inl (hphase.trans (congrArg some hshown))
  · obtain ⟨-, -, phase, hphase, hshown⟩ := h.seated hsits
    rw [hdecides, Shown, if_pos rfl] at hshown
    obtain ⟨hstep, -⟩ | ⟨before, hnext, rfl⟩ := hshown
    · cases hstep
    · obtain rfl : before = .eat := by cases before <;> first | rfl | cases hnext
      exact .inl hphase

/-- Whoever eats owns each of its forks. -/
theorem Served.owns_of_uses (h : supper.Served menu) (heats : supper.Eats id seat)
    (huses : supper.shared.table.Uses seat fork) : supper.kernel.Owns id fork := by
  obtain ⟨first, second, hforks, hfirst, hsecond⟩ := h.armed heats
  obtain ⟨_, _, hsame, hfork⟩ := huses
  cases hforks.symm.trans hsame
  rcases hfork with rfl | rfl <;> assumption

/-- Neighbours sit apart, and a fork that both use has one owner. -/
theorem Served.not_both (h : supper.Served menu)
    (hadjacent : Adjacent supper.shared.table.forks.length a b)
    (ha : ∃ step, Sits supper.frames id a step) (hb : ∃ step, Sits supper.frames other b step) :
    ∃ fork, supper.shared.table.Uses a fork ∧ supper.shared.table.Uses b fork ∧
      ¬ (supper.kernel.Owns id fork ∧ supper.kernel.Owns other fork) := by
  obtain ⟨_, hsits⟩ := ha
  obtain ⟨_, hsits'⟩ := hb
  obtain ⟨-, ⟨_, _, hforks, -⟩, -⟩ := h.seated hsits
  obtain ⟨-, ⟨_, _, hforks', -⟩, -⟩ := h.seated hsits'
  have hseat := Table.lt_length_of_forksOf hforks
  obtain ⟨fork, huses, huses'⟩ :=
    Table.exists_shared hadjacent hseat (Table.lt_length_of_forksOf hforks')
  refine ⟨fork, huses, huses', fun ⟨howns, howns'⟩ => ?_⟩
  obtain rfl := Owns.unique howns howns'
  exact hadjacent.ne h.two hseat (hsits.unique hsits').1

theorem Served.alone (h : supper.Served menu) (ha : supper.Eats id a) (hb : supper.Eats other b) :
    ¬ Adjacent supper.shared.table.forks.length a b := by
  intro hadjacent
  obtain ⟨fork, huses, huses', hnot⟩ := h.not_both hadjacent ha.sits hb.sits
  exact hnot ⟨h.owns_of_uses ha huses, h.owns_of_uses hb huses'⟩

/-! ## Waiting -/

/-- A fork that somebody waits for has an owner, who dines. -/
theorem Served.owner (h : supper.Served menu) (hfork : fork ∈ supper.shared.table.forks)
    (hwants : supper.kernel.Wants id fork) : ∃ other seat step,
      supper.kernel.Owns other fork ∧ Sits supper.frames other seat step := by
  obtain ⟨t, ht, hwanted⟩ := hwants
  obtain ⟨mutex, owner, hmutex, howner, -⟩ := h.sound.upright.orderly.owned.wanted_owned ht hwanted
  have howns : supper.kernel.Owns owner fork := ⟨mutex, hmutex, howner⟩
  obtain ⟨seat, step, hsits⟩ := h.taken hfork (.inl (h.sound.owns_iff.mp howns))
  exact ⟨owner, seat, step, howns, hsits⟩

/-- Whoever owns a fork and waits for another one waits for one with a higher number. -/
theorem Served.rises (h : supper.Served menu) (hfork : fork ∈ supper.shared.table.forks)
    (hfork' : fork' ∈ supper.shared.table.forks) (howns : supper.kernel.Owns id fork)
    (hwants : supper.kernel.Wants id fork') : fork.number < fork'.number := by
  have hholds := h.sound.owns_iff.mp howns
  obtain ⟨seat, step, hsits⟩ := h.taken hfork' (.inr hwants)
  obtain ⟨-, ⟨first, second, hforks, hdines⟩, -⟩ := h.seated hsits
  have hnot := h.sound.not_current_of_wants hwants
  cases hdines with
  | decides _ hdecides _ _ => exact absurd (deciding_iff.mp hdecides).2 hnot
  | granted _ _ hnothing _ _ => exact absurd hwants (hnothing fork')
  | waits hasks hawaits hhands =>
    obtain rfl := hwants.unique hawaits.wants
    have hmem := (hhands fork hfork).mp hholds
    cases step with
    | takeSecond =>
      obtain rfl := Option.some.inj hasks
      obtain rfl := List.mem_singleton.mp hmem
      exact Table.lt_of_forksOf h.distinct h.two hforks
    | takeFirst => cases hmem
    | _ => cases hasks

/-- A thread waits for one fork, and the fork has one owner. -/
theorem WaitsFor.unique {other' : ThreadId} (h : supper.WaitsFor id other)
    (hwaits' : supper.WaitsFor id other') : other = other' := by
  obtain ⟨fork, -, hwants, howns⟩ := h
  obtain ⟨fork', -, hwants', howns'⟩ := hwaits'
  obtain rfl := hwants.unique hwants'
  exact howns.unique howns'

/-- Along a chain of waiting philosophers the numbers of the forks rise. -/
theorem Served.rises_of_chain (h : supper.Served menu)
    (hchain : Relation.TransGen supper.WaitsFor id other)
    (hwants : supper.kernel.Wants id fork) (hfork' : fork' ∈ supper.shared.table.forks)
    (hwants' : supper.kernel.Wants other fork') : fork.number < fork'.number := by
  induction hchain generalizing fork' with
  | single hwaits =>
    obtain ⟨x, hx, hwanted, howns⟩ := hwaits
    obtain rfl := hwants.unique hwanted
    exact h.rises hx hfork' howns hwants'
  | tail _ hwaits ih =>
    obtain ⟨x, hx, hwanted, howns⟩ := hwaits
    exact (ih hx hwanted).trans (h.rises hx hfork' howns hwants')

theorem Served.acyclic (h : supper.Served menu) (id : ThreadId) :
    ¬ Relation.TransGen supper.WaitsFor id id := by
  intro hcircle
  obtain ⟨_, ⟨fork, hfork, hwants, -⟩, -⟩ := Relation.TransGen.head'_iff.mp hcircle
  exact Nat.lt_irrefl _ (h.rises_of_chain hcircle hwants hfork hwants)

/-- The numbers of the forks do not rise for ever. -/
theorem Served.ends (h : supper.Served menu) (hwaits : supper.Waits id) :
    ∃ other seat step, Relation.TransGen supper.WaitsFor id other ∧
      Sits supper.frames other seat step ∧ ¬ supper.Waits other := by
  obtain ⟨fork, hfork, hwants⟩ := hwaits
  -- The induction is on how far the number of the fork is below a bound on all of them.
  have hbound : ∀ fork ∈ supper.shared.table.forks,
      fork.number ≤ (supper.shared.table.forks.map Handle.number).sum := fun fork hfork =>
    List.le_sum_of_mem (List.mem_map_of_mem hfork)
  generalize hleft : (supper.shared.table.forks.map Handle.number).sum - fork.number = left
  induction left using Nat.strong_induction_on generalizing id fork with
  | _ left ih =>
    obtain ⟨other, seat, step, howns, hsits⟩ := h.owner hfork hwants
    have hfirst : supper.WaitsFor id other := ⟨fork, hfork, hwants, howns⟩
    by_cases hwaits' : supper.Waits other
    · obtain ⟨fork', hfork', hwants'⟩ := hwaits'
      have hlt := h.rises hfork hfork' howns hwants'
      have hle := hbound fork' hfork'
      obtain ⟨last, seat, step, hchain, hlast⟩ := ih _ (by omega) fork' hfork' hwants' rfl
      exact ⟨last, seat, step, .head hfirst hchain, hlast⟩
    · exact ⟨other, seat, step, .single hfirst, hsits, hwaits'⟩

/-- Philosophers share no fork and do not wait in a circle, whatever happens once the table is
laid. -/
theorem Laid.civil (h : supper.Laid menu) (hplay : supper.play menu happenings = some next) :
    next.Civil := by
  have hserved := h.served hplay
  exact ⟨hserved.armed, hserved.shown, hserved.alone, WaitsFor.unique, hserved.acyclic,
    hserved.ends⟩

/-- One of two philosophers eats and the other one waits for a fork of its neighbour. -/
theorem Laid.civil_forTwo : ∃ supper next : Supper, supper.Laid forTwo ∧
    supper.play forTwo (List.replicate 39 .step) = some next ∧ next.Civil ∧
      next.Eats ⟨3⟩ 0 ∧ next.WaitsFor ⟨4⟩ ⟨3⟩ := by
  have hrun : (laidForTwo.bind fun supper =>
      supper.play forTwo (List.replicate 39 .step)).any (fun next =>
        next.frames.lookup ⟨3⟩ == some (.philosopher 0 .eat) &&
          next.shared.table.forks.contains ⟨1⟩ &&
            (next.kernel.sched.threads.get? ⟨4⟩).any (·.wanted == some ⟨1⟩) &&
              (next.kernel.sched.mutexes.get? ⟨1⟩).any (·.owner == some ⟨3⟩)) = true := by
    decide +kernel
  obtain ⟨next, hnext, hfacts⟩ := Option.any_eq_true _ _ |>.mp hrun
  simp only [Bool.and_eq_true, beq_iff_eq, List.contains_iff_mem, Option.any_eq_true] at hfacts
  obtain ⟨⟨⟨heats, hfork⟩, hwants⟩, howns⟩ := hfacts
  obtain ⟨supper, hlaid, hplay⟩ := Option.bind_eq_some_iff.mp hnext
  exact ⟨supper, next, laid_forTwo hlaid, hplay, Laid.civil (laid_forTwo hlaid) hplay, .inl heats,
    ⟨1⟩, hfork, hwants, howns⟩

end Supper

end CoopKernel.Dining
