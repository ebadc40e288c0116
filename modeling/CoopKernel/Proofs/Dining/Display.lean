import CoopKernel.Proofs.Dining.Manners

/-!
# What the table shows

A philosopher is shown eating until it begins to think again, and before that it gives both of its
forks back. So two neighbours can be shown eating at the same time, although they never eat at the
same time (`Supper.both_shown`): a neighbour gets the fork that was given back, and begins to eat
while the first philosopher is still on its way out of the call. That takes a tick that is delivered
there, or a neighbour with a higher priority.

What is true instead is that one of the two then clears its place (`Supper.Laid.displays`): it has
called the kernel to take a fork back, the fork between the two is not in its hands any more, and
to anybody else it is inside a call to give a fork back.
-/

namespace CoopKernel.Dining

open Kernel

namespace Supper

/-- A philosopher clears its place, from its call to give the first fork back until it begins to
think. -/
inductive Clears (supper : Supper) (id : ThreadId) (seat : Nat) : Prop
  | givingSecond (hsits : Sits supper.frames id seat .putSecond)
    (haway : supper.kernel.deciding id = false)
  | givingFirst (hsits : Sits supper.frames id seat .putFirst)
  | done (hsits : Sits supper.frames id seat .think) (hdecides : supper.kernel.deciding id = true)

/-- A philosopher is inside a call to give a fork back. -/
def Gives (supper : Supper) (id : ThreadId) (seat : Nat) : Prop :=
  supper.kernel.deciding id = false ∧
    (Sits supper.frames id seat .putSecond ∨ Sits supper.frames id seat .putFirst)

/-- The phase of eating is shown. -/
def ShowsEating (supper : Supper) (seat : Nat) : Prop :=
  supper.shared.table.phase? seat = some .eating

/-- What the table shows of those who eat. -/
structure Displays (supper : Supper) : Prop where
  /-- Whoever is shown eating eats, or clears its place. -/
  shown : ∀ {seat}, supper.ShowsEating seat → ∃ id, supper.Eats id seat ∨ supper.Clears id seat
  /-- Whoever clears its place has given one fork back already. -/
  gave : ∀ {id seat}, supper.Clears id seat → ∃ first second,
    supper.shared.table.forksOf seat = some (first, second) ∧ ¬ supper.kernel.Owns id second
  /-- If neighbours are both shown eating, one of them clears its place, and does not own a fork
  that both use. -/
  both : ∀ {a b}, Adjacent supper.shared.table.forks.length a b → supper.ShowsEating a →
    supper.ShowsEating b → ∃ id seat fork, (seat = a ∨ seat = b) ∧ supper.Clears id seat ∧
      supper.shared.table.Uses a fork ∧ supper.shared.table.Uses b fork ∧
        ¬ supper.kernel.Owns id fork
  /-- If somebody else sees that, one of them is inside a call to give a fork back. -/
  seen : ∀ {me a b}, supper.kernel.deciding me = true →
    (∀ step, ¬ Sits supper.frames me a step ∧ ¬ Sits supper.frames me b step) →
    Adjacent supper.shared.table.forks.length a b → supper.ShowsEating a →
      supper.ShowsEating b → ∃ id seat, (seat = a ∨ seat = b) ∧ supper.Gives id seat

variable {menu : Menu} {supper next : Supper} {id me : ThreadId} {a b seat : Nat}
  {happenings : List Happening}

theorem Clears.sits (h : supper.Clears id seat) : ∃ step, Sits supper.frames id seat step := by
  cases h <;> exact ⟨_, ‹Sits _ _ _ _›⟩

/-- Whoever clears its place while somebody else decides is inside a call. -/
theorem Clears.gives (h : supper.Clears id seat) (haway : supper.kernel.deciding id = false) :
    supper.Gives id seat := by
  cases h with
  | givingSecond hsits _ => exact ⟨haway, .inl hsits⟩
  | givingFirst hsits => exact ⟨haway, .inr hsits⟩
  | done _ hdecides => simp [haway] at hdecides

theorem Served.eaters (h : supper.Served menu) (hshows : supper.ShowsEating seat) :
    ∃ id, supper.Eats id seat ∨ supper.Clears id seat := by
  have htaken : ∃ id step, Sits supper.frames id seat step := by
    by_contra hnobody
    have hvacant : Vacant supper.frames seat := fun id step hsits => hnobody ⟨id, step, hsits⟩
    have hphase := (h.vacant hvacant).symm.trans hshows
    split at hphase <;> cases hphase
  obtain ⟨id, step, hsits⟩ := htaken
  refine ⟨id, ?_⟩
  obtain ⟨-, -, phase, hphase, hshown⟩ := h.seated hsits
  obtain rfl := Option.some.inj (hphase.symm.trans hshows)
  rcases hshown.eating with ⟨haway, rfl | rfl | rfl⟩ | ⟨hdecides, rfl | rfl | rfl⟩
  · exact .inl (.inl hsits)
  · exact .inr (.givingSecond hsits haway)
  · exact .inr (.givingFirst hsits)
  · exact .inl (.inr ⟨hsits, hdecides⟩)
  · exact .inr (.givingFirst hsits)
  · exact .inr (.done hsits hdecides)

theorem Served.gave (h : supper.Served menu) (hclears : supper.Clears id seat) :
    ∃ first second, supper.shared.table.forksOf seat = some (first, second) ∧
      ¬ supper.kernel.Owns id second := by
  obtain ⟨step, hsits⟩ := hclears.sits
  obtain ⟨-, ⟨first, second, hforks, hdines⟩, -⟩ := h.seated hsits
  have hne : second ≠ first := (Table.ne_of_forksOf h.distinct h.two hforks).symm
  refine ⟨first, second, hforks, fun howns => ?_⟩
  have hmem : ∀ {hands}, Grasps supper.kernel supper.shared.table.forks id hands → second ∈ hands :=
    fun hhands => (hhands second (Table.mem_of_forksOf hforks).2).mp (h.sound.owns_iff.mp howns)
  cases hclears with
  | givingSecond hsits' haway =>
    obtain ⟨-, rfl⟩ := hsits.unique hsits'
    rcases hdines.grasps with ⟨hdecides | hasks, -⟩ | ⟨-, hhands⟩
    · simp [haway] at hdecides
    · cases hasks
    · exact hne (List.mem_singleton.mp (hmem hhands))
  | givingFirst hsits' =>
    obtain ⟨-, rfl⟩ := hsits.unique hsits'
    rcases hdines.grasps with ⟨-, hhands⟩ | ⟨-, hhands⟩
    · exact hne (List.mem_singleton.mp (hmem hhands))
    · cases hmem hhands
  | done hsits' _ =>
    obtain ⟨-, rfl⟩ := hsits.unique hsits'
    rcases hdines.grasps with ⟨-, hhands⟩ | ⟨-, hhands⟩ <;> cases hmem hhands

theorem Served.both (h : supper.Served menu)
    (hadjacent : Adjacent supper.shared.table.forks.length a b) (ha : supper.ShowsEating a)
    (hb : supper.ShowsEating b) : ∃ id seat fork, (seat = a ∨ seat = b) ∧ supper.Clears id seat ∧
      supper.shared.table.Uses a fork ∧ supper.shared.table.Uses b fork ∧
        ¬ supper.kernel.Owns id fork := by
  obtain ⟨id, hid⟩ := h.eaters ha
  obtain ⟨other, hother⟩ := h.eaters hb
  obtain ⟨fork, huses, huses', hnot⟩ := h.not_both hadjacent
    (hid.elim Eats.sits Clears.sits) (hother.elim Eats.sits Clears.sits)
  -- Whoever eats has the fork, so the other one does not have it.
  rcases hid with heats | hclears
  · have howns := h.owns_of_uses heats huses
    rcases hother with heats' | hclears'
    · exact absurd ⟨howns, h.owns_of_uses heats' huses'⟩ hnot
    · exact ⟨other, b, fork, .inr rfl, hclears', huses, huses', fun howns' => hnot ⟨howns, howns'⟩⟩
  · by_cases howns : supper.kernel.Owns id fork
    · rcases hother with heats' | hclears'
      · exact absurd ⟨howns, h.owns_of_uses heats' huses'⟩ hnot
      · exact ⟨other, b, fork, .inr rfl, hclears', huses, huses',
          fun howns' => hnot ⟨howns, howns'⟩⟩
    · exact ⟨id, a, fork, .inl rfl, hclears, huses, huses', howns⟩

/-- What is shown of the table is right but for those who clear their places, whatever happens once
the table is laid. -/
theorem Laid.displays (h : supper.Laid menu) (hplay : supper.play menu happenings = some next) :
    next.Displays := by
  have hserved := h.served hplay
  refine ⟨hserved.eaters, hserved.gave, hserved.both,
    fun {me a b} hdecides haway hadjacent ha hb => ?_⟩
  obtain ⟨id, seat, fork, hseat, hclears, -⟩ := hserved.both hadjacent ha hb
  refine ⟨id, seat, hseat, hclears.gives ?_⟩
  rw [← Bool.not_eq_true]
  intro hdecides'
  obtain rfl := Option.some.inj
    ((deciding_iff.mp hdecides).2.symm.trans (deciding_iff.mp hdecides').2)
  obtain ⟨step, hsits⟩ := hclears.sits
  rcases hseat with rfl | rfl
  · exact (haway step).1 hsits
  · exact (haway step).2 hsits

/-- A run of the supper for two in which a tick is raised while a philosopher gives its last fork
back. -/
def interrupted : List Happening :=
  List.replicate 54 .step ++ [.other (.raise .tick)] ++ List.replicate 11 .step

/-- At its end the host is about to look at the table, one philosopher is inside the call to give
its last fork back, and the other one has begun to eat. -/
theorem play_interrupted : ∃ supper next : Supper, laidForTwo = some supper ∧
    supper.play forTwo interrupted = some next ∧ next.kernel.deciding next.kernel.main = true ∧
      next.frames.lookup next.kernel.main = some (.host .look) ∧
        next.frames.lookup ⟨3⟩ = some (.philosopher 0 .putFirst) ∧
          next.frames.lookup ⟨4⟩ = some (.philosopher 1 .eat) ∧
            next.shared.table.forks.length = 2 ∧
              next.shared.table.seats.map (·.phase) = [.eating, .eating] := by
  have hrun : (laidForTwo.bind fun supper => supper.play forTwo interrupted).any (fun next =>
      next.kernel.deciding next.kernel.main &&
        next.frames.lookup next.kernel.main == some (.host .look) &&
          next.frames.lookup ⟨3⟩ == some (.philosopher 0 .putFirst) &&
            next.frames.lookup ⟨4⟩ == some (.philosopher 1 .eat) &&
              next.shared.table.forks.length == 2 &&
                next.shared.table.seats.map (·.phase) == [.eating, .eating]) = true := by
    decide +kernel
  obtain ⟨next, hnext, hfacts⟩ := Option.any_eq_true _ _ |>.mp hrun
  simp only [Bool.and_eq_true, beq_iff_eq, and_assoc] at hfacts
  obtain ⟨supper, hlaid, hplay⟩ := Option.bind_eq_some_iff.mp hnext
  exact ⟨supper, next, hlaid, hplay, hfacts⟩

theorem Laid.displays_interrupted : ∃ supper next : Supper, supper.Laid forTwo ∧
    supper.play forTwo interrupted = some next ∧ next.Displays ∧ next.Clears ⟨3⟩ 0 ∧
      next.Eats ⟨4⟩ 1 := by
  obtain ⟨supper, next, hlaid, hplay, -, -, hgives, heats, -⟩ := play_interrupted
  exact ⟨supper, next, laid_forTwo hlaid, hplay, Laid.displays (laid_forTwo hlaid) hplay,
    .givingFirst hgives, .inl heats⟩

/-- The host sees two neighbours eating. -/
theorem both_shown : ∃ supper next : Supper, supper.Laid forTwo ∧
    supper.play forTwo interrupted = some next ∧ next.kernel.deciding next.kernel.main = true ∧
      next.frames.lookup next.kernel.main = some (.host .look) ∧
        Adjacent next.shared.table.forks.length 0 1 ∧ next.ShowsEating 0 ∧
          next.ShowsEating 1 := by
  obtain ⟨supper, next, hlaid, hplay, hdecides, hhost, -, -, hseats, hphases⟩ := play_interrupted
  have hshows : ∀ seat, next.shared.table.phase? seat = [.eating, .eating][seat]? := fun seat => by
    rw [Table.phase?, ← List.getElem?_map, ← hphases]
  exact ⟨supper, next, laid_forTwo hlaid, hplay, hdecides, hhost, hseats ▸ .inl rfl, hshows 0,
    hshows 1⟩

end Supper

end CoopKernel.Dining
