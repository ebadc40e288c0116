import CoopKernel.Proofs.Kernel.Moved

/-!
# Taking interrupts off the line

Interrupts are dispatched one at a time, by whoever is on its way out of the section. A program is
reached once nothing is left to deliver (`Kernel.Moved.arrived`), unless its call was refused for
its arguments and never entered the section, or it gets back past what is pending because it comes
down in a panic.
-/

namespace CoopKernel.Kernel

variable {ε : Type} {W : PoolId → Prop} {k k' : Kernel ε} {move : Move ε} {moves : List (Move ε)}

/-- The interrupts that are dispatched in a run, in order. -/
def dispatchedIn (k : Kernel ε) : List (Move ε) → List Interrupt
  | [] => []
  | move :: rest =>
    k.takes move ++ ((k.perform move).toOption.map fun k' => k'.dispatchedIn rest).getD []

/-- The interrupts that are put on the line in a run that is not shut down, in order. -/
def raisedIn (moves : List (Move ε)) : List Interrupt := moves.flatMap Move.raises

/-- The rule that interrupts are raised by programs only. An operation that a program begins may
raise some too. -/
def raisedByPrograms (k : Kernel ε) : Move ε → Bool
  | .raise _ => k.inProgram
  | _ => true

theorem dispatchedIn_cons (hperform : k.perform move = .ok k') :
    k.dispatchedIn (move :: moves) = k.takes move ++ k'.dispatchedIn moves := by
  rw [dispatchedIn, hperform]
  rfl

/-- A kernel that is shut down stays so. -/
theorem Moved.going (h : Moved move k k') (hgoing : k'.stopped = false) : k.stopped = false := by
  cases h.effect with
  | still _ _ hstopped _ _ => exact hstopped.symm.trans hgoing
  | turn hgoing _ _ => exact hgoing
  | shutdown hgoing _ _ _ _ _ _ _ _ => exact hgoing

theorem Sound.going (h : k.Sound W) (hplay : k.play moves = some k')
    (hgoing : k'.stopped = false) : k.stopped = false :=
  h.play_induction (P := fun _ next => next.stopped = false → k.stopped = false) hplay id
    (fun _ hsound hallowed hperform _ ih hgoing =>
      ih ((hsound.moved hallowed hperform).going hgoing)) hgoing

/-! ## Order -/

/-- What goes through a line in two parts keeps its order. -/
theorem append_order {α : Type} {pending raised taken next dispatched last later : List α}
    (hline : pending ++ raised = taken ++ next) (horder : dispatched ++ last = next ++ later) :
    taken ++ dispatched ++ last = pending ++ (raised ++ later) :=
  calc taken ++ dispatched ++ last = taken ++ (dispatched ++ last) := List.append_assoc ..
    _ = taken ++ next ++ later := by rw [horder, List.append_assoc]
    _ = pending ++ (raised ++ later) := by rw [← hline, List.append_assoc]

/-- What was pending, and then what is raised, is dispatched or pending, in this order. -/
theorem Sound.order (h : k.Sound W) (hplay : k.play moves = some k')
    (hgoing : k'.stopped = false) :
    k.dispatchedIn moves ++ k'.line.pending = k.line.pending ++ raisedIn moves := by
  induction moves generalizing k W with
  | nil =>
    obtain rfl := Option.some.inj hplay
    exact (List.append_nil _).symm
  | cons move rest ih =>
    have hgoing' := h.going hplay hgoing
    obtain ⟨next, hallowed, hperform, hrest⟩ := play_cons_iff.mp hplay
    obtain ⟨_, heq, hnext⟩ := h.perform hallowed
    obtain rfl := Except.ok.inj (hperform.symm.trans heq)
    rw [dispatchedIn_cons hperform]
    exact append_order ((h.moved hallowed hperform).line hgoing') (ih hnext hrest)

/-! ## Arrivals -/

/-- While the running thread is not in its program, the kernel goes on by itself, or the thread gets
back past what is pending. -/
theorem advance_or_bypass (hallowed : k.allows move = true)
    (hraised : k.raisedByPrograms move = true) (hnot : k.activity ≠ .program) :
    move = .advance ∨ move = .bypass := by
  have hprogram : k.inProgram = false := by simpa [← inProgram_iff] using hnot
  cases move with
  | advance => exact .inl rfl
  | bypass => exact .inr rfl
  | call request => simp [allows, hprogram] at hallowed
  | exit => simp [allows, hprogram] at hallowed
  | raise interrupt => simp [raisedByPrograms, hprogram] at hraised

/-- A program is reached from a dry line, or past what is pending, or with the refusal of a call
that made no sense. -/
theorem Moved.arrived (h : Moved move k k') (hallowed : k.allows move = true)
    (hperform : k.perform move = .ok k') (hraised : k.raisedByPrograms move = true)
    (hgoing : k.stopped = false) {arrival : Arrival ε} (hactivity : k'.activity = .arriving arrival)
    (hquiet : ∀ invariant, arrival ≠ .unwound invariant) :
    k'.line.pending = [] ∨ (move = .bypass ∧ ∃ answer, arrival = .returned answer) ∨
      ∃ request status, move = .call request ∧ request.senseless = true ∧
        arrival = .returned (.error status) := by
  have hline := h.line hgoing
  cases h.effect with
  | turn _ _ hturn =>
    have hunderway := hturn.underway
    rw [hactivity] at hunderway
    cases hunderway
  | shutdown _ _ _ _ _ _ _ hanswer _ =>
    rw [hactivity] at hanswer
    cases hanswer
  | still _ _ _ _ hdrift =>
    generalize hafter : k'.activity = after at hdrift
    rw [hactivity] at hafter
    cases hdrift with
    | stays =>
      -- The program would have been reached by now.
      rcases advance_or_bypass hallowed hraised (by simp [← hafter]) with rfl | rfl
      · change k.advance = _ at hperform
        rw [Kernel.advance, ← hafter] at hperform
        rw [← Except.ok.inj hperform] at hactivity
        cases hactivity
      · obtain ⟨_, hanswering, -⟩ := eq_of_bypass hallowed hperform
        cases hafter.trans hanswering
    | reaches hdelivering hdry =>
      have htakes : k.takes move = [] := by
        rcases advance_or_bypass hallowed hraised (by simp [hdelivering]) with rfl | rfl
        · rw [takes, hdelivering, hdry hgoing]
          rfl
        · rfl
      have hraises : move.raises = [] := by
        rcases advance_or_bypass hallowed hraised (by simp [hdelivering]) with rfl | rfl <;> rfl
      rw [hdry hgoing, htakes, hraises] at hline
      exact .inl hline.symm
    | bypasses hmove _ =>
      cases hafter
      exact .inr (.inl ⟨hmove, _, rfl⟩)
    | refused hmove hsenseless =>
      cases hafter
      exact .inr (.inr ⟨_, _, hmove, hsenseless, rfl⟩)
    | unwinds _ invariant =>
      cases hafter
      exact absurd rfl (hquiet invariant)
    | _ => cases hafter

/-- Whoever is on its way out of the section enters it once more for each interrupt. -/
theorem Sound.advance_delivering {destination : Destination ε} {interrupt : Interrupt}
    {rest : List Interrupt} (h : k.Sound W) (hgoing : k.stopped = false)
    (hactivity : k.activity = .delivering destination)
    (hpending : k.line.pending = interrupt :: rest) :
    k.advance = dispatch { k with line := { pending := rest }, gate := { inside := true } }
      destination interrupt := by
  rcases h with hhalted | ⟨me, t, -, -, hposture⟩
  · simp [hhalted.stopped] at hgoing
  · have hactivity' : ∀ pending, k.activity ≠ .resuming pending := by simp [hactivity]
    have hadvance : k.advance = k.deliver destination := by rw [Kernel.advance, hactivity]
    rw [hadvance]
    exact deliver_eq hgoing (hposture.outside hactivity') hpending

end CoopKernel.Kernel
