import Mathlib.Data.List.Induction
import CoopKernel.Proofs.Kernel.Start
import CoopKernel.Proofs.Kernel.Steps

/-!
# Runs

A run of a kernel is a list of moves (`Move`): calls and ends of programs, interrupts, and what the
kernel does by itself. Programs are not part of a kernel, so any call may come whenever the running
thread is in its program; the main thread's program does not end as long as the kernel runs. While a
program comes down in a panic, what it still calls is answered without delivery, which is a move of
its own (`Move.bypass`). A run begins with a kernel that has just started, and every kernel it leads
to is sound (`Reachable.sound`).
-/

namespace CoopKernel

variable {ε : Type}

/-- What can happen to a kernel. -/
inductive Move (ε : Type)
  /-- The program of the running thread makes a call. -/
  | call (request : Call ε)
  /-- The program of the running thread ends. -/
  | exit
  /-- Somebody puts an interrupt on the line. -/
  | raise (interrupt : Interrupt)
  /-- The kernel goes on by itself. -/
  | advance
  /-- The running thread gets back to its program past what is pending, because the program is
  coming down in a panic. -/
  | bypass

namespace Kernel

/-- Whether the running thread is in its program. -/
def inProgram (k : Kernel ε) : Bool :=
  match k.activity with
  | .program => true
  | _ => false

/-- The answer that the running thread is on its way out of the section with, if there is one. -/
def answering (k : Kernel ε) : Option Answer :=
  match k.activity with
  | .delivering (.reply answer) => some answer
  | _ => none

/-- Whether a move can be made. A kernel does not know which programs panic. -/
def allows (k : Kernel ε) : Move ε → Bool
  | .call _ => k.inProgram
  | .exit => k.inProgram && k.sched.current != some k.main
  | .raise _ => true
  | .advance => true
  | .bypass => k.answering.isSome

/-- Makes a move. -/
def perform (k : Kernel ε) : Move ε → Except Invariant (Kernel ε)
  | .call request => k.call request
  | .exit => k.exit
  | .raise interrupt => .ok (k.raise interrupt)
  | .advance => k.advance
  | .bypass => .ok (k.answering.elim k fun answer => k.arrive (.returned answer))

/-- Makes a list of moves. The result is nothing if some move cannot be made. -/
def play (k : Kernel ε) : List (Move ε) → Option (Kernel ε)
  | [] => some k
  | move :: rest =>
    if k.allows move then
      match k.perform move with
      | .ok k' => k'.play rest
      | .error _ => none
    else none

/-- Some run leads to the kernel. -/
def Reachable (k : Kernel ε) : Prop :=
  ∃ config arena first moves, start config arena = .ok first ∧ first.play moves = some k

/-- The kernel at the end of a run from the start. -/
def afterRun (config : Config) (arena : Arena) (moves : List (Move ε)) : Option (Kernel ε) :=
  (start config arena).toOption.bind fun first => first.play moves

/-- Whether each move of a run is one that a rule lets the kernel make at that moment. -/
def follows (rule : Kernel ε → Move ε → Bool) (k : Kernel ε) : List (Move ε) → Bool
  | [] => true
  | move :: rest =>
    rule k move && (k.perform move).toOption.all fun k' => k'.follows rule rest

/-- A call, and what the kernel does until its answer is there if nobody else gets the processor. -/
def answered (request : Call ε) : List (Move ε) := [.call request, .advance, .advance]

variable {W : PoolId → Prop} {k k' k'' : Kernel ε} {move : Move ε} {moves : List (Move ε)}

/-! ## Playing -/

theorem eq_ok_of_toOption {α β : Type} {outcome : Except α β} {value : β}
    (h : outcome.toOption = some value) : outcome = .ok value := by
  cases outcome with
  | ok _ => exact congrArg Except.ok (Option.some.inj h)
  | error _ => cases h

theorem afterRun_eq_some {config : Config} {arena : Arena}
    (h : afterRun config arena moves = some k) :
    ∃ first, start config arena = .ok first ∧ first.play moves = some k := by
  obtain ⟨first, hfirst, hplay⟩ := Option.bind_eq_some_iff.mp h
  exact ⟨first, eq_ok_of_toOption hfirst, hplay⟩

theorem reachable_of_afterRun {config : Config} {arena : Arena}
    (h : afterRun config arena moves = some k) : k.Reachable := by
  obtain ⟨first, hstart, hplay⟩ := afterRun_eq_some h
  exact ⟨config, arena, first, moves, hstart, hplay⟩

theorem inProgram_iff : k.inProgram = true ↔ k.activity = .program := by
  rw [inProgram]
  split <;> simp_all

theorem answering_eq_some {answer : Answer} :
    k.answering = some answer ↔ k.activity = .delivering (.reply answer) := by
  rw [answering]
  split <;> simp_all

/-- Whoever gets back past what is pending has been on its way out of the section with an answer. -/
theorem eq_of_bypass (hallowed : k.allows .bypass = true) (hperform : k.perform .bypass = .ok k') :
    ∃ answer, k.activity = .delivering (.reply answer) ∧ k' = k.arrive (.returned answer) := by
  obtain ⟨answer, hanswer⟩ := Option.isSome_iff_exists.mp hallowed
  refine ⟨answer, answering_eq_some.mp hanswer, ?_⟩
  rw [perform, hanswer] at hperform
  exact (Except.ok.inj hperform).symm

theorem allows_call (request : Call ε) (h : k.inProgram = true) :
    k.allows (.call request) = true :=
  h

theorem allows_exit (h : k.inProgram = true) (hmain : k.sched.current ≠ some k.main) :
    k.allows .exit = true := by
  rw [allows, h, Bool.true_and, bne_iff_ne]
  exact hmain

theorem allows_raise (k : Kernel ε) (interrupt : Interrupt) : k.allows (.raise interrupt) = true :=
  rfl

theorem allows_advance (k : Kernel ε) : k.allows .advance = true :=
  rfl

/-- A run is made move by move. -/
theorem play_cons_iff : k.play (move :: moves) = some k'' ↔
    ∃ k', k.allows move = true ∧ k.perform move = .ok k' ∧ k'.play moves = some k'' := by
  rw [play]
  split
  · next hallowed =>
    cases k.perform move with
    | ok k' => simp [hallowed]
    | error invariant => simp
  · next hnot => simp [hnot]

theorem play_append (k : Kernel ε) (before after : List (Move ε)) :
    k.play (before ++ after) = (k.play before).bind fun k' => k'.play after := by
  induction before generalizing k with
  | nil => rfl
  | cons move rest ih =>
    rw [List.cons_append, play, play]
    split
    · cases k.perform move with
      | ok k' => exact ih k'
      | error invariant => rfl
    · rfl

/-- The last move of a run comes after the others. -/
theorem play_concat_iff : k.play (moves ++ [move]) = some k'' ↔
    ∃ k', k.play moves = some k' ∧ k'.allows move = true ∧ k'.perform move = .ok k'' := by
  rw [play_append, Option.bind_eq_some_iff]
  constructor
  · rintro ⟨k', hplay, hlast⟩
    obtain ⟨last, hallowed, hperform, hnil⟩ := play_cons_iff.mp hlast
    obtain rfl := Option.some.inj hnil
    exact ⟨k', hplay, hallowed, hperform⟩
  · rintro ⟨k', hplay, hallowed, hperform⟩
    exact ⟨k', hplay, play_cons_iff.mpr ⟨k'', hallowed, hperform, rfl⟩⟩

/-- What comes after some move of a run goes on from the kernel after that move. -/
theorem play_of_split {before after : List (Move ε)} {k₁ k₂ : Kernel ε}
    (hplay : k.play (before ++ move :: after) = some k') (hbefore : k.play before = some k₁)
    (hperform : k₁.perform move = .ok k₂) : k₂.play after = some k' := by
  rw [play_append, hbefore, Option.bind_some] at hplay
  obtain ⟨next, -, hnext, hafter⟩ := play_cons_iff.mp hplay
  obtain rfl := Except.ok.inj (hperform.symm.trans hnext)
  exact hafter

theorem follows_cons {rule : Kernel ε → Move ε → Bool} (hperform : k.perform move = .ok k') :
    k.follows rule (move :: moves) = true ↔ rule k move = true ∧ k'.follows rule moves = true := by
  rw [follows, hperform, Bool.and_eq_true]
  rfl

/-- A rule that is followed throughout a run is followed from any moment on. -/
theorem follows_append {rule : Kernel ε → Move ε → Bool} {before after : List (Move ε)}
    (hplay : k.play before = some k') : k.follows rule (before ++ after) = true ↔
      k.follows rule before = true ∧ k'.follows rule after = true := by
  induction before generalizing k with
  | nil =>
    obtain rfl := Option.some.inj hplay
    simp [follows]
  | cons move rest ih =>
    obtain ⟨next, -, hperform, hrest⟩ := play_cons_iff.mp hplay
    rw [List.cons_append, follows_cons hperform, follows_cons hperform, ih hrest, and_assoc]

theorem follows_concat {rule : Kernel ε → Move ε → Bool} (hplay : k.play moves = some k')
    (hperform : k'.perform move = .ok k'') : k.follows rule (moves ++ [move]) = true ↔
      k.follows rule moves = true ∧ rule k' move = true := by
  rw [follows_append hplay, follows_cons hperform]
  exact and_congr_right fun _ => and_iff_left rfl

/-- While the running thread is not in its program, an interrupt may be raised, or the kernel goes
on by itself, or the thread gets back at once. -/
theorem raised_or_advanced (haway : k.inProgram = false) (hallowed : k.allows move = true)
    (hperform : k.perform move = .ok k') :
    (∃ interrupt, move = .raise interrupt ∧ k' = k.raise interrupt) ∨
      (move = .advance ∧ k.advance = .ok k') ∨
        move = .bypass ∧ ∃ answer, k.activity = .delivering (.reply answer) ∧
          k' = k.arrive (.returned answer) := by
  cases move with
  | call request => simp [allows, haway] at hallowed
  | exit => simp [allows, haway] at hallowed
  | raise interrupt => exact .inl ⟨interrupt, rfl, (Except.ok.inj hperform).symm⟩
  | advance => exact .inr (.inl ⟨rfl, hperform⟩)
  | bypass => exact .inr (.inr ⟨rfl, eq_of_bypass hallowed hperform⟩)

/-- Inside the section nobody gets back at once. -/
theorem raised_or_resumed {pending : Pending ε} (hactivity : k.activity = .resuming pending)
    (hallowed : k.allows move = true) (hperform : k.perform move = .ok k') :
    (∃ interrupt, move = .raise interrupt ∧ k' = k.raise interrupt) ∨
      move = .advance ∧ k.advance = .ok k' := by
  have haway : k.inProgram = false := by simp [inProgram, hactivity]
  rcases raised_or_advanced haway hallowed hperform with hraised | hadvanced | ⟨-, _, hother, -⟩
  · exact .inl hraised
  · exact .inr hadvanced
  · cases hactivity.symm.trans hother

/-- What a run collects move by move, its last move adds last. -/
theorem collect_concat {α : Type} {collect : Kernel ε → List (Move ε) → List α}
    {piece : Kernel ε → Kernel ε → Move ε → List α} (hnil : ∀ k, collect k [] = [])
    (hcons : ∀ {k k' move moves}, k.perform move = .ok k' →
      collect k (move :: moves) = piece k k' move ++ collect k' moves)
    (hplay : k.play moves = some k') (hperform : k'.perform move = .ok k'') :
    collect k (moves ++ [move]) = collect k moves ++ piece k' k'' move := by
  induction moves generalizing k with
  | nil =>
    obtain rfl := Option.some.inj hplay
    rw [List.nil_append, hcons hperform, hnil, hnil, List.append_nil, List.nil_append]
  | cons head rest ih =>
    obtain ⟨next, -, hhead, hrest⟩ := play_cons_iff.mp hplay
    rw [List.cons_append, hcons hhead, hcons hhead, ih hrest, List.append_assoc]

/-! ## Soundness along a run -/

/-- Whether a move takes the last hope of a pool away. -/
def MoveDrops (k : Kernel ε) (pool : PoolId) : Move ε → Prop
  | .call request => request.Drops k pool
  | _ => False

/-- A sound kernel makes every move that it allows, and is sound afterwards. -/
theorem Sound.perform (h : k.Sound W) (hallowed : k.allows move = true) :
    GoesOn (fun pool => W pool ∧ ¬ k.MoveDrops pool move) (k.perform move) := by
  cases move with
  | call request => exact h.call (inProgram_iff.mp hallowed) request
  | exit =>
    rw [allows, Bool.and_eq_true, bne_iff_ne] at hallowed
    exact (h.exit (inProgram_iff.mp hallowed.1) hallowed.2).weaken And.left
  | raise interrupt => exact ⟨_, rfl, (h.raise interrupt).weaken And.left⟩
  | advance => exact h.advance.weaken And.left
  | bypass =>
    obtain ⟨answer, hanswer⟩ := Option.isSome_iff_exists.mp hallowed
    refine ⟨k.arrive (.returned answer), ?_, (h.bypass (answering_eq_some.mp hanswer)).weaken
      And.left⟩
    rw [Kernel.perform, hanswer]
    rfl

/-- A kernel is sound after a move that was made. -/
theorem Sound.performed (h : k.Sound W) (hallowed : k.allows move = true)
    (hrun : k.perform move = .ok k') : k'.Sound fun _ => False := by
  obtain ⟨_, heq, hsound⟩ := h.perform hallowed
  obtain rfl := Except.ok.inj (hrun.symm.trans heq)
  exact hsound.weaken False.elim

theorem Sound.play (h : k.Sound W) (hplay : k.play moves = some k') :
    k'.Sound fun _ => False := by
  -- The induction is without coverage, which a move in between may have lost.
  have hsound : k.Sound fun _ => False := h.weaken False.elim
  clear h
  induction moves generalizing k with
  | nil =>
    obtain rfl := Option.some.inj hplay
    exact hsound
  | cons move rest ih =>
    obtain ⟨next, hallowed, hperform, hrest⟩ := play_cons_iff.mp hplay
    exact ih hrest (hsound.performed hallowed hperform)

/-- What holds at the beginning of a run, and is kept by each of its moves, holds at its end. -/
theorem Sound.play_induction {P : List (Move ε) → Kernel ε → Prop} (h : k.Sound W)
    (hplay : k.play moves = some k') (hnil : P [] k)
    (hmove : ∀ {before move last next}, k.play before = some last →
      last.Sound (fun _ => False) → last.allows move = true → last.perform move = .ok next →
      next.Sound (fun _ => False) → P before last → P (before ++ [move]) next) : P moves k' := by
  induction moves using List.reverseRecOn generalizing k' with
  | nil =>
    obtain rfl := Option.some.inj hplay
    exact hnil
  | append_singleton before move ih =>
    obtain ⟨last, hlast, hallowed, hperform⟩ := play_concat_iff.mp hplay
    exact hmove hlast (h.play hlast) hallowed hperform (h.play hplay) (ih hlast)

/-- Every kernel that a run leads to is sound. -/
theorem Reachable.sound (h : k.Reachable) : k.Sound fun _ => False := by
  obtain ⟨config, arena, first, moves, hstart, hplay⟩ := h
  exact (start_sound hstart).play hplay

end Kernel

end CoopKernel
