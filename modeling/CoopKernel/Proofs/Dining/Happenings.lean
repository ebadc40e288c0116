import CoopKernel.Proofs.Dining.Programs

/-!
# What happens at a supper

A supper goes on by its own steps, and by moves of the kernel that it has no part in: interrupts
that are raised at any time, and calls of threads that are not at the supper (`Happening`). Those
threads leave the forks and the philosophers alone, and no seat is given to two threads. Whatever
happens, a run leads to the kernel of the supper (`logged_of_happen`), so what is proved of all runs
holds at a supper as well.

A supper begins when the table is laid and nobody sits at it yet (`Laid`). Whatever happens from
then on, it is served as it should be (`Laid.served`).
-/

namespace CoopKernel

open Kernel

/-! ## The kernel of a session -/

namespace Session

variable {ε σ γ ω : Type} {workload : Workload ε σ γ ω} {session next : Session ε σ γ ω}
  {progress : Progress} {outcome : Except Invariant (Kernel ε)}

theorem logged_of_follow (hfollow : session.follow outcome = (progress, next))
    (h : session.kernel.Logged) (houtcome : ∀ {kernel}, outcome = .ok kernel → kernel.Logged) :
    next.kernel.Logged := by
  cases outcome with
  | ok kernel =>
    obtain rfl := (Prod.mk.inj hfollow).2
    exact .clears (houtcome rfl)
  | error invariant =>
    obtain rfl := (Prod.mk.inj hfollow).2
    exact h

theorem logged_of_advance (h : session.kernel.Logged)
    (hfollow : session.follow session.kernel.advance = (progress, next)) : next.kernel.Logged :=
  logged_of_follow hfollow h fun hrun => .moves h (allows_advance _) hrun

theorem logged_of_act (h : session.kernel.Logged) (hprogram : session.kernel.activity = .program)
    {frame : σ} (hact : session.act workload frame = (progress, next)) : next.kernel.Logged := by
  rw [act] at hact
  generalize workload.act _ _ _ _ = decided at hact
  obtain ⟨turn, action⟩ := decided
  cases action with
  | call request =>
    have hfollow : (session.take session.me turn).follow (session.kernel.call request) =
        (progress, next) := hact
    have hallowed := allows_call request (inProgram_iff.mpr hprogram)
    exact logged_of_follow hfollow h fun hrun => .moves h hallowed hrun
  | raise interrupt =>
    obtain rfl := (Prod.mk.inj hact).2
    exact .clears (.moves h (allows_raise _ interrupt) rfl)
  | pass =>
    obtain rfl := (Prod.mk.inj hact).2
    exact h
  | finish =>
    change (if session.me = session.kernel.main then _ else _) = _ at hact
    split at hact
    · obtain rfl := (Prod.mk.inj hact).2
      exact h
    · next hmain =>
      have hfollow : (session.take session.me turn).follow session.kernel.exit =
          (progress, next) := hact
      have hallowed : session.kernel.allows .exit = true :=
        allows_exit (inProgram_iff.mpr hprogram) fun hcurrent => hmain (by rw [me, hcurrent]; rfl)
      exact logged_of_follow hfollow h fun hrun => .moves h hallowed hrun

/-- A step of a session is a move of its kernel, or leaves the kernel as it is. -/
theorem logged_of_step (h : session.kernel.Logged)
    (hstep : session.step workload = (progress, next)) : next.kernel.Logged := by
  have hraised : (session.kernel.raise .tick).Logged := .moves h (allows_raise _ .tick) rfl
  rw [step] at hstep
  split at hstep
  · next hprogram =>
    split at hstep
    · obtain rfl := (Prod.mk.inj hstep).2
      exact h
    · exact logged_of_act h hprogram hstep
  · next arrival _ =>
    have hsame : (session.receive workload arrival).kernel = session.kernel := by
      cases arrival <;> cases hframe : session.frames.lookup session.me <;>
        simp only [receive, hframe] <;> rfl
    exact logged_of_follow hstep (hsame ▸ h) fun hrun => .moves h (allows_advance _) hrun
  · split at hstep
    · rw [supplyTick] at hstep
      split at hstep <;> obtain rfl := (Prod.mk.inj hstep).2
      · exact h
      · exact hraised
      · exact hraised
    · exact logged_of_advance h hstep
  · exact logged_of_advance h hstep

end Session

namespace Dining

/-- Something that happens at a supper. -/
inductive Happening
  /-- The supper takes its next step. -/
  | step
  /-- A thread that is not at the supper makes a move, or an interrupt is raised. -/
  | other (move : Move Role)

namespace Supper

/-- Whether a thread that begins to dine has a seat of its own. -/
def serves (supper : Supper) : Bool :=
  match supper.kernel.activity with
  | .arriving (.started (.philosopher seat)) =>
    seat < supper.shared.table.forks.length && supper.frames.all fun (_, course) =>
      match course with
      | .philosopher other _ => other != seat
      | .host _ => true
  | _ => true

/-- Whether a move leaves the forks and the philosophers alone. -/
def spares (supper : Supper) : Move Role → Bool
  | .call (.mutexAcquire fork _) => fork ∉ supper.shared.table.forks
  | .call (.mutexDelete fork) => fork ∉ supper.shared.table.forks
  | .call (.threadTerminate id) =>
    match supper.frames.lookup id with
    | some (.philosopher _ _) => false
    | _ => true
  | _ => true

/-- Whether a move can be made that the supper has no part in. -/
def admits (supper : Supper) (move : Move Role) : Bool :=
  supper.kernel.allows move && supper.spares move &&
    match move with
    | .raise _ => true
    | _ => (supper.frames.lookup supper.me).isNone

/-- The supper after something has happened. The result is nothing if it cannot happen. -/
def happen (menu : Menu) (supper : Supper) : Happening → Option Supper
  | .step =>
    if supper.serves then
      match Session.step (workload menu) supper with
      | (.broken _, _) => none
      | (_, next) => some next
    else none
  | .other move =>
    if supper.admits move then (supper.kernel.perform move).toOption.map (Session.put supper)
    else none

/-- The supper after a list of happenings. -/
def play (menu : Menu) (supper : Supper) : List Happening → Option Supper
  | [] => some supper
  | happening :: rest => (supper.happen menu happening).bind fun next => next.play menu rest

/-- The table is laid and nobody sits at it yet. -/
structure Laid (menu : Menu) (supper : Supper) : Prop where
  /-- A run has led to the kernel. -/
  logged : supper.kernel.Logged
  going : supper.kernel.stopped = false
  two : 2 ≤ supper.shared.table.forks.length
  enough : menu.seats ≤ supper.shared.table.forks.length
  distinct : supper.shared.table.forks.Nodup
  /-- Nobody has a fork. -/
  free : ∀ fork ∈ supper.shared.table.forks, ∃ mutex : Mutex,
    supper.kernel.sched.mutexes.get? fork = some mutex ∧ mutex.owner = none
  /-- Nobody but the host is at the supper. -/
  fresh : ∀ {id course}, supper.frames.lookup id = some course →
    course = .host .lay ∧ supper.kernel.deciding id = true
  seats : supper.shared.table.seats = List.replicate supper.shared.table.forks.length {}

/-- A supper for two, at which the host looks every four ticks. -/
def forTwo : Menu :=
  { seats := 2, think := 0, eat := 3, every := 4, closing := .never, stack := 4096 }

/-- The supper for two when the host has laid the table. -/
def laidForTwo : Option Supper :=
  (begin {} {} forTwo none).toOption.bind fun supper =>
    supper.play forTwo (List.replicate 6 .step)

/-- What is true of a supper while it is served. -/
abbrev Served (menu : Menu) (supper : Supper) : Prop :=
  Orderly menu supper.kernel supper.frames supper.shared.table

variable {menu : Menu} {supper next : Supper} {progress : Progress} {move : Move Role}
  {happening : Happening} {happenings : List Happening}

theorem play_append (supper : Supper) (before rest : List Happening) :
    supper.play menu (before ++ rest) =
      (supper.play menu before).bind fun between => between.play menu rest := by
  induction before generalizing supper with
  | nil => rfl
  | cons happening tail ih =>
    rw [List.cons_append, play, play, Option.bind_assoc]
    exact Option.bind_congr fun between _ => ih between

/-- A supper that is about to begin is served. -/
theorem Laid.begins (h : supper.Laid menu) : supper.Served menu := by
  have hsound := h.logged.sound
  have hnobody : ∀ id seat step, ¬ Sits supper.frames id seat step := fun id seat step hsits => by
    cases (h.fresh hsits).1
  exact {
    sound := hsound
    two := h.two
    enough := h.enough
    distinct := h.distinct
    registered := fun fork hfork => by
      obtain ⟨mutex, hmutex, -⟩ := h.free fork hfork
      simp [hmutex]
    halted := fun hstopped => by simp [h.going] at hstopped
    laid := fun hframe => (h.fresh hframe).2
    taken := fun {id fork} hfork hmine => by
      obtain ⟨mutex, hmutex, hfree⟩ := h.free fork hfork
      rcases hmine with hholds | ⟨t, ht, hwanted⟩
      · obtain ⟨other, hother, howner⟩ := hsound.owns_iff.mpr hholds
        obtain rfl := Option.some.inj (hmutex.symm.trans hother)
        cases hfree.symm.trans howner
      · obtain ⟨other, owner, hother, howner, -⟩ :=
          hsound.upright.orderly.owned.wanted_owned ht hwanted
        obtain rfl := Option.some.inj (hmutex.symm.trans hother)
        cases hfree.symm.trans howner
    own := fun hsits => absurd hsits (hnobody _ _ _)
    seated := fun hsits => absurd hsits (hnobody _ _ _)
    vacant := fun {seat} _ => by
      rw [Table.phase?, h.seats, List.getElem?_replicate]
      split <;> rfl }

theorem logged_of_happen (h : supper.kernel.Logged)
    (hhappens : supper.happen menu happening = some next) : next.kernel.Logged := by
  cases happening with
  | step =>
    rw [happen] at hhappens
    split at hhappens
    · split at hhappens
      · cases hhappens
      · next hstep =>
        obtain rfl := Option.some.inj hhappens
        exact Session.logged_of_step h hstep
    · cases hhappens
  | other move =>
    rw [happen] at hhappens
    split at hhappens
    · next hadmits =>
      obtain ⟨kernel, hkernel, rfl⟩ := Option.map_eq_some_iff.mp hhappens
      unfold admits at hadmits
      have hallowed := (Bool.and_eq_true _ _ |>.mp (Bool.and_eq_true _ _ |>.mp hadmits).1).1
      exact .clears (.moves h hallowed (eq_ok_of_toOption hkernel))
    · cases hhappens

theorem logged_of_play (h : supper.kernel.Logged)
    (hplay : supper.play menu happenings = some next) : next.kernel.Logged := by
  induction happenings generalizing supper with
  | nil =>
    obtain rfl := Option.some.inj hplay
    exact h
  | cons happening rest ih =>
    obtain ⟨between, hhappens, hrest⟩ := Option.bind_eq_some_iff.mp hplay
    exact ih (logged_of_happen h hhappens) hrest

/-- Whatever happens at a supper that began on a new kernel, a run has led to its kernel. -/
theorem logged_of_begin {config : Config} {arena : Arena} {supply : Option Nat}
    (hbegin : begin config arena menu supply = .ok supper)
    (hplay : supper.play menu happenings = some next) : next.kernel.Logged := by
  refine logged_of_play ?_ hplay
  rw [begin] at hbegin
  cases hstart : Kernel.start config arena with
  | error failure =>
    rw [hstart] at hbegin
    cases hbegin
  | ok kernel =>
    rw [hstart] at hbegin
    obtain rfl := Except.ok.inj hbegin
    exact .clears (.start hstart)

/-! ## The steps of a supper -/

variable {me : ThreadId} {course : Course} {outcome : Except Invariant (Kernel Role)}

/-- A supper that goes on does so with the kernel that came out. -/
theorem follow_eq (h : Session.follow supper outcome = (progress, next))
    (hgoes : ∀ invariant, progress ≠ .broken invariant) :
    ∃ kernel, outcome = .ok kernel ∧ next = Session.put supper kernel := by
  cases outcome with
  | ok kernel => exact ⟨kernel, rfl, (Prod.mk.inj h).2.symm⟩
  | error invariant => exact absurd (Prod.mk.inj h).1.symm (hgoes invariant)

/-- The running thread decides. -/
theorem Served.act (h : supper.Served menu) (hdecides : supper.kernel.deciding me = true)
    (hme : Session.me supper = me) (hframe : supper.frames.lookup me = some course)
    (hstep : Session.act (workload menu) supper course = (progress, next))
    (hgoes : ∀ invariant, progress ≠ .broken invariant) : next.Served menu := by
  obtain ⟨hprogram, hcurrent⟩ := deciding_iff.mp hdecides
  cases course with
  | host step =>
    obtain ⟨step', said, action, hlaid, hact, haction⟩ :=
      actHost_eq h.enough supper.kernel.sched.ticks step
    have hsits : ∀ seat step, ¬ Sits supper.frames me seat step := fun seat step hsits => by
      cases hframe.symm.trans hsits
    have hstill := h.host hcurrent hsits hlaid (allows_advance _)
      (by rw [perform, advance, hprogram]) (by simp)
    simp only [Session.act, hme, workload, Dining.act, hact] at hstep
    obtain rfl | rfl | ⟨request, rfl, hharmless⟩ := haction
    · obtain rfl := (Prod.mk.inj hstep).2
      exact hstill
    · change (if me = supper.kernel.main then _ else _) = _ at hstep
      by_cases hmain : me = supper.kernel.main
      · rw [if_pos hmain] at hstep
        obtain rfl := (Prod.mk.inj hstep).2
        exact hstill
      · rw [if_neg hmain] at hstep
        obtain ⟨kernel, hrun, rfl⟩ := follow_eq hstep hgoes
        have hallowed : supper.kernel.allows .exit = true :=
          allows_exit (inProgram_iff.mpr hprogram) fun hcurrent' =>
            hmain (Option.some.inj (hcurrent.symm.trans hcurrent'))
        exact (h.host hcurrent hsits hlaid hallowed hrun (by simp)).cleared
    · obtain ⟨kernel, hrun, rfl⟩ := follow_eq hstep hgoes
      exact (h.host hcurrent hsits hlaid (allows_call request (inProgram_iff.mpr hprogram)) hrun
        (by rintro _ ⟨⟩; exact hharmless)).cleared
  | philosopher seat step =>
    obtain ⟨-, ⟨first, second, hforks, hdines⟩, -⟩ := h.seated hframe
    obtain ⟨table', said, request, hmakes, hsteps, hact⟩ :=
      actPhilosopher_eq menu hforks hdines.ne_leave
    simp only [Session.act, hme, workload, Dining.act, hact] at hstep
    obtain ⟨kernel, hrun, rfl⟩ := follow_eq hstep hgoes
    exact (h.diner hdecides hframe hforks hsteps hmakes hrun).cleared

/-- A call of the running thread is answered, or has ended otherwise. -/
theorem Served.resume (h : supper.Served menu) (hcurrent : supper.kernel.sched.current = some me)
    {arrival : Arrival Role} (hactivity : supper.kernel.activity = .arriving arrival)
    (hframe : supper.frames.lookup me = some course) {kernel : Kernel Role}
    (hrun : supper.kernel.advance = .ok kernel) {outcome : Except Invariant Answer}
    (hresult : ∀ answer, arrival = .returned answer → outcome = .ok answer) :
    Served menu { Session.take supper me (Dining.resume me outcome course supper.shared) with
      kernel } := by
  cases course with
  | host host =>
    have hlaid : host ≠ .lay := by
      rintro rfl
      cases hactivity.symm.trans (deciding_iff.mp (h.laid hframe)).1
    obtain ⟨host', hall', hlaid', hresume, htable⟩ := resume_host hlaid me outcome supper.shared
    rw [hresume]
    have horderly := h.host hcurrent (fun seat step hsits => by cases hframe.symm.trans hsits)
      hlaid' (allows_advance _) hrun (by simp)
    rw [← htable] at horderly
    exact horderly
  | philosopher seat step =>
    obtain ⟨⟨reply, hreply⟩, horderly⟩ := h.resumes hcurrent hactivity hrun hframe
    rw [hresult _ hreply]
    exact horderly

/-- Control comes to the program of the running thread. -/
theorem Served.receive (h : supper.Served menu) (hcurrent : supper.kernel.sched.current = some me)
    (hme : Session.me supper = me) (hserves : supper.serves = true) {arrival : Arrival Role}
    (hactivity : supper.kernel.activity = .arriving arrival) {kernel : Kernel Role}
    (hrun : supper.kernel.advance = .ok kernel) :
    Served menu { Session.receive (workload menu) supper arrival with kernel } := by
  have hstranger : supper.frames.lookup me = none → Served menu { supper with kernel } :=
    fun hnone => h.stranger (allows_advance _) hrun (by simp) (by simp) (fun _ _ => rfl)
      fun hid => Option.some.inj (hcurrent.symm.trans hid) ▸ hnone
  -- An answer is for whoever called; a running thread without a frame is a stranger.
  have hanswered : ∀ outcome, (∀ answer, arrival = .returned answer → outcome = .ok answer) →
      Session.receive (workload menu) supper arrival = (match supper.frames.lookup me with
        | some course => Session.take supper me (Dining.resume me outcome course supper.shared)
        | none => supper) →
      Served menu { Session.receive (workload menu) supper arrival with kernel } := by
    intro outcome hresult hreceive
    rw [hreceive]
    cases hframe : supper.frames.lookup me with
    | none => exact hstranger hframe
    | some course => exact h.resume hcurrent hactivity hframe hrun hresult
  cases arrival with
  | started role =>
    have horderly := h.begins hcurrent hactivity hrun supper.shared rfl
      fun {seat} hrole => by
        rw [serves, hactivity, hrole] at hserves
        obtain ⟨hseat, hvacant⟩ := Bool.and_eq_true _ _ |>.mp hserves
        refine ⟨of_decide_eq_true hseat, fun id step hsits => ?_⟩
        obtain ⟨before, after, heq, -⟩ := List.lookup_eq_some_iff.mp hsits
        have hmem := List.all_eq_true.mp hvacant (id, .philosopher seat step) (by simp [heq])
        simp at hmem
    rw [Session.receive, hme]
    cases role <;> exact horderly
  | returned answer =>
    refine hanswered (.ok answer) (by rintro _ ⟨⟩; rfl) ?_
    cases hframe : supper.frames.lookup me <;> simp only [Session.receive, hme, hframe, workload]
  | unwound invariant =>
    refine hanswered (.error invariant) (by simp) ?_
    cases hframe : supper.frames.lookup me <;> simp only [Session.receive, hme, hframe, workload]

/-- The kernel goes on by itself, and nobody comes to its program. -/
theorem Served.advance (h : supper.Served menu)
    (hactivity : ∀ arrival, supper.kernel.activity ≠ .arriving arrival) {kernel : Kernel Role}
    (hrun : supper.kernel.advance = .ok kernel) : Served menu (Session.put supper kernel) := by
  refine Orderly.cleared (h.passive (allows_advance _) hrun rfl fun {id} hdecides => ?_)
  rcases h.sound.deciding_of_moved (allows_advance _) hrun hdecides with
    hbefore | ⟨-, -, arrival, harriving⟩
  · exact hbefore
  · exact absurd harriving (hactivity arrival)

/-- Somebody puts an interrupt on the line. -/
theorem Served.raise (h : supper.Served menu) (interrupt : Interrupt) :
    Orderly menu (supper.kernel.raise interrupt) supper.frames supper.shared.table :=
  h.passive (allows_raise _ interrupt) rfl rfl fun hdecides => hdecides

/-- A step keeps a supper served. -/
theorem Served.step (h : supper.Served menu) (hserves : supper.serves = true)
    (hstep : Session.step (workload menu) supper = (progress, next))
    (hgoes : ∀ invariant, progress ≠ .broken invariant) : next.Served menu := by
  obtain ⟨me, _, hcurrent, -⟩ := h.sound.upright.busy
  have hme : Session.me supper = me := by
    rw [Session.me, hcurrent]
    rfl
  rw [Session.step] at hstep
  cases hactivity : supper.kernel.activity with
  | program =>
    simp only [hactivity, hme] at hstep
    cases hframe : supper.frames.lookup me with
    | none =>
      simp only [hframe] at hstep
      obtain rfl := (Prod.mk.inj hstep).2
      exact h
    | some course =>
      simp only [hframe] at hstep
      exact h.act (deciding_iff.mpr ⟨hactivity, hcurrent⟩) hme hframe hstep hgoes
  | arriving arrival =>
    simp only [hactivity] at hstep
    obtain ⟨kernel, hrun, rfl⟩ := follow_eq hstep hgoes
    exact (h.receive hcurrent hme hserves hactivity hrun).cleared
  | resting =>
    simp only [hactivity] at hstep
    split at hstep
    · rw [Session.supplyTick] at hstep
      split at hstep <;> obtain rfl := (Prod.mk.inj hstep).2
      · exact h
      · exact h.raise .tick
      · exact h.raise .tick
    · obtain ⟨kernel, hrun, rfl⟩ := follow_eq hstep hgoes
      exact h.advance (by simp [hactivity]) hrun
  | resuming pending =>
    simp only [hactivity] at hstep
    obtain ⟨kernel, hrun, rfl⟩ := follow_eq hstep hgoes
    exact h.advance (by simp [hactivity]) hrun
  | delivering destination =>
    simp only [hactivity] at hstep
    obtain ⟨kernel, hrun, rfl⟩ := follow_eq hstep hgoes
    exact h.advance (by simp [hactivity]) hrun

/-! ## The whole supper -/

/-- What a thread that is not at the supper leaves alone. -/
theorem of_spares (h : supper.spares move = true) :
    (∀ fork ∈ supper.shared.table.forks, move ≠ .call (.mutexDelete fork)) ∧
      (∀ {id seat step}, Sits supper.frames id seat step → move ≠ .call (.threadTerminate id)) ∧
      ∀ fork ∈ supper.shared.table.forks, move.acquires fork = false := by
  refine ⟨?_, ?_, fun fork hfork => ?_⟩
  · rintro fork hfork rfl
    exact of_decide_eq_true h hfork
  · rintro id seat step hsits rfl
    rw [spares, hsits] at h
    cases h
  · by_contra hacquires
    cases move with
    | call request =>
      cases request with
      | mutexAcquire other _ =>
        obtain rfl : other = fork := by simpa [Move.acquires] using hacquires
        exact of_decide_eq_true h hfork
      | _ => exact hacquires rfl
    | _ => exact hacquires rfl

/-- Whatever happens, a supper stays served. -/
theorem Served.happens (h : supper.Served menu)
    (hhappens : supper.happen menu happening = some next) : next.Served menu := by
  cases happening with
  | step =>
    rw [happen] at hhappens
    split at hhappens
    · next hserves =>
      split at hhappens
      · cases hhappens
      · next progress supper' hgoes hstep =>
        obtain rfl := Option.some.inj hhappens
        exact h.step hserves hstep hgoes
    · cases hhappens
  | other move =>
    rw [happen] at hhappens
    split at hhappens
    · next hadmits =>
      obtain ⟨kernel, hkernel, rfl⟩ := Option.map_eq_some_iff.mp hhappens
      have hrun := eq_ok_of_toOption hkernel
      unfold admits at hadmits
      obtain ⟨hboth, hstranger⟩ := Bool.and_eq_true _ _ |>.mp hadmits
      obtain ⟨hallowed, hspares⟩ := Bool.and_eq_true _ _ |>.mp hboth
      obtain ⟨me, _, hcurrent, -⟩ := h.sound.upright.busy
      have hstrange : (supper.frames.lookup me).isNone = true →
          Orderly menu kernel supper.frames supper.shared.table := fun hnone => by
        obtain ⟨hdeletes, hkills, hacquires⟩ := of_spares hspares
        exact h.stranger hallowed hrun hdeletes hkills hacquires fun hid =>
          Option.some.inj (hcurrent.symm.trans hid) ▸ Option.isNone_iff_eq_none.mp hnone
      rw [Session.me, hcurrent] at hstranger
      cases move with
      | raise interrupt =>
        obtain rfl := Except.ok.inj hrun
        exact (h.raise interrupt).cleared
      | _ => exact (hstrange hstranger).cleared
    · cases hhappens

/-- Whatever happens at a supper from the moment at which the table is laid, it is served. -/
theorem Laid.served (h : supper.Laid menu) (hplay : supper.play menu happenings = some next) :
    next.Served menu := by
  suffices ∀ {supper : Supper}, supper.Served menu → supper.play menu happenings = some next →
      next.Served menu from this h.begins hplay
  clear h hplay
  induction happenings with
  | nil =>
    intro supper h hplay
    obtain rfl := Option.some.inj hplay
    exact h
  | cons happening rest ih =>
    intro supper h hplay
    obtain ⟨between, hhappens, hrest⟩ := Option.bind_eq_some_iff.mp hplay
    exact ih (h.happens hhappens) hrest

end Supper

end Dining

end CoopKernel
