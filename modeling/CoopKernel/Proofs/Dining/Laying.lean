import CoopKernel.Proofs.Dining.Happenings

/-!
# How the table is laid

Before anybody else is at the supper, the host lays one fork after the other. Each of them takes it
a call that the kernel never refuses, so that after three steps for each seat the table is laid,
whatever is on the menu (`exists_laid`).
-/

namespace CoopKernel.Dining.Supper

open Kernel

variable {menu : Menu} {supper next : Supper} {count : Nat}

/-- The host is about to lay the next fork, and nothing is pending. -/
structure Laying (supper : Supper) (count : Nat) : Prop where
  logged : supper.kernel.Logged
  going : supper.kernel.stopped = false
  dry : supper.kernel.line.pending = []
  program : supper.kernel.activity = .program
  current : supper.kernel.sched.current = some supper.kernel.main
  frames : supper.frames = [(supper.kernel.main, .host .lay)]
  forks : supper.shared.table.forks.length = count
  distinct : supper.shared.table.forks.Nodup
  free : ∀ fork ∈ supper.shared.table.forks, ∃ mutex : Mutex,
    supper.kernel.sched.mutexes.get? fork = some mutex ∧ mutex.owner = none
  seats : supper.shared.table.seats = List.replicate count {}

/-- A table is laid once there are enough forks. -/
theorem Laying.laid (h : supper.Laying count) (htwo : 2 ≤ count) (henough : menu.seats ≤ count) :
    supper.Laid menu where
  logged := h.logged
  going := h.going
  two := h.forks.symm ▸ htwo
  enough := h.forks.symm ▸ henough
  distinct := h.distinct
  free := h.free
  fresh := fun {id course} hframe => by
    rw [h.frames, List.lookup_cons] at hframe
    split at hframe
    · next hid =>
      obtain rfl := beq_iff_eq.mp hid
      exact ⟨(Option.some.inj hframe).symm, deciding_iff.mpr ⟨h.program, h.current⟩⟩
    · cases hframe
  seats := h.forks.symm ▸ h.seats

/-! ## One fork -/

theorem serves_of_not_started
    (hnot : ∀ role, supper.kernel.activity ≠ .arriving (.started role)) :
    supper.serves = true := by
  unfold serves
  split
  · next hactivity => exact absurd hactivity (hnot _)
  · rfl

theorem happen_step_eq (hnot : ∀ role, supper.kernel.activity ≠ .arriving (.started role))
    (hstep : Session.step (workload menu) supper = (.going, next)) :
    supper.happen menu .step = some next := by
  rw [happen, if_pos (serves_of_not_started hnot), hstep]

/-- The kernel on the way back from a call to make one more fork. -/
def forking (k : Kernel Role) : Kernel Role :=
  let made : Kernel Role :=
    { k with gate := { inside := true }, sched := k.sched.createMutex.2 }
  (made.emit (.mutexCreate k.sched.mutexes.nextHandle)).reply
    (.ok (.mutex k.sched.mutexes.nextHandle))

/-- A supper at which one more fork has been made. -/
structure Forked (supper next : Supper) : Prop where
  sched : next.kernel.sched = supper.kernel.sched.createMutex.2
  main : next.kernel.main = supper.kernel.main
  stopped : next.kernel.stopped = supper.kernel.stopped
  line : next.kernel.line = supper.kernel.line
  frames : next.frames = [(supper.kernel.main, .host .lay)]

theorem Laying.call_mutexCreate (h : supper.Laying count) :
    supper.kernel.call .mutexCreate = .ok (forking supper.kernel) := by
  obtain ⟨me, t, hcalling⟩ := (h.logged.sound.calling h.program).resolve_left fun hhalted => by
    have hgoing := h.going
    simp [hhalted.stopped] at hgoing
  exact hcalling.inSection_eq (·.mutexCreate)

theorem Laying.me_eq (h : supper.Laying count) : supper.me = supper.kernel.main := by
  rw [Session.me, h.current]
  rfl

/-- As long as there are forks to be made, the host calls for one. -/
theorem Laying.act_eq (h : supper.Laying count) (hmore : count < menu.seats) :
    (workload menu).act supper.kernel supper.me (.host .lay) supper.shared =
      ({ frame := .host .lay, shared := supper.shared }, .call .mutexCreate) := by
  show actHost menu supper.kernel.sched.ticks .lay supper.shared = _
  rw [actHost, if_pos (h.forks.symm ▸ hmore)]

theorem Laying.calls (h : supper.Laying count) (hmore : count < menu.seats) :
    ∃ next, supper.happen menu .step = some next ∧ supper.Forked next ∧
      next.shared = supper.shared ∧
      next.kernel.activity =
        .delivering (.reply (.ok (.mutex supper.kernel.sched.mutexes.nextHandle))) := by
  have hframe : supper.frames.lookup supper.me = some (.host .lay) := by
    rw [h.me_eq, h.frames, List.lookup_cons_self]
  let asking := supper.take supper.me { frame := .host .lay, shared := supper.shared }
  have hcall : asking.kernel.call .mutexCreate = .ok (forking supper.kernel) := h.call_mutexCreate
  have hstep : Session.step (workload menu) supper =
      (.going, asking.put (forking supper.kernel)) := by
    rw [Session.step, h.program]
    simp only [hframe, Session.act, h.act_eq hmore]
    rw [hcall]
    rfl
  refine ⟨_, happen_step_eq (by simp [h.program]) hstep, ⟨rfl, rfl, rfl, rfl, ?_⟩, rfl, rfl⟩
  show (supper.me, Course.host .lay) :: supper.frames.filter (·.1 != supper.me) = _
  rw [h.me_eq, h.frames]
  simp

/-- Nothing is delivered on the way back from the call. -/
theorem happen_of_delivering (menu : Menu) {answer : Answer}
    (hactivity : supper.kernel.activity = .delivering (.reply answer))
    (hdry : supper.kernel.line.pending = []) : supper.happen menu .step =
      some (supper.put (supper.kernel.arrive (.returned answer))) := by
  refine happen_step_eq (by simp [hactivity]) ?_
  have hadvance : supper.kernel.advance = .ok (supper.kernel.arrive (.returned answer)) := by
    rw [advance, hactivity]
    show supper.kernel.deliver _ = _
    rw [deliver, Line.take?, hdry]
    rfl
  rw [Session.step, hactivity]
  show supper.follow supper.kernel.advance = _
  rw [hadvance]
  rfl

/-- The host has laid a fork when it hears of it. -/
theorem happen_of_returned (menu : Menu) {fork : MutexId}
    (hactivity : supper.kernel.activity = .arriving (.returned (.ok (.mutex fork))))
    (hcurrent : supper.kernel.sched.current = some supper.kernel.main)
    (hframes : supper.frames = [(supper.kernel.main, .host .lay)]) :
    ∃ next, supper.happen menu .step = some next ∧
      next.kernel = { supper.kernel with activity := .program, journal := [] } ∧
      next.frames = [(supper.kernel.main, .host .lay)] ∧
      next.shared.table = supper.shared.table.addSeat fork := by
  have hme : supper.me = supper.kernel.main := by rw [Session.me, hcurrent]; rfl
  have hframe : supper.frames.lookup supper.me = some (.host .lay) := by
    rw [hme, hframes, List.lookup_cons_self]
  let heard := supper.take supper.me (resumeHost .lay (.mutex fork) supper.shared)
  have hreceive : supper.receive (workload menu) (.returned (.ok (.mutex fork))) = heard := by
    simp only [Session.receive, hframe]
    rfl
  have hadvance : supper.kernel.advance = .ok { supper.kernel with activity := .program } := by
    rw [advance, hactivity]
  refine ⟨heard.put { supper.kernel with activity := .program },
    happen_step_eq (by simp [hactivity]) ?_, rfl, ?_, rfl⟩
  · rw [Session.step, hactivity]
    show (supper.receive (workload menu) _).follow supper.kernel.advance = _
    rw [hreceive, hadvance]
    rfl
  · show (supper.me, Course.host .lay) :: supper.frames.filter (·.1 != supper.me) = _
    rw [hme, hframes]
    simp

/-- A fork that is made last is free, and no fork was made before it under its number. -/
theorem Laying.free_addSeat (h : supper.Laying count) :
    ∀ fork ∈ supper.shared.table.forks ++ [supper.kernel.sched.mutexes.nextHandle],
      ∃ mutex : Mutex, (supper.kernel.sched.mutexes.add {}).get? fork = some mutex ∧
        mutex.owner = none := by
  intro fork hfork
  rw [Registry.get?_add h.logged.sound.upright.orderly.mutexes]
  split
  · exact ⟨{}, rfl, rfl⟩
  · next hold =>
    exact h.free fork ((List.mem_append.mp hfork).resolve_right (by simpa using hold))

theorem Laying.distinct_addSeat (h : supper.Laying count) :
    (supper.shared.table.forks ++ [supper.kernel.sched.mutexes.nextHandle]).Nodup := by
  refine h.distinct.append (List.nodup_singleton _) fun fork hfork hlast => ?_
  obtain ⟨mutex, hmutex, -⟩ := h.free fork hfork
  rw [List.mem_singleton.mp hlast,
    Registry.get?_nextHandle h.logged.sound.upright.orderly.mutexes] at hmutex
  cases hmutex

/-- The host has the processor while a fork is made. -/
theorem Laying.current_of_forked (h : supper.Laying count) (hforked : supper.Forked next) :
    next.kernel.sched.current = some next.kernel.main := by
  rw [hforked.sched, hforked.main]
  exact h.current

/-- Once the host has laid the fork it is about to lay the next one. -/
theorem Laying.succ (h : supper.Laying count) (hforked : supper.Forked next)
    (hlogged : next.kernel.Logged) (hprogram : next.kernel.activity = .program)
    (htable : next.shared.table =
      supper.shared.table.addSeat supper.kernel.sched.mutexes.nextHandle) :
    next.Laying (count + 1) where
  logged := hlogged
  going := hforked.stopped.trans h.going
  dry := (congrArg Line.pending hforked.line).trans h.dry
  program := hprogram
  current := h.current_of_forked hforked
  frames := hforked.main ▸ hforked.frames
  forks := by
    rw [htable]
    exact List.length_append.trans (congrArg (· + 1) h.forks)
  distinct := by
    rw [htable]
    exact h.distinct_addSeat
  free := by
    rw [htable, hforked.sched]
    exact h.free_addSeat
  seats := by
    rw [htable, List.replicate_succ']
    exact congrArg (· ++ [{}]) h.seats

/-- With three steps the host lays one more fork. -/
theorem Laying.step (h : supper.Laying count) (hmore : count < menu.seats) :
    ∃ next, supper.play menu (List.replicate 3 .step) = some next ∧ next.Laying (count + 1) := by
  let fork := supper.kernel.sched.mutexes.nextHandle
  obtain ⟨called, hcalls, hforked, hshared, hactivity⟩ := h.calls hmore
  have hdelivers := happen_of_delivering menu hactivity (hforked.line ▸ h.dry)
  let back := called.put (called.kernel.arrive (.returned (.ok (.mutex fork))))
  have hback : supper.Forked back :=
    ⟨hforked.sched, hforked.main, hforked.stopped, hforked.line, hforked.frames⟩
  obtain ⟨next, hreturns, hkernel, hframes, htable⟩ := happen_of_returned menu
    (show back.kernel.activity = _ from rfl) (h.current_of_forked hback)
    (hback.main ▸ hback.frames)
  have hplay : supper.play menu (List.replicate 3 .step) = some next := by
    simp only [List.replicate, play, hcalls, hdelivers, Option.bind_some]
    exact congrArg (·.bind some) hreturns
  have hnext : supper.Forked next :=
    ⟨by rw [hkernel]; exact hback.sched, by rw [hkernel]; exact hback.main,
      by rw [hkernel]; exact hback.stopped, by rw [hkernel]; exact hback.line,
      hframes.trans (hback.main ▸ rfl)⟩
  refine ⟨next, hplay, h.succ hnext (logged_of_play h.logged hplay) (by rw [hkernel]) ?_⟩
  rw [htable]
  exact congrArg (·.table.addSeat fork) hshared

/-! ## The whole table -/

/-- However many seats there are, the host comes to lay a fork for each. -/
theorem Laying.play (h : supper.Laying count) (more : Nat) (henough : count + more ≤ menu.seats) :
    ∃ next, supper.play menu (List.replicate (3 * more) .step) = some next ∧
      next.Laying (count + more) := by
  induction more generalizing supper count with
  | zero => exact ⟨supper, rfl, h⟩
  | succ more ih =>
    obtain ⟨between, hfirst, hbetween⟩ := h.step (show count < menu.seats by omega)
    obtain ⟨next, hrest, hnext⟩ := ih hbetween (by omega)
    refine ⟨next, ?_, by rwa [Nat.add_assoc, Nat.add_comm 1] at hnext⟩
    rw [show 3 * (more + 1) = 3 + 3 * more by omega, List.replicate_add, Supper.play_append, hfirst]
    exact hrest

/-- When a supper begins, nothing is on the table. -/
theorem laying_of_begin {config : Config} {arena : Arena} {supply : Option Nat}
    (hbegin : begin config arena menu supply = .ok supper) : supper.Laying 0 := by
  have hlogged := logged_of_begin hbegin (show supper.play menu [] = _ from rfl)
  rw [begin] at hbegin
  cases hstart : Kernel.start config arena with
  | error failure =>
    rw [hstart] at hbegin
    cases hbegin
  | ok first =>
    rw [hstart] at hbegin
    obtain ⟨pools, address, systemPool, sharedPool, -, -, rfl⟩ := start_eq hstart
    obtain rfl := Except.ok.inj hbegin
    exact ⟨hlogged, rfl, rfl, rfl, rfl, rfl, rfl, List.nodup_nil, List.forall_mem_nil _, rfl⟩

/-- Whatever is on the menu for two or more, the host lays the table with three steps for each
seat. -/
theorem exists_laid {config : Config} {arena : Arena} {supply : Option Nat}
    (hbegin : begin config arena menu supply = .ok supper) (htwo : 2 ≤ menu.seats) :
    ∃ next, supper.play menu (List.replicate (3 * menu.seats) .step) = some next ∧
      next.Laid menu ∧ next.shared.table.forks.length = menu.seats := by
  obtain ⟨next, hplay, hlaying⟩ :=
    (laying_of_begin hbegin).play menu.seats (show 0 + menu.seats ≤ menu.seats by omega)
  rw [Nat.zero_add] at hlaying
  exact ⟨next, hplay, hlaying.laid htwo (Nat.le_refl _), hlaying.forks⟩

theorem laid_forTwo (h : laidForTwo = some supper) : supper.Laid forTwo := by
  obtain ⟨first, hbegin, hplay⟩ := Option.bind_eq_some_iff.mp h
  obtain ⟨next, hnext, hlaid, -⟩ := exists_laid (eq_ok_of_toOption hbegin) (by decide)
  obtain rfl := Option.some.inj (hplay.symm.trans hnext)
  exact hlaid

end CoopKernel.Dining.Supper
