import Mathlib.Logic.ExistsUnique
import CoopKernel.Hosted.Hosts

/-!
# Who has the turn

The threads of a host take steps in any order. The program of a thread can do something only while
the thread runs: it makes another thread, or switches or hands off to one that is parked and has not
been told to end. A thread that does not run can be told to end at any time. All other steps are
what a thread does by itself: it looks at its baton, it is stirred from its sleep for no reason, it
comes to its end. A thread that has switched to another one is parked and awake until it first looks
at its baton, and by then the other one may have run for a while and switched back.

* `Turn.perform`: there is one thread that has the turn, it runs or has been told to, and a step
  leaves the turn where it is or passes it on to the target of a switch.
* `Turn.account`: at each step, the signals given and in flight before it balance those used up at
  it and in flight after it.
* `Told.perform`: a thread that has been told to end never runs again, whatever the others do.
* `Turn.lost_retire`: a signal to end that is given to a thread to which a signal to run is in
  flight takes its place, and then nobody is left to run. While a thread runs no signal to run is in
  flight, so this can only be done by somebody who does not run.
* `takeTurns_adopted`: what all this comes to in a whole run.
-/

namespace CoopKernel.Hosted

/-- Whether the thread waits at its baton. -/
def Stage.isParked : Stage → Bool
  | parked _ _ => true
  | _ => false

namespace Hosts

/-- A step of one thread of the host. -/
inductive Step
  /-- A thread is made. -/
  | create (name : String)
  /-- A running thread tells another to run and goes to wait at its own baton. -/
  | switch (source target : Nat)
  /-- A running thread tells another to run and leaves. -/
  | handOff (source target : Nat)
  /-- Somebody tells a thread to end. -/
  | retire (caller target : Nat)
  /-- A thread at its baton takes the signal there, or falls asleep if there is none. -/
  | look (thread : Nat)
  /-- A thread that sleeps at its baton awakes without having been rung. -/
  | stir (thread : Nat)
  /-- A thread that was told to end has put its things in order. -/
  | finish (thread : Nat)
deriving DecidableEq, Repr

/-- Whether the thread runs. -/
def runs (hosts : Hosts) (thread : Nat) : Bool :=
  hosts[thread]?.any fun host => host.stage == .running

/-- Whether a signal to run is at the thread's baton. -/
def due (hosts : Hosts) (thread : Nat) : Bool :=
  hosts[thread]?.any fun host => host.baton.signal == .run

/-- Whether the thread is parked and has not been told to end. -/
def standsBy (hosts : Hosts) (thread : Nat) : Bool :=
  hosts[thread]?.any fun host => host.stage.isParked && host.baton.signal != .exit

/-- Whether the step can be made. -/
def allows (hosts : Hosts) : Step → Bool
  | .switch source target => hosts.runs source && hosts.standsBy target
  | .handOff source target => hosts.runs source && hosts.standsBy target
  | .retire _ target => hosts[target]?.any fun host => host.stage != .running
  | .finish thread => hosts[thread]?.any fun host => host.stage == .unwinding
  | .create _ | .look _ | .stir _ => true

/-- Makes the step. -/
def perform (hosts : Hosts) : Step → Hosts
  | .create name => hosts ++ [.made name]
  | .switch source target => hosts.switch source target
  | .handOff source target => hosts.handOff source target
  | .retire _ target => hosts.retire target
  | .look thread => hosts.look thread
  | .stir thread => hosts.modify thread fun host => { host with stage := host.stage.rung }
  | .finish thread => hosts.finish thread

/-- Makes the steps one after the other. The result is nothing if some step cannot be made. -/
def play (hosts : Hosts) : List Step → Option Hosts
  | [] => some hosts
  | step :: rest => if hosts.allows step then (hosts.perform step).play rest else none

/-- Whether the step spares every signal to run that is in flight: nobody is told to end whom such a
signal is to reach, unless it is a running thread that does so. -/
def spares (hosts : Hosts) : Step → Bool
  | .retire caller target => hosts.runs caller || !hosts.due target
  | _ => true

/-- Whether all the steps do. -/
def sparing (hosts : Hosts) : List Step → Bool
  | [] => true
  | step :: rest => hosts.spares step && (hosts.perform step).sparing rest

/-- Whether the step puts a signal to run at the thread's baton. -/
def Step.signals (thread : Nat) : Step → Bool
  | .switch _ target | .handOff _ target => target == thread
  | _ => false

/-- Whether the thread begins its work, or goes on with it, at the step. -/
def resumes (hosts : Hosts) (step : Step) (thread : Nat) : Bool :=
  !hosts.runs thread && (hosts.perform step).runs thread

/-- How many times the steps put a signal to run at the thread's baton. -/
def signalled (steps : List Step) (thread : Nat) : Nat := steps.countP (·.signals thread)

/-- How many times the thread begins its work or goes on with it in the course of the steps. -/
def resumptions (hosts : Hosts) : List Step → Nat → Nat
  | [], _ => 0
  | step :: rest, thread =>
    (hosts.resumes step thread).toNat + (hosts.perform step).resumptions rest thread

variable {hosts hosts' : Hosts} {steps before after : List Step} {step : Step}
  {thread holder source target : Nat}

theorem play_cons_iff : hosts.play (step :: steps) = some hosts' ↔
    hosts.allows step = true ∧ (hosts.perform step).play steps = some hosts' := by
  rw [play]
  split <;> simp [*]

theorem play_append (hosts : Hosts) (before after : List Step) :
    hosts.play (before ++ after) = (hosts.play before).bind fun between => between.play after := by
  induction before generalizing hosts with
  | nil => rfl
  | cons step rest ih =>
    rw [List.cons_append, play, play]
    split
    · exact ih _
    · rfl

/-- A property that every step keeps lasts through a run. -/
theorem play_induction {P : Hosts → Prop} (h : hosts.play steps = some hosts') (hfirst : P hosts)
    (hstep : ∀ {hosts step}, P hosts → hosts.allows step = true → P (hosts.perform step)) :
    P hosts' := by
  induction steps generalizing hosts with
  | nil => exact Option.some.inj h ▸ hfirst
  | cons step rest ih =>
    obtain ⟨hallows, hrest⟩ := play_cons_iff.mp h
    exact ih hrest (hstep hfirst hallows)

end Hosts

/-! ## One thread -/

namespace Host

/-- What a thread's stage says about its baton. -/
structure Fit (host : Host) : Prop where
  /-- There is no signal at the baton of one that runs. -/
  running : host.stage = .running → host.baton.signal = .parked
  /-- One that has been told to run will look at its baton. -/
  told : host.baton.signal = .run → ∃ begun, host.stage = .parked begun false
  /-- One that sleeps has not missed a signal. -/
  asleep : ∀ begun, host.stage = .parked begun true → host.baton.signal = .parked

/-- The thread runs or has been told to. -/
def HasTurn (host : Host) : Prop := host.stage = .running ∨ host.baton.signal = .run

variable {host : Host}

theorem Fit.not_due (h : host.Fit) (hrunning : host.stage = .running) :
    host.baton.signal ≠ .run := by
  rw [h.running hrunning]
  decide

theorem fit_adopted (name : String) : (adopted name).Fit where
  running _ := rfl
  told h := by cases h
  asleep _ h := by cases h

theorem fit_made (name : String) : (made name).Fit where
  running h := by cases h
  told h := by cases h
  asleep _ _ := rfl

theorem not_hasTurn_made (name : String) : ¬ (made name).HasTurn := by
  rintro (h | h) <;> cases h

/-- A parked thread that is told to run is awake. -/
theorem stage_give_of_isParked (h : host.stage.isParked = true) (signal : Signal) :
    ∃ begun, (host.give signal).stage = .parked begun false := by
  rw [give]
  cases hstage : host.stage with
  | parked begun asleep => exact ⟨begun, rfl⟩
  | running | unwinding | ended => rw [hstage] at h; cases h

theorem stage_rung_eq_running : host.stage.rung = .running ↔ host.stage = .running := by
  cases host.stage <;> simp [Stage.rung]

theorem Fit.give_run (hparked : host.stage.isParked = true) (hexit : host.baton.signal ≠ .exit) :
    (host.give .run).Fit ∧ (host.give .run).baton.signal = .run := by
  obtain ⟨begun, hstage⟩ := stage_give_of_isParked hparked .run
  have hsignal : (host.give .run).baton.signal = .run := by simp [give, Baton.give, hexit]
  refine ⟨⟨fun h => ?_, fun _ => ⟨begun, hstage⟩, fun _ h => ?_⟩, hsignal⟩
  · rw [hstage] at h
    cases h
  · rw [hstage] at h
    cases h

/-- A thread that does not run and has not been told to is told to end. -/
theorem Fit.give_exit (hturn : ¬ host.HasTurn) :
    (host.give .exit).Fit ∧ ¬ (host.give .exit).HasTurn := by
  have hsignal : (host.give .exit).baton.signal = .exit := by simp only [give, Baton.give]; grind
  have hrunning : (host.give .exit).stage ≠ .running := fun h =>
    hturn (.inl (stage_rung_eq_running.mp h))
  refine ⟨⟨fun h => absurd h hrunning, fun h => ?_, fun begun h => ?_⟩, ?_⟩
  · rw [hsignal] at h
    cases h
  · revert h
    show host.stage.rung = _ → _
    cases host.stage <;> simp [Stage.rung]
  · rintro (h | h)
    · exact hrunning h
    · rw [hsignal] at h
      cases h

/-- A thread that has not been told to run does not have the turn once it has left off. -/
theorem fit_of_left (host : Host) (stage : Stage) (hdue : host.baton.signal ≠ .run)
    (hrunning : stage ≠ .running) (hawake : ∀ begun, stage ≠ .parked begun true) :
    { host with stage }.Fit ∧ ¬ { host with stage }.HasTurn :=
  ⟨⟨fun h => absurd h hrunning, fun h => absurd h hdue, fun begun h => absurd h (hawake begun)⟩,
    fun h => h.elim hrunning hdue⟩

theorem Fit.not_due_of_unwinding (h : host.Fit) (hstage : host.stage = .unwinding) :
    host.baton.signal ≠ .run := fun hrun => by
  obtain ⟨begun, hparked⟩ := h.told hrun
  rw [hstage] at hparked
  cases hparked

/-- Looking at the baton turns a signal to run into running, and there is none for one who runs. -/
theorem Fit.look (h : host.Fit) : host.look.Fit ∧ (host.look.HasTurn ↔ host.HasTurn) := by
  rw [Host.look]
  split
  · next hstage hsignal =>
    refine ⟨⟨nofun, fun hrun => ?_, fun _ _ => hsignal⟩, ?_⟩
    · rw [hsignal] at hrun
      cases hrun
    · simp [HasTurn, hstage, hsignal]
  · next hstage hsignal =>
    have htaken : host.baton.taken.signal = .parked := by rw [Baton.taken, if_pos hsignal]
    refine ⟨⟨fun _ => htaken, fun hrun => ?_, nofun⟩, ?_⟩
    · rw [htaken] at hrun
      cases hrun
    · simp [HasTurn, hsignal]
  · next hstage hsignal =>
    obtain ⟨hfit, hleft⟩ := fit_of_left host .unwinding (by simp [hsignal]) nofun nofun
    exact ⟨hfit, iff_of_false hleft (by simp [HasTurn, hstage, hsignal])⟩
  · next hstage hsignal =>
    obtain ⟨hfit, hleft⟩ := fit_of_left host .ended (by simp [hsignal]) nofun nofun
    exact ⟨hfit, iff_of_false hleft (by simp [HasTurn, hstage, hsignal])⟩
  · exact ⟨h, .rfl⟩

/-- Nobody comes to run by looking at a baton without a signal to run. -/
theorem not_hasTurn_look (hnot : ¬ host.HasTurn) : ¬ host.look.HasTurn := by
  rw [Host.look]
  split
  · next hsignal => simp [HasTurn, hsignal]
  · next hsignal => exact absurd (.inr hsignal) hnot
  · next hsignal => simp [HasTurn, hsignal]
  · next hsignal => simp [HasTurn, hsignal]
  · exact hnot

/-- A thread that is to run does so once it has looked at its baton. -/
theorem Fit.stage_look (h : host.Fit) (hdue : host.baton.signal = .run) :
    host.look.stage = .running := by
  obtain ⟨begun, hstage⟩ := h.told hdue
  rw [Host.look, hstage, hdue]

theorem Fit.stir (h : host.Fit) : { host with stage := host.stage.rung }.Fit ∧
    ({ host with stage := host.stage.rung }.HasTurn ↔ host.HasTurn) := by
  refine ⟨⟨fun hrunning => h.running (stage_rung_eq_running.mp hrunning), fun hrun => ?_,
    fun begun hasleep => ?_⟩, or_congr stage_rung_eq_running .rfl⟩
  · obtain ⟨begun, hstage⟩ := h.told hrun
    exact ⟨begun, by rw [hstage]; rfl⟩
  · revert hasleep
    cases host.stage <;> simp [Stage.rung]

/-- The thread has been told to end and does not run. -/
structure Told (host : Host) : Prop where
  exit : host.baton.signal = .exit
  stopped : host.stage ≠ .running

theorem Told.give (h : host.Told) (signal : Signal) : (host.give signal).Told where
  exit := by simp [Host.give, Baton.give, h.exit]
  stopped := mt stage_rung_eq_running.mp h.stopped

theorem Told.look (h : host.Told) : host.look.Told := by
  have hexit := h.exit
  rw [Host.look]
  split
  · exact ⟨hexit, nofun⟩
  · next hsignal =>
    rw [hexit] at hsignal
    cases hsignal
  · exact ⟨hexit, nofun⟩
  · exact ⟨hexit, nofun⟩
  · exact h

end Host

/-! ## The thread that has the turn -/

namespace Hosts

variable {hosts hosts' : Hosts} {steps before after : List Step} {step : Step}
  {thread holder source target : Nat}

/-- One thread has the turn. -/
structure Turn (hosts : Hosts) (holder : Nat) : Prop where
  holds : ∃ host, hosts[holder]? = some host ∧ host.HasTurn
  others {thread : Nat} {host : Host} :
    hosts[thread]? = some host → thread ≠ holder → ¬ host.HasTurn
  fit {thread : Nat} {host : Host} : hosts[thread]? = some host → host.Fit

theorem runs_iff :
    hosts.runs thread = true ↔ ∃ host, hosts[thread]? = some host ∧ host.stage = .running := by
  simp [runs, Option.any_eq_true]

theorem due_iff :
    hosts.due thread = true ↔ ∃ host, hosts[thread]? = some host ∧ host.baton.signal = .run := by
  simp [due, Option.any_eq_true]

theorem standsBy_iff : hosts.standsBy thread = true ↔
    ∃ host, hosts[thread]? = some host ∧ host.stage.isParked = true ∧
      host.baton.signal ≠ .exit := by
  simp [standsBy, Option.any_eq_true]

theorem getElem?_modify_iff {change : Host → Host} {host : Host} :
    (List.modify hosts target change)[thread]? = some host ↔
      ∃ old, hosts[thread]? = some old ∧ (if target = thread then change old else old) = host := by
  rw [List.getElem?_modify, Option.map_eq_map, Option.map_eq_some_iff]

theorem getElem?_create {host : Host} (hget : hosts[thread]? = some host) (name : String) :
    (hosts ++ [.made name])[thread]? = some host :=
  List.getElem?_append_left (List.getElem?_eq_some_iff.mp hget).1 ▸ hget

theorem getElem?_append_made {host : Host} {name : String}
    (hget : (hosts ++ [.made name])[thread]? = some host) :
    hosts[thread]? = some host ∨ host = .made name := by
  rw [List.getElem?_append] at hget
  split at hget
  · exact .inl hget
  · exact .inr (List.mem_singleton.mp (List.mem_of_getElem? hget))

namespace Turn

theorem adopted (name : String) : Turn [.adopted name] 0 where
  holds := ⟨_, rfl, .inl rfl⟩
  others {thread host} hget hne := by
    cases thread with
    | zero => exact absurd rfl hne
    | succ n => simp at hget
  fit {thread host} hget := by
    cases thread with
    | zero => cases hget; exact Host.fit_adopted name
    | succ n => simp at hget

theorem eq_of_runs (h : hosts.Turn holder) (hruns : hosts.runs thread = true) :
    thread = holder := by
  obtain ⟨host, hget, hrunning⟩ := runs_iff.mp hruns
  exact Decidable.byContradiction fun hne => h.others hget hne (.inl hrunning)

theorem eq_of_due (h : hosts.Turn holder) (hdue : hosts.due thread = true) : thread = holder := by
  obtain ⟨host, hget, hrun⟩ := due_iff.mp hdue
  exact Decidable.byContradiction fun hne => h.others hget hne (.inr hrun)

/-- A signal to run is in flight exactly if nobody runs. -/
theorem due_eq_not_runs (h : hosts.Turn holder) : hosts.due holder = !hosts.runs holder := by
  obtain ⟨host, hget, hrunning | hrun⟩ := h.holds
  · simp [due, runs, hget, hrunning, (h.fit hget).running hrunning]
  · obtain ⟨begun, hstage⟩ := (h.fit hget).told hrun
    simp [due, runs, hget, hrun, hstage]

theorem sole (h : hosts.Turn holder) :
    (∃! thread, hosts.runs thread = true) ∧ (∀ thread, hosts.due thread = false) ∨
      (∀ thread, hosts.runs thread = false) ∧ ∃! thread, hosts.due thread = true := by
  have hflip := h.due_eq_not_runs
  cases hruns : hosts.runs holder with
  | true =>
    refine .inl ⟨⟨holder, hruns, fun _ => h.eq_of_runs⟩, fun thread => ?_⟩
    rw [Bool.eq_false_iff]
    intro hdue
    rw [h.eq_of_due hdue, hflip, hruns] at hdue
    cases hdue
  | false =>
    rw [hruns] at hflip
    refine .inr ⟨fun thread => ?_, holder, hflip, fun _ => h.eq_of_due⟩
    rw [Bool.eq_false_iff]
    intro hrunning
    rw [h.eq_of_runs hrunning, hruns] at hrunning
    cases hrunning

/-- What one thread does with itself leaves the turn where it is. -/
theorem modify (h : hosts.Turn holder) (thread : Nat) {change : Host → Host}
    (hchange : ∀ {host}, hosts[thread]? = some host →
      (change host).Fit ∧ ((change host).HasTurn ↔ host.HasTurn)) :
    Turn (List.modify hosts thread change) holder := by
  have hkept {i : Nat} {old : Host} (hget : hosts[i]? = some old) :
      (if thread = i then change old else old).Fit ∧
        ((if thread = i then change old else old).HasTurn ↔ old.HasTurn) := by
    split
    · next heq => exact hchange (heq ▸ hget)
    · exact ⟨h.fit hget, .rfl⟩
  refine ⟨?_, fun {i host} hi hne => ?_, fun {i host} hi => ?_⟩
  · obtain ⟨old, hget, hturn⟩ := h.holds
    exact ⟨_, getElem?_modify_iff.mpr ⟨old, hget, rfl⟩, (hkept hget).2.mpr hturn⟩
  · obtain ⟨old, hget, rfl⟩ := getElem?_modify_iff.mp hi
    exact fun hturn => h.others hget hne ((hkept hget).2.mp hturn)
  · obtain ⟨old, hget, rfl⟩ := getElem?_modify_iff.mp hi
    exact (hkept hget).1

/-- The thread that runs passes the turn on to one that stands by, and leaves off. -/
theorem pass (h : hosts.Turn holder) (stage : Stage) (hruns : hosts.runs source = true)
    (hstands : hosts.standsBy target = true) (hrunning : stage ≠ .running)
    (hawake : ∀ begun, stage ≠ .parked begun true) :
    Turn ((List.modify hosts target (·.give .run)).modify source ({ · with stage })) target ∧
      due ((List.modify hosts target (·.give .run)).modify source ({ · with stage })) target =
        true := by
  obtain ⟨giver, hsource, hstage⟩ := runs_iff.mp hruns
  obtain ⟨taker, htarget, hparked, hexit⟩ := standsBy_iff.mp hstands
  have hne : source ≠ target := by
    rintro rfl
    cases hsource.symm.trans htarget
    rw [hstage] at hparked
    cases hparked
  obtain ⟨hfit, hrun⟩ := Host.Fit.give_run hparked hexit
  have hleft := Host.fit_of_left giver stage ((h.fit hsource).not_due hstage) hrunning hawake
  -- the giver, the taker and everybody else
  have hget {i : Nat} {host : Host} (hi : ((List.modify hosts target (·.give .run)).modify source
      ({ · with stage }))[i]? = some host) :
      i = target ∧ host = taker.give .run ∨ i = source ∧ host = { giver with stage } ∨
        i ≠ source ∧ hosts[i]? = some host := by
    obtain ⟨middle, hmiddle, hhost⟩ := getElem?_modify_iff.mp hi
    obtain ⟨old, hold, rfl⟩ := getElem?_modify_iff.mp hmiddle
    grind
  have hgiven : ((List.modify hosts target (·.give .run)).modify source
      ({ · with stage }))[target]? = some (taker.give .run) := by
    rw [List.getElem?_modify_ne _ _ hne, List.getElem?_modify_eq, htarget]
    rfl
  refine ⟨⟨⟨_, hgiven, .inr hrun⟩, fun {i host} hi hother => ?_, fun {i host} hi => ?_⟩,
    due_iff.mpr ⟨_, hgiven, hrun⟩⟩
  · obtain ⟨rfl, -⟩ | ⟨-, rfl⟩ | ⟨hi', hold⟩ := hget hi
    · exact absurd rfl hother
    · exact hleft.2
    · exact h.others hold (h.eq_of_runs hruns ▸ hi')
  · obtain ⟨-, rfl⟩ | ⟨-, rfl⟩ | ⟨-, hold⟩ := hget hi
    · exact hfit
    · exact hleft.1
    · exact h.fit hold

theorem create (h : hosts.Turn holder) (name : String) : Turn (hosts ++ [.made name]) holder := by
  refine ⟨?_, fun {i host} hi hne => ?_, fun {i host} hi => ?_⟩
  · obtain ⟨host, hholder, hturn⟩ := h.holds
    exact ⟨host, getElem?_create hholder name, hturn⟩
  · obtain hold | rfl := getElem?_append_made hi
    · exact h.others hold hne
    · exact Host.not_hasTurn_made name
  · obtain hold | rfl := getElem?_append_made hi
    · exact h.fit hold
    · exact Host.fit_made name

/-- A thread that does not run does not have the turn, if another one runs or it is not to run. -/
theorem not_hasTurn (h : hosts.Turn holder) (source : Nat) {host : Host}
    (hget : hosts[target]? = some host) (hstage : host.stage ≠ .running)
    (hcaller : hosts.runs source = true ∨ hosts.due target = false) : ¬ host.HasTurn := by
  rintro (hrunning | hrun)
  · exact hstage hrunning
  · have hdue : hosts.due target = true := due_iff.mpr ⟨host, hget, hrun⟩
    obtain hruns | hnot := hcaller
    · have hheld := h.due_eq_not_runs
      rw [← h.eq_of_due hdue, hdue, h.eq_of_due hdue, ← h.eq_of_runs hruns, hruns] at hheld
      cases hheld
    · rw [hnot] at hdue
      cases hdue

theorem retire (h : hosts.Turn holder)
    (htarget : ∀ {host}, hosts[target]? = some host → ¬ host.HasTurn) :
    Turn (hosts.retire target) holder :=
  h.modify target fun hget =>
    have ⟨hfit, hnot⟩ := Host.Fit.give_exit (htarget hget)
    ⟨⟨hfit.running, hfit.told, hfit.asleep⟩, iff_of_false hnot (htarget hget)⟩

end Turn

/-- Who has the turn after the step. -/
def Step.next (holder : Nat) : Step → Nat
  | .switch _ target | .handOff _ target => target
  | _ => holder

theorem Turn.perform (h : hosts.Turn holder) (hallows : hosts.allows step = true)
    (hspares : hosts.spares step = true) : (hosts.perform step).Turn (step.next holder) := by
  cases step with
  | create name => exact h.create name
  | switch source target =>
    obtain ⟨hruns, hstands⟩ := Bool.and_eq_true_iff.mp hallows
    exact (h.pass (.parked true false) hruns hstands nofun nofun).1
  | handOff source target =>
    obtain ⟨hruns, hstands⟩ := Bool.and_eq_true_iff.mp hallows
    exact (h.pass .ended hruns hstands nofun nofun).1
  | retire caller target =>
    refine h.retire fun {host} hget => h.not_hasTurn caller hget ?_ ?_
    · rw [allows, hget, Option.any_some] at hallows
      exact bne_iff_ne.mp hallows
    · simpa [spares] using hspares
  | look thread => exact h.modify thread fun hget => (h.fit hget).look
  | stir thread => exact h.modify thread fun hget => (h.fit hget).stir
  | finish thread =>
    refine h.modify thread fun {host} hget => ?_
    have hstage : host.stage = .unwinding := by
      rw [allows, hget, Option.any_some] at hallows
      exact eq_of_beq hallows
    have hdue := (h.fit hget).not_due_of_unwinding hstage
    obtain ⟨hfit, hleft⟩ := Host.fit_of_left host .ended hdue nofun nofun
    exact ⟨hfit, iff_of_false hleft (by simp [Host.HasTurn, hstage, hdue])⟩

/-! ## Signals given and signals used up -/

theorem runs_modify {change : Host → Host} (hruns : hosts.runs thread = true)
    (hchange : ∀ {host}, hosts[thread]? = some host → target = thread →
      host.stage = .running → (change host).stage = .running) :
    runs (List.modify hosts target change) thread = true := by
  obtain ⟨host, hget, hrunning⟩ := runs_iff.mp hruns
  refine runs_iff.mpr ⟨_, getElem?_modify_iff.mpr ⟨host, hget, rfl⟩, ?_⟩
  split
  · next heq => exact hchange hget heq hrunning
  · exact hrunning

/-- Whether the step passes the turn on. -/
def Step.passes : Step → Bool
  | .switch _ _ | .handOff _ _ => true
  | _ => false

/-- Only the thread itself can stop it from running. -/
theorem runs_perform (hruns : hosts.runs thread = true) (hallows : hosts.allows step = true)
    (hstays : step.passes = false) : (hosts.perform step).runs thread = true := by
  cases step with
  | create name =>
    obtain ⟨host, hget, hrunning⟩ := runs_iff.mp hruns
    exact runs_iff.mpr ⟨host, getElem?_create hget name, hrunning⟩
  | switch source target => cases hstays
  | handOff source target => cases hstays
  | retire caller target =>
    refine runs_modify hruns fun {host} hget heq hrunning => ?_
    rw [allows, heq, hget, Option.any_some, hrunning] at hallows
    cases hallows
  | look target =>
    refine runs_modify hruns fun {host} hget heq hrunning => ?_
    rw [Host.look, hrunning]
    exact hrunning
  | stir target =>
    exact runs_modify hruns fun hget heq hrunning => Host.stage_rung_eq_running.mpr hrunning
  | finish target =>
    refine runs_modify hruns fun {host} hget heq hrunning => ?_
    rw [allows, heq, hget, Option.any_some, hrunning] at hallows
    cases hallows

theorem Turn.account_of_stay (h : hosts.Turn holder) (h' : hosts'.Turn holder)
    (hkeeps : hosts.runs holder = true → hosts'.runs holder = true) (thread : Nat) :
    (hosts.due thread).toNat =
      (!hosts.runs thread && hosts'.runs thread).toNat + (hosts'.due thread).toNat := by
  by_cases heq : thread = holder
  · rw [heq, h.due_eq_not_runs, h'.due_eq_not_runs]
    revert hkeeps
    cases hosts.runs holder <;> cases hosts'.runs holder <;> simp
  · have hnot {p : Nat → Bool} (hp : p thread = true → thread = holder) : p thread = false :=
      Bool.eq_false_iff.mpr fun htrue => heq (hp htrue)
    rw [hnot h.eq_of_due, hnot h'.eq_of_due, hnot h'.eq_of_runs, Bool.and_false]
    rfl

theorem Turn.account_of_pass (h : hosts.Turn holder) (hruns : hosts.runs source = true)
    (h' : hosts'.Turn target) (hdue : hosts'.due target = true) (thread : Nat) :
    (target == thread).toNat + (hosts.due thread).toNat =
      (!hosts.runs thread && hosts'.runs thread).toNat + (hosts'.due thread).toNat := by
  have hnone : hosts.due thread = false := by
    obtain ⟨-, hnone⟩ | ⟨hnobody, -⟩ := h.sole
    · exact hnone thread
    · rw [hnobody] at hruns
      cases hruns
  have hnobody : hosts'.runs thread = false := by
    obtain ⟨-, hnone⟩ | ⟨hnobody, -⟩ := h'.sole
    · rw [hnone] at hdue
      cases hdue
    · exact hnobody thread
  have hgiven : hosts'.due thread = (target == thread) := by
    rw [Bool.eq_iff_iff, beq_iff_eq]
    exact ⟨fun hd => (h'.eq_of_due hd).symm, fun heq => heq ▸ hdue⟩
  rw [hnone, hnobody, hgiven, Bool.and_false]
  exact Nat.add_comm _ _

/-- What is given and what is in flight before a step is used up at it or in flight after it. -/
theorem Turn.account (h : hosts.Turn holder) (hallows : hosts.allows step = true)
    (hspares : hosts.spares step = true) (thread : Nat) :
    (step.signals thread).toNat + (hosts.due thread).toNat =
      (hosts.resumes step thread).toNat + ((hosts.perform step).due thread).toNat := by
  have hstay (hstays : step.passes = false) (hnext : step.next holder = holder) :
      (hosts.due thread).toNat =
        (hosts.resumes step thread).toNat + ((hosts.perform step).due thread).toNat :=
    h.account_of_stay (hnext ▸ h.perform hallows hspares)
      (fun hruns => runs_perform hruns hallows hstays) _
  cases step with
  | switch source target =>
    obtain ⟨hruns, hstands⟩ := Bool.and_eq_true_iff.mp hallows
    obtain ⟨h', hdue⟩ := h.pass (.parked true false) hruns hstands nofun nofun
    exact h.account_of_pass hruns h' hdue thread
  | handOff source target =>
    obtain ⟨hruns, hstands⟩ := Bool.and_eq_true_iff.mp hallows
    obtain ⟨h', hdue⟩ := h.pass .ended hruns hstands nofun nofun
    exact h.account_of_pass hruns h' hdue thread
  | create _ | retire _ _ | look _ | stir _ | finish _ =>
    exact (Nat.zero_add _).trans (hstay rfl rfl)

theorem Turn.account_play (h : hosts.Turn holder) (hplay : hosts.play steps = some hosts')
    (hsparing : hosts.sparing steps = true) (thread : Nat) :
    signalled steps thread + (hosts.due thread).toNat =
      hosts.resumptions steps thread + (hosts'.due thread).toNat := by
  induction steps generalizing hosts holder with
  | nil => cases hplay; rfl
  | cons step rest ih =>
    obtain ⟨hallows, hrest⟩ := play_cons_iff.mp hplay
    obtain ⟨hspares, hsparing⟩ := Bool.and_eq_true_iff.mp hsparing
    have hstep := h.account hallows hspares thread
    have hlater := ih (h.perform hallows hspares) hrest hsparing
    have hsignalled : signalled (step :: rest) thread =
        (step.signals thread).toNat + signalled rest thread := by
      rw [signalled, List.countP_cons, Nat.add_comm]
      cases step.signals thread <;> rfl
    rw [resumptions, hsignalled]
    omega

/-- A signal in flight is seen the next time that its thread looks. -/
theorem Turn.runs_look (h : hosts.Turn holder) (hdue : hosts.due thread = true) :
    (hosts.look thread).runs thread = true := by
  obtain ⟨host, hget, hrun⟩ := due_iff.mp hdue
  refine runs_iff.mpr ⟨host.look, ?_, (h.fit hget).stage_look hrun⟩
  rw [look, List.getElem?_modify_eq, hget]
  rfl

/-! ## Being told to end -/

/-- The thread has been told to end and does not run. -/
def Told (hosts : Hosts) (thread : Nat) : Prop :=
  ∃ host, hosts[thread]? = some host ∧ host.Told

theorem Told.not_runs (h : hosts.Told thread) : hosts.runs thread = false := by
  obtain ⟨host, hget, -, hstage⟩ := h
  simp [runs, hget, hstage]

theorem Told.modify (h : hosts.Told thread) (target : Nat) {change : Host → Host}
    (hchange : ∀ {host : Host}, host.Told → (change host).Told) :
    Told (List.modify hosts target change) thread := by
  obtain ⟨host, hget, htold⟩ := h
  refine ⟨_, getElem?_modify_iff.mpr ⟨host, hget, rfl⟩, ?_⟩
  split
  · exact hchange htold
  · exact htold

/-- No step of anybody, allowed or not, makes a thread run that has been told to end. -/
theorem Told.perform (h : hosts.Told thread) (step : Step) : (hosts.perform step).Told thread := by
  cases step with
  | create name =>
    obtain ⟨host, hget, htold⟩ := h
    exact ⟨host, getElem?_create hget name, htold⟩
  | switch source target =>
    exact (h.modify target fun htold => htold.give .run).modify source
      fun htold => ⟨htold.exit, nofun⟩
  | handOff source target =>
    exact (h.modify target fun htold => htold.give .run).modify source
      fun htold => ⟨htold.exit, nofun⟩
  | retire caller target =>
    exact h.modify target fun htold => ⟨(htold.give .exit).exit, (htold.give .exit).stopped⟩
  | look target => exact h.modify target Host.Told.look
  | stir target =>
    exact h.modify target fun htold =>
      ⟨htold.exit, mt Host.stage_rung_eq_running.mp htold.stopped⟩
  | finish target => exact h.modify target fun htold => ⟨htold.exit, nofun⟩

theorem Told.play (h : hosts.Told thread) (hplay : hosts.play steps = some hosts') :
    hosts'.Told thread :=
  play_induction (P := fun hosts => hosts.Told thread) hplay h fun htold _ => htold.perform _

/-- A thread that has been told to end neither begins its work any more nor goes on with it. -/
theorem Told.resumptions (h : hosts.Told thread) (steps : List Step) :
    hosts.resumptions steps thread = 0 := by
  induction steps generalizing hosts with
  | nil => rfl
  | cons step rest ih =>
    have hnext := h.perform step
    rw [Hosts.resumptions, resumes, hnext.not_runs, Bool.and_false, ih hnext]
    rfl

theorem told_retire (hallows : hosts.allows (.retire source target) = true) :
    (hosts.retire target).Told target := by
  obtain ⟨host, hget, hstage⟩ := (Option.any_eq_true _ _).mp hallows
  refine ⟨{ host.give .exit with spawned := false }, ?_, ?_, ?_⟩
  · rw [retire, List.getElem?_modify_eq, hget]
    rfl
  · simp only [Host.give, Baton.give]
    grind
  · exact mt Host.stage_rung_eq_running.mp (bne_iff_ne.mp hstage)

/-! ## Losing the turn -/

/-- Nobody has the turn. -/
structure Lost (hosts : Hosts) : Prop where
  nobody {thread : Nat} {host : Host} : hosts[thread]? = some host → ¬ host.HasTurn

theorem Lost.not_runs (h : hosts.Lost) (thread : Nat) : hosts.runs thread = false := by
  rw [Bool.eq_false_iff]
  intro hruns
  obtain ⟨host, hget, hrunning⟩ := runs_iff.mp hruns
  exact h.nobody hget (.inl hrunning)

theorem Lost.not_due (h : hosts.Lost) (thread : Nat) : hosts.due thread = false := by
  rw [Bool.eq_false_iff]
  intro hdue
  obtain ⟨host, hget, hrun⟩ := due_iff.mp hdue
  exact h.nobody hget (.inr hrun)

theorem Lost.modify (h : hosts.Lost) (target : Nat) {change : Host → Host}
    (hchange : ∀ {host : Host}, ¬ host.HasTurn → ¬ (change host).HasTurn) :
    Lost (List.modify hosts target change) := by
  refine ⟨fun {thread host} hthread => ?_⟩
  obtain ⟨old, hget, rfl⟩ := getElem?_modify_iff.mp hthread
  split
  · exact hchange (h.nobody hget)
  · exact h.nobody hget

/-- Once nobody has the turn, nobody ever gets it again. -/
theorem Lost.perform (h : hosts.Lost) (hallows : hosts.allows step = true) :
    (hosts.perform step).Lost := by
  cases step with
  | create name =>
    refine ⟨fun {thread host} hthread => ?_⟩
    rcases getElem?_append_made hthread with hget | rfl
    · exact h.nobody hget
    · exact Host.not_hasTurn_made name
  | switch source target | handOff source target =>
    rw [allows, h.not_runs source] at hallows
    cases hallows
  | retire caller target =>
    exact h.modify target fun hnot hturn => (Host.Fit.give_exit hnot).2 hturn
  | look target => exact h.modify target Host.not_hasTurn_look
  | stir target =>
    refine h.modify target fun hnot hturn => hnot ?_
    exact hturn.imp_left Host.stage_rung_eq_running.mp
  | finish target =>
    refine h.modify target fun hnot hturn => hnot ?_
    exact hturn.imp_left fun hended => by cases hended

/-- Telling a thread to end to which a signal to run is in flight leaves nobody to run. -/
theorem Turn.lost_retire (h : hosts.Turn holder) (hdue : hosts.due target = true) :
    (hosts.retire target).Lost := by
  obtain rfl := h.eq_of_due hdue
  obtain ⟨host, hget, hrun⟩ := due_iff.mp hdue
  obtain ⟨begun, hstage⟩ := (h.fit hget).told hrun
  refine ⟨fun {thread new} hthread => ?_⟩
  obtain ⟨old, hold, rfl⟩ := getElem?_modify_iff.mp hthread
  split
  · next heq =>
    cases hget.symm.trans (heq ▸ hold)
    simp [Host.HasTurn, Host.give, Baton.give, hrun, hstage, Stage.rung]
  · next hne => exact h.others hold (Ne.symm hne)

/-- The turn is lost in a run exactly if some step does not spare the signal in flight. -/
theorem Turn.play (h : hosts.Turn holder) (hplay : hosts.play steps = some hosts') :
    hosts.sparing steps = true ∧ (∃ holder', hosts'.Turn holder') ∨
      hosts.sparing steps = false ∧ hosts'.Lost := by
  induction steps generalizing hosts holder with
  | nil => exact .inl ⟨rfl, holder, Option.some.inj hplay ▸ h⟩
  | cons step rest ih =>
    obtain ⟨hallows, hrest⟩ := play_cons_iff.mp hplay
    cases hspares : hosts.spares step with
    | true =>
      rw [sparing, hspares, Bool.true_and]
      exact ih (h.perform hallows hspares) hrest
    | false =>
      refine .inr ⟨by rw [sparing, hspares, Bool.false_and], ?_⟩
      cases step with
      | retire caller target =>
        have hdue : hosts.due target = true := by simp_all [spares]
        exact play_induction (P := Lost) hrest (h.lost_retire hdue) fun hlost => hlost.perform
      | _ => cases hspares

/-! ## The law -/

/-- What holds of the hosts when a run has led to them. -/
structure TakeTurns (first : Hosts) (steps : List Step) (hosts : Hosts) : Prop where
  /-- If the signals in flight were spared, one thread runs and no signal to run is in flight, or
  none runs and one signal is. -/
  sole : first.sparing steps = true →
    (∃! thread, hosts.runs thread = true) ∧ (∀ thread, hosts.due thread = false) ∨
      (∀ thread, hosts.runs thread = false) ∧ ∃! thread, hosts.due thread = true
  /-- Otherwise nobody runs any more. -/
  lost : first.sparing steps = false →
    ∀ thread, hosts.runs thread = false ∧ hosts.due thread = false
  /-- Every signal to run that was given to a thread has made it go on once, or is in flight, if the
  signals in flight were spared. -/
  account (thread : Nat) : first.sparing steps = true → signalled steps thread =
    first.resumptions steps thread + (hosts.due thread).toNat
  /-- A signal in flight makes its thread run the next time that the thread looks at its baton. -/
  seen (thread : Nat) : hosts.due thread = true → (hosts.look thread).runs thread = true
  /-- A thread that was told to end in the course of the run has not gone on since. -/
  final {before after : List Step} {caller thread : Nat} {between : Hosts} :
    steps = before ++ .retire caller thread :: after → first.play before = some between →
      (between.retire thread).resumptions after thread = 0 ∧ hosts.runs thread = false

/-- In every run of a host that begins with one thread, the threads take turns, unless the turn is
lost to a signal to end that takes the place of a signal to run. -/
theorem takeTurns_adopted {name : String} (h : Hosts.play [.adopted name] steps = some hosts) :
    TakeTurns [.adopted name] steps hosts := by
  have hfirst := Turn.adopted name
  have hfinal : ∀ {before after caller thread between},
      steps = before ++ .retire caller thread :: after →
        Hosts.play [.adopted name] before = some between →
          (between.retire thread).resumptions after thread = 0 ∧ hosts.runs thread = false := by
    intro before after caller thread between hsteps hbetween
    rw [hsteps, play_append, hbetween, Option.bind_some] at h
    obtain ⟨hallows, hrest⟩ := play_cons_iff.mp h
    have htold := told_retire hallows
    exact ⟨htold.resumptions after, (htold.play hrest).not_runs⟩
  obtain ⟨hsparing, holder, hturn⟩ | ⟨hheedless, hlost⟩ := hfirst.play h
  · refine ⟨fun _ => hturn.sole, fun hheedless => ?_, fun thread _ => ?_,
      fun thread hdue => hturn.runs_look hdue, hfinal⟩
    · rw [hsparing] at hheedless
      cases hheedless
    · have hdue : due [.adopted name] thread = false := by
        obtain ⟨-, hnone⟩ | ⟨hnobody, -⟩ := hfirst.sole
        · exact hnone thread
        · cases hnobody 0
      have haccount := hfirst.account_play h hsparing thread
      rwa [hdue] at haccount
  · refine ⟨fun hsparing => ?_, fun _ thread => ⟨hlost.not_runs thread, hlost.not_due thread⟩,
      fun thread hsparing => ?_, fun thread hdue => ?_, hfinal⟩
    · rw [hheedless] at hsparing
      cases hsparing
    · rw [hheedless] at hsparing
      cases hsparing
    · rw [hlost.not_due thread] at hdue
      cases hdue

/-- A worker switches back before the main thread has looked at its baton, and is told to end before
it has looked at its own. A second worker is told to end before it has begun. -/
def overtaken : List Step :=
  [.create "first", .create "second", .switch 0 1, .look 1, .switch 1 0, .look 0, .retire 0 1,
    .look 1, .finish 1, .look 2, .retire 0 2, .look 2]

theorem takeTurns_overtaken :
    ∃ hosts, Hosts.play [.adopted "main"] overtaken = some hosts ∧
      TakeTurns [.adopted "main"] overtaken hosts ∧
      Hosts.sparing [.adopted "main"] overtaken = true ∧
      hosts.map Host.stage = [.running, .ended, .ended] ∧
      signalled overtaken 0 = 1 ∧ Hosts.resumptions [.adopted "main"] overtaken 0 = 1 :=
  have hplay : Hosts.play [.adopted "main"] overtaken = some
      [.adopted "main", { name := "first", baton := ⟨.exit⟩, spawned := false, stage := .ended },
        { name := "second", baton := ⟨.exit⟩, spawned := false, stage := .ended }] := by decide
  ⟨_, hplay, takeTurns_adopted hplay, by decide, rfl, rfl, by decide⟩

/-- The main thread hands off to a worker, and tells it to end before it has looked at its baton. -/
def heedless : List Step := [.create "first", .handOff 0 1, .retire 0 1]

/-- A signal to run is lost: nobody runs, and none is in flight. -/
theorem exists_turn_lost : ∃ hosts, Hosts.play [.adopted "main"] heedless = some hosts ∧
    (∀ thread, hosts.runs thread = false) ∧ (∀ thread, hosts.due thread = false) ∧
    signalled heedless 1 = 1 ∧ Hosts.resumptions [.adopted "main"] heedless 1 = 0 := by
  have hplay : Hosts.play [.adopted "main"] heedless = some
      [{ name := "main", spawned := false, stage := .ended },
        { name := "first", baton := ⟨.exit⟩, spawned := false, stage := .parked false false }] := by
    decide
  obtain ⟨hsparing, -⟩ | ⟨-, hlost⟩ := (Turn.adopted "main").play hplay
  · exact absurd hsparing (by decide)
  · exact ⟨_, hplay, hlost.not_runs, hlost.not_due, rfl, by decide⟩

end Hosts
end CoopKernel.Hosted
