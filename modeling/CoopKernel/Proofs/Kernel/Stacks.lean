import Mathlib.Data.List.TakeWhile
import CoopKernel.Proofs.Kernel.Acquisition

/-!
# The stacks of threads

A thread that a program creates gets its stack from the system pool, also if it had to be waited
for. From then on the stack stays allocated until the journal reports a release at its address to
the system pool (`Kernel.Custody`). This holds in every kernel that a run leads to
(`Reachable.custody`).

It cannot be said that a stack stays allocated as long as its thread exists, because nothing keeps a
program from releasing it. The journal shows whether that has happened (`Kernel.spares`).
-/

namespace CoopKernel

variable {ε : Type}

/-- Whether an event says that a thread was created. -/
def Trace.Event.creates (id : ThreadId) : Trace.Event → Bool
  | .threadCreate other _ => other == id
  | _ => false

/-! ## Records -/

section

variable {ticking : Bool} {events : List Trace.Event} {id me : ThreadId} {pool : PoolId}
  {t t' : Thread (Position ε)} {t? : Option (Thread (Position ε))} {move : Move ε}
  {here : Position ε}

theorem Thread.stack_chime (t : Thread (Position ε)) : t.chime.stack = t.stack := by
  rw [chime, countedDown]
  split
  · split <;> rfl
  · rfl

/-- A thread has the stack it was created with. -/
theorem Fate.stack (h : Fate ticking events id t? (some t')) :
    (∃ t, t? = some t ∧ t.stack = t'.stack) ∨ ∃ p, .threadCreate id p ∈ events := by
  generalize hafter : some t' = after at h
  cases h with
  | kept _ => exact .inl ⟨t', hafter.symm, rfl⟩
  | chimed _ =>
    obtain ⟨t, rfl, rfl⟩ := Option.map_eq_some_iff.mp hafter.symm
    exact .inl ⟨t, rfl, t.stack_chime.symm⟩
  | created _ hreported => exact .inr ⟨_, hreported⟩
  | deleted _ _ => cases hafter
  | _ =>
    obtain rfl := Option.some.inj hafter
    exact .inl ⟨_, rfl, rfl⟩

theorem Own.stack (h : Own move events me t t') : t'.stack = t.stack := by
  cases h <;> rfl

/-- Others do not move a thread, unless they let it begin its program. -/
theorem Fate.position (h : Fate ticking events id t? (some t')) (htidy : ∀ t, t? = some t → t.Tidy)
    (halive : t'.state ≠ .dead) :
    (∃ t, t? = some t ∧ t.state ≠ .dead ∧ t.position = t'.position) ∨
      ∃ entry, t'.position = some (.delivering entry) := by
  have hwaiting : ∀ {t reason}, t? = some t → t.waitingFor = some reason → t.state ≠ .dead := by
    intro t reason ht hreason
    simp [(htidy t ht).waiting_iff.mpr (by simp [hreason])]
  generalize hafter : some t' = after at h
  cases h with
  | kept _ => exact .inl ⟨t', hafter.symm, halive, rfl⟩
  | chimed _ =>
    obtain ⟨t, rfl, rfl⟩ := Option.map_eq_some_iff.mp hafter.symm
    refine .inl ⟨t, rfl, fun hdead => halive ?_, t.position_chime.symm⟩
    have hnone := (htidy t rfl).waitingFor_eq_none (by simp [hdead])
    rw [Thread.chime_of_untimed (by simp [hnone]), hdead]
  | created hblank _ =>
    obtain rfl := Option.some.inj hafter
    exact absurd hblank.dead halive
  | deleted _ _ => cases hafter
  | activated _ entry =>
    obtain rfl := Option.some.inj hafter
    exact .inr ⟨entry, rfl⟩
  | buried _ =>
    obtain rfl := Option.some.inj hafter
    exact absurd rfl halive
  | served hreason =>
    obtain rfl := Option.some.inj hafter
    exact .inl ⟨_, rfl, hwaiting rfl hreason, rfl⟩
  | informed hreason _ =>
    obtain rfl := Option.some.inj hafter
    exact .inl ⟨_, rfl, hwaiting rfl hreason, rfl⟩
  | received hwanted _ =>
    obtain rfl := Option.some.inj hafter
    exact .inl ⟨_, rfl, hwaiting rfl ((htidy _ rfl).wanted_iff.mp (by simp [hwanted])), rfl⟩

/-- A thread comes to wait for the stack of a new thread only by saying so. -/
theorem Own.stackPool? (h : Own move events me t t') (halive : t'.state ≠ .dead)
    (hposition : t'.position = some here) (hpool : here.stackPool? = some pool) :
    .wait pool me ∈ events := by
  have hplain : ∀ {other : Position ε}, some other = some here → other.stackPool? = none →
      .wait pool me ∈ events := by
    intro other hsame hnone
    rw [Option.some.inj hsame, hpool] at hnone
    cases hnone
  cases h with
  | went here hnone => exact hplain hposition hnone
  | took _ here hnone => exact hplain hposition hnone
  | gave _ here hnone => exact hplain hposition hnone
  | slept _ _ _ _ here hnone => exact hplain hposition hnone
  | queued _ _ => exact hplain hposition rfl
  | starved hreported size purpose =>
    obtain rfl := Option.some.inj hposition
    cases purpose with
    | address => cases hpool
    | stack _ _ =>
      obtain rfl := Option.some.inj hpool
      exact hreported
  | died _ _ => exact absurd rfl halive

end

namespace Kernel

variable {W W' : PoolId → Prop} {k k' : Kernel ε} {me id : ThreadId} {move : Move ε}
  {ticking : Bool} {events : List Trace.Event} {stack? : Option Stack}

/-! ## Custody -/

/-- What has been reported since a thread was created. -/
def reportedSince (k : Kernel ε) (id : ThreadId) : List Trace.Event :=
  (k.journal.map (·.event)).dropWhile fun event => !event.creates id

/-- Whether the stack of a thread has been spared: nothing at its address was released to the system
pool since the thread was created. -/
def spares (k : Kernel ε) (id : ThreadId) : Bool :=
  (k.sched.threads.get? id).all fun thread => thread.stack.all fun stack =>
    !(k.reportedSince id).contains (.free k.systemPool stack.address)

/-- A thread was created, and its stack is allocated unless it was released since. -/
structure Kept (k : Kernel ε) (id : ThreadId) (stack? : Option Stack) : Prop where
  created : ∃ p, .threadCreate id p ∈ k.journal.map (·.event)
  leased : ∃ stack, stack? = some stack ∧
    (.free k.systemPool stack.address ∉ k.reportedSince id →
      k.pools.Leases k.systemPool stack.address stack.size)

/-- The stacks of threads are allocated in the system pool. -/
structure Custody (k : Kernel ε) : Prop where
  /-- Whoever waits for the stack of a new thread waits for the system pool. -/
  orders : k.stopped = false → ∀ {id t here pool}, k.standing id = some t → t.state ≠ .dead →
    t.position = some here → here.stackPool? = some pool → pool = k.systemPool
  kept : ∀ {id t}, k.sched.threads.get? id = some t → k.isSystemThread id = false →
    k.Kept id t.stack

/-! ## The journal goes on -/

theorem systemPool_of_fixed (h : k'.fixed = k.fixed) : k'.systemPool = k.systemPool :=
  congrArg (·.2.2.2.1) h

theorem isSystemThread_of_fixed (h : k'.fixed = k.fixed) (id : ThreadId) :
    k'.isSystemThread id = k.isSystemThread id := by
  have hmain : k'.main = k.main := congrArg (·.2.1) h
  have hidle : k'.idle = k.idle := congrArg (·.2.2.1) h
  rw [isSystemThread, hmain, hidle, isSystemThread]

/-- Once a thread has been created, what is reported is added to what has been reported since. -/
theorem reportedSince_append {new : List Trace.Stamped} (hjournal : k'.journal = k.journal ++ new)
    (hcreated : ∃ p, .threadCreate id p ∈ k.journal.map (·.event)) :
    k'.reportedSince id = k.reportedSince id ++ new.map (·.event) := by
  obtain ⟨p, hmem⟩ := hcreated
  have hsome : k.reportedSince id ≠ [] := by
    rw [reportedSince, Ne, List.dropWhile_eq_nil_iff]
    intro hnone
    simpa [Trace.Event.creates] using hnone _ hmem
  rw [reportedSince, hjournal, List.map_append, List.dropWhile_append]
  exact if_neg (by simpa [reportedSince] using hsome)

/-- A stack that was kept is kept, as long as allocations are kept but for those that are reported
to be released. -/
theorem Kept.mono {new : List Trace.Stamped} (h : k.Kept id stack?) (hfixed : k'.fixed = k.fixed)
    (hjournal : k'.journal = k.journal ++ new)
    (hkeeps : ∀ {pool address size}, k.pools.Leases pool address size →
      k'.pools.Leases pool address size ∨ .free pool address ∈ new.map (·.event)) :
    k'.Kept id stack? := by
  obtain ⟨hcreated, stack, hstack, hleased⟩ := h
  refine ⟨?_, stack, hstack, fun hspared => ?_⟩
  · obtain ⟨p, hmem⟩ := hcreated
    rw [hjournal, List.map_append]
    exact ⟨p, List.mem_append_left _ hmem⟩
  · rw [reportedSince_append hjournal hcreated, systemPool_of_fixed hfixed, List.mem_append, not_or]
      at hspared
    rw [systemPool_of_fixed hfixed]
    exact (hkeeps (hleased hspared.1)).resolve_right hspared.2

/-- The events that a turn has reported are in the journal. -/
theorem Turn.journal_eq (h : Turn move ticking k k' me events) :
    ∃ new, k'.journal = k.journal ++ new ∧ events ⊆ new.map (·.event) := by
  obtain ⟨tail, -, hjournal⟩ := h.journal
  refine ⟨_, hjournal, ?_⟩
  rw [List.map_map]
  simp [Function.comp_def]

/-! ## One move -/

/-- The stack of a new thread comes from the system pool, also if the running thread has waited for
it. -/
theorem Custody.eq_of_mayStackFrom (h : k.Custody) (hsound : k.Sound W) (hgoing : k.stopped = false)
    {pool : PoolId} (hfrom : k.MayStackFrom pool) : pool = k.systemPool := by
  rcases hfrom with heq | ⟨here, hactivity, hpool⟩
  · exact heq
  · obtain ⟨_, t, -, ht, hrunning, -⟩ := hsound.upright.busy
    exact h.orders hgoing (standing_of_running ht hrunning) (by simp) hactivity hpool

/-- Somebody who waits for the stack of a new thread after a turn waits for the system pool, if
everybody did before. -/
theorem Turn.orders (h : Turn move ticking { k with line := k'.line } k' me events)
    (hsound : k.Sound W) (hgoing : k.stopped = false) (hcurrent : k.sched.current = some me)
    (hcustody : k.Custody) {t' : Thread (Position ε)} {here : Position ε} {pool : PoolId}
    (hstands : k'.standing id = some t') (halive : t'.state ≠ .dead)
    (hposition : t'.position = some here) (hpool : here.stackPool? = some pool) :
    pool = k.systemPool := by
  by_cases hid : id = me
  · -- The running thread has begun to wait in this turn, for the first time or once more.
    subst hid
    obtain ⟨t, _, ht, hstands', hown⟩ := h.own
    obtain rfl := Option.some.inj (hstands.symm.trans hstands')
    obtain ⟨-, _, size, purpose, hstands'', -, hwaits, hfrom⟩ :=
      h.waits (hown.stackPool? halive hposition hpool)
    obtain rfl := Option.some.inj (hstands.symm.trans hstands'')
    obtain rfl := Option.some.inj (hposition.symm.trans hwaits)
    have hstack : purpose.isStack = true := by
      cases purpose with
      | address => cases hpool
      | stack _ _ => rfl
    exact hcustody.eq_of_mayStackFrom hsound hgoing (hfrom hstack)
  · -- Everybody else has waited before.
    have hlives : k'.lives id = true := by
      obtain ⟨u, hu, ⟨hrunning, -⟩ | ⟨-, rfl⟩⟩ := exists_of_standing hstands
      · exact lives_iff.mpr ⟨u, hu, by simp [hrunning]⟩
      · exact lives_iff.mpr ⟨_, hu, halive⟩
    obtain ⟨hstanding, u, hu, -, hfate⟩ := h.other hsound hcurrent hid hlives
    obtain rfl := Option.some.inj (hstands.symm.trans hu)
    rcases hfate.position (fun t ht => hsound.upright.orderly.tidy (hstanding ▸ ht)) halive with
      ⟨t, ht, halive, hsame⟩ | ⟨entry, hentry⟩
    · exact hcustody.orders hgoing ht halive (hsame.trans hposition) hpool
    · obtain rfl := Option.some.inj (hposition.symm.trans hentry)
      cases hpool

/-- A thread that is registered after a turn has the stack it had before, or was created. -/
theorem Turn.stack (h : Turn move ticking { k with line := k'.line } k' me events)
    {t' : Thread (Position ε)} (ht' : k'.sched.threads.get? id = some t') :
    (∃ t, k.sched.threads.get? id = some t ∧ t.stack = t'.stack) ∨
      ∃ p, .threadCreate id p ∈ events := by
  obtain ⟨u, hu, hstack⟩ : ∃ u, k'.standing id = some u ∧ u.stack = t'.stack := by
    rw [standing, ht', Option.map_some]
    refine ⟨_, rfl, ?_⟩
    split <;> rfl
  by_cases hid : id = me
  · subst hid
    obtain ⟨t, _, ht, hstands, hown⟩ := h.own
    obtain rfl := Option.some.inj (hu.symm.trans hstands)
    exact .inl ⟨t, ht, hown.stack.symm.trans hstack⟩
  · have hfate := h.others id hid
    rw [hu] at hfate
    rw [← hstack]
    exact hfate.stack

/-- The stack of a thread that a turn creates is allocated in the system pool. -/
theorem Turn.kept_of_created (h : Turn move ticking { k with line := k'.line } k' me events)
    (hsound : k.Sound W) (hgoing : k.stopped = false) (hcustody : k.Custody) {p : Priority}
    (hcreated : .threadCreate id p ∈ events) {t' : Thread (Position ε)}
    (ht' : k'.sched.threads.get? id = some t') : k'.Kept id t'.stack := by
  obtain ⟨u, stack, pool, hu, hstack, hleases, hfrom, -⟩ := h.creations hcreated
  have hsame : u.stack = t'.stack := by
    rw [standing, ht', Option.map_some, Option.some.injEq] at hu
    rw [← hu]
    split <;> rfl
  have hpool : pool = k.systemPool := hcustody.eq_of_mayStackFrom hsound hgoing hfrom
  obtain ⟨new, hjournal, hreported⟩ := h.journal_eq
  refine ⟨⟨p, ?_⟩, stack, hsame ▸ hstack, fun _ => ?_⟩
  · rw [hjournal, List.map_append]
    exact List.mem_append_right _ (hreported hcreated)
  · rw [systemPool_of_fixed h.fixed]
    exact hpool ▸ hleases

/-- The running thread does not come to wait for the stack of a new thread without a turn. -/
theorem Drift.orders {activity : Activity ε} {here : Position ε} (h : Drift k move activity)
    (hposition : activity.position? = some here) (hpool : here.stackPool? ≠ none) :
    activity = k.activity := by
  have hplain : ∀ {other : Position ε}, some other = some here → other.stackPool? = none →
      activity = k.activity := by
    intro other hsame hnone
    exact absurd (Option.some.inj hsame ▸ hnone) hpool
  cases h with
  | stays => rfl
  | rouses _ => exact hplain hposition rfl
  | @reaches destination _ _ => cases destination <;> cases hposition
  | barred _ answer => exact hplain hposition rfl
  | _ => cases hposition

theorem Moved.custody (h : Moved move k k') (hsound : k.Sound W) (hcustody : k.Custody) :
    k'.Custody := by
  -- Without a turn nothing is allocated, released or reported.
  have hkept : ∀ {id stack?}, k'.pools = k.pools → k'.journal = k.journal → k'.fixed = k.fixed →
      k.Kept id stack? → k'.Kept id stack? := fun hpools hjournal hfixed h =>
    h.mono hfixed (hjournal.trans (List.append_nil _).symm) fun hleases => .inl (hpools ▸ hleases)
  cases h.effect with
  | still hsched hpools hstopped hjournal hdrift hfixed =>
    refine ⟨fun hgoing id t here pool hstands halive hposition hpool => ?_, fun ht hsystem => ?_⟩
    · rw [systemPool_of_fixed hfixed]
      obtain ⟨u, hu, hcase⟩ := exists_of_standing hstands
      rw [hsched] at hu
      have hbefore : k.standing id = some t := by
        rcases hcase with ⟨hrunning, rfl⟩ | ⟨hnot, rfl⟩
        · rw [standing_of_running hu hrunning, hdrift.orders hposition (by simp [hpool])]
        · rw [standing, hu, Option.map_some, if_neg hnot]
      exact hcustody.orders (hstopped.symm.trans hgoing) hbefore halive hposition hpool
    · rw [isSystemThread_of_fixed hfixed] at hsystem
      exact hkept hpools hjournal hfixed (hcustody.kept (hsched ▸ ht) hsystem)
  | @turn me ticking events hgoing hcurrent hturn =>
    have hfixed : k'.fixed = k.fixed := hturn.fixed
    refine ⟨fun _ id t here pool hstands halive hposition hpool => ?_, fun ht hsystem => ?_⟩
    · rw [systemPool_of_fixed hfixed]
      exact hturn.orders hsound hgoing hcurrent hcustody hstands halive hposition hpool
    · rw [isSystemThread_of_fixed hfixed] at hsystem
      rcases hturn.stack ht with ⟨u, hu, hstack⟩ | ⟨p, hcreated⟩
      · obtain ⟨new, hjournal, hreported⟩ := hturn.journal_eq
        exact hstack ▸ (hcustody.kept hu hsystem).mono hfixed hjournal fun hleases =>
          (hturn.keeps.leases hleases).imp_right fun hfreed => hreported hfreed
      · exact hturn.kept_of_created hsound hgoing hcustody hcreated ht
  | @shutdown _ _ hstopped hpools hjournal hsched _ _ _ hfixed =>
    refine ⟨fun hgoing => by simp [hstopped] at hgoing, fun {id t} ht hsystem => ?_⟩
    rw [isSystemThread_of_fixed hfixed] at hsystem
    obtain ⟨u, hu, hsame⟩ := exists_of_forgotten hsched ht
    have hstack := congrArg Thread.stack hsame
    change u.stack = t.stack at hstack
    exact hstack ▸ hkept hpools hjournal hfixed (hcustody.kept hu hsystem)

/-! ## Runs -/

/-- At the start there are only the threads that the kernel cannot do without, and nobody waits for
a stack. -/
theorem start_custody {config : Config} {arena : Arena} {first : Kernel ε}
    (hstart : start config arena = .ok first) : first.Custody := by
  obtain ⟨pools, address, systemPool, sharedPool, -, -, rfl⟩ := start_eq hstart
  refine ⟨fun _ id t here pool hstands _ hposition hpool => ?_, fun ht hsystem => ?_⟩
  · obtain ⟨u, hu, hcase⟩ := exists_of_standing hstands
    rcases eq_of_get?_early hu with ⟨rfl, rfl⟩ | ⟨rfl, rfl⟩
    · rcases hcase with ⟨-, rfl⟩ | ⟨hnot, -⟩
      · cases hposition
      · exact absurd rfl hnot
    · rcases hcase with ⟨hrunning, -⟩ | ⟨-, rfl⟩
      · cases hrunning
      · obtain rfl := Option.some.inj hposition
        cases hpool
  · rcases eq_of_get?_early ht with ⟨rfl, -⟩ | ⟨rfl, -⟩ <;> cases hsystem

/-- In every kernel that a run leads to, stacks are where they should be. -/
theorem Reachable.custody (h : k.Reachable) : k.Custody := by
  obtain ⟨config, arena, first, moves, hstart, hplay⟩ := h
  refine (start_sound hstart).play_induction (P := fun _ k => k.Custody) hplay
    (start_custody hstart) ?_
  intro before move last next _ hlast hallowed hperform _ hcustody
  exact (hlast.moved hallowed hperform).custody hlast hcustody

end Kernel

end CoopKernel
