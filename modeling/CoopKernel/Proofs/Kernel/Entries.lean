import CoopKernel.Proofs.Kernel.Estates

/-!
# Entries

What a thread does when it is activated is said by its entry: the idle thread rests, and every other
thread begins a program. A thread is entered when it is created and struck off when it is removed,
and nothing else changes an entry (`Reachable.enrolment`). So whoever can be activated has a program
to begin (`Reachable.enrolled`), and it is the same one each time (`Reachable.entry_kept`).
-/

namespace CoopKernel.Kernel

variable {ε : Type} {W : PoolId → Prop} {k k' : Kernel ε} {me id : ThreadId} {move : Move ε}
  {moves : List (Move ε)} {ticking : Bool} {events : List Trace.Event}

/-- What a move can do to the entries. -/
inductive Enrolment (k k' : Kernel ε) : Prop
  /-- Threads come, each with its entry, and nobody goes. -/
  | grown (newcomers : List (ThreadId × ε))
    (hentries : k'.entries =
      k.entries ++ newcomers.map fun newcomer => (newcomer.1, .start newcomer.2))
    (hthreads : ∀ j, (k'.sched.threads.get? j).isSome = true ↔
      (k.sched.threads.get? j).isSome = true ∨ j ∈ newcomers.map Prod.fst)
  | gone {id : ThreadId} (hgone : Gone k k' id)

/-! ## Look-ups -/

/-- Whoever is struck off is looked up in vain, and the others as before. -/
theorem lookup_struck (entries : List (ThreadId × Destination ε)) (id other : ThreadId) :
    (entries.filter (·.1 != id)).lookup other = if other = id then none else entries.lookup other :=
  Registry.get?_erase (⟨entries, 0⟩ : Registry .thread (Destination ε)) id other

/-- Unless a thread is removed, nobody goes in a turn. -/
theorem Turn.enrolment (h : Turn move ticking { k with line := k'.line } k' me events)
    (hnobody : ∀ id, .threadDelete id ∉ events) : Enrolment k k' := by
  obtain ⟨newcomers, hentries, hnew⟩ := h.enrols hnobody
  refine .grown newcomers hentries fun j => ⟨fun hsome => ?_, ?_⟩
  · obtain ⟨t', ht'⟩ := Option.isSome_iff_exists.mp hsome
    rcases h.stack ht' with ⟨t, ht, -⟩ | ⟨p, hreported⟩
    · exact .inl (by rw [ht]; rfl)
    · exact .inr ((hnew j).mpr ⟨p, hreported⟩)
  · rintro (hsome | hnewcomer)
    · obtain ⟨t, ht⟩ := Option.isSome_iff_exists.mp hsome
      refine Option.isSome_iff_ne_none.mpr fun hnone => ?_
      exact hnobody j (h.deleted_of_gone ht hnone)
    · obtain ⟨p, hreported⟩ := (hnew j).mp hnewcomer
      obtain ⟨t', -, -, ht', -⟩ := h.creations hreported
      rw [← isSome_standing, ht']
      rfl

theorem enrolment_of_same (hentries : k'.entries = k.entries)
    (hthreads : ∀ j, (k'.sched.threads.get? j).isSome = (k.sched.threads.get? j).isSome) :
    Enrolment k k' :=
  .grown [] (by simp [hentries]) fun j => by simp [hthreads]

/-- A call to remove a thread strikes it off or leaves everybody alone. -/
theorem Calls.enrolment (h : k.Calls k' me (.threadDelete id)) : Enrolment k k' := by
  cases hremovable : k.removable id with
  | true => exact .gone (h.gone hremovable).1
  | false =>
    obtain ⟨status, hsame, -⟩ := h.kept hremovable
    exact enrolment_of_same (by rw [hsame.same]) fun j => by rw [hsame.same]

theorem Reachable.enrolment (h : k.Reachable) (hallowed : k.allows move = true)
    (hperform : k.perform move = .ok k') : Enrolment k k' := by
  by_cases hremoval : ∃ id, move = .call (.threadDelete id)
  · obtain ⟨id, rfl⟩ := hremoval
    obtain ⟨me, -, hcurrent, -⟩ := h.sound.upright.busy
    exact Calls.enrolment ⟨h, hallowed, hcurrent, hperform⟩
  · cases (h.sound.moved hallowed hperform).effect with
    | still hsched _ _ _ _ _ hentries =>
      exact enrolment_of_same hentries fun j => by rw [hsched]
    | turn _ _ hturn =>
      exact hturn.enrolment fun id hmem => hremoval ⟨id, hturn.explained _ hmem⟩
    | shutdown _ _ _ _ _ hsched _ _ _ _ hentries =>
      refine enrolment_of_same hentries fun j => ?_
      rw [hsched, ← Option.isSome_map (f := Thread.unplaced), unplaced_foldl_forgetPosition,
        Option.isSome_map]

/-! ## Runs -/

/-- A thread that stays keeps its entry. -/
theorem Enrolment.entry (h : Enrolment k k') {entry : Destination ε}
    (hentry : k.entries.lookup id = some entry)
    (hstays : (k'.sched.threads.get? id).isSome = true) : k'.entries.lookup id = some entry := by
  cases h with
  | grown newcomers hentries _ =>
    rw [hentries, List.lookup_append, hentry]
    rfl
  | @gone other hgone =>
    have hne : id ≠ other := by
      rintro rfl
      simp [hgone.thread] at hstays
    rw [hgone.entry, lookup_struck, if_neg hne, hentry]

/-- The rule that a thread stays registered. -/
def remains (id : ThreadId) (k : Kernel ε) (move : Move ε) : Bool :=
  (k.perform move).toOption.all fun k' => (k'.sched.threads.get? id).isSome

theorem Reachable.play (h : k.Reachable) (hplay : k.play moves = some k') : k'.Reachable := by
  obtain ⟨config, arena, first, before, hstart, hbefore⟩ := h
  exact ⟨config, arena, first, before ++ moves, hstart, by rw [play_append, hbefore]; exact hplay⟩

/-- A thread keeps its entry as long as it stays. -/
theorem Reachable.entry_kept (h : k.Reachable) (hplay : k.play moves = some k')
    (hstays : k.follows (remains id) moves = true) {entry : Destination ε}
    (hentry : k.entries.lookup id = some entry)
    (hsome : (k.sched.threads.get? id).isSome = true) :
    k'.entries.lookup id = some entry ∧ (k'.sched.threads.get? id).isSome = true := by
  refine h.sound.play_induction (P := fun moves next => k.follows (remains id) moves = true →
    next.entries.lookup id = some entry ∧ (next.sched.threads.get? id).isSome = true) hplay
    (fun _ => ⟨hentry, hsome⟩) ?_ hstays
  intro before move last next hbefore _ hallowed hperform _ ih hstays
  obtain ⟨hstays, hmove⟩ := (follows_concat hbefore hperform).mp hstays
  have hthere : (next.sched.threads.get? id).isSome = true := by
    rw [remains, hperform] at hmove
    exact hmove
  exact ⟨((h.play hbefore).enrolment hallowed hperform).entry (ih hstays).1 hthere, hthere⟩

end CoopKernel.Kernel
