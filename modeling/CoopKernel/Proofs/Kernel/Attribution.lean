import CoopKernel.Proofs.Kernel.Tokens

/-!
# Whose result a call returns

In a run in which results are put on the line by completing tokens only, every result that a call
returns was passed to the token that ended its wait, which is a token of its own thread
(`Desk.Accounted.returns`). Whether it was the token that the call itself handed out is another
matter, because a result on the line names only the thread.

* `Desk.start_accounted`: the waits of a thread are all ended by their own tokens exactly if none of
  them is ended by the token of an earlier call of the thread that was cut off.
* `Desk.exists_astray`: a token can be completed after the life of its thread was ended and begun
  anew, and then the thread takes the result for its own.
-/

namespace CoopKernel.Desk

open Kernel

variable {ε : Type} {d d' d₁ d₂ : Desk ε} {deed : Deed ε} {deeds : List (Deed ε)}
  {first : Kernel ε} {id : ThreadId} {c : Completion} {n : Nat} {r : Int32}

/-! ## Runs -/

theorem play_cons_iff : d.play (deed :: deeds) = some d₂ ↔
    ∃ d₁, d.perform deed = some d₁ ∧ d₁.play deeds = some d₂ := by
  rw [play, Option.bind_eq_some_iff]

theorem play_append_iff {before after : List (Deed ε)} : d.play (before ++ after) = some d₂ ↔
    ∃ d₁, d.play before = some d₁ ∧ d₁.play after = some d₂ := by
  induction before generalizing d with
  | nil => simp [play]
  | cons deed rest ih => simp only [List.cons_append, play_cons_iff, ih]; grind

/-- The kernel of a desk makes the moves of the deeds. -/
theorem kernel_play (hplay : d.play deeds = some d₂) :
    d.kernel.play (deeds.map Deed.move) = some d₂.kernel := by
  induction deeds generalizing d with
  | nil =>
    obtain rfl := Option.some.inj hplay
    rfl
  | cons deed rest ih =>
    obtain ⟨d₁, hdone, hrest⟩ := play_cons_iff.mp hplay
    obtain ⟨hpermits, k', hperform, rfl⟩ := perform_eq_some.mp hdone
    rw [List.map_cons, Kernel.play_cons_iff]
    refine ⟨k', allows_of_permits hpermits, hperform, ?_⟩
    rw [← after_kernel d deed k']
    exact ih hrest

theorem Orderly.perform (h : d.Orderly) (hdone : d.perform deed = some d') : d'.Orderly := by
  obtain ⟨hpermits, k', hperform, rfl⟩ := perform_eq_some.mp hdone
  exact h.after hpermits hperform

theorem Orderly.play (h : d.Orderly) (hplay : d.play deeds = some d₂) : d₂.Orderly := by
  induction deeds generalizing d with
  | nil =>
    obtain rfl := Option.some.inj hplay
    exact h
  | cons deed rest ih =>
    obtain ⟨d₁, hdone, hrest⟩ := play_cons_iff.mp hplay
    exact ih (h.perform hdone) hrest

/-- At the start nothing has been handed out. -/
theorem start_orderly {config : Config} {arena : Arena} (hstart : start config arena = .ok first) :
    ({ kernel := first } : Desk ε).Orderly := by
  have hline : first.line.pending = [] := by
    obtain ⟨_, _, _, _, -, -, rfl⟩ := start_eq hstart
    rfl
  refine ⟨(start_sound hstart).weaken False.elim, ?_, ?_, fun _ => by rw [hline]; rfl, ?_, ?_, ?_,
    ?_, ?_⟩ <;> simp [completed, Own]

/-- What has been completed, and what has ended which wait, stays so. -/
theorem Orderly.play_extends (h : d.Orderly) (hplay : d.play deeds = some d₂) :
    d.completed ⊆ d₂.completed ∧ d.ended ⊆ d₂.ended := by
  induction deeds generalizing d with
  | nil =>
    obtain rfl := Option.some.inj hplay
    exact ⟨List.Subset.refl _, List.Subset.refl _⟩
  | cons deed rest ih =>
    obtain ⟨d₁, hdone, hrest⟩ := play_cons_iff.mp hplay
    obtain ⟨hcompleted, hended⟩ := ih (h.perform hdone) hrest
    obtain ⟨-, k', -, rfl⟩ := perform_eq_some.mp hdone
    refine ⟨List.Subset.trans ?_ hcompleted, List.Subset.trans ?_ hended⟩
    · cases hstopped : d.kernel.stopped with
      | true =>
        rw [Desk.after, if_pos hstopped]
        exact List.Subset.refl _
      | false =>
        rw [(h.completed_after hstopped).1]
        exact List.subset_append_left _ _
    · rw [Desk.after]
      split
      · exact List.Subset.refl _
      · exact List.subset_append_left _ _

/-- The first result that is dispatched for a thread that waits was passed to the token that ends
the wait. -/
theorem Orderly.first_result (h : d₁.Orderly) (hplay : d₁.play deeds = some d₂)
    (hgoing : d₂.kernel.stopped = false) (hwaits : d₁.waitsOn id n = true)
    (hquiet : d₁.kernel.follows (quiet id) (deeds.map Deed.move) = true)
    (hfirst : (resultsFor id (d₁.kernel.dispatchedIn (deeds.map Deed.move))).head? = some r) :
    ∃ c ∈ d₂.completed, c.thread = id ∧ c.result = r ∧ (c.token, n) ∈ d₂.ended := by
  induction deeds generalizing d₁ with
  | nil => cases hfirst
  | cons deed rest ih =>
    have hgoing₁ := h.sound.going (kernel_play hplay) hgoing
    obtain ⟨d', hdone, hrest⟩ := play_cons_iff.mp hplay
    obtain ⟨hpermits, k', hperform, rfl⟩ := perform_eq_some.mp hdone
    have horderly := h.after hpermits hperform
    rw [List.map_cons] at hquiet hfirst
    obtain ⟨hrule, hquiet⟩ := (follows_cons hperform).mp hquiet
    rw [dispatchedIn_cons hperform, resultsFor_append] at hfirst
    obtain ⟨-, hlives⟩ := (quiet_iff hperform).mp hrule
    rcases h.waitsOn_after hgoing₁ (allows_of_permits hpermits) hperform hwaits with
      ⟨hwaits', hnone⟩ | hcut | ⟨c, htold, hthread, htaken⟩
    · rw [hnone, List.nil_append] at hfirst
      have hsame := after_kernel d₁ deed k'
      exact ih horderly hrest hwaits' (by rwa [hsame]) (by rwa [hsame])
    · rcases mem_cuts_iff.mp hcut with ⟨j, hj, hdead⟩ | ⟨-, rfl⟩
      · obtain rfl := Option.some.inj ((issued_of_latest (waitsOn_iff.mp hj).2).symm.trans
          (issued_of_latest (waitsOn_iff.mp hwaits).2))
        rw [hlives] at hdead
        cases hdead
      · exact absurd (lt_of_waitsOn hwaits) (Nat.lt_irrefl _)
    · rw [htaken] at hfirst
      obtain ⟨hcompleted, hended⟩ := horderly.play_extends hrest
      refine ⟨c, hcompleted ?_, hthread, Option.some.inj hfirst, hended ?_⟩
      · rw [completed, after_of_going hgoing₁, htold]
        simp
      · rw [after_of_going hgoing₁, ends_eq_some_iff.mpr ⟨c, htold, rfl, hthread ▸ hwaits⟩]
        simp

/-! ## Calls -/

/-- In a run, the call in which a thread was handed a token returns a result. Until it does, the
thread lives and its program makes no move. -/
def Returns (first : Kernel ε) (deeds : List (Deed ε)) (id : ThreadId) (n : Nat) (r : Int32) :
    Prop :=
  ∃ before deed during after issue d₀ d₁ d₂,
    deeds = before ++ deed :: (during ++ after) ∧ deed.move = .call (.awaitIo issue) ∧
    ({ kernel := first } : Desk ε).play before = some d₀ ∧ d₀.perform deed = some d₁ ∧
    d₁.play during = some d₂ ∧ d₁.kernel.follows (quiet id) (during.map Deed.move) = true ∧
    d₀.issued.length = n ∧ d₀.kernel.sched.current = some id ∧
    d₂.kernel.sched.current = some id ∧ d₂.kernel.activity = .arriving (.returned (.ok (.result r)))

/-- What is known of the results that the calls of a run return. -/
structure Accounted (first : Kernel ε) (deeds : List (Deed ε)) (d : Desk ε) : Prop where
  /-- A call returns what was passed to the token that ended its wait, which is a token of its own
  thread. -/
  returns : ∀ {id n r}, Returns first deeds id n r →
    ∃ c ∈ d.completed, c.thread = id ∧ c.result = r ∧ (c.token, n) ∈ d.ended
  /-- All waits of a thread were ended by their own tokens exactly if none was ended by the token of
  a call that had been cut off. -/
  own_iff : ∀ id, d.Own id ↔ d.Unharmed id
  /-- Then all its calls return what was passed to the tokens that they handed out. -/
  law : ∀ {id n r}, d.Unharmed id → Returns first deeds id n r → ⟨n, id, r⟩ ∈ d.completed

theorem Orderly.own_iff (h : d.Orderly) (id : ThreadId) : d.Own id ↔ d.Unharmed id := by
  refine ⟨fun hown m n hended hid hcut => ?_, h.own id⟩
  obtain rfl := hown m n hended hid
  exact (h.cut hcut).2 m hended

/-- The token that ended a wait was handed to the thread that waited. -/
theorem Orderly.issued_of_ended (h : d.Orderly) (hcompleted : c ∈ d.completed)
    (hended : (c.token, n) ∈ d.ended) : d.issued[n]? = some c.thread := by
  obtain ⟨c', hdispatched, htoken, hissued⟩ := h.ended hended
  have howned := h.owned c' (List.mem_append_left _ hdispatched)
  rw [htoken, h.owned c hcompleted] at howned
  rw [hissued, Option.some.inj howned]

/-- In a run in which results are put on the line by completing tokens only, every result that a
call returns was passed to a token of its own thread; and to its own token, unless a wait of the
thread was ended by the token of a call that had been cut off. -/
theorem start_accounted {config : Config} {arena : Arena} (hstart : start config arena = .ok first)
    (hplay : ({ kernel := first } : Desk ε).play deeds = some d) : Accounted first deeds d := by
  have hbegun := start_orderly hstart
  have horderly := hbegun.play hplay
  have hreturns : ∀ {id n r}, Returns first deeds id n r →
      ∃ c ∈ d.completed, c.thread = id ∧ c.result = r ∧ (c.token, n) ∈ d.ended := by
    rintro id n r ⟨before, deed, during, later, issue, d₀, d₁, d₂, rfl, hmove, hbefore, hdone,
      hduring, hquiet, rfl, hcurrent, hback, hreturned⟩
    have horderly₀ := hbegun.play hbefore
    have horderly₁ := horderly₀.perform hdone
    obtain ⟨hpermits, k₁, hperform, hafter⟩ := perform_eq_some.mp hdone
    have hkernel : d₁.kernel = k₁ := hafter ▸ after_kernel d₀ deed k₁
    have hallowed := allows_of_permits hpermits
    rw [hmove] at hallowed hperform
    have hcalls : d₀.kernel.Calls d₁.kernel id (.awaitIo issue) :=
      ⟨⟨config, arena, first, _, hstart, kernel_play hbefore⟩, hallowed, hcurrent,
        hkernel ▸ hperform⟩
    obtain ⟨hgoing₀, hgoing₂, hawaits, hfirst⟩ :=
      hcalls.result_of_awaitIo (kernel_play hduring) hquiet hback hreturned
    have hissued : d₁.issued = d₀.issued ++ [id] := by
      rw [← hafter, after_of_going hgoing₀]
      simp [issues, hmove, hcurrent]
    have hwaits : d₁.waitsOn id d₀.issued.length = true :=
      waitsOn_iff.mpr ⟨hawaits, latest_of_issued hissued⟩
    obtain ⟨c, hcompleted, hthread, hresult, hended⟩ :=
      horderly₁.first_result hduring hgoing₂ hwaits hquiet hfirst
    have hrest : d₂.play later = some d := by
      simpa only [play_append_iff, play_cons_iff, hbefore, hdone, hduring, Option.some.injEq,
        exists_eq_left'] using hplay
    obtain ⟨hkept, hkept'⟩ := (horderly₁.play hduring).play_extends hrest
    exact ⟨c, hkept hcompleted, hthread, hresult, hkept' hended⟩
  refine ⟨hreturns, horderly.own_iff, fun {id n r} hunharmed hcall => ?_⟩
  obtain ⟨c, hcompleted, rfl, rfl, hended⟩ := hreturns hcall
  have hown := (horderly.own_iff c.thread).mpr hunharmed c.token n hended
    (horderly.issued_of_ended hcompleted hended)
  rwa [← hown]

/-- Deeds that complete no tokens. -/
def tacit (moves : List (Move Unit)) : List (Deed Unit) := moves.map fun move => { move }

/-- Somebody completes a token of the third thread. -/
def completing (token : Nat) (result : Int32) : Deed Unit :=
  { move := .raise (.ioComplete ⟨3⟩ result), completions := [⟨token, ⟨3⟩, result⟩] }

/-- The third thread is terminated while it waits for a result. -/
def terminated : List (Deed Unit) :=
  tacit (answered (.threadCreate () 4096 .high) ++
    [.call (.threadActivate ⟨3⟩), .advance, .advance, .call (.awaitIo (.raising []))] ++
    [.advance, .advance, .advance, .call (.threadTerminate ⟨3⟩), .advance, .advance, .advance])

/-- It begins its program anew. -/
def anew : List (Deed Unit) := tacit [.call (.threadActivate ⟨3⟩), .advance, .advance, .advance]

/-- A token is completed while it waits again. -/
def completedWhileWaiting (token : Nat) (result : Int32) : List (Deed Unit) :=
  tacit [.advance, .advance, .advance] ++ completing token result ::
    tacit [.call .poll, .advance, .advance, .advance]

/-- A run in which the token of the first call is completed too late, but before the thread waits
again. -/
def late : List (Deed Unit) :=
  terminated ++ completing 0 5 :: tacit (answered .poll ++ [.advance]) ++ anew ++
    { move := .call (.awaitIo (.raising [])) } :: completedWhileWaiting 1 7

theorem start_accounted_late :
    ∃ (first : Kernel Unit) (d : Desk Unit), start {} {} = .ok first ∧
      ({ kernel := first } : Desk Unit).play late = some d ∧ d.cutOff = [0] ∧ d.ended = [(1, 1)] ∧
      d.dispatched = [⟨0, ⟨3⟩, 5⟩, ⟨1, ⟨3⟩, 7⟩] ∧
      d.kernel.activity = .arriving (.returned (.ok (.result 7))) ∧ Accounted first late d := by
  have hrun : (start {} {}).toOption.any (fun first : Kernel Unit =>
      (({ kernel := first } : Desk Unit).play late).any fun d =>
        d.cutOff == [0] && d.ended == [(1, 1)] && d.dispatched == [⟨0, ⟨3⟩, 5⟩, ⟨1, ⟨3⟩, 7⟩] &&
          d.kernel.answer? == some (.ok (.result 7))) = true := by decide +kernel
  obtain ⟨first, hfirst, hlate⟩ := Option.any_eq_true _ _ |>.mp hrun
  obtain ⟨d, hplay, hfacts⟩ := Option.any_eq_true _ _ |>.mp hlate
  simp only [Bool.and_eq_true, beq_iff_eq] at hfacts
  obtain ⟨⟨⟨hcutOff, hended⟩, hdispatched⟩, hanswer⟩ := hfacts
  have hstart := eq_ok_of_toOption hfirst
  exact ⟨first, d, hstart, hplay, hcutOff, hended, hdispatched, answer?_eq_some.mp hanswer,
    start_accounted hstart hplay⟩

/-- If the token of the first call is completed while the thread waits in the second one, the second
call returns the result, though nobody has completed its own token. -/
theorem exists_astray : ∃ (first : Kernel Unit) (deeds : List (Deed Unit)) (d : Desk Unit),
    start {} {} = .ok first ∧ ({ kernel := first } : Desk Unit).play deeds = some d ∧
      Returns first deeds ⟨3⟩ 1 99 ∧ ∀ c ∈ d.completed, c.token ≠ 1 := by
  let begins : Deed Unit := { move := .call (.awaitIo (.raising [])) }
  have hrun : (start {} {}).toOption.any (fun first : Kernel Unit =>
      (({ kernel := first } : Desk Unit).play (terminated ++ anew)).any fun d₀ =>
        (d₀.perform begins).any fun d₁ => (d₁.play (completedWhileWaiting 0 99)).any fun d₂ =>
          d₀.issued.length == 1 && d₀.kernel.sched.current == some ⟨3⟩ &&
            d₁.kernel.follows (quiet ⟨3⟩) ((completedWhileWaiting 0 99).map Deed.move) &&
            d₂.kernel.sched.current == some ⟨3⟩ && d₂.kernel.answer? == some (.ok (.result 99)) &&
            d₂.completed.all (·.token != 1)) = true := by decide +kernel
  obtain ⟨first, hfirst, hrun⟩ := Option.any_eq_true _ _ |>.mp hrun
  obtain ⟨d₀, hbefore, hrun⟩ := Option.any_eq_true _ _ |>.mp hrun
  obtain ⟨d₁, hbegun, hrun⟩ := Option.any_eq_true _ _ |>.mp hrun
  obtain ⟨d₂, hduring, hfacts⟩ := Option.any_eq_true _ _ |>.mp hrun
  simp only [Bool.and_eq_true, beq_iff_eq, List.all_eq_true, bne_iff_ne] at hfacts
  obtain ⟨⟨⟨⟨⟨htoken, hcurrent⟩, hquiet⟩, hback⟩, hanswer⟩, hforeign⟩ := hfacts
  refine ⟨first, terminated ++ anew ++ begins :: completedWhileWaiting 0 99, d₂,
    eq_ok_of_toOption hfirst, ?_, ⟨terminated ++ anew, begins, completedWhileWaiting 0 99, [], _, d₀,
      d₁, d₂, by rw [List.append_nil], rfl, hbefore, hbegun, hduring, hquiet, htoken, hcurrent, hback,
      answer?_eq_some.mp hanswer⟩, hforeign⟩
  rw [play_append_iff]
  refine ⟨d₀, hbefore, ?_⟩
  rw [play_cons_iff]
  exact ⟨d₁, hbegun, hduring⟩

end CoopKernel.Desk
