import CoopKernel.Proofs.Kernel.Waits

/-!
# Tokens

A thread that begins an asynchronous operation is handed a token, and whoever completes the token
puts a result for the thread on the line. The result on the line names the thread, but not the
operation. A `Desk` is a kernel together with a record of its tokens: which thread each was handed
to, which have been completed, and which completion ended which wait.

What the record says of tokens is `Desk.Orderly`, and every deed keeps it so (`Desk.Orderly.after`).
In particular the call of every token waits, or was cut off, or was ended by a completion, and only
one of these.
-/

namespace CoopKernel

variable {ε : Type}

namespace Kernel

variable {k : Kernel ε} {id : ThreadId} {move : Move ε}

/-- The threads that are handed a token in a move. -/
def issues (k : Kernel ε) : Move ε → List ThreadId
  | .call (.awaitIo _) => k.sched.current.toList
  | _ => []

theorem mem_issues_iff :
    id ∈ k.issues move ↔ k.sched.current = some id ∧ ∃ issue, move = .call (.awaitIo issue) := by
  unfold issues
  split
  · simp
  · next hnot =>
    refine ⟨fun hmem => absurd hmem List.not_mem_nil, ?_⟩
    rintro ⟨-, issue, rfl⟩
    exact absurd rfl (hnot issue)

end Kernel

/-- Whether an interrupt is the result of an operation. -/
def Interrupt.isResult : Interrupt → Bool
  | .tick => false
  | .ioComplete _ _ => true

/-- The completion of an operation through its token. -/
structure Completion where
  token : Nat
  /-- The thread that the token was handed to. -/
  thread : ThreadId
  result : Int32
deriving DecidableEq

/-- What a completion puts on the line. -/
def Completion.interrupt (c : Completion) : Interrupt := .ioComplete c.thread c.result

/-- A move, with the tokens that are completed in it. -/
structure Deed (ε : Type) where
  move : Move ε
  completions : List Completion := []

/-- A kernel and a record of its tokens. Tokens are numbered in the order in which they are handed
out. Once the kernel is shut down, nothing more is recorded. -/
structure Desk (ε : Type) where
  kernel : Kernel ε
  /-- The thread that each token was handed to. -/
  issued : List ThreadId := []
  /-- The completions that have been dispatched, in order. -/
  dispatched : List Completion := []
  /-- The completions that are on the line, oldest first. -/
  underway : List Completion := []
  /-- The tokens whose calls were over before a result was dispatched for them: their threads were
  terminated, or never came to wait. -/
  cutOff : List Nat := []
  /-- The waits that a result has ended: the token that was completed, and the token of the call. -/
  ended : List (Nat × Nat) := []

namespace Desk

open Kernel

/-- The operations that have been completed. -/
def completed (d : Desk ε) : List Completion := d.dispatched ++ d.underway

/-- The last token that a thread was handed. -/
def latest (d : Desk ε) (id : ThreadId) : Option Nat :=
  (d.issued.zipIdx.filter (·.1 == id)).getLast?.map (·.2)

/-- Whether a thread waits in the call that it was handed a token for. -/
def waitsOn (d : Desk ε) (id : ThreadId) (n : Nat) : Bool :=
  d.kernel.awaitsIo id && d.latest id == some n

/-- Whether a deed can be done: a completion needs a token that has been handed out and has not been
used, and results are not put on the line in any other way. -/
def permits (d : Desk ε) (deed : Deed ε) : Bool :=
  d.kernel.allows deed.move && (d.kernel.stopped ||
    (match deed.move with
      | .call (.ioComplete _ _) => false
      | _ => true) &&
    deed.move.raises.filter Interrupt.isResult == deed.completions.map Completion.interrupt &&
    deed.completions.all (fun c =>
      (d.issued ++ d.kernel.issues deed.move)[c.token]? == some c.thread) &&
    decide ((d.completed ++ deed.completions).map (·.token)).Nodup)

/-- The completion that a move dispatches. -/
def told (d : Desk ε) (move : Move ε) : Option Completion :=
  if (d.kernel.takes move).any Interrupt.isResult then d.underway.head? else none

/-- The wait that a move ends. -/
def ends (d : Desk ε) (move : Move ε) : Option (Nat × Nat) := do
  let c ← d.told move
  let n ← d.latest c.thread
  if d.kernel.awaitsIo c.thread then some (c.token, n) else none

/-- The tokens whose calls a move cuts off. -/
def cuts (d : Desk ε) (move : Move ε) (k' : Kernel ε) : List Nat :=
  (List.range d.issued.length).filter
    (fun n => d.issued[n]?.any fun id => d.waitsOn id n && !k'.lives id) ++
  match move with
  | .call (.awaitIo .reentrant) => [d.issued.length]
  | _ => []

/-- The record after a deed that made the kernel what it is now. -/
def after (d : Desk ε) (deed : Deed ε) (k' : Kernel ε) : Desk ε :=
  if d.kernel.stopped then { d with kernel := k' }
  else {
    kernel := k'
    issued := d.issued ++ d.kernel.issues deed.move
    dispatched := d.dispatched ++ (d.told deed.move).toList
    underway := d.underway.drop (d.told deed.move).toList.length ++ deed.completions
    cutOff := d.cutOff ++ d.cuts deed.move k'
    ended := d.ended ++ (d.ends deed.move).toList }

/-- Does a deed. The result is nothing if it cannot be done. -/
def perform (d : Desk ε) (deed : Deed ε) : Option (Desk ε) :=
  if d.permits deed then (d.kernel.perform deed.move).toOption.map (d.after deed) else none

/-- Does a list of deeds. -/
def play (d : Desk ε) : List (Deed ε) → Option (Desk ε)
  | [] => some d
  | deed :: rest => (d.perform deed).bind fun d' => d'.play rest

variable {d d' d₁ d₂ : Desk ε} {deed : Deed ε} {deeds : List (Deed ε)} {k' first : Kernel ε}
  {id : ThreadId} {move : Move ε} {c : Completion} {m n : Nat} {r : Int32}

theorem perform_eq_some : d.perform deed = some d' ↔ d.permits deed = true ∧
    ∃ k', d.kernel.perform deed.move = .ok k' ∧ d.after deed k' = d' := by
  rw [perform]
  split
  · next hpermits =>
    cases d.kernel.perform deed.move <;> simp [hpermits, Except.toOption]
  · next hnot => simp [hnot]

theorem after_kernel (d : Desk ε) (deed : Deed ε) (k' : Kernel ε) :
    (d.after deed k').kernel = k' := by
  rw [after]
  split <;> rfl

theorem after_of_going (hgoing : d.kernel.stopped = false) (deed : Deed ε) (k' : Kernel ε) :
    d.after deed k' = {
      kernel := k'
      issued := d.issued ++ d.kernel.issues deed.move
      dispatched := d.dispatched ++ (d.told deed.move).toList
      underway := d.underway.drop (d.told deed.move).toList.length ++ deed.completions
      cutOff := d.cutOff ++ d.cuts deed.move k'
      ended := d.ended ++ (d.ends deed.move).toList } := by
  rw [after, if_neg (by simp [hgoing])]

/-- A token stays with its thread. -/
theorem issued_after (hgoing : d.kernel.stopped = false) (hissued : d.issued[n]? = some id) :
    (d.after deed k').issued[n]? = some id := by
  rw [after_of_going hgoing]
  exact (List.getElem?_append_left (List.getElem?_eq_some_iff.mp hissued).1).trans hissued

theorem allows_of_permits (h : d.permits deed = true) : d.kernel.allows deed.move = true := by
  rw [permits, Bool.and_eq_true] at h
  exact h.1

/-- Results are put on the line by completing tokens that have not been used before. -/
theorem permits_of_going (hgoing : d.kernel.stopped = false) (h : d.permits deed = true) :
    deed.move.raises.filter Interrupt.isResult = deed.completions.map Completion.interrupt ∧
      (∀ c ∈ deed.completions,
        (d.issued ++ d.kernel.issues deed.move)[c.token]? = some c.thread) ∧
      ((d.completed ++ deed.completions).map (·.token)).Nodup := by
  simp only [permits, hgoing, Bool.false_or, Bool.and_eq_true, beq_iff_eq, List.all_eq_true,
    decide_eq_true_eq] at h
  exact ⟨h.2.1.1.2, h.2.1.2, h.2.2⟩

/-! ## The last token of a thread -/

theorem issued_of_latest (h : d.latest id = some n) : d.issued[n]? = some id := by
  obtain ⟨⟨j, i⟩, hlast, rfl⟩ := Option.map_eq_some_iff.mp h
  have hmem := List.mem_of_getLast? hlast
  rw [List.mem_filter, List.mem_zipIdx_iff_getElem?, beq_iff_eq] at hmem
  exact hmem.2 ▸ hmem.1

/-- A thread that was handed nothing has the token that it had. -/
theorem latest_of_not_mem {js : List ThreadId} (hissued : d'.issued = d.issued ++ js)
    (hnot : id ∉ js) : d'.latest id = d.latest id := by
  have hnone : (js.zipIdx (0 + d.issued.length)).filter (·.1 == id) = [] := by
    refine List.filter_eq_nil_iff.mpr fun entry hmem heq => hnot ?_
    rw [← beq_iff_eq.mp heq]
    exact List.fst_mem_of_mem_zipIdx hmem
  rw [latest, latest, hissued, List.zipIdx_append, List.filter_append, hnone, List.append_nil]

theorem latest_of_issued (hissued : d'.issued = d.issued ++ [id]) :
    d'.latest id = some d.issued.length := by
  rw [latest, hissued, List.zipIdx_append, List.filter_append]
  simp

theorem waitsOn_iff : d.waitsOn id n = true ↔
    d.kernel.awaitsIo id = true ∧ d.latest id = some n := by
  rw [waitsOn, Bool.and_eq_true, beq_iff_eq]

theorem lt_of_waitsOn (h : d.waitsOn id n = true) : n < d.issued.length :=
  (List.getElem?_eq_some_iff.mp (issued_of_latest (waitsOn_iff.mp h).2)).1

theorem mem_cuts_iff : n ∈ d.cuts move k' ↔
    (∃ id, d.waitsOn id n = true ∧ k'.lives id = false) ∨
      move = .call (.awaitIo .reentrant) ∧ n = d.issued.length := by
  unfold cuts
  rw [List.mem_append, List.mem_filter]
  refine or_congr ?_ ?_
  · simp only [List.mem_range, Option.any_eq_true, Bool.and_eq_true, Bool.not_eq_true']
    constructor
    · rintro ⟨-, id, -, hwaits, hdead⟩
      exact ⟨id, hwaits, hdead⟩
    · rintro ⟨id, hwaits, hdead⟩
      exact ⟨lt_of_waitsOn hwaits, id, issued_of_latest (waitsOn_iff.mp hwaits).2, hwaits, hdead⟩
  · split
    · simp
    · next hnot =>
      refine ⟨fun hmem => absurd hmem List.not_mem_nil, ?_⟩
      rintro ⟨hmove, -⟩
      exact absurd hmove hnot

theorem ends_eq_some_iff : d.ends move = some (m, n) ↔
    ∃ c, d.told move = some c ∧ c.token = m ∧ d.waitsOn c.thread n = true := by
  simp only [ends, Option.bind_eq_bind, Option.bind_eq_some_iff, Option.ite_none_right_eq_some,
    Option.some.injEq, Prod.mk.injEq, waitsOn_iff]
  constructor
  · rintro ⟨c, htold, _, hlatest, hawaits, rfl, rfl⟩
    exact ⟨c, htold, rfl, hawaits, hlatest⟩
  · rintro ⟨c, htold, rfl, hawaits, hlatest⟩
    exact ⟨c, htold, n, hlatest, hawaits, rfl, rfl⟩

/-! ## What the record says -/

/-- The waits of a thread were all ended by their own tokens. -/
def Own (d : Desk ε) (id : ThreadId) : Prop :=
  ∀ m n, (m, n) ∈ d.ended → d.issued[n]? = some id → m = n

/-- No wait of a thread was ended by the token of a call that had been cut off. -/
def Unharmed (d : Desk ε) (id : ThreadId) : Prop :=
  ∀ m n, (m, n) ∈ d.ended → d.issued[n]? = some id → m ∉ d.cutOff

/-- What a desk knows of its tokens. -/
structure Orderly (d : Desk ε) : Prop where
  sound : d.kernel.Sound fun _ => False
  distinct : (d.completed.map (·.token)).Nodup
  owned : ∀ c ∈ d.completed, d.issued[c.token]? = some c.thread
  line : d.kernel.stopped = false →
    d.kernel.line.pending.filter Interrupt.isResult = d.underway.map Completion.interrupt
  /-- The call of a token waits, or was cut off, or was ended by a completion, ... -/
  fate : d.kernel.stopped = false → ∀ {n id}, d.issued[n]? = some id →
    d.waitsOn id n = true ∨ n ∈ d.cutOff ∨ ∃ m, (m, n) ∈ d.ended
  /-- ... and only one of these. -/
  spent : d.kernel.stopped = false → ∀ {n}, (n ∈ d.cutOff ∨ ∃ m, (m, n) ∈ d.ended) →
    ∀ id, d.waitsOn id n = false
  cut : ∀ {n}, n ∈ d.cutOff → n < d.issued.length ∧ ∀ m, (m, n) ∉ d.ended
  /-- A wait is ended by a completion for its thread that has been dispatched. -/
  ended : ∀ {m n}, (m, n) ∈ d.ended →
    ∃ c ∈ d.dispatched, c.token = m ∧ d.issued[n]? = some c.thread
  own : ∀ id, d.Unharmed id → d.Own id

/-- A move dispatches no result, or the oldest completion that is underway. -/
theorem Orderly.takes_eq (h : d.Orderly) (hgoing : d.kernel.stopped = false) (move : Move ε) :
    d.told move = none ∧ (d.kernel.takes move).filter Interrupt.isResult = [] ∧
        (∀ id, resultsFor id (d.kernel.takes move) = []) ∨
      ∃ c rest, d.told move = some c ∧ move = .advance ∧ d.kernel.takes move = [c.interrupt] ∧
        d.underway = c :: rest := by
  rcases d.kernel.takes_eq move with hnone | ⟨_, interrupt, rest, hmove, -, hpending, htakes⟩
  · refine .inl ⟨?_, by rw [hnone]; rfl, fun id => by rw [hnone]; rfl⟩
    rw [told, hnone]
    rfl
  cases interrupt with
  | tick =>
    refine .inl ⟨?_, by rw [htakes]; rfl, fun id => by rw [htakes]; rfl⟩
    rw [told, htakes]
    rfl
  | ioComplete other r =>
    have hline := h.line hgoing
    rw [hpending, List.filter_cons_of_pos rfl] at hline
    cases hunderway : d.underway with
    | nil =>
      rw [hunderway] at hline
      cases hline
    | cons c later =>
      rw [hunderway, List.map_cons] at hline
      obtain ⟨hfirst, -⟩ := List.cons.inj hline
      refine .inr ⟨c, later, ?_, hmove, by rw [htakes, hfirst], rfl⟩
      rw [told, htakes, hunderway]
      rfl

/-- What has been dispatched is no longer underway. -/
theorem Orderly.told_ne (h : d.Orderly) (hgoing : d.kernel.stopped = false)
    (htold : d.told move = some c) {c' : Completion} (hdispatched : c' ∈ d.dispatched) :
    c'.token ≠ c.token := by
  rcases h.takes_eq hgoing move with ⟨hnone, -⟩ | ⟨_, rest, hsome, -, -, hunderway⟩
  · simp [htold] at hnone
  · obtain rfl := Option.some.inj (htold.symm.trans hsome)
    have hdistinct := h.distinct
    rw [completed, List.map_append, List.nodup_append] at hdistinct
    exact hdistinct.2.2 _ (List.mem_map_of_mem hdispatched) _
      (List.mem_map_of_mem (hunderway ▸ List.mem_cons_self))

/-! ## One deed -/

section

variable (h : d.Orderly) (hgoing : d.kernel.stopped = false)
  (hallowed : d.kernel.allows deed.move = true)
  (hperform : d.kernel.perform deed.move = .ok k')

include h hgoing hallowed hperform

/-- A thread that is told a result waits no longer, and lives. -/
theorem Orderly.awaitsIo_told (htold : d.told deed.move = some c)
    (hawaits : d.kernel.awaitsIo c.thread = true) :
    k'.awaitsIo c.thread = false ∧ k'.lives c.thread = true := by
  have htakes : resultsFor c.thread (d.kernel.takes deed.move) = [c.result] := by
    rcases h.takes_eq hgoing deed.move with ⟨hnone, -, -⟩ | ⟨c', _, hsome, -, htakes, -⟩
    · simp [htold] at hnone
    · obtain rfl := Option.some.inj (htold.symm.trans hsome)
      rw [htakes, Completion.interrupt, resultsFor_self]
  rcases h.sound.awaitsIo_moved hgoing hallowed hperform hawaits with ⟨hnone, -⟩ | ⟨_, -, hover⟩
  · simp [htakes] at hnone
  · exact hover

/-- A wait goes on, is cut off, or is ended by what is dispatched. -/
theorem Orderly.waitsOn_after (hwaits : d.waitsOn id n = true) :
    (d.after deed k').waitsOn id n = true ∧ resultsFor id (d.kernel.takes deed.move) = [] ∨
      n ∈ d.cuts deed.move k' ∨ ∃ c, d.told deed.move = some c ∧ c.thread = id ∧
        resultsFor id (d.kernel.takes deed.move) = [c.result] := by
  obtain ⟨hawaits, hlatest⟩ := waitsOn_iff.mp hwaits
  have hnot : id ∉ d.kernel.issues deed.move := fun hmem =>
    h.sound.current_ne_of_awaitsIo hawaits (mem_issues_iff.mp hmem).1
  rcases h.sound.awaitsIo_moved hgoing hallowed hperform hawaits with ⟨hnone, hsame⟩ | ⟨r, hsome, -⟩
  · cases hlives : k'.lives id with
    | false => exact .inr (.inl (mem_cuts_iff.mpr (.inl ⟨id, hwaits, hlives⟩)))
    | true =>
      refine .inl ⟨waitsOn_iff.mpr ⟨?_, ?_⟩, hnone⟩
      · rw [after_kernel, hsame, hlives]
      · rw [latest_of_not_mem (by rw [after_of_going hgoing]) hnot, hlatest]
  · rcases h.takes_eq hgoing deed.move with ⟨-, -, hnone⟩ | ⟨c, _, htold, -, htakes, -⟩
    · simp [hnone id] at hsome
    · by_cases hthread : c.thread = id
      · rw [htakes, Completion.interrupt, hthread, resultsFor_self]
        exact .inr (.inr ⟨c, htold, hthread, rfl⟩)
      · rw [htakes, Completion.interrupt, resultsFor_of_ne hthread] at hsome
        cases hsome

/-- A wait after a deed was there before, or has just begun. -/
theorem Orderly.waitsOn_of_after (hwaits : (d.after deed k').waitsOn id n = true) :
    d.waitsOn id n = true ∧ (∀ c, d.told deed.move = some c → c.thread ≠ id) ∨
      n = d.issued.length ∧ ∃ interrupts, deed.move = .call (.awaitIo (.raising interrupts)) := by
  obtain ⟨hawaits, hlatest⟩ := waitsOn_iff.mp hwaits
  rw [after_kernel] at hawaits
  have hissued : (d.after deed k').issued = d.issued ++ d.kernel.issues deed.move := by
    rw [after_of_going hgoing]
  by_cases hbefore : d.kernel.awaitsIo id = true
  · have hnot : id ∉ d.kernel.issues deed.move := fun hmem =>
      h.sound.current_ne_of_awaitsIo hbefore (mem_issues_iff.mp hmem).1
    rw [latest_of_not_mem hissued hnot] at hlatest
    refine .inl ⟨waitsOn_iff.mpr ⟨hbefore, hlatest⟩, ?_⟩
    rintro c htold rfl
    rw [(h.awaitsIo_told hgoing hallowed hperform htold hbefore).1] at hawaits
    cases hawaits
  · obtain ⟨hcurrent, interrupts, hmove⟩ :=
      ((h.sound.moved hallowed hperform).awaitsIo hawaits).resolve_left hbefore
    have hissues : d.kernel.issues deed.move = [id] := by
      rw [hmove, issues, hcurrent]
      rfl
    rw [hissues] at hissued
    rw [latest_of_issued hissued] at hlatest
    exact .inr ⟨(Option.some.inj hlatest).symm, interrupts, hmove⟩

/-- A thread that is handed a token begins to wait, unless its call ends at once. -/
theorem Orderly.waitsOn_issued (hissued : (d.after deed k').issued[n]? = some id)
    (hnew : d.issued[n]? = none) :
    (d.after deed k').waitsOn id n = true ∨ n ∈ d.cuts deed.move k' := by
  have hbound := List.getElem?_eq_none_iff.mp hnew
  rw [after_of_going hgoing] at hissued
  change (d.issued ++ d.kernel.issues deed.move)[n]? = some id at hissued
  rw [List.getElem?_append_right hbound] at hissued
  obtain ⟨hcurrent, issue, hmove⟩ := mem_issues_iff.mp (List.mem_of_getElem? hissued)
  have hissues : d.kernel.issues deed.move = [id] := by
    rw [hmove, issues, hcurrent]
    rfl
  rw [hissues, List.getElem?_singleton] at hissued
  have hn : n = d.issued.length := by
    split at hissued
    · omega
    · cases hissued
  rw [hmove] at hallowed hperform
  cases issue with
  | reentrant => exact .inr (mem_cuts_iff.mpr (.inr ⟨hmove, hn⟩))
  | raising interrupts =>
    have hawaits := (h.sound.begins_awaiting hallowed hgoing hcurrent hperform).2.1
    refine .inl (waitsOn_iff.mpr ⟨by rwa [after_kernel], ?_⟩)
    rw [latest_of_issued (d := d) (by rw [after_of_going hgoing, hissues]), hn]

theorem Orderly.fate_after (hissued : (d.after deed k').issued[n]? = some id) :
    (d.after deed k').waitsOn id n = true ∨ n ∈ (d.after deed k').cutOff ∨
      ∃ m, (m, n) ∈ (d.after deed k').ended := by
  have hcuts : n ∈ d.cuts deed.move k' → n ∈ (d.after deed k').cutOff := by
    rw [after_of_going hgoing]
    exact List.mem_append_right _
  cases hbefore : d.issued[n]? with
  | none =>
    exact (h.waitsOn_issued hgoing hallowed hperform hissued hbefore).imp_right
      fun hcut => .inl (hcuts hcut)
  | some j =>
    obtain rfl := Option.some.inj ((issued_after hgoing hbefore).symm.trans hissued)
    rcases h.fate hgoing hbefore with hwaits | hcut | ⟨m, hended⟩
    · rcases h.waitsOn_after hgoing hallowed hperform hwaits with
        ⟨hwaits', -⟩ | hcut | ⟨c, htold, rfl, -⟩
      · exact .inl hwaits'
      · exact .inr (.inl (hcuts hcut))
      · refine .inr (.inr ⟨c.token, ?_⟩)
        rw [after_of_going hgoing, ends_eq_some_iff.mpr ⟨c, htold, rfl, hwaits⟩]
        exact List.mem_append_right _ (List.mem_singleton_self _)
    · refine .inr (.inl ?_)
      rw [after_of_going hgoing]
      exact List.mem_append_left _ hcut
    · refine .inr (.inr ⟨m, ?_⟩)
      rw [after_of_going hgoing]
      exact List.mem_append_left _ hended

/-- A call that is over does not wait any more. -/
theorem Orderly.spent_after
    (hover : n ∈ (d.after deed k').cutOff ∨ ∃ m, (m, n) ∈ (d.after deed k').ended)
    (id : ThreadId) : (d.after deed k').waitsOn id n = false := by
  rw [← Bool.not_eq_true]
  intro hwaits'
  have hlives : k'.lives id = true := by
    have hawaits := (waitsOn_iff.mp hwaits').1
    rw [after_kernel] at hawaits
    exact lives_of_awaitsIo hawaits
  rw [after_of_going hgoing] at hover
  simp only [List.mem_append, Option.mem_toList, ends_eq_some_iff, mem_cuts_iff] at hover
  -- What was over before is older than a call that has just begun.
  have hold : n ∈ d.cutOff ∨ (∃ m, (m, n) ∈ d.ended) → d.waitsOn id n = false ∧
      n < d.issued.length := by
    intro hover
    refine ⟨h.spent hgoing hover id, ?_⟩
    rcases hover with hcut | ⟨m, hended⟩
    · exact (h.cut hcut).1
    · obtain ⟨_, -, -, hissued⟩ := h.ended hended
      exact (List.getElem?_eq_some_iff.mp hissued).1
  have hsame : ∀ {j}, d.waitsOn j n = true → d.waitsOn id n = true → j = id := fun hj hid =>
    Option.some.inj ((issued_of_latest (waitsOn_iff.mp hj).2).symm.trans
      (issued_of_latest (waitsOn_iff.mp hid).2))
  rcases h.waitsOn_of_after hgoing hallowed hperform hwaits' with
    ⟨hwaits, hnot⟩ | ⟨rfl, interrupts, hmove⟩
  · rcases hover with (hcut | ⟨j, hj, hdead⟩ | ⟨-, rfl⟩) | ⟨m, hended | ⟨c, htold, -, hc⟩⟩
    · simp [(hold (.inl hcut)).1] at hwaits
    · rw [hsame hj hwaits, hlives] at hdead
      cases hdead
    · exact absurd (lt_of_waitsOn hwaits) (Nat.lt_irrefl _)
    · simp [(hold (.inr ⟨m, hended⟩)).1] at hwaits
    · exact hnot c htold (hsame hc hwaits)
  · rcases hover with (hcut | ⟨j, hj, -⟩ | ⟨hreentrant, -⟩) | ⟨m, hended | ⟨c, -, -, hc⟩⟩
    · exact absurd (hold (.inl hcut)).2 (Nat.lt_irrefl _)
    · exact absurd (lt_of_waitsOn hj) (Nat.lt_irrefl _)
    · rw [hmove] at hreentrant
      cases hreentrant
    · exact absurd (hold (.inr ⟨m, hended⟩)).2 (Nat.lt_irrefl _)
    · exact absurd (lt_of_waitsOn hc) (Nat.lt_irrefl _)

theorem Orderly.cut_after (hcut : n ∈ (d.after deed k').cutOff) :
    n < (d.after deed k').issued.length ∧ ∀ m, (m, n) ∉ (d.after deed k').ended := by
  rw [after_of_going hgoing] at hcut ⊢
  simp only [List.mem_append, List.length_append, mem_cuts_iff, Option.mem_toList,
    ends_eq_some_iff, not_or] at hcut ⊢
  rcases hcut with hcut | ⟨id, hwaits, hdead⟩ | ⟨hmove, rfl⟩
  · obtain ⟨hlt, hnot⟩ := h.cut hcut
    refine ⟨by omega, fun m => ⟨hnot m, ?_⟩⟩
    rintro ⟨c, -, -, hwaits⟩
    simp [h.spent hgoing (.inl hcut)] at hwaits
  · refine ⟨Nat.lt_add_right _ (lt_of_waitsOn hwaits), fun m => ⟨fun hended => ?_, ?_⟩⟩
    · simp [h.spent hgoing (.inr ⟨m, hended⟩)] at hwaits
    · rintro ⟨c, htold, -, hc⟩
      obtain rfl : c.thread = id := Option.some.inj
        ((issued_of_latest (waitsOn_iff.mp hc).2).symm.trans
          (issued_of_latest (waitsOn_iff.mp hwaits).2))
      rw [(h.awaitsIo_told hgoing hallowed hperform htold (waitsOn_iff.mp hc).1).2] at hdead
      cases hdead
  · obtain ⟨me, -, hcurrent, -⟩ := h.sound.upright.busy
    refine ⟨by simp [issues, hmove, hcurrent], fun m => ⟨fun hended => ?_, ?_⟩⟩
    · obtain ⟨_, -, -, hissued⟩ := h.ended hended
      exact absurd (List.getElem?_eq_some_iff.mp hissued).1 (Nat.lt_irrefl _)
    · rintro ⟨c, -, -, hwaits⟩
      exact absurd (lt_of_waitsOn hwaits) (Nat.lt_irrefl _)

omit hallowed hperform in
/-- Completions are put on the line and dispatched in order. -/
theorem Orderly.completed_after :
    (d.after deed k').completed = d.completed ++ deed.completions ∧
      d.underway ++ deed.completions = (d.told deed.move).toList ++ (d.after deed k').underway := by
  rw [after_of_going hgoing]
  rcases h.takes_eq hgoing deed.move with ⟨hnone, -⟩ | ⟨c, rest, htold, -, -, hunderway⟩
  · simp [completed, hnone]
  · simp [completed, htold, hunderway]

theorem Orderly.line_after (hpermits : d.permits deed = true) :
    k'.line.pending.filter Interrupt.isResult =
      (d.after deed k').underway.map Completion.interrupt := by
  have horder : d.underway ++ deed.completions =
      (d.told deed.move).toList ++ (d.after deed k').underway := (h.completed_after hgoing).2
  have hline := congrArg (List.filter Interrupt.isResult)
    ((h.sound.moved hallowed hperform).line hgoing)
  rw [List.filter_append, List.filter_append, h.line hgoing, (permits_of_going hgoing hpermits).1,
    ← List.map_append, horder, List.map_append] at hline
  have htold : ((d.told deed.move).toList).map Completion.interrupt =
      (d.kernel.takes deed.move).filter Interrupt.isResult := by
    rcases h.takes_eq hgoing deed.move with ⟨hnone, hfilter, -⟩ | ⟨c, _, htold, -, htakes, -⟩
    · rw [hnone, hfilter]
      rfl
    · rw [htold, htakes]
      rfl
  rw [htold] at hline
  exact (List.append_cancel_left hline).symm

omit hallowed hperform in
theorem Orderly.ended_after (hended : (m, n) ∈ (d.after deed k').ended) :
    ∃ c ∈ (d.after deed k').dispatched,
      c.token = m ∧ (d.after deed k').issued[n]? = some c.thread := by
  have hsplit : ∃ c ∈ d.dispatched ++ (d.told deed.move).toList,
      c.token = m ∧ d.issued[n]? = some c.thread := by
    rw [after_of_going hgoing, List.mem_append, Option.mem_toList, ends_eq_some_iff] at hended
    rcases hended with hended | ⟨c, htold, htoken, hwaits⟩
    · obtain ⟨c, hmem, htoken, hissued⟩ := h.ended hended
      exact ⟨c, List.mem_append_left _ hmem, htoken, hissued⟩
    · exact ⟨c, List.mem_append_right _ (Option.mem_toList.mpr htold), htoken,
        issued_of_latest (waitsOn_iff.mp hwaits).2⟩
  obtain ⟨c, hmem, htoken, hissued⟩ := hsplit
  refine ⟨c, ?_, htoken, issued_after hgoing hissued⟩
  rwa [after_of_going hgoing]

omit hallowed hperform in
/-- A token is used once. Unless its call was cut off, the wait that it ends is its own, for its
call cannot have been ended by another token before. -/
theorem Orderly.own_after (hunharmed : (d.after deed k').Unharmed id) :
    (d.after deed k').Own id := by
  have hkept : ∀ {w}, w ∈ d.ended → w ∈ (d.after deed k').ended := by
    rw [after_of_going hgoing]
    exact List.mem_append_left _
  have hcutOff : ∀ {n}, n ∈ d.cutOff → n ∈ (d.after deed k').cutOff := by
    rw [after_of_going hgoing]
    exact List.mem_append_left _
  have hbefore : d.Own id := h.own id fun m n hended hid hcut =>
    hunharmed m n (hkept hended) (issued_after hgoing hid) (hcutOff hcut)
  intro m n hended hid
  have hsplit : (m, n) ∈ d.ended ∨ d.ends deed.move = some (m, n) := by
    rw [after_of_going hgoing, List.mem_append, Option.mem_toList] at hended
    exact hended
  rcases hsplit with hold | hnew
  · obtain ⟨c, -, -, hc⟩ := h.ended hold
    obtain rfl := Option.some.inj ((issued_after hgoing hc).symm.trans hid)
    exact hbefore m n hold hc
  · obtain ⟨c, htold, rfl, hwaits⟩ := ends_eq_some_iff.mp hnew
    have hlatest := (waitsOn_iff.mp hwaits).2
    obtain rfl := Option.some.inj
      ((issued_after hgoing (issued_of_latest hlatest)).symm.trans hid)
    have hcompleted : c ∈ d.completed := by
      rcases h.takes_eq hgoing deed.move with ⟨hnone, -⟩ | ⟨_, rest, hsome, -, -, hunderway⟩
      · simp [htold] at hnone
      · obtain rfl := Option.some.inj (htold.symm.trans hsome)
        rw [completed, hunderway]
        exact List.mem_append_right _ List.mem_cons_self
    rcases h.fate hgoing (h.owned c hcompleted) with hsame | hcut | ⟨m, hover⟩
    · exact Option.some.inj ((waitsOn_iff.mp hsame).2.symm.trans hlatest)
    · exact absurd (hcutOff hcut) (hunharmed _ _ hended hid)
    · obtain rfl := hbefore m _ hover (h.owned c hcompleted)
      obtain ⟨c', hdispatched, htoken, -⟩ := h.ended hover
      exact absurd htoken (h.told_ne hgoing htold hdispatched)

end

theorem Orderly.after (h : d.Orderly) (hpermits : d.permits deed = true)
    (hperform : d.kernel.perform deed.move = .ok k') : (d.after deed k').Orderly := by
  have hallowed := allows_of_permits hpermits
  have hsound : (d.after deed k').kernel.Sound fun _ => False := by
    rw [after_kernel]
    exact h.sound.performed hallowed hperform
  cases hstopped : d.kernel.stopped with
  | true =>
    -- Nothing is recorded any more.
    have hover : (d.after deed k').kernel.stopped ≠ false := by
      rw [after_kernel, ((h.sound.moved hallowed hperform).stopped hstopped).1]
      simp
    have heq : d.after deed k' = { d with kernel := k' } := by rw [Desk.after, if_pos hstopped]
    rw [heq] at hsound hover ⊢
    exact ⟨hsound, h.distinct, h.owned, (absurd · hover), (absurd · hover), (absurd · hover), h.cut,
      h.ended, h.own⟩
  | false =>
    obtain ⟨hline, howned, hdistinct⟩ := permits_of_going hstopped hpermits
    have hcompleted : (d.after deed k').completed = d.completed ++ deed.completions :=
      (h.completed_after hstopped).1
    refine ⟨hsound, hcompleted ▸ hdistinct, fun c hmem => ?_, fun _ => ?_,
      fun _ => h.fate_after hstopped hallowed hperform,
      fun _ => h.spent_after hstopped hallowed hperform,
      h.cut_after hstopped hallowed hperform, h.ended_after hstopped,
      fun _ => h.own_after hstopped⟩
    · rw [hcompleted, List.mem_append] at hmem
      rcases hmem with hold | hnew
      · exact issued_after hstopped (h.owned c hold)
      · rw [after_of_going hstopped]
        exact howned c hnew
    · rw [after_kernel]
      exact h.line_after hstopped hallowed hperform hpermits

end Desk

end CoopKernel
