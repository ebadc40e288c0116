import Mathlib.Data.List.Nodup
import Mathlib.Tactic.Common
import CoopKernel.Memory.Waiters

/-!
# The memory queue as a line

All threads that wait for memory stand in one level queue, whatever pool they wait for, and they are
taken out of the middle of its levels: by pool from the top, by thread from the bottom. What comes
of that is described without levels. The waiting threads form one line, in the order in which they
came (`Line`). Whoever is served for a pool is the first of the highest rank among those in the line
that wait for that pool (`Line.foremost?`), and whoever leaves does nothing to the others.

## Pools apart

The part of the line that waits for one pool (`Line.on`) is a priority queue of its own. A request
either is about a pool, and then its answer and what it does to that part of the line depend on that
part only (`Line.answer_on`, `Line.on_after`), or it is not, and then it leaves that part as it is
(`Line.on_after_of_not_about`). Hence the answers about a pool are those of a queue that was only
asked what is about this pool.

Everything here is about lines alone. That the level queue holds such a line is another matter.
-/

namespace CoopKernel.Memory

/-- What a thread came with when it began to wait. -/
structure Wait where
  thread : ThreadId
  rank : Nat
  pool : PoolId
deriving DecidableEq, Repr

namespace Wait

/-- The rank that counts: ranks past three count as three. -/
def level (wait : Wait) : Nat := min wait.rank 3

/-- What stands in the queue for the waiting thread. -/
def entry (wait : Wait) : ThreadId × PoolId := (wait.thread, wait.pool)

end Wait

/-- The threads that wait for memory, in the order in which they came. -/
abbrev Line := List Wait

namespace Waiters

/-- What can be asked of the queue. -/
inductive Request
  | enqueue (thread : ThreadId) (rank : Nat) (pool : PoolId)
  | nextFor (pool : PoolId)
  | remove (thread : ThreadId)
deriving DecidableEq, Repr

/-- What the queue answers. -/
inductive Answer
  | entered
  | served (thread : Option ThreadId)
  | left (pool : Option PoolId)
deriving DecidableEq, Repr

/-- How the queue answers a request. -/
def answer (waiters : Waiters) : Request → Answer
  | .enqueue _ _ _ => .entered
  | .nextFor pool => .served ((waiters.nextFor? pool).map Prod.fst)
  | .remove thread => .left ((waiters.remove? thread).map Prod.fst)

/-- The queue after a request. -/
def after (waiters : Waiters) : Request → Waiters
  | .enqueue thread rank pool => waiters.enqueue thread rank pool
  | .nextFor pool => ((waiters.nextFor? pool).map Prod.snd).getD waiters
  | .remove thread => ((waiters.remove? thread).map Prod.snd).getD waiters

/-- The queue after requests, one after the other. -/
def afterAll (waiters : Waiters) (requests : List Request) : Waiters := requests.foldl after waiters

/-- Requests with the answers to them. -/
def history (waiters : Waiters) : List Request → List (Request × Answer)
  | [] => []
  | request :: rest => (request, waiters.answer request) :: (waiters.after request).history rest

/-- Whether a request turned out to be about a pool. A thread that is removed left the pool that the
answer names. -/
def about (pool : PoolId) : Request × Answer → Bool
  | (.enqueue _ _ other, _) => other = pool
  | (.nextFor other, _) => other = pool
  | (.remove _, answer) => answer = .left (some pool)

end Waiters

namespace Line

open Waiters (Request Answer about)

/-- The part of the line that waits for a pool. -/
def on (line : Line) (pool : PoolId) : Line := line.filter (·.pool = pool)

/-- The first in the line whom nobody in it outranks. -/
def foremost? (line : Line) : Option Wait :=
  line.find? fun wait => line.all fun other => other.level ≤ wait.level

/-- Who leaves the line at a request. -/
def leaver? (line : Line) : Request → Option Wait
  | .enqueue _ _ _ => none
  | .nextFor pool => (line.on pool).foremost?
  | .remove thread => line.find? (·.thread = thread)

/-- How a request is to be answered. -/
def answer (line : Line) (request : Request) : Answer :=
  match request with
  | .enqueue _ _ _ => .entered
  | .nextFor _ => .served ((line.leaver? request).map Wait.thread)
  | .remove _ => .left ((line.leaver? request).map Wait.pool)

/-- Who comes with a request. -/
def newcomer : Request → Line
  | .enqueue thread rank pool => [⟨thread, rank, pool⟩]
  | .nextFor _ => []
  | .remove _ => []

/-- The line after a request: whoever leaves does nothing to the others, and whoever comes stands
last. -/
def after (line : Line) (request : Request) : Line :=
  (line.leaver? request).elim line line.erase ++ newcomer request

/-- The line after requests, one after the other. -/
def afterAll (line : Line) (requests : List Request) : Line := requests.foldl after line

/-- Requests with the answers they are to have. -/
def history (line : Line) : List Request → List (Request × Answer)
  | [] => []
  | request :: rest => (request, line.answer request) :: (line.after request).history rest

/-- A request does not put a thread in line that stands there already. -/
def Admits (line : Line) : Request → Prop
  | .enqueue thread _ _ => thread ∉ line.map Wait.thread
  | _ => True

/-- No thread is put in line a second time by any of some requests. -/
def AdmitsAll (line : Line) : List Request → Prop
  | [] => True
  | request :: rest => line.Admits request ∧ (line.after request).AdmitsAll rest

instance (line : Line) : (request : Request) → Decidable (line.Admits request)
  | .enqueue thread _ _ => inferInstanceAs (Decidable (thread ∉ line.map Wait.thread))
  | .nextFor _ => .isTrue trivial
  | .remove _ => .isTrue trivial

instance decidableAdmitsAll (line : Line) :
    (requests : List Request) → Decidable (line.AdmitsAll requests)
  | [] => .isTrue trivial
  | request :: rest =>
    have := decidableAdmitsAll (line.after request) rest
    inferInstanceAs (Decidable (line.Admits request ∧ (line.after request).AdmitsAll rest))

/-- No thread stands in line twice. -/
def Distinct (line : Line) : Prop := (line.map Wait.thread).Nodup

variable {line line' before later : Line} {wait other : Wait} {pool : PoolId} {thread : ThreadId}
  {request : Request} {requests : List Request}

/-! ## Who is in line -/

theorem mem_on : wait ∈ line.on pool ↔ wait ∈ line ∧ wait.pool = pool := by
  simp [on]

theorem Distinct.nodup (h : line.Distinct) : line.Nodup := List.Nodup.of_map _ h

theorem Distinct.on (h : line.Distinct) (pool : PoolId) : (line.on pool).Distinct :=
  h.sublist (List.filter_sublist.map _)

/-- A thread stands at one place. -/
theorem Distinct.eq (h : line.Distinct) (hwait : wait ∈ line) (hother : other ∈ line)
    (hsame : wait.thread = other.thread) : wait = other :=
  List.inj_on_of_nodup_map h hwait hother hsame

theorem Distinct.find?_thread (h : line.Distinct) :
    line.find? (·.thread = thread) = some wait ↔ wait ∈ line ∧ wait.thread = thread := by
  constructor
  · intro hfound
    exact ⟨List.mem_of_find?_eq_some hfound, by simpa using List.find?_some hfound⟩
  · rintro ⟨hmem, rfl⟩
    obtain ⟨other, hother⟩ : ∃ other, line.find? (·.thread = wait.thread) = some other :=
      Option.isSome_iff_exists.mp (List.find?_isSome.mpr ⟨wait, hmem, by simp⟩)
    have hsame : other.thread = wait.thread := by simpa using List.find?_some hother
    rw [hother, h.eq (List.mem_of_find?_eq_some hother) hmem hsame]

/-- Whoever is erased is gone, and the others stand as they did. -/
theorem erase_split (h : (before ++ wait :: later).Nodup) :
    (before ++ wait :: later).erase wait = before ++ later := by
  have hnot : wait ∉ before := fun hmem =>
    List.disjoint_of_nodup_append h hmem List.mem_cons_self
  rw [List.erase_append_right _ hnot, List.erase_cons_head]

theorem foremost?_split (hbefore : ∀ other ∈ before, other.level < wait.level)
    (hlater : ∀ other ∈ later, other.level ≤ wait.level) :
    Line.foremost? (before ++ wait :: later) = some wait := by
  rw [foremost?, List.find?_eq_some_iff_append]
  refine ⟨?_, before, later, rfl, fun other hmem => ?_⟩
  · rw [List.all_eq_true]
    intro other hmem
    rcases List.mem_append.mp hmem with hearly | hrest
    · exact decide_eq_true (Nat.le_of_lt (hbefore other hearly))
    · rcases List.mem_cons.mp hrest with rfl | hlate
      · exact decide_eq_true (Nat.le_refl _)
      · exact decide_eq_true (hlater other hlate)
  · rw [Bool.not_eq_true', List.all_eq_false]
    exact ⟨wait, by simp, by simpa using hbefore other hmem⟩

/-- The foremost was there before all others of its rank, and nobody outranks it. -/
theorem exists_split_of_foremost? (h : line.foremost? = some wait) :
    ∃ before later, line = before ++ wait :: later ∧
      (∀ other ∈ before, other.level < wait.level) ∧
      ∀ other ∈ later, other.level ≤ wait.level := by
  rw [foremost?, List.find?_eq_some_iff_append] at h
  obtain ⟨hhighest, before, later, rfl, hbefore⟩ := h
  have hle : ∀ other ∈ before ++ wait :: later, other.level ≤ wait.level := fun other hmem =>
    of_decide_eq_true (List.all_eq_true.mp hhighest other hmem)
  refine ⟨before, later, rfl, fun other hmem => ?_, fun other hmem => hle other (by simp [hmem])⟩
  have houtranked := hbefore other hmem
  rw [Bool.not_eq_true', List.all_eq_false] at houtranked
  obtain ⟨higher, hhigher, hlt⟩ := houtranked
  exact Nat.lt_of_lt_of_le (by simpa using hlt) (hle higher hhigher)

theorem mem_of_foremost? (h : line.foremost? = some wait) : wait ∈ line :=
  List.mem_of_find?_eq_some h

theorem mem_of_leaver? (h : line.leaver? request = some wait) : wait ∈ line := by
  cases request with
  | enqueue => cases h
  | nextFor pool => exact (mem_on.mp (mem_of_foremost? h)).1
  | remove thread => exact List.mem_of_find?_eq_some h

theorem after_of_leaver? (h : line.leaver? request = some wait) :
    line.after request = line.erase wait := by
  cases request with
  | enqueue => cases h
  | nextFor pool => rw [after, h, Option.elim_some, newcomer, List.append_nil]
  | remove thread => rw [after, h, Option.elim_some, newcomer, List.append_nil]

theorem after_of_leaver?_eq_none (h : line.leaver? request = none) :
    line.after request = line ++ newcomer request := by
  rw [after, h, Option.elim_none]

theorem Distinct.after (h : line.Distinct) (hadmits : line.Admits request) :
    (line.after request).Distinct := by
  cases hleaver : line.leaver? request with
  | some wait =>
    rw [after_of_leaver? hleaver]
    exact h.sublist (List.erase_sublist.map _)
  | none =>
    rw [after_of_leaver?_eq_none hleaver]
    cases request with
    | enqueue thread rank pool =>
      rw [Distinct, List.map_append]
      exact h.append (List.nodup_singleton _) (List.disjoint_singleton.mpr hadmits)
    | nextFor pool => rwa [newcomer, List.append_nil]
    | remove thread => rwa [newcomer, List.append_nil]

/-! ## The part of one pool -/

theorem on_on (line : Line) (pool : PoolId) : (line.on pool).on pool = line.on pool := by
  simp [on]

theorem Admits.on (h : line.Admits request) : (line.on pool).Admits request := by
  cases request with
  | enqueue thread rank other => exact fun hmem => h ((List.filter_sublist.map _).subset hmem)
  | nextFor other => trivial
  | remove thread => trivial

theorem on_erase (line : Line) (wait : Wait) (pool : PoolId) :
    Line.on (line.erase wait) pool = (line.on pool).erase wait :=
  List.erase_filter.symm

/-- Who is to leave at a request about a pool stands in the part of that pool. -/
theorem Distinct.leaver?_on (h : line.Distinct)
    (habout : about pool (request, line.answer request) = true) :
    (line.on pool).leaver? request = line.leaver? request := by
  cases request with
  | enqueue => rfl
  | nextFor other =>
    obtain rfl : other = pool := by simpa [about] using habout
    rw [leaver?, leaver?, on_on]
  | remove thread =>
    have hpool : (line.find? (·.thread = thread)).map Wait.pool = some pool := by
      simpa [about, answer, leaver?] using habout
    obtain ⟨wait, hfound, rfl⟩ := Option.map_eq_some_iff.mp hpool
    obtain ⟨hmem, hthread⟩ := h.find?_thread.mp hfound
    rw [leaver?, leaver?, hfound, (h.on wait.pool).find?_thread]
    exact ⟨mem_on.mpr ⟨hmem, rfl⟩, hthread⟩

/-- The answer about a pool is that of its part of the line. -/
theorem Distinct.answer_on (h : line.Distinct)
    (habout : about pool (request, line.answer request) = true) :
    (line.on pool).answer request = line.answer request := by
  cases request with
  | enqueue => rfl
  | nextFor other => rw [answer, answer, h.leaver?_on habout]
  | remove thread => rw [answer, answer, h.leaver?_on habout]

/-- A request about a pool does to its part of the line what it would do if there were no other. -/
theorem Distinct.on_after (h : line.Distinct)
    (habout : about pool (request, line.answer request) = true) :
    (line.after request).on pool = (line.on pool).after request := by
  have hleaver := h.leaver?_on habout
  cases hwait : line.leaver? request with
  | some wait =>
    rw [after_of_leaver? hwait, after_of_leaver? (hleaver.trans hwait), on_erase]
  | none =>
    rw [after_of_leaver?_eq_none hwait, after_of_leaver?_eq_none (hleaver.trans hwait), Line.on,
      List.filter_append]
    congr 1
    cases request with
    | enqueue thread rank other => simpa [newcomer, about] using habout
    | nextFor other => rfl
    | remove thread => rfl

/-- A request that is not about a pool leaves its part of the line as it is. -/
theorem on_after_of_not_about (habout : about pool (request, line.answer request) = false) :
    (line.after request).on pool = line.on pool := by
  cases hwait : line.leaver? request with
  | some wait =>
    have hpool : wait.pool ≠ pool := by
      cases request with
      | enqueue => cases hwait
      | nextFor other =>
        rw [(mem_on.mp (mem_of_foremost? hwait)).2]
        simpa [about] using habout
      | remove thread => simpa [about, answer, hwait] using habout
    rw [after_of_leaver? hwait, on_erase, List.erase_of_not_mem]
    exact fun hmem => hpool (mem_on.mp hmem).2
  | none =>
    rw [after_of_leaver?_eq_none hwait, on, List.filter_append]
    refine List.append_right_eq_self.mpr ?_
    cases request with
    | enqueue thread rank other => simpa [newcomer, about] using habout
    | nextFor other => rfl
    | remove thread => rfl

/-- A thread that stands in one part of two lines is removed from that part of either. -/
theorem Distinct.about_of_on (h : line.Distinct) (h' : line'.Distinct)
    (hsame : line.on pool = line'.on pool)
    (habout : about pool (request, line.answer request) = true) :
    about pool (request, line'.answer request) = true := by
  cases request with
  | enqueue => exact habout
  | nextFor other => exact habout
  | remove thread =>
    have hleaver := h.leaver?_on habout
    have hpool : (line.find? (·.thread = thread)).map Wait.pool = some pool := by
      simpa [about, answer, leaver?] using habout
    obtain ⟨wait, hfound, hwait⟩ := Option.map_eq_some_iff.mp hpool
    have hmem : wait ∈ line'.on pool :=
      hsame ▸ mem_of_leaver? (hleaver.trans hfound)
    have hthread := (h.find?_thread.mp hfound).2
    have hfound' := h'.find?_thread.mpr ⟨(mem_on.mp hmem).1, hthread⟩
    simp [about, answer, leaver?, hfound', hwait]

/-! ## Histories -/

/-- What is asked about a pool, and answered, is what would be asked and answered if only this part
of the line were there. -/
theorem Distinct.history_on (h : line.Distinct) (hadmits : line.AdmitsAll requests)
    (pool : PoolId) :
    (line.on pool).AdmitsAll (((line.history requests).filter (about pool)).map Prod.fst) ∧
      (line.on pool).history (((line.history requests).filter (about pool)).map Prod.fst) =
        (line.history requests).filter (about pool) ∧
      (line.on pool).afterAll (((line.history requests).filter (about pool)).map Prod.fst) =
        (line.afterAll requests).on pool := by
  induction requests generalizing line with
  | nil => exact ⟨trivial, rfl, rfl⟩
  | cons request rest ih =>
    obtain ⟨hfirst, hrest⟩ := hadmits
    obtain ⟨hadmitted, hhistory, hafter⟩ := ih (h.after hfirst) hrest
    cases habout : about pool (request, line.answer request) with
    | false =>
      rw [on_after_of_not_about habout] at hadmitted hhistory hafter
      rw [history, List.filter_cons_of_neg (by simp [habout])]
      exact ⟨hadmitted, hhistory, hafter⟩
    | true =>
      rw [h.on_after habout] at hadmitted hhistory hafter
      rw [history, List.filter_cons_of_pos habout, List.map_cons]
      refine ⟨⟨hfirst.on, hadmitted⟩, ?_, hafter⟩
      rw [history, hhistory, h.answer_on habout]

/-- Two lines that agree on the part of a pool answer alike about it, whatever else is in them. -/
theorem Distinct.history_congr (h : line.Distinct) (h' : line'.Distinct)
    (hsame : line.on pool = line'.on pool) (hadmits : line.AdmitsAll requests)
    (hadmits' : line'.AdmitsAll requests) :
    (line.history requests).filter (about pool) = (line'.history requests).filter (about pool) := by
  induction requests generalizing line line' with
  | nil => rfl
  | cons request rest ih =>
    obtain ⟨hfirst, hrest⟩ := hadmits
    obtain ⟨hfirst', hrest'⟩ := hadmits'
    have hih := fun hafter => ih (h.after hfirst) (h'.after hfirst') hafter hrest hrest'
    rw [history, history]
    cases habout : about pool (request, line.answer request) with
    | false =>
      have habout' : about pool (request, line'.answer request) = false :=
        Bool.eq_false_iff.mpr fun htrue =>
          absurd (h'.about_of_on h hsame.symm htrue) (by simp [habout])
      rw [List.filter_cons_of_neg (by simp [habout]), List.filter_cons_of_neg (by simp [habout'])]
      exact hih (by rw [on_after_of_not_about habout, on_after_of_not_about habout', hsame])
    | true =>
      have habout' := h.about_of_on h' hsame habout
      have hanswer : line.answer request = line'.answer request := by
        rw [← h.answer_on habout, hsame, h'.answer_on habout']
      rw [List.filter_cons_of_pos habout, List.filter_cons_of_pos habout', hanswer,
        hih (by rw [h.on_after habout, h'.on_after habout', hsame])]

end Line

end CoopKernel.Memory
