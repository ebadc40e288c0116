import Mathlib.Algebra.BigOperators.Group.Finset.Piecewise
import Mathlib.Tactic.IntervalCases
import CoopKernel.Proofs.Memory.Line
import CoopKernel.Proofs.Memory.Waiters

/-!
# Queueing for memory

The level queue in which threads wait for memory holds a line (`Holds`): each level has those of the
line that belong there, in the order of the line. Each search of a level ends at a place of the line
(`Holds.take`), with nobody before it at the level who would have been found too; what the search
over the levels adds is that nobody stands higher.

So the queue answers as the line does, as long as no thread is put in it twice (`Holds.answer`,
`Holds.after`), and all that is known of lines is true of the queue (`Attends`): who is
served, who is left, how many they are, and that what is asked about one pool has nothing to do with
what is asked about another.
-/

namespace CoopKernel.Memory

/-- The queue has the threads of the line, each at the level of its rank, and at each level in the
order of the line. -/
structure Holds (waiters : Waiters) (line : Line) : Prop where
  level : ∀ p, waiters.level p = (line.filter (·.level = p.rank)).map Wait.entry
  distinct : line.Distinct

open Waiters (Request about)

variable {waiters rest : Waiters} {line : Line} {pool : PoolId} {thread : ThreadId}
  {request : Request} {requests : List Request} {test : ThreadId × PoolId → Bool}
  {element : ThreadId × PoolId} {p : Priority}

namespace Holds

theorem empty : Holds {} [] where
  level := fun p => LevelQueue.level_empty p
  distinct := List.nodup_nil

theorem mem_level (h : Holds waiters line) {wait : Wait} (hmem : wait ∈ line)
    (hlevel : wait.level = p.rank) : wait.entry ∈ waiters.level p := by
  rw [h.level]
  exact List.mem_map.mpr ⟨wait, by simpa using ⟨hmem, hlevel⟩, rfl⟩

/-- Taking the first element of a level that passes a test takes somebody out of the line who is not
preceded at that level by anybody who passes. -/
theorem take (h : Holds waiters line) (hfound : (waiters.level p).find? test = some element)
    (hrest : rest = waiters.setLevel p ((waiters.level p).eraseP test)) :
    ∃ before wait later, line = before ++ wait :: later ∧ wait.entry = element ∧
      wait.level = p.rank ∧
      (∀ other ∈ before, other.level = p.rank → test other.entry = false) ∧
      Holds rest (before ++ later) := by
  rw [h.level, List.find?_map, Option.map_eq_some_iff] at hfound
  obtain ⟨wait, hfound, hentry⟩ := hfound
  rw [List.find?_filter, List.find?_eq_some_iff_append] at hfound
  obtain ⟨hpasses, before, later, rfl, hbefore⟩ := hfound
  simp only [Function.comp_apply, decide_eq_true_eq] at hpasses
  obtain ⟨hlevel, htest⟩ := hpasses
  replace hbefore : ∀ other ∈ before, other.level = p.rank → test other.entry = false := by
    intro other hmem hother
    simpa [hother] using hbefore other hmem
  refine ⟨before, wait, later, rfl, hentry, hlevel, hbefore, fun p' => ?_, ?_⟩
  · rw [hrest, LevelQueue.level_setLevel]
    split
    · next heq =>
      subst heq
      rw [h.level]
      simp only [List.filter_append, List.filter_cons, hlevel, decide_true, if_true,
        List.map_append, List.map_cons]
      rw [List.eraseP_append_right _ ?_, List.eraseP_cons_of_pos htest]
      intro passed hpassed
      obtain ⟨other, hother, rfl⟩ := List.mem_map.mp hpassed
      obtain ⟨hmem, hsame⟩ := List.mem_filter.mp hother
      simp [hbefore other hmem (by simpa using hsame)]
    · next hne =>
      have hother : wait.level ≠ p'.rank := fun heq =>
        hne (Priority.rank_injective (heq.symm.trans hlevel))
      rw [h.level]
      simp [List.filter_append, hother]
  · exact h.distinct.sublist (List.Sublist.map _
      ((List.sublist_cons_self wait later).append_left before))

/-- Who comes stands last at its level. -/
theorem enqueue (h : Holds waiters line) (hnew : thread ∉ line.map Wait.thread) (rank : Nat)
    (pool : PoolId) : Holds (waiters.enqueue thread rank pool) (line ++ [⟨thread, rank, pool⟩]) where
  level := by
    intro p
    have hlevel : Priority.ofRank rank = p ↔ (⟨thread, rank, pool⟩ : Wait).level = p.rank := by
      rw [Wait.level, ← Priority.rank_ofRank]
      exact ⟨congrArg _, Priority.rank_injective⟩
    rw [Waiters.enqueue, LevelQueue.level_push_append, h.level, List.filter_append,
      List.map_append]
    congr 1
    by_cases hp : Priority.ofRank rank = p
    · rw [if_pos hp, List.filter_cons_of_pos (by simpa using hlevel.mp hp)]
      rfl
    · rw [if_neg hp, List.filter_cons_of_neg (by simpa using mt hlevel.mpr hp)]
      rfl
  distinct := h.distinct.after (show line.Admits (.enqueue thread rank pool) from hnew)

/-- Nobody is served for a pool that nobody waits for. -/
theorem nextFor?_eq_none (h : Holds waiters line) (hnone : waiters.nextFor? pool = none) :
    line.on pool = [] := by
  rw [List.eq_nil_iff_forall_not_mem]
  intro wait hwaits
  obtain ⟨hmem, rfl⟩ := Line.mem_on.mp hwaits
  exact Waiters.nextFor?_eq_none.mp hnone _ wait.thread
    (h.mem_level hmem (Priority.rank_ofRank wait.rank).symm)

/-- Whoever is served is the first of the highest rank among those who wait for the pool. -/
theorem nextFor?_eq_some (h : Holds waiters line)
    (hserved : waiters.nextFor? pool = some (thread, rest)) :
    ∃ wait, (line.on pool).foremost? = some wait ∧ wait.thread = thread ∧
      Holds rest (line.erase wait) := by
  rw [Waiters.nextFor?, Option.map_eq_some_iff] at hserved
  obtain ⟨⟨element, _⟩, htaken, heq⟩ := hserved
  obtain ⟨rfl, rfl⟩ := Prod.mk.inj heq
  obtain ⟨p, hfound, hrest, habove⟩ := LevelQueue.takeHighest?_eq_some htaken
  obtain ⟨before, wait, later, rfl, rfl, hlevel, hbefore, hholds⟩ := h.take hfound hrest
  have hpool : wait.pool = pool := by simpa [Wait.entry] using List.find?_some hfound
  -- Above the level that the search stopped at nobody waits for the pool.
  have hhighest : ∀ other ∈ before ++ wait :: later, other.pool = pool →
      other.level ≤ wait.level := by
    intro other hmem hother
    by_contra hlt
    have hfalse := habove (.ofRank other.rank)
      (by rw [Priority.lt_iff_rank_lt, Priority.rank_ofRank, ← hlevel]; exact not_le.mp hlt)
      other.entry (h.mem_level hmem (Priority.rank_ofRank other.rank).symm)
    simp [Wait.entry, hother] at hfalse
  refine ⟨wait, ?_, rfl, by rwa [Line.erase_split h.distinct.nodup]⟩
  rw [Line.on, List.filter_append, List.filter_cons_of_pos (by simpa using hpool)]
  refine Line.foremost?_split (fun other hmem => ?_) fun other hmem => ?_
  · obtain ⟨hmem, hother⟩ := Line.mem_on.mp hmem
    refine lt_of_le_of_ne (hhighest other (List.mem_append_left _ hmem) hother) fun heq => ?_
    have hfalse := hbefore other hmem (heq.trans hlevel)
    simp [Wait.entry, hother] at hfalse
  · obtain ⟨hmem, hother⟩ := Line.mem_on.mp hmem
    exact hhighest other (List.mem_append_right _ (List.mem_cons_of_mem _ hmem)) hother

theorem remove?_eq_none (h : Holds waiters line) (hnone : waiters.remove? thread = none) :
    line.find? (·.thread = thread) = none := by
  rw [List.find?_eq_none]
  intro wait hmem
  rw [decide_eq_true_eq]
  rintro rfl
  exact Waiters.remove?_eq_none.mp hnone _ wait.pool
    (h.mem_level hmem (Priority.rank_ofRank wait.rank).symm)

/-- Whoever is removed stood in the line, and once only. -/
theorem remove?_eq_some (h : Holds waiters line)
    (hremoved : waiters.remove? thread = some (pool, rest)) :
    ∃ wait, line.find? (·.thread = thread) = some wait ∧ wait.pool = pool ∧
      Holds rest (line.erase wait) := by
  rw [Waiters.remove?, Option.map_eq_some_iff] at hremoved
  obtain ⟨⟨element, _⟩, htaken, heq⟩ := hremoved
  obtain ⟨rfl, rfl⟩ := Prod.mk.inj heq
  obtain ⟨p, hfound, hrest⟩ := LevelQueue.takeLowest?_eq_some htaken
  obtain ⟨before, wait, later, rfl, rfl, -, -, hholds⟩ := h.take hfound hrest
  have hthread : wait.thread = thread := by simpa [Wait.entry] using List.find?_some hfound
  refine ⟨wait, h.distinct.find?_thread.mpr ⟨by simp, hthread⟩, rfl, ?_⟩
  rwa [Line.erase_split h.distinct.nodup]

/-- The queue answers as the line does. -/
theorem answer (h : Holds waiters line) (request : Request) :
    waiters.answer request = line.answer request := by
  cases request with
  | enqueue => rfl
  | nextFor pool =>
    rw [Waiters.answer, Line.answer, Line.leaver?]
    cases hnext : waiters.nextFor? pool with
    | none => rw [h.nextFor?_eq_none hnext]; rfl
    | some served =>
      obtain ⟨wait, hforemost, hthread, -⟩ := h.nextFor?_eq_some hnext
      rw [hforemost, Option.map_some, Option.map_some, hthread]
  | remove thread =>
    rw [Waiters.answer, Line.answer, Line.leaver?]
    cases hremove : waiters.remove? thread with
    | none => rw [h.remove?_eq_none hremove]; rfl
    | some removed =>
      obtain ⟨wait, hfound, hpool, -⟩ := h.remove?_eq_some hremove
      rw [hfound, Option.map_some, Option.map_some, hpool]

/-- The queue holds the line that there is after a request. -/
theorem after (h : Holds waiters line) (hadmits : line.Admits request) :
    Holds (waiters.after request) (line.after request) := by
  cases request with
  | enqueue thread rank pool => exact h.enqueue hadmits rank pool
  | nextFor pool =>
    rw [Waiters.after]
    cases hnext : waiters.nextFor? pool with
    | none =>
      have hleaver : line.leaver? (.nextFor pool) = none := by
        rw [Line.leaver?, h.nextFor?_eq_none hnext]
        rfl
      rwa [Line.after_of_leaver?_eq_none hleaver, Line.newcomer, List.append_nil]
    | some served =>
      obtain ⟨wait, hforemost, -, hrest⟩ := h.nextFor?_eq_some hnext
      rwa [Line.after_of_leaver? (show line.leaver? (.nextFor pool) = some wait from hforemost)]
  | remove thread =>
    rw [Waiters.after]
    cases hremove : waiters.remove? thread with
    | none =>
      have hleaver : line.leaver? (.remove thread) = none := h.remove?_eq_none hremove
      rwa [Line.after_of_leaver?_eq_none hleaver, Line.newcomer, List.append_nil]
    | some removed =>
      obtain ⟨wait, hfound, -, hrest⟩ := h.remove?_eq_some hremove
      rwa [Line.after_of_leaver? (show line.leaver? (.remove thread) = some wait from hfound)]

/-- The queue holds the line that there is after any requests. -/
theorem afterAll (h : Holds waiters line) (hadmits : line.AdmitsAll requests) :
    Holds (waiters.afterAll requests) (line.afterAll requests) := by
  induction requests generalizing waiters line with
  | nil => exact h
  | cons request rest ih => exact ih (h.after hadmits.1) hadmits.2

/-- The queue has the history that the line is to have. -/
theorem history (h : Holds waiters line) (hadmits : line.AdmitsAll requests) :
    waiters.history requests = line.history requests := by
  induction requests generalizing waiters line with
  | nil => rfl
  | cons request rest ih =>
    rw [Waiters.history, Line.history, h.answer, ih (h.after hadmits.1) hadmits.2]

/-! ## Figures -/

/-- The queue has the threads of the line and no others. -/
theorem perm (h : Holds waiters line) : waiters.toList.Perm (line.map Wait.entry) := by
  have hlevels : waiters.toList =
      (Priority.ascending.flatMap fun p => line.filter (·.level = p.rank)).map Wait.entry := by
    rw [LevelQueue.toList, List.map_flatMap]
    exact List.flatMap_congr fun p _ => h.level p
  rw [hlevels]
  refine List.Perm.map _ (List.perm_iff_count.mpr fun wait => ?_)
  -- Whoever is in line is counted at one level, and at no other.
  have hcount : ∀ rank, (line.filter (·.level = rank)).count wait =
      if wait.level = rank then line.count wait else 0 := by
    intro rank
    split
    · next heq => exact List.count_filter (by simpa using heq)
    · next hne =>
      exact List.count_eq_zero.mpr fun hmem => hne (by simpa using List.of_mem_filter hmem)
  have hlevel : wait.level ≤ 3 := Nat.min_le_right _ _
  simp only [Priority.ascending, List.flatMap_cons, List.flatMap_nil, List.count_append,
    List.count_nil, hcount]
  interval_cases wait.level <;> simp [Priority.rank]

theorem contains_iff (h : Holds waiters line) :
    waiters.contains thread = true ↔ ∃ wait ∈ line, wait.thread = thread := by
  rw [Waiters.contains, LevelQueue.any, h.perm.any_eq, List.any_map, List.any_eq_true]
  simp [Wait.entry]

theorem waitingOn_eq (h : Holds waiters line) (pool : PoolId) :
    waiters.waitingOn pool = (line.on pool).length := by
  rw [Waiters.waitingOn, LevelQueue.count, h.perm.countP_eq, List.countP_map, Line.on,
    ← List.countP_eq_length_filter]
  rfl

theorem size_eq (h : Holds waiters line) : waiters.size = line.length := by
  rw [LevelQueue.size, h.perm.length_eq, List.length_map]

theorem isEmpty_iff (h : Holds waiters line) : waiters.isEmpty = true ↔ line = [] := by
  rw [LevelQueue.isEmpty, h.perm.isEmpty_eq, List.isEmpty_iff, List.map_eq_nil_iff]

end Holds

/-- The parts of a line make up the line. -/
theorem Line.sum_length_on (line : Line) {pools : Finset PoolId}
    (hpools : ∀ wait ∈ line, wait.pool ∈ pools) :
    ∑ pool ∈ pools, (line.on pool).length = line.length := by
  induction line with
  | nil => simp [Line.on]
  | cons wait rest ih =>
    obtain ⟨hwait, hrest⟩ := List.forall_mem_cons.mp hpools
    have hcons : ∀ pool, (Line.on (wait :: rest) pool).length =
        (Line.on rest pool).length + if wait.pool = pool then 1 else 0 := by
      intro pool
      by_cases hpool : wait.pool = pool <;> simp [Line.on, hpool]
    simp only [hcons, Finset.sum_add_distrib, ih hrest, Finset.sum_ite_eq, if_pos hwait,
      List.length_cons]

/-- What can be said of a queue when some threads stand in line for memory. -/
structure Attends (waiters : Waiters) (line : Line) : Prop where
  /-- The levels have those in line, each in its place among those of its rank. -/
  level : ∀ p, waiters.level p = (line.filter (·.level = p.rank)).map Wait.entry
  /-- Nobody is served for a pool if and only if nobody waits for it. -/
  nobody : ∀ {pool}, waiters.nextFor? pool = none ↔ ∀ wait ∈ line, wait.pool ≠ pool
  /-- Whoever is served came first among those of the highest rank that wait for the pool, and all
  others stay as they stand. -/
  foremost : ∀ {pool thread rest}, waiters.nextFor? pool = some (thread, rest) →
    ∃ before wait later, line.on pool = before ++ wait :: later ∧ wait.thread = thread ∧
      (∀ other ∈ before, other.level < wait.level) ∧ (∀ other ∈ later, other.level ≤ wait.level) ∧
      Holds rest (line.erase wait)
  /-- Nobody is removed if and only if the thread is not in line. -/
  absent : ∀ {thread}, waiters.remove? thread = none ↔ ∀ wait ∈ line, wait.thread ≠ thread
  /-- Whoever is removed waited for the pool that is answered, and all others stay as they stand. -/
  removed : ∀ {thread pool rest}, waiters.remove? thread = some (pool, rest) →
    ∃ wait ∈ line, wait.thread = thread ∧ wait.pool = pool ∧ Holds rest (line.erase wait)
  contains : ∀ {thread}, waiters.contains thread = true ↔ ∃ wait ∈ line, wait.thread = thread
  waitingOn : ∀ pool, waiters.waitingOn pool = (line.on pool).length
  size : waiters.size = line.length
  isEmpty : waiters.isEmpty = true ↔ line = []
  /-- All pools together have as many waiting threads as there are. -/
  total : ∀ {pools : Finset PoolId}, (∀ wait ∈ line, wait.pool ∈ pools) →
    ∑ pool ∈ pools, waiters.waitingOn pool = waiters.size
  /-- A request that is not about a pool changes none of the answers about it that are to come. -/
  undisturbed : ∀ {pool request later},
    about pool (request, waiters.answer request) = false → line.AdmitsAll later →
    line.AdmitsAll (request :: later) →
    ((waiters.after request).history later).filter (about pool) =
      (waiters.history later).filter (about pool)

/-- A queue that holds a line attends to it. -/
theorem Holds.attends (h : Holds waiters line) : Attends waiters line where
  level := h.level
  nobody := by
    intro pool
    constructor
    · intro hnone wait hmem hpool
      exact List.not_mem_nil (h.nextFor?_eq_none hnone ▸ Line.mem_on.mpr ⟨hmem, hpool⟩)
    · intro hnone
      rw [Option.eq_none_iff_forall_not_mem]
      intro served hserved
      obtain ⟨wait, hforemost, -⟩ := h.nextFor?_eq_some hserved
      obtain ⟨hmem, hpool⟩ := Line.mem_on.mp (Line.mem_of_foremost? hforemost)
      exact hnone wait hmem hpool
  foremost := by
    intro pool thread rest hserved
    obtain ⟨wait, hforemost, hthread, hrest⟩ := h.nextFor?_eq_some hserved
    obtain ⟨before, later, hsplit, hbefore, hlater⟩ := Line.exists_split_of_foremost? hforemost
    exact ⟨before, wait, later, hsplit, hthread, hbefore, hlater, hrest⟩
  absent := by
    intro thread
    constructor
    · intro hnone wait hmem
      simpa using List.find?_eq_none.mp (h.remove?_eq_none hnone) wait hmem
    · intro hnone
      rw [Option.eq_none_iff_forall_not_mem]
      intro removed hremoved
      obtain ⟨wait, hfound, -⟩ := h.remove?_eq_some hremoved
      obtain ⟨hmem, hthread⟩ := h.distinct.find?_thread.mp hfound
      exact hnone wait hmem hthread
  removed := by
    intro thread pool rest hremoved
    obtain ⟨wait, hfound, hpool, hrest⟩ := h.remove?_eq_some hremoved
    obtain ⟨hmem, hthread⟩ := h.distinct.find?_thread.mp hfound
    exact ⟨wait, hmem, hthread, hpool, hrest⟩
  contains := h.contains_iff
  waitingOn := h.waitingOn_eq
  size := h.size_eq
  isEmpty := h.isEmpty_iff
  total := by
    intro pools hpools
    rw [h.size_eq, ← line.sum_length_on hpools]
    exact Finset.sum_congr rfl fun pool _ => h.waitingOn_eq pool
  undisturbed := by
    intro pool request later habout hadmits hadmits'
    rw [h.answer] at habout
    rw [(h.after hadmits'.1).history hadmits'.2, h.history hadmits]
    exact (h.distinct.after hadmits'.1).history_congr h.distinct (Line.on_after_of_not_about habout)
      hadmits'.2 hadmits

/-- What is promised of the memory queue after requests. -/
structure Queues (requests : List Request) : Prop where
  /-- Everything was answered as the line answers it. -/
  history : Waiters.history {} requests = Line.history [] requests
  /-- The queue attends to the line that there is now. -/
  attends : Attends (Waiters.afterAll {} requests) (Line.afterAll [] requests)
  /-- A queue that had been asked only what was about one pool would have answered the same, and
  those that wait for this pool would now be in line. -/
  alone : ∀ pool, ∃ asked, Line.AdmitsAll [] asked ∧
    Waiters.history {} asked = (Waiters.history {} requests).filter (about pool) ∧
    Line.afterAll [] asked = (Line.afterAll [] requests).on pool

/-- The memory queue is one line, and one for each pool apart, as long as nobody is put in it twice
at a time. -/
theorem queues_of_admitsAll (h : Line.AdmitsAll [] requests) : Queues requests := by
  refine ⟨Holds.empty.history h, (Holds.empty.afterAll h).attends, fun pool => ?_⟩
  obtain ⟨hadmits, hhistory, hafter⟩ := Holds.empty.distinct.history_on h pool
  refine ⟨_, hadmits, ?_, hafter⟩
  rw [Holds.empty.history h, Holds.empty.history hadmits]
  exact hhistory

/-- Six threads queue for two pools, at ranks up to nine; one of them is removed and one is served,
and then waits again. -/
def crowd : List Request :=
  [.enqueue ⟨1⟩ 1 ⟨1⟩, .enqueue ⟨2⟩ 7 ⟨2⟩, .enqueue ⟨3⟩ 3 ⟨1⟩, .enqueue ⟨4⟩ 9 ⟨1⟩, .remove ⟨3⟩,
    .enqueue ⟨5⟩ 3 ⟨1⟩, .enqueue ⟨6⟩ 0 ⟨2⟩, .nextFor ⟨2⟩, .enqueue ⟨2⟩ 0 ⟨1⟩]

/-- Of the two threads that are left at the highest level the one that came first is served next. -/
theorem queues_crowd : Line.AdmitsAll [] crowd ∧
    (Waiters.afterAll {} crowd).answer (.nextFor ⟨1⟩) = .served (some ⟨4⟩) ∧
    (Waiters.history {} crowd).filter (about ⟨2⟩) = [(.enqueue ⟨2⟩ 7 ⟨2⟩, .entered),
      (.enqueue ⟨6⟩ 0 ⟨2⟩, .entered), (.nextFor ⟨2⟩, .served (some ⟨2⟩))] ∧ Queues crowd :=
  ⟨by decide, by decide, by decide, queues_of_admitsAll (by decide)⟩

end CoopKernel.Memory
