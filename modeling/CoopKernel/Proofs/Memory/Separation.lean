import CoopKernel.Proofs.Memory.Figures

/-!
# Pools apart

The pools of a system share a counter for their numbers and one queue of waiting threads. Whatever
is asked of them, in any order and with any arguments, each pool is nevertheless what its own part
of the history makes of it (`Pools.account`), and nothing that is asked of another pool shows in its
books or among those who wait for it.

## Shape of the proof

What a request can come to is said once (`Pools.Outcome`), with the pools that it leaves behind.
Which numbers were given out and which pools are gone (`Outcome.number_created`, `Outcome.stands`),
what becomes of the books of a pool (`Outcome.record`), how many threads wait for it
(`Outcome.waitingOn`) and in which places (`Outcome.waiting`) are read off it. All but the last are
kept up after any requests (`Pools.Faithful`). The last is what makes a pool be left alone
(`Pools.Spared`), by one request and so by any number of them.
-/

namespace CoopKernel.Memory.Pools

/-! ## Requests -/

/-- What can be asked of the pools. -/
inductive Request
  | create (base size : Nat)
  | delete (pool : PoolId)
  | serve (pool : PoolId) (request : Pool.Request)
  | wait (thread : ThreadId) (rank : Nat) (pool : PoolId)
  | wakeNext (pool : PoolId)
  | cancelWait (thread : ThreadId)
deriving DecidableEq, Repr

/-- What is answered to a request that is not refused. An allocation is answered by its address, a
release by its size. -/
inductive Answer
  | created (pool : PoolId)
  | deleted
  | served (found : Nat)
  | waits
  | woken (thread? : Option ThreadId)
  | left (pool? : Option PoolId)
deriving DecidableEq, Repr

/-- A request with the answer to it. -/
abbrev Entry := Request × Except PoolError Answer

/-- The answer to a request and the pools afterwards, unless it is refused. -/
def attempt (pools : Pools) : Request → Except PoolError (Answer × Pools)
  | .create base size => (pools.create base size).map fun (pool, rest) => (.created pool, rest)
  | .delete pool => (pools.delete pool).map fun rest => (.deleted, rest)
  | .serve pool (.allocate size) =>
    (pools.allocate pool size).map fun (address, rest) => (.served address, rest)
  | .serve pool (.deallocate address) =>
    (pools.deallocate pool address).map fun (bytes, rest) => (.served bytes, rest)
  | .wait thread rank pool => .ok (.waits, pools.wait thread rank pool)
  | .wakeNext pool => .ok (.woken (pools.wakeNext pool).1, (pools.wakeNext pool).2)
  | .cancelWait thread => .ok (.left (pools.cancelWait thread).1, (pools.cancelWait thread).2)

/-- How a request is answered. -/
def answer (pools : Pools) (request : Request) : Except PoolError Answer :=
  (pools.attempt request).map Prod.fst

/-- The pools after a request. -/
def after (pools : Pools) (request : Request) : Pools :=
  match pools.attempt request with
  | .ok (_, rest) => rest
  | .error _ => pools

/-- The pools after requests, one after the other. -/
def afterAll (pools : Pools) (requests : List Request) : Pools := requests.foldl after pools

/-- Requests with the answers to them. -/
def history (pools : Pools) : List Request → List Entry
  | [] => []
  | request :: rest => (request, pools.answer request) :: (pools.after request).history rest

/-- The pool that a request turned out to be about. Who ends a wait is told which pool it was
for. -/
def subject? : Entry → Option PoolId
  | (.create _ _, .ok (.created pool)) => some pool
  | (.create _ _, _) => none
  | (.delete pool, _) => some pool
  | (.serve pool _, _) => some pool
  | (.wait _ _ pool, _) => some pool
  | (.wakeNext pool, _) => some pool
  | (.cancelWait _, .ok (.left pool?)) => pool?
  | (.cancelWait _, _) => none

/-- The pool that was created. -/
def created? : Entry → Option PoolId
  | (_, .ok (.created pool)) => some pool
  | _ => none

/-- The pool that was removed. -/
def deleted? : Entry → Option PoolId
  | (.delete pool, .ok _) => some pool
  | _ => none

/-- The pools that were created, one after the other. -/
def created (entries : List Entry) : List PoolId := entries.filterMap created?

/-- The pools that were removed. -/
def deleted (entries : List Entry) : List PoolId := entries.filterMap deleted?

/-- Whether a thread began to wait for a pool. -/
def comes (pool : PoolId) : Entry → Bool
  | (.wait _ _ other, .ok _) => other = pool
  | _ => false

/-- Whether a thread ceased to wait for a pool. -/
def goes (pool : PoolId) : Entry → Bool
  | (.wakeNext other, .ok (.woken thread?)) => thread?.isSome ∧ other = pool
  | (.cancelWait _, .ok (.left pool?)) => pool? = some pool
  | _ => false

/-- The books of a pool after one more entry that is about it. -/
def revise (alignment : Nat) (books? : Option Pool) : Entry → Option Pool
  | (.create base size, .ok _) => (Pool.new base size alignment).toOption
  | (.delete _, .ok _) => none
  | (.serve _ request, .ok _) => books?.map (·.serve request)
  | _ => books?

/-- The books of a pool after one more entry. -/
def record (alignment : Nat) (pool : PoolId) (books? : Option Pool) (entry : Entry) :
    Option Pool :=
  if subject? entry = some pool then revise alignment books? entry else books?

/-- The books that a history leads to for a pool, which is not there in the beginning. -/
def account (alignment : Nat) (pool : PoolId) (entries : List Entry) : Option Pool :=
  entries.foldl (record alignment pool) none

variable {pools pools' : Pools} {pool : PoolId} {books books' : Pool} {request : Request}
  {requests : List Request} {answered : Except PoolError Answer} {entries : List Entry}

theorem afterAll_concat (pools : Pools) (requests : List Request) (request : Request) :
    pools.afterAll (requests ++ [request]) = (pools.afterAll requests).after request :=
  List.foldl_concat ..

theorem history_concat (pools : Pools) (requests : List Request) (request : Request) :
    pools.history (requests ++ [request]) =
      pools.history requests ++ [(request, (pools.afterAll requests).answer request)] := by
  induction requests generalizing pools with
  | nil => rfl
  | cons first rest ih => exact congrArg _ (ih (pools.after first))

/-! ## What a request comes to -/

/-- What a request of some pools can come to, and the pools that are left. -/
inductive Outcome (pools : Pools) : Request → Except PoolError Answer → Pools → Prop
  | created {base size : Nat} {books : Pool} : Pool.new base size pools.alignment = .ok books →
    Outcome pools (.create base size) (.ok (.created pools.registry.nextHandle))
      { pools with registry := pools.registry.add books }
  | deleted {pool : PoolId} {books : Pool} : pools.registry.get? pool = some books →
    Outcome pools (.delete pool) (.ok .deleted)
      { pools with registry := pools.registry.erase pool }
  | served {pool : PoolId} {books books' : Pool} {request : Pool.Request} {found : Nat} :
    pools.registry.get? pool = some books → books.answer request = .ok (found, books') →
    Outcome pools (.serve pool request) (.ok (.served found)) (pools.put pool books')
  | waits (thread : ThreadId) (rank : Nat) (pool : PoolId) :
    Outcome pools (.wait thread rank pool) (.ok .waits)
      { pools with waiters := pools.waiters.push (.ofRank rank) (thread, pool) }
  | woken {thread : ThreadId} {pool : PoolId} {p : Priority} :
    (thread, pool) ∈ pools.waiters.level p →
    Outcome pools (.wakeNext pool) (.ok (.woken (some thread)))
      { pools with waiters := pools.waiters.erase p (thread, pool) }
  | nobody (pool : PoolId) : Outcome pools (.wakeNext pool) (.ok (.woken none)) pools
  | left {thread : ThreadId} {pool : PoolId} {p : Priority} :
    (thread, pool) ∈ pools.waiters.level p →
    Outcome pools (.cancelWait thread) (.ok (.left (some pool)))
      { pools with waiters := pools.waiters.erase p (thread, pool) }
  | absent (thread : ThreadId) : Outcome pools (.cancelWait thread) (.ok (.left none)) pools
  | refused (request : Request) (error : PoolError) : Outcome pools request (.error error) pools

namespace Outcome

/-! ### Numbers -/

/-- A pool that is created gets the next number. -/
theorem number_created (h : Outcome pools request answered pools')
    (hcreated : created? (request, answered) = some pool) : pool = pools.registry.nextHandle := by
  cases h with
  | created => exact (Option.some.inj hcreated).symm
  | _ => cases hcreated

theorem next (h : Outcome pools request answered pools') :
    pools'.registry.next =
      pools.registry.next + (created? (request, answered)).toList.length := by
  cases h <;> rfl

theorem alignment (h : Outcome pools request answered pools') :
    pools'.alignment = pools.alignment := by
  cases h <;> rfl

theorem orderly (h : Outcome pools request answered pools') (horderly : pools.Orderly) :
    pools'.Orderly := by
  cases h with
  | created hnew => exact horderly.add (Pool.tiled_new hnew)
  | deleted => exact horderly.erase _
  | served hbooks hanswer =>
    have hserved := (horderly.tiled hbooks).serve
    exact horderly.put (Pool.serve_of_ok hanswer ▸ hserved _)
  | waits | woken | left => exact horderly.of_registry rfl
  | nobody | absent | refused => exact horderly

/-! ### Books -/

/-- The books of a pool change as its own entries say. -/
theorem record (h : Outcome pools request answered pools') (horderly : pools.Orderly)
    (pool : PoolId) : pools'.registry.get? pool =
      record pools.alignment pool (pools.registry.get? pool) (request, answered) := by
  cases h with
  | created hnew =>
    rw [Registry.get?_add horderly.registry, Pools.record, subject?, revise, hnew]
    simp only [Option.some.injEq, eq_comm]
    rfl
  | deleted hbooks =>
    rw [Registry.get?_erase, Pools.record, subject?, revise]
    simp only [Option.some.injEq, eq_comm]
  | served hbooks hanswer =>
    rw [get?_put, Pools.record, subject?, revise]
    simp only [Option.some.injEq, eq_comm]
    split
    · next heq =>
      rw [heq, hbooks, Option.map_some, Option.map_some, Pool.serve_of_ok hanswer]
    · rfl
  | waits | woken | nobody | left | absent => exact (ite_self _).symm
  | refused => cases request <;> exact (ite_self _).symm

/-- Pools come by creation and go by removal. -/
theorem stands (h : Outcome pools request answered pools') (horderly : pools.Orderly)
    (pool : PoolId) : (pools'.registry.get? pool).isSome ↔
      (created? (request, answered) = some pool ∨ (pools.registry.get? pool).isSome) ∧
        deleted? (request, answered) ≠ some pool := by
  cases h with
  | created hnew =>
    rw [Registry.get?_add horderly.registry]
    simp only [created?, deleted?, Option.some.injEq, eq_comm]
    split <;> simp_all
  | deleted hbooks =>
    rw [Registry.get?_erase]
    simp only [created?, deleted?, ne_eq, Option.some.injEq, eq_comm]
    split <;> simp_all
  | served hbooks hanswer =>
    rw [get?_put]
    simp only [created?, deleted?]
    split <;> simp_all
  | waits | woken | nobody | left | absent => simp [created?, deleted?]
  | refused => cases request <;> simp [created?, deleted?]

/-- Only a pool that is there is removed. -/
theorem of_deleted (h : Outcome pools request answered pools')
    (hdeleted : deleted? (request, answered) = some pool) :
    (pools.registry.get? pool).isSome := by
  cases h with
  | deleted hbooks =>
    obtain rfl := Option.some.inj hdeleted
    rw [hbooks, Option.isSome_some]
  | refused => cases request <;> cases hdeleted
  | _ => cases hdeleted

/-! ### Waiting threads -/

/-- Whoever comes is counted, and whoever goes is not. -/
theorem waitingOn (h : Outcome pools request answered pools') (pool : PoolId) :
    pools'.waiters.waitingOn pool + (if goes pool (request, answered) then 1 else 0) =
      pools.waiters.waitingOn pool + if comes pool (request, answered) then 1 else 0 := by
  cases h with
  | created | deleted | nobody | absent => simp [goes, comes]
  | served => simp [goes, comes, put]
  | waits thread rank other =>
    rw [Waiters.waitingOn, LevelQueue.count_push]
    simp [goes, comes, Waiters.waitingOn]
  | woken hmem =>
    have hcount := LevelQueue.count_erase (fun entry => entry.2 == pool) hmem
    simpa [goes, comes, Waiters.waitingOn] using hcount
  | left hmem =>
    have hcount := LevelQueue.count_erase (fun entry => entry.2 == pool) hmem
    simpa [goes, comes, Waiters.waitingOn] using hcount
  | refused => cases request <;> simp [goes, comes]

/-! ### Pools that are left alone -/

/-- Who waits for a pool stays in place when a request is about another one. -/
theorem waiting (h : Outcome pools request answered pools')
    (hother : subject? (request, answered) ≠ some pool) (p : Priority) :
    (pools'.waiters.level p).filter (·.2 = pool) =
      (pools.waiters.level p).filter (·.2 = pool) := by
  cases h with
  | created | deleted | served | nobody | absent | refused => rfl
  | waits =>
    apply LevelQueue.filter_level_push
    exact decide_eq_false fun heq => hother (congrArg some heq)
  | woken | left =>
    apply LevelQueue.filter_level_erase
    exact decide_eq_false fun heq => hother (congrArg some heq)

end Outcome

theorem outcome_of_error {error : PoolError} (h : pools.attempt request = .error error) :
    Outcome pools request (pools.answer request) (pools.after request) := by
  rw [answer, after, h]
  exact .refused request error

theorem outcome_of_ok {answer : Answer} (h : pools.attempt request = .ok (answer, pools'))
    (houtcome : Outcome pools request (.ok answer) pools') :
    Outcome pools request (pools.answer request) (pools.after request) := by
  rw [Pools.answer, after, h]
  exact houtcome

/-- A request comes to one of the outcomes. -/
theorem outcome (pools : Pools) (request : Request) :
    Outcome pools request (pools.answer request) (pools.after request) := by
  cases request with
  | create base size =>
    cases hcreate : pools.create base size with
    | error error => exact outcome_of_error (by rw [attempt, hcreate]; rfl)
    | ok result =>
      obtain ⟨pool, rest⟩ := result
      obtain ⟨books, hnew, rfl, rfl⟩ := create_eq_ok hcreate
      exact outcome_of_ok (by rw [attempt, hcreate]; rfl) (.created hnew)
  | delete pool =>
    cases hdelete : pools.delete pool with
    | error error => exact outcome_of_error (by rw [attempt, hdelete]; rfl)
    | ok rest =>
      obtain ⟨books, hbooks, -, -, rfl⟩ := delete_eq_ok hdelete
      exact outcome_of_ok (by rw [attempt, hdelete]; rfl) (.deleted hbooks)
  | serve pool request =>
    cases request with
    | allocate size =>
      cases hallocate : pools.allocate pool size with
      | error error => exact outcome_of_error (by rw [attempt, hallocate]; rfl)
      | ok result =>
        obtain ⟨address, rest⟩ := result
        obtain ⟨books, books', hbooks, hanswer, rfl⟩ := allocate_eq_ok hallocate
        exact outcome_of_ok (by rw [attempt, hallocate]; rfl) (.served hbooks hanswer)
    | deallocate address =>
      cases hdeallocate : pools.deallocate pool address with
      | error error => exact outcome_of_error (by rw [attempt, hdeallocate]; rfl)
      | ok result =>
        obtain ⟨bytes, rest⟩ := result
        obtain ⟨books, books', hbooks, hanswer, rfl⟩ := deallocate_eq_ok hdeallocate
        exact outcome_of_ok (by rw [attempt, hdeallocate]; rfl) (.served hbooks hanswer)
  | wait thread rank pool => exact .waits thread rank pool
  | wakeNext pool =>
    cases hnext : pools.waiters.nextFor? pool with
    | none =>
      exact outcome_of_ok (by rw [attempt, wakeNext_eq_none hnext]) (.nobody pool)
    | some served =>
      obtain ⟨thread, rest⟩ := served
      obtain ⟨p, hmem, rfl, -⟩ := Waiters.nextFor?_erase hnext
      exact outcome_of_ok (by rw [attempt, wakeNext_eq_some hnext]) (.woken hmem)
  | cancelWait thread =>
    cases hremove : pools.waiters.remove? thread with
    | none =>
      exact outcome_of_ok (by rw [attempt, cancelWait, hremove]) (.absent thread)
    | some removed =>
      obtain ⟨pool, rest⟩ := removed
      obtain ⟨p, hmem, rfl⟩ := Waiters.remove?_erase hremove
      exact outcome_of_ok (by rw [attempt, cancelWait, hremove]) (.left hmem)

/-! ## Pools that are left alone -/

/-- A pool is as it was before, and so are the threads that wait for it. -/
structure Spared (pools pools' : Pools) (pool : PoolId) : Prop where
  books : pools'.get pool = pools.get pool
  stats : pools'.stats pool = pools.stats pool
  waiting : ∀ p, (pools'.waiters.level p).filter (·.2 = pool) =
    (pools.waiters.level p).filter (·.2 = pool)

theorem Spared.trans {pools'' : Pools} (h : Spared pools pools' pool)
    (h' : Spared pools' pools'' pool) : Spared pools pools'' pool where
  books := h'.books.trans h.books
  stats := h'.stats.trans h.stats
  waiting := fun p => (h'.waiting p).trans (h.waiting p)

theorem Orderly.after (h : pools.Orderly) (request : Request) : (pools.after request).Orderly :=
  (outcome pools request).orderly h

/-- A request that is about another pool leaves a pool alone. -/
theorem Orderly.spared (h : pools.Orderly)
    (hother : subject? (request, pools.answer request) ≠ some pool) :
    Spared pools (pools.after request) pool := by
  -- The books change as the entries of this pool say, and this is not one of them.
  have hrecord := (outcome pools request).record h pool
  rw [record, if_neg hother] at hrecord
  have hbooks : (pools.after request).get pool = pools.get pool := by rw [get, get, hrecord]
  exact ⟨hbooks, by rw [stats, stats, hbooks], (outcome pools request).waiting hother⟩

/-- Any number of requests about other pools leave a pool alone. -/
theorem Orderly.spared_afterAll (h : pools.Orderly)
    (hothers : ∀ entry ∈ pools.history requests, subject? entry ≠ some pool) :
    Spared pools (pools.afterAll requests) pool := by
  induction requests generalizing pools with
  | nil => exact ⟨rfl, rfl, fun _ => rfl⟩
  | cons request rest ih =>
    rw [history, List.forall_mem_cons] at hothers
    exact (h.spared hothers.1).trans (ih (h.after request) hothers.2)

/-! ## After any requests -/

/-- The pools are what the history says. -/
structure Faithful (alignment : Nat) (entries : List Entry) (pools : Pools) : Prop where
  orderly : pools.Orderly
  granularity : pools.alignment = alignment
  next : pools.registry.next = (created entries).length + 1
  numbered : (created entries).map Handle.number = List.range' 1 (created entries).length
  stands : ∀ pool, (pools.registry.get? pool).isSome ↔
    pool ∈ created entries ∧ pool ∉ deleted entries
  deleted : ∀ pool ∈ deleted entries, pool ∈ created entries
  books : ∀ pool, pools.registry.get? pool = account alignment pool entries
  waiting : ∀ pool, entries.countP (comes pool) =
    entries.countP (goes pool) + pools.waiters.waitingOn pool

theorem created_concat (entries : List Entry) (entry : Entry) :
    created (entries ++ [entry]) = created entries ++ (created? entry).toList := by
  rw [created, List.filterMap_append, created]
  cases hcreated : created? entry <;> simp [hcreated]

theorem mem_deleted_concat {entry : Entry} :
    pool ∈ deleted (entries ++ [entry]) ↔ pool ∈ deleted entries ∨ deleted? entry = some pool := by
  simp [deleted]

namespace Faithful

variable {alignment : Nat}

theorem new : Faithful alignment [] { alignment } where
  orderly := ⟨Registry.ordered_empty, fun hbooks => by cases hbooks⟩
  granularity := rfl
  next := rfl
  numbered := rfl
  stands := fun pool => by simp [created, Registry.get?]
  deleted := fun pool hmem => by cases hmem
  books := fun pool => rfl
  waiting := fun pool => rfl

/-- Numbers that are to be given out have not been given out. -/
theorem fresh (h : Faithful alignment entries pools) :
    pools.registry.nextHandle ∉ created entries := by
  intro hmem
  have hnumber := List.mem_map_of_mem (f := Handle.number) hmem
  rw [h.numbered, List.mem_range'_1, Registry.nextHandle, h.next, Nat.add_comm] at hnumber
  exact Nat.lt_irrefl _ hnumber.2

/-- One more request keeps the pools what the history says. -/
theorem step (h : Faithful alignment entries pools)
    (houtcome : Outcome pools request answered pools') :
    Faithful alignment (entries ++ [(request, answered)]) pools' where
  orderly := houtcome.orderly h.orderly
  granularity := houtcome.alignment.trans h.granularity
  next := by
    rw [houtcome.next, h.next, created_concat, List.length_append]
    omega
  numbered := by
    rw [created_concat]
    cases hcreated : created? (request, answered) with
    | none => simpa using h.numbered
    | some pool =>
      rw [houtcome.number_created hcreated, Option.toList_some, List.map_append, h.numbered,
        List.length_append, List.length_singleton, List.range'_concat, List.map_singleton,
        Registry.nextHandle, h.next]
      simp [Nat.add_comm]
  stands := by
    intro pool
    rw [houtcome.stands h.orderly, h.stands, created_concat, mem_deleted_concat, List.mem_append,
      Option.mem_toList]
    -- A number that is given out now was not given out before, so no pool with it was removed.
    have hnew : created? (request, answered) = some pool → pool ∉ Pools.deleted entries := by
      intro hcreated hdeleted
      obtain rfl := houtcome.number_created hcreated
      exact h.fresh (h.deleted _ hdeleted)
    tauto
  deleted := by
    intro pool hmem
    rw [created_concat, List.mem_append]
    rcases mem_deleted_concat.mp hmem with hbefore | hnow
    · exact .inl (h.deleted pool hbefore)
    · exact .inl ((h.stands pool).mp (houtcome.of_deleted hnow)).1
  books := by
    intro pool
    rw [houtcome.record h.orderly, h.granularity, h.books, account, account, List.foldl_concat]
  waiting := by
    intro pool
    have hbefore := h.waiting pool
    have hnow := houtcome.waitingOn pool
    simp only [List.countP_append, List.countP_singleton]
    omega

end Faithful

/-- After any requests the pools are what the history says. -/
theorem faithful_afterAll (alignment : Nat) (requests : List Request) :
    Faithful alignment (({ alignment } : Pools).history requests)
      (({ alignment } : Pools).afterAll requests) := by
  induction requests using List.reverseRecOn with
  | nil => exact .new
  | append_singleton requests request ih =>
    rw [history_concat, afterAll_concat]
    exact ih.step (outcome _ request)

/-- How the removal of a pool is to be answered, if these are its books and so many threads wait for
it. -/
def verdict (pool : PoolId) (books? : Option Pool) (waiting : Nat) : Except PoolError Answer :=
  match books? with
  | none => .error (.unknownPool pool)
  | some books =>
    if waiting ≠ 0 then .error (.hasWaiters pool waiting)
    else if books.live ≠ [] then .error (.inUse pool (Segment.total books.live))
    else .ok .deleted

theorem Orderly.answer_delete (h : pools.Orderly) (pool : PoolId) :
    pools.answer (.delete pool) =
      verdict pool (pools.registry.get? pool) (pools.waiters.waitingOn pool) := by
  rw [answer, attempt]
  cases hbooks : pools.registry.get? pool with
  | none =>
    rw [delete_unknown hbooks]
    rfl
  | some books =>
    rw [delete_eq_of_perm hbooks (h.tiled hbooks) (.refl _)]
    simp only [verdict, Nat.pos_iff_ne_zero]
    split
    · rfl
    · split <;> rfl

theorem answer_create (pools : Pools) (hpow : isPowerOfTwo pools.alignment) (base size : Nat) :
    pools.answer (.create base size) =
      if base = 0 ∨ size = 0 ∨ addressSpace ≤ base + size then .error (.invalidRegion base size)
      else .ok (.created pools.registry.nextHandle) := by
  rw [answer, attempt, create, Pool.new, hpow]
  simp only [Bool.not_true, Bool.false_eq_true, if_false]
  split <;> rfl

theorem after_of_error {error : PoolError} (h : pools.answer request = .error error) :
    pools.after request = pools := by
  rw [answer] at h
  rw [after]
  cases hattempt : pools.attempt request with
  | error => rfl
  | ok result =>
    rw [hattempt] at h
    cases h

/-- What is promised of pools after requests. -/
structure Apart (pools : Pools) (requests : List Request) : Prop where
  /-- The numbers that were given out are 1, 2, 3 and so on, whatever was removed in between. -/
  numbered : (created (pools.history requests)).map Handle.number =
    List.range' 1 (created (pools.history requests)).length
  /-- A pool is there if it was created, until it is removed, and then never again. -/
  stands : ∀ pool, (∃ books, (pools.afterAll requests).get pool = .ok books) ↔
    pool ∈ created (pools.history requests) ∧ pool ∉ deleted (pools.history requests)
  /-- The books of a pool are those that its own part of the history leads to. -/
  books : ∀ pool, (pools.afterAll requests).registry.get? pool =
    account pools.alignment pool (pools.history requests)
  /-- As many threads wait for a pool as came and did not go. -/
  waiting : ∀ pool, (pools.history requests).countP (comes pool) =
    (pools.history requests).countP (goes pool) +
      (pools.afterAll requests).waiters.waitingOn pool
  /-- Only the region decides whether another pool can be created. -/
  creation : ∀ base size, (pools.afterAll requests).answer (.create base size) =
    if base = 0 ∨ size = 0 ∨ addressSpace ≤ base + size then .error (.invalidRegion base size)
    else .ok (.created ⟨(created (pools.history requests)).length + 1⟩)
  /-- A pool is kept for the threads that wait for it, and after that for what is live in it. -/
  deletion : ∀ pool, (pools.afterAll requests).answer (.delete pool) =
    verdict pool ((pools.afterAll requests).registry.get? pool)
      ((pools.afterAll requests).waiters.waitingOn pool)
  /-- Nothing comes of a request that is refused. -/
  refused : ∀ request error, (pools.afterAll requests).answer request = .error error →
    (pools.afterAll requests).after request = pools.afterAll requests
  /-- Nothing comes to a pool of any requests about others. -/
  spared : ∀ pool later,
    (∀ entry ∈ (pools.afterAll requests).history later, subject? entry ≠ some pool) →
    Spared (pools.afterAll requests) ((pools.afterAll requests).afterAll later) pool

/-- Pools of any granularity that is allowed are kept apart. -/
theorem apart_of_isPowerOfTwo {alignment : Nat} (h : isPowerOfTwo alignment) :
    ∃ pools, Pools.new alignment = .ok pools ∧ ∀ requests, pools.Apart requests := by
  refine ⟨{ alignment }, if_pos h, fun requests => ?_⟩
  have hfaithful := faithful_afterAll alignment requests
  refine ⟨hfaithful.numbered, fun pool => ?_, hfaithful.books, hfaithful.waiting,
    fun base size => ?_, hfaithful.orderly.answer_delete, fun _ _ => after_of_error,
    fun _ _ => hfaithful.orderly.spared_afterAll⟩
  · rw [← hfaithful.stands, Option.isSome_iff_exists]
    refine exists_congr fun books => ?_
    rw [get]
    split <;> simp_all
  · rw [answer_create _ (hfaithful.granularity.symm ▸ h), Registry.nextHandle, hfaithful.next]

/-- Of two pools the first is kept for two threads that wait for it, then for what is live in it. It
is removed in the end, and its number is not given out again. -/
theorem apart_two : isPowerOfTwo 64 = true ∧ ∃ pools, Pools.new 64 = .ok pools ∧
    (pools.history [.create 4096 1000, .create 8192 500, .serve ⟨1⟩ (.allocate 100),
      .wait ⟨1⟩ 2 ⟨1⟩, .wait ⟨2⟩ 9 ⟨1⟩, .wait ⟨3⟩ 0 ⟨2⟩, .delete ⟨1⟩, .wakeNext ⟨1⟩,
      .cancelWait ⟨1⟩, .delete ⟨1⟩, .serve ⟨1⟩ (.deallocate 4096), .create 0 10, .delete ⟨1⟩,
      .delete ⟨1⟩, .create 4096 1000]).map Prod.snd =
    [.ok (.created ⟨1⟩), .ok (.created ⟨2⟩), .ok (.served 4096), .ok .waits, .ok .waits,
      .ok .waits, .error (.hasWaiters ⟨1⟩ 2), .ok (.woken (some ⟨2⟩)), .ok (.left (some ⟨1⟩)),
      .error (.inUse ⟨1⟩ 128), .ok (.served 128), .error (.invalidRegion 0 10), .ok .deleted,
      .error (.unknownPool ⟨1⟩), .ok (.created ⟨3⟩)] ∧
    ∀ requests, pools.Apart requests := by
  obtain ⟨pools, hnew, hapart⟩ := apart_of_isPowerOfTwo (show isPowerOfTwo 64 from rfl)
  obtain rfl := Except.ok.inj ((show Pools.new 64 = .ok _ from rfl).symm.trans hnew)
  exact ⟨rfl, _, rfl, by decide +kernel, hapart⟩

end CoopKernel.Memory.Pools
