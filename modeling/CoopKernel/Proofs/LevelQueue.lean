import Mathlib.Data.List.Nodup
import Mathlib.Tactic.Common
import CoopKernel.LevelQueue

/-!
# Laws of level queues

A level queue is described level by level: what an operation does is said by what it leaves at each
level. Serving (`takeHighest?`) and unlinking (`takeLowest?`) are two searches that end in the same
way, with one element gone from one level, so both are stated through `LevelQueue.erase`.

* `takeHighest?_eq_some` — a search from the top ends at a level above which no element passes;
* `takeLowest?_of_only` — if only one level has passing elements, the direction does not matter;
* `level_erase` — erasing an element leaves every other level as it is.
-/

namespace CoopKernel

namespace Priority

theorem le_iff_rank_le {p q : Priority} : p ≤ q ↔ p.rank ≤ q.rank := Iff.rfl

theorem lt_iff_rank_lt {p q : Priority} : p < q ↔ p.rank < q.rank := Iff.rfl

theorem not_lt {p q : Priority} : ¬ p < q ↔ q ≤ p := by
  rw [lt_iff_rank_lt, le_iff_rank_le, Nat.not_lt]

/-- Ranks past the highest level count as the highest. -/
theorem rank_ofRank (rank : Nat) : (ofRank rank).rank = min rank 3 := by
  match rank with
  | 0 | 1 | 2 => rfl
  | n + 3 => exact (Nat.min_eq_right (Nat.le_add_left 3 n)).symm

/-- Only the lowest level is at most the lowest level. -/
theorem le_idle_iff {p : Priority} : p ≤ .idle ↔ p = .idle := by
  cases p <;> simp [le_iff_rank_le, rank]

end Priority

namespace LevelQueue

variable {α : Type}

/-! ## Levels -/

/-- A queue is determined by its levels. -/
theorem ext_level {q r : LevelQueue α} (h : ∀ p, q.level p = r.level p) : q = r := by
  cases q
  cases r
  have hidle := h .idle
  have hlow := h .low
  have hnormal := h .normal
  have hhigh := h .high
  simp only [level] at hidle hlow hnormal hhigh
  rw [hidle, hlow, hnormal, hhigh]

@[simp] theorem level_empty (p : Priority) : ({} : LevelQueue α).level p = [] := by
  cases p <;> rfl

theorem level_setLevel (q : LevelQueue α) (p p' : Priority) (elements : List α) :
    (q.setLevel p elements).level p' = if p' = p then elements else q.level p' := by
  split
  · next h => rw [h, level_setLevel_self]
  · next h => exact level_setLevel_of_ne h

@[simp] theorem setLevel_level (q : LevelQueue α) (p : Priority) :
    q.setLevel p (q.level p) = q := by
  apply ext_level
  intro p'
  rw [level_setLevel]
  split
  · next h => rw [h]
  · rfl

theorem level_push (q : LevelQueue α) (p p' : Priority) (element : α) :
    (q.push p element).level p' = if p' = p then q.level p ++ [element] else q.level p' := by
  rw [push, level_setLevel]

/-- What is pushed comes last at its level. -/
theorem level_push_append (q : LevelQueue α) (p p' : Priority) (element : α) :
    (q.push p element).level p' = q.level p' ++ if p = p' then [element] else [] := by
  rw [level_push]
  by_cases hp : p' = p
  · rw [if_pos hp, if_pos hp.symm, hp]
  · rw [if_neg hp, if_neg (Ne.symm hp), List.append_nil]

/-- What is pushed does not show among the elements of another kind. -/
theorem filter_level_push {q : LevelQueue α} {test : α → Bool} {p : Priority} {element : α}
    (h : test element = false) (p' : Priority) :
    ((q.push p element).level p').filter test = (q.level p').filter test := by
  rw [level_push_append, List.filter_append]
  split <;> simp [h]

theorem mem_level_push {q : LevelQueue α} {p p' : Priority} {element other : α} :
    other ∈ (q.push p element).level p' ↔
      other ∈ q.level p' ∨ (p' = p ∧ other = element) := by
  rw [level_push]
  split
  · next h => simp [h]
  · next h => simp [h]

theorem mem_toList {q : LevelQueue α} {element : α} :
    element ∈ q.toList ↔ ∃ p, element ∈ q.level p := by
  rw [toList, List.mem_flatMap]
  constructor
  · rintro ⟨p, _, h⟩
    exact ⟨p, h⟩
  · rintro ⟨p, h⟩
    exact ⟨p, by cases p <;> simp [Priority.ascending], h⟩

theorem count_setLevel (q : LevelQueue α) (test : α → Bool) (p : Priority) (elements : List α) :
    (q.setLevel p elements).count test + (q.level p).countP test =
      q.count test + elements.countP test := by
  cases p <;>
  · simp only [count, toList, Priority.ascending, List.flatMap_cons, List.flatMap_nil,
      List.countP_append, List.countP_nil, setLevel, level]
    omega

theorem count_push (q : LevelQueue α) (test : α → Bool) (p : Priority) (element : α) :
    (q.push p element).count test = q.count test + if test element then 1 else 0 := by
  have hcount := count_setLevel q test p (q.level p ++ [element])
  rw [List.countP_append, List.countP_singleton] at hcount
  rw [push]
  omega

theorem nodup_level_push {q : LevelQueue α} {p p' : Priority} {element : α}
    (hnodup : (q.level p').Nodup) (hnew : element ∉ q.level p) :
    ((q.push p element).level p').Nodup := by
  rw [level_push]
  split
  · next h =>
    subst h
    exact hnodup.append (List.nodup_singleton element) (List.disjoint_singleton.mpr hnew)
  · exact hnodup

/-! ## Searches -/

theorem takeFrom?_eq_some {q r : LevelQueue α} {test : α → Bool} {p : Priority} {element : α} :
    q.takeFrom? test p = some (element, r) ↔
      (q.level p).find? test = some element ∧
        r = q.setLevel p ((q.level p).eraseP test) := by
  rw [takeFrom?, Option.map_eq_some_iff]
  constructor
  · rintro ⟨found, hfound, h⟩
    obtain ⟨rfl, rfl⟩ := Prod.ext_iff.mp h
    exact ⟨hfound, rfl⟩
  · rintro ⟨hfound, rfl⟩
    exact ⟨element, hfound, rfl⟩

theorem takeFrom?_eq_none {q : LevelQueue α} {test : α → Bool} {p : Priority} :
    q.takeFrom? test p = none ↔ ∀ element ∈ q.level p, test element = false := by
  rw [takeFrom?, Option.map_eq_none_iff, List.find?_eq_none]
  simp only [Bool.not_eq_true]

theorem takeHighest?_eq_none {q : LevelQueue α} {test : α → Bool} :
    q.takeHighest? test = none ↔ ∀ p, ∀ element ∈ q.level p, test element = false := by
  rw [takeHighest?, List.findSome?_eq_none_iff]
  simp only [takeFrom?_eq_none]
  constructor
  · intro h p
    exact h p (by cases p <;> simp [Priority.descending])
  · intro h p _
    exact h p

theorem takeLowest?_eq_none {q : LevelQueue α} {test : α → Bool} :
    q.takeLowest? test = none ↔ ∀ p, ∀ element ∈ q.level p, test element = false := by
  rw [takeLowest?, List.findSome?_eq_none_iff]
  simp only [takeFrom?_eq_none]
  constructor
  · intro h p
    exact h p (by cases p <;> simp [Priority.ascending])
  · intro h p _
    exact h p

/-- Serving takes the first passing element of a level above which no element passes. -/
theorem takeHighest?_eq_some {q r : LevelQueue α} {test : α → Bool} {element : α}
    (h : q.takeHighest? test = some (element, r)) :
    ∃ p, (q.level p).find? test = some element ∧
      r = q.setLevel p ((q.level p).eraseP test) ∧
      ∀ p', p < p' → ∀ other ∈ q.level p', test other = false := by
  rw [takeHighest?, List.findSome?_eq_some_iff] at h
  obtain ⟨before, p, after, hsplit, htaken, hnone⟩ := h
  obtain ⟨hfound, hr⟩ := takeFrom?_eq_some.mp htaken
  refine ⟨p, hfound, hr, ?_⟩
  intro p' hlt
  apply takeFrom?_eq_none.mp
  apply hnone
  -- The levels are searched in descending order, so the higher ones stand before `p`.
  have hdescending : Priority.descending.Pairwise fun a b => b < a := by decide
  rw [hsplit, List.pairwise_append] at hdescending
  have hmem : p' ∈ before ++ p :: after := hsplit ▸ by cases p' <;> simp [Priority.descending]
  rcases List.mem_append.mp hmem with hbefore | hrest
  · exact hbefore
  · rcases List.mem_cons.mp hrest with rfl | hafter
    · exact absurd hlt (Nat.lt_irrefl _)
    · have hgt : p' < p := List.rel_of_pairwise_cons hdescending.2.1 hafter
      exact absurd (Nat.lt_trans hlt hgt) (Nat.lt_irrefl _)

/-- Unlinking takes the first passing element of some level. -/
theorem takeLowest?_eq_some {q r : LevelQueue α} {test : α → Bool} {element : α}
    (h : q.takeLowest? test = some (element, r)) :
    ∃ p, (q.level p).find? test = some element ∧
      r = q.setLevel p ((q.level p).eraseP test) := by
  rw [takeLowest?, List.findSome?_eq_some_iff] at h
  obtain ⟨-, p, -, -, htaken, -⟩ := h
  exact ⟨p, takeFrom?_eq_some.mp htaken⟩

/-- If only one level has passing elements, unlinking takes the first of them. -/
theorem takeLowest?_of_only {q : LevelQueue α} {test : α → Bool} {p : Priority} {element : α}
    (hfound : (q.level p).find? test = some element)
    (honly : ∀ p', p' ≠ p → ∀ other ∈ q.level p', test other = false) :
    q.takeLowest? test = some (element, q.setLevel p ((q.level p).eraseP test)) := by
  have htaken : q.takeFrom? test p = some (element, q.setLevel p ((q.level p).eraseP test)) :=
    takeFrom?_eq_some.mpr ⟨hfound, rfl⟩
  have hnone : ∀ p', p' ≠ p → q.takeFrom? test p' = none := fun p' hne =>
    takeFrom?_eq_none.mpr (honly p' hne)
  rw [takeLowest?]
  cases p <;> simp [Priority.ascending, htaken, hnone]

theorem exists_takeHighest?_true {q : LevelQueue α} {p : Priority} {element : α}
    (h : element ∈ q.level p) : ∃ taken, q.takeHighest? (fun _ => true) = some taken := by
  rw [← Option.isSome_iff_exists, Option.isSome_iff_ne_none]
  intro hnone
  exact absurd (takeHighest?_eq_none.mp hnone p element h) (by simp)

/-! ## Erasing an element -/

variable [DecidableEq α]

/-- Takes the first occurrence of an element out of a level. -/
def erase (q : LevelQueue α) (p : Priority) (element : α) : LevelQueue α :=
  q.setLevel p ((q.level p).erase element)

theorem level_erase (q : LevelQueue α) (p p' : Priority) (element : α) :
    (q.erase p element).level p' = if p' = p then (q.level p).erase element else q.level p' := by
  rw [erase, level_setLevel]

theorem sublist_level_erase (q : LevelQueue α) (p p' : Priority) (element : α) :
    ((q.erase p element).level p').Sublist (q.level p') := by
  rw [level_erase]
  split
  · next h => exact h ▸ List.erase_sublist
  · exact List.Sublist.refl _

/-- What is erased is not missed among the elements of another kind. -/
theorem filter_level_erase {q : LevelQueue α} {test : α → Bool} {p : Priority} {element : α}
    (h : test element = false) (p' : Priority) :
    ((q.erase p element).level p').filter test = (q.level p').filter test := by
  rw [level_erase]
  split
  · next heq =>
    rw [heq, ← List.erase_filter, List.erase_of_not_mem fun hmem => ?_]
    rw [List.of_mem_filter hmem] at h
    cases h
  · rfl

theorem erase_of_not_mem {q : LevelQueue α} {p : Priority} {element : α}
    (h : element ∉ q.level p) : q.erase p element = q := by
  rw [erase, List.erase_of_not_mem h, setLevel_level]

/-- Erasing an element that stands at no other level takes it out of the queue. -/
theorem mem_level_erase {q : LevelQueue α} {p p' : Priority} {element other : α}
    (hnodup : (q.level p).Nodup) (honly : element ∈ q.level p' → p' = p) :
    other ∈ (q.erase p element).level p' ↔ other ∈ q.level p' ∧ other ≠ element := by
  rw [level_erase]
  split
  · next h => rw [h, hnodup.mem_erase_iff, and_comm]
  · next h =>
    constructor
    · intro hmem
      refine ⟨hmem, ?_⟩
      rintro rfl
      exact h (honly hmem)
    · exact And.left

theorem nodup_level_erase {q : LevelQueue α} {p p' : Priority} {element : α}
    (hnodup : (q.level p').Nodup) : ((q.erase p element).level p').Nodup := by
  rw [level_erase]
  split
  · next h => exact h ▸ hnodup.erase element
  · exact hnodup

theorem count_erase {q : LevelQueue α} (test : α → Bool) {p : Priority} {element : α}
    (hmem : element ∈ q.level p) :
    (q.erase p element).count test + (if test element then 1 else 0) = q.count test := by
  have hcount := count_setLevel q test p ((q.level p).erase element)
  rw [(List.perm_cons_erase hmem).countP_eq, List.countP_cons] at hcount
  rw [erase]
  omega

/-- Unlinking an element that stands at one level only. -/
theorem takeLowest?_beq {q : LevelQueue α} {p : Priority} {element : α}
    (hmem : element ∈ q.level p) (honly : ∀ p', element ∈ q.level p' → p' = p) :
    q.takeLowest? (· == element) = some (element, q.erase p element) := by
  have hfound : (q.level p).find? (· == element) = some element := by
    have hsome : ((q.level p).find? (· == element)).isSome :=
      List.find?_isSome.mpr ⟨element, hmem, beq_self_eq_true element⟩
    obtain ⟨found, hfound⟩ := Option.isSome_iff_exists.mp hsome
    rw [hfound, eq_of_beq (List.find?_some (p := (· == element)) hfound)]
  have heraseP : (q.level p).eraseP (· == element) = (q.level p).erase element := by
    rw [List.erase_eq_eraseP]
    congr 1
    funext other
    exact BEq.comm
  rw [takeLowest?_of_only hfound, heraseP, erase]
  intro p' hne other hother
  rw [beq_eq_false_iff_ne]
  rintro rfl
  exact hne (honly p' hother)

theorem takeLowest?_beq_eq_none {q : LevelQueue α} {element : α}
    (h : ∀ p, element ∉ q.level p) : q.takeLowest? (· == element) = none := by
  rw [takeLowest?_eq_none]
  intro p other hother
  rw [beq_eq_false_iff_ne]
  rintro rfl
  exact h p hother

/-- The first element that passes a test is not preceded by itself. -/
theorem eraseP_eq_erase {elements : List α} {test : α → Bool} {element : α}
    (h : elements.find? test = some element) : elements.eraseP test = elements.erase element := by
  induction elements with
  | nil => simp at h
  | cons first rest ih =>
    rw [List.find?_cons] at h
    cases hfirst : test first with
    | true =>
      rw [hfirst] at h
      obtain rfl : first = element := Option.some.inj h
      rw [List.eraseP_cons_of_pos hfirst, List.erase_cons_head]
    | false =>
      rw [hfirst] at h
      have hne : first ≠ element := by
        rintro rfl
        have htrue := List.find?_some h
        rw [hfirst] at htrue
        exact Bool.false_ne_true htrue
      rw [List.eraseP_cons_of_neg (by simp [hfirst]), ih h,
        List.erase_cons_tail (by simpa using hne)]

/-- Whatever is served is erased from its level, and nothing above that level passes. -/
theorem takeHighest?_erase {q r : LevelQueue α} {test : α → Bool} {element : α}
    (h : q.takeHighest? test = some (element, r)) :
    ∃ p, element ∈ q.level p ∧ test element = true ∧ r = q.erase p element ∧
      ∀ p', p < p' → ∀ other ∈ q.level p', test other = false := by
  obtain ⟨p, hfound, rfl, habove⟩ := takeHighest?_eq_some h
  refine ⟨p, List.mem_of_find?_eq_some hfound, List.find?_some hfound, ?_, habove⟩
  rw [erase, eraseP_eq_erase hfound]

/-- Whatever is unlinked is erased from its level. -/
theorem takeLowest?_erase {q r : LevelQueue α} {test : α → Bool} {element : α}
    (h : q.takeLowest? test = some (element, r)) :
    ∃ p, element ∈ q.level p ∧ test element = true ∧ r = q.erase p element := by
  obtain ⟨p, hfound, rfl⟩ := takeLowest?_eq_some h
  refine ⟨p, List.mem_of_find?_eq_some hfound, List.find?_some hfound, ?_⟩
  rw [erase, eraseP_eq_erase hfound]

/-- Serving takes the first element of the highest level that is not empty. -/
theorem takeHighest?_true {q r : LevelQueue α} {element : α}
    (h : q.takeHighest? (fun _ => true) = some (element, r)) :
    ∃ p rest, q.level p = element :: rest ∧ r = q.erase p element ∧
      ∀ p', p < p' → q.level p' = [] := by
  obtain ⟨p, hfound, rfl, habove⟩ := takeHighest?_eq_some h
  cases hlevel : q.level p with
  | nil => rw [hlevel] at hfound; simp at hfound
  | cons first rest =>
    rw [hlevel] at hfound
    obtain rfl : first = element := by simpa using hfound
    refine ⟨p, rest, hlevel, by simp [erase, hlevel], ?_⟩
    intro p' hlt
    rw [List.eq_nil_iff_forall_not_mem]
    intro other hother
    exact absurd (habove p' hlt other hother) (by simp)

end LevelQueue

end CoopKernel
