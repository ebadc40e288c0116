import Mathlib.Data.List.Nodup
import Mathlib.Tactic.Common
import CoopKernel.Registry

/-!
# Ordered registries

In an ordered registry the handles ascend and are below the next number. Every operation keeps the
order, and in an ordered registry a handle stands for at most one object, so the entries are
described by look-ups alone (`mem_entries_iff`).
-/

namespace CoopKernel.Registry

variable {sort : ObjectSort} {α : Type}

/-- The handles ascend, and those to come are greater. -/
structure Ordered (registry : Registry sort α) : Prop where
  ascending : registry.entries.Pairwise fun a b => a.1.number < b.1.number
  bounded : ∀ entry ∈ registry.entries, entry.1.number < registry.next

theorem ordered_empty : ({} : Registry sort α).Ordered where
  ascending := List.Pairwise.nil
  bounded := by simp

/-! ## Look-ups -/

theorem mem_entries_of_get? {registry : Registry sort α} {handle : Handle sort} {object : α}
    (h : registry.get? handle = some object) : (handle, object) ∈ registry.entries := by
  rw [get?] at h
  generalize registry.entries = entries at h ⊢
  induction entries with
  | nil => simp at h
  | cons entry rest ih =>
    rw [List.lookup_cons] at h
    by_cases heq : handle = entry.1
    · subst heq
      simp only [beq_self_eq_true, Option.some.injEq] at h
      subst h
      exact List.mem_cons_self
    · rw [beq_eq_false_iff_ne.mpr heq] at h
      exact List.mem_cons_of_mem _ (ih h)

/-- In an ordered registry the entries are what look-ups find. -/
theorem mem_entries_iff {registry : Registry sort α} (ho : registry.Ordered)
    {handle : Handle sort} {object : α} :
    (handle, object) ∈ registry.entries ↔ registry.get? handle = some object := by
  refine ⟨fun h => ?_, mem_entries_of_get?⟩
  have hascending := ho.ascending
  rw [get?]
  generalize registry.entries = entries at h hascending ⊢
  induction entries with
  | nil => simp at h
  | cons entry rest ih =>
    obtain ⟨hfirst, hrest⟩ := List.pairwise_cons.mp hascending
    rw [List.lookup_cons]
    rcases List.mem_cons.mp h with rfl | hmem
    · rw [beq_self_eq_true]
    · have hne : handle ≠ entry.1 := by
        rintro rfl
        exact absurd (hfirst _ hmem) (Nat.lt_irrefl _)
      rw [beq_eq_false_iff_ne.mpr hne]
      exact ih hmem hrest

theorem number_lt_next {registry : Registry sort α} (ho : registry.Ordered)
    {handle : Handle sort} {object : α} (h : registry.get? handle = some object) :
    handle.number < registry.next :=
  ho.bounded _ (mem_entries_of_get? h)

theorem get?_nextHandle {registry : Registry sort α} (ho : registry.Ordered) :
    registry.get? registry.nextHandle = none := by
  rw [Option.eq_none_iff_forall_not_mem]
  intro object h
  exact absurd (number_lt_next ho h) (Nat.lt_irrefl _)

/-! ## Look-ups after a change -/

theorem get?_add {registry : Registry sort α} (ho : registry.Ordered) (object : α)
    (handle : Handle sort) :
    (registry.add object).get? handle =
      if handle = registry.nextHandle then some object else registry.get? handle := by
  split
  · next h =>
    subst h
    have hnone : registry.entries.lookup registry.nextHandle = none := get?_nextHandle ho
    rw [get?, add, List.lookup_append, hnone, List.lookup_cons, beq_self_eq_true]
    rfl
  · next h => exact get?_add_of_ne h

theorem get?_erase (registry : Registry sort α) (handle other : Handle sort) :
    (registry.erase handle).get? other = if other = handle then none else registry.get? other := by
  split
  · next h => rw [h, get?_erase_self]
  · next h => exact get?_erase_of_ne h

theorem get?_modify (registry : Registry sort α) (handle other : Handle sort) (change : α → α) :
    (registry.modify handle change).get? other =
      if other = handle then (registry.get? handle).map change else registry.get? other := by
  split
  · next h => rw [h, get?_modify_self]
  · next h => exact get?_modify_of_ne h

/-! ## Keeping the order -/

theorem Ordered.add {registry : Registry sort α} (ho : registry.Ordered) (object : α) :
    (registry.add object).Ordered where
  ascending := by
    rw [Registry.add, List.pairwise_append]
    refine ⟨ho.ascending, List.pairwise_singleton _ _, ?_⟩
    intro entry hentry last hlast
    rw [List.mem_singleton] at hlast
    rw [hlast]
    exact ho.bounded entry hentry
  bounded := by
    intro entry hentry
    rw [Registry.add, List.mem_append, List.mem_singleton] at hentry
    rw [next_add]
    rcases hentry with hold | rfl
    · exact Nat.lt_succ_of_lt (ho.bounded entry hold)
    · exact Nat.lt_succ_self _

theorem Ordered.erase {registry : Registry sort α} (ho : registry.Ordered) (handle : Handle sort) :
    (registry.erase handle).Ordered where
  ascending := ho.ascending.filter _
  bounded := fun entry hentry => ho.bounded entry (List.mem_filter.mp hentry).1

theorem Ordered.modify {registry : Registry sort α} (ho : registry.Ordered) (handle : Handle sort)
    (change : α → α) : (registry.modify handle change).Ordered where
  ascending := by
    rw [Registry.modify, List.pairwise_map]
    refine ho.ascending.imp ?_
    intro a b hlt
    split <;> split <;> exact hlt
  bounded := by
    intro entry hentry
    rw [Registry.modify, List.mem_map] at hentry
    obtain ⟨old, hold, rfl⟩ := hentry
    rw [next_modify]
    split <;> exact ho.bounded old hold

/-! ## Changes that come to the same -/

/-- What a change does to an object that is not there does not matter. -/
theorem modify_congr {registry : Registry sort α} (ho : registry.Ordered) {handle : Handle sort}
    {f g : α → α} (h : ∀ object, registry.get? handle = some object → f object = g object) :
    registry.modify handle f = registry.modify handle g := by
  rw [modify, modify]
  congr 1
  apply List.map_congr_left
  rintro ⟨other, object⟩ hentry
  split
  · next heq =>
    subst heq
    rw [h object ((mem_entries_iff ho).mp hentry)]
  · rfl

theorem modify_modify (registry : Registry sort α) (handle : Handle sort) (f g : α → α) :
    (registry.modify handle f).modify handle g = registry.modify handle (g ∘ f) := by
  simp only [modify, List.map_map]
  congr 1
  apply List.map_congr_left
  intro entry _
  by_cases heq : entry.1 = handle <;> simp [heq]

theorem modify_comm {registry : Registry sort α} {handle other : Handle sort} {f g : α → α}
    (hne : handle ≠ other) :
    (registry.modify handle f).modify other g = (registry.modify other g).modify handle f := by
  simp only [modify, List.map_map]
  congr 1
  apply List.map_congr_left
  intro entry _
  by_cases heq : entry.1 = handle
  · have hother : entry.1 ≠ other := fun h => hne (heq.symm.trans h)
    simp [heq, hne]
  · by_cases hother : entry.1 = other <;> simp [heq, hother, Ne.symm hne]

/-- A change that leaves the object as it is leaves the registry as it is. -/
theorem modify_eq_self {registry : Registry sort α} (ho : registry.Ordered) {handle : Handle sort}
    {f : α → α} (h : ∀ object, registry.get? handle = some object → f object = object) :
    registry.modify handle f = registry := by
  rw [modify_congr ho (g := id) h]
  simp [modify]

end CoopKernel.Registry
