import CoopKernel.Handle

/-!
# Registries

A registry keeps the objects of one sort under their handles. Adding an object gives it the next
number, removing one frees no number, and the entries stand in ascending order of their handles
because each new one is the greatest so far.

Numbers never run out here, while a system keeps a handle in 32 bits. So whatever is said about
handles, here and of the scheduler and the pools, is meant for runs in which fewer than `2 ^ 32`
objects of a sort are made.

## Laws

Looking up after a change is described by one equation per operation: `get?_add_of_ne`,
`get?_erase_self`, `get?_erase_of_ne`, `get?_modify_self` and `get?_modify_of_ne`.
-/

namespace CoopKernel

/-- Objects of one sort under their handles, and the number the next one gets. -/
structure Registry (sort : ObjectSort) (α : Type) where
  entries : List (Handle sort × α) := []
  next : Nat := 1
deriving Repr

namespace Registry

variable {sort : ObjectSort} {α : Type}

/-- The object with a handle, if there is one. -/
def get? (registry : Registry sort α) (handle : Handle sort) : Option α :=
  registry.entries.lookup handle

/-- Whether a handle names an object. -/
def contains (registry : Registry sort α) (handle : Handle sort) : Bool :=
  (registry.get? handle).isSome

/-- The handles in use, in ascending order. -/
def handles (registry : Registry sort α) : List (Handle sort) := registry.entries.map Prod.fst

/-- The number of objects. -/
def size (registry : Registry sort α) : Nat := registry.entries.length

/-- The handle that the next added object gets. -/
def nextHandle (registry : Registry sort α) : Handle sort := ⟨registry.next⟩

/-- Adds an object under the next handle. -/
def add (registry : Registry sort α) (object : α) : Registry sort α :=
  { entries := registry.entries ++ [(registry.nextHandle, object)], next := registry.next + 1 }

/-- Removes the object with a handle; its number is not given out again. -/
def erase (registry : Registry sort α) (handle : Handle sort) : Registry sort α :=
  { registry with entries := registry.entries.filter fun entry => entry.1 != handle }

/-- Changes the object with a handle, if there is one. -/
def modify (registry : Registry sort α) (handle : Handle sort) (change : α → α) :
    Registry sort α :=
  { registry with
    entries := registry.entries.map fun entry =>
      if entry.1 = handle then (entry.1, change entry.2) else entry }

/-! ## Lookups after a change -/

theorem get?_add_of_ne {registry : Registry sort α} {object : α} {handle : Handle sort}
    (h : handle ≠ registry.nextHandle) :
    (registry.add object).get? handle = registry.get? handle := by
  have h' : (handle == registry.nextHandle) = false := by simpa using h
  simp [get?, add, List.lookup_append, List.lookup_cons, List.lookup_nil, h']

theorem get?_erase_self (registry : Registry sort α) (handle : Handle sort) :
    (registry.erase handle).get? handle = none := by
  simp only [get?, erase]
  induction registry.entries with
  | nil => rfl
  | cons entry rest ih =>
    obtain ⟨first, stored⟩ := entry
    by_cases h : first = handle
    · simpa [h] using ih
    · have h' : (handle == first) = false := by simpa using fun e => h e.symm
      simpa [h, List.lookup_cons, h'] using ih

theorem get?_erase_of_ne {registry : Registry sort α} {handle other : Handle sort}
    (h : other ≠ handle) : (registry.erase handle).get? other = registry.get? other := by
  simp only [get?, erase]
  induction registry.entries with
  | nil => rfl
  | cons entry rest ih =>
    obtain ⟨first, stored⟩ := entry
    by_cases he : first = handle
    · have h' : (other == handle) = false := by simpa using h
      simp [he, List.lookup_cons, h', ih]
    · by_cases ho : other = first
      · simp [← ho, h]
      · have h' : (other == first) = false := by simpa using ho
        simp [he, List.lookup_cons, h', ih]

theorem get?_modify_self (registry : Registry sort α) (handle : Handle sort) (change : α → α) :
    (registry.modify handle change).get? handle = (registry.get? handle).map change := by
  simp only [get?, modify]
  induction registry.entries with
  | nil => rfl
  | cons entry rest ih =>
    obtain ⟨first, stored⟩ := entry
    by_cases h : first = handle
    · simp [h]
    · have h' : (handle == first) = false := by simpa using fun e => h e.symm
      simp [h, List.lookup_cons, h', ih]

theorem get?_modify_of_ne {registry : Registry sort α} {handle other : Handle sort}
    {change : α → α} (h : other ≠ handle) :
    (registry.modify handle change).get? other = registry.get? other := by
  simp only [get?, modify]
  induction registry.entries with
  | nil => rfl
  | cons entry rest ih =>
    obtain ⟨first, stored⟩ := entry
    by_cases he : first = handle
    · have h' : (other == handle) = false := by simpa using h
      simp [he, List.lookup_cons, h', ih]
    · by_cases ho : other = first
      · simp [← ho, h]
      · have h' : (other == first) = false := by simpa using ho
        simp [he, List.lookup_cons, h', ih]

@[simp] theorem next_add (registry : Registry sort α) (object : α) :
    (registry.add object).next = registry.next + 1 := rfl

@[simp] theorem next_erase (registry : Registry sort α) (handle : Handle sort) :
    (registry.erase handle).next = registry.next := rfl

@[simp] theorem next_modify (registry : Registry sort α) (handle : Handle sort) (change : α → α) :
    (registry.modify handle change).next = registry.next := rfl

end Registry

end CoopKernel
