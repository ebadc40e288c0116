import CoopKernel.Priority

/-!
# Level queues

A level queue is one first-in-first-out list for each priority. It is how threads queue for the
processor, for a mutex and for memory.

## Operations

Elements enter at the back of a level. They leave in two ways: `takeHighest?` serves the queue, so
it looks at the highest level first; `takeLowest?` unlinks an element wherever it stands, and looks
at the lowest level first. Both take the first element that passes a test and leave all others in
their places.
-/

namespace CoopKernel

/-- One list of waiting elements for each priority, each in order of arrival. -/
structure LevelQueue (α : Type) where
  idle : List α := []
  low : List α := []
  normal : List α := []
  high : List α := []
deriving DecidableEq, Repr

namespace LevelQueue

variable {α : Type}

/-- The elements waiting at a level, in order of arrival. -/
def level (queue : LevelQueue α) : Priority → List α
  | .idle => queue.idle
  | .low => queue.low
  | .normal => queue.normal
  | .high => queue.high

/-- Replaces the elements waiting at a level. -/
def setLevel (queue : LevelQueue α) (priority : Priority) (elements : List α) : LevelQueue α :=
  match priority with
  | .idle => { queue with idle := elements }
  | .low => { queue with low := elements }
  | .normal => { queue with normal := elements }
  | .high => { queue with high := elements }

/-- Appends an element to a level. -/
def push (queue : LevelQueue α) (priority : Priority) (element : α) : LevelQueue α :=
  queue.setLevel priority (queue.level priority ++ [element])

/-- Takes the first element of a level that passes a test. -/
def takeFrom? (queue : LevelQueue α) (test : α → Bool) (priority : Priority) :
    Option (α × LevelQueue α) :=
  ((queue.level priority).find? test).map fun element =>
    (element, queue.setLevel priority ((queue.level priority).eraseP test))

/-- Takes the first passing element of the highest level that has one. -/
def takeHighest? (queue : LevelQueue α) (test : α → Bool) : Option (α × LevelQueue α) :=
  Priority.descending.findSome? (queue.takeFrom? test)

/-- Takes the first passing element of the lowest level that has one. -/
def takeLowest? (queue : LevelQueue α) (test : α → Bool) : Option (α × LevelQueue α) :=
  Priority.ascending.findSome? (queue.takeFrom? test)

/-- All elements, from the lowest level to the highest. -/
def toList (queue : LevelQueue α) : List α := Priority.ascending.flatMap queue.level

/-- The number of elements. -/
def size (queue : LevelQueue α) : Nat := queue.toList.length

/-- Whether no element waits at any level. -/
def isEmpty (queue : LevelQueue α) : Bool := queue.toList.isEmpty

/-- Whether some element passes a test. -/
def any (queue : LevelQueue α) (test : α → Bool) : Bool := queue.toList.any test

/-- The number of elements that pass a test. -/
def count (queue : LevelQueue α) (test : α → Bool) : Nat := queue.toList.countP test

@[simp] theorem level_setLevel_self (queue : LevelQueue α) (p : Priority) (elements : List α) :
    (queue.setLevel p elements).level p = elements := by
  cases p <;> rfl

theorem level_setLevel_of_ne {queue : LevelQueue α} {p q : Priority} {elements : List α}
    (h : q ≠ p) : (queue.setLevel p elements).level q = queue.level q := by
  cases p <;> cases q <;> simp_all [setLevel, level]

@[simp] theorem level_push_self (queue : LevelQueue α) (p : Priority) (element : α) :
    (queue.push p element).level p = queue.level p ++ [element] := by
  simp [push]

theorem level_push_of_ne {queue : LevelQueue α} {p q : Priority} {element : α} (h : q ≠ p) :
    (queue.push p element).level q = queue.level q := by
  simp [push, level_setLevel_of_ne h]

end LevelQueue

end CoopKernel
