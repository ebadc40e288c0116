/-!
# Priorities

Four levels order the threads that compete for the processor, for a mutex or for memory. The lowest
is kept for the idle thread.
-/

namespace CoopKernel

/-- A scheduling priority. -/
inductive Priority
  | idle
  | low
  | normal
  | high
deriving DecidableEq, Repr

namespace Priority

/-- The levels from the lowest to the highest. -/
def ascending : List Priority := [idle, low, normal, high]

/-- The levels from the highest to the lowest. -/
def descending : List Priority := [high, normal, low, idle]

/-- The rank of a level; a higher level has a greater rank. -/
def rank : Priority → Nat
  | idle => 0
  | low => 1
  | normal => 2
  | high => 3

/-- The level of a rank; ranks past the highest level count as the highest. -/
def ofRank : Nat → Priority
  | 0 => idle
  | 1 => low
  | 2 => normal
  | _ => high

/-- The name of a level in diagnostic text. -/
def name : Priority → String
  | idle => "Idle"
  | low => "Low"
  | normal => "Normal"
  | high => "High"

instance : LT Priority := ⟨fun p q => p.rank < q.rank⟩

instance : LE Priority := ⟨fun p q => p.rank ≤ q.rank⟩

instance (p q : Priority) : Decidable (p < q) := inferInstanceAs (Decidable (p.rank < q.rank))

instance (p q : Priority) : Decidable (p ≤ q) := inferInstanceAs (Decidable (p.rank ≤ q.rank))

theorem ofRank_rank (p : Priority) : ofRank p.rank = p := by
  cases p <;> rfl

theorem rank_injective {p q : Priority} (h : p.rank = q.rank) : p = q := by
  rw [← ofRank_rank p, h, ofRank_rank]

end Priority

end CoopKernel
