import Mathlib.Data.List.Nodup
import CoopKernel.Dining.Supper

/-!
# Who shares which fork

The forks of a seat are the one on its left and the one on its right, which is the left one of the
next seat. They come in the order of their numbers (`Table.lt_of_forksOf`), in which a philosopher
takes them, and any two neighbours share one (`Table.exists_shared`).
-/

namespace CoopKernel.Dining

/-- Two seats are next to each other, around a table of some number of seats. -/
def Adjacent (seats a b : Nat) : Prop := b = (a + 1) % seats ∨ a = (b + 1) % seats

instance (seats a b : Nat) : Decidable (Adjacent seats a b) :=
  inferInstanceAs (Decidable (_ ∨ _))

/-- Nobody sits next to himself. -/
theorem Adjacent.ne {seats a b : Nat} (h : Adjacent seats a b) (htwo : 2 ≤ seats)
    (ha : a < seats) : a ≠ b := by
  rintro rfl
  have hself : a ≠ (a + 1) % seats := by
    rcases Nat.lt_or_ge (a + 1) seats with hlt | hge
    · rw [Nat.mod_eq_of_lt hlt]
      omega
    · rw [show a + 1 = seats by omega, Nat.mod_self]
      omega
  exact h.elim hself hself

namespace DinerStep

/-- The forks that a philosopher has in its hands when it decides to make a step. -/
def hands (first second : MutexId) : DinerStep → List MutexId
  | think => []
  | takeFirst => []
  | takeSecond => [first]
  | eat => [first, second]
  | putSecond => [first, second]
  | putFirst => [first]
  | leave => []

end DinerStep

namespace Table

variable {table : Table} {seat a b : Nat} {first second fork : MutexId}

theorem forksOf_eq_some : table.forksOf seat = some (first, second) ↔
    ∃ left right, table.forks[seat]? = some left ∧
      table.forks[(seat + 1) % table.forks.length]? = some right ∧
      (left.number < right.number ∧ first = left ∧ second = right ∨
        ¬ left.number < right.number ∧ first = right ∧ second = left) := by
  simp only [forksOf, Option.bind_eq_bind, Option.bind_eq_some_iff, pure, Option.some.injEq]
  refine exists_congr fun left => ?_
  rw [exists_and_left]
  refine and_congr_right fun _ => exists_congr fun right => and_congr_right fun _ => ?_
  split
  · next hlt => simp [hlt, eq_comm]
  · next hnot => simp [hnot, eq_comm]

/-- Every seat has two forks. -/
theorem exists_forksOf (hseat : seat < table.forks.length) :
    ∃ first second, table.forksOf seat = some (first, second) := by
  have hnext : (seat + 1) % table.forks.length < table.forks.length :=
    Nat.mod_lt _ (Nat.zero_lt_of_lt hseat)
  rw [forksOf, List.getElem?_eq_getElem hseat, List.getElem?_eq_getElem hnext]
  simp only [Option.bind_eq_bind, Option.bind_some]
  split <;> exact ⟨_, _, rfl⟩

theorem lt_length_of_forksOf (h : table.forksOf seat = some (first, second)) :
    seat < table.forks.length := by
  obtain ⟨left, _, hleft, -⟩ := forksOf_eq_some.mp h
  exact (List.getElem?_eq_some_iff.mp hleft).1

theorem mem_of_forksOf (h : table.forksOf seat = some (first, second)) :
    first ∈ table.forks ∧ second ∈ table.forks := by
  obtain ⟨left, right, hleft, hright, ⟨-, rfl, rfl⟩ | ⟨-, rfl, rfl⟩⟩ := forksOf_eq_some.mp h
  · exact ⟨List.mem_of_getElem? hleft, List.mem_of_getElem? hright⟩
  · exact ⟨List.mem_of_getElem? hright, List.mem_of_getElem? hleft⟩

/-- The first fork has the lower number. -/
theorem lt_of_forksOf (hdistinct : table.forks.Nodup) (htwo : 2 ≤ table.forks.length)
    (h : table.forksOf seat = some (first, second)) : first.number < second.number := by
  obtain ⟨left, right, hleft, hright, ⟨hlt, rfl, rfl⟩ | ⟨hnot, rfl, rfl⟩⟩ := forksOf_eq_some.mp h
  · exact hlt
  · obtain ⟨hseat, hleft⟩ := List.getElem?_eq_some_iff.mp hleft
    obtain ⟨hnext, hright⟩ := List.getElem?_eq_some_iff.mp hright
    -- The forks on the left and on the right are not the same.
    have hne : second ≠ first := by
      rintro rfl
      have hsame := (hdistinct.getElem_inj_iff).mp (hleft.trans hright.symm)
      exact (show Adjacent table.forks.length seat seat from .inl hsame).ne htwo hseat rfl
    have hnumber : second.number ≠ first.number := fun heq => hne (by
      cases first
      cases second
      exact congrArg Handle.mk heq)
    omega

/-- A fork is one of the two of a seat. -/
def Uses (table : Table) (seat : Nat) (fork : MutexId) : Prop :=
  ∃ first second, table.forksOf seat = some (first, second) ∧ (fork = first ∨ fork = second)

theorem uses_left {left : MutexId} (hleft : table.forks[seat]? = some left) :
    table.Uses seat left := by
  obtain ⟨first, second, hforks⟩ := exists_forksOf (List.getElem?_eq_some_iff.mp hleft).1
  obtain ⟨left', right, hleft', -, ⟨-, rfl, rfl⟩ | ⟨-, rfl, rfl⟩⟩ := forksOf_eq_some.mp hforks <;>
    obtain rfl := Option.some.inj (hleft.symm.trans hleft')
  · exact ⟨_, _, hforks, .inl rfl⟩
  · exact ⟨_, _, hforks, .inr rfl⟩

theorem uses_right {right : MutexId} (hseat : seat < table.forks.length)
    (hright : table.forks[(seat + 1) % table.forks.length]? = some right) :
    table.Uses seat right := by
  obtain ⟨first, second, hforks⟩ := exists_forksOf hseat
  obtain ⟨left, right', -, hright', ⟨-, rfl, rfl⟩ | ⟨-, rfl, rfl⟩⟩ := forksOf_eq_some.mp hforks <;>
    obtain rfl := Option.some.inj (hright.symm.trans hright')
  · exact ⟨_, _, hforks, .inr rfl⟩
  · exact ⟨_, _, hforks, .inl rfl⟩

/-- Two neighbours share a fork: the one on the right of one is the one on the left of the other. -/
theorem exists_shared (hadjacent : Adjacent table.forks.length a b) (ha : a < table.forks.length)
    (hb : b < table.forks.length) : ∃ fork, table.Uses a fork ∧ table.Uses b fork := by
  rcases hadjacent with heq | heq
  · have hfork := List.getElem?_eq_getElem hb
    exact ⟨_, uses_right ha (heq ▸ hfork), uses_left hfork⟩
  · have hfork := List.getElem?_eq_getElem ha
    exact ⟨_, uses_left hfork, uses_right hb (heq ▸ hfork)⟩

end Table

end CoopKernel.Dining
