import Mathlib.Data.Nat.Bitwise
import Mathlib.Order.Bounds.Basic
import CoopKernel.Memory.Rounding

/-!
# Rounding up

A size is rounded up to the least multiple of the granularity that covers it (`covering`), which may
lie past the last address. Two things stand between this and `roundUp`: the multiple is found by
clearing low bits, and a sum that may be larger than the multiple has to be an address first.

* `and_sub_two_pow` — clearing low bits rounds down to a multiple, below the end of the address
  space;
* `covering_lt_addressSpace_iff` — the address space ends on the grid, so that the sum leaves it
  only together with the multiple;
* `roundUp_exact` — rounding up gives the least covering multiple if there is such an address, and
  nothing if there is none.
-/

namespace CoopKernel.Memory

theorem addressSpace_eq : addressSpace = 2 ^ 64 := Nat.one_shiftLeft 64

variable {size granularity granted : Nat}

/-! ## Powers of two -/

theorem exists_pow_of_isPowerOfTwo {n : Nat} (h : isPowerOfTwo n) : ∃ k, n = 2 ^ k :=
  ⟨n.log2, (by simpa [isPowerOfTwo, Nat.one_shiftLeft] using h : 2 ^ n.log2 = n).symm⟩

/-- A granularity is not zero. -/
theorem pos_of_isPowerOfTwo (hpow : isPowerOfTwo granularity) : 0 < granularity := by
  obtain ⟨k, rfl⟩ := exists_pow_of_isPowerOfTwo hpow
  exact Nat.two_pow_pos k

/-- A granularity that is not past the end of the address space is one of the powers up to it. -/
theorem exists_pow_le (hpow : isPowerOfTwo granularity) (hle : granularity ≤ addressSpace) :
    ∃ k ≤ 64, granularity = 2 ^ k := by
  obtain ⟨k, rfl⟩ := exists_pow_of_isPowerOfTwo hpow
  rw [addressSpace_eq] at hle
  exact ⟨k, (Nat.pow_le_pow_iff_right (by omega)).mp hle, rfl⟩

/-- Clearing the low `k` bits rounds down to a multiple of `2 ^ k`. -/
theorem and_sub_two_pow {n k : Nat} (hn : n < addressSpace) (hk : k ≤ 64) :
    n &&& (addressSpace - 2 ^ k) = n / 2 ^ k * 2 ^ k := by
  rw [← Nat.shiftRight_eq_div_pow, ← Nat.shiftLeft_eq]
  apply Nat.eq_of_testBit_eq
  intro i
  have hmask : addressSpace - 2 ^ k = 2 ^ 64 - (2 ^ k - 1 + 1) := by
    rw [Nat.sub_add_cancel (Nat.one_le_two_pow), addressSpace_eq]
  have hlt : 2 ^ k - 1 < 2 ^ 64 :=
    Nat.lt_of_lt_of_le (Nat.sub_lt (Nat.two_pow_pos k) Nat.one_pos)
      (Nat.pow_le_pow_right (by omega) hk)
  rw [Nat.testBit_and, hmask, Nat.testBit_two_pow_sub_succ hlt, Nat.testBit_two_pow_sub_one,
    Nat.testBit_shiftLeft, Nat.testBit_shiftRight]
  by_cases hi : k ≤ i
  · rw [Nat.add_sub_cancel' hi]
    by_cases hi' : i < 64
    · simp [hi, hi']
    · have hhigh : n.testBit i = false :=
        Nat.testBit_lt_two_pow (Nat.lt_of_lt_of_le (addressSpace_eq ▸ hn)
          (Nat.pow_le_pow_right (by omega) (Nat.le_of_not_lt hi')))
      simp [hhigh]
  · simp [hi, Nat.lt_of_not_le hi]

/-! ## The multiple -/

/-- The least multiple of a granularity that covers a size, whether or not it is an address. -/
def covering (size granularity : Nat) : Nat :=
  (size + (granularity - 1)) / granularity * granularity

theorem isLeast_covering (size : Nat) {granularity : Nat} (hpos : 0 < granularity) :
    IsLeast {n | granularity ∣ n ∧ size ≤ n} (covering size granularity) := by
  refine ⟨⟨Nat.dvd_mul_left _ _, ?_⟩, ?_⟩
  · have hmod := Nat.mod_lt (size + (granularity - 1)) hpos
    have hdiv := Nat.div_add_mod' (size + (granularity - 1)) granularity
    rw [covering]
    omega
  · rintro n ⟨⟨c, rfl⟩, hcovers⟩
    -- A multiple that covers the size covers everything up to the next multiple.
    have hquotient : (size + (granularity - 1)) / granularity ≤ c := by
      rw [← Nat.lt_succ_iff, Nat.div_lt_iff_lt_mul hpos, Nat.succ_mul, Nat.mul_comm c]
      omega
    rw [covering, Nat.mul_comm]
    exact Nat.mul_le_mul_left _ hquotient

/-- The multiple is an address exactly if the sum is that is cut down to it: the address space is a
number of whole steps of the grid, and both are below its end if and only if fewer steps than that
go into the sum. -/
theorem covering_lt_addressSpace_iff (size : Nat) (hpow : isPowerOfTwo granularity)
    (hle : granularity ≤ addressSpace) :
    covering size granularity < addressSpace ↔ size + (granularity - 1) < addressSpace := by
  obtain ⟨k, hk, rfl⟩ := exists_pow_le hpow hle
  obtain ⟨steps, hsteps⟩ := Nat.pow_dvd_pow 2 hk
  have hpos : 0 < 2 ^ k := Nat.two_pow_pos k
  rw [addressSpace_eq, hsteps, covering, Nat.mul_comm (_ / _), Nat.mul_lt_mul_left hpos,
    Nat.div_lt_iff_lt_mul hpos, Nat.mul_comm steps]

/-! ## Rounding -/

/-- Rounding up fails only where the multiple is no address. -/
theorem roundUp_eq_ite_of_le (size : Nat) (hpow : isPowerOfTwo granularity)
    (hle : granularity ≤ addressSpace) : roundUp size granularity =
      if covering size granularity < addressSpace then some (covering size granularity)
      else none := by
  obtain ⟨k, hk, hk'⟩ := exists_pow_le hpow hle
  have hiff := covering_lt_addressSpace_iff size hpow hle
  split
  · next hlt =>
    rw [roundUp, if_pos (hiff.mp hlt), hk', and_sub_two_pow (hk' ▸ hiff.mp hlt) hk, ← hk', covering]
  · next hpast => exact if_neg (mt hiff.mpr hpast)

/-- The same for a granularity of any size, if there is something to be set aside: past the end of
the address space neither the sum nor the multiple is an address. -/
theorem roundUp_eq_ite (hsize : 0 < size) (hpow : isPowerOfTwo granularity) :
    roundUp size granularity =
      if covering size granularity < addressSpace then some (covering size granularity)
      else none := by
  by_cases hle : granularity ≤ addressSpace
  · exact roundUp_eq_ite_of_le size hpow hle
  · obtain ⟨hdvd, hcovers⟩ := (isLeast_covering size (pos_of_isPowerOfTwo hpow)).1
    have hpast := Nat.le_of_dvd (Nat.lt_of_lt_of_le hsize hcovers) hdvd
    rw [if_neg (by omega)]
    exact if_neg (by omega)

/-- What is set aside for a request is the multiple that covers it. -/
theorem eq_covering_of_roundUp_eq_some (hpow : isPowerOfTwo granularity)
    (h : roundUp size granularity = some granted) : granted = covering size granularity := by
  -- The sum is an address, and the granularity is at most one more.
  obtain ⟨hsum, -⟩ := Option.ite_none_right_eq_some.mp h
  rw [roundUp_eq_ite_of_le size hpow (by omega), Option.ite_none_right_eq_some] at h
  exact (Option.some.inj h.2).symm

/-- What is set aside for a request is not less than the request. -/
theorem le_of_roundUp_eq_some (hpow : isPowerOfTwo granularity)
    (h : roundUp size granularity = some granted) : size ≤ granted := by
  rw [eq_covering_of_roundUp_eq_some hpow h]
  exact (isLeast_covering size (pos_of_isPowerOfTwo hpow)).1.2

/-- What is set aside for a request is the least multiple of the granularity that covers it and is
not nothing. -/
theorem isLeast_of_roundUp_eq_some (hsize : 0 < size) (hpow : isPowerOfTwo granularity)
    (h : roundUp size granularity = some granted) :
    IsLeast {n | 0 < n ∧ granularity ∣ n ∧ size ≤ n} granted := by
  obtain ⟨⟨hdvd, hcovers⟩, hleast⟩ := isLeast_covering size (pos_of_isPowerOfTwo hpow)
  rw [eq_covering_of_roundUp_eq_some hpow h]
  exact ⟨⟨Nat.lt_of_lt_of_le hsize hcovers, hdvd, hcovers⟩, fun _ hn => hleast hn.2⟩

/-- A size is rounded up whenever some address is a multiple of the granularity and covers it. -/
theorem exists_roundUp_eq_some {n : Nat} (hsize : 0 < size) (hpow : isPowerOfTwo granularity)
    (hdvd : granularity ∣ n) (hcovers : size ≤ n) (hn : n < addressSpace) :
    ∃ granted, roundUp size granularity = some granted := by
  have hle := (isLeast_covering size (pos_of_isPowerOfTwo hpow)).2 ⟨hdvd, hcovers⟩
  exact ⟨_, (roundUp_eq_ite hsize hpow).trans (if_pos (Nat.lt_of_le_of_lt hle hn))⟩

/-- Any size is rounded up to the least multiple of the granularity that covers it, and refused
exactly if that multiple is no address. The sum that is cut down to the multiple may be the larger
of the two, but it leaves the address space only if the multiple does, so that nothing is refused
which could have been given. -/
theorem roundUp_exact (size : Nat) (hpow : isPowerOfTwo granularity)
    (hle : granularity ≤ addressSpace) :
    ∃ multiple, IsLeast {n | granularity ∣ n ∧ size ≤ n} multiple ∧
      (multiple < addressSpace → roundUp size granularity = some multiple) ∧
      (roundUp size granularity = none ↔ addressSpace ≤ multiple) ∧
      (addressSpace ≤ size + (granularity - 1) ↔ addressSpace ≤ multiple) := by
  have hround := roundUp_eq_ite_of_le size hpow hle
  have hiff := covering_lt_addressSpace_iff size hpow hle
  refine ⟨covering size granularity, isLeast_covering size (pos_of_isPowerOfTwo hpow),
    fun hlt => ?_, ?_, ?_⟩
  · rw [hround, if_pos hlt]
  · rw [hround, ite_eq_right_iff]
    simp
  · rw [← Nat.not_lt, ← Nat.not_lt, hiff]

/-- On the coarsest grid that addresses have, half of the address space is rounded to itself, and
one byte more to the end of the address space, which is no address. -/
theorem roundUp_exact_halves : isPowerOfTwo (2 ^ 63) ∧ 2 ^ 63 ≤ addressSpace ∧
    roundUp (2 ^ 63) (2 ^ 63) = some (2 ^ 63) ∧ roundUp (2 ^ 63 + 1) (2 ^ 63) = none := by
  have hpow : isPowerOfTwo (2 ^ 63) := by decide +kernel
  have hle : 2 ^ 63 ≤ addressSpace := by decide +kernel
  obtain ⟨half, hhalf, hsome, -⟩ := roundUp_exact (2 ^ 63) hpow hle
  obtain ⟨whole, hwhole, -, hnone, -⟩ := roundUp_exact (2 ^ 63 + 1) hpow hle
  have hsame : half = 2 ^ 63 := Nat.le_antisymm (hhalf.2 ⟨dvd_rfl, Nat.le_refl _⟩) hhalf.1.2
  have hend : addressSpace ≤ whole := by
    obtain ⟨⟨steps, hsteps⟩, hcovers⟩ := hwhole.1
    rw [addressSpace_eq]
    omega
  rw [hsame] at hsome
  exact ⟨hpow, hle, hsome (by decide +kernel), hnone.mpr hend⟩

end CoopKernel.Memory
