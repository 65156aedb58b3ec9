import Mathlib.Data.Nat.Bitwise

/-!
# The highest bit by halving

A number below `2 ^ (2 * k)` is compared with `2 ^ k`: its highest bit is in the upper half of
the window, which is then shifted down, or in the lower half.  What is left has half as many
bits, and the search goes on with half of `k`.
-/

namespace Halving

/-- The bits that were skipped and what is left of the number, after one comparison. -/
def halve (k : Nat) (found : Nat × Nat) : Nat × Nat :=
  if 2 ^ k ≤ found.2 then (found.1 + k, found.2 >>> k) else found

/-- The search with `i` and its halves down to one. -/
def search (i : Nat) (found : Nat × Nat) : Nat :=
  if 0 < i then search (i >>> 1) (halve i found) else found.1
termination_by i
decreasing_by
  rw [Nat.shiftRight_one]
  omega

/-- What is left is not zero and fits in the window, and its highest bit is that of the number. -/
structure Tracks (number window : Nat) (found : Nat × Nat) : Prop where
  nonzero : found.2 ≠ 0
  small : found.2 < 2 ^ window
  index : found.1 + found.2.log2 = number.log2

variable {number window k i : Nat} {found : Nat × Nat}

theorem log2_shiftRight (large : 2 ^ k ≤ number) : k + (number >>> k).log2 = number.log2 := by
  have positive : 0 < 2 ^ k := Nat.two_pow_pos k
  have nonzero : number ≠ 0 := by omega
  have quotient : number >>> k ≠ 0 := by
    rw [Nat.shiftRight_eq_div_pow]
    exact (Nat.div_pos large positive).ne'
  have low := Nat.log2_self_le quotient
  have high := Nat.lt_log2_self (n := number >>> k)
  symm
  rw [Nat.log2_eq_iff nonzero, add_assoc, pow_add, pow_add]
  rw [Nat.shiftRight_eq_div_pow] at low high ⊢
  constructor
  · calc 2 ^ k * 2 ^ (number / 2 ^ k).log2
        ≤ 2 ^ k * (number / 2 ^ k) := Nat.mul_le_mul_left _ low
      _ ≤ number := Nat.mul_div_le number (2 ^ k)
  · have below := (Nat.div_lt_iff_lt_mul positive).mp high
    rwa [Nat.mul_comm] at below

namespace Tracks

theorem start (nonzero : number ≠ 0) (fits : number < 2 ^ window) :
    Tracks number window (0, number) := ⟨nonzero, fits, Nat.zero_add _⟩

theorem halve (tracks : Tracks number (k + k) found) : Tracks number k (halve k found) := by
  unfold Halving.halve
  split
  · rename_i large
    have small := tracks.small
    have index := log2_shiftRight large
    refine ⟨?_, ?_, ?_⟩
    · rw [Nat.shiftRight_eq_div_pow]
      exact (Nat.div_pos large (Nat.two_pow_pos k)).ne'
    · rw [Nat.shiftRight_eq_div_pow]
      rw [pow_add] at small
      exact Nat.div_lt_of_lt_mul small
    · rw [add_assoc, index]
      exact tracks.index
  · rename_i small
    exact ⟨tracks.nonzero, not_le.mp small, tracks.index⟩

/-- In a window of one bit the search is over. -/
theorem result (tracks : Tracks number 1 found) : found.1 = number.log2 := by
  have one : found.2 = 1 := by
    have nonzero := tracks.nonzero
    have small := tracks.small
    omega
  have index := tracks.index
  rw [one] at index
  exact index

end Tracks

/-- From half of its window the search finds the highest bit. -/
theorem search_eq (tracks : Tracks number (2 ^ i + 2 ^ i) found) :
    search (2 ^ i) found = number.log2 := by
  induction i generalizing found with
  | zero =>
      rw [search, if_pos (by decide), search, if_neg (by decide)]
      exact tracks.halve.result
  | succ i ih =>
      have half : 2 ^ (i + 1) >>> 1 = 2 ^ i := by
        rw [Nat.shiftRight_one, pow_succ]
        omega
      have double : 2 ^ (i + 1) = 2 ^ i + 2 ^ i := by
        rw [pow_succ]
        omega
      rw [search, if_pos (Nat.two_pow_pos _), half]
      apply ih
      rw [← double]
      exact tracks.halve

end Halving
