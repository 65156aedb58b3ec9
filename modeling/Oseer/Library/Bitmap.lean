import Mathlib.Data.Nat.Bitwise
import Mathlib.Tactic.SplitIfs

/-!
# Bitmaps in 32-bit words

A word is a set of bit numbers below 32.  This file has the operations that
programs use to add, remove and look for members, with the shifts of the i386,
which take their count modulo 32.
-/

namespace Bitmap

/-- Complement of a word. -/
def not32 (word : Nat) : Nat := 0xffffffff ^^^ word

/-- Shift left. -/
def shl32 (word count : Nat) : Nat := (word <<< (count % 32)) % 0x100000000

/-- Shift right. -/
def shr32 (word count : Nat) : Nat := word >>> (count % 32)

/-- Number of the highest bit of a nonzero word. -/
def msbIndex (word : Nat) : Nat := word.log2

/-- Number of the lowest bit of a nonzero word. -/
def lsbIndex (word : Nat) : Nat :=
  ((List.range 32).find? fun i => word.testBit i).getD 0

variable {word count i : Nat}

section Members

theorem testBit_high (fits : word < 2 ^ 32) (high : 32 ≤ i) : word.testBit i = false :=
  Nat.testBit_lt_two_pow (fits.trans_le (Nat.pow_le_pow_right (by decide) high))

theorem eq_zero_iff (fits : word < 2 ^ 32) :
    word = 0 ↔ ∀ i < 32, word.testBit i = false := by
  constructor
  · rintro rfl i -
    exact Nat.zero_testBit i
  · intro none
    apply Nat.eq_of_testBit_eq
    intro i
    rw [Nat.zero_testBit]
    by_cases low : i < 32
    · exact none i low
    · exact testBit_high fits (by omega)

theorem shl32_one (small : count < 32) : shl32 1 count = 2 ^ count := by
  have fits : 2 ^ count < 0x100000000 := Nat.pow_lt_pow_right (by decide) small
  rw [shl32, Nat.mod_eq_of_lt small, Nat.one_shiftLeft, Nat.mod_eq_of_lt fits]

theorem testBit_all : (0xffffffff : Nat).testBit i = decide (i < 32) :=
  Nat.testBit_two_pow_sub_one 32 i

theorem testBit_add (small : count < 32) :
    (word ||| shl32 1 count).testBit i = (decide (i = count) || word.testBit i) := by
  rw [shl32_one small, Nat.testBit_or, Nat.testBit_two_pow, Bool.or_comm]
  simp only [eq_comm]

theorem add_lt (fits : word < 2 ^ 32) (small : count < 32) :
    word ||| shl32 1 count < 2 ^ 32 := by
  rw [shl32_one small]
  exact Nat.or_lt_two_pow fits (Nat.pow_lt_pow_right (by decide) small)

theorem testBit_remove (fits : word < 2 ^ 32) (small : count < 32) :
    (word &&& not32 (shl32 1 count)).testBit i =
      (decide (i ≠ count) && word.testBit i) := by
  rw [not32, shl32_one small, Nat.testBit_and, Nat.testBit_xor, testBit_all,
    Nat.testBit_two_pow]
  by_cases low : i < 32
  · by_cases same : i = count
    · simp [same, small]
    · simp [low, same, Ne.symm same]
  · simp [testBit_high fits (by omega : 32 ≤ i)]

theorem remove_lt (fits : word < 2 ^ 32) (mask : Nat) : word &&& mask < 2 ^ 32 :=
  Nat.lt_of_le_of_lt Nat.and_le_left fits

theorem testBit_from (fits : word < 2 ^ 32) (small : count < 32) :
    (word &&& shl32 0xffffffff count).testBit i =
      (decide (count ≤ i) && word.testBit i) := by
  have whole : (0x100000000 : Nat) = 2 ^ 32 := rfl
  rw [shl32, Nat.mod_eq_of_lt small, whole, Nat.testBit_and, Nat.testBit_mod_two_pow,
    Nat.testBit_shiftLeft, testBit_all]
  by_cases low : i < 32
  · by_cases place : count ≤ i
    · simp [low, place, show i - count < 32 by omega]
    · simp [place]
  · simp [testBit_high fits (by omega : 32 ≤ i)]

end Members

section Lowest

theorem testBit_lsbIndex (fits : word < 2 ^ 32) (nonzero : word ≠ 0) :
    word.testBit (lsbIndex word) = true ∧ lsbIndex word < 32 := by
  cases found : (List.range 32).find? fun i => word.testBit i with
  | none =>
      refine absurd ((eq_zero_iff fits).mpr fun i low => ?_) nonzero
      simpa using List.find?_eq_none.mp found i (List.mem_range.mpr low)
  | some i =>
      have isMember := List.find?_some found
      have low := List.mem_range.mp (List.mem_of_find?_eq_some found)
      simp only [lsbIndex, found, Option.getD_some]
      exact ⟨isMember, low⟩

end Lowest

end Bitmap
