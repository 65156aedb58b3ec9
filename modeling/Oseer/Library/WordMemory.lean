import Mathlib.Data.Nat.Bitwise
import Mathlib.Logic.Function.Basic

/-!
# A 32-bit word memory

Memory maps the address of an aligned word to its contents.  Addresses and
sizes are natural numbers, and the operators below wrap as unsigned 32-bit
arithmetic does.
-/

namespace WordMemory

/-- Contents of the words, by address. -/
abbrev Memory := Nat → Nat

/-- Store one word. -/
def Memory.write (memory : Memory) (address value : Nat) : Memory :=
  Function.update memory address value

variable {memory : Memory} {address other value : Nat}

@[simp]
theorem write_same : memory.write address value address = value := by
  simp [Memory.write]

theorem write_other (apart : other ≠ address) :
    memory.write address value other = memory other := by
  simp [Memory.write, apart]

theorem write_apply : memory.write address value other =
    if other = address then value else memory other := by
  simp [Memory.write, Function.update_apply]

/-- Unsigned 32-bit addition. -/
def add32 (a b : Nat) : Nat := (a + b) % 2 ^ 32

/-- Unsigned 32-bit subtraction. -/
def sub32 (a b : Nat) : Nat := (a + 2 ^ 32 - b) % 2 ^ 32

theorem add32_of_lt {a b : Nat} (fits : a + b < 2 ^ 32) : add32 a b = a + b :=
  Nat.mod_eq_of_lt fits

theorem sub32_of_le {a b : Nat} (fits : a < 2 ^ 32) (le : b ≤ a) :
    sub32 a b = a - b := by
  unfold sub32
  omega

/-- Masking the low bits away rounds down to a multiple of a power of two. -/
theorem land_mask {word k : Nat} (fits : word < 2 ^ 32) (small : k ≤ 32) :
    word &&& (2 ^ 32 - 2 ^ k) = word / 2 ^ k * 2 ^ k := by
  have mask : 2 ^ 32 - 2 ^ k = 2 ^ k * (2 ^ (32 - k) - 1) := by
    rw [Nat.mul_sub, ← Nat.pow_add, Nat.mul_one, Nat.add_sub_cancel' small]
  apply Nat.eq_of_testBit_eq
  intro i
  rw [mask, Nat.mul_comm (word / 2 ^ k), Nat.testBit_and, Nat.testBit_two_pow_mul,
    Nat.testBit_two_pow_mul, Nat.testBit_two_pow_sub_one, Nat.testBit_div_two_pow]
  by_cases low : k ≤ i
  · by_cases high : i < 32
    · simp [low, show i - k < 32 - k by omega, Nat.sub_add_cancel low]
    · have : word.testBit i = false := Nat.testBit_lt_two_pow
        (fits.trans_le (Nat.pow_le_pow_right (by decide) (by omega)))
      simp [low, Nat.sub_add_cancel low, this]
  · simp [low]

/-- Clear the low bit of a word (`w & ~1`). -/
def clearBit0 (word : Nat) : Nat := word &&& 0xfffffffe

/-- Set the low bit of a word (`w | 1`). -/
def setBit0 (word : Nat) : Nat := word ||| 1

/-- Round down to a multiple of four (`w & ~3`). -/
def alignDown (word : Nat) : Nat := word &&& 0xfffffffc

/-- Round up to a multiple of four (`(w + 3) & ~3`). -/
def alignUp (word : Nat) : Nat := alignDown (add32 word 3)

theorem clearBit0_eq {word : Nat} (fits : word < 2 ^ 32) :
    clearBit0 word = word / 2 * 2 :=
  land_mask fits (by decide : 1 ≤ 32)

theorem alignDown_eq {word : Nat} (fits : word < 2 ^ 32) :
    alignDown word = word / 4 * 4 :=
  land_mask fits (by decide : 2 ≤ 32)

theorem setBit0_eq (word : Nat) : setBit0 word = word / 2 * 2 + 1 := by
  apply Nat.eq_of_testBit_eq
  intro i
  rcases i with _ | i
  · simp [setBit0, Nat.testBit_zero]
  · have half : (word / 2 * 2 + 1) / 2 = word / 2 := by omega
    rw [setBit0, Nat.testBit_or, Nat.testBit_succ, Nat.testBit_succ,
      Nat.testBit_succ, half]
    simp

theorem alignUp_eq {word : Nat} (fits : word + 3 < 2 ^ 32) :
    alignUp word = (word + 3) / 4 * 4 := by
  rw [alignUp, add32_of_lt fits, alignDown_eq fits]

end WordMemory
