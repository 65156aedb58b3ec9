import Oseer.Library.Bitmap
import Oseer.Library.WordMemory

/-!
# Words with two flags

A size that is a multiple of four leaves the two low bits of its word free for
flags: bit 1 for the thing itself and bit 0 for the thing before it.
-/

namespace WordMemory

/-- A size with its two flags. -/
def tagged (size : Nat) (current before : Bool) : Nat :=
  size + 2 * current.toNat + before.toNat

variable {size size' : Nat} {current before : Bool}

private theorem land_split (a b : Nat) :
    a &&& b = 4 * (a / 4 &&& b / 4) + (a % 4 &&& b % 4) := by
  have quotient : (a &&& b) / 4 = (a / 4 &&& b / 4) := Nat.and_div_two_pow (n := 2)
  have remainder : (a &&& b) % 4 = (a % 4 &&& b % 4) := Nat.and_mod_two_pow (n := 2)
  rw [← quotient, ← remainder, Nat.div_add_mod]

private theorem lor_split (a b : Nat) :
    a ||| b = 4 * (a / 4 ||| b / 4) + (a % 4 ||| b % 4) := by
  have quotient : (a ||| b) / 4 = (a / 4 ||| b / 4) := Nat.or_div_two_pow (n := 2)
  have remainder : (a ||| b) % 4 = (a % 4 ||| b % 4) := Nat.or_mod_two_pow (n := 2)
  rw [← quotient, ← remainder, Nat.div_add_mod]

/-- The flags of a tagged word. -/
def flags (current before : Bool) : Nat := 2 * current.toNat + before.toNat

theorem flags_lt (current before : Bool) : flags current before < 4 := by
  cases current <;> cases before <;> decide

theorem tagged_eq : tagged size current before = size + flags current before :=
  Nat.add_assoc ..

theorem tagged_div (aligned : 4 ∣ size) : tagged size current before / 4 = size / 4 := by
  have := flags_lt current before
  rw [tagged_eq]
  omega

theorem tagged_mod (aligned : 4 ∣ size) :
    tagged size current before % 4 = flags current before := by
  have := flags_lt current before
  rw [tagged_eq]
  omega

theorem tagged_lt (aligned : 4 ∣ size) (fits : size < 2 ^ 32) :
    tagged size current before < 2 ^ 32 := by
  have := flags_lt current before
  rw [tagged_eq]
  omega

theorem alignDown_tagged (aligned : 4 ∣ size) (fits : size < 2 ^ 32) :
    alignDown (tagged size current before) = size := by
  rw [alignDown_eq (tagged_lt aligned fits), tagged_div aligned, Nat.div_mul_cancel aligned]

theorem tagged_and_three (aligned : 4 ∣ size) :
    tagged size current before &&& 3 = flags current before := by
  rw [land_split, tagged_mod aligned]
  cases current <;> cases before <;> simp [flags]

theorem tagged_and_two (aligned : 4 ∣ size) :
    tagged size current before &&& 2 = 2 * current.toNat := by
  rw [land_split, tagged_mod aligned]
  cases current <;> cases before <;> simp [flags]

theorem tagged_and_one (aligned : 4 ∣ size) :
    tagged size current before &&& 1 = before.toNat := by
  rw [land_split, tagged_mod aligned]
  cases current <;> cases before <;> simp [flags]

theorem tagged_or_two (aligned : 4 ∣ size) :
    tagged size current before ||| 2 = tagged size true before := by
  rw [lor_split, tagged_mod aligned, tagged_div aligned, tagged_eq]
  cases current <;> cases before <;> simp [flags] <;> omega

theorem tagged_or_one (aligned : 4 ∣ size) :
    tagged size current before ||| 1 = tagged size current true := by
  rw [lor_split, tagged_mod aligned, tagged_div aligned, tagged_eq]
  cases current <;> cases before <;> simp [flags] <;> omega

private theorem land_high (fits : size < 2 ^ 32) : size / 4 &&& 0x3fffffff = size / 4 := by
  rw [show 0x3fffffff = 2 ^ 30 - 1 from rfl, Nat.and_two_pow_sub_one_eq_mod]
  omega

theorem tagged_clear_two (aligned : 4 ∣ size) (fits : size < 2 ^ 32) :
    tagged size current before &&& Bitmap.not32 2 = tagged size false before := by
  rw [show Bitmap.not32 2 = 0xfffffffd from rfl, land_split, tagged_mod aligned,
    tagged_div aligned, tagged_eq, land_high fits]
  cases current <;> cases before <;> simp [flags] <;> omega

theorem tagged_clear_one (aligned : 4 ∣ size) (fits : size < 2 ^ 32) :
    tagged size current before &&& Bitmap.not32 1 = tagged size current false := by
  rw [show Bitmap.not32 1 = 0xfffffffe from rfl, land_split, tagged_mod aligned,
    tagged_div aligned, tagged_eq, land_high fits]
  cases current <;> cases before <;> simp [flags] <;> omega

theorem or_flags (aligned : 4 ∣ size') :
    size' ||| flags current before = tagged size' current before := by
  rw [lor_split, tagged_eq]
  have := flags_lt current before
  rw [Nat.mod_eq_of_lt this, Nat.div_eq_of_lt this, Nat.mod_eq_zero_of_dvd aligned,
    Nat.or_zero, Nat.zero_or]
  omega

end WordMemory
