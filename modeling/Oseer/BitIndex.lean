import Oseer.Library.Halving
import Oseer.ReadyMask

/-!
# The index of the highest bit

The functions of `lib/bits_generic.h`, which are used where no instruction of the processor
finds the index.
-/

namespace Oseer

open Halving

/-- A line of `msb_index_32`. -/
def halve32 (i : UInt32) (found : UInt32 × UInt32) : UInt32 × UInt32 :=
  if 1 <<< i ≤ found.2 then (found.1 + i, found.2 >>> i) else found

/-- `msb_index_32`. -/
def msbIndex32 (num : UInt32) : UInt32 :=
  let found := halve32 2 (halve32 4 (halve32 8 (halve32 16 (0, num))))
  if (1 : UInt32) <<< 1 ≤ found.2 then found.1 + 1 else found.1

/-- A line of `msb_index_64`, where `msb` is an `int`. -/
def halve64 (i : Nat) (found : Nat × UInt64) : Nat × UInt64 :=
  if 1 <<< UInt64.ofNat i ≤ found.2 then (found.1 + i, found.2 >>> UInt64.ofNat i) else found

/-- `msb_index_64`. -/
def msbIndex64 (num : UInt64) : Nat :=
  let found := halve64 2 (halve64 4 (halve64 8 (halve64 16 (halve64 32 (0, num)))))
  if (1 : UInt64) <<< 1 ≤ found.2 then found.1 + 1 else found.1

/-- The loop of `msb_index_generic`. -/
def msbGenericLoop (i : Nat) (num : UInt32) (msb : Nat) : Nat :=
  if 0 < i then
    let half : UInt32 := 1 <<< UInt32.ofNat i
    if half ≤ num then msbGenericLoop (i >>> 1) (num >>> UInt32.ofNat i) (msb + i)
    else msbGenericLoop (i >>> 1) num msb
  else msb
termination_by i
decreasing_by
  all_goals
    rw [Nat.shiftRight_one]
    omega

/-- `msb_index_generic`, where `sizeof (unsigned int)` is 4. -/
def msbIndexGeneric (num : UInt32) : Nat := msbGenericLoop (4 * 8 / 2) num 0

/-- The loop of `msb_index_int_n`. -/
def msbIntNLoop (i : Nat) (num : UInt64) (msb : Nat) : Nat :=
  if 0 < i then
    let half : UInt64 := 1 <<< UInt64.ofNat i
    if half ≤ num then msbIntNLoop (i >>> 1) (num >>> UInt64.ofNat i) (msb + i)
    else msbIntNLoop (i >>> 1) num msb
  else msb
termination_by i
decreasing_by
  all_goals
    rw [Nat.shiftRight_one]
    omega

/-- `msb_index_int_n`, where `sizeof (int_n)` is 8. -/
def msbIndexIntN (num : UInt64) : Nat := msbIntNLoop (8 * 8 / 2) num 0

/-- What `bsr` gives for an operand that is not zero: the index of its highest bit that is
set. -/
def IsHighestBit (num index : Nat) : Prop :=
  num.testBit index = true ∧ ∀ higher, index < higher → num.testBit higher = false

theorem isHighestBit_log2 {num : Nat} (nonzero : num ≠ 0) : IsHighestBit num num.log2 := by
  refine ⟨Nat.testBit_log2 nonzero, fun higher above => ?_⟩
  apply Nat.testBit_lt_two_pow
  exact Nat.lt_log2_self.trans_le (Nat.pow_le_pow_right (by decide) above)

section Unrolled

variable {i : Nat}

theorem shiftLeft32_toNat (small : i < 32) : ((1 : UInt32) <<< UInt32.ofNat i).toNat = 2 ^ i := by
  have fits : 2 ^ i < 2 ^ 32 := Nat.pow_lt_pow_right (by decide) small
  have count : i % 2 ^ 32 % 32 = i := by omega
  simp only [UInt32.toNat_shiftLeft, UInt32.toNat_ofNat', count, UInt32.toNat_one,
    Nat.one_shiftLeft, Nat.mod_eq_of_lt fits]

theorem shiftRight32_toNat (num : UInt32) (small : i < 32) :
    (num >>> UInt32.ofNat i).toNat = num.toNat >>> i := by
  have count : i % 2 ^ 32 % 32 = i := by omega
  simp only [UInt32.toNat_shiftRight, UInt32.toNat_ofNat', count]

theorem shiftLeft64_toNat (small : i < 64) : ((1 : UInt64) <<< UInt64.ofNat i).toNat = 2 ^ i := by
  have fits : 2 ^ i < 2 ^ 64 := Nat.pow_lt_pow_right (by decide) small
  have count : i % 2 ^ 64 % 64 = i := by omega
  simp only [UInt64.toNat_shiftLeft, UInt64.toNat_ofNat', count, UInt64.toNat_one,
    Nat.one_shiftLeft, Nat.mod_eq_of_lt fits]

theorem shiftRight64_toNat (num : UInt64) (small : i < 64) :
    (num >>> UInt64.ofNat i).toNat = num.toNat >>> i := by
  have count : i % 2 ^ 64 % 64 = i := by omega
  simp only [UInt64.toNat_shiftRight, UInt64.toNat_ofNat', count]

/-- A line of `msb_index_32` halves the window, and the index stays small. -/
theorem halve32_tracks {number : Nat} {k : UInt32} (found : UInt32 × UInt32)
    (low : number.log2 < 32) (small : i < 32) (count : k = .ofNat i)
    (tracks : Tracks number (i + i) (found.1.toNat, found.2.toNat)) :
    Tracks number i ((halve32 k found).1.toNat, (halve32 k found).2.toNat) := by
  subst count
  have index := tracks.index
  have halved := tracks.halve
  unfold Halving.halve at halved
  unfold Oseer.halve32
  have condition : 1 <<< UInt32.ofNat i ≤ found.2 ↔ 2 ^ i ≤ found.2.toNat := by
    rw [UInt32.le_iff_toNat_le, shiftLeft32_toNat small]
  simp only [condition]
  split
  · rename_i large
    rw [if_pos large] at halved
    have sum : (found.1 + UInt32.ofNat i).toNat = found.1.toNat + i := by
      rw [UInt32.toNat_add, UInt32.toNat_ofNat']
      omega
    dsimp only
    rw [sum, shiftRight32_toNat _ small]
    exact halved
  · rename_i low
    rw [if_neg low] at halved
    exact halved

/-- A line of `msb_index_64` halves the window. -/
theorem halve64_tracks {number : Nat} (found : Nat × UInt64) (small : i < 64)
    (tracks : Tracks number (i + i) (found.1, found.2.toNat)) :
    Tracks number i ((halve64 i found).1, (halve64 i found).2.toNat) := by
  have halved := tracks.halve
  unfold Halving.halve at halved
  unfold halve64
  have condition : 1 <<< UInt64.ofNat i ≤ found.2 ↔ 2 ^ i ≤ found.2.toNat := by
    rw [UInt64.le_iff_toNat_le, shiftLeft64_toNat small]
  simp only [condition]
  split
  · rename_i large
    rw [if_pos large] at halved
    dsimp only
    rw [shiftRight64_toNat _ small]
    exact halved
  · rename_i low
    rw [if_neg low] at halved
    exact halved

end Unrolled

section Loops

variable {i msb : Nat}

theorem msbGenericLoop_eq (num : UInt32) (small : i < 32) :
    msbGenericLoop i num msb = search i (msb, num.toNat) := by
  induction i using Nat.strong_induction_on generalizing num msb with
  | h i ih =>
      rw [msbGenericLoop, search]
      split
      · rename_i positive
        have less : i >>> 1 < i := by
          rw [Nat.shiftRight_one]
          omega
        have condition : 1 <<< UInt32.ofNat i ≤ num ↔ 2 ^ i ≤ num.toNat := by
          rw [UInt32.le_iff_toNat_le, shiftLeft32_toNat small]
        unfold Halving.halve
        simp only [condition]
        split
        · rw [ih _ less _ (less.trans small), shiftRight32_toNat _ small]
        · exact ih _ less _ (less.trans small)
      · rfl

theorem msbIntNLoop_eq (num : UInt64) (small : i < 64) :
    msbIntNLoop i num msb = search i (msb, num.toNat) := by
  induction i using Nat.strong_induction_on generalizing num msb with
  | h i ih =>
      rw [msbIntNLoop, search]
      split
      · rename_i positive
        have less : i >>> 1 < i := by
          rw [Nat.shiftRight_one]
          omega
        have condition : 1 <<< UInt64.ofNat i ≤ num ↔ 2 ^ i ≤ num.toNat := by
          rw [UInt64.le_iff_toNat_le, shiftLeft64_toNat small]
        unfold Halving.halve
        simp only [condition]
        split
        · rw [ih _ less _ (less.trans small), shiftRight64_toNat _ small]
        · exact ih _ less _ (less.trans small)
      · rfl

end Loops

section Results

variable {num : UInt32} {wide : UInt64}

theorem log2_lt_32 (nonzero : num ≠ 0) : num.toNat ≠ 0 ∧ num.toNat.log2 < 32 := by
  have nonzeroNat : num.toNat ≠ 0 := fun zero => nonzero (UInt32.toNat_inj.mp zero)
  exact ⟨nonzeroNat, (Nat.log2_lt nonzeroNat).mpr num.toNat_lt⟩

theorem toNat_ne_zero (nonzero : wide ≠ 0) : wide.toNat ≠ 0 :=
  fun zero => nonzero (UInt64.toNat_inj.mp zero)

theorem msbIndex32_eq (nonzero : num ≠ 0) : (msbIndex32 num).toNat = num.toNat.log2 := by
  obtain ⟨nonzeroNat, low⟩ := log2_lt_32 nonzero
  have start : Tracks num.toNat (16 + 16) ((0 : UInt32).toNat, num.toNat) :=
    .start nonzeroNat num.toNat_lt
  have tracks16 := halve32_tracks (k := 16) (0, num) low (by decide) rfl start
  have tracks8 := halve32_tracks (i := 8) (k := 8) _ low (by decide) rfl tracks16
  have tracks4 := halve32_tracks (i := 4) (k := 4) _ low (by decide) rfl tracks8
  have tracks2 := halve32_tracks (i := 2) (k := 2) _ low (by decide) rfl tracks4
  have tracks1 := halve32_tracks (i := 1) (k := 1) _ low (by decide) rfl tracks2
  -- the last line does not shift `num` any more
  have last : ∀ found : UInt32 × UInt32,
      (if (1 : UInt32) <<< 1 ≤ found.2 then found.1 + 1 else found.1) =
        (halve32 1 found).1 := by
    intro found
    unfold halve32
    by_cases large : (1 : UInt32) <<< 1 ≤ found.2
    · rw [if_pos large, if_pos large]
    · rw [if_neg large, if_neg large]
  have result := tracks1.result
  unfold msbIndex32
  dsimp only at result ⊢
  rw [last, result]

theorem msbIndex64_eq (nonzero : wide ≠ 0) : msbIndex64 wide = wide.toNat.log2 := by
  have start : Tracks wide.toNat (32 + 32) (0, wide.toNat) :=
    .start (toNat_ne_zero nonzero) wide.toNat_lt
  have tracks32 := halve64_tracks (0, wide) (by decide) start
  have tracks16 := halve64_tracks (i := 16) _ (by decide) tracks32
  have tracks8 := halve64_tracks (i := 8) _ (by decide) tracks16
  have tracks4 := halve64_tracks (i := 4) _ (by decide) tracks8
  have tracks2 := halve64_tracks (i := 2) _ (by decide) tracks4
  have tracks1 := halve64_tracks (i := 1) _ (by decide) tracks2
  have last : ∀ found : Nat × UInt64,
      (if (1 : UInt64) <<< 1 ≤ found.2 then found.1 + 1 else found.1) = (halve64 1 found).1 := by
    intro found
    have one : UInt64.ofNat 1 = 1 := rfl
    unfold halve64
    rw [one]
    by_cases large : (1 : UInt64) <<< 1 ≤ found.2
    · rw [if_pos large, if_pos large]
    · rw [if_neg large, if_neg large]
  have result := tracks1.result
  unfold msbIndex64
  dsimp only at result ⊢
  rw [last, result]

/-- Every routine finds the index that `bsr` gives. -/
theorem msb_index_agree (num : UInt32) (wide : UInt64) (nonzero : num ≠ 0)
    (nonzeroWide : wide ≠ 0) :
    IsHighestBit num.toNat (msbIndex num.toNat) ∧ IsHighestBit wide.toNat (msbIndex wide.toNat) ∧
      (msbIndex32 num).toNat = msbIndex num.toNat ∧ msbIndexGeneric num = msbIndex num.toNat ∧
      msbIndex64 wide = msbIndex wide.toNat ∧ msbIndexIntN wide = msbIndex wide.toNat := by
  refine ⟨isHighestBit_log2 (log2_lt_32 nonzero).1, isHighestBit_log2 (toNat_ne_zero nonzeroWide),
    msbIndex32_eq nonzero, ?_, msbIndex64_eq nonzeroWide, ?_⟩
  · unfold msbIndexGeneric
    rw [msbGenericLoop_eq num (by decide)]
    exact search_eq (i := 4) (.start (log2_lt_32 nonzero).1 num.toNat_lt)
  · unfold msbIndexIntN
    rw [msbIntNLoop_eq wide (by decide)]
    exact search_eq (i := 5) (.start (toNat_ne_zero nonzeroWide) wide.toNat_lt)

theorem msb_index_agree_limits :
    IsHighestBit (0xffffffff : UInt32).toNat (msbIndex (0xffffffff : UInt32).toNat) ∧
      IsHighestBit (0x100000000 : UInt64).toNat (msbIndex (0x100000000 : UInt64).toNat) ∧
      (msbIndex32 0xffffffff).toNat = msbIndex (0xffffffff : UInt32).toNat ∧
      msbIndexGeneric 0xffffffff = msbIndex (0xffffffff : UInt32).toNat ∧
      msbIndex64 0x100000000 = msbIndex (0x100000000 : UInt64).toNat ∧
      msbIndexIntN 0x100000000 = msbIndex (0x100000000 : UInt64).toNat :=
  msb_index_agree 0xffffffff 0x100000000 (by decide) (by decide)

end Results

end Oseer
