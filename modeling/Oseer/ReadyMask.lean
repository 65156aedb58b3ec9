import Mathlib.Data.Nat.Bitwise

/-!
# The mask of non-empty ready lists

The functions of `kernel/thread.c` on `rdy_mask`.  The mask has one bit for
each priority level.  The source puts `sizeof (word_t)`, that is four, levels
into each word, so only the low four bits of a word are used.
-/

namespace Oseer

/-- `PRIO_LEVELS`. -/
def PRIO_LEVELS : Nat := 64

/-- `sizeof (word_t)`. -/
def sizeofWord : Nat := 4

/-- `RDY_MASKS`. -/
def RDY_MASKS : Nat := (PRIO_LEVELS + sizeofWord - 1) / sizeofWord

/-- `msb_index`: the index of the most significant bit of a non-zero word. -/
def msbIndex (word : Nat) : Nat := word.log2

namespace ReadyMask

variable {mask : Nat → Nat} {levels : Nat → Prop} {index count : Nat}

/-- The loop of `kthread_ready_list_highest` over the words below `count`. -/
def highestBelow (mask : Nat → Nat) : Nat → Int
  | 0 => -1
  | i + 1 =>
      if mask i ≠ 0 then ((i * sizeofWord + msbIndex (mask i) : Nat) : Int)
      else highestBelow mask i

/-- `kthread_ready_list_highest`. -/
def kthreadReadyListHighest (mask : Nat → Nat) : Int :=
  highestBelow mask RDY_MASKS

/-- `kthread_ready_list_set_not_empty`. -/
def kthreadReadyListSetNotEmpty (index : Nat) (mask : Nat → Nat) : Nat → Nat :=
  Function.update mask (index / sizeofWord)
    (mask (index / sizeofWord) ||| 1 <<< (index % sizeofWord))

/-- `kthread_ready_list_set_empty`. -/
def kthreadReadyListSetEmpty (index : Nat) (mask : Nat → Nat) : Nat → Nat :=
  Function.update mask (index / sizeofWord)
    (mask (index / sizeofWord) &&& (0xffffffff ^^^ 1 <<< (index % sizeofWord)))

/-- The mask has exactly the bits of the given levels. -/
structure Shows (mask : Nat → Nat) (levels : Nat → Prop) : Prop where
  bit : ∀ level < PRIO_LEVELS,
    (mask (level / sizeofWord)).testBit (level % sizeofWord) = true ↔ levels level
  small : ∀ i < RDY_MASKS, mask i < 2 ^ sizeofWord

theorem Shows.congr {levels' : Nat → Prop} (shows : Shows mask levels)
    (same : ∀ level < PRIO_LEVELS, levels' level ↔ levels level) : Shows mask levels' where
  bit := fun level bound => (shows.bit level bound).trans (same level bound).symm
  small := shows.small

theorem shows_zero : Shows (fun _ => 0) fun _ => False where
  bit := by simp
  small := by simp [sizeofWord]

private theorem testBit_one_shiftLeft (i j : Nat) :
    (1 <<< i).testBit j = decide (i = j) := by
  rw [Nat.one_shiftLeft, Nat.testBit_two_pow]

private theorem level_ext {level : Nat} (word : level / sizeofWord = index / sizeofWord) :
    index % sizeofWord = level % sizeofWord ↔ level = index := by
  simp only [sizeofWord] at *
  omega

/-- Setting the bit of a level adds the level. -/
theorem Shows.setNotEmpty (shows : Shows mask levels) (index : Nat) :
    Shows (kthreadReadyListSetNotEmpty index mask)
      fun level => level = index ∨ levels level where
  bit := by
    intro level bound
    unfold kthreadReadyListSetNotEmpty
    by_cases word : level / sizeofWord = index / sizeofWord
    · rw [word, Function.update_self, Nat.testBit_or, testBit_one_shiftLeft,
        Bool.or_eq_true, decide_eq_true_eq, level_ext word, ← word, shows.bit level bound]
      exact or_comm
    · have different : level ≠ index := fun same => word (by rw [same])
      rw [Function.update_of_ne word, shows.bit level bound]
      simp [different]
  small := by
    intro i bound
    unfold kthreadReadyListSetNotEmpty
    by_cases word : i = index / sizeofWord
    · subst word
      rw [Function.update_self]
      apply Nat.or_lt_two_pow (shows.small _ bound)
      rw [Nat.one_shiftLeft]
      exact Nat.pow_lt_pow_right (by decide) (Nat.mod_lt _ (by decide))
    · rw [Function.update_of_ne word]
      exact shows.small i bound

/-- Clearing the bit of a level removes the level. -/
theorem Shows.setEmpty (shows : Shows mask levels) (index : Nat) :
    Shows (kthreadReadyListSetEmpty index mask)
      fun level => level ≠ index ∧ levels level where
  bit := by
    intro level bound
    unfold kthreadReadyListSetEmpty
    by_cases word : level / sizeofWord = index / sizeofWord
    · have inWord : (0xffffffff : Nat).testBit (level % sizeofWord) = true := by
        have ones : (0xffffffff : Nat) = 2 ^ 32 - 1 := rfl
        rw [ones, Nat.testBit_two_pow_sub_one, decide_eq_true_eq]
        exact (Nat.mod_lt _ (by decide)).trans (by decide)
      rw [word, Function.update_self, Nat.testBit_and, Nat.testBit_xor,
        testBit_one_shiftLeft, inWord, ← word]
      simp only [Bool.true_bne, Bool.and_eq_true, Bool.not_eq_eq_eq_not, Bool.not_true,
        decide_eq_false_iff_not, level_ext word, shows.bit level bound]
      exact and_comm
    · have different : level ≠ index := fun same => word (by rw [same])
      rw [Function.update_of_ne word, shows.bit level bound]
      simp [different]
  small := by
    intro i bound
    unfold kthreadReadyListSetEmpty
    by_cases word : i = index / sizeofWord
    · subst word
      rw [Function.update_self]
      exact Nat.and_le_left.trans_lt (shows.small _ bound)
    · rw [Function.update_of_ne word]
      exact shows.small i bound

/-- The loop finds the greatest level of the words it has seen. -/
theorem Shows.highestBelow (shows : Shows mask levels) (bound : count ≤ RDY_MASKS) :
    (ReadyMask.highestBelow mask count = -1 ∧
        ∀ level < count * sizeofWord, ¬ levels level) ∨
      ∃ level < count * sizeofWord, ReadyMask.highestBelow mask count = level ∧
        levels level ∧ ∀ other < count * sizeofWord, level < other → ¬ levels other := by
  induction count with
  | zero => exact .inl ⟨rfl, by simp⟩
  | succ i ih =>
      have inside : ∀ level < (i + 1) * sizeofWord, level < PRIO_LEVELS := by
        intro level below
        simp only [RDY_MASKS, PRIO_LEVELS, sizeofWord] at *
        omega
      have wordOf : ∀ level, i * sizeofWord ≤ level → level < (i + 1) * sizeofWord →
          level / sizeofWord = i := by
        intro level above below
        simp only [sizeofWord] at *
        omega
      unfold ReadyMask.highestBelow
      by_cases empty : mask i = 0
      · -- no level of this word
        rw [if_neg (by simp [empty])]
        have none : ∀ level, i * sizeofWord ≤ level → level < (i + 1) * sizeofWord →
            ¬ levels level := by
          intro level above below
          rw [← shows.bit level (inside level below), wordOf level above below, empty]
          simp
        rcases ih (by omega) with ⟨result, noLevel⟩ | ⟨level, below, result, holds, greatest⟩
        · refine .inl ⟨result, fun level below => ?_⟩
          by_cases above : i * sizeofWord ≤ level
          · exact none level above below
          · exact noLevel level (by omega)
        · refine .inr ⟨level, ?_, result, holds, fun other otherBelow greater => ?_⟩
          · simp only [sizeofWord] at *
            omega
          · by_cases above : i * sizeofWord ≤ other
            · exact none other above otherBelow
            · exact greatest other (by omega) greater
      · rw [if_pos empty]
        refine .inr ⟨i * sizeofWord + msbIndex (mask i), ?_, rfl, ?_, ?_⟩
        all_goals have top : msbIndex (mask i) < sizeofWord :=
          (Nat.log2_lt empty).mpr (shows.small i (by omega))
        · simp only [sizeofWord] at *
          omega
        · rw [← shows.bit _ (inside _ (by simp only [sizeofWord] at *; omega)),
            wordOf _ (by omega) (by simp only [sizeofWord] at *; omega)]
          have low : (i * sizeofWord + msbIndex (mask i)) % sizeofWord =
              msbIndex (mask i) := by
            simp only [sizeofWord] at *
            omega
          rw [low, msbIndex, Nat.testBit_log2 empty]
        · intro other below greater holds
          rw [← shows.bit other (inside other below),
            wordOf other (by omega) below] at holds
          have notBelow : mask i < 2 ^ (other % sizeofWord) := by
            refine (Nat.log2_lt empty).mp ?_
            have place := wordOf other (by omega) below
            simp only [sizeofWord, msbIndex] at *
            omega
          rw [Nat.testBit_lt_two_pow notBelow] at holds
          exact absurd holds (by simp)

theorem Shows.highest (shows : Shows mask levels) :
    (kthreadReadyListHighest mask = -1 ∧ ∀ level < PRIO_LEVELS, ¬ levels level) ∨
      ∃ level < PRIO_LEVELS, kthreadReadyListHighest mask = level ∧ levels level ∧
        ∀ other < PRIO_LEVELS, level < other → ¬ levels other :=
  shows.highestBelow (Nat.le_refl RDY_MASKS)

end ReadyMask

end Oseer
