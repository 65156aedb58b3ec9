import Mathlib.Order.Basic
import Mathlib.Tactic.SplitIfs

/-!
# Times

The functions of `lib/types.h` on `time_t`.  A time stands for a number of
nanoseconds, its value, but `time_cmp` compares the two fields one after the
other, and `time_add` leaves a full second of nanoseconds as it is.  The fields
are taken as unbounded.
-/

namespace Oseer

/-- Nanoseconds in a second. -/
abbrev N1E9 : Int := 1000000000

/-- `time_t`. -/
structure Time where
  sec : Int
  nsec : Int
deriving DecidableEq, Repr

namespace Time

/-- `time_add`. -/
def timeAdd (a b : Time) : Time :=
  if N1E9 < a.nsec + b.nsec then ⟨a.sec + b.sec + 1, a.nsec + b.nsec - N1E9⟩
  else ⟨a.sec + b.sec, a.nsec + b.nsec⟩

/-- `time_sub`. -/
def timeSub (a b : Time) : Time :=
  if b.nsec ≤ a.nsec then ⟨a.sec - b.sec, a.nsec - b.nsec⟩
  else ⟨a.sec - (b.sec + 1), a.nsec + (N1E9 - b.nsec)⟩

/-- `time_cmp`. -/
def timeCmp (a b : Time) : Int :=
  if a.sec < b.sec then -1
  else if b.sec < a.sec then 1
  else if a.nsec < b.nsec then -1
  else if b.nsec < a.nsec then 1
  else 0

/-- The nanoseconds that a time stands for. -/
def value (time : Time) : Int := time.sec * N1E9 + time.nsec

variable {a b c : Time}

theorem timeAdd_value : (timeAdd a b).value = a.value + b.value := by
  unfold timeAdd value
  split_ifs <;> simp only [N1E9] at * <;> omega

theorem timeSub_value : (timeSub a b).value = a.value - b.value := by
  unfold timeSub value
  split_ifs <;> simp only [N1E9] at * <;> omega

theorem timeCmp_le_zero :
    timeCmp a b ≤ 0 ↔ a.sec < b.sec ∨ a.sec = b.sec ∧ a.nsec ≤ b.nsec := by
  unfold timeCmp
  split_ifs <;> omega

theorem timeCmp_neg :
    timeCmp a b < 0 ↔ a.sec < b.sec ∨ a.sec = b.sec ∧ a.nsec < b.nsec := by
  unfold timeCmp
  split_ifs <;> omega

theorem timeCmp_pos : 0 < timeCmp a b ↔ timeCmp b a < 0 := by
  rw [timeCmp_neg]
  unfold timeCmp
  split_ifs <;> omega

theorem timeCmp_eq_zero : timeCmp a b = 0 ↔ a = b := by
  have fields : a = b ↔ a.sec = b.sec ∧ a.nsec = b.nsec := by
    rcases a with ⟨aSec, aNsec⟩
    rcases b with ⟨bSec, bNsec⟩
    exact Time.mk.injEq .. ▸ Iff.rfl
  rw [fields]
  unfold timeCmp
  constructor
  · intro zero
    split_ifs at zero <;> omega
  · rintro ⟨sameSec, sameNsec⟩
    rw [if_neg (by omega), if_neg (by omega), if_neg (by omega), if_neg (by omega)]

theorem timeCmp_le_refl (a : Time) : timeCmp a a ≤ 0 := by
  rw [timeCmp_le_zero]
  omega

theorem timeCmp_le_trans (first : timeCmp a b ≤ 0) (second : timeCmp b c ≤ 0) :
    timeCmp a c ≤ 0 := by
  rw [timeCmp_le_zero] at first second ⊢
  omega

theorem timeCmp_le_total (a b : Time) : timeCmp a b ≤ 0 ∨ timeCmp b a < 0 := by
  rw [timeCmp_le_zero, timeCmp_neg]
  omega

section Periods

variable {period limit time : Time}

/-- The order of `time_cmp`. -/
instance : Preorder Time where
  le a b := timeCmp a b ≤ 0
  le_refl := timeCmp_le_refl
  le_trans _ _ _ := timeCmp_le_trans

theorem le_iff : a ≤ b ↔ timeCmp a b ≤ 0 := Iff.rfl

theorem not_le_iff : ¬ a ≤ b ↔ 0 < timeCmp a b := Int.not_le

/-- The period is positive for `time_cmp`. -/
def Positive (period : Time) : Prop := timeCmp ⟨0, 0⟩ period < 0

instance (period : Time) : Decidable (Positive period) := inferInstanceAs (Decidable (_ < _))

theorem positive_iff : Positive period ↔ 0 < period.sec ∨ period.sec = 0 ∧ 0 < period.nsec := by
  unfold Positive
  rw [timeCmp_neg]
  dsimp only
  omega

theorem lt_timeAdd (positive : Positive period) (time : Time) :
    timeCmp time (timeAdd time period) < 0 := by
  rw [timeCmp_neg]
  rw [positive_iff] at positive
  unfold timeAdd
  split_ifs <;> simp only [N1E9] at * <;> omega

/-- A bound on how often the period can be added until the limit is passed. -/
def rank (period limit time : Time) : Nat :=
  (limit.sec + 1 - time.sec).toNat * (N1E9.toNat + period.nsec.natAbs) +
    (N1E9 - time.nsec).toNat

theorem rank_lt (positive : Positive period) (due : timeCmp time limit ≤ 0) :
    rank period limit (timeAdd time period) < rank period limit time := by
  have notPast : time.sec ≤ limit.sec := by
    rw [timeCmp_le_zero] at due
    omega
  have forward : ∀ sec, time.sec < sec →
      (limit.sec + 1 - sec).toNat + 1 ≤ (limit.sec + 1 - time.sec).toNat := by
    omega
  have whole : ∀ sec, time.sec < sec →
      (limit.sec + 1 - sec).toNat * (N1E9.toNat + period.nsec.natAbs) +
          (N1E9.toNat + period.nsec.natAbs) ≤
        (limit.sec + 1 - time.sec).toNat * (N1E9.toNat + period.nsec.natAbs) := by
    intro sec later
    have scaled := Nat.mul_le_mul_right (N1E9.toNat + period.nsec.natAbs) (forward sec later)
    rwa [Nat.succ_mul] at scaled
  rw [positive_iff] at positive
  unfold timeAdd rank
  split_ifs with carries
  · have second := whole (time.sec + period.sec + 1) (by omega)
    simp only [N1E9] at *
    omega
  · by_cases same : period.sec = 0
    · rw [same, Int.add_zero]
      simp only [N1E9] at *
      omega
    · have second := whole (time.sec + period.sec) (by omega)
      simp only [N1E9] at *
      omega

end Periods

end Time

end Oseer
