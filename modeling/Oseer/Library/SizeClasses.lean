import Mathlib.Data.Nat.Bitwise
import Mathlib.Data.Nat.Log

/-!
# Size classes on two levels

Sizes are sorted into rows by their highest bit, and a row into `2 ^ bits` columns of equal
width.  A search for a size looks in the class of the size rounded up to the next column, and
in the classes behind it.
-/

namespace SizeClasses

/-- The row and the column of a size. -/
def place (bits size : Nat) : Nat × Nat :=
  (size.log2, size / 2 ^ (size.log2 - bits) - 2 ^ bits)

/-- The order in which classes are searched. -/
def Upto (first second : Nat × Nat) : Prop :=
  first.1 < second.1 ∨ first.1 = second.1 ∧ first.2 ≤ second.2

/-- The size that is looked for: the last one of a column, if the size is not its first. -/
def rounded (bits size : Nat) : Nat := size + (2 ^ (size.log2 - bits) - 1)

variable {bits size other : Nat}

section Columns

theorem log2_spec (positive : 0 < size) : 2 ^ size.log2 ≤ size ∧ size < 2 ^ (size.log2 + 1) :=
  ⟨Nat.log2_self_le positive.ne', Nat.lt_log2_self⟩

theorem log2_mono (positive : 0 < size) (le : size ≤ other) : size.log2 ≤ other.log2 := by
  have lower := (log2_spec positive).1
  apply (Nat.le_log2 (positive.trans_le le).ne').mpr
  exact lower.trans le

/-- A row has `2 ^ bits` columns. -/
theorem column_spec (positive : 0 < size) (wide : bits ≤ size.log2) :
    2 ^ bits ≤ size / 2 ^ (size.log2 - bits) ∧
      size / 2 ^ (size.log2 - bits) < 2 * 2 ^ bits := by
  obtain ⟨lower, upper⟩ := log2_spec positive
  have width : 2 ^ bits * 2 ^ (size.log2 - bits) = 2 ^ size.log2 := by
    rw [← Nat.pow_add, Nat.add_sub_cancel' wide]
  constructor
  · apply (Nat.le_div_iff_mul_le (Nat.two_pow_pos _)).mpr
    rw [width]
    exact lower
  · apply (Nat.div_lt_iff_lt_mul (Nat.two_pow_pos _)).mpr
    rw [Nat.mul_assoc, width, ← Nat.pow_succ']
    exact upper

theorem column_lt (positive : 0 < size) (wide : bits ≤ size.log2) :
    (place bits size).2 < 2 ^ bits := by
  have columns := column_spec positive wide
  unfold place
  dsimp only
  omega

theorem place_mono (positive : 0 < size) (le : size ≤ other) :
    Upto (place bits size) (place bits other) := by
  rcases (log2_mono positive le).lt_or_eq with less | same
  · exact .inl less
  · refine .inr ⟨same, ?_⟩
    unfold place
    dsimp only
    rw [← same]
    exact Nat.sub_le_sub_right (Nat.div_le_div_right le) _

end Columns

section Search

variable (positive : 0 < size) (positiveOther : 0 < other) (wide : bits ≤ size.log2)

include positive positiveOther wide

theorem columns_le (row : size.log2 = other.log2)
    (column : (place bits size).2 ≤ (place bits other).2) :
    size / 2 ^ (size.log2 - bits) * 2 ^ (size.log2 - bits) ≤ other := by
  have columns := column_spec positive wide
  have columns' := column_spec positiveOther (row ▸ wide)
  unfold place at column
  dsimp only at column
  rw [← row] at column columns'
  have quotients : size / 2 ^ (size.log2 - bits) ≤ other / 2 ^ (size.log2 - bits) := by omega
  exact (Nat.mul_le_mul_right _ quotients).trans (Nat.div_mul_le_self ..)

theorem le_of_upto (first : 2 ^ (size.log2 - bits) ∣ size)
    (upto : Upto (place bits size) (place bits other)) : size ≤ other := by
  rcases upto with row | ⟨row, column⟩
  · by_contra less
    exact absurd (log2_mono positiveOther (le_of_not_ge less)) (not_le.mpr row)
  · have reached := columns_le positive positiveOther wide row column
    rwa [Nat.div_mul_cancel first] at reached

/-- A size is not greater than the sizes from the class of its rounded size on. -/
theorem le_of_rounded_upto (upto : Upto (place bits (rounded bits size)) (place bits other)) :
    size ≤ other := by
  have atLeast : size ≤ rounded bits size := Nat.le_add_right ..
  have positive' : 0 < rounded bits size := positive.trans_le atLeast
  have wide' : bits ≤ (rounded bits size).log2 := wide.trans (log2_mono positive atLeast)
  rcases upto with row | ⟨row, column⟩
  · by_contra less
    have reached := log2_mono positiveOther ((le_of_not_ge less).trans atLeast)
    exact absurd reached (not_le.mpr row)
  apply le_trans _ (columns_le positive' positiveOther wide' row column)
  rcases (log2_mono positive atLeast).lt_or_eq with carry | same
  · -- the rounded size is at the beginning of the next row
    have width : 2 ^ bits * 2 ^ ((rounded bits size).log2 - bits) =
        2 ^ (rounded bits size).log2 := by
      rw [← Nat.pow_add, Nat.add_sub_cancel' wide']
    calc size ≤ 2 ^ (size.log2 + 1) := (log2_spec positive).2.le
      _ ≤ 2 ^ (rounded bits size).log2 := Nat.pow_le_pow_right (by decide) carry
      _ = 2 ^ bits * 2 ^ ((rounded bits size).log2 - bits) := width.symm
      _ ≤ _ := Nat.mul_le_mul_right _ (column_spec positive' wide').1
  · rw [← same]
    unfold rounded
    have positiveStep : 0 < 2 ^ (size.log2 - bits) := Nat.two_pow_pos _
    generalize 2 ^ (size.log2 - bits) = step at positiveStep
    have split := Nat.div_add_mod' (size + (step - 1)) step
    have rest := Nat.mod_lt (size + (step - 1)) positiveStep
    omega

end Search

end SizeClasses
