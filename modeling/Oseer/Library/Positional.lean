import Mathlib.Data.Nat.Digits.Lemmas

/-!
# Numbers in positional notation

A numeral is a list of digits, the least significant one first, as a loop that divides finds them.
Texts have the digits the other way round, and are read back from the left.
-/

namespace Positional

/-- The digits of a number, with no superfluous one at the end. -/
structure Numeral (radix number : Nat) (digits : List Nat) : Prop where
  small : ∀ digit ∈ digits, digit < radix
  value : Nat.ofDigits radix digits = number
  nonempty : digits ≠ []
  lead : digits.getLast? = some 0 → digits = [0]

/-- Read a text from the left, where `digit` gives the value of a letter. -/
def readFrom {α : Type*} (digit : α → Option Nat) (radix : Nat) : Nat → List α → Option Nat
  | value, [] => some value
  | value, letter :: text => do
      let next ← digit letter
      if next < radix then readFrom digit radix (value * radix + next) text else none

/-- The number that a text stands for. -/
def read {α : Type*} (digit : α → Option Nat) (radix : Nat) (text : List α) : Option Nat :=
  if text = [] then none else readFrom digit radix 0 text

variable {radix number count : Nat} {digits : List Nat}

namespace Numeral

theorem single (small : number < radix) : Numeral radix number [number] where
  small digit mem := by rwa [List.mem_singleton.mp mem]
  value := Nat.ofDigits_singleton
  nonempty := List.cons_ne_nil _ _
  lead zero := by simpa using zero

/-- The last digit goes in front of those of the quotient. -/
theorem cons (positive : 0 < radix) (more : number / radix ≠ 0)
    (rest : Numeral radix (number / radix) digits) :
    Numeral radix number (number % radix :: digits) where
  small digit mem := by
    rcases List.mem_cons.mp mem with rfl | inRest
    · exact Nat.mod_lt _ positive
    · exact rest.small digit inRest
  value := by
    rw [Nat.ofDigits_cons, rest.value]
    exact Nat.mod_add_div number radix
  nonempty := List.cons_ne_nil _ _
  lead zero := by
    have value := rest.value
    obtain ⟨digit, digits, rfl⟩ := List.exists_cons_of_ne_nil rest.nonempty
    rw [List.getLast?_cons_cons] at zero
    rw [rest.lead zero] at value
    exact absurd (value.symm.trans Nat.ofDigits_singleton) more

/-- A number below a power of the radix has no more digits than the exponent. -/
theorem length_le (numeral : Numeral radix number digits) (large : 1 < radix)
    (fits : number < radix ^ count) (positive : 0 < count) : digits.length ≤ count := by
  by_cases zero : digits.getLast? = some 0
  · rw [numeral.lead zero]
    exact positive
  · have last : ∀ nonempty : digits ≠ [], digits.getLast nonempty ≠ 0 := by
      intro nonempty isZero
      rw [List.getLast?_eq_some_getLast nonempty, isZero] at zero
      exact zero rfl
    rw [← Nat.digits_ofDigits radix large digits numeral.small last, numeral.value]
    exact (Nat.digits_length_le_iff large number).mpr fits

end Numeral

section Read

variable {α : Type*} {digit : α → Option Nat} {letter : Nat → α} {value : Nat}

theorem readFrom_append (text : List α) (last : α) :
    readFrom digit radix value (text ++ [last]) =
      (readFrom digit radix value text).bind fun value => readFrom digit radix value [last] := by
  induction text generalizing value with
  | nil => rfl
  | cons first text ih =>
      rw [List.cons_append, readFrom, readFrom]
      cases digit first with
      | none => rfl
      | some next =>
          dsimp only [Option.bind_eq_bind, Option.bind_some]
          split
          · exact ih
          · rfl

/-- What is written with the least significant digit at the right is read back. -/
theorem readFrom_reverse (shown : ∀ next < radix, digit (letter next) = some next)
    (small : ∀ next ∈ digits, next < radix) :
    readFrom digit radix 0 (digits.map letter).reverse = some (Nat.ofDigits radix digits) := by
  induction digits with
  | nil => rfl
  | cons next digits ih =>
      have nextSmall := small next List.mem_cons_self
      rw [List.map_cons, List.reverse_cons, readFrom_append,
        ih fun other mem => small other (List.mem_cons_of_mem _ mem), Option.bind_some, readFrom,
        shown next nextSmall]
      dsimp only [Option.bind_eq_bind, Option.bind_some]
      rw [if_pos nextSmall, readFrom, Nat.ofDigits_cons]
      congr 1
      ring

theorem read_reverse (shown : ∀ next < radix, digit (letter next) = some next)
    (small : ∀ next ∈ digits, next < radix) (nonempty : digits ≠ []) :
    read digit radix (digits.map letter).reverse = some (Nat.ofDigits radix digits) := by
  rw [read, if_neg (by simpa using nonempty)]
  exact readFrom_reverse shown small

end Read

end Positional
