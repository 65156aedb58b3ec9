import Mathlib.Logic.Function.Basic

/-!
# Cells on a stack

A stack that grows downwards, with cells of several widths.  A cell is kept at its lowest address,
and an entry is its width with its value.
-/

namespace CellStack

/-- The lowest address in use, and the cells. -/
structure Stack where
  top : Nat
  cell : Nat → Nat

/-- The cells stand from the address upwards. -/
def CellsAt (cell : Nat → Nat) : Nat → List (Nat × Nat) → Prop
  | _, [] => True
  | address, entry :: entries => cell address = entry.2 ∧ CellsAt cell (address + entry.1) entries

/-- The number of bytes of the cells. -/
def extent : List (Nat × Nat) → Nat
  | [] => 0
  | entry :: entries => entry.1 + extent entries

def Stack.push (entry : Nat × Nat) (stack : Stack) : Stack where
  top := stack.top - entry.1
  cell := Function.update stack.cell (stack.top - entry.1) entry.2

/-- The entries are pushed one after the other. -/
def Stack.pushAll : List (Nat × Nat) → Stack → Stack
  | [], stack => stack
  | entry :: entries, stack => pushAll entries (stack.push entry)

/-- No cell is empty. -/
def Solid (entries : List (Nat × Nat)) : Prop := ∀ entry ∈ entries, 0 < entry.1

variable {stack : Stack} {entry : Nat × Nat} {entries entries' : List (Nat × Nat)}
  {cell cell' : Nat → Nat} {address : Nat}

@[simp]
theorem extent_nil : extent [] = 0 := rfl

@[simp]
theorem extent_cons : extent (entry :: entries) = entry.1 + extent entries := rfl

@[simp]
theorem extent_append : extent (entries ++ entries') = extent entries + extent entries' := by
  induction entries with
  | nil => simp
  | cons entry entries ih => simp [ih, Nat.add_assoc]

@[simp]
theorem extent_reverse : extent entries.reverse = extent entries := by
  induction entries with
  | nil => rfl
  | cons entry entries ih => simp [ih, Nat.add_comm]

theorem cellsAt_append : CellsAt cell address (entries ++ entries') ↔
    CellsAt cell address entries ∧ CellsAt cell (address + extent entries) entries' := by
  induction entries generalizing address with
  | nil => simp [CellsAt]
  | cons entry entries ih =>
      rw [List.cons_append, CellsAt, CellsAt, ih, extent_cons, and_assoc, Nat.add_assoc]

/-- The cells do not change with memory elsewhere. -/
theorem CellsAt.congr (held : CellsAt cell address entries) (solid : Solid entries)
    (same : ∀ other, address ≤ other → other < address + extent entries →
      cell' other = cell other) : CellsAt cell' address entries := by
  induction entries generalizing address with
  | nil => trivial
  | cons entry entries ih =>
      have positive := solid entry List.mem_cons_self
      rw [extent_cons] at same
      constructor
      · rw [same address (by omega) (by omega)]
        exact held.1
      · apply ih held.2 fun entry mem => solid entry (.tail _ mem)
        intro other low high
        exact same other (by omega) (by omega)

theorem pushAll_append :
    stack.pushAll (entries ++ entries') = (stack.pushAll entries).pushAll entries' := by
  induction entries generalizing stack with
  | nil => rfl
  | cons entry entries ih => exact ih

theorem pushAll_top (fits : extent entries ≤ stack.top) :
    (stack.pushAll entries).top = stack.top - extent entries := by
  induction entries generalizing stack with
  | nil => rfl
  | cons entry entries ih =>
      rw [extent_cons] at fits ⊢
      rw [Stack.pushAll, ih]
      · simp only [Stack.push]
        omega
      · simp only [Stack.push]
        omega

theorem pushAll_other (fits : extent entries ≤ stack.top) (solid : Solid entries)
    (outside : address < stack.top - extent entries ∨ stack.top ≤ address) :
    (stack.pushAll entries).cell address = stack.cell address := by
  induction entries generalizing stack with
  | nil => rfl
  | cons entry entries ih =>
      have positive := solid entry List.mem_cons_self
      rw [extent_cons] at fits outside
      rw [Stack.pushAll, ih]
      · exact Function.update_of_ne (by omega) ..
      · simp only [Stack.push]
        omega
      · exact fun entry mem => solid entry (.tail _ mem)
      · simp only [Stack.push]
        omega

/-- What was pushed last stands lowest. -/
theorem pushAll_cellsAt (fits : extent entries ≤ stack.top) (solid : Solid entries) :
    CellsAt (stack.pushAll entries).cell (stack.top - extent entries) entries.reverse := by
  induction entries generalizing stack with
  | nil => trivial
  | cons entry entries ih =>
      have positive := solid entry List.mem_cons_self
      have rest : Solid entries := fun entry mem => solid entry (.tail _ mem)
      rw [extent_cons] at fits ⊢
      have fitsRest : extent entries ≤ (stack.push entry).top := by
        simp only [Stack.push]
        omega
      have lower : stack.top - (entry.1 + extent entries) =
          (stack.push entry).top - extent entries := by
        simp only [Stack.push]
        omega
      rw [List.reverse_cons, cellsAt_append, lower]
      refine ⟨ih fitsRest rest, ?_, trivial⟩
      have place : (stack.push entry).top - extent entries + extent entries.reverse =
          stack.top - entry.1 := by
        rw [extent_reverse]
        simp only [Stack.push]
        omega
      rw [place, Stack.pushAll, pushAll_other fitsRest rest (by simp [Stack.push])]
      exact Function.update_self ..

end CellStack
