import Mathlib.Algebra.GroupWithZero.Nat

/-!
# Scrolling terminals

A screen of cells with a cursor in it.  Printing goes on with the next line
after the last column, and the lines move up when there is no next line.  The
cursor is on the screen because its coordinates are bounded by their types.
-/

/-- A screen with a cursor. -/
structure Terminal (columns lines : Nat) (α : Type) where
  cells : Fin lines → Fin columns → α
  column : Fin columns
  row : Fin lines

namespace Terminal

variable {columns lines : Nat} [NeZero columns] [NeZero lines] {α : Type}

/-- The screen with one cell changed. -/
def write (cell : α) (terminal : Terminal columns lines α) : Terminal columns lines α :=
  { terminal with cells := fun row column =>
      if row = terminal.row ∧ column = terminal.column then cell else terminal.cells row column }

/-- The start of the next line. -/
def newLine (blank : α) (terminal : Terminal columns lines α) : Terminal columns lines α :=
  if below : terminal.row + 1 < lines then
    { terminal with column := 0, row := ⟨terminal.row + 1, below⟩ }
  else
    { terminal with
      column := 0
      cells := fun row column =>
        if below : row + 1 < lines then terminal.cells ⟨row + 1, below⟩ column else blank }

/-- A column of this line, or the start of the next one. -/
def moveTo (column : Nat) (blank : α) (terminal : Terminal columns lines α) :
    Terminal columns lines α :=
  if inside : column < columns then { terminal with column := ⟨column, inside⟩ }
  else terminal.newLine blank

/-- A character appears at the cursor. -/
def put (cell blank : α) (terminal : Terminal columns lines α) : Terminal columns lines α :=
  (terminal.write cell).moveTo (terminal.column + 1) blank

/-- The next tabulator stop. -/
def tab (stop : Nat) (blank : α) (terminal : Terminal columns lines α) :
    Terminal columns lines α :=
  terminal.moveTo ((terminal.column / stop + 1) * stop) blank

/-- The previous cell of the line becomes blank. -/
def backspace (blank : α) (terminal : Terminal columns lines α) : Terminal columns lines α :=
  if 0 < terminal.column.val then
    write blank { terminal with
      column := ⟨terminal.column - 1, Nat.lt_of_le_of_lt (Nat.sub_le ..) terminal.column.isLt⟩ }
  else terminal

/-- The start of the line. -/
def carriageReturn (terminal : Terminal columns lines α) : Terminal columns lines α :=
  { terminal with column := 0 }

/-- A blank screen with the cursor at home. -/
def clear (blank : α) : Terminal columns lines α where
  cells _ _ := blank
  column := 0
  row := 0

end Terminal
