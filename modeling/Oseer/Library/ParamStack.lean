import Oseer.Library.WordMemory

/-!
# Parameters on a stack

A caller pushes its arguments as untyped words, and the callee reads them through a
pointer that it moves on by hand.  Each word that is read is paired with what the callee
takes it for, and compared with what the caller meant.
-/

namespace ParamStack

open WordMemory

/-- What a callee does with the pointer to its parameters. -/
inductive Move (κ : Type)
  /-- The word at the pointer is read, as the given parameter. -/
  | word (param : κ)
  /-- The pointer is moved on by a number of bytes. -/
  | advance (bytes : Nat)

variable {κ : Type} {memory : Memory} {address value pointer : Nat}

/-- The words that are read from the pointer on. -/
def read (memory : Memory) : List (Move κ) → Nat → List (κ × Nat)
  | [], _ => []
  | .word param :: rest, pointer => (param, memory pointer) :: read memory rest pointer
  | .advance bytes :: rest, pointer => read memory rest (pointer + bytes)

/-- Parameters of one word each are read in order. -/
def inOrder : List κ → List (Move κ)
  | [] => []
  | [param] => [.word param]
  | param :: next :: rest => .word param :: .advance 4 :: inOrder (next :: rest)

/-- Words are pushed so that the first one is at the address. -/
def push : Nat → List Nat → Memory → Memory
  | _, [], memory => memory
  | address, word :: words, memory => (push (address + 4) words memory).write address word

theorem read_write_below (below : address < pointer) (moves : List (Move κ)) :
    read (memory.write address value) moves pointer = read memory moves pointer := by
  induction moves generalizing pointer with
  | nil => rfl
  | cons move rest ih =>
      cases move with
      | word param =>
          unfold read
          rw [write_other (Nat.ne_of_gt below), ih below]
      | advance bytes =>
          unfold read
          exact ih (Nat.lt_add_right bytes below)

/-- Parameters that are read in order are the words that were pushed. -/
theorem read_push (params : List κ) (words : List Nat) (enough : params.length ≤ words.length)
    (address : Nat) :
    read (push address words memory) (inOrder params) address = params.zip words := by
  induction params generalizing words address with
  | nil => rfl
  | cons param rest ih =>
      cases words with
      | nil => cases enough
      | cons word words =>
          have shorter : rest.length ≤ words.length := Nat.le_of_succ_le_succ enough
          have below : address < address + 4 := by omega
          cases rest with
          | nil =>
              unfold inOrder push
              simp [read]
          | cons next rest =>
              unfold inOrder push
              unfold read read
              rw [write_same, read_write_below below, ih words shorter]
              rfl

theorem read_prefix {done moves : List (Move κ)} (leaves : done <+: moves) :
    read memory done pointer <+: read memory moves pointer := by
  obtain ⟨rest, rfl⟩ := leaves
  induction done generalizing pointer with
  | nil => exact List.nil_prefix
  | cons move done ih =>
      cases move with
      | word param => exact (List.prefix_cons_inj _).mpr ih
      | advance bytes => exact ih

theorem read_append_advance (moves : List (Move κ)) (bytes : Nat) :
    read memory (moves ++ [.advance bytes]) pointer = read memory moves pointer := by
  induction moves generalizing pointer with
  | nil => rfl
  | cons move rest ih =>
      cases move with
      | word param => exact congrArg _ ih
      | advance bytes => exact ih

end ParamStack
