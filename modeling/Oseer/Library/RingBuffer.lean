import Mathlib.Data.List.Basic
import Mathlib.Logic.Function.Basic

/-!
# Ring buffers

A queue in an array of fixed size.  Two indexes tell where its oldest element
is and where the next one goes, and a counter tells how many there are, so
that full and empty buffers with the same indexes are told apart.  The queue
that a buffer stands for is the list of its elements, the oldest first.
-/

namespace RingBuffer

variable {α : Type*} {capacity first last size index : Nat} {cells : Nat → α} {value : α}

/-- The queue that a buffer stands for. -/
def contents (capacity : Nat) (cells : Nat → α) (first size : Nat) : List α :=
  (List.range size).map fun i => cells ((first + i) % capacity)

/-- The indexes and the counter belong together. -/
structure Valid (capacity first last size : Nat) : Prop where
  first_lt : first < capacity
  size_le : size ≤ capacity
  meet : (first + size) % capacity = last

/-- The bounded queue that drops its oldest element on overflow. -/
def pushNewest (capacity : Nat) (queue : List α) (value : α) : List α :=
  if queue.length < capacity then queue ++ [value] else queue.tail ++ [value]

@[simp]
theorem contents_length : (contents capacity cells first size).length = size := by
  simp [contents]

@[simp]
theorem contents_zero : contents capacity cells first 0 = [] := rfl

theorem contents_succ : contents capacity cells first (size + 1) =
    cells (first % capacity) :: contents capacity cells ((first + 1) % capacity) size := by
  unfold contents
  rw [List.range_succ_eq_map, List.map_cons, List.map_map, Nat.add_zero]
  congr 1
  apply List.map_congr_left
  intro i _
  rw [Function.comp_apply, Nat.mod_add_mod]
  congr 2
  omega

theorem contents_concat : contents capacity cells first (size + 1) =
    contents capacity cells first size ++ [cells ((first + size) % capacity)] := by
  unfold contents
  rw [List.range_succ, List.map_append, List.map_singleton]

theorem place_ne {i j : Nat} (less : i < j) (near : j < i + capacity) :
    (first + i) % capacity ≠ (first + j) % capacity := by
  intro same
  have divides : (j - i) % capacity = 0 := by
    have := Nat.sub_mod_eq_zero_of_mod_eq same.symm
    rwa [Nat.add_sub_add_left] at this
  rw [Nat.mod_eq_of_lt (by omega)] at divides
  omega

theorem contents_store (room : size < capacity) :
    contents capacity (Function.update cells ((first + size) % capacity) value) first size =
      contents capacity cells first size := by
  unfold contents
  apply List.map_congr_left
  intro i inside
  have less := List.mem_range.mp inside
  exact Function.update_of_ne (place_ne less (by omega)) ..

theorem Valid.empty (positive : 0 < capacity) : Valid capacity 0 0 0 :=
  ⟨positive, Nat.zero_le _, Nat.mod_eq_of_lt positive⟩

theorem Valid.last_lt (valid : Valid capacity first last size) : last < capacity := by
  have positive : 0 < capacity := Nat.zero_lt_of_lt valid.first_lt
  exact valid.meet ▸ Nat.mod_lt _ positive

theorem next_eq (less : index < capacity) :
    (if index + 1 < capacity then index + 1 else 0) = (index + 1) % capacity := by
  split
  · rw [Nat.mod_eq_of_lt ‹_›]
  · rw [show index + 1 = capacity by omega, Nat.mod_self]

section Operations

variable (valid : Valid capacity first last size)
include valid

theorem Valid.push (cells : Nat → α) (value : α) (room : size < capacity) :
    Valid capacity first ((last + 1) % capacity) (size + 1) ∧
      contents capacity (Function.update cells last value) first (size + 1) =
        pushNewest capacity (contents capacity cells first size) value := by
  refine ⟨⟨valid.first_lt, room, ?_⟩, ?_⟩
  · rw [← valid.meet, Nat.mod_add_mod, Nat.add_assoc]
  · rw [contents_concat, ← valid.meet, contents_store room, Function.update_self, pushNewest,
      contents_length, if_pos room]

/-- An element is put in a full buffer, in the place of the oldest one. -/
theorem Valid.overwrite (cells : Nat → α) (value : α) (full : capacity ≤ size) :
    Valid capacity ((first + 1) % capacity) ((last + 1) % capacity) size ∧
      contents capacity (Function.update cells last value) ((first + 1) % capacity) size =
        pushNewest capacity (contents capacity cells first size) value := by
  have positive : 0 < capacity := Nat.zero_lt_of_lt valid.first_lt
  have isFull : size = capacity := Nat.le_antisymm valid.size_le full
  refine ⟨⟨Nat.mod_lt _ positive, valid.size_le, ?_⟩, ?_⟩
  · rw [← valid.meet, Nat.mod_add_mod, Nat.mod_add_mod, Nat.add_right_comm]
  · obtain ⟨less, rfl⟩ : ∃ less, size = less + 1 := ⟨size - 1, by omega⟩
    have place : last = ((first + 1) % capacity + less) % capacity := by
      rw [← valid.meet, Nat.mod_add_mod, Nat.add_assoc, Nat.add_comm 1]
    rw [contents_concat, place, contents_store (by omega), Function.update_self, pushNewest,
      contents_length, if_neg (by omega), contents_succ, List.tail_cons]

/-- The oldest element is taken out. -/
theorem Valid.pop (cells : Nat → α) (some : 0 < size) :
    Valid capacity ((first + 1) % capacity) last (size - 1) ∧
      contents capacity cells first size =
        cells first :: contents capacity cells ((first + 1) % capacity) (size - 1) := by
  have positive : 0 < capacity := Nat.zero_lt_of_lt valid.first_lt
  have sizeLe := valid.size_le
  refine ⟨⟨Nat.mod_lt _ positive, by omega, ?_⟩, ?_⟩
  · rw [← valid.meet, Nat.mod_add_mod]
    congr 1
    omega
  · obtain ⟨less, rfl⟩ : ∃ less, size = less + 1 := ⟨size - 1, by omega⟩
    rw [contents_succ, Nat.mod_eq_of_lt valid.first_lt]
    rfl

end Operations

end RingBuffer
