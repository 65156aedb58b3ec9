import Mathlib.Data.Set.Insert
import Oseer.Kernel

/-!
# Identifiers of resources

`k_new_unique_id` searches the table of used identifiers upwards from the last
one that it returned.  The table has a word for each 32 of the
`MAX_RESOURCES / WBITS * WBITS` identifiers, which are not all of
`MAX_RESOURCES`: a search that comes to its end reads past it.
-/

namespace Oseer

namespace Kernel

/-- The number of identifiers that the table has bits for. -/
def tableSize : Nat := MAX_RESOURCES / WBITS * WBITS

/-- There is a free identifier between the last one and the end of the table. -/
def Room (kernel : Kernel) : Prop :=
  ∃ id, kernel.lastId < id ∧ id < tableSize ∧ kernel.idmask id = false

/-- The states that calls of the two functions reach, with the identifiers that are
allocated in them; only these are freed. -/
inductive IdRun : Kernel → Set Nat → Prop
  | start (kernel : Kernel) (mask : kernel.idmask = fun _ => false) (last : kernel.lastId = 0) :
      IdRun kernel ∅
  | alloc {kernel kernel' : Kernel} {held : Set Nat} (run : IdRun kernel held)
      (result : kernel.kNewUniqueId = .ok kernel') : IdRun kernel' (insert kernel'.lastId held)
  | free {kernel kernel' : Kernel} {held : Set Nat} {id : Nat} (run : IdRun kernel held)
      (mem : id ∈ held) (result : kernel.kFreeUniqueId id = .ok kernel') :
      IdRun kernel' (held \ {id})

/-- What a call of `k_new_unique_id` owes to its caller: an identifier that is in
range and not allocated, and one of these whenever there is one. -/
structure Serves (kernel : Kernel) (held : Set Nat) : Prop where
  valid : ∀ kernel', kernel.kNewUniqueId = .ok kernel' →
    1 ≤ kernel'.lastId ∧ kernel'.lastId ≤ MAX_RESOURCES - 1 ∧ kernel'.lastId ∉ held
  returns : (∃ id, 1 ≤ id ∧ id ≤ MAX_RESOURCES - 1 ∧ id ∉ held) →
    ∃ kernel', kernel.kNewUniqueId = .ok kernel'

/-- The invariant of the table. -/
structure Table (kernel : Kernel) (held : Set Nat) : Prop where
  last : kernel.lastId < tableSize
  used : ∀ id, id ∈ held ↔ kernel.idmask id = true
  range : ∀ id ∈ held, 1 ≤ id ∧ id < tableSize

variable {kernel kernel' : Kernel} {held : Set Nat} {idmask : Nat → Bool} {id : Nat}

theorem word_lt : MAX_RESOURCES / WBITS ≤ id / WBITS ↔ tableSize ≤ id := by
  unfold tableSize MAX_RESOURCES WBITS
  omega

/-- The search stops at the first free identifier, or at the end of the table. -/
theorem newIdLoop_spec {starting fuel last : Nat} (atLeast : starting ≤ last)
    (below : last < tableSize) (enough : tableSize ≤ last + fuel) :
    (∃ id, newIdLoop idmask starting fuel last = .ok id ∧ last < id ∧ id < tableSize ∧
        idmask id = false ∧ ∀ between, last < between → between < id → idmask between = true) ∨
      newIdLoop idmask starting fuel last = .error .idOutOfRange ∧
        ∀ id, last < id → id < tableSize → idmask id = true := by
  have table : tableSize < MAX_RESOURCES := by decide
  induction fuel generalizing last with
  | zero => omega
  | succ fuel ih =>
      have next : (last + 1) % MAX_RESOURCES = last + 1 := Nat.mod_eq_of_lt (by omega)
      have notStart : last + 1 ≠ starting := by omega
      unfold newIdLoop
      simp only [next, if_neg notStart, word_lt]
      by_cases ends : tableSize ≤ last + 1
      · rw [if_pos ends]
        exact .inr ⟨rfl, fun id after inside => absurd inside (by omega)⟩
      · rw [if_neg ends]
        cases bit : idmask (last + 1) with
        | false =>
            exact .inl ⟨last + 1, rfl, by omega, by omega, bit, fun _ _ _ => by omega⟩
        | true =>
            simp only [if_true]
            have orHere : ∀ id, last < id → id = last + 1 ∨ last + 1 < id := by omega
            rcases @ih (last + 1) (by omega) (by omega) (by omega) with
              ⟨id, found, after, inside, unused, first⟩ | ⟨failed, full⟩
            · refine .inl ⟨id, found, by omega, inside, unused, fun between later before => ?_⟩
              rcases orHere between later with rfl | beyond
              · exact bit
              · exact first between beyond before
            · refine .inr ⟨failed, fun id after inside => ?_⟩
              rcases orHere id after with rfl | beyond
              · exact bit
              · exact full id beyond inside

/-- `k_new_unique_id` returns a free identifier when there is room after the last
one, and otherwise reads past the end of the table. -/
theorem Table.kNewUniqueId (table : Table kernel held) :
    (∃ id, kernel.kNewUniqueId = .ok { kernel with
        lastId := id, idmask := Function.update kernel.idmask id true } ∧
      kernel.lastId < id ∧ id < tableSize ∧ kernel.idmask id = false ∧
      ∀ between, kernel.lastId < between → between < id → kernel.idmask between = true) ∨
      kernel.kNewUniqueId = .error .idOutOfRange ∧ ¬ kernel.Room := by
  have enough : tableSize ≤ kernel.lastId + MAX_RESOURCES := by
    have size : tableSize < MAX_RESOURCES := by decide
    omega
  unfold Kernel.kNewUniqueId
  have search := @newIdLoop_spec kernel.idmask kernel.lastId MAX_RESOURCES kernel.lastId le_rfl
    table.last enough
  rcases search with ⟨id, found, after, inside, unused, first⟩ | ⟨failed, full⟩
  · rw [found]
    exact .inl ⟨id, rfl, after, inside, unused, first⟩
  · rw [failed]
    refine .inr ⟨rfl, ?_⟩
    rintro ⟨id, after, inside, unused⟩
    rw [full id after inside] at unused
    cases unused

theorem Table.kFreeUniqueId (table : Table kernel held) (mem : id ∈ held) :
    kernel.kFreeUniqueId id = .ok { kernel with
      idmask := Function.update kernel.idmask id false } := by
  obtain ⟨positive, inside⟩ := table.range id mem
  have size : tableSize < MAX_RESOURCES := by decide
  unfold Kernel.kFreeUniqueId
  rw [if_neg (by omega), if_neg (by rw [word_lt]; omega), if_pos ((table.used id).mp mem)]

/-- The table after an identifier is allocated. -/
theorem Table.alloc (table : Table kernel held) (after : kernel.lastId < id)
    (inside : id < tableSize) : Table { kernel with
      lastId := id, idmask := Function.update kernel.idmask id true } (insert id held) where
  last := inside
  used := by
    intro other
    by_cases same : other = id
    · simp [same]
    · rw [Set.mem_insert_iff, table.used other]
      simp [same]
  range := by
    rintro other (rfl | mem)
    · exact ⟨by omega, inside⟩
    · exact table.range other mem

theorem Table.free (table : Table kernel held) :
    Table { kernel with idmask := Function.update kernel.idmask id false } (held \ {id}) where
  last := table.last
  used := by
    intro other
    rw [Set.mem_sdiff, table.used other]
    by_cases same : other = id
    · simp [same]
    · simp [same]
  range := fun other mem => table.range other mem.1

/-- The invariant holds in every state reached. -/
theorem IdRun.table (run : IdRun kernel held) : Table kernel held := by
  induction run with
  | start kernel mask last =>
      refine ⟨by rw [last]; decide, fun id => ?_, fun id mem => absurd mem (by simp)⟩
      rw [mask]
      simp
  | alloc run result ih =>
      rcases ih.kNewUniqueId with ⟨id, found, after, inside, -⟩ | ⟨failed, -⟩
      · rw [found] at result
        obtain rfl := Except.ok.inj result
        exact ih.alloc after inside
      · rw [failed] at result
        cases result
  | free run mem result ih =>
      rw [ih.kFreeUniqueId mem] at result
      obtain rfl := Except.ok.inj result
      exact ih.free

/-- Identifiers are used in order until the table ends. -/
theorem idRun_upTo (count : Nat) (inside : count < tableSize) :
    ∃ kernel held, IdRun kernel held ∧ kernel.lastId = count ∧
      ∀ id, count < id → kernel.idmask id = false := by
  induction count with
  | zero => exact ⟨boot, ∅, .start boot rfl rfl, rfl, fun _ _ => rfl⟩
  | succ count ih =>
      obtain ⟨kernel, held, run, last, unused⟩ := ih (by omega)
      have table := run.table
      have next := unused (count + 1) (by omega)
      rcases table.kNewUniqueId with ⟨id, found, after, below, free, first⟩ | ⟨-, full⟩
      · have isNext : id = count + 1 := by
          by_contra different
          rw [first (count + 1) (by omega) (by omega)] at next
          cases next
        refine ⟨_, _, run.alloc found, isNext, fun other later => ?_⟩
        exact (Function.update_of_ne (by omega) ..).trans (unused other (by omega))
      · exact absurd ⟨count + 1, by omega, inside, next⟩ full

end Kernel

end Oseer
