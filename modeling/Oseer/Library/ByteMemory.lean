import Mathlib.Algebra.Group.Int.Defs
import Mathlib.Algebra.Group.Nat.Defs
import Mathlib.Logic.Function.Basic

/-!
# A memory of bytes

The memory keeps the addresses that were written, so that a run on it can be asked where it wrote.
-/

namespace ByteMemory

/-- The bytes by address, and the addresses that were written. -/
structure Bytes where
  byte : Nat → UInt8
  written : List Nat

namespace Bytes

/-- Write one byte. -/
def write (address : Nat) (value : UInt8) (store : Bytes) : Bytes :=
  ⟨Function.update store.byte address value, address :: store.written⟩

/-- Write bytes from an address on. -/
def writeAll : Nat → List UInt8 → Bytes → Bytes
  | _, [], store => store
  | address, value :: values, store => writeAll (address + 1) values (store.write address value)

/-- The same bytes, with nothing written yet. -/
def forget (store : Bytes) : Bytes := ⟨store.byte, []⟩

/-- The bytes stand from the address on. -/
def Holds (store : Bytes) : Nat → List UInt8 → Prop
  | _, [] => True
  | address, value :: values => store.byte address = value ∧ store.Holds (address + 1) values

instance decidableHolds (store : Bytes) :
    ∀ address values, Decidable (store.Holds address values)
  | _, [] => isTrue trivial
  | address, _ :: values => @instDecidableAnd _ _ _ (decidableHolds store (address + 1) values)

/-- The bytes stand there with a zero behind them, and none of them is zero. -/
structure HoldsText (store : Bytes) (address : Nat) (text : List UInt8) : Prop where
  nonzero : 0 ∉ text
  holds : store.Holds address (text ++ [0])

/-- The text stands there, outside of the region. -/
structure TextApart (store : Bytes) (region : Nat → Prop) (address : Nat) (text : List UInt8) :
    Prop where
  held : store.HoldsText address text
  outside : ∀ i, address ≤ i → i ≤ address + text.length → ¬ region i

/-- The stores are the same outside of the region. -/
def Agree (region : Nat → Prop) (store store' : Bytes) : Prop :=
  ∀ address, ¬ region address → store'.byte address = store.byte address

/-- Every write was in the region. -/
def WrittenIn (store : Bytes) (region : Nat → Prop) : Prop :=
  ∀ address ∈ store.written, region address

end Bytes

open Bytes

variable {store store' : Bytes} {address other : Nat} {value : UInt8}
  {values values' text : List UInt8} {region : Nat → Prop}

section Writes

@[simp]
theorem write_same : (store.write address value).byte address = value :=
  Function.update_self ..

theorem write_other (apart : other ≠ address) :
    (store.write address value).byte other = store.byte other :=
  Function.update_of_ne apart ..

@[simp]
theorem write_written : (store.write address value).written = address :: store.written := rfl

theorem writeAll_append :
    store.writeAll address (values ++ values') =
      (store.writeAll address values).writeAll (address + values.length) values' := by
  induction values generalizing address store with
  | nil => rfl
  | cons value values ih =>
      rw [List.cons_append, writeAll, writeAll, ih, List.length_cons, Nat.add_right_comm,
        Nat.add_assoc]

theorem writeAll_other (apart : other < address ∨ address + values.length ≤ other) :
    (store.writeAll address values).byte other = store.byte other := by
  induction values generalizing address store with
  | nil => rfl
  | cons value values ih =>
      rw [List.length_cons] at apart
      rw [writeAll, ih (by omega)]
      exact write_other (by omega)

theorem writeAll_inside {i : Nat} (inside : i < values.length) :
    (store.writeAll address values).byte (address + i) = values[i] := by
  induction values generalizing address store i with
  | nil => cases inside
  | cons value values ih =>
      rw [writeAll]
      cases i with
      | zero => exact (writeAll_other (Or.inl (Nat.lt_succ_self _))).trans write_same
      | succ i =>
          have place : address + (i + 1) = address + 1 + i := by omega
          rw [place]
          exact ih (Nat.lt_of_succ_lt_succ inside)

theorem mem_writeAll_written :
    other ∈ (store.writeAll address values).written ↔
      (address ≤ other ∧ other < address + values.length) ∨ other ∈ store.written := by
  induction values generalizing address store with
  | nil =>
      rw [writeAll, List.length_nil, or_iff_right (by omega)]
  | cons value values ih =>
      rw [writeAll, ih, write_written, List.mem_cons, List.length_cons]
      constructor
      · rintro (behind | rfl | before)
        · exact Or.inl (by omega)
        · exact Or.inl (by omega)
        · exact Or.inr before
      · rintro (inside | before)
        · by_cases first : other = address
          · exact Or.inr (Or.inl first)
          · exact Or.inl (by omega)
        · exact Or.inr (Or.inr before)

theorem writeAll_writtenIn (before : store.WrittenIn region)
    (inside : ∀ i, address ≤ i → i < address + values.length → region i) :
    (store.writeAll address values).WrittenIn region := by
  intro other member
  rcases mem_writeAll_written.mp member with range | member
  · exact inside other range.1 range.2
  · exact before other member

end Writes

section Contents

theorem holds_append : store.Holds address (values ++ values') ↔
    store.Holds address values ∧ store.Holds (address + values.length) values' := by
  induction values generalizing address with
  | nil => simp [Holds]
  | cons value values ih =>
      rw [List.cons_append, Holds, Holds, ih, List.length_cons, and_assoc, Nat.add_assoc,
        Nat.add_comm 1]

theorem holds_congr
    (same : ∀ i, address ≤ i → i < address + values.length → store'.byte i = store.byte i) :
    store'.Holds address values ↔ store.Holds address values := by
  induction values generalizing address with
  | nil => exact Iff.rfl
  | cons value values ih =>
      rw [List.length_cons] at same
      rw [Holds, Holds, same address (Nat.le_refl _) (by omega), ih]
      intro i low high
      exact same i (by omega) (by omega)

theorem holds_write (apart : other < address ∨ address + values.length ≤ other) :
    (store.write other value).Holds address values ↔ store.Holds address values :=
  holds_congr fun _ _ _ => write_other (by omega)

theorem holds_writeAll
    (apart : address + values.length ≤ other ∨ other + values'.length ≤ address) :
    (store.writeAll other values').Holds address values ↔ store.Holds address values :=
  holds_congr fun _ _ _ => writeAll_other (by omega)

theorem writeAll_holds : (store.writeAll address values).Holds address values := by
  induction values generalizing address store with
  | nil => trivial
  | cons value values ih =>
      constructor
      · rw [writeAll, writeAll_other (Or.inl (Nat.lt_succ_self _)), write_same]
      · exact ih

theorem holds_extend (first : store.Holds address values) :
    (store.writeAll (address + values.length) values').Holds address (values ++ values') :=
  holds_append.mpr ⟨(holds_writeAll (Or.inl (Nat.le_refl _))).mpr first, writeAll_holds⟩

theorem Bytes.HoldsText.congr (held : store.HoldsText address text)
    (same : ∀ i, address ≤ i → i ≤ address + text.length → store'.byte i = store.byte i) :
    store'.HoldsText address text := by
  apply HoldsText.mk held.nonzero
  rw [holds_congr]
  · exact held.holds
  · intro i low high
    rw [List.length_append] at high
    exact same i low (Nat.le_of_lt_succ high)

theorem writeAll_agree (inside : ∀ i, address ≤ i → i < address + values.length → region i) :
    Agree region store (store.writeAll address values) := by
  intro other outside
  apply writeAll_other
  by_contra within
  exact outside (inside other (by omega) (by omega))

theorem write_agree (inside : region address) : Agree region store (store.write address value) := by
  intro other outside
  apply write_other
  rintro rfl
  exact outside inside

theorem Bytes.Agree.trans {store'' : Bytes} (first : Agree region store store')
    (second : Agree region store' store'') : Agree region store store'' :=
  fun address outside => (second address outside).trans (first address outside)

theorem Bytes.TextApart.agree (apart : store.TextApart region address text)
    (agree : Agree region store store') : store'.TextApart region address text :=
  ⟨apart.held.congr fun i low high => agree i (apart.outside i low high), apart.outside⟩

end Contents

section Words

/-- The bytes of a 32-bit word, the lowest first. -/
def wordBytes (word : Nat) : List UInt8 :=
  [UInt8.ofNat word, UInt8.ofNat (word / 2 ^ 8), UInt8.ofNat (word / 2 ^ 16),
    UInt8.ofNat (word / 2 ^ 24)]

/-- Read a word. -/
def Bytes.load32 (store : Bytes) (address : Nat) : Nat :=
  (store.byte address).toNat + 2 ^ 8 * (store.byte (address + 1)).toNat +
    2 ^ 16 * (store.byte (address + 2)).toNat + 2 ^ 24 * (store.byte (address + 3)).toNat

/-- Write a word. -/
def Bytes.store32 (address word : Nat) (store : Bytes) : Bytes :=
  store.writeAll address (wordBytes word)

@[simp]
theorem wordBytes_length (word : Nat) : (wordBytes word).length = 4 := rfl

theorem load32_of_holds {word : Nat} (fits : word < 2 ^ 32)
    (held : store.Holds address (wordBytes word)) : store.load32 address = word := by
  obtain ⟨first, second, third, fourth, -⟩ := held
  unfold Bytes.load32
  rw [first, second, third, fourth]
  simp only [UInt8.toNat_ofNat']
  omega

theorem load32_congr (same : ∀ i, address ≤ i → i < address + 4 → store'.byte i = store.byte i) :
    store'.load32 address = store.load32 address := by
  unfold Bytes.load32
  rw [same address (by omega) (by omega), same (address + 1) (by omega) (by omega),
    same (address + 2) (by omega) (by omega), same (address + 3) (by omega) (by omega)]

end Words

end ByteMemory
