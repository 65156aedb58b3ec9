import Oseer.Library.ByteMemory
import Oseer.Library.WordMemory

/-!
# Copies that overlap

`memmove` and `memmovew` of the library copy units of one and of two bytes, upwards if the
destination lies below the source and downwards else.
-/

namespace Oseer

open ByteMemory ByteMemory.Bytes WordMemory

/-- `*d = *s` for units of `width` bytes. -/
def copyUnit (width d s : Nat) (store : Bytes) : Bytes :=
  store.writeAll d ((List.range width).map fun i => store.byte (s + i))

/-- The loop over `n` units where the pointers go up. -/
def moveUp (width : Nat) : Nat → Nat → Nat → Bytes → Bytes
  | 0, _, _, store => store
  | n + 1, d, s, store => moveUp width n (add32 d width) (add32 s width) (copyUnit width d s store)

/-- The loop over `n` units where the pointers go down. -/
def moveDown (width : Nat) : Nat → Nat → Nat → Bytes → Bytes
  | 0, _, _, store => store
  | n + 1, d, s, store =>
      moveDown width n (sub32 d width) (sub32 s width) (copyUnit width d s store)

/-- The body of `memmove` for units of `width` bytes: the value returned and the memory. -/
def moveUnits (width dest src n : Nat) (store : Bytes) : Nat × Bytes :=
  if dest < src then (dest, moveUp width n dest src store)
  else
    let d := sub32 (add32 dest (width * n)) width
    let s := sub32 (add32 src (width * n)) width
    (dest, moveDown width n d s store)

/-- `memmove`. -/
def memmove (dest src n : Nat) (store : Bytes) : Nat × Bytes := moveUnits 1 dest src n store

/-- `memmovew`. -/
def memmovew (dest src n : Nat) (store : Bytes) : Nat × Bytes := moveUnits 2 dest src n store

/-- The bytes that were at `src` are at `dest`, and the others are unchanged. -/
structure Moved (store : Bytes) (dest src size : Nat) (store' : Bytes) : Prop where
  inside : ∀ i < size, store'.byte (dest + i) = store.byte (src + i)
  outside : ∀ address, address < dest ∨ dest + size ≤ address →
    store'.byte address = store.byte address

variable {store store' : Bytes} {width n d s dest src : Nat}

section Loops

theorem copyUnit_moved (width d s : Nat) (store : Bytes) :
    Moved store d s width (copyUnit width d s store) where
  inside i small := by
    have inside : i < ((List.range width).map fun i => store.byte (s + i)).length := by
      rwa [List.length_map, List.length_range]
    unfold copyUnit
    rw [writeAll_inside inside, List.getElem_map, List.getElem_range]
  outside address apart := by
    apply writeAll_other
    rwa [List.length_map, List.length_range]

/-- The first part is copied first: it is not behind what is still to be read. -/
theorem Moved.up {first last : Nat} {store'' : Bytes} (notAbove : d ≤ s)
    (moved : Moved store d s first store')
    (moved' : Moved store' (d + first) (s + first) last store'') :
    Moved store d s (first + last) store'' where
  inside i small := by
    by_cases early : i < first
    · rw [moved'.outside (d + i) (by omega)]
      exact moved.inside i early
    · have copied := moved'.inside (i - first) (by omega)
      have place : d + first + (i - first) = d + i := by omega
      have place' : s + first + (i - first) = s + i := by omega
      rw [place, place', moved.outside (s + i) (by omega)] at copied
      exact copied
  outside address apart := by
    rw [moved'.outside address (by omega)]
    exact moved.outside address (by omega)

/-- The last part is copied first: it is not before what is still to be read. -/
theorem Moved.down {first last : Nat} {store'' : Bytes} (notBelow : s ≤ d)
    (moved : Moved store (d + first) (s + first) last store')
    (moved' : Moved store' d s first store'') : Moved store d s (first + last) store'' where
  inside i small := by
    by_cases early : i < first
    · rw [moved'.inside i early]
      exact moved.outside (s + i) (by omega)
    · have copied := moved.inside (i - first) (by omega)
      have place : d + first + (i - first) = d + i := by omega
      have place' : s + first + (i - first) = s + i := by omega
      rw [place, place'] at copied
      rw [moved'.outside (d + i) (by omega)]
      exact copied
  outside address apart := by
    rw [moved'.outside address (by omega)]
    exact moved.outside address (by omega)

theorem moveUp_moved (positive : 0 < width) (below : d < s) (dFits : d + width * n ≤ 2 ^ 32)
    (sFits : s + width * n ≤ 2 ^ 32) : Moved store d s (width * n) (moveUp width n d s store) := by
  induction n generalizing d s store with
  | zero => exact ⟨fun i small => absurd small (Nat.not_lt_zero i), fun _ _ => rfl⟩
  | succ n ih =>
      have unit := copyUnit_moved width d s store
      rw [moveUp]
      cases n with
      | zero =>
          rw [Nat.zero_add, Nat.mul_one]
          exact unit
      | succ n =>
          have more : 0 < width * (n + 1) := Nat.mul_pos positive (Nat.succ_pos n)
          rw [Nat.mul_succ, Nat.add_comm (width * (n + 1))] at dFits sFits ⊢
          have dNext : add32 d width = d + width := add32_of_lt (by omega)
          have sNext : add32 s width = s + width := add32_of_lt (by omega)
          rw [dNext, sNext]
          apply unit.up below.le
          exact ih (by omega) (by omega) (by omega)

/-- Downwards from behind the last unit, which may be the end of the address space. -/
theorem moveDown_moved (positive : 0 < width) (notBelow : s ≤ d)
    (dFits : d + width * n ≤ 2 ^ 32) (sFits : s + width * n ≤ 2 ^ 32) :
    Moved store d s (width * n) (moveDown width n (sub32 (add32 d (width * n)) width)
      (sub32 (add32 s (width * n)) width) store) := by
  have back : ∀ {base size : Nat}, base + (size + width) ≤ 2 ^ 32 →
      sub32 (add32 base (size + width)) width = base + size ∧
        add32 base size = base + size := by
    intro base size fits
    unfold sub32 add32
    omega
  induction n generalizing store with
  | zero => exact ⟨fun i small => absurd small (Nat.not_lt_zero i), fun _ _ => rfl⟩
  | succ n ih =>
      rw [Nat.mul_succ] at dFits sFits ⊢
      have unit := copyUnit_moved width (d + width * n) (s + width * n) store
      have rest := @ih (copyUnit width (d + width * n) (s + width * n) store) (by omega) (by omega)
      rw [(back dFits).2, (back sFits).2] at rest
      rw [moveDown, (back dFits).1, (back sFits).1]
      exact unit.down notBelow rest

theorem moveUnits_moved (positive : 0 < width) (dFits : dest + width * n ≤ 2 ^ 32)
    (sFits : src + width * n ≤ 2 ^ 32) :
    (moveUnits width dest src n store).1 = dest ∧
      Moved store dest src (width * n) (moveUnits width dest src n store).2 := by
  unfold moveUnits
  split
  · rename_i below
    exact ⟨rfl, moveUp_moved positive below dFits sFits⟩
  · rename_i notBelow
    exact ⟨rfl, moveDown_moved positive (not_lt.mp notBelow) dFits sFits⟩

end Loops

/-- `memmove` and `memmovew` move the bytes of any two ranges that do not wrap. -/
theorem overlapping_copies (store : Bytes) (dest src n : Nat) :
    (dest + n ≤ 2 ^ 32 → src + n ≤ 2 ^ 32 →
      (memmove dest src n store).1 = dest ∧
        Moved store dest src n (memmove dest src n store).2) ∧
    (dest + 2 * n ≤ 2 ^ 32 → src + 2 * n ≤ 2 ^ 32 →
      (memmovew dest src n store).1 = dest ∧
        Moved store dest src (2 * n) (memmovew dest src n store).2) := by
  constructor
  · intro dFits sFits
    rw [← Nat.one_mul n] at dFits sFits
    have moved : Moved store dest src (1 * n) (moveUnits 1 dest src n store).2 :=
      (moveUnits_moved Nat.one_pos dFits sFits).2
    rw [Nat.one_mul] at moved
    exact ⟨(moveUnits_moved Nat.one_pos dFits sFits).1, moved⟩
  · exact moveUnits_moved (by decide)

/-- A memory where each byte tells its address. -/
def countingBytes : Bytes := ⟨UInt8.ofNat, []⟩

/-- Seven bytes move up by one, and three words move down by one byte. -/
theorem overlapping_copies_by_one :
    ((memmove 101 100 7 countingBytes).1 = 101 ∧
      Moved countingBytes 101 100 7 (memmove 101 100 7 countingBytes).2) ∧
    (memmovew 99 100 3 countingBytes).1 = 99 ∧
      Moved countingBytes 99 100 (2 * 3) (memmovew 99 100 3 countingBytes).2 :=
  ⟨(overlapping_copies countingBytes 101 100 7).1 (by decide) (by decide),
    (overlapping_copies countingBytes 99 100 3).2 (by decide) (by decide)⟩

end Oseer
