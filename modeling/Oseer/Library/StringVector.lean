import Oseer.Library.ByteMemory

/-!
# Vectors of strings

Words one behind the other, each of which points to a text, with a zero behind them.  How a
pointer is turned into an address is a parameter, so that the vector may be one of another address
space.
-/

namespace ByteMemory

open Bytes

/-- At the address is a vector of these texts, all of it in the region. -/
def StringVector (store : Bytes) (region : Nat → Prop) (resolve : Nat → Option Nat) :
    Nat → List (List UInt8) → Prop
  | vector, [] => store.load32 vector = 0 ∧ ∀ i, vector ≤ i → i < vector + 4 → region i
  | vector, text :: texts =>
      (store.load32 vector ≠ 0 ∧ ∀ i, vector ≤ i → i < vector + 4 → region i) ∧
      (∃ address, resolve (store.load32 vector) = some address ∧ store.HoldsText address text ∧
        ∀ i, address ≤ i → i ≤ address + text.length → region i) ∧
      StringVector store region resolve (vector + 4) texts

/-- The texts one behind the other, each with a zero behind it. -/
def packed (texts : List (List UInt8)) : List UInt8 := texts.flatMap (· ++ [0])

/-- The bytes of a vector of the texts that has them packed behind it. -/
def vectorSize (texts : List (List UInt8)) : Nat :=
  4 * (texts.length + 1) + (packed texts).length

/-- Where the texts are when they are packed from an address on. -/
def places : Nat → List (List UInt8) → List Nat
  | _, [] => []
  | address, text :: texts => address :: places (address + text.length + 1) texts

variable {store store' : Bytes} {region : Nat → Prop} {resolve : Nat → Option Nat}
  {vector address : Nat} {text : List UInt8} {texts : List (List UInt8)}

theorem packed_cons_length : (packed (text :: texts)).length =
    text.length + 1 + (packed texts).length := by
  rw [packed, List.flatMap_cons, List.length_append, List.length_append, List.length_singleton]
  rfl

theorem length_le_packed (member : text ∈ texts) : text.length + 1 ≤ (packed texts).length := by
  induction texts with
  | nil => cases member
  | cons first texts ih =>
      rw [packed_cons_length]
      rcases List.mem_cons.mp member with rfl | member
      · exact Nat.le_add_right ..
      · exact Nat.le_trans (ih member) (Nat.le_add_left ..)

theorem count_le_packed : texts.length ≤ (packed texts).length := by
  induction texts with
  | nil => exact Nat.le_refl _
  | cons text texts ih =>
      rw [packed_cons_length, List.length_cons]
      omega

theorem words_length {pointer : Nat → Nat} :
    (((places address texts).map pointer ++ [0]).flatMap wordBytes).length =
      4 * (texts.length + 1) := by
  induction texts generalizing address with
  | nil => rfl
  | cons text texts ih =>
      rw [places, List.map_cons, List.cons_append, List.flatMap_cons, List.length_append, ih,
        wordBytes_length, List.length_cons, Nat.mul_succ, Nat.mul_succ, Nat.mul_succ, Nat.add_comm]

theorem packed_concat {last : List UInt8} : packed (texts ++ [last]) = packed texts ++ (last ++ [0]) := by
  unfold packed
  rw [List.flatMap_append, List.flatMap_singleton]

theorem packed_concat_length {last : List UInt8} :
    (packed (texts ++ [last])).length = (packed texts).length + last.length + 1 := by
  rw [packed_concat, List.length_append, List.length_append, List.length_singleton, Nat.add_assoc]

theorem places_last {last : List UInt8} :
    (places address (texts ++ [last]))[texts.length]? = some (address + (packed texts).length) := by
  induction texts generalizing address with
  | nil => rfl
  | cons text texts ih =>
      rw [List.cons_append, places, List.length_cons, List.getElem?_cons_succ, ih,
        packed_cons_length]
      simp only [Nat.add_assoc]

/-- The words of a vector can be read. -/
theorem load32_of_words {words : List Nat} {k word : Nat}
    (held : store.Holds vector (words.flatMap wordBytes)) (there : words[k]? = some word)
    (fits : word < 2 ^ 32) : store.load32 (vector + 4 * k) = word := by
  induction words generalizing vector k with
  | nil => cases there
  | cons first words ih =>
      rw [List.flatMap_cons, holds_append, wordBytes_length] at held
      cases k with
      | zero =>
          obtain rfl := Option.some.inj there
          exact load32_of_holds fits held.1
      | succ k =>
          have rest := ih held.2 there
          rwa [Nat.add_assoc, Nat.add_comm 4] at rest

theorem StringVector.nonzero (there : StringVector store region resolve vector texts) :
    ∀ text ∈ texts, 0 ∉ text := by
  induction texts generalizing vector with
  | nil => exact List.forall_mem_nil _
  | cons text texts ih =>
      obtain ⟨-, ⟨address, -, held, -⟩, rest⟩ := there
      exact List.forall_mem_cons.mpr ⟨held.nonzero, ih rest⟩

/-- A vector stays where nothing of its region changes. -/
theorem StringVector.congr (there : StringVector store region resolve vector texts)
    (same : ∀ i, region i → store'.byte i = store.byte i) :
    StringVector store' region resolve vector texts := by
  induction texts generalizing vector with
  | nil =>
      refine ⟨?_, there.2⟩
      rw [load32_congr fun i low high => same i (there.2 i low high)]
      exact there.1
  | cons text texts ih =>
      obtain ⟨⟨nonzero, wordIn⟩, ⟨address, resolved, held, textIn⟩, rest⟩ := there
      have word : store'.load32 vector = store.load32 vector :=
        load32_congr fun i low high => same i (wordIn i low high)
      refine ⟨⟨?_, wordIn⟩, ⟨address, ?_, ?_, textIn⟩, ih rest⟩
      · rwa [word]
      · rwa [word]
      · exact held.congr fun i low high => same i (textIn i low high)

/-- Packed texts, and the words that point to them, are a vector. -/
theorem stringVector_of_holds {pointer : Nat → Nat} (nonzero : ∀ text ∈ texts, 0 ∉ text)
    (held : store.Holds address (packed texts))
    (words : store.Holds vector (((places address texts).map pointer ++ [0]).flatMap wordBytes))
    (vectorIn : ∀ i, vector ≤ i → i < vector + 4 * (texts.length + 1) → region i)
    (textsIn : ∀ i, address ≤ i → i < address + (packed texts).length → region i)
    (pointers : ∀ place, address ≤ place → place < address + (packed texts).length →
      pointer place ≠ 0 ∧ pointer place < 2 ^ 32 ∧ resolve (pointer place) = some place) :
    StringVector store region resolve vector texts := by
  induction texts generalizing vector address with
  | nil =>
      rw [places, List.map_nil, List.nil_append, List.flatMap_cons, List.flatMap_nil,
        List.append_nil] at words
      exact ⟨load32_of_holds (by decide) words, vectorIn⟩
  | cons text texts ih =>
      rw [List.forall_mem_cons] at nonzero
      rw [packed_cons_length] at textsIn pointers
      rw [List.length_cons] at vectorIn
      rw [packed, List.flatMap_cons, holds_append, List.length_append, List.length_singleton,
        ← Nat.add_assoc] at held
      rw [places, List.map_cons, List.cons_append, List.flatMap_cons, holds_append,
        wordBytes_length] at words
      obtain ⟨set, small, resolved⟩ := pointers address (Nat.le_refl _) (by omega)
      have word := load32_of_holds small words.1
      refine ⟨⟨?_, ?_⟩, ⟨address, ?_, ⟨nonzero.1, held.1⟩, ?_⟩, ih nonzero.2 held.2 words.2 ?_ ?_ ?_⟩
      · rwa [word]
      · intro i low high
        exact vectorIn i low (by omega)
      · rwa [word]
      · intro i low high
        exact textsIn i low (by omega)
      · intro i low high
        exact vectorIn i (by omega) (by omega)
      · intro i low high
        exact textsIn i (by omega) (by omega)
      · intro place low high
        exact pointers place (by omega) (by omega)

section Packing

/-- Put a text at an address, and a word into a slot of the vector. -/
def Bytes.putText (slot word address : Nat) (text : List UInt8) (store : Bytes) : Bytes :=
  (store.writeAll address (text ++ [0])).store32 slot word

/-- What it is to build a vector of the texts, with the texts packed from the address on. -/
structure Packs (pointer : Nat → Nat) (vector address : Nat) (texts : List (List UInt8))
    (store store' : Bytes) : Prop where
  held : store'.Holds address (packed texts)
  words : store'.Holds vector (((places address texts).map pointer ++ [0]).flatMap wordBytes)
  other : ∀ i, (i < vector ∨ vector + 4 * (texts.length + 1) ≤ i) →
    (i < address ∨ address + (packed texts).length ≤ i) → store'.byte i = store.byte i
  written : ∀ i ∈ store'.written, i ∈ store.written ∨
    (vector ≤ i ∧ i < vector + 4 * (texts.length + 1)) ∨
      (address ≤ i ∧ i < address + (packed texts).length)

theorem putText_other {slot word other : Nat} (slotApart : other < slot ∨ slot + 4 ≤ other)
    (textApart : other < address ∨ address + text.length + 1 ≤ other) :
    (store.putText slot word address text).byte other = store.byte other := by
  unfold Bytes.putText Bytes.store32
  rw [writeAll_other slotApart]
  apply writeAll_other
  rwa [List.length_append, List.length_singleton, ← Nat.add_assoc]

theorem packs_nil {pointer : Nat → Nat} :
    Packs pointer vector address [] store (store.store32 vector 0) where
  held := trivial
  words := writeAll_holds
  other i slot _ := writeAll_other slot
  written i member := by
    rcases mem_writeAll_written.mp member with here | before
    · exact Or.inr (Or.inl here)
    · exact Or.inl before

/-- One text more in front of those that are built. -/
theorem packs_cons {pointer : Nat → Nat}
    (behind : vector + 4 * (texts.length + 2) ≤ address)
    (rest : Packs pointer (vector + 4) (address + text.length + 1) texts
      (store.putText vector (pointer address) address text) store') :
    Packs pointer vector address (text :: texts) store store' where
  held := by
    rw [packed, List.flatMap_cons, holds_append, List.length_append, List.length_singleton,
      ← Nat.add_assoc]
    refine ⟨?_, rest.held⟩
    rw [holds_congr fun i low high => rest.other i (by omega) ?_]
    · apply (holds_writeAll (Or.inr _)).mpr writeAll_holds
      rw [wordBytes_length]
      omega
    · rw [List.length_append, List.length_singleton] at high
      omega
  words := by
    rw [places, List.map_cons, List.cons_append, List.flatMap_cons, holds_append, wordBytes_length]
    refine ⟨?_, rest.words⟩
    rw [holds_congr fun i low high => rest.other i ?_ ?_]
    · exact writeAll_holds
    · rw [wordBytes_length] at high
      omega
    · rw [wordBytes_length] at high
      omega
  other i slot outside := by
    rw [packed_cons_length] at outside
    rw [List.length_cons] at slot
    rw [rest.other i (by omega) (by omega)]
    apply putText_other <;> omega
  written i member := by
    rw [packed_cons_length, List.length_cons]
    rcases rest.written i member with before | inVector | inTexts
    · rcases mem_writeAll_written.mp before with slot | before
      · rw [wordBytes_length] at slot
        exact Or.inr (Or.inl (by omega))
      · rcases mem_writeAll_written.mp before with here | before
        · rw [List.length_append, List.length_singleton] at here
          exact Or.inr (Or.inr (by omega))
        · exact Or.inl before
    · exact Or.inr (Or.inl (by omega))
    · exact Or.inr (Or.inr (by omega))

end Packing

end ByteMemory
