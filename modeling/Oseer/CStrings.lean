import Oseer.Library.ByteMemory

/-!
# Strings in memory

`strlen`, `strcpy` and `strcat` of the library.  A loop gets the number of its rounds; `none` says
that they were not enough.  Objects end in the address space, so that an index into one does not
wrap.
-/

namespace Oseer

open ByteMemory ByteMemory.Bytes

/-- The bytes of a string literal. -/
def literal (letters : String) : List UInt8 :=
  letters.toList.map fun letter => UInt8.ofNat letter.toNat

/-- The loop of `strlen`. -/
def strlenFrom (store : Bytes) (s : Nat) : Nat → Nat → Option Nat
  | 0, _ => none
  | fuel + 1, i => if store.byte (s + i) = 0 then some i else strlenFrom store s fuel (i + 1)

def strlen (fuel : Nat) (store : Bytes) (s : Nat) : Option Nat := strlenFrom store s fuel 0

/-- The loop of `strcpy`. -/
def strcpyFrom (dest src : Nat) : Nat → Nat → Bytes → Option Bytes
  | 0, _, _ => none
  | fuel + 1, i, store =>
      if store.byte (src + i) = 0 then some (store.write (dest + i) 0)
      else strcpyFrom dest src fuel (i + 1) (store.write (dest + i) (store.byte (src + i)))

def strcpy (fuel dest src : Nat) (store : Bytes) : Option Bytes := strcpyFrom dest src fuel 0 store

/-- `strcat`: the loop to the end of `dest` is the one of `strlen`. -/
def strcat (fuel dest src : Nat) (store : Bytes) : Option Bytes := do
  let i ← strlen fuel store dest
  strcpy fuel (dest + i) src store

variable {store store' : Bytes} {dest src fuel i : Nat} {text name : List UInt8}
  {region : Nat → Prop}

theorem strlenFrom_text (nonzero : 0 ∉ text) (held : store.Holds (src + i) (text ++ [0]))
    (enough : text.length < fuel) : strlenFrom store src fuel i = some (i + text.length) := by
  induction text generalizing fuel i with
  | nil =>
      obtain ⟨fuel, rfl⟩ := Nat.exists_eq_add_one_of_ne_zero (Nat.ne_zero_of_lt enough)
      exact if_pos held.1
  | cons byte text ih =>
      obtain ⟨fuel, rfl⟩ := Nat.exists_eq_add_one_of_ne_zero (Nat.ne_zero_of_lt enough)
      rw [List.mem_cons, not_or] at nonzero
      rw [List.length_cons] at enough
      rw [strlenFrom, if_neg (held.1.trans_ne (Ne.symm nonzero.1)),
        ih nonzero.2 held.2 (Nat.lt_of_succ_lt_succ enough), List.length_cons, Nat.add_assoc,
        Nat.add_comm 1]

theorem strlen_text (held : store.HoldsText src text) (enough : text.length < fuel) :
    strlen fuel store src = some text.length := by
  have answer := strlenFrom_text (i := 0) held.nonzero held.holds enough
  rwa [Nat.zero_add] at answer

theorem strcpyFrom_mono (copies : strcpyFrom dest src fuel i store = some store') :
    store.written ⊆ store'.written := by
  induction fuel generalizing i store with
  | zero => cases copies
  | succ fuel ih =>
      rw [strcpyFrom] at copies
      split at copies
      · obtain rfl := Option.some.inj copies
        exact List.subset_cons_self ..
      · exact List.Subset.trans (List.subset_cons_self ..) (ih copies)

theorem next_kept {byte value : UInt8} {address : Nat}
    (held : store.Holds (src + i) (byte :: text ++ [0]))
    (outside : ∀ a, src + i ≤ a → a ≤ src + i + (text.length + 1) → ¬ region a)
    (inside : region address) :
    (store.write address value).Holds (src + (i + 1)) (text ++ [0]) := by
  have rest : store.Holds (src + (i + 1)) (text ++ [0]) := held.2
  apply (holds_write _).mpr rest
  by_contra within
  rw [List.length_append, List.length_singleton] at within
  exact outside address (by omega) (by omega) inside

/-- A text outside of the region the copy goes to is copied. -/
theorem strcpyFrom_text (nonzero : 0 ∉ text) (held : store.Holds (src + i) (text ++ [0]))
    (outside : ∀ a, src + i ≤ a → a ≤ src + i + text.length → ¬ region a)
    (inside : ∀ a, dest + i ≤ a → a ≤ dest + i + text.length → region a)
    (enough : text.length < fuel) :
    strcpyFrom dest src fuel i store = some (store.writeAll (dest + i) (text ++ [0])) := by
  induction text generalizing fuel i store with
  | nil =>
      obtain ⟨fuel, rfl⟩ := Nat.exists_eq_add_one_of_ne_zero (Nat.ne_zero_of_lt enough)
      exact if_pos held.1
  | cons byte text ih =>
      obtain ⟨fuel, rfl⟩ := Nat.exists_eq_add_one_of_ne_zero (Nat.ne_zero_of_lt enough)
      rw [List.mem_cons, not_or] at nonzero
      rw [List.length_cons] at enough outside inside
      have first := inside (dest + i) (Nat.le_refl _) (by omega)
      rw [strcpyFrom, if_neg (held.1.trans_ne (Ne.symm nonzero.1)), held.1,
        ih nonzero.2 (next_kept held outside first) _ _ (Nat.lt_of_succ_lt_succ enough)]
      · rfl
      · intro a low high
        exact outside a (by omega) (by omega)
      · intro a low high
        exact inside a (by omega) (by omega)

/-- A copy that has only written in a region the text is outside of has copied it. -/
theorem strcpyFrom_writtenIn (nonzero : 0 ∉ text) (held : store.Holds (src + i) (text ++ [0]))
    (outside : ∀ a, src + i ≤ a → a ≤ src + i + text.length → ¬ region a)
    (copies : strcpyFrom dest src fuel i store = some store')
    (inside : store'.WrittenIn region) :
    store' = store.writeAll (dest + i) (text ++ [0]) := by
  induction fuel generalizing text i store with
  | zero => cases copies
  | succ fuel ih =>
      cases text with
      | nil =>
          rw [strcpyFrom, if_pos held.1] at copies
          exact (Option.some.inj copies).symm
      | cons byte text =>
          rw [List.mem_cons, not_or] at nonzero
          rw [List.length_cons] at outside
          rw [strcpyFrom, if_neg (held.1.trans_ne (Ne.symm nonzero.1)), held.1] at copies
          have first := inside (dest + i) (strcpyFrom_mono copies (List.mem_cons_self ..))
          apply ih nonzero.2 (next_kept held outside first) _ copies
          intro a low high
          exact outside a (by omega) (by omega)

theorem strcpy_text (apart : store.TextApart region src text)
    (inside : ∀ a, dest ≤ a → a ≤ dest + text.length → region a) (enough : text.length < fuel) :
    strcpy fuel dest src store = some (store.writeAll dest (text ++ [0])) :=
  strcpyFrom_text apart.held.nonzero apart.held.holds apart.outside inside enough

theorem strcpy_writtenIn (apart : store.TextApart region src text)
    (copies : strcpy fuel dest src store = some store') (inside : store'.WrittenIn region) :
    store' = store.writeAll dest (text ++ [0]) :=
  strcpyFrom_writtenIn apart.held.nonzero apart.held.holds apart.outside copies inside

theorem strcat_eq (there : store.HoldsText dest text) (enough : text.length < fuel) :
    strcat fuel dest src store = strcpy fuel (dest + text.length) src store := by
  unfold strcat
  rw [strlen_text there enough]
  rfl

theorem strcat_mono (copies : strcat fuel dest src store = some store') :
    store.written ⊆ store'.written := by
  obtain ⟨i, -, copies⟩ := Option.bind_eq_some_iff.mp copies
  exact strcpyFrom_mono copies

theorem appended_text (there : store.HoldsText dest text) (nonzero : 0 ∉ name) :
    (store.writeAll (dest + text.length) (name ++ [0])).HoldsText dest (text ++ name) := by
  apply HoldsText.mk
  · rw [List.mem_append, not_or]
    exact ⟨there.nonzero, nonzero⟩
  · rw [List.append_assoc]
    exact holds_extend (holds_append.mp there.holds).1

end Oseer
