import Mathlib.Data.List.Infix
import Oseer.CStrings

/-!
# Search for a substring

`strstr` of the library, on a memory of which only some bytes can be read: where the search ends
with a result, it has read no others.
-/

namespace Oseer

/-- The bytes that can be read. -/
abbrev Readable := Nat → Option UInt8

/-- The inner loop of `strstr`: the first index at which the strings differ or one of them
ends. -/
def strstrMatch (memory : Readable) (s1 s2 : Nat) : Nat → Nat → Option Nat
  | 0, _ => none
  | fuel + 1, j => do
      let c1 ← memory (s1 + j)
      if c1 = 0 then return j
      let c2 ← memory (s2 + j)
      if c2 = 0 then return j
      if c1 = c2 then strstrMatch memory s1 s2 fuel (j + 1) else return j

/-- The outer loop of `strstr`, from `s1` on, where the inner loop gets `rounds`. -/
def strstrLoop (rounds : Nat) (memory : Readable) (s2 : Nat) : Nat → Nat → Option Nat
  | 0, _ => none
  | fuel + 1, s1 =>
      if s1 ≠ 0 ∧ s2 ≠ 0 then do
        let j ← strstrMatch memory s1 s2 rounds 0
        let c2 ← memory (s2 + j)
        if c2 = 0 then return s1
        let c1 ← memory (s1 + j)
        if c1 = 0 then return 0 -- `s1` is shorter than `s2`
        strstrLoop rounds memory s2 fuel (s1 + 1)
      else some s1

/-- `strstr`. -/
def strstr (fuel : Nat) (memory : Readable) (s1 s2 : Nat) : Option Nat :=
  strstrLoop fuel memory s2 fuel s1

/-- The bytes of a string with its end can be read. -/
structure ReadsText (memory : Readable) (s : Nat) (text : List UInt8) : Prop where
  pointer : s ≠ 0
  nonzero : 0 ∉ text
  reads : ∀ i ≤ text.length, memory (s + i) = (text ++ [0])[i]?

/-- The first place where a text has another one. -/
def FirstAt (text part : List UInt8) (i : Nat) : Prop :=
  part <+: text.drop i ∧ ∀ k < i, ¬ part <+: text.drop k

variable {memory : Readable} {s s1 s2 fuel rounds i j : Nat}
  {text part common rest rest' : List UInt8} {c c' : UInt8}

section Texts

theorem ReadsText.tail (held : ReadsText memory s (c :: text)) : ReadsText memory (s + 1) text where
  pointer := Nat.succ_ne_zero s
  nonzero := fun mem => held.nonzero (List.mem_cons_of_mem c mem)
  reads i small := by
    have reads := held.reads (i + 1) (Nat.succ_le_succ small)
    rw [Nat.add_assoc, Nat.add_comm 1]
    exact reads

/-- The byte behind a part of the text: the next one, or the end. -/
theorem ReadsText.next (held : ReadsText memory s (common ++ rest)) :
    memory (s + common.length) = some (rest.headD 0) := by
  rw [held.reads _ (by simp), List.append_assoc, List.getElem?_append_right (Nat.le_refl _),
    Nat.sub_self]
  cases rest with
  | nil => rfl
  | cons c rest => rfl

theorem ReadsText.next_zero_iff (held : ReadsText memory s (common ++ rest)) :
    rest.headD 0 = 0 ↔ rest = [] := by
  cases rest with
  | nil => simp
  | cons c rest =>
      have nonzero : c ≠ 0 := fun zero => held.nonzero (by simp [zero])
      simpa using nonzero

end Texts

section Places

theorem firstAt_zero (here : part <+: text) : FirstAt text part 0 :=
  ⟨here, fun k small => absurd small (Nat.not_lt_zero k)⟩

/-- Where a text does not begin with the other one, the first place is in the rest. -/
theorem FirstAt.cons (first : FirstAt text part i) (notHere : ¬ part <+: c :: text) :
    FirstAt (c :: text) part (i + 1) := by
  refine ⟨first.1, fun k small => ?_⟩
  cases k with
  | zero => exact notHere
  | succ k => exact first.2 k (Nat.lt_of_succ_lt_succ small)

/-- A text that ends while it agrees with a longer one does not have it anywhere. -/
theorem not_infix_of_shorter (more : rest ≠ []) : ¬ text ++ rest <:+: text := by
  intro inside
  have short := inside.length_le
  rw [List.length_append] at short
  have positive := List.length_pos_of_ne_nil more
  omega

theorem infix_cons_iff (notHere : ¬ part <+: c :: text) : part <:+: c :: text ↔ part <:+: text := by
  rw [List.infix_cons_iff]
  exact or_iff_right notHere

end Places

section Search

/-- What the inner loop finds: the texts agree up to there, and then one of them ends or the
next bytes differ. -/
theorem strstrMatch_eq (common : List UInt8) (held : ReadsText memory s1 (common ++ rest))
    (held' : ReadsText memory s2 (common ++ rest')) (enough : rest.length < fuel) :
    ∃ more back back', rest = more ++ back ∧ rest' = more ++ back' ∧
      (back = [] ∨ back' = [] ∨ back.headD 0 ≠ back'.headD 0) ∧
      strstrMatch memory s1 s2 fuel common.length = some (common.length + more.length) := by
  induction rest generalizing common rest' fuel with
  | nil =>
      obtain ⟨fuel, rfl⟩ := Nat.exists_eq_add_one_of_ne_zero (Nat.ne_zero_of_lt enough)
      refine ⟨[], [], rest', rfl, rfl, .inl rfl, ?_⟩
      simp [strstrMatch, held.next]
  | cons c rest ih =>
      obtain ⟨fuel, rfl⟩ := Nat.exists_eq_add_one_of_ne_zero (Nat.ne_zero_of_lt enough)
      have nonzero : c ≠ 0 := fun zero => held.nonzero (by simp [zero])
      cases rest' with
      | nil =>
          refine ⟨[], c :: rest, [], rfl, rfl, .inr (.inl rfl), ?_⟩
          simp [strstrMatch, held.next, held'.next]
      | cons c' rest' =>
          have nonzero' : c' ≠ 0 := fun zero => held'.nonzero (by simp [zero])
          by_cases same : c = c'
          · subst same
            have longer : ReadsText memory s1 ((common ++ [c]) ++ rest) := by simpa using held
            have longer' : ReadsText memory s2 ((common ++ [c]) ++ rest') := by simpa using held'
            obtain ⟨more, back, back', split, split', ends, found⟩ :=
              ih (common ++ [c]) longer longer' (Nat.lt_of_succ_lt_succ enough)
            refine ⟨c :: more, back, back', by rw [split]; rfl, by rw [split']; rfl, ends, ?_⟩
            rw [List.length_append, List.length_singleton] at found
            simp only [strstrMatch, held.next, held'.next, List.headD_cons, Option.bind_eq_bind,
              Option.bind_some, if_neg nonzero, if_pos, List.length_cons]
            rw [found]
            congr 1
            omega
          · refine ⟨[], c :: rest, c' :: rest', rfl, rfl, .inr (.inr same), ?_⟩
            simp [strstrMatch, held.next, held'.next, nonzero, nonzero', same]

/-- One round: the search ends with a match, or where `s1` ends, or goes on behind a difference. -/
theorem strstr_round (held : ReadsText memory s1 text) (held' : ReadsText memory s2 part)
    (enough : text.length < rounds) :
    (part <+: text ∧ strstrLoop rounds memory s2 (fuel + 1) s1 = some s1) ∨
    (¬ part <:+: text ∧ strstrLoop rounds memory s2 (fuel + 1) s1 = some 0) ∨
    (¬ part <+: text ∧ text ≠ [] ∧
      strstrLoop rounds memory s2 (fuel + 1) s1 = strstrLoop rounds memory s2 fuel (s1 + 1)) := by
  obtain ⟨more, back, back', rfl, rfl, ends, found⟩ :=
    strstrMatch_eq [] held held' enough
  rw [List.length_nil, Nat.zero_add] at found
  have round : strstrLoop rounds memory s2 (fuel + 1) s1 =
      if back' = [] then some s1 else if back = [] then some 0
      else strstrLoop rounds memory s2 fuel (s1 + 1) := by
    have pointers : s1 ≠ 0 ∧ s2 ≠ 0 := ⟨held.pointer, held'.pointer⟩
    simp only [strstrLoop, if_pos pointers, found, Option.bind_eq_bind, Option.bind_some,
      held.next, held'.next, held.next_zero_iff, held'.next_zero_iff]
    rfl
  rw [round]
  by_cases whole : back' = []
  · subst whole
    rw [if_pos rfl, List.append_nil]
    exact .inl ⟨List.prefix_append .., rfl⟩
  rw [if_neg whole]
  by_cases short : back = []
  · subst short
    rw [if_pos rfl, List.append_nil]
    exact .inr (.inl ⟨not_infix_of_shorter whole, rfl⟩)
  rw [if_neg short]
  refine .inr (.inr ⟨fun here => ?_, by simp [short], rfl⟩)
  have differ : back.headD 0 ≠ back'.headD 0 := by tauto
  obtain ⟨behind, split⟩ := (List.prefix_append_right_inj more).mp here
  obtain ⟨c', rest', rfl⟩ := List.exists_cons_of_ne_nil whole
  subst split
  exact differ rfl

/-- The search ends at the first place, or with the null pointer where there is none. -/
theorem strstrLoop_eq (held : ReadsText memory s1 text) (held' : ReadsText memory s2 part)
    (enough : text.length < fuel) (enough' : text.length < rounds) :
    (part <:+: text ∧ ∃ i, FirstAt text part i ∧
      strstrLoop rounds memory s2 fuel s1 = some (s1 + i)) ∨
    (¬ part <:+: text ∧ strstrLoop rounds memory s2 fuel s1 = some 0) := by
  induction text generalizing s1 fuel with
  | nil =>
      obtain ⟨fuel, rfl⟩ := Nat.exists_eq_add_one_of_ne_zero (Nat.ne_zero_of_lt enough)
      rcases strstr_round held held' enough' with ⟨here, result⟩ | ⟨none, result⟩ | ⟨-, some, -⟩
      · exact .inl ⟨here.isInfix, 0, firstAt_zero here, result⟩
      · exact .inr ⟨none, result⟩
      · exact absurd rfl some
  | cons c text ih =>
      obtain ⟨fuel, rfl⟩ := Nat.exists_eq_add_one_of_ne_zero (Nat.ne_zero_of_lt enough)
      rcases strstr_round held held' enough' with
        ⟨here, result⟩ | ⟨none, result⟩ | ⟨notHere, -, result⟩
      · exact .inl ⟨here.isInfix, 0, firstAt_zero here, result⟩
      · exact .inr ⟨none, result⟩
      · rw [result, infix_cons_iff notHere]
        rcases ih held.tail (Nat.lt_of_succ_lt_succ enough)
            ((Nat.lt_succ_self _).trans enough') with ⟨inside, i, first, found⟩ | none
        · refine .inl ⟨inside, i + 1, first.cons notHere, ?_⟩
          rw [found]
          congr 1
          omega
        · exact .inr none

/-- `strstr` gives the first place of a string in another one, or the null pointer if and only
if there is none, on a memory of which no byte but those of the strings is readable. -/
theorem strstr_finds (memory : Readable) (s1 s2 : Nat) (text part : List UInt8)
    (held : ReadsText memory s1 text) (held' : ReadsText memory s2 part) :
    ∃ rounds, ∀ fuel, rounds ≤ fuel → ∃ found, strstr fuel memory s1 s2 = some found ∧
      (found = 0 ↔ ¬ part <:+: text) ∧
      (part <:+: text → ∃ i, FirstAt text part i ∧ found = s1 + i) := by
  refine ⟨text.length + 1, fun fuel enough => ?_⟩
  rcases strstrLoop_eq held held' enough enough with ⟨inside, i, first, result⟩ | ⟨none, result⟩
  · refine ⟨s1 + i, result, ?_, fun _ => ⟨i, first, rfl⟩⟩
    have pointer := held.pointer
    constructor
    · intro null
      omega
    · exact fun none => absurd inside none
  · exact ⟨0, result, ⟨fun _ => none, fun _ => rfl⟩, fun inside => absurd inside none⟩

end Search

/-- A memory with two strings: the second one is found in the first, behind a partial match. -/
def twoStrings : Readable := fun address =>
  if address < 16 then none
  else ((literal "pprog=x" ++ [0]) ++ (literal "prog=" ++ [0]))[address - 16]?

theorem strstr_finds_name :
    ∃ rounds, ∀ fuel, rounds ≤ fuel → ∃ found, strstr fuel twoStrings 16 24 = some found ∧
      (found = 0 ↔ ¬ literal "prog=" <:+: literal "pprog=x") ∧
      (literal "prog=" <:+: literal "pprog=x" →
        ∃ i, FirstAt (literal "pprog=x") (literal "prog=") i ∧ found = 16 + i) :=
  strstr_finds twoStrings 16 24 _ _ ⟨by decide, by decide, by decide⟩
    ⟨by decide, by decide, by decide⟩

end Oseer
