import Oseer.Library.Positional
import Oseer.Printing

/-!
# Numbers as text

`itoa` writes the digits of a number from the last one on, behind them the zeros and the prefix of
a hexadecimal number, and turns all of it round in place.  What it writes is `itoa` of the model of
printing, and is read back.
-/

namespace Oseer

open ByteMemory ByteMemory.Bytes Positional

/-- The loop that divides, with the pointer `p` and the number of digits. -/
def itoaWrite (base : UInt8) (divisor : Nat) :
    Nat → Nat → Nat → Nat → Bytes → Option (Nat × Nat × Bytes)
  | 0, _, _, _, _ => none
  | fuel + 1, p, digits, ud, store =>
      let remainder := ud % divisor
      let store := store.write p (itoaDigit base remainder)
      let ud := ud / divisor
      if ud ≠ 0 then itoaWrite base divisor fuel (p + 1) (digits + 1) ud store
      else some (p + 1, digits + 1, store)

/-- The loop that adds leading zeros. -/
def itoaZeros (p digits : Nat) (store : Bytes) : Nat × Bytes :=
  if digits < 8 then itoaZeros (p + 1) (digits + 1) (store.write p 48) else (p, store)
termination_by 8 - digits

/-- The loop that reverses the string. -/
def itoaReverse (p1 p2 : Nat) (store : Bytes) : Bytes :=
  if p1 < p2 then
    let tmp := store.byte p1
    let store := store.write p1 (store.byte p2)
    itoaReverse (p1 + 1) (p2 - 1) (store.write p2 tmp)
  else store
termination_by p2 - p1

/-- `itoa`, with the buffer in memory. -/
def itoaIn (buf : Nat) (base : UInt8) (d : Int) (store : Bytes) : Option Bytes := do
  let minus : Bool := base = 100 ∧ d < 0
  let store := if minus then store.write buf 45 else store
  let buf := if minus then buf + 1 else buf
  let ud := if minus then ((-d) % 2 ^ 32).toNat else (d % 2 ^ 32).toNat
  let divisor := if !minus && isHex base then 16 else 10
  let written ← itoaWrite base divisor 32 buf 0 ud store
  let p := written.1
  let store := written.2.2
  if isHex base then
    let padded := itoaZeros p written.2.1 store
    let store := (padded.2.write padded.1 120).write (padded.1 + 1) 48
    let p := padded.1 + 2
    return itoaReverse buf (p - 1) (store.write p 0)
  return itoaReverse buf (p - 1) (store.write p 0)

variable {store : Bytes} {base : UInt8} {divisor fuel p p1 p2 ud count buf : Nat} {d : Int}
  {digits text xs : List UInt8} {region : Nat → Prop}

section Loops

theorem itoaWrite_eq (divides : itoaLoop base divisor fuel ud = some digits) :
    itoaWrite base divisor fuel p count ud store =
      some (p + digits.length, count + digits.length, store.writeAll p digits) := by
  induction fuel generalizing p count ud store digits with
  | zero => cases divides
  | succ fuel ih =>
      rw [itoaLoop] at divides
      rw [itoaWrite]
      by_cases last : ud / divisor = 0
      · rw [if_pos last] at divides
        obtain rfl := Option.some.inj divides
        simp only [last, ne_eq, not_true_eq_false, if_false]
        rfl
      · rw [if_neg last] at divides
        obtain ⟨rest, more, rfl⟩ := Option.map_eq_some_iff.mp divides
        simp only [last, ne_eq, not_false_eq_true, if_true, ih more, List.length_cons]
        rw [writeAll, Nat.add_assoc, Nat.add_assoc, Nat.add_comm 1]

theorem itoaZeros_eq :
    itoaZeros p count store =
      (p + (8 - count), store.writeAll p (List.replicate (8 - count) 48)) := by
  induction missing : 8 - count generalizing p count store with
  | zero =>
      rw [itoaZeros, if_neg (by omega)]
      rfl
  | succ missing ih =>
      rw [itoaZeros, if_pos (by omega), ih (by omega), List.replicate_succ, writeAll]
      congr 1
      omega

/-- A text is turned round in place, and nothing else is written. -/
theorem itoaReverse_holds (region : Nat → Prop) (held : store.Holds p1 xs) (ends : p2 + 1 = p1 + xs.length) :
    (itoaReverse p1 p2 store).Holds p1 xs.reverse ∧
      (∀ address, address < p1 ∨ p1 + xs.length ≤ address →
        (itoaReverse p1 p2 store).byte address = store.byte address) ∧
      (store.WrittenIn region → (∀ i, p1 ≤ i → i < p1 + xs.length → region i) →
        (itoaReverse p1 p2 store).WrittenIn region) := by
  induction xs using List.bidirectionalRec generalizing p1 p2 store with
  | nil =>
      rw [itoaReverse, if_neg (by simp at ends; omega)]
      exact ⟨trivial, fun _ _ => rfl, fun before _ => before⟩
  | singleton x =>
      rw [itoaReverse, if_neg (by simp at ends; omega)]
      exact ⟨held, fun _ _ => rfl, fun before _ => before⟩
  | cons_append x xs y ih =>
      rw [List.length_cons, List.length_append, List.length_singleton] at ends
      obtain ⟨first, rest⟩ := held
      obtain ⟨middle, final, -⟩ := holds_append.mp rest
      have place : p1 + 1 + xs.length = p2 := by omega
      rw [place] at final
      rw [itoaReverse, if_pos (by omega), first, final]
      have inner : ((store.write p1 y).write p2 x).Holds (p1 + 1) xs := by
        have outer : (store.write p1 y).Holds (p1 + 1) xs :=
          (holds_write (Or.inl (Nat.lt_succ_self p1))).mpr middle
        exact (holds_write (Or.inr place.le)).mpr outer
      have ends' : p2 - 1 + 1 = p1 + 1 + xs.length := by omega
      obtain ⟨turned, kept, writes⟩ := ih inner ends'
      refine ⟨?_, ?_, ?_⟩
      · rw [List.reverse_cons, List.reverse_append, List.reverse_singleton, List.singleton_append,
          List.cons_append]
        refine ⟨?_, holds_append.mpr ⟨turned, ?_, trivial⟩⟩
        · rw [kept p1 (by omega), write_other (show p1 ≠ p2 by omega), write_same]
        · rw [List.length_reverse, place, kept p2 (by omega), write_same]
      · intro address apart
        rw [List.length_cons, List.length_append, List.length_singleton] at apart
        rw [kept address (by omega), write_other (show address ≠ p2 by omega),
          write_other (show address ≠ p1 by omega)]
      · intro before inside
        rw [List.length_cons, List.length_append, List.length_singleton] at inside
        apply writes
        · intro address mem
          rcases List.mem_cons.mp mem with rfl | mem
          · exact inside _ (by omega) (by omega)
          · rcases List.mem_cons.mp mem with rfl | mem
            · exact inside _ (by omega) (by omega)
            · exact before address mem
        · exact fun i low high => inside i (by omega) (by omega)

end Loops

section Text

theorem itoaLoop_ne_nil (divides : itoaLoop base divisor fuel ud = some digits) : digits ≠ [] := by
  cases fuel with
  | zero => cases divides
  | succ fuel =>
      rw [itoaLoop] at divides
      split at divides
      · obtain rfl := Option.some.inj divides
        exact List.cons_ne_nil _ _
      · obtain ⟨rest, -, rfl⟩ := Option.map_eq_some_iff.mp divides
        exact List.cons_ne_nil _ _

/-- What was written is ended and turned round. -/
theorem turned_holds (region : Nat → Prop) (nonempty : xs ≠ []) {store' : Bytes}
    (turned : itoaReverse buf (buf + xs.length - 1)
      ((store.writeAll buf xs).write (buf + xs.length) 0) = store') :
    store'.Holds buf (xs.reverse ++ [0]) ∧
      (∀ address < buf, store'.byte address = store.byte address) ∧
      (store.WrittenIn region →
        (∀ i, buf ≤ i → i < buf + (xs.length + 1) → region i) → store'.WrittenIn region) := by
  have positive := List.length_pos_of_ne_nil nonempty
  have held : ((store.writeAll buf xs).write (buf + xs.length) 0).Holds buf xs :=
    (holds_write (Or.inr (Nat.le_refl _))).mpr writeAll_holds
  obtain ⟨reversed, kept, writes⟩ := itoaReverse_holds region held
    (show buf + xs.length - 1 + 1 = buf + xs.length by omega)
  rw [turned] at reversed kept writes
  refine ⟨holds_append.mpr ⟨reversed, ?_, trivial⟩, fun address below => ?_, fun before inside => ?_⟩
  · rw [List.length_reverse, kept _ (Or.inr (Nat.le_refl _)), write_same]
  · rw [kept address (Or.inl below), write_other (show address ≠ buf + xs.length by omega)]
    exact writeAll_other (Or.inl below)
  · apply writes
    · intro address mem
      rcases List.mem_cons.mp mem with rfl | mem
      · exact inside _ (by omega) (by omega)
      · exact writeAll_writtenIn before (fun i low high => inside i low (by omega)) address mem
    · exact fun i low high => inside i low (by omega)

/-- The string without sign and prefix. -/
theorem itoaIn_plain (plain : ¬ (base = 100 ∧ d < 0)) (notHex : isHex base = false)
    (divides : itoaLoop base 10 32 (d % 2 ^ 32).toNat = some digits) :
    itoaIn buf base d store = some (itoaReverse buf (buf + digits.length - 1)
      ((store.writeAll buf digits).write (buf + digits.length) 0)) := by
  unfold itoaIn
  simp only [plain, decide_false, Bool.false_eq_true, if_false, Bool.not_false, Bool.true_and,
    notHex, itoaWrite_eq divides, Option.bind_eq_bind, Option.bind_some]
  rfl

/-- The string of a negative number. -/
theorem itoaIn_minus (negative : d < 0)
    (divides : itoaLoop 100 10 32 ((-d) % 2 ^ 32).toNat = some digits) :
    itoaIn buf 100 d store = some (itoaReverse (buf + 1) (buf + 1 + digits.length - 1)
      (((store.write buf 45).writeAll (buf + 1) digits).write (buf + 1 + digits.length) 0)) := by
  have notHex : isHex 100 = false := rfl
  unfold itoaIn
  simp only [negative, true_and, decide_true, if_true, Bool.not_true, Bool.false_and,
    Bool.false_eq_true, if_false, notHex, itoaWrite_eq divides, Option.bind_eq_bind,
    Option.bind_some]
  rfl

/-- The hexadecimal string, from its end to its prefix. -/
theorem itoaIn_hex (hex : isHex base = true)
    (divides : itoaLoop base 16 32 (d % 2 ^ 32).toNat = some digits) :
    let raw := digits ++ List.replicate (8 - digits.length) 48 ++ [120, 48]
    itoaIn buf base d store = some (itoaReverse buf (buf + raw.length - 1)
      ((store.writeAll buf raw).write (buf + raw.length) 0)) := by
  have plain : ¬ (base = 100 ∧ d < 0) := by
    rintro ⟨rfl, -⟩
    cases hex
  intro raw
  have length : buf + raw.length = buf + digits.length + (8 - digits.length) + 2 := by
    simp [raw]
    omega
  unfold itoaIn
  simp only [plain, decide_false, Bool.false_eq_true, if_false, Bool.not_false, Bool.true_and,
    hex, if_true, itoaWrite_eq divides, itoaZeros_eq, Option.bind_eq_bind, Option.bind_some,
    Nat.zero_add]
  rw [length]
  simp only [raw, writeAll_append, List.length_append, List.length_replicate, writeAll,
    ← Nat.add_assoc]
  rfl

/-- `itoa` leaves its text in the buffer with a zero behind it, and writes nothing else. -/
theorem itoaIn_text (writes : itoa base d = some text) :
    ∃ store', itoaIn buf base d store = some store' ∧ store'.Holds buf (text ++ [0]) ∧
      (store.WrittenIn region →
        (∀ i, buf ≤ i → i < buf + (text.length + 1) → region i) → store'.WrittenIn region) := by
  unfold itoa at writes
  by_cases minus : base = 100 ∧ d < 0
  · rw [if_pos minus] at writes
    obtain ⟨digits, divides, ended⟩ := Option.bind_eq_some_iff.mp writes
    obtain rfl := Option.some.inj ended
    obtain ⟨rfl, negative⟩ := minus
    obtain ⟨held, kept, inside⟩ := turned_holds region (itoaLoop_ne_nil divides) rfl
    refine ⟨_, itoaIn_minus negative divides, ⟨?_, held⟩, fun before room => ?_⟩
    · exact (kept buf (Nat.lt_succ_self buf)).trans write_same
    · rw [List.length_cons, List.length_reverse] at room
      apply inside
      · intro address mem
        rcases List.mem_cons.mp mem with rfl | mem
        · exact room _ (Nat.le_refl _) (by omega)
        · exact before address mem
      · exact fun i low high => room i (by omega) (by omega)
  · rw [if_neg minus] at writes
    obtain ⟨digits, divides, ended⟩ := Option.bind_eq_some_iff.mp writes
    by_cases hex : isHex base = true
    · rw [if_pos hex] at divides ended
      obtain rfl := Option.some.inj ended
      have nonempty : digits ++ List.replicate (8 - digits.length) 48 ++ [120, 48] ≠ [] := by simp
      obtain ⟨held, -, inside⟩ := turned_holds region nonempty rfl
      refine ⟨_, itoaIn_hex hex divides, held, fun before room => inside before ?_⟩
      rwa [List.length_reverse] at room
    · rw [if_neg hex] at divides ended
      obtain rfl := Option.some.inj ended
      obtain ⟨held, -, inside⟩ := turned_holds region (itoaLoop_ne_nil divides) rfl
      refine ⟨_, itoaIn_plain minus (Bool.eq_false_iff.mpr hex) divides, held,
        fun before room => inside before ?_⟩
      rwa [List.length_reverse] at room

end Text

/-- The value of a letter as a digit. -/
def digitValue (c : UInt8) : Option Nat :=
  if 48 ≤ c ∧ c ≤ 57 then some (c.toNat - 48)
  else if 97 ≤ c ∧ c ≤ 102 then some (c.toNat - 87)
  else if 65 ≤ c ∧ c ≤ 70 then some (c.toNat - 55)
  else none

/-- The number that a decimal text with a sign stands for. -/
def readSigned (text : List UInt8) : Option Int :=
  if text.head? = some 45 then
    (read digitValue 10 text.tail).map fun number : Nat => -(number : Int)
  else (read digitValue 10 text).map fun number : Nat => (number : Int)

/-- Nothing but the number zero begins with a zero. -/
def NoLeadingZero (text : List UInt8) : Prop := text.head? = some 48 → text = [48]

/-- The text of a number is read back in the base that it was written in. -/
structure ReadsBack (base : UInt8) (d : Int) (text : List UInt8) : Prop where
  signed : base = 100 → readSigned text = some d ∧ NoLeadingZero text ∧
    ∀ digits, text = 45 :: digits → NoLeadingZero digits
  unsigned : base = 117 → read digitValue 10 text = some (d % 2 ^ 32).toNat ∧ NoLeadingZero text
  hex : base = 120 ∨ base = 88 → ∃ digits, text = literal "0x" ++ digits ∧ digits.length = 8 ∧
    read digitValue 16 digits = some (d % 2 ^ 32).toNat

section Digits

variable {number : Nat} {ds : List Nat}

theorem digitValue_digit (base : UInt8) : ∀ n < 16, digitValue (itoaDigit base n) = some n := by
  by_cases small : base = 120
  · subst small
    decide
  · have same : ∀ n, itoaDigit base n = itoaDigit 88 n := by
      intro n
      have capital : (88 : UInt8) ≠ 120 := by decide
      simp only [itoaDigit, if_neg small, if_neg capital]
    intro n
    rw [same]
    revert n
    decide

theorem itoaDigit_ne (base : UInt8) {n : Nat} (small : n < 16) :
    itoaDigit base n ≠ 0 ∧ itoaDigit base n ≠ 45 := by
  have value := digitValue_digit base n small
  constructor
  · intro same
    rw [same] at value
    cases value
  · intro same
    rw [same] at value
    cases value

theorem itoaDigit_eq_zero (base : UInt8) {n : Nat} (small : n < 16) (zero : itoaDigit base n = 48) :
    n = 0 := by
  have value := digitValue_digit base n small
  rw [zero] at value
  exact (Option.some.inj value).symm

/-- The loop that divides finds the numeral. -/
theorem itoaLoop_numeral (positive : 0 < divisor)
    (divides : itoaLoop base divisor fuel ud = some digits) :
    ∃ ds, digits = ds.map (itoaDigit base) ∧ Numeral divisor ud ds := by
  induction fuel generalizing ud digits with
  | zero => cases divides
  | succ fuel ih =>
      rw [itoaLoop] at divides
      by_cases last : ud / divisor = 0
      · rw [if_pos last] at divides
        obtain rfl := Option.some.inj divides
        have small : ud < divisor := by
          rcases Nat.div_eq_zero_iff.mp last with zero | small
          · exact absurd zero positive.ne'
          · exact small
        rw [Nat.mod_eq_of_lt small]
        exact ⟨[ud], rfl, .single small⟩
      · rw [if_neg last] at divides
        obtain ⟨rest, more, rfl⟩ := Option.map_eq_some_iff.mp divides
        obtain ⟨ds, rfl, numeral⟩ := ih more
        exact ⟨ud % divisor :: ds, rfl, numeral.cons positive last⟩

theorem letters_ne (base : UInt8) (small : ∀ n ∈ ds, n < 16) :
    0 ∉ (ds.map (itoaDigit base)).reverse ∧ 45 ∉ (ds.map (itoaDigit base)).reverse := by
  simp only [List.mem_reverse, List.mem_map, not_exists, not_and]
  exact ⟨fun n mem => (itoaDigit_ne base (small n mem)).1,
    fun n mem => (itoaDigit_ne base (small n mem)).2⟩

/-- A decimal text: its letters, its length and its value. -/
theorem decimal_text (base : UInt8) (numeral : Numeral 10 number ds) (fits : number < 2 ^ 32) :
    let text := (ds.map (itoaDigit base)).reverse
    read digitValue 10 text = some number ∧ NoLeadingZero text ∧ text.length ≤ 10 ∧
      0 ∉ text ∧ 45 ∉ text := by
  intro text
  have small : ∀ n ∈ ds, n < 16 := fun n mem => (numeral.small n mem).trans (by decide)
  refine ⟨?_, ?_, ?_, letters_ne base small⟩
  · have readBack := read_reverse (fun n below => digitValue_digit base n
      (below.trans (by decide))) numeral.small numeral.nonempty
    rwa [numeral.value] at readBack
  · intro zero
    rw [List.head?_reverse, List.getLast?_map] at zero
    obtain ⟨n, last, isZero⟩ := Option.map_eq_some_iff.mp zero
    have nZero := itoaDigit_eq_zero base (small n (List.mem_of_getLast? last)) isZero
    subst nZero
    have single := numeral.lead last
    simp only [text, single, List.map_singleton, List.reverse_singleton, isZero]
  · simp only [text, List.length_reverse, List.length_map]
    exact numeral.length_le (by decide) (fits.trans (by decide)) (by decide)

/-- The eight letters of a hexadecimal text. -/
theorem hex_text (base : UInt8) (numeral : Numeral 16 number ds) (fits : number < 2 ^ 32) :
    let text := List.replicate (8 - ds.length) 48 ++ (ds.map (itoaDigit base)).reverse
    read digitValue 16 text = some number ∧ text.length = 8 ∧ 0 ∉ text := by
  intro text
  have short : ds.length ≤ 8 := numeral.length_le (by decide) fits (by decide)
  have padded : text = ((ds ++ List.replicate (8 - ds.length) 0).map (itoaDigit base)).reverse := by
    have zero : itoaDigit base 0 = 48 := rfl
    simp only [text, List.map_append, List.map_replicate, List.reverse_append,
      List.reverse_replicate, zero]
  have small : ∀ n ∈ ds ++ List.replicate (8 - ds.length) 0, n < 16 := by
    intro n mem
    rcases List.mem_append.mp mem with inDigits | isZero
    · exact numeral.small n inDigits
    · rw [List.eq_of_mem_replicate isZero]
      decide
  have nonempty : ds ++ List.replicate (8 - ds.length) 0 ≠ [] :=
    List.append_ne_nil_of_left_ne_nil numeral.nonempty _
  rw [padded]
  refine ⟨?_, ?_, (letters_ne base small).1⟩
  · rw [read_reverse (digitValue_digit base) small nonempty, Nat.ofDigits_append_replicate_zero,
      numeral.value]
  · rw [List.length_reverse, List.length_map, List.length_append, List.length_replicate]
    omega

end Digits

section RoundTrip

theorem readSigned_plain (noSign : 45 ∉ text) :
    readSigned text = (read digitValue 10 text).map fun number : Nat => (number : Int) := by
  unfold readSigned
  apply if_neg
  exact fun sign => noSign (List.mem_of_mem_head? sign)

/-- The text of a negative number. -/
theorem minus_readsBack (low : -2 ^ 31 ≤ d) (negative : d < 0)
    (divides : itoaLoop 100 10 32 ((-d) % 2 ^ 32).toNat = some digits) :
    ReadsBack 100 d (45 :: digits.reverse) ∧ (45 :: digits.reverse).length ≤ 11 ∧
      0 ∉ 45 :: digits.reverse := by
  obtain ⟨ds, rfl, numeral⟩ := itoaLoop_numeral (by decide) divides
  obtain ⟨readBack, noZero, short, nonzero, -⟩ := decimal_text 100 numeral (by omega)
  refine ⟨⟨fun _ => ⟨?_, ?_, ?_⟩, fun other => absurd other (by decide),
    fun other => absurd other (by decide)⟩, Nat.succ_le_succ short, ?_⟩
  · unfold readSigned
    rw [List.head?_cons, if_pos rfl, List.tail_cons, readBack, Option.map_some]
    congr 1
    omega
  · intro zero
    exact absurd (Option.some.inj zero) (by decide)
  · intro digits same
    rw [← (List.cons.inj same).2]
    exact noZero
  · exact List.not_mem_cons_of_ne_of_not_mem (by decide) nonzero

/-- The text of a number that is written with no sign. -/
theorem plain_readsBack (isBase : isBase base = true) (plain : ¬ (base = 100 ∧ d < 0))
    (notHex : isHex base = false) (high : d < 2 ^ 31)
    (divides : itoaLoop base 10 32 (d % 2 ^ 32).toNat = some digits) :
    ReadsBack base d digits.reverse ∧ digits.reverse.length ≤ 11 ∧ 0 ∉ digits.reverse := by
  obtain ⟨ds, rfl, numeral⟩ := itoaLoop_numeral (by decide) divides
  obtain ⟨readBack, noZero, short, nonzero, noSign⟩ := decimal_text base numeral (by omega)
  refine ⟨⟨fun isSigned => ⟨?_, noZero, ?_⟩, fun _ => ⟨readBack, noZero⟩, ?_⟩,
    short.trans (by decide), nonzero⟩
  · rw [readSigned_plain noSign, readBack, Option.map_some]
    have notNegative : ¬ d < 0 := fun negative => plain ⟨isSigned, negative⟩
    congr 1
    omega
  · intro digits same
    exact absurd (same ▸ List.mem_cons_self) noSign
  · rintro (rfl | rfl)
    · cases notHex
    · cases notHex

/-- The text of a hexadecimal number. -/
theorem hex_readsBack (hex : isHex base = true)
    (divides : itoaLoop base 16 32 (d % 2 ^ 32).toNat = some digits) :
    let text := (digits ++ List.replicate (8 - digits.length) 48 ++ [120, 48]).reverse
    ReadsBack base d text ∧ text.length ≤ 11 ∧ 0 ∉ text := by
  intro text
  obtain ⟨ds, rfl, numeral⟩ := itoaLoop_numeral (by decide) divides
  obtain ⟨readBack, length, nonzero⟩ := hex_text base numeral (by omega)
  have shape : text = literal "0x" ++
      (List.replicate (8 - ds.length) 48 ++ (ds.map (itoaDigit base)).reverse) := by
    have zeroX : literal "0x" = [48, 120] := by decide
    simp only [text, List.reverse_append, List.reverse_replicate, List.length_map, zeroX]
    rfl
  rw [shape]
  refine ⟨⟨?_, ?_, fun _ => ⟨_, rfl, length, readBack⟩⟩, ?_, ?_⟩
  · rintro rfl
    cases hex
  · rintro rfl
    cases hex
  · rw [List.length_append, length]
    decide
  · have prefixNonzero : 0 ∉ literal "0x" := by decide
    exact List.not_mem_append prefixNonzero nonzero

/-- What `itoa` gives is read back. -/
theorem itoa_readsBack (isBase : isBase base = true) (low : -2 ^ 31 ≤ d) (high : d < 2 ^ 31)
    (writes : itoa base d = some text) :
    ReadsBack base d text ∧ text.length ≤ 11 ∧ 0 ∉ text := by
  unfold itoa at writes
  by_cases minus : base = 100 ∧ d < 0
  · rw [if_pos minus] at writes
    obtain ⟨digits, divides, ended⟩ := Option.bind_eq_some_iff.mp writes
    obtain rfl := Option.some.inj ended
    obtain ⟨rfl, negative⟩ := minus
    exact minus_readsBack low negative divides
  · rw [if_neg minus] at writes
    obtain ⟨digits, divides, ended⟩ := Option.bind_eq_some_iff.mp writes
    by_cases hex : isHex base = true
    · rw [if_pos hex] at divides ended
      obtain rfl := Option.some.inj ended
      exact hex_readsBack hex divides
    · rw [if_neg hex] at divides ended
      obtain rfl := Option.some.inj ended
      exact plain_readsBack isBase minus (Bool.eq_false_iff.mpr hex) high divides

/-- `itoa` writes at most 20 bytes, and a text that is read back as the number. -/
theorem number_text_round_trip (buf : Nat) (base : UInt8) (d : Int) (store : Bytes)
    (isBase : isBase base = true) (low : -2 ^ 31 ≤ d) (high : d < 2 ^ 31) :
    ∃ text store', itoaIn buf base d store.forget = some store' ∧ store'.HoldsText buf text ∧
      store'.WrittenIn (fun address => buf ≤ address ∧ address < buf + 20) ∧
      ReadsBack base d text := by
  obtain ⟨text, writes⟩ := itoa_ends base d
  obtain ⟨readsBack, short, nonzero⟩ := itoa_readsBack isBase low high writes
  obtain ⟨store', result, held, inside⟩ := itoaIn_text writes
  refine ⟨text, store', result, ⟨nonzero, held⟩, inside ?_ ?_, readsBack⟩
  · exact fun address mem => absurd mem List.not_mem_nil
  · exact fun i low high => ⟨low, by omega⟩

/-- The least number, which is its own negative. -/
theorem number_text_round_trip_least : ∃ text store',
    itoaIn 4096 100 (-2147483648) (Bytes.forget ⟨fun _ => 0, []⟩) = some store' ∧
      store'.HoldsText 4096 text ∧
      store'.WrittenIn (fun address => 4096 ≤ address ∧ address < 4096 + 20) ∧
      ReadsBack 100 (-2147483648) text :=
  number_text_round_trip 4096 100 (-2147483648) ⟨fun _ => 0, []⟩ (by decide) (by decide)
    (by decide)

end RoundTrip

end Oseer
