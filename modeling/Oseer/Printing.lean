import Oseer.CStrings

/-!
# Formatted printing

`kprint` of the kernel and `print` of the programs are copies of one loop on a format, with another
font; `print` locks the device around it.  The loop notes what it reads of the format.
-/

namespace Oseer

open ByteMemory ByteMemory.Bytes

def KERNEL_FONT : Nat := 1

def USER_FONT : Nat := 2

/-- A `char` as an `int`. -/
def asChar (c : UInt8) : Int := c.toInt8.toInt

/-- A word of the stack as an `int`. -/
def asInt (word : Nat) : Int := if word < 2 ^ 31 then word else word - 2 ^ 32

section Numbers

/-- `'d'`, `'u'`, `'x'` and `'X'`. -/
def isBase (c : UInt8) : Bool := c = 100 || c = 117 || c = 120 || c = 88

def isHex (base : UInt8) : Bool := base = 120 || base = 88

/-- A digit. -/
def itoaDigit (base : UInt8) (remainder : Nat) : UInt8 :=
  if remainder < 10 then UInt8.ofNat (remainder + 48)
  else UInt8.ofNat (remainder + (if base = 120 then 97 else 65) - 10)

/-- The loop of `itoa` that divides: the digits, the last one first. -/
def itoaLoop (base : UInt8) (divisor : Nat) : Nat → Nat → Option (List UInt8)
  | 0, _ => none
  | fuel + 1, ud =>
      if ud / divisor = 0 then some [itoaDigit base (ud % divisor)]
      else (itoaLoop base divisor fuel (ud / divisor)).map (itoaDigit base (ud % divisor) :: ·)

/-- `itoa`: a number of 32 bits has no more digits than that. -/
def itoa (base : UInt8) (d : Int) : Option (List UInt8) := do
  if base = 100 ∧ d < 0 then
    let digits ← itoaLoop base 10 32 ((-d) % 2 ^ 32).toNat
    return 45 :: digits.reverse
  let digits ← itoaLoop base (if isHex base then 16 else 10) 32 (d % 2 ^ 32).toNat
  if isHex base then
    return (digits ++ List.replicate (8 - digits.length) 48 ++ [120, 48]).reverse
  return digits.reverse

end Numbers

section Loop

/-- What is printed, how many arguments are taken, and which bytes of the format are read. -/
structure Printed where
  chars : List Int
  args : Nat
  reads : List Nat
deriving DecidableEq, Repr

/-- The characters of a string, `while ( *p )`. -/
def stringFrom (store : Bytes) : Nat → Nat → Option (List UInt8)
  | 0, _ => none
  | fuel + 1, p =>
      if store.byte p = 0 then some [] else (stringFrom store fuel (p + 1)).map (store.byte p :: ·)

/-- The `switch` on the character behind a `'%'`. -/
def printArgument (fuel : Nat) (store : Bytes) (c : UInt8) (arg : Nat) : Option (List Int) :=
  if isBase c then (itoa c (asInt arg)).map (·.map asChar)
  else if c = 115 then
    if arg = 0 then some ((literal "(null)").map asChar)
    else (stringFrom store fuel arg).map (·.map asChar)
  else some [asInt arg]

/-- The loop on the format, with the words of the arguments. -/
def printLoop (fuel : Nat) (store : Bytes) (args : Nat → Nat) : Nat → Nat → Nat → Option Printed
  | 0, _, _ => none
  | rounds + 1, format, arg =>
      if store.byte format = 0 then some ⟨[], arg, [format]⟩
      else if store.byte format ≠ 37 then do
        let rest ← printLoop fuel store args rounds (format + 1) arg
        return ⟨asChar (store.byte format) :: rest.chars, rest.args, format :: rest.reads⟩
      else do
        let chars ← printArgument fuel store (store.byte (format + 1)) (args arg)
        let rest ← printLoop fuel store args rounds (format + 2) (arg + 1)
        return ⟨chars ++ rest.chars, rest.args, format :: (format + 1) :: rest.reads⟩

/-- What the device gets. -/
inductive PrintEvent
  | lock
  | unlock
  | char (c : Int) (attr : Nat)
deriving DecidableEq, Repr

/-- `kprint`. -/
def kprint (fuel : Nat) (store : Bytes) (format : Nat) (args : Nat → Nat) :
    Option (List PrintEvent × Printed) := do
  if format = 0 then return ([], ⟨[], 0, []⟩)
  let printed ← printLoop fuel store args fuel format 0
  return (printed.chars.map (.char · KERNEL_FONT), printed)

/-- `print`. -/
def print (fuel : Nat) (store : Bytes) (format : Nat) (args : Nat → Nat) :
    Option (List PrintEvent × Printed) := do
  if format = 0 then return ([], ⟨[], 0, []⟩)
  let printed ← printLoop fuel store args fuel format 0
  return (.lock :: printed.chars.map (.char · USER_FONT) ++ [.unlock], printed)

end Loop

section Format

/-- A part of a format: a character, a conversion, or a `'%'` with nothing behind it. -/
inductive Piece
  | plain (c : UInt8)
  | conversion (c : UInt8)
  | loose
deriving DecidableEq, Repr

/-- The parts of a format. -/
def pieces : List UInt8 → List Piece
  | [] => []
  | [c] => if c = 37 then [.loose] else [.plain c]
  | c :: d :: text =>
      if c = 37 then .conversion d :: pieces text else .plain c :: pieces (d :: text)

/-- The conversions of a format. -/
def conversions (format : List Piece) : Nat :=
  format.countP fun | .conversion _ => true | _ => false

/-- What a conversion shows of its argument. -/
inductive ShowsArgument (store : Bytes) (arg : Nat) : UInt8 → List Int → Prop
  | number {c : UInt8} {digits : List UInt8} : isBase c = true → itoa c (asInt arg) = some digits →
      ShowsArgument store arg c (digits.map asChar)
  | null : arg = 0 → ShowsArgument store arg 115 ((literal "(null)").map asChar)
  | string {text : List UInt8} : arg ≠ 0 → store.HoldsText arg text →
      ShowsArgument store arg 115 (text.map asChar)
  | char {c : UInt8} : isBase c = false → c ≠ 115 → ShowsArgument store arg c [asInt arg]

/-- What a format shows of the arguments from the `k`-th on.  It is left open what a loose `'%'`
should show. -/
inductive Shows (store : Bytes) (args : Nat → Nat) : Nat → List Piece → List Int → Prop
  | nil (k : Nat) : Shows store args k [] []
  | plain {k : Nat} {c : UInt8} {format : List Piece} {chars : List Int} :
      Shows store args k format chars → Shows store args k (.plain c :: format) (asChar c :: chars)
  | conversion {k : Nat} {c : UInt8} {format : List Piece} {shown chars : List Int} :
      ShowsArgument store (args k) c shown → Shows store args (k + 1) format chars →
      Shows store args k (.conversion c :: format) (shown ++ chars)
  | loose {k : Nat} {format : List Piece} {shown chars : List Int} :
      Shows store args k format chars → Shows store args k (.loose :: format) (shown ++ chars)

/-- The arguments from the `k`-th on fit the format: for `%s` there is a string, or null. -/
def ArgumentsFit (store : Bytes) (args : Nat → Nat) : Nat → List Piece → Prop
  | _, [] => True
  | k, .conversion c :: format =>
      (c = 115 → args k ≠ 0 → ∃ text, store.HoldsText (args k) text) ∧
        ArgumentsFit store args (k + 1) format
  | k, _ :: format => ArgumentsFit store args k format

end Format

section Numerals

variable {base : UInt8} {divisor fuel ud : Nat}

/-- The loop that divides ends after as many rounds as the number has digits. -/
theorem itoaLoop_ends (positive : 0 < fuel) (fits : ud < divisor ^ fuel) :
    ∃ digits, itoaLoop base divisor fuel ud = some digits ∧ 0 < digits.length ∧
      digits.length ≤ fuel := by
  induction fuel generalizing ud with
  | zero => cases positive
  | succ fuel ih =>
      by_cases last : ud / divisor = 0
      · exact ⟨_, if_pos last, Nat.zero_lt_one, Nat.succ_le_succ (Nat.zero_le _)⟩
      · have smaller : ud / divisor < divisor ^ fuel := by
          apply Nat.div_lt_of_lt_mul
          rwa [Nat.pow_succ, Nat.mul_comm] at fits
        have more : 0 < fuel := by
          apply Nat.pos_of_ne_zero
          rintro rfl
          exact last (Nat.lt_one_iff.mp smaller)
        obtain ⟨digits, divides, -, short⟩ := ih more smaller
        refine ⟨itoaDigit base (ud % divisor) :: digits, ?_, Nat.succ_pos _, Nat.succ_le_succ short⟩
        rw [itoaLoop, if_neg last, divides]
        rfl

/-- `itoa` writes a number of 32 bits. -/
theorem itoa_ends (base : UInt8) (d : Int) : ∃ digits, itoa base d = some digits := by
  have word (n : Int) : (n % 2 ^ 32).toNat < 2 ^ 32 := by omega
  have ten (n : Int) : ∃ digits, itoaLoop base 10 32 (n % 2 ^ 32).toNat = some digits :=
    (itoaLoop_ends (by decide) (Nat.lt_trans (word n) (by decide))).imp fun _ found => found.1
  have sixteen (n : Int) : ∃ digits, itoaLoop base 16 32 (n % 2 ^ 32).toNat = some digits :=
    (itoaLoop_ends (by decide) (Nat.lt_trans (word n) (by decide))).imp fun _ found => found.1
  unfold itoa
  split
  · obtain ⟨digits, divides⟩ := ten (-d)
    rw [divides]
    exact ⟨_, rfl⟩
  · split
    · obtain ⟨digits, divides⟩ := sixteen d
      rw [divides]
      exact ⟨_, rfl⟩
    · obtain ⟨digits, divides⟩ := ten d
      rw [divides]
      exact ⟨_, rfl⟩

end Numerals

section Scanner

variable {store : Bytes} {args : Nat → Nat} {format k fuel rounds : Nat} {c : UInt8}
  {text : List UInt8}

theorem stringFrom_text (nonzero : 0 ∉ text) (held : store.Holds k (text ++ [0]))
    (enough : text.length < fuel) : stringFrom store fuel k = some text := by
  induction text generalizing fuel k with
  | nil =>
      obtain ⟨fuel, rfl⟩ := Nat.exists_eq_add_one_of_ne_zero (Nat.ne_zero_of_lt enough)
      exact if_pos held.1
  | cons byte text ih =>
      obtain ⟨fuel, rfl⟩ := Nat.exists_eq_add_one_of_ne_zero (Nat.ne_zero_of_lt enough)
      rw [List.mem_cons, not_or] at nonzero
      rw [stringFrom, if_neg (held.1.trans_ne (Ne.symm nonzero.1)),
        ih nonzero.2 held.2 (Nat.lt_of_succ_lt_succ enough), held.1]
      rfl

/-- A conversion shows its argument, if the argument fits. -/
theorem printArgument_shows {arg : Nat}
    (fit : c = 115 → arg ≠ 0 → ∃ text, store.HoldsText arg text) :
    ∃ shown, ShowsArgument store arg c shown ∧
      ∃ bound, ∀ fuel ≥ bound, printArgument fuel store c arg = some shown := by
  unfold printArgument
  cases number : isBase c with
  | true =>
      obtain ⟨digits, writes⟩ := itoa_ends c (asInt arg)
      refine ⟨_, .number number writes, 0, fun fuel _ => ?_⟩
      rw [if_pos rfl, writes]
      rfl
  | false =>
      by_cases string : c = 115
      · subst string
        by_cases null : arg = 0
        · exact ⟨_, .null null, 0, fun fuel _ => by
            rw [if_neg Bool.false_ne_true, if_pos rfl, if_pos null]⟩
        · obtain ⟨text, held⟩ := fit rfl null
          refine ⟨_, .string null held, text.length + 1, fun fuel enough => ?_⟩
          rw [if_neg Bool.false_ne_true, if_pos rfl, if_neg null,
            stringFrom_text held.nonzero held.holds enough]
          rfl
      · exact ⟨_, .char number string, 0, fun fuel _ => by
          rw [if_neg Bool.false_ne_true, if_neg string]⟩

theorem printLoop_end (ends : store.byte format = 0) :
    printLoop fuel store args (rounds + 1) format k = some ⟨[], k, [format]⟩ := if_pos ends

theorem printLoop_plain {printed : Printed} (byte : store.byte format = c) (set : c ≠ 0)
    (plain : c ≠ 37)
    (rest : printLoop fuel store args rounds (format + 1) k = some printed) :
    printLoop fuel store args (rounds + 1) format k =
      some ⟨asChar c :: printed.chars, printed.args, format :: printed.reads⟩ := by
  rw [printLoop, byte, if_neg set, if_pos plain, rest]
  rfl

theorem printLoop_conversion {printed : Printed} {shown : List Int}
    (byte : store.byte format = 37) (next : store.byte (format + 1) = c)
    (shows' : printArgument fuel store c (args k) = some shown)
    (rest : printLoop fuel store args rounds (format + 2) (k + 1) = some printed) :
    printLoop fuel store args (rounds + 1) format k =
      some ⟨shown ++ printed.chars, printed.args,
        format :: (format + 1) :: printed.reads⟩ := by
  rw [printLoop, byte, if_neg (by decide), if_neg (by decide), next, shows', rest]
  rfl

/-- The format from an address on is printed: the characters that it shows, the arguments it has
conversions for, and no byte behind its zero. -/
def PrintsInside (store : Bytes) (args : Nat → Nat) (text : List UInt8) (format k : Nat) : Prop :=
  ∃ chars reads, Shows store args k (pieces text) chars ∧
    (∀ a ∈ reads, format ≤ a ∧ a ≤ format + text.length) ∧
    ∃ bound, ∀ fuel ≥ bound, ∀ rounds > text.length,
      printLoop fuel store args rounds format k =
        some ⟨chars, k + conversions (pieces text), reads⟩

theorem printsInside_nil (ends : store.byte format = 0) : PrintsInside store args [] format k := by
  refine ⟨[], [format], .nil k, fun a member => ?_, 0, fun fuel _ rounds many => ?_⟩
  · obtain rfl := List.mem_singleton.mp member
    exact ⟨Nat.le_refl _, Nat.le_refl _⟩
  · obtain ⟨rounds, rfl⟩ := Nat.exists_eq_add_one_of_ne_zero (Nat.ne_zero_of_lt many)
    exact printLoop_end ends

theorem printsInside_plain (byte : store.byte format = c) (set : c ≠ 0) (plain : c ≠ 37)
    (parts : pieces (c :: text) = .plain c :: pieces text)
    (rest : PrintsInside store args text (format + 1) k) :
    PrintsInside store args (c :: text) format k := by
  obtain ⟨chars, reads, shows', inside, bound, prints⟩ := rest
  refine ⟨asChar c :: chars, format :: reads, parts ▸ .plain shows', ?_, bound, ?_⟩
  · intro a member
    rw [List.length_cons]
    rcases List.mem_cons.mp member with rfl | member
    · omega
    · have range := inside a member
      omega
  · intro fuel enough rounds many
    obtain ⟨rounds, rfl⟩ := Nat.exists_eq_add_one_of_ne_zero (Nat.ne_zero_of_lt many)
    rw [printLoop_plain byte set plain (prints fuel enough rounds (Nat.lt_of_succ_lt_succ many)),
      parts]
    rfl

theorem printsInside_conversion (byte : store.byte format = 37)
    (next : store.byte (format + 1) = c)
    (fit : c = 115 → args k ≠ 0 → ∃ text, store.HoldsText (args k) text)
    (rest : PrintsInside store args text (format + 2) (k + 1)) :
    PrintsInside store args (37 :: c :: text) format k := by
  obtain ⟨chars, reads, shows', inside, bound, prints⟩ := rest
  obtain ⟨shown, showsArgument, enough, writes⟩ := printArgument_shows fit
  have parts : pieces (37 :: c :: text) = .conversion c :: pieces text := if_pos rfl
  refine ⟨shown ++ chars, format :: (format + 1) :: reads, parts ▸ .conversion showsArgument shows',
    ?_, bound + enough, ?_⟩
  · intro a member
    rw [List.length_cons, List.length_cons]
    rcases List.mem_cons.mp member with rfl | member
    · omega
    · rcases List.mem_cons.mp member with rfl | member
      · omega
      · have range := inside a member
        omega
  · intro fuel large rounds many
    rw [List.length_cons, List.length_cons] at many
    obtain ⟨rounds, rfl⟩ := Nat.exists_eq_add_one_of_ne_zero (Nat.ne_zero_of_lt many)
    have printed := prints fuel (by omega) rounds (by omega)
    rw [printLoop_conversion byte next (writes fuel (by omega)) printed, parts,
      conversions, conversions, List.countP_cons_of_pos rfl, Nat.add_assoc, Nat.add_comm 1]

/-- The loop on a format that has no loose `'%'`. -/
theorem printsInside_of_tight (nonzero : 0 ∉ text) (held : store.Holds format (text ++ [0]))
    (tight : .loose ∉ pieces text) (fit : ArgumentsFit store args k (pieces text)) :
    PrintsInside store args text format k := by
  induction text using pieces.induct generalizing format k with
  | case1 => exact printsInside_nil held.1
  | case2 => exact absurd (List.mem_singleton_self _) tight
  | case3 c plain =>
      have set : c ≠ 0 := fun isZero => nonzero (isZero ▸ List.mem_singleton_self _)
      exact printsInside_plain held.1 set plain (if_neg plain) (printsInside_nil held.2.1)
  | case4 d text ih =>
      have parts : pieces (37 :: d :: text) = .conversion d :: pieces text := if_pos rfl
      rw [parts] at tight fit
      simp only [List.mem_cons, not_or] at nonzero tight
      exact printsInside_conversion held.1 held.2.1 fit.1 (ih nonzero.2.2 held.2.2 tight.2 fit.2)
  | case5 c d text plain ih =>
      have parts : pieces (c :: d :: text) = .plain c :: pieces (d :: text) := if_neg plain
      rw [parts] at tight fit
      rw [List.mem_cons, not_or] at nonzero tight
      exact printsInside_plain held.1 (Ne.symm nonzero.1) plain parts
        (ih nonzero.2 held.2 tight.2 fit)

/-- The loop reads where it begins. -/
theorem printLoop_first {printed : Printed}
    (prints : printLoop fuel store args rounds format k = some printed) :
    format ∈ printed.reads := by
  cases rounds with
  | zero => cases prints
  | succ rounds =>
      rw [printLoop] at prints
      split at prints
      · obtain rfl := Option.some.inj prints
        exact List.mem_singleton_self _
      · split at prints
        · obtain ⟨rest, -, prints⟩ := Option.bind_eq_some_iff.mp prints
          obtain rfl := Option.some.inj prints
          exact List.mem_cons_self ..
        · obtain ⟨shown, -, prints⟩ := Option.bind_eq_some_iff.mp prints
          obtain ⟨rest, -, prints⟩ := Option.bind_eq_some_iff.mp prints
          obtain rfl := Option.some.inj prints
          exact List.mem_cons_self ..

theorem printLoop_plain_inv {printed : Printed} (byte : store.byte format = c) (set : c ≠ 0)
    (plain : c ≠ 37) (prints : printLoop fuel store args rounds format k = some printed) :
    ∃ fewer rest, printLoop fuel store args fewer (format + 1) k = some rest ∧
      rest.reads ⊆ printed.reads := by
  cases rounds with
  | zero => cases prints
  | succ rounds =>
      rw [printLoop, byte, if_neg set, if_pos plain] at prints
      obtain ⟨rest, runs, prints⟩ := Option.bind_eq_some_iff.mp prints
      obtain rfl := Option.some.inj prints
      exact ⟨rounds, rest, runs, List.subset_cons_self ..⟩

theorem printLoop_percent_inv {printed : Printed} (byte : store.byte format = 37)
    (prints : printLoop fuel store args rounds format k = some printed) :
    ∃ fewer rest, printLoop fuel store args fewer (format + 2) (k + 1) = some rest ∧
      rest.reads ⊆ printed.reads := by
  cases rounds with
  | zero => cases prints
  | succ rounds =>
      rw [printLoop, byte, if_neg (by decide), if_neg (by decide)] at prints
      obtain ⟨shown, -, prints⟩ := Option.bind_eq_some_iff.mp prints
      obtain ⟨rest, runs, prints⟩ := Option.bind_eq_some_iff.mp prints
      obtain rfl := Option.some.inj prints
      exact ⟨rounds, rest, runs, fun a member => List.mem_cons_of_mem _ (List.mem_cons_of_mem _ member)⟩

/-- A loose `'%'` takes the loop behind the end of the format. -/
theorem printLoop_loose {printed : Printed} (nonzero : 0 ∉ text)
    (held : store.Holds format (text ++ [0])) (loose : .loose ∈ pieces text)
    (prints : printLoop fuel store args rounds format k = some printed) :
    format + text.length + 1 ∈ printed.reads := by
  induction text using pieces.induct generalizing format k rounds printed with
  | case1 => cases loose
  | case2 =>
      obtain ⟨fewer, rest, runs, kept⟩ := printLoop_percent_inv held.1 prints
      exact kept (printLoop_first runs)
  | case3 c plain =>
      rw [pieces, if_neg plain, List.mem_singleton] at loose
      cases loose
  | case4 d text ih =>
      rw [pieces, if_pos rfl, List.mem_cons, or_iff_right (by simp)] at loose
      simp only [List.mem_cons, not_or] at nonzero
      obtain ⟨fewer, rest, runs, kept⟩ := printLoop_percent_inv held.1 prints
      have beyond := kept (ih nonzero.2.2 held.2.2 loose runs)
      have same : format + (37 :: d :: text).length + 1 = format + 1 + 1 + text.length + 1 := by
        rw [List.length_cons, List.length_cons]
        omega
      rwa [same]
  | case5 c d text plain ih =>
      rw [pieces, if_neg plain, List.mem_cons, or_iff_right (by simp)] at loose
      rw [List.mem_cons, not_or] at nonzero
      obtain ⟨fewer, rest, runs, kept⟩ := printLoop_plain_inv held.1 (Ne.symm nonzero.1) plain prints
      have beyond := kept (ih nonzero.2 held.2 loose runs)
      rw [List.length_cons]
      rwa [Nat.add_assoc format, Nat.add_comm 1] at beyond

end Scanner

section Twins

variable {store : Bytes} {args : Nat → Nat} {format : Nat} {text : List UInt8}

/-- A run stays inside the format, and takes an argument for each conversion. -/
structure InsideFormat (format : Nat) (text : List UInt8) (printed : Printed) : Prop where
  reads : ∀ a ∈ printed.reads, format ≤ a ∧ a ≤ format + text.length
  args : printed.args = conversions (pieces text)

/-- Both functions end, stay inside the format, and send the same characters, which are those that
the format shows. -/
def PrintsRight (store : Bytes) (args : Nat → Nat) (format : Nat) (text : List UInt8) : Prop :=
  ∃ chars, Shows store args 0 (pieces text) chars ∧ ∃ bound, ∀ fuel ≥ bound,
    (∃ printed, kprint fuel store format args =
        some (chars.map (.char · KERNEL_FONT), printed) ∧ InsideFormat format text printed) ∧
    ∃ printed, print fuel store format args =
        some (.lock :: chars.map (.char · USER_FONT) ++ [.unlock], printed) ∧
      InsideFormat format text printed

/-- Formatted printing is right if and only if the format has no loose `'%'`. -/
theorem printing_right_iff (store : Bytes) (args : Nat → Nat) (format : Nat) (text : List UInt8)
    (set : format ≠ 0) (held : store.HoldsText format text)
    (fit : ArgumentsFit store args 0 (pieces text)) :
    PrintsRight store args format text ↔ .loose ∉ pieces text := by
  constructor
  · rintro ⟨chars, -, bound, right⟩ loose
    obtain ⟨⟨printed, runs, inside⟩, -⟩ := right bound (Nat.le_refl _)
    unfold kprint at runs
    rw [if_neg set] at runs
    obtain ⟨printed, prints, same⟩ := Option.bind_eq_some_iff.mp runs
    obtain ⟨-, rfl⟩ := Prod.mk.inj (Option.some.inj same)
    have beyond := inside.reads _ (printLoop_loose held.nonzero held.holds loose prints)
    omega
  · intro tight
    obtain ⟨chars, reads, shows', inside, bound, prints⟩ :=
      printsInside_of_tight held.nonzero held.holds tight fit
    rw [Nat.zero_add] at prints
    refine ⟨chars, shows', bound + text.length + 1, fun fuel enough => ?_⟩
    have runs := prints fuel (by omega) fuel (by omega)
    constructor
    · refine ⟨⟨chars, conversions (pieces text), reads⟩, ?_, ⟨inside, rfl⟩⟩
      unfold kprint
      rw [if_neg set]
      dsimp only [Option.bind_eq_bind]
      rw [runs]
      rfl
    · refine ⟨⟨chars, conversions (pieces text), reads⟩, ?_, ⟨inside, rfl⟩⟩
      unfold print
      rw [if_neg set]
      dsimp only [Option.bind_eq_bind]
      rw [runs]
      rfl

/-- The format `%` at 100, `%d` at 200, with zeros behind them. -/
def formatMemory : Bytes where
  byte address := if address = 100 ∨ address = 200 then 37 else if address = 201 then 100 else 0
  written := []

theorem printing_right_fail :
    ¬ (∀ store args format text, format ≠ 0 → store.HoldsText format text →
      ArgumentsFit store args 0 (pieces text) → PrintsRight store args format text) := by
  intro right
  obtain ⟨chars, -, bound, both⟩ := right formatMemory (fun _ => 65) 100 [37] (by decide)
    ⟨by decide, by decide⟩ trivial
  obtain ⟨⟨printed, runs, inside⟩, -⟩ := both (bound + 2) (Nat.le_add_right ..)
  have prints : kprint (bound + 2) formatMemory 100 (fun _ => 65) =
      some ([.char 65 KERNEL_FONT], ⟨[65], 1, [100, 101, 102]⟩) := rfl
  obtain ⟨-, rfl⟩ := Prod.mk.inj (Option.some.inj (prints.symm.trans runs))
  exact absurd inside.args (by decide)

theorem printing_right_number :
    PrintsRight formatMemory (fun _ => 42) 200 [37, 100] ↔ .loose ∉ pieces [37, 100] :=
  printing_right_iff formatMemory (fun _ => 42) 200 [37, 100] (by decide)
    ⟨by decide, by decide⟩ ⟨fun string => absurd string (by decide), trivial⟩

end Twins

end Oseer
