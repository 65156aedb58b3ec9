import Mathlib.Data.List.Forall2

/-!
# The command line of the shell

The shell reads characters into a buffer and cuts the buffer into arguments, in place.  In the parser
each access to the buffer and to the vector of arguments is checked: `none` says that an index is
behind the end of the array, or that the rounds of a loop were not enough.
-/

namespace Oseer

def MAXCMDLEN : Nat := 72

def MAXARGS : Nat := 10

/-- Store into an array. -/
def setAt {α : Type} (xs : List α) (i : Nat) (x : α) : Option (List α) :=
  if i < xs.length then some (xs.set i x) else none

section Reading

/-- `cmd` and `i` in the loop that reads. -/
structure Reading where
  cmd : List UInt8
  i : Nat

/-- What is done at `new_cmd`. -/
def newCmd (cmd : List UInt8) : Reading :=
  ⟨List.replicate MAXCMDLEN 0 ++ cmd.drop MAXCMDLEN, 0⟩

/-- One round of the loop, with a character that is not a new line. -/
def Reading.getKey (key : UInt8) (state : Reading) : Reading :=
  if key = 0 then state
  else if key = 8 then
    if 0 < state.i then ⟨state.cmd.set (state.i - 1) 0, state.i - 1⟩ else state
  else ⟨state.cmd.set state.i key, state.i + 1⟩

/-- The loop that reads, on the answers of `get_char`: the buffer when a command is there. -/
def readCommand : List UInt8 → Reading → Option (List UInt8)
  | [], state => if state.i < MAXCMDLEN then none else some state.cmd
  | key :: keys, state =>
      if state.i < MAXCMDLEN then
        if key = 10 then
          if 0 < state.i then some state.cmd else readCommand keys (newCmd state.cmd)
        else readCommand keys (state.getKey key)
      else some state.cmd

end Reading

section Parsing

/-- `argnum`, `cmd` and `argval`, whose pointers are indices into `cmd`. -/
structure ParsedCommand where
  argnum : Nat
  cmd : List UInt8
  argval : List (Option Nat)
deriving DecidableEq, Repr

/-- The inner loop. -/
def scanWord (cmd : List UInt8) : Nat → Nat → Option Nat
  | 0, _ => none
  | fuel + 1, i => do
      let c ← cmd[i]?
      if c ≠ 0 ∧ c ≠ 32 ∧ c ≠ 9 ∧ i < MAXCMDLEN then scanWord cmd fuel (i + 1) else some i

/-- The outer loop. -/
def parseLoop (fuel : Nat) :
    Nat → Nat → Nat → List UInt8 → List (Option Nat) → Option ParsedCommand
  | 0, _, _, _, _ => none
  | rounds + 1, i, argnum, cmd, argval =>
      if i < MAXCMDLEN then do
        let c ← cmd[i]?
        if c ≠ 0 ∧ argnum < MAXARGS then
          if c = 32 ∨ c = 9 then parseLoop fuel rounds (i + 1) argnum cmd argval
          else do
            let argval ← setAt argval argnum (some i)
            let i ← scanWord cmd fuel i
            let cmd ← setAt cmd i 0
            parseLoop fuel rounds (i + 1) (argnum + 1) cmd argval
        else return ⟨argnum, cmd, argval⟩
      else return ⟨argnum, cmd, argval⟩

/-- The loops that parse the buffer, and the null pointer behind the arguments. -/
def parseCommand (fuel : Nat) (cmd : List UInt8) (argval : List (Option Nat)) :
    Option ParsedCommand := do
  let parsed ← parseLoop fuel fuel 0 0 cmd argval
  let argval ← setAt parsed.argval parsed.argnum none
  return { parsed with argval := argval }

end Parsing

section Words

/-- A space or a tab. -/
def isBlank (c : UInt8) : Bool := c = 32 || c = 9

/-- The maximal runs of other characters. -/
def commandWords (text : List UInt8) : List (List UInt8) :=
  (text.splitOnP isBlank).filter (· ≠ [])

variable {text word : List UInt8} {c : UInt8}

theorem commandWords_nil : commandWords [] = [] := rfl

theorem commandWords_blank (blank : isBlank c = true) :
    commandWords (c :: text) = commandWords text := by
  unfold commandWords
  rw [List.splitOnP_cons_eq_if_modifyHead, if_pos blank]
  rfl

theorem commandWords_last (nonempty : word ≠ []) (letters : ∀ c ∈ word, isBlank c = false) :
    commandWords word = [word] := by
  unfold commandWords
  rw [List.splitOnP_eq_singleton letters]
  simp [nonempty]

theorem commandWords_word (nonempty : word ≠ []) (letters : ∀ c ∈ word, isBlank c = false)
    (blank : isBlank c = true) : commandWords (word ++ c :: text) = word :: commandWords text := by
  unfold commandWords
  rw [List.splitOnP_append_cons_of_forall_mem letters c blank]
  simp [nonempty]

end Words

section Parsed

variable {front back word rest text : List UInt8} {c last : UInt8} {fuel rounds argnum z : Nat}
  {argval : List (Option Nat)}

theorem getElem?_front : (front ++ back)[front.length]? = back.head? := by
  rw [List.getElem?_append_right (Nat.le_refl _), Nat.sub_self, List.head?_eq_getElem?]

/-- A character of a word. -/
def IsLetter (c : UInt8) : Prop := c ≠ 0 ∧ isBlank c = false

theorem isLetter_iff : IsLetter c ↔ c ≠ 0 ∧ c ≠ 32 ∧ c ≠ 9 := by
  simp [IsLetter, isBlank]

/-- The inner loop goes to the end of a word. -/
theorem scanWord_word (letters : ∀ c ∈ word, IsLetter c) (first : back.head? = some c)
    (within : front.length + word.length ≤ MAXCMDLEN)
    (ends : IsLetter c → MAXCMDLEN ≤ front.length + word.length) (enough : word.length < fuel) :
    scanWord (front ++ (word ++ back)) fuel front.length = some (front.length + word.length) := by
  induction word generalizing front fuel with
  | nil =>
      obtain ⟨fuel, rfl⟩ := Nat.exists_eq_add_one_of_ne_zero (Nat.ne_zero_of_lt enough)
      rw [scanWord, getElem?_front, List.nil_append, first]
      apply if_neg
      rintro ⟨nonzero, noSpace, noTab, inside⟩
      exact Nat.not_le_of_lt inside (ends (isLetter_iff.mpr ⟨nonzero, noSpace, noTab⟩))
  | cons d word ih =>
      obtain ⟨fuel, rfl⟩ := Nat.exists_eq_add_one_of_ne_zero (Nat.ne_zero_of_lt enough)
      rw [List.forall_mem_cons] at letters
      obtain ⟨nonzero, noSpace, noTab⟩ := isLetter_iff.mp letters.1
      rw [List.length_cons] at within ends enough
      have width : (front ++ [d]).length = front.length + 1 := List.length_append ..
      have next : scanWord ((front ++ [d]) ++ (word ++ back)) fuel (front ++ [d]).length =
          some ((front ++ [d]).length + word.length) := by
        apply ih letters.2 _ _ (Nat.lt_of_succ_lt_succ enough)
        · rw [width]
          omega
        · intro letter
          have bound := ends letter
          rw [width]
          omega
      rw [width, List.append_assoc] at next
      rw [scanWord, getElem?_front]
      apply (if_pos ⟨nonzero, noSpace, noTab, by omega⟩).trans
      rw [List.length_cons, Nat.add_comm word.length, ← Nat.add_assoc]
      exact next

/-- What is left of the buffer when the parser has come to an index: the rest of the text, zeros,
and the last byte. -/
def lineRest (rest : List UInt8) (z : Nat) (last : UInt8) : List UInt8 :=
  rest ++ (List.replicate z 0 ++ [last])

/-- What the parser makes of the rest of a text, behind the part `front`: the words of the rest
stand where the pointers go, at their places in the text. -/
structure Parsed (text front rest : List UInt8) (argnum : Nat) (argval : List (Option Nat))
    (pointers : List Nat) (parsed : ParsedCommand) : Prop where
  kept : front <+: parsed.cmd
  count : parsed.argnum = argnum + pointers.length
  vector : parsed.argval.take parsed.argnum = argval.take argnum ++ pointers.map some
  size : parsed.argval.length = argval.length
  words : List.Forall₂
    (fun pointer word => word ++ [0] <+: parsed.cmd.drop pointer ∧ word <+: text.drop pointer)
    pointers ((commandWords rest).take (MAXARGS - argnum))
  sorted : (pointers.Pairwise (· < ·)) ∧ ∀ pointer ∈ pointers, front.length ≤ pointer

theorem parsed_none (none : (commandWords rest).take (MAXARGS - argnum) = []) (kept : front <+: back) :
    Parsed text front rest argnum argval [] ⟨argnum, back, argval⟩ where
  kept := kept
  count := rfl
  vector := (List.append_nil _).symm
  size := rfl
  words := by
    rw [none]
    exact .nil
  sorted := ⟨.nil, fun _ member => absurd member List.not_mem_nil⟩

theorem parseLoop_end {i : Nat} {cmd : List UInt8} (ends : MAXCMDLEN ≤ i ∨ cmd[i]? = some 0) :
    parseLoop fuel (rounds + 1) i argnum cmd argval = some ⟨argnum, cmd, argval⟩ := by
  rw [parseLoop]
  split
  · rename_i inside
    rw [ends.resolve_left (Nat.not_le_of_lt inside)]
    rfl
  · rfl

/-- A word goes into the vector, and a zero behind it. -/
theorem parseLoop_word {x : UInt8} (nonempty : word ≠ []) (letters : ∀ c ∈ word, IsLetter c)
    (within : front.length + word.length ≤ MAXCMDLEN)
    (ends : IsLetter x → MAXCMDLEN ≤ front.length + word.length) (enough : word.length < fuel)
    (few : argnum < MAXARGS) (room : argnum < argval.length) :
    parseLoop fuel (rounds + 1) front.length argnum (front ++ (word ++ x :: back)) argval =
      parseLoop fuel rounds (front.length + word.length + 1) (argnum + 1)
        (front ++ word ++ [0] ++ back) (argval.set argnum (some front.length)) := by
  have positive := List.length_pos_of_ne_nil nonempty
  obtain ⟨d, others, rfl⟩ := List.exists_cons_of_ne_nil nonempty
  obtain ⟨nonzero, noSpace, noTab⟩ := isLetter_iff.mp (letters d (List.mem_cons_self ..))
  have scanned : scanWord (front ++ (d :: others ++ x :: back)) fuel front.length =
      some (front.length + (d :: others).length) :=
    scanWord_word letters rfl within ends enough
  have stored : setAt (front ++ (d :: others ++ x :: back)) (front.length + (d :: others).length) 0
      = some (front ++ d :: others ++ [0] ++ back) := by
    unfold setAt
    rw [if_pos (by simp), ← List.append_assoc, List.set_append_right _ _ (by simp)]
    simp
  have pointed : setAt argval argnum (some front.length) =
      some (argval.set argnum (some front.length)) := if_pos room
  rw [parseLoop, if_pos (by omega), getElem?_front]
  apply (if_pos ⟨nonzero, few⟩).trans
  rw [if_neg (by simp [noSpace, noTab]), pointed]
  dsimp only [Option.bind_eq_bind, Option.bind]
  rw [scanned]
  dsimp only
  rw [stored]

theorem parseLoop_blank (blank : isBlank c = true) (inside : front.length < MAXCMDLEN)
    (few : argnum < MAXARGS) :
    parseLoop fuel (rounds + 1) front.length argnum (front ++ c :: back) argval =
      parseLoop fuel rounds (front.length + 1) argnum (front ++ [c] ++ back) argval := by
  have isBlank : c = 32 ∨ c = 9 := by simpa [isBlank] using blank
  have nonzero : c ≠ 0 := by
    rintro rfl
    cases blank
  rw [parseLoop, if_pos inside, getElem?_front]
  apply (if_pos ⟨nonzero, few⟩).trans
  rw [if_pos isBlank, List.append_assoc]
  rfl

theorem parseLoop_full {i : Nat} {cmd : List UInt8} (there : cmd[i]? = some c) :
    parseLoop fuel (rounds + 1) i MAXARGS cmd argval = some ⟨MAXARGS, cmd, argval⟩ := by
  rw [parseLoop, there]
  split
  · apply if_neg
    rintro ⟨-, few⟩
    exact Nat.lt_irrefl _ few
  · rfl

theorem parsed_blank {pointers : List Nat} {parsed : ParsedCommand} (blank : isBlank c = true)
    (tail : Parsed text (front ++ [c]) rest argnum argval pointers parsed) :
    Parsed text front (c :: rest) argnum argval pointers parsed where
  kept := (List.prefix_append ..).trans tail.kept
  count := tail.count
  vector := tail.vector
  size := tail.size
  words := by
    rw [commandWords_blank blank]
    exact tail.words
  sorted := by
    refine ⟨tail.sorted.1, fun pointer member => ?_⟩
    have behind := tail.sorted.2 pointer member
    rw [List.length_append] at behind
    exact Nat.le_of_add_right_le behind

theorem parsed_word {pointers : List Nat} {parsed : ParsedCommand} {more : List UInt8}
    (words : commandWords rest = word :: commandWords more)
    (place : word <+: text.drop front.length) (few : argnum < MAXARGS)
    (room : argnum < argval.length)
    (tail : Parsed text (front ++ word ++ [0]) more (argnum + 1)
      (argval.set argnum (some front.length)) pointers parsed) :
    Parsed text front rest argnum argval (front.length :: pointers) parsed where
  kept := by
    rw [List.append_assoc] at tail
    exact (List.prefix_append ..).trans tail.kept
  count := by
    rw [tail.count, List.length_cons, Nat.add_assoc, Nat.add_comm 1]
  vector := by
    rw [tail.vector, List.map_cons, List.take_add_one, List.take_set_of_le (Nat.le_refl _)]
    simp [room]
  size := by
    rw [tail.size, List.length_set]
  words := by
    have left : MAXARGS - argnum = MAXARGS - (argnum + 1) + 1 := by omega
    rw [words, left, List.take_succ_cons]
    refine .cons ⟨?_, place⟩ tail.words
    obtain ⟨back, whole⟩ := tail.kept
    rw [← whole, List.append_assoc, List.append_assoc, List.drop_left, ← List.append_assoc]
    exact List.prefix_append ..
  sorted := by
    have behind : ∀ pointer ∈ pointers, front.length < pointer := by
      intro pointer member
      have bound := tail.sorted.2 pointer member
      simp only [List.length_append, List.length_singleton] at bound
      omega
    refine ⟨List.pairwise_cons.mpr ⟨behind, tail.sorted.1⟩, fun pointer member => ?_⟩
    rcases List.mem_cons.mp member with rfl | member
    · exact Nat.le_refl _
    · exact Nat.le_of_lt (behind pointer member)

/-- A text that begins with a letter begins with a word. -/
theorem exists_word (letter : isBlank c = false) (nonzero : 0 ∉ c :: rest) :
    ∃ word after, c :: rest = word ++ after ∧ word ≠ [] ∧ (∀ d ∈ word, IsLetter d) ∧
      (after = [] ∨ ∃ d more, after = d :: more ∧ isBlank d = true) := by
  induction rest generalizing c with
  | nil =>
      refine ⟨[c], [], rfl, by simp, fun d member => ?_, Or.inl rfl⟩
      obtain rfl := List.mem_singleton.mp member
      exact ⟨fun isZero => nonzero (isZero ▸ List.mem_singleton_self _), letter⟩
  | cons d rest ih =>
      rw [List.mem_cons, not_or] at nonzero
      have first : IsLetter c := ⟨Ne.symm nonzero.1, letter⟩
      cases blank : isBlank d with
      | true =>
          refine ⟨[c], d :: rest, rfl, by simp, fun e member => ?_, Or.inr ⟨d, rest, rfl, blank⟩⟩
          obtain rfl := List.mem_singleton.mp member
          exact first
      | false =>
          obtain ⟨word, after, split, -, letters, ends⟩ := ih blank nonzero.2
          exact ⟨c :: word, after, congrArg (c :: ·) split, by simp,
            List.forall_mem_cons.mpr ⟨first, letters⟩, ends⟩

/-- The rest of the buffer begins with a word: `x` and `back` are what stands behind it, and `more`
is the text behind `x`. -/
structure WordFirst (i : Nat) (rest : List UInt8) (z : Nat) (last : UInt8) (word : List UInt8)
    (x : UInt8) (back more : List UInt8) : Prop where
  buffer : lineRest rest z last = word ++ x :: back
  nonempty : word ≠ []
  letters : ∀ c ∈ word, IsLetter c
  ends : IsLetter x → MAXCMDLEN ≤ i + word.length
  words : commandWords rest = word :: commandWords more
  first : word <+: rest
  left : rest.drop (word.length + 1) = more
  goes : (more = [] ∧ i + word.length = MAXCMDLEN) ∨
    ∃ z, back = lineRest more z last ∧ i + word.length + 1 + more.length + z = MAXCMDLEN

theorem exists_wordFirst {i : Nat} (last : UInt8) (letter : isBlank c = false) (nonzero : 0 ∉ c :: rest)
    (width : i + (c :: rest).length + z = MAXCMDLEN) :
    ∃ word x back more, WordFirst i (c :: rest) z last word x back more := by
  obtain ⟨word, after, split, nonempty, letters, ends⟩ := exists_word letter nonzero
  have blanks (d : UInt8) (member : d ∈ word) : isBlank d = false := (letters d member).2
  rw [split] at width ⊢
  rw [List.length_append] at width
  rcases ends with rfl | ⟨d, more, rfl, blank⟩
  · rw [List.append_nil, List.length_nil] at *
    have words : commandWords word = word :: commandWords [] := commandWords_last nonempty blanks
    have left : word.drop (word.length + 1) = [] := List.drop_eq_nil_of_le (Nat.le_succ _)
    cases z with
    | zero =>
        exact ⟨word, last, [], [], rfl, nonempty, letters, fun _ => by omega, words,
          List.prefix_refl _, left, Or.inl ⟨rfl, by omega⟩⟩
    | succ z =>
        exact ⟨word, 0, lineRest [] z last, [], rfl, nonempty, letters,
          fun isLetter => absurd rfl isLetter.1, words, List.prefix_refl _, left,
          Or.inr ⟨z, rfl, by rw [List.length_nil]; omega⟩⟩
  · rw [List.length_cons] at width
    refine ⟨word, d, lineRest more z last, more, ?_, nonempty, letters, ?_,
      commandWords_word nonempty blanks blank, List.prefix_append .., ?_,
      Or.inr ⟨z, rfl, by omega⟩⟩
    · unfold lineRest
      rw [List.append_assoc, List.cons_append]
    · intro isLetter
      rw [isLetter.2] at blank
      cases blank
    · rw [← List.drop_drop, List.drop_left]
      rfl

/-- A word, and what the loop makes of the rest behind it. -/
theorem parseLoop_words {x : UInt8} {more : List UInt8}
    (starts : WordFirst front.length rest z last word x back more)
    (within : front.length + word.length ≤ MAXCMDLEN) (enough : word.length < fuel)
    (few : argnum < MAXARGS) (room : argnum < argval.length)
    (place : text.drop front.length = rest)
    (tail : ∃ pointers parsed,
      parseLoop fuel rounds (front ++ word ++ [0]).length (argnum + 1)
        (front ++ word ++ [0] ++ back) (argval.set argnum (some front.length)) = some parsed ∧
      Parsed text (front ++ word ++ [0]) more (argnum + 1) (argval.set argnum (some front.length))
        pointers parsed) :
    ∃ pointers parsed, parseLoop fuel (rounds + 1) front.length argnum
        (front ++ lineRest rest z last) argval = some parsed ∧
      Parsed text front rest argnum argval pointers parsed := by
  obtain ⟨pointers, parsed, runs, made⟩ := tail
  refine ⟨_, parsed, ?_, parsed_word starts.words (place ▸ starts.first) few room made⟩
  rw [List.length_append, List.length_append, List.length_singleton] at runs
  rw [starts.buffer]
  exact (parseLoop_word starts.nonempty starts.letters within starts.ends enough few room).trans
    runs

/-- The parser on the rest of a text. -/
theorem parseLoop_rest (place : text.drop front.length = rest) (nonzero : 0 ∉ rest)
    (width : front.length + rest.length + z = MAXCMDLEN) (vector : argval.length = MAXARGS + 1)
    (count : argnum ≤ MAXARGS) (enough : rest.length < rounds) (large : MAXCMDLEN < fuel) :
    ∃ pointers parsed, parseLoop fuel rounds front.length argnum
        (front ++ lineRest rest z last) argval = some parsed ∧
      Parsed text front rest argnum argval pointers parsed := by
  induction rounds generalizing front rest z argnum argval with
  | zero => cases enough
  | succ rounds ih =>
      cases rest with
      | nil =>
          refine ⟨[], _, parseLoop_end ?_, parsed_none List.take_nil (List.prefix_append ..)⟩
          cases z with
          | zero => exact Or.inl (Nat.le_of_eq width.symm)
          | succ z => exact Or.inr getElem?_front
      | cons c rest =>
          have bound : front.length + (rest.length + 1) + z = MAXCMDLEN := width
          have rounds_lt : rest.length < rounds := Nat.lt_of_succ_lt_succ enough
          rcases Nat.lt_or_eq_of_le count with few | rfl
          · cases letter : isBlank c with
            | true =>
                have next : (front ++ [c]).length = front.length + 1 := List.length_append ..
                have behind : text.drop (front ++ [c]).length = rest := by
                  rw [next, ← List.drop_drop, place]
                  rfl
                obtain ⟨pointers, parsed, runs, made⟩ := ih behind
                  (fun member => nonzero (List.mem_cons_of_mem _ member))
                  (by rw [next, Nat.add_assoc front.length, Nat.add_comm 1]; exact width) vector
                  count rounds_lt
                refine ⟨pointers, parsed, ?_, parsed_blank letter made⟩
                rw [next] at runs
                exact (parseLoop_blank letter (by omega) few).trans runs
            | false =>
                obtain ⟨word, x, back, more, starts⟩ := exists_wordFirst last letter nonzero width
                have short : word.length ≤ rest.length + 1 := starts.first.length_le
                have positive := List.length_pos_of_ne_nil starts.nonempty
                have next : (front ++ word ++ [0]).length = front.length + word.length + 1 := by
                  simp only [List.length_append, List.length_singleton]
                apply parseLoop_words starts (by omega) (by omega) few (by omega) place
                rcases starts.goes with ⟨rfl, ends⟩ | ⟨z, rfl, ends⟩
                · obtain ⟨rounds, rfl⟩ := Nat.exists_eq_add_one_of_ne_zero
                    (Nat.ne_zero_of_lt rounds_lt)
                  exact ⟨[], _, parseLoop_end (Or.inl (by rw [next]; omega)),
                    parsed_none List.take_nil (List.prefix_append _ back)⟩
                · have behind : text.drop (front ++ word ++ [0]).length = more := by
                    rw [next, Nat.add_assoc, ← List.drop_drop, place, starts.left]
                  have fewer : more.length + word.length + 1 ≤ rest.length + 1 + 1 := by
                    rw [← starts.left, List.length_drop, List.length_cons]
                    omega
                  apply ih behind _ (by rw [next]; exact ends)
                    (by rw [List.length_set, vector]) few (by omega)
                  rw [← starts.left]
                  exact fun member => nonzero (List.mem_of_mem_drop member)
          · refine ⟨[], _, parseLoop_full getElem?_front, parsed_none ?_ (List.prefix_append ..)⟩
            rw [Nat.sub_self, List.take_zero]

end Parsed

section CommandLine

variable {cmd text : List UInt8} {keys : List UInt8} {state : Reading}

/-- A buffer with a text in it, as the loop that reads leaves it. -/
structure CommandLine (cmd text : List UInt8) : Prop where
  short : text.length ≤ MAXCMDLEN
  nonzero : 0 ∉ text
  filled : ∃ last, cmd = lineRest text (MAXCMDLEN - text.length) last

theorem CommandLine.length (line : CommandLine cmd text) : cmd.length = MAXCMDLEN + 1 := by
  have short := line.short
  obtain ⟨last, rfl⟩ := line.filled
  unfold lineRest
  simp only [List.length_append, List.length_replicate, List.length_singleton]
  omega

theorem newCmd_line (size : cmd.length = MAXCMDLEN + 1) :
    CommandLine (newCmd cmd).cmd [] ∧ (newCmd cmd).i = 0 := by
  refine ⟨⟨Nat.zero_le _, List.not_mem_nil, ?_⟩, rfl⟩
  obtain ⟨last, isLast⟩ := List.length_eq_one_iff.mp
    (show (cmd.drop MAXCMDLEN).length = 1 by rw [List.length_drop, size]; omega)
  refine ⟨last, ?_⟩
  unfold newCmd lineRest
  rw [isLast]
  rfl

/-- The loop that reads has got a text. -/
def Reading.Has (text : List UInt8) (state : Reading) : Prop :=
  CommandLine state.cmd text ∧ state.i = text.length

/-- What one character does to the text. -/
theorem getKey_has {key : UInt8} (has : state.Has text) (inside : state.i < MAXCMDLEN) :
    (state.getKey key).Has
      (if key = 0 then text else if key = 8 then text.dropLast else text ++ [key]) := by
  obtain ⟨cmd, i⟩ := state
  obtain ⟨⟨short, nonzero, last, filled⟩, index⟩ := has
  dsimp only at filled index inside
  subst filled index
  unfold Reading.getKey
  dsimp only
  split
  · exact ⟨⟨short, nonzero, last, rfl⟩, rfl⟩
  · split
    · rcases List.eq_nil_or_concat' text with rfl | ⟨first, c, rfl⟩
      · exact ⟨⟨short, nonzero, last, rfl⟩, rfl⟩
      · rw [List.length_append, List.length_singleton] at inside ⊢
        rw [if_pos (Nat.succ_pos _), List.dropLast_concat, Nat.add_sub_cancel]
        refine ⟨⟨?_, ?_, last, ?_⟩, rfl⟩
        · omega
        · exact fun member => nonzero (List.mem_append_left _ member)
        · have zeros : MAXCMDLEN - first.length = MAXCMDLEN - (first.length + 1) + 1 := by omega
          unfold lineRest
          dsimp only
          rw [zeros, List.replicate_succ, List.append_assoc, List.set_append_right _ _ (Nat.le_refl _),
            Nat.sub_self]
          rfl
    · rename_i set _
      have next : (text ++ [key]).length = text.length + 1 := List.length_append ..
      refine ⟨⟨?_, ?_, last, ?_⟩, next.symm⟩
      · rw [List.length_append]
        exact inside
      · rw [List.mem_append, List.mem_singleton, not_or]
        exact ⟨nonzero, Ne.symm set⟩
      · have zeros : MAXCMDLEN - text.length = MAXCMDLEN - (text.length + 1) + 1 := by omega
        unfold lineRest
        dsimp only
        rw [List.length_append, List.length_singleton, zeros, List.replicate_succ,
          List.set_append_right _ _ (Nat.le_refl _), Nat.sub_self, List.append_assoc]
        rfl

/-- The loop that reads leaves a text in the buffer. -/
theorem readCommand_line (has : state.Has text) (reads : readCommand keys state = some cmd) :
    ∃ text, CommandLine cmd text := by
  induction keys generalizing state text with
  | nil =>
      rw [readCommand] at reads
      split at reads
      · cases reads
      · obtain rfl := Option.some.inj reads
        exact ⟨text, has.1⟩
  | cons key keys ih =>
      rw [readCommand] at reads
      split at reads
      · rename_i inside
        split at reads
        · split at reads
          · obtain rfl := Option.some.inj reads
            exact ⟨text, has.1⟩
          · exact ih (newCmd_line has.1.length) reads
        · exact ih (getKey_has has inside) reads
      · obtain rfl := Option.some.inj reads
        exact ⟨text, has.1⟩

/-- The arguments are the first words of the text: each pointer goes to the place of its word, and
a zero is behind the word. -/
structure Tokenized (text : List UInt8) (pointers : List Nat) (parsed : ParsedCommand) : Prop where
  count : parsed.argnum = pointers.length
  vector : parsed.argval.take (pointers.length + 1) = pointers.map some ++ [none]
  words : List.Forall₂
    (fun pointer word => word ++ [0] <+: parsed.cmd.drop pointer ∧ word <+: text.drop pointer)
    pointers ((commandWords text).take MAXARGS)
  sorted : pointers.Pairwise (· < ·)

/-- The parser ends within its arrays, and cuts the line into its words. -/
theorem shell_tokenizes (cmd text : List UInt8) (argval : List (Option Nat))
    (line : CommandLine cmd text) (size : argval.length = MAXARGS + 1) :
    ∃ bound, ∀ fuel ≥ bound, ∃ pointers parsed, parseCommand fuel cmd argval = some parsed ∧
      Tokenized text pointers parsed := by
  refine ⟨MAXCMDLEN + 1, fun fuel enough => ?_⟩
  obtain ⟨last, rfl⟩ := line.filled
  have short := line.short
  have width : ([] : List UInt8).length + text.length + (MAXCMDLEN - text.length) = MAXCMDLEN := by
    rw [List.length_nil]
    omega
  obtain ⟨pointers, parsed, runs, made⟩ : ∃ pointers parsed,
      parseLoop fuel fuel ([] : List UInt8).length 0
          ([] ++ lineRest text (MAXCMDLEN - text.length) last) argval = some parsed ∧
        Parsed text [] text 0 argval pointers parsed :=
    parseLoop_rest rfl line.nonzero width size (Nat.zero_le _) (Nat.lt_of_le_of_lt short enough)
      enough
  have few : pointers.length ≤ MAXARGS := by
    rw [made.words.length_eq, List.length_take]
    exact Nat.min_le_left ..
  have count := made.count
  rw [Nat.zero_add] at count
  have room : parsed.argnum < parsed.argval.length := by
    rw [count, made.size, size]
    exact Nat.lt_succ_of_le few
  refine ⟨pointers, { parsed with argval := parsed.argval.set parsed.argnum none }, ?_, count, ?_,
    made.words, made.sorted.1⟩
  · change parseLoop fuel fuel 0 0 (lineRest text (MAXCMDLEN - text.length) last) argval =
      some parsed at runs
    unfold parseCommand setAt
    rw [runs]
    dsimp only [Option.bind_eq_bind, Option.bind]
    rw [if_pos room]
    rfl
  · have vector := made.vector
    rw [List.take_zero, List.nil_append] at vector
    dsimp only
    rw [← count, List.take_add_one, List.take_set_of_le (Nat.le_refl _), vector]
    simp [room]

/-- A full line, of more words than there are arguments, with a tab in the last byte. -/
def fullLine : List UInt8 := (List.replicate 36 [97, 32]).flatten

theorem shell_tokenizes_full :
    ∃ bound, ∀ fuel ≥ bound, ∃ pointers parsed,
      parseCommand fuel (fullLine ++ [9]) (List.replicate 11 none) = some parsed ∧
        Tokenized fullLine pointers parsed :=
  shell_tokenizes (fullLine ++ [9]) fullLine (List.replicate 11 none)
    ⟨by decide, by decide, 9, by decide⟩ rfl

end CommandLine

end Oseer
