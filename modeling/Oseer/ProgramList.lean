import Oseer.CStrings
import Oseer.Kernel
import Oseer.Library.WordMemory

/-!
# The list of programs

`k_list_programs` writes the names of all programs into a buffer of a given size.  What it counts
against that size are the letters of the names only.
-/

namespace Oseer

open WordMemory ByteMemory ByteMemory.Bytes

/-- One round of the loop, after the size is checked: the name and a space. -/
def appendEntry (fuel buffer space name : Nat) (store : Bytes) : Option Bytes := do
  let store ← strcat fuel buffer name store
  strcat fuel buffer space store

/-- The loop of `k_list_programs` on the names of the programs that are left. -/
def listEntries (fuel buffer bufSize space : Nat) : List Nat → Nat → Bytes → Option (Int × Bytes)
  | [], _, store => some (-SUCCESS, store)
  | name :: progs, curSize, store => do
      let length ← strlen fuel store name
      let curSize := add32 curSize length
      if bufSize < curSize then return (-E_TOO_BIG, store)
      let store ← appendEntry fuel buffer space name store
      listEntries fuel buffer bufSize space progs curSize store

/-- `k_list_programs`: `hdr` and `space` are its own strings, and `progs` has `prog_name` of each
program. -/
def kListPrograms (fuel hdr space : Nat) (progs : List Nat) (buffer bufSize : Nat)
    (store : Bytes) : Option (Int × Bytes) := do
  let store := store.write buffer 0
  let length ← strlen fuel store hdr
  if bufSize < length then return (-E_TOO_BIG, store)
  let store ← strcpy fuel buffer hdr store
  listEntries fuel buffer bufSize space progs 0 store

/-- The text of `hdr`. -/
def listHeader : List UInt8 := literal "List of programs:\n"

/-- Every name and a space. -/
def entries (names : List (List UInt8)) : List UInt8 := names.flatMap (· ++ [32])

/-- The letters of the names. -/
def letters (names : List (List UInt8)) : Nat := (names.map List.length).sum

/-- The bytes of the buffer. -/
def InBuffer (buffer bufSize address : Nat) : Prop :=
  buffer ≤ address ∧ address < buffer + bufSize

/-- The call is right: it says that the buffer is too small, or the text is there; and it has not
written out of the buffer. -/
structure FillsBuffer (buffer bufSize : Nat) (text : List UInt8) (result : Int × Bytes) : Prop where
  answer : result.1 = -E_TOO_BIG ∨ (result.1 = -SUCCESS ∧ result.2.HoldsText buffer text)
  inside : result.2.WrittenIn (InBuffer buffer bufSize)

/-- There is room for all that is written behind a text of length `used`: where the letters of the
first programs have passed all checks, there is room for their entries and the zero. -/
def RoomFor (bufSize used curSize : Nat) (names : List (List UInt8)) : Prop :=
  ∀ k ≤ names.length, (∀ j ≤ k, (curSize + letters (names.take j)) % 2 ^ 32 ≤ bufSize) →
    used + letters (names.take k) + k < bufSize

variable {buffer bufSize used curSize fuel space : Nat} {name text : List UInt8}
  {names : List (List UInt8)} {store store' : Bytes} {address : Nat}

theorem roomFor_cons (passed : curSize % 2 ^ 32 ≤ bufSize) :
    RoomFor bufSize used curSize (name :: names) ↔ used < bufSize ∧
      (add32 curSize name.length ≤ bufSize →
        RoomFor bufSize (used + name.length + 1) (add32 curSize name.length) names) := by
  have letters_cons (k : Nat) : letters ((name :: names).take (k + 1)) =
      name.length + letters (names.take k) := by
    simp [letters]
  have counted (k : Nat) : (curSize + (name.length + letters (names.take k))) % 2 ^ 32 =
      (add32 curSize name.length + letters (names.take k)) % 2 ^ 32 := by
    unfold add32
    rw [Nat.mod_add_mod, Nat.add_assoc]
  constructor
  · intro room
    constructor
    · apply room 0 (Nat.zero_le _)
      intro j range
      obtain rfl := Nat.le_zero.mp range
      exact passed
    · intro next k range checks
      have bound := room (k + 1) (Nat.succ_le_succ range) fun j range => by
        cases j with
        | zero => exact passed
        | succ j =>
            rw [letters_cons, counted]
            exact checks j (Nat.le_of_succ_le_succ range)
      rw [letters_cons] at bound
      omega
  · rintro ⟨first, rest⟩ k range checks
    cases k with
    | zero => exact first
    | succ k =>
        have next := checks 1 (Nat.succ_le_succ (Nat.zero_le _))
        rw [letters_cons, counted] at next
        have bound := rest (by simpa [letters, add32] using next) k (Nat.le_of_succ_le_succ range)
          fun j range => by
            have check := checks (j + 1) (Nat.succ_le_succ range)
            rwa [letters_cons, counted] at check
        rw [letters_cons]
        omega

section Entry

variable (there : store.HoldsText buffer text)
  (nameApart : store.TextApart (InBuffer buffer bufSize) address name)
  (spaceApart : store.TextApart (InBuffer buffer bufSize) space [32])

include there nameApart spaceApart

/-- Where there is room, the entry is put behind the text. -/
theorem appendEntry_room (inside : store.WrittenIn (InBuffer buffer bufSize))
    (room : text.length + name.length + 1 < bufSize)
    (enough : text.length + name.length + 1 < fuel) :
    ∃ store', appendEntry fuel buffer space address store = some store' ∧
      store'.HoldsText buffer (text ++ (name ++ [32])) ∧
      store'.WrittenIn (InBuffer buffer bufSize) ∧
      Agree (InBuffer buffer bufSize) store store' := by
  have range (i : Nat) (low : buffer + text.length ≤ i)
      (high : i < buffer + text.length + (name ++ [0]).length) : InBuffer buffer bufSize i := by
    rw [List.length_append, List.length_singleton] at high
    unfold InBuffer
    omega
  have agree : Agree (InBuffer buffer bufSize) store
      (store.writeAll (buffer + text.length) (name ++ [0])) :=
    writeAll_agree range
  have there' := appended_text there nameApart.held.nonzero
  have spaceRange (i : Nat) (low : buffer + (text ++ name).length ≤ i)
      (high : i < buffer + (text ++ name).length + ([32] ++ [0] : List UInt8).length) :
      InBuffer buffer bufSize i := by
    rw [List.length_append] at low high
    simp only [List.length_append, List.length_singleton] at high
    unfold InBuffer
    omega
  refine ⟨_, ?_, ?_, writeAll_writtenIn (writeAll_writtenIn inside range) spaceRange,
    agree.trans (writeAll_agree spaceRange)⟩
  · unfold appendEntry
    rw [strcat_eq there (by omega), strcpy_text nameApart _ (by omega)]
    · dsimp only [Option.bind_eq_bind, Option.bind]
      rw [strcat_eq there' (by rw [List.length_append]; omega),
        strcpy_text (spaceApart.agree agree) _ (by rw [List.length_singleton]; omega)]
      intro a low high
      exact spaceRange a low (Nat.lt_succ_of_le high)
    · intro a low high
      apply range a low
      rw [List.length_append, ← Nat.add_assoc]
      exact Nat.lt_succ_of_le high
  · rw [← List.append_assoc]
    exact appended_text there' spaceApart.held.nonzero

/-- An entry that was written in the buffer had room there. -/
theorem room_of_appendEntry (enough : text.length + name.length + 1 < fuel)
    (appends : appendEntry fuel buffer space address store = some store')
    (inside : store'.WrittenIn (InBuffer buffer bufSize)) :
    text.length + name.length + 1 < bufSize := by
  obtain ⟨named, names, spaces⟩ := Option.bind_eq_some_iff.mp appends
  have namedIn : named.WrittenIn (InBuffer buffer bufSize) :=
    fun a member => inside a (strcat_mono spaces member)
  rw [strcat_eq there (by omega)] at names
  obtain rfl := strcpy_writtenIn nameApart names namedIn
  have there' := appended_text there nameApart.held.nonzero
  have agree : Agree (InBuffer buffer bufSize) store
      (store.writeAll (buffer + text.length) (name ++ [0])) :=
    writeAll_agree fun a low high => namedIn a (mem_writeAll_written.mpr (Or.inl ⟨low, high⟩))
  rw [strcat_eq there' (by rw [List.length_append]; omega)] at spaces
  obtain rfl := strcpy_writtenIn (spaceApart.agree agree) spaces inside
  have last := inside (buffer + (text ++ name).length + 1) (mem_writeAll_written.mpr (Or.inl
    ⟨Nat.le_add_right .., Nat.add_lt_add_left (by decide) _⟩))
  rw [List.length_append] at last
  unfold InBuffer at last
  omega

end Entry

theorem appendEntry_mono (appends : appendEntry fuel buffer space address store = some store') :
    store.written ⊆ store'.written := by
  obtain ⟨named, names, spaces⟩ := Option.bind_eq_some_iff.mp appends
  exact List.Subset.trans (strcat_mono names) (strcat_mono spaces)

theorem listEntries_mono {progs : List Nat} {result : Int × Bytes}
    (lists : listEntries fuel buffer bufSize space progs curSize store = some result) :
    store.written ⊆ result.2.written := by
  induction progs generalizing curSize store with
  | nil =>
      obtain rfl := Option.some.inj lists
      exact List.Subset.refl _
  | cons prog progs ih =>
      obtain ⟨length, -, lists⟩ := Option.bind_eq_some_iff.mp lists
      dsimp only at lists
      split at lists
      · obtain rfl := Option.some.inj lists
        exact List.Subset.refl _
      · obtain ⟨next, appends, lists⟩ := Option.bind_eq_some_iff.mp lists
        exact List.Subset.trans (appendEntry_mono appends) (ih lists)

/-- The loop is right if and only if there is room. -/
theorem listEntries_iff {progs : List Nat} {text : List UInt8}
    (there : store.HoldsText buffer text)
    (inside : store.WrittenIn (InBuffer buffer bufSize))
    (spaceApart : store.TextApart (InBuffer buffer bufSize) space [32])
    (namesApart : List.Forall₂ (store.TextApart (InBuffer buffer bufSize)) progs names)
    (roomy : text.length < bufSize) (passed : curSize % 2 ^ 32 ≤ bufSize)
    (enough : text.length + letters names + names.length < fuel) :
    (∃ result, listEntries fuel buffer bufSize space progs curSize store = some result ∧
      FillsBuffer buffer bufSize (text ++ entries names) result) ↔
      RoomFor bufSize text.length curSize names := by
  induction names generalizing curSize store text progs with
  | nil =>
      obtain rfl := List.forall₂_nil_right_iff.mp namesApart
      constructor
      · rintro - k range -
        obtain rfl := Nat.le_zero.mp range
        exact roomy
      · intro room
        refine ⟨_, rfl, Or.inr ⟨rfl, ?_⟩, inside⟩
        rw [entries, List.flatMap_nil, List.append_nil]
        exact there
  | cons name names ih =>
      obtain ⟨prog, progs, nameApart, restApart, rfl⟩ := List.forall₂_cons_right_iff.mp namesApart
      have total : letters (name :: names) = name.length + letters names := List.sum_cons ..
      rw [total, List.length_cons] at enough
      rw [roomFor_cons passed, and_iff_right roomy, listEntries,
        strlen_text nameApart.held (by omega)]
      dsimp only [Option.bind_eq_bind, Option.bind]
      by_cases refused : bufSize < add32 curSize name.length
      · rw [if_pos refused]
        constructor
        · intro _ fits
          omega
        · intro _
          exact ⟨_, rfl, Or.inl rfl, inside⟩
      · rw [if_neg refused, imp_iff_right (Nat.le_of_not_lt refused)]
        have rounds : text.length + name.length + 1 < fuel := by omega
        by_cases room : text.length + name.length + 1 < bufSize
        · obtain ⟨store', appends, there', inside', agree⟩ :=
            appendEntry_room there nameApart spaceApart inside room rounds
          have width : (text ++ (name ++ [32])).length = text.length + name.length + 1 := by
            simp only [List.length_append, List.length_singleton, Nat.add_assoc]
          have fine : add32 curSize name.length % 2 ^ 32 ≤ bufSize := by
            unfold add32 at refused ⊢
            rw [Nat.mod_mod]
            exact Nat.le_of_not_lt refused
          have rest := ih there' inside' (spaceApart.agree agree)
            (restApart.imp fun _ _ apart => apart.agree agree) (by rwa [width]) fine
            (by rw [width]; omega)
          rw [width] at rest
          rw [appends, ← rest, entries, List.flatMap_cons, ← List.append_assoc]
          exact Iff.rfl
        · constructor
          · rintro ⟨result, lists, listed⟩
            obtain ⟨store', appends, lists⟩ := Option.bind_eq_some_iff.mp lists
            exact absurd (room_of_appendEntry there nameApart spaceApart rounds appends
              fun a member => listed.inside a (listEntries_mono lists member)) room
          · intro rest
            exact absurd (rest 0 (Nat.zero_le _) fun j range => by
              obtain rfl := Nat.le_zero.mp range
              unfold add32 at refused ⊢
              simp only [letters, List.take_zero, List.map_nil, List.sum_nil, Nat.add_zero,
                Nat.mod_mod]
              omega) room

/-- The strings that are read are texts outside of the buffer, and nothing is written yet. -/
structure ListTexts (hdr space : Nat) (progs : List Nat) (buffer bufSize : Nat)
    (names : List (List UInt8)) (store : Bytes) : Prop where
  hdr : store.TextApart (InBuffer buffer bufSize) hdr listHeader
  space : store.TextApart (InBuffer buffer bufSize) space [32]
  progs : List.Forall₂ (store.TextApart (InBuffer buffer bufSize)) progs names
  fresh : store.written = []

/-- The call is right for all large numbers of rounds. -/
def ListsRight (hdr space : Nat) (progs : List Nat) (buffer bufSize : Nat)
    (names : List (List UInt8)) (store : Bytes) : Prop :=
  ∃ bound, ∀ fuel ≥ bound, ∃ result,
    kListPrograms fuel hdr space progs buffer bufSize store = some result ∧
      FillsBuffer buffer bufSize (listHeader ++ entries names) result

theorem listHeader_length : listHeader.length = 18 := rfl

theorem roomFor_used {names : List (List UInt8)} (room : RoomFor bufSize used 0 names) :
    used < bufSize :=
  room 0 (Nat.zero_le _) fun j range => by
    obtain rfl := Nat.le_zero.mp range
    exact Nat.zero_le _

theorem kListPrograms_first {hdr : Nat} {progs : List Nat} {result : Int × Bytes}
    (lists : kListPrograms fuel hdr space progs buffer bufSize store = some result) :
    buffer ∈ result.2.written := by
  obtain ⟨length, -, lists⟩ := Option.bind_eq_some_iff.mp lists
  split at lists
  · obtain rfl := Option.some.inj lists
    exact List.mem_cons_self ..
  · obtain ⟨headed, copies, lists⟩ := Option.bind_eq_some_iff.mp lists
    exact listEntries_mono lists (strcpyFrom_mono copies (List.mem_cons_self ..))

/-- What the call does after `buffer[0]` is set, when the header is not too long. -/
theorem listHeaded_iff {hdr : Nat} {progs : List Nat}
    (apart : store.TextApart (InBuffer buffer bufSize) hdr listHeader)
    (spaceApart : store.TextApart (InBuffer buffer bufSize) space [32])
    (namesApart : List.Forall₂ (store.TextApart (InBuffer buffer bufSize)) progs names)
    (inside : store.WrittenIn (InBuffer buffer bufSize))
    (enough : 18 + letters names + names.length < fuel) :
    (∃ result, (strcpy fuel buffer hdr store).bind
        (listEntries fuel buffer bufSize space progs 0) = some result ∧
      FillsBuffer buffer bufSize (listHeader ++ entries names) result) ↔
      RoomFor bufSize 18 0 names := by
  have width := listHeader_length
  by_cases roomy : 18 < bufSize
  · have range (i : Nat) (low : buffer ≤ i) (high : i ≤ buffer + listHeader.length) :
        InBuffer buffer bufSize i := by
      unfold InBuffer
      omega
    have range' (i : Nat) (low : buffer ≤ i) (high : i < buffer + (listHeader ++ [0]).length) :
        InBuffer buffer bufSize i := by
      rw [List.length_append] at high
      exact range i low (Nat.le_of_lt_succ high)
    have agree : Agree (InBuffer buffer bufSize) store
        (store.writeAll buffer (listHeader ++ [0])) :=
      writeAll_agree range'
    rw [strcpy_text apart range (by omega), Option.bind_some]
    exact listEntries_iff ⟨apart.held.nonzero, writeAll_holds⟩
      (writeAll_writtenIn inside range') (spaceApart.agree agree)
      (namesApart.imp fun _ _ apart => apart.agree agree) roomy (Nat.zero_le _)
      (by omega)
  · constructor
    · rintro ⟨result, lists, listed⟩
      obtain ⟨headed, copies, lists⟩ := Option.bind_eq_some_iff.mp lists
      have headedIn : headed.WrittenIn (InBuffer buffer bufSize) :=
        fun a member => listed.inside a (listEntries_mono lists member)
      obtain rfl := strcpy_writtenIn apart copies headedIn
      have last := headedIn (buffer + 18)
        (mem_writeAll_written.mpr (Or.inl ⟨Nat.le_add_right .., Nat.add_lt_add_left (by decide) _⟩))
      exact absurd (Nat.lt_of_add_lt_add_left last.2) roomy
    · intro room
      exact absurd (roomFor_used room) roomy

theorem kListPrograms_iff {hdr : Nat} {progs : List Nat}
    (texts : ListTexts hdr space progs buffer bufSize names store)
    (enough : 18 + letters names + names.length < fuel) :
    (∃ result, kListPrograms fuel hdr space progs buffer bufSize store = some result ∧
      FillsBuffer buffer bufSize (listHeader ++ entries names) result) ↔
      0 < bufSize ∧ (18 ≤ bufSize → RoomFor bufSize 18 0 names) := by
  by_cases empty : bufSize = 0
  · subst empty
    constructor
    · rintro ⟨result, lists, listed⟩
      have first := listed.inside buffer (kListPrograms_first lists)
      exact absurd first.2 (Nat.lt_irrefl _)
    · rintro ⟨positive, -⟩
      exact absurd positive (Nat.lt_irrefl _)
  · have positive := Nat.pos_of_ne_zero empty
    have here : InBuffer buffer bufSize buffer := ⟨Nat.le_refl _, Nat.lt_add_of_pos_right positive⟩
    have agree : Agree (InBuffer buffer bufSize) store (store.write buffer 0) := write_agree here
    have inside : (store.write buffer 0).WrittenIn (InBuffer buffer bufSize) := by
      intro a member
      rw [write_written, texts.fresh, List.mem_singleton] at member
      exact member ▸ here
    have apart := texts.hdr.agree agree
    unfold kListPrograms
    rw [and_iff_right positive]
    dsimp only
    rw [strlen_text apart.held (by rw [listHeader_length]; omega), listHeader_length]
    dsimp only [Option.bind_eq_bind, Option.bind_some]
    by_cases refused : bufSize < 18
    · rw [if_pos refused]
      constructor
      · intro _ large
        omega
      · intro _
        exact ⟨_, rfl, Or.inl rfl, inside⟩
    · rw [if_neg refused, imp_iff_right (Nat.le_of_not_lt refused)]
      exact listHeaded_iff apart (texts.space.agree agree)
        (texts.progs.imp fun _ _ apart => apart.agree agree) inside enough

/-- The list of programs respects its buffer if and only if the buffer is too small for the header
or has room for all that passes the checks. -/
theorem listing_respects_buffer_iff (hdr space : Nat) (progs : List Nat) (buffer bufSize : Nat)
    (names : List (List UInt8)) (store : Bytes)
    (texts : ListTexts hdr space progs buffer bufSize names store) :
    ListsRight hdr space progs buffer bufSize names store ↔
      0 < bufSize ∧ (18 ≤ bufSize → RoomFor bufSize 18 0 names) := by
  constructor
  · rintro ⟨bound, right⟩
    exact (kListPrograms_iff texts (by omega)).mp
      (right (bound + (18 + letters names + names.length + 1)) (Nat.le_add_right ..))
  · intro roomy
    refine ⟨18 + letters names + names.length + 1, fun fuel enough => ?_⟩
    exact (kListPrograms_iff texts enough).mpr roomy

/-- The programs `shell` and `hello`, with the strings of the call before their names. -/
def listingMemory : Bytes where
  byte address := (listHeader ++ literal "\x00 \x00shell\x00hello\x00").getD (address - 100) 0
  written := []

def listingNames : List (List UInt8) := [literal "shell", literal "hello"]

theorem listingMemory_texts {bufSize : Nat} :
    ListTexts 100 119 [121, 127] 200 bufSize listingNames listingMemory := by
  have apart (address : Nat) (text : List UInt8) (below : address + text.length < 200)
      (held : listingMemory.HoldsText address text) :
      listingMemory.TextApart (InBuffer 200 bufSize) address text := by
    refine ⟨held, fun i _ high inside => ?_⟩
    unfold InBuffer at inside
    omega
  exact ⟨apart _ _ (by decide) ⟨by decide, by decide⟩, apart _ _ (by decide) ⟨by decide, by decide⟩,
    .cons (apart _ _ (by decide) ⟨by decide, by decide⟩)
      (.cons (apart _ _ (by decide) ⟨by decide, by decide⟩) .nil), rfl⟩

/-- Both names fit by the code's count into 28 bytes, and their entries do not. -/
theorem listing_respects_buffer_fail :
    ¬ (∀ hdr space progs buffer bufSize names store,
      ListTexts hdr space progs buffer bufSize names store →
        ListsRight hdr space progs buffer bufSize names store) := by
  intro right
  obtain ⟨bound, lists⟩ := right 100 119 [121, 127] 200 28 _ _ listingMemory_texts
  have roomy := (kListPrograms_iff listingMemory_texts (by
    change 30 < bound + 31
    omega)).mp (lists (bound + 31) (Nat.le_add_right ..))
  have second := roomy.2 (by decide) 2 (by decide) (by decide)
  exact absurd second (by decide)

theorem listing_respects_buffer_sample :
    ListsRight 100 119 [121, 127] 200 31 listingNames listingMemory :=
  (listing_respects_buffer_iff 100 119 [121, 127] 200 31 listingNames listingMemory
    listingMemory_texts).mpr ⟨by decide, fun _ => by
      unfold RoomFor
      decide⟩

end Oseer
