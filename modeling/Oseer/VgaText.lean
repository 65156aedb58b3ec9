import Oseer.Devices

/-!
# The text console

The functions of `arch/i386/arch/devices/vga_text.c`.  The memory is seen from
`VIDEO` on: an offset stands for the byte at that distance, in arithmetic
modulo `2 ^ 32` like the cursor's.  Every byte that is written and every entry
of `color` that is read is recorded, so that a run can be asked where it went.
-/

namespace Oseer

/-- `COLS`. -/
def COLS : Int := 80

/-- `ROWS`. -/
def ROWS : Int := 24

/-- The value that an `int` takes. -/
def int32 (x : Int) : Int := x.bmod 4294967296

/-- An access of the console's code to memory. -/
inductive VgaAccess
  | wrote (offset : Int)
  | readColor (index : Int)
  deriving DecidableEq, Repr

/-- The static variables of the console, the video memory, the registers of the
hardware cursor, and the accesses so far.  Only the entries 0, 1 and 2 of `color`
belong to the array. -/
structure VgaText where
  xpos : Int
  ypos : Int
  color : Int → BitVec 32
  video : Int → BitVec 8
  cursor : BitVec 16
  accesses : List VgaAccess

namespace VgaText

/-- A byte is stored at an offset from `video`. -/
def store (offset : Int) (byte : BitVec 8) (vga : VgaText) : VgaText :=
  { vga with
    video := fun place => if place = offset then byte else vga.video place
    accesses := vga.accesses ++ [.wrote offset] }

/-- An entry of `color` is read. -/
def readColor (attr : Int) (vga : VgaText) : VgaText :=
  { vga with accesses := vga.accesses ++ [.readColor attr] }

/-- The loop of `memmove` that goes up. -/
def copyUp : Nat → Int → Int → VgaText → VgaText
  | 0, _, _, vga => vga
  | n + 1, dest, src, vga => copyUp n (dest + 1) (src + 1) (vga.store dest (vga.video src))

/-- The loop of `memmove` that goes down. -/
def copyDown : Nat → Int → Int → VgaText → VgaText
  | 0, _, _, vga => vga
  | n + 1, dest, src, vga => copyDown n (dest - 1) (src - 1) (vga.store dest (vga.video src))

/-- `memmove`. -/
def memmove (dest src : Int) (n : Nat) (vga : VgaText) : VgaText :=
  if dest < src then vga.copyUp n dest src
  else vga.copyDown n (dest + n - 1) (src + n - 1)

/-- `memsetw`. -/
def memsetw (c : BitVec 32) : Nat → Int → VgaText → VgaText
  | 0, _, vga => vga
  | n + 1, s, vga =>
      memsetw c n (s + 2) ((vga.store s (c.setWidth 8)).store (s + 1) ((c >>> 8).setWidth 8))

/-- `vga_text_gotoxy`. -/
def vgaTextGotoxy (x y : Int) (vga : VgaText) : VgaText :=
  { vga with xpos := x, ypos := y, cursor := BitVec.ofInt 16 (y * 80 + x) }

/-- The loop of `vga_text_clear`. -/
def clearLoop : Nat → Int → VgaText → VgaText
  | 0, _, vga => vga
  | n + 1, i, vga => clearLoop n (i + 1) (vga.store i 0)

/-- `vga_text_clear`. -/
def vgaTextClear (vga : VgaText) : VgaText :=
  (vga.clearLoop (COLS * ROWS * 2).toNat 0).vgaTextGotoxy 0 0

/-- `vga_text_init`. -/
def vgaTextInit (vga : VgaText) : VgaText :=
  vgaTextClear { vga with xpos := 0, ypos := 0 }

/-- The offset of the character under the cursor. -/
def place (vga : VgaText) : Int := int32 ((vga.xpos + vga.ypos * COLS) * 2)

/-- The two stores that put a character under the cursor. -/
def putCell (c attr : Int) (vga : VgaText) : VgaText :=
  ((vga.store vga.place (BitVec.ofInt 8 c)).readColor attr).store (int32 (vga.place + 1))
    ((vga.color attr).setWidth 8)

/-- The `switch` of `vga_text_print_char`. -/
def printSwitch (c attr : Int) (vga : VgaText) : VgaText :=
  if c = 9 then { vga with xpos := int32 ((vga.xpos.tdiv 8 + 1) * 8) }
  else if c = 13 then { vga with xpos := 0 }
  else if c = 10 then vga
  else if c = 8 then
    if 0 < vga.xpos then putCell 32 attr { vga with xpos := vga.xpos - 1 } else vga
  else
    let vga := vga.putCell c attr
    { vga with xpos := int32 (vga.xpos + 1) }

/-- One line up. -/
def scroll (attr : Int) (vga : VgaText) : VgaText :=
  ((vga.memmove 0 (80 * 2) (80 * 2 * 24)).readColor attr).memsetw
    (32 ||| vga.color attr <<< 8) 80 (80 * 2 * 24)

/-- The part of `vga_text_print_char` that goes on with a new line. -/
def newLine (c attr : Int) (vga : VgaText) : VgaText :=
  if COLS ≤ vga.xpos ∨ c = 10 then
    let vga := { vga with xpos := 0 }
    if vga.ypos < ROWS then { vga with ypos := vga.ypos + 1 } else vga.scroll attr
  else vga

/-- `vga_text_print_char`. -/
def vgaTextPrintChar (c attr : Int) (vga : VgaText) : VgaText :=
  let vga := (vga.printSwitch c attr).newLine c attr
  vga.vgaTextGotoxy vga.xpos vga.ypos

/-- `vga_text_send`, with the two words at `data`. -/
def vgaTextSend (data : Int × Int) (flags : Nat) (vga : VgaText) : Int × VgaText :=
  if flags = PRINTCHAR then (0, vga.vgaTextPrintChar data.1 data.2)
  else if flags = CLEAR then (0, vga.vgaTextClear)
  else if flags = GOTOXY then (0, vga.vgaTextGotoxy data.1 data.2)
  else (-1, vga)

end VgaText

/-- The arguments of a call of `vga_text_send`. -/
structure VgaCall where
  data : Int × Int
  flags : Nat
  deriving DecidableEq, Repr

namespace VgaText

/-- A sequence of calls. -/
def sendAll : List VgaCall → VgaText → VgaText
  | [], vga => vga
  | call :: calls, vga => sendAll calls (vga.vgaTextSend call.data call.flags).2

end VgaText

section Screen

/-- An access that stays in the text buffer and in the array `color`. -/
def VgaAccess.Inside : VgaAccess → Prop
  | .wrote offset => 0 ≤ offset ∧ offset < 80 * 25 * 2
  | .readColor index => 0 ≤ index ∧ index ≤ 2

/-- The arguments with which the console stays on the screen: a cursor position must
be one of the screen, and a character that is printed must have one of the colours. -/
def VgaCall.Meets (call : VgaCall) : Prop :=
  (call.flags = PRINTCHAR → call.data.1 = 13 ∨ (0 ≤ call.data.2 ∧ call.data.2 ≤ 2)) ∧
  (call.flags = GOTOXY → (0 ≤ call.data.2 ∧ call.data.2 ≤ ROWS) ∧
    0 ≤ call.data.2 * COLS + call.data.1 ∧ call.data.2 * COLS + call.data.1 < 80 * 25)

instance : DecidablePred VgaCall.Meets := fun _ =>
  inferInstanceAs (Decidable (_ ∧ _))

instance : DecidablePred VgaAccess.Inside := fun access =>
  match access with
  | .wrote _ => inferInstanceAs (Decidable (_ ∧ _))
  | .readColor _ => inferInstanceAs (Decidable (_ ∧ _))

variable {vga : VgaText} {offset index c attr : Int} {byte : BitVec 8} {call : VgaCall}

theorem int32_eq {x : Int} (low : -2147483648 ≤ x) (high : x < 2147483648) : int32 x = x := by
  unfold int32 Int.bmod
  dsimp only
  split <;> omega

/-- All accesses so far stayed inside. -/
def VgaText.AllInside (vga : VgaText) : Prop := ∀ access ∈ vga.accesses, access.Inside

namespace VgaText

theorem AllInside.store (inside : vga.AllInside) (byte : BitVec 8) (low : 0 ≤ offset)
    (high : offset < 80 * 25 * 2) : (vga.store offset byte).AllInside := by
  intro access mem
  rcases List.mem_append.mp mem with old | new
  · exact inside access old
  · rw [List.mem_singleton.mp new]
    exact ⟨low, high⟩

theorem AllInside.readColor (inside : vga.AllInside) (colored : 0 ≤ attr ∧ attr ≤ 2) :
    (vga.readColor attr).AllInside := by
  intro access mem
  rcases List.mem_append.mp mem with old | new
  · exact inside access old
  · rw [List.mem_singleton.mp new]
    exact colored

theorem AllInside.copyUp {n : Nat} {dest src : Int} (inside : vga.AllInside) (low : 0 ≤ dest)
    (high : dest + n ≤ 80 * 25 * 2) : (vga.copyUp n dest src).AllInside := by
  induction n generalizing vga dest src with
  | zero => exact inside
  | succ n ih =>
      unfold VgaText.copyUp
      apply ih
      · exact inside.store _ low (by omega)
      · omega
      · omega

theorem AllInside.memsetw {n : Nat} {c : BitVec 32} {s : Int} (inside : vga.AllInside)
    (low : 0 ≤ s) (high : s + 2 * n ≤ 80 * 25 * 2) : (vga.memsetw c n s).AllInside := by
  induction n generalizing vga s with
  | zero => exact inside
  | succ n ih =>
      unfold VgaText.memsetw
      apply ih
      · exact (inside.store _ low (by omega)).store _ (by omega) (by omega)
      · omega
      · omega

theorem AllInside.clearLoop {n : Nat} {i : Int} (inside : vga.AllInside) (low : 0 ≤ i)
    (high : i + n ≤ 80 * 25 * 2) : (vga.clearLoop n i).AllInside := by
  induction n generalizing vga i with
  | zero => exact inside
  | succ n ih =>
      unfold VgaText.clearLoop
      apply ih
      · exact inside.store _ low (by omega)
      · omega
      · omega

theorem AllInside.vgaTextGotoxy {x y : Int} (inside : vga.AllInside) :
    (vga.vgaTextGotoxy x y).AllInside := inside

theorem AllInside.vgaTextClear (inside : vga.AllInside) : vga.vgaTextClear.AllInside := by
  unfold VgaText.vgaTextClear
  apply AllInside.vgaTextGotoxy
  apply inside.clearLoop
  · decide
  · decide

theorem memmove_up {n : Nat} {dest src : Int} (less : dest < src) :
    vga.memmove dest src n = vga.copyUp n dest src := if_pos less

theorem AllInside.scroll (inside : vga.AllInside) (colored : 0 ≤ attr ∧ attr ≤ 2) :
    (vga.scroll attr).AllInside := by
  unfold VgaText.scroll
  rw [memmove_up (by decide)]
  apply AllInside.memsetw
  · apply AllInside.readColor _ colored
    apply inside.copyUp
    · omega
    · omega
  · omega
  · omega

/-- The cursor stands on a cell of the screen. -/
structure OnScreen (vga : VgaText) : Prop where
  row : 0 ≤ vga.ypos ∧ vga.ypos ≤ ROWS
  low : 0 ≤ vga.ypos * COLS + vga.xpos
  high : vga.ypos * COLS + vga.xpos < 80 * 25

theorem OnScreen.place_eq (screen : vga.OnScreen) :
    vga.place = (vga.ypos * COLS + vga.xpos) * 2 := by
  obtain ⟨-, low, high⟩ := screen
  unfold VgaText.place
  rw [int32_eq (by omega) (by omega), Int.add_comm]

theorem AllInside.putCell (inside : vga.AllInside) (screen : vga.OnScreen) (c : Int)
    (colored : 0 ≤ attr ∧ attr ≤ 2) : (vga.putCell c attr).AllInside := by
  have placed := screen.place_eq
  obtain ⟨-, low, high⟩ := screen
  unfold VgaText.putCell
  rw [int32_eq (by omega) (by omega)]
  apply AllInside.store
  · exact AllInside.readColor (inside.store _ (by omega) (by omega)) colored
  · omega
  · omega

theorem tab_bounds {x : Int} : x ≤ (x.tdiv 8 + 1) * 8 ∧ (x.tdiv 8 + 1) * 8 ≤ x + 15 := by
  rw [Int.tdiv_eq_ediv, show Int.sign 8 = 1 from rfl]
  split <;> omega

/-- The `switch` keeps the line, and the column does not leave the screen to the left. -/
theorem OnScreen.printSwitch (screen : vga.OnScreen) (inside : vga.AllInside)
    (colored : c = 13 ∨ (0 ≤ attr ∧ attr ≤ 2)) :
    (vga.printSwitch c attr).AllInside ∧ (vga.printSwitch c attr).ypos = vga.ypos ∧
      0 ≤ vga.ypos * COLS + (vga.printSwitch c attr).xpos ∧
      (c = 13 → (vga.printSwitch c attr).xpos = 0) := by
  have row := screen.row
  have low := screen.low
  have high := screen.high
  unfold ROWS at row
  unfold COLS at low high ⊢
  unfold VgaText.printSwitch
  by_cases tab : c = 9
  · rw [if_pos tab]
    have bounds := tab_bounds (x := vga.xpos)
    dsimp only
    rw [int32_eq (by omega) (by omega)]
    exact ⟨inside, rfl, by omega, by omega⟩
  rw [if_neg tab]
  by_cases carriage : c = 13
  · rw [if_pos carriage]
    exact ⟨inside, rfl, by dsimp only; omega, fun _ => rfl⟩
  rw [if_neg carriage]
  have color := colored.resolve_left carriage
  by_cases newline : c = 10
  · rw [if_pos newline]
    exact ⟨inside, rfl, low, fun isReturn => absurd isReturn carriage⟩
  rw [if_neg newline]
  by_cases backspace : c = 8
  · rw [if_pos backspace]
    split
    · have moved : OnScreen { vga with xpos := vga.xpos - 1 } :=
        ⟨screen.row, by unfold COLS; dsimp only; omega, by unfold COLS; dsimp only; omega⟩
      have kept : AllInside { vga with xpos := vga.xpos - 1 } := inside
      refine ⟨kept.putCell moved 32 color, rfl, ?_, fun isReturn => absurd isReturn carriage⟩
      show 0 ≤ vga.ypos * 80 + (vga.xpos - 1)
      omega
    · exact ⟨inside, rfl, low, fun isReturn => absurd isReturn carriage⟩
  · rw [if_neg backspace]
    refine ⟨inside.putCell screen c color, rfl, ?_, fun isReturn => absurd isReturn carriage⟩
    show 0 ≤ vga.ypos * 80 + int32 (vga.xpos + 1)
    rw [int32_eq (by omega) (by omega)]
    omega

theorem copyUp_frame (vga : VgaText) (n : Nat) (dest src : Int) :
    (vga.copyUp n dest src).xpos = vga.xpos ∧ (vga.copyUp n dest src).ypos = vga.ypos ∧
      (vga.copyUp n dest src).color = vga.color := by
  induction n generalizing vga dest src with
  | zero => exact ⟨rfl, rfl, rfl⟩
  | succ n ih => exact ih ..

theorem memsetw_frame (vga : VgaText) (n : Nat) (c : BitVec 32) (s : Int) :
    (vga.memsetw c n s).xpos = vga.xpos ∧ (vga.memsetw c n s).ypos = vga.ypos ∧
      (vga.memsetw c n s).color = vga.color := by
  induction n generalizing vga s with
  | zero => exact ⟨rfl, rfl, rfl⟩
  | succ n ih => exact ih ..

theorem readColor_frame (vga : VgaText) (attr : Int) :
    (vga.readColor attr).xpos = vga.xpos ∧ (vga.readColor attr).ypos = vga.ypos ∧
      (vga.readColor attr).color = vga.color := ⟨rfl, rfl, rfl⟩

theorem scroll_frame (vga : VgaText) (attr : Int) : (vga.scroll attr).xpos = vga.xpos ∧
    (vga.scroll attr).ypos = vga.ypos ∧ (vga.scroll attr).color = vga.color := by
  unfold VgaText.scroll
  rw [memmove_up (by decide)]
  obtain ⟨x, y, color⟩ := memsetw_frame
    ((vga.copyUp (80 * 2 * 24) 0 (80 * 2)).readColor attr) 80 (32 ||| vga.color attr <<< 8)
    (80 * 2 * 24)
  obtain ⟨x', y', color'⟩ := readColor_frame (vga.copyUp (80 * 2 * 24) 0 (80 * 2)) attr
  rw [x, y, color, x', y', color']
  apply copyUp_frame

/-- What holds between the calls: the cursor is on the screen and all accesses were inside. -/
structure Stays (vga : VgaText) : Prop where
  screen : vga.OnScreen
  inside : vga.AllInside

theorem Stays.settle (stays : vga.Stays) : (vga.vgaTextGotoxy vga.xpos vga.ypos).Stays :=
  ⟨⟨stays.screen.row, stays.screen.low, stays.screen.high⟩, stays.inside⟩

theorem Stays.scroll (stays : vga.Stays) (colored : 0 ≤ attr ∧ attr ≤ 2) :
    (vga.scroll attr).Stays := by
  obtain ⟨x, y, -⟩ := scroll_frame vga attr
  obtain ⟨⟨row, low, high⟩, inside⟩ := stays
  rw [← y] at row
  rw [← x, ← y] at low high
  exact ⟨⟨row, low, high⟩, inside.scroll colored⟩

theorem Stays.vgaTextPrintChar (stays : vga.Stays)
    (colored : c = 13 ∨ (0 ≤ attr ∧ attr ≤ 2)) : (vga.vgaTextPrintChar c attr).Stays := by
  obtain ⟨inside, line, low, carriage⟩ := stays.screen.printSwitch stays.inside colored
  have row := stays.screen.row
  apply Stays.settle
  generalize vga.printSwitch c attr = next at inside line low carriage
  rw [← line] at row low
  unfold ROWS at row
  unfold COLS at low
  unfold VgaText.newLine
  by_cases more : COLS ≤ next.xpos ∨ c = 10
  · rw [if_pos more]
    dsimp only
    have color : 0 ≤ attr ∧ attr ≤ 2 := by
      apply colored.resolve_left
      rintro rfl
      rw [carriage rfl] at more
      revert more
      decide
    by_cases above : next.ypos < ROWS
    · rw [if_pos above]
      unfold ROWS at above
      refine ⟨⟨⟨?_, ?_⟩, ?_, ?_⟩, inside⟩
      · show 0 ≤ next.ypos + 1
        omega
      · show next.ypos + 1 ≤ 24
        omega
      · show 0 ≤ (next.ypos + 1) * 80 + 0
        omega
      · show (next.ypos + 1) * 80 + 0 < 80 * 25
        omega
    · rw [if_neg above]
      have home : Stays { next with xpos := 0 } := by
        refine ⟨⟨row, ?_, ?_⟩, inside⟩
        · show 0 ≤ next.ypos * 80 + 0
          omega
        · show next.ypos * 80 + 0 < 80 * 25
          omega
      exact home.scroll color
  · rw [if_neg more]
    have column : next.xpos < 80 := by
      unfold COLS at more
      omega
    refine ⟨⟨row, low, ?_⟩, inside⟩
    show next.ypos * 80 + next.xpos < 80 * 25
    omega

theorem OnScreen.of_home (column : vga.xpos = 0) (row : vga.ypos = 0) : vga.OnScreen := by
  constructor
  · rw [row]
    decide
  · rw [row, column]
    decide
  · rw [row, column]
    decide

theorem Stays.vgaTextClear (inside : vga.AllInside) : vga.vgaTextClear.Stays :=
  ⟨.of_home rfl rfl, inside.vgaTextClear⟩

theorem Stays.vgaTextInit (fresh : vga.accesses = []) : vga.vgaTextInit.Stays := by
  apply Stays.vgaTextClear
  intro access mem
  simp [fresh] at mem

theorem Stays.vgaTextSend (stays : vga.Stays) (meets : call.Meets) :
    (vga.vgaTextSend call.data call.flags).2.Stays := by
  unfold VgaText.vgaTextSend
  split
  · exact stays.vgaTextPrintChar (meets.1 ‹_›)
  split
  · exact Stays.vgaTextClear stays.inside
  split
  · obtain ⟨row, low, high⟩ := meets.2 ‹_›
    exact ⟨⟨row, low, high⟩, stays.inside⟩
  · exact stays

theorem Stays.sendAll {calls : List VgaCall} (stays : vga.Stays)
    (meets : ∀ call ∈ calls, call.Meets) : (vga.sendAll calls).Stays := by
  induction calls generalizing vga with
  | nil => exact stays
  | cons call calls ih =>
      unfold VgaText.sendAll
      apply ih
      · exact stays.vgaTextSend (meets call List.mem_cons_self)
      · exact fun other mem => meets other (List.mem_cons_of_mem _ mem)

theorem mem_copyUp {access : VgaAccess} {n : Nat} {dest src : Int} (mem : access ∈ vga.accesses) :
    access ∈ (vga.copyUp n dest src).accesses := by
  induction n generalizing vga dest src with
  | zero => exact mem
  | succ n ih => exact ih (List.mem_append_left _ mem)

theorem mem_memsetw {access : VgaAccess} {n : Nat} {c : BitVec 32} {s : Int}
    (mem : access ∈ vga.accesses) : access ∈ (vga.memsetw c n s).accesses := by
  induction n generalizing vga s with
  | zero => exact mem
  | succ n ih => exact ih (List.mem_append_left _ (List.mem_append_left _ mem))

theorem mem_scroll {access : VgaAccess} (mem : access ∈ vga.accesses) :
    access ∈ (vga.scroll attr).accesses := by
  unfold VgaText.scroll
  rw [memmove_up (by decide)]
  apply mem_memsetw
  apply List.mem_append_left
  exact mem_copyUp mem

theorem mem_newLine {access : VgaAccess} (mem : access ∈ vga.accesses) :
    access ∈ (vga.newLine c attr).accesses := by
  unfold VgaText.newLine
  dsimp only
  split
  · split
    · exact mem
    · exact mem_scroll mem
  · exact mem

theorem readColor_mem_scroll : .readColor attr ∈ (vga.scroll attr).accesses := by
  unfold VgaText.scroll
  apply mem_memsetw
  exact List.mem_append_right _ (List.mem_singleton_self _)

theorem mem_putCell : .wrote vga.place ∈ (vga.putCell c attr).accesses ∧
    .readColor attr ∈ (vga.putCell c attr).accesses := by
  simp [VgaText.putCell, VgaText.store, VgaText.readColor]

theorem wrote_printChar (ordinary : c ≠ 9 ∧ c ≠ 13 ∧ c ≠ 10 ∧ c ≠ 8) :
    .wrote vga.place ∈ (vga.vgaTextPrintChar c attr).accesses := by
  obtain ⟨notTab, notReturn, notLine, notBack⟩ := ordinary
  apply mem_newLine
  unfold VgaText.printSwitch
  rw [if_neg notTab, if_neg notReturn, if_neg notLine, if_neg notBack]
  exact mem_putCell.1

/-- In the last cell of the screen every character but a carriage return reads a colour. -/
theorem readColor_printChar (notReturn : c ≠ 13) (column : vga.xpos = 79) (row : vga.ypos = 24) :
    .readColor attr ∈ (vga.vgaTextPrintChar c attr).accesses := by
  have scrolls : ∀ next : VgaText, next.ypos = 24 → (COLS ≤ next.xpos ∨ c = 10) →
      .readColor attr ∈ (next.newLine c attr).accesses := by
    intro next line more
    unfold VgaText.newLine
    rw [if_pos more]
    dsimp only
    rw [line, if_neg (by decide)]
    exact readColor_mem_scroll
  unfold VgaText.vgaTextPrintChar
  show _ ∈ ((vga.printSwitch c attr).newLine c attr).accesses
  unfold VgaText.printSwitch
  by_cases tab : c = 9
  · rw [if_pos tab, column]
    refine scrolls _ row (.inl ?_)
    show COLS ≤ int32 ((Int.tdiv 79 8 + 1) * 8)
    decide
  rw [if_neg tab, if_neg notReturn]
  by_cases newline : c = 10
  · rw [if_pos newline]
    exact scrolls _ row (.inr newline)
  rw [if_neg newline]
  by_cases backspace : c = 8
  · rw [if_pos backspace, column, if_pos (by decide)]
    exact mem_newLine mem_putCell.2
  · rw [if_neg backspace]
    exact mem_newLine mem_putCell.2

theorem printChar_return : vga.vgaTextPrintChar 13 attr = vga.vgaTextGotoxy 0 vga.ypos := by
  have column : ¬ (COLS ≤ 0 ∨ (13 : Int) = 10) := by decide
  unfold VgaText.vgaTextPrintChar VgaText.printSwitch
  rw [if_neg (by decide), if_pos rfl]
  unfold VgaText.newLine
  rw [if_neg column]
  rfl

/-- The condition asks for no more than it must: every other call, with a position that does
not overflow, leads out of the screen or of the array in some run. -/
theorem meets_of_inside
    (small : -1048576 ≤ call.data.1 ∧ call.data.1 ≤ 1048576 ∧
      -1048576 ≤ call.data.2 ∧ call.data.2 ≤ 1048576)
    (inside : ∀ before after, (vga.vgaTextInit.sendAll (before ++ call :: after)).AllInside) :
    call.Meets := by
  obtain ⟨⟨x, y⟩, flags⟩ := call
  dsimp only at small
  constructor
  · rintro rfl
    apply Decidable.or_iff_not_imp_left.mpr
    intro notReturn
    have reads := inside [⟨(79, 24), GOTOXY⟩] []
    exact reads _ (readColor_printChar notReturn rfl rfl)
  · rintro rfl
    have here : (VgaAccess.wrote (int32 ((x + y * COLS) * 2))).Inside :=
      inside [] [⟨(65, 0), PRINTCHAR⟩] _ (wrote_printChar (by decide))
    have start : (VgaAccess.wrote (int32 ((0 + y * COLS) * 2))).Inside := by
      have returned := inside [] [⟨(13, 0), PRINTCHAR⟩, ⟨(65, 0), PRINTCHAR⟩]
      have moved : (vga.vgaTextInit.vgaTextGotoxy x y).vgaTextPrintChar 13 0 =
          (vga.vgaTextInit.vgaTextGotoxy x y).vgaTextGotoxy 0 y := printChar_return
      have printed := returned (.wrote
        ((vga.vgaTextInit.vgaTextGotoxy x y).vgaTextPrintChar 13 0).place)
        (wrote_printChar (by decide))
      rw [moved] at printed
      exact printed
    unfold COLS at here start ⊢
    rw [int32_eq (by omega) (by omega)] at here start
    obtain ⟨low, high⟩ := here
    obtain ⟨first, last⟩ := start
    unfold ROWS
    dsimp only
    omega

end VgaText

end Screen

/-- The console stays on its screen: every byte that is written lies in the text buffer,
and every entry of `color` that is read is one of the array. -/
theorem vga_stays_on_screen (vga : VgaText) (fresh : vga.accesses = []) (calls : List VgaCall)
    (meets : ∀ call ∈ calls, call.Meets) :
    ∀ access ∈ (vga.vgaTextInit.sendAll calls).accesses, access.Inside :=
  ((VgaText.Stays.vgaTextInit fresh).sendAll meets).inside

/-- A console with an empty record. -/
def sampleVga : VgaText where
  xpos := 0
  ypos := 0
  color attr := if attr = 0 then 7 else if attr = 1 then 4 else 2
  video _ := 0
  cursor := 0
  accesses := []

/-- A program prints in the last cell. -/
theorem vga_stays_on_screen_last : sampleVga.accesses = [] ∧
    ∀ access ∈ (sampleVga.vgaTextInit.sendAll
      [⟨(79, 24), GOTOXY⟩, ⟨(65, 2), PRINTCHAR⟩, ⟨(10, 0), PRINTCHAR⟩]).accesses, access.Inside :=
  ⟨rfl, vga_stays_on_screen sampleVga rfl _ (by decide)⟩

/-- A program puts the cursor on line 1000 and prints there. -/
theorem vga_leaves_screen :
    ¬ ∀ (vga : VgaText) (calls : List VgaCall), vga.accesses = [] →
      ∀ access ∈ (vga.vgaTextInit.sendAll calls).accesses, access.Inside := by
  intro stays
  have inside := stays sampleVga [⟨(0, 1000), GOTOXY⟩, ⟨(65, 0), PRINTCHAR⟩] rfl _
    (VgaText.wrote_printChar (by decide))
  revert inside
  decide

end Oseer
