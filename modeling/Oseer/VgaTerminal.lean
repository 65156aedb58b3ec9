import Mathlib.Data.List.Induction
import Oseer.Library.Terminal
import Oseer.VgaText

/-!
# The console as a terminal

What the console shows is compared with a terminal of 80 columns and 25 lines.
Printing agrees with it.  `vga_text_clear` clears `ROWS` lines, which is one
line less than printing reaches, so that it agrees only when the bottom line is
blank before.
-/

namespace Oseer

/-- A cell of the screen: a character and its colour. -/
abbrev VgaCell : Type := BitVec 8 × BitVec 8

/-- The screen that a user of the console is promised. -/
abbrev Screen : Type := Terminal 80 25 VgaCell

/-- The three fonts. -/
inductive Font
  | normal
  | kernel
  | program
  deriving DecidableEq, Repr

/-- The index of a font in `color`. -/
def Font.attr : Font → Int
  | .normal => 0
  | .kernel => 1
  | .program => 2

/-- The colour of a font. -/
def Font.colour : Font → BitVec 8
  | .normal => 7
  | .kernel => 4
  | .program => 2

/-- What is asked of a terminal. -/
inductive ConsoleOp
  | print (c : Int) (font : Font)
  | clear
  deriving DecidableEq, Repr

namespace ConsoleOp

/-- The call of `vga_text_send` that asks for it. -/
def call : ConsoleOp → VgaCall
  | .print c font => ⟨(c, font.attr), PRINTCHAR⟩
  | .clear => ⟨(0, 0), CLEAR⟩

end ConsoleOp

namespace Screen

/-- A character is printed. -/
def print (c : Int) (font : Font) (screen : Screen) : Screen :=
  let blank : VgaCell := (32, font.colour)
  if c = 9 then screen.tab 8 blank
  else if c = 13 then screen.carriageReturn
  else if c = 10 then screen.newLine blank
  else if c = 8 then screen.backspace blank
  else screen.put (BitVec.ofInt 8 c, font.colour) blank

/-- One operation of the terminal. -/
def step : ConsoleOp → Screen → Screen
  | .print c font, screen => screen.print c font
  | .clear, _ => Terminal.clear (0, 0)

/-- A sequence of operations. -/
def run (ops : List ConsoleOp) (screen : Screen) : Screen :=
  ops.foldl (fun screen op => step op screen) screen

end Screen

namespace VgaText

/-- The cell of the video memory. -/
def cell (row column : Int) (vga : VgaText) : VgaCell :=
  (vga.video ((row * COLS + column) * 2), vga.video ((row * COLS + column) * 2 + 1))

/-- The console shows the screen. -/
structure Shows (vga : VgaText) (screen : Screen) : Prop where
  column : vga.xpos = screen.column.val
  row : vga.ypos = screen.row.val
  cells : ∀ row column, vga.cell row.val column.val = screen.cells row column

/-- The table of colours is as it was loaded. -/
def Loaded (vga : VgaText) : Prop :=
  vga.color 0 = 7 ∧ vga.color 1 = 4 ∧ vga.color 2 = 2

/-- The bottom line, which `vga_text_clear` leaves out, is blank. -/
def BottomBlank (vga : VgaText) : Prop :=
  ∀ column : Fin 80, vga.cell ROWS column.val = (0, 0)

section Memory

variable {vga : VgaText} {place dest src s i : Int} {n : Nat} {c : BitVec 32} {attr : Int}

/-- A copy that goes up from higher addresses is right although the blocks overlap. -/
theorem copyUp_video (less : dest < src) :
    (vga.copyUp n dest src).video place =
      if dest ≤ place ∧ place < dest + n then vga.video (place + (src - dest))
      else vga.video place := by
  induction n generalizing vga dest src with
  | zero =>
      unfold copyUp
      rw [if_neg (by omega)]
  | succ n ih =>
      unfold copyUp
      rw [ih (by omega), show src + 1 - (dest + 1) = src - dest by omega]
      unfold store
      dsimp only
      by_cases first : place = dest
      · rw [if_neg (by omega), if_pos first, if_pos (by omega), first,
          show dest + (src - dest) = src by omega]
      · by_cases later : dest ≤ place ∧ place < dest + (n + 1 : Nat)
        · rw [if_pos (by omega), if_neg (by omega), if_pos later]
        · rw [if_neg (by omega), if_neg first, if_neg later]

theorem memsetw_video :
    (vga.memsetw c n s).video place =
      if s ≤ place ∧ place < s + 2 * n then
        if (place - s) % 2 = 0 then c.setWidth 8 else (c >>> 8).setWidth 8
      else vga.video place := by
  induction n generalizing vga s with
  | zero =>
      unfold memsetw
      rw [if_neg (by omega)]
  | succ n ih =>
      unfold memsetw
      rw [ih]
      unfold store
      dsimp only
      by_cases first : place = s
      · rw [if_neg (by omega), if_neg (by omega), if_pos first, if_pos (by omega),
          if_pos (by omega)]
      by_cases second : place = s + 1
      · rw [if_neg (by omega), if_pos second, if_pos (by omega), if_neg (by omega)]
      rw [if_neg second, if_neg first]
      by_cases later : s ≤ place ∧ place < s + 2 * (n + 1 : Nat)
      · rw [if_pos (by omega), if_pos later, show (place - (s + 2)) % 2 = (place - s) % 2 by omega]
      · rw [if_neg (by omega), if_neg later]

theorem clearLoop_video :
    (vga.clearLoop n i).video place =
      if i ≤ place ∧ place < i + n then 0 else vga.video place := by
  induction n generalizing vga i with
  | zero =>
      unfold clearLoop
      rw [if_neg (by omega)]
  | succ n ih =>
      unfold clearLoop
      rw [ih]
      unfold store
      dsimp only
      by_cases first : place = i
      · rw [if_neg (by omega), if_pos first, if_pos (by omega)]
      by_cases later : i ≤ place ∧ place < i + (n + 1 : Nat)
      · rw [if_pos (by omega), if_pos later]
      · rw [if_neg (by omega), if_neg first, if_neg later]

theorem blank_low : (32 ||| c <<< 8).setWidth 8 = (32 : BitVec 8) := by
  ext i inside
  simp

theorem blank_high : ((32 ||| c <<< 8) >>> 8).setWidth 8 = c.setWidth 8 := by
  have space : ∀ i < 8, (32#32).getLsbD (8 + i) = false := by decide
  ext i inside
  simp [space i inside]
  omega

theorem scroll_video (low : 0 ≤ place) (high : place < 80 * 25 * 2) :
    (vga.scroll attr).video place =
      if place < 3840 then vga.video (place + 160)
      else if place % 2 = 0 then 32 else (vga.color attr).setWidth 8 := by
  unfold scroll
  rw [memmove_up (by decide), memsetw_video, blank_low, blank_high]
  unfold readColor
  dsimp only
  rw [copyUp_video (by decide)]
  by_cases above : place < 3840
  · rw [if_pos above, if_neg (by omega), if_pos (by omega), show (80 * 2 - 0 : Int) = 160 by decide]
  · rw [if_neg above, if_pos (by omega), show (place - 80 * 2 * 24) % 2 = place % 2 by omega]

end Memory

section Cells

variable {vga : VgaText} {row column : Int} {attr : Int}

theorem scroll_cell (top : 0 ≤ row) (bottom : row ≤ ROWS) (left : 0 ≤ column) (right : column < COLS) :
    (vga.scroll attr).cell row column =
      if row < ROWS then vga.cell (row + 1) column else (32, (vga.color attr).setWidth 8) := by
  unfold ROWS at bottom
  unfold COLS at right
  unfold cell COLS ROWS
  rw [scroll_video (by omega) (by omega), scroll_video (by omega) (by omega)]
  by_cases above : row < 24
  · rw [if_pos above, if_pos (by omega), if_pos (by omega),
      show (row * 80 + column) * 2 + 160 = ((row + 1) * 80 + column) * 2 by omega,
      show (row * 80 + column) * 2 + 1 + 160 = ((row + 1) * 80 + column) * 2 + 1 by omega]
  · rw [if_neg above, if_neg (by omega), if_pos (by omega), if_neg (by omega), if_neg (by omega)]

/-- The cells of the screen after a character has been stored. -/
theorem putCell_cell {c : Int} (screen : vga.OnScreen) (left : 0 ≤ vga.xpos) (right : vga.xpos < COLS)
    (column0 : 0 ≤ column) (columnLt : column < COLS) :
    (vga.putCell c attr).cell row column =
      if row = vga.ypos ∧ column = vga.xpos then (BitVec.ofInt 8 c, (vga.color attr).setWidth 8)
      else vga.cell row column := by
  have placed := screen.place_eq
  obtain ⟨-, low, high⟩ := screen
  unfold COLS at right columnLt placed low high
  unfold putCell
  rw [int32_eq (by omega) (by omega)]
  unfold cell store readColor COLS
  dsimp only
  by_cases here : row = vga.ypos ∧ column = vga.xpos
  · rw [if_pos here, if_neg (by omega), if_pos (by omega), if_pos (by omega)]
  · rw [if_neg here, if_neg (by omega), if_neg (by omega), if_neg (by omega), if_neg (by omega)]

theorem vgaTextClear_cell (top : 0 ≤ row) (left : 0 ≤ column) (right : column < COLS) :
    vga.vgaTextClear.cell row column = if row < ROWS then (0, 0) else vga.cell row column := by
  have size : (((COLS * ROWS * 2).toNat : Nat) : Int) = 3840 := by decide
  unfold COLS at right
  unfold vgaTextClear vgaTextGotoxy cell
  dsimp only
  rw [clearLoop_video, clearLoop_video, size]
  unfold COLS ROWS
  by_cases above : row < 24
  · rw [if_pos above, if_pos (by omega), if_pos (by omega)]
  · rw [if_neg above, if_neg (by omega), if_neg (by omega)]

end Cells

section Printing

variable {vga : VgaText} {screen : Screen} {font : Font} {c attr : Int}

theorem Loaded.colour (loaded : vga.Loaded) : (vga.color font.attr).setWidth 8 = font.colour := by
  obtain ⟨normal, kernel, program⟩ := loaded
  cases font
  · exact congrArg _ normal
  · exact congrArg _ kernel
  · exact congrArg _ program

theorem Shows.bounds (shows : vga.Shows screen) :
    (0 ≤ vga.xpos ∧ vga.xpos < 80) ∧ 0 ≤ vga.ypos ∧ vga.ypos < 25 := by
  have column := screen.column.isLt
  have row := screen.row.isLt
  rw [shows.column, shows.row]
  omega

theorem Shows.settle (shows : vga.Shows screen) :
    (vga.vgaTextGotoxy vga.xpos vga.ypos).Shows screen :=
  ⟨shows.column, shows.row, shows.cells⟩

/-- The start of the next line. -/
theorem Shows.nextLine (row : vga.ypos = screen.row.val)
    (cells : ∀ row column, vga.cell row.val column.val = screen.cells row column)
    (colour : (vga.color attr).setWidth 8 = font.colour) :
    Shows (if vga.ypos < ROWS then { vga with xpos := 0, ypos := vga.ypos + 1 }
      else VgaText.scroll attr { vga with xpos := 0 }) (screen.newLine (32, font.colour)) := by
  have inside := screen.row.isLt
  unfold Terminal.newLine
  by_cases above : screen.row.val + 1 < 25
  · rw [dif_pos above, if_pos (by unfold ROWS; omega)]
    refine ⟨rfl, ?_, cells⟩
    dsimp only
    rw [row]
    rfl
  · rw [dif_neg above, if_neg (by unfold ROWS; omega)]
    obtain ⟨sameX, sameY, -⟩ := scroll_frame { vga with xpos := 0 } attr
    refine ⟨sameX, sameY.trans row, ?_⟩
    intro line column
    have lineLt := line.isLt
    have columnLt := column.isLt
    rw [scroll_cell (by omega) (by unfold ROWS; omega) (by omega) (by unfold COLS; omega)]
    dsimp only
    by_cases upper : line.val + 1 < 25
    · rw [dif_pos upper, if_pos (by unfold ROWS; omega), ← cells]
      rfl
    · rw [dif_neg upper, if_neg (by unfold ROWS; omega), colour]

theorem Shows.newLine (shows : vga.Shows screen)
    (colour : (vga.color attr).setWidth 8 = font.colour) {x : Int} {column : Nat}
    (moved : x = column) (ordinary : c ≠ 10) :
    (VgaText.newLine c attr { vga with xpos := x }).Shows
      (screen.moveTo column (32, font.colour)) := by
  unfold VgaText.newLine Terminal.moveTo
  dsimp only
  by_cases inside : column < 80
  · rw [dif_pos inside, if_neg (by unfold COLS; omega)]
    exact ⟨moved, shows.row, shows.cells⟩
  · rw [dif_neg inside, if_pos (.inl (by unfold COLS; omega))]
    exact Shows.nextLine shows.row shows.cells colour

/-- The stores of a character. -/
theorem Shows.putCell (shows : vga.Shows screen)
    (colour : (vga.color attr).setWidth 8 = font.colour) (c : Int) :
    (vga.putCell c attr).Shows (screen.write (BitVec.ofInt 8 c, font.colour)) := by
  obtain ⟨⟨left, right⟩, top, bottom⟩ := shows.bounds
  have onScreen : vga.OnScreen := by
    constructor
    · unfold ROWS
      omega
    · unfold COLS
      omega
    · unfold COLS
      omega
  refine ⟨shows.column, shows.row, ?_⟩
  intro row column
  rw [putCell_cell onScreen left right (by omega) (by unfold COLS; omega), shows.column, shows.row,
    colour, shows.cells]
  unfold Terminal.write
  dsimp only
  by_cases here : row = screen.row ∧ column = screen.column
  · rw [if_pos here, if_pos (by rw [here.1, here.2]; exact ⟨rfl, rfl⟩)]
  · rw [if_neg here, if_neg]
    rintro ⟨sameRow, sameColumn⟩
    exact here ⟨Fin.ext (by omega), Fin.ext (by omega)⟩

/-- Printing agrees with the terminal. -/
theorem Shows.print (shows : vga.Shows screen) (loaded : vga.Loaded) (c : Int) :
    (vga.vgaTextPrintChar c font.attr).Shows (screen.print c font) := by
  have colour : (vga.color font.attr).setWidth 8 = font.colour := loaded.colour
  obtain ⟨⟨left, right⟩, top, bottom⟩ := shows.bounds
  apply Shows.settle
  unfold VgaText.printSwitch Screen.print
  dsimp only
  by_cases tab : c = 9
  · rw [if_pos tab, if_pos tab]
    have ahead : (vga.xpos.tdiv 8 + 1) * 8 = ((screen.column.val / 8 + 1) * 8 : Nat) := by
      rw [Int.tdiv_eq_ediv_of_nonneg left, shows.column]
      rfl
    apply shows.newLine colour
    · rw [int32_eq (by omega) (by omega)]
      exact ahead
    · omega
  rw [if_neg tab, if_neg tab]
  by_cases carriage : c = 13
  · rw [if_pos carriage, if_pos carriage]
    unfold VgaText.newLine
    rw [if_neg (by unfold COLS; dsimp only; omega)]
    exact ⟨rfl, shows.row, shows.cells⟩
  rw [if_neg carriage, if_neg carriage]
  by_cases newline : c = 10
  · rw [if_pos newline, if_pos newline]
    unfold VgaText.newLine
    rw [if_pos (.inr newline)]
    exact Shows.nextLine shows.row shows.cells colour
  rw [if_neg newline, if_neg newline]
  by_cases back : c = 8
  · rw [if_pos back, if_pos back]
    unfold Terminal.backspace
    by_cases start : 0 < screen.column.val
    · rw [if_pos (by rw [shows.column]; omega), if_pos start]
      have previous : Shows { vga with xpos := vga.xpos - 1 } { screen with
          column := ⟨screen.column - 1, Nat.lt_of_le_of_lt (Nat.sub_le ..) screen.column.isLt⟩ } := by
        refine ⟨?_, shows.row, shows.cells⟩
        dsimp only
        rw [shows.column]
        omega
      have put := previous.putCell colour 32
      have column : ¬ (COLS ≤ (VgaText.putCell 32 font.attr { vga with xpos := vga.xpos - 1 }).xpos ∨
          c = 10) := by
        rintro (wide | isNewline)
        · have := put.bounds
          unfold COLS at wide
          omega
        · exact newline isNewline
      unfold VgaText.newLine
      rw [if_neg column]
      exact put
    · rw [if_neg (by rw [shows.column]; omega), if_neg start]
      unfold VgaText.newLine
      rw [if_neg (by unfold COLS; omega)]
      exact shows
  rw [if_neg back, if_neg back]
  unfold Terminal.put
  have put := shows.putCell colour c
  apply put.newLine colour
  · have same : (vga.putCell c font.attr).xpos = vga.xpos := rfl
    rw [same, int32_eq (by omega) (by omega), shows.column]
    rfl
  · exact newline

end Printing

section Runs

variable {vga : VgaText} {screen : Screen} {op : ConsoleOp} {ops before : List ConsoleOp}

/-- `vga_text_clear` agrees with the terminal exactly when the line that it leaves out is blank. -/
theorem vgaTextClear_shows_iff :
    vga.vgaTextClear.Shows (Terminal.clear (0, 0)) ↔ vga.BottomBlank := by
  constructor
  · intro shows column
    have columnLt := column.isLt
    have cleared := shows.cells 24 column
    rw [vgaTextClear_cell (by omega) (by omega) (by unfold COLS; omega), if_neg (by decide)] at cleared
    exact cleared
  · intro blank
    refine ⟨rfl, rfl, ?_⟩
    intro row column
    have rowLt := row.isLt
    have columnLt := column.isLt
    rw [vgaTextClear_cell (by omega) (by omega) (by unfold COLS; omega)]
    split
    · rfl
    · have last : (row.val : Int) = ROWS := by
        unfold ROWS at *
        omega
      rw [last]
      exact blank column

theorem clearLoop_color (n : Nat) (i : Int) : (vga.clearLoop n i).color = vga.color := by
  induction n generalizing vga i with
  | zero => rfl
  | succ n ih => exact ih ..

theorem vgaTextClear_color : vga.vgaTextClear.color = vga.color := by
  unfold vgaTextClear
  apply clearLoop_color

theorem printChar_color (c attr : Int) : (vga.vgaTextPrintChar c attr).color = vga.color := by
  have switched : (vga.printSwitch c attr).color = vga.color := by
    unfold printSwitch
    repeat' split
    all_goals rfl
  rw [← switched]
  show ((vga.printSwitch c attr).newLine c attr).color = _
  unfold newLine
  dsimp only
  split
  · split
    · rfl
    · exact (scroll_frame ..).2.2
  · rfl

theorem send_print (c : Int) (font : Font) :
    (vga.vgaTextSend (ConsoleOp.print c font).call.data (ConsoleOp.print c font).call.flags).2 =
      vga.vgaTextPrintChar c font.attr := by
  unfold vgaTextSend ConsoleOp.call
  rw [if_pos rfl]

theorem send_clear :
    (vga.vgaTextSend ConsoleOp.clear.call.data ConsoleOp.clear.call.flags).2 =
      vga.vgaTextClear := by
  unfold vgaTextSend ConsoleOp.call
  rw [if_neg (by decide), if_pos rfl]

theorem Loaded.send (loaded : vga.Loaded) (op : ConsoleOp) :
    (vga.vgaTextSend op.call.data op.call.flags).2.Loaded := by
  have same : (vga.vgaTextSend op.call.data op.call.flags).2.color = vga.color := by
    cases op with
    | print c font => rw [send_print, printChar_color]
    | clear => rw [send_clear, vgaTextClear_color]
  unfold Loaded
  rw [same]
  exact loaded

theorem sendAll_append (calls rest : List VgaCall) :
    vga.sendAll (calls ++ rest) = (vga.sendAll calls).sendAll rest := by
  induction calls generalizing vga with
  | nil => rfl
  | cons call calls ih =>
      rw [List.cons_append]
      exact ih

theorem sendAll_singleton (call : VgaCall) :
    vga.sendAll [call] = (vga.vgaTextSend call.data call.flags).2 := rfl

/-- The console after initialisation and a sequence of operations. -/
def afterOps (ops : List ConsoleOp) (vga : VgaText) : VgaText :=
  vga.vgaTextInit.sendAll (ops.map ConsoleOp.call)

theorem afterOps_concat :
    vga.afterOps (ops ++ [op]) =
      ((vga.afterOps ops).vgaTextSend op.call.data op.call.flags).2 := by
  unfold afterOps
  rw [List.map_append, sendAll_append, List.map_singleton, sendAll_singleton]

theorem Loaded.afterOps (loaded : vga.Loaded) : (vga.afterOps ops).Loaded := by
  induction ops using List.reverseRecOn with
  | nil =>
      show vga.vgaTextInit.Loaded
      unfold Loaded vgaTextInit
      rw [vgaTextClear_color]
      exact loaded
  | append_singleton ops op ih =>
      rw [afterOps_concat]
      exact ih.send op

end Runs

end VgaText

/-- The terminal of 80 columns and 25 lines after a sequence of operations. -/
def Screen.afterOps (ops : List ConsoleOp) : Screen :=
  Screen.run ops (Terminal.clear (0, 0))

/-- What the console shows after every operation of a sequence is what the terminal shows
exactly when the bottom line is blank at initialisation and at every `CLEAR`. -/
theorem vga_refines_terminal (vga : VgaText) (loaded : vga.Loaded) (ops : List ConsoleOp) :
    (∀ before, before <+: ops → (vga.afterOps before).Shows (Screen.afterOps before)) ↔
      vga.BottomBlank ∧
        ∀ before, before ++ [.clear] <+: ops → (vga.afterOps before).BottomBlank := by
  have sameBottom : VgaText.BottomBlank { vga with xpos := 0, ypos := 0 } ↔ vga.BottomBlank := Iff.rfl
  have start : (vga.afterOps []).Shows (Screen.afterOps []) ↔ vga.BottomBlank :=
    VgaText.vgaTextClear_shows_iff.trans sameBottom
  have clears : ∀ before, (vga.afterOps (before ++ [.clear])).Shows
      (Screen.afterOps (before ++ [.clear])) ↔ (vga.afterOps before).BottomBlank := by
    intro before
    rw [VgaText.afterOps_concat, VgaText.send_clear, Screen.afterOps, Screen.run, List.foldl_append]
    exact VgaText.vgaTextClear_shows_iff
  constructor
  · intro shows
    exact ⟨start.mp (shows [] List.nil_prefix), fun before isPrefix =>
      (clears before).mp (shows _ isPrefix)⟩
  · rintro ⟨blank, cleared⟩ before
    induction before using List.reverseRecOn with
    | nil => exact fun _ => start.mpr blank
    | append_singleton before op ih =>
        intro isPrefix
        cases op with
        | clear => exact (clears before).mpr (cleared before isPrefix)
        | print c font =>
            have shows := ih ((List.prefix_append before _).trans isPrefix)
            rw [VgaText.afterOps_concat, VgaText.send_print, Screen.afterOps, Screen.run,
              List.foldl_append]
            exact shows.print loaded.afterOps c

/-- A program prints in the last line of an empty screen and leaves it. -/
theorem vga_refines_terminal_newline :
    (∀ before, before <+: [ConsoleOp.print 65 .normal, .print 10 .program] →
      (sampleVga.afterOps before).Shows (Screen.afterOps before)) ↔
      sampleVga.BottomBlank ∧ ∀ before,
        before ++ [.clear] <+: [ConsoleOp.print 65 .normal, .print 10 .program] →
          (sampleVga.afterOps before).BottomBlank :=
  vga_refines_terminal sampleVga ⟨rfl, rfl, rfl⟩ [.print 65 .normal, .print 10 .program]

/-- A program goes to the bottom line, prints there and clears the screen. -/
theorem vga_clear_leaves_bottom :
    ¬ ∀ (vga : VgaText) (ops : List ConsoleOp), vga.Loaded →
      (vga.afterOps ops).Shows (Screen.afterOps ops) := by
  intro shows
  let before := List.replicate 24 (ConsoleOp.print 10 .normal) ++ [.print 65 .normal]
  have printed := (shows sampleVga before ⟨rfl, rfl, rfl⟩).cells 24 0
  have cleared := shows sampleVga (before ++ [.clear]) ⟨rfl, rfl, rfl⟩
  rw [VgaText.afterOps_concat, VgaText.send_clear, Screen.afterOps, Screen.run,
    List.foldl_append] at cleared
  have blank := VgaText.vgaTextClear_shows_iff.mp cleared 0
  have letter : (Screen.afterOps before).cells 24 0 = (65, 7) := by decide +kernel
  have same : ((0, 0) : VgaCell) = (65, 7) := blank.symm.trans (printed.trans letter)
  revert same
  decide

end Oseer
