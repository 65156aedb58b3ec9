import Mathlib.Data.BitVec
import Mathlib.Logic.Function.Basic

/-!
# Interrupt controller chips

Two chips with eight lines each, where the second one is connected to a line of the first.  A chip
is programmed with a row of words; after that it delivers a line that is not masked, unless one of
the same or of a higher priority is in service.
-/

namespace InterruptChip

/-- The words of an initialization that follow the first one. -/
inductive Word
  | vector
  | cascade
  | mode
deriving DecidableEq

structure Chip where
  expected : List Word
  offset : BitVec 8
  mask : BitVec 8
  inService : BitVec 8
deriving DecidableEq

namespace Chip

/-- A word on the command port: an initialization begins, or the interrupt of the highest priority
that is in service ends. -/
def command (value : BitVec 8) (chip : Chip) : Chip :=
  if value &&& 0x10 ≠ 0 then
    { chip with
      expected := .vector :: (if value &&& 2 = 0 then [.cascade] else []) ++
        if value &&& 1 = 0 then [] else [.mode]
      mask := 0
      inService := 0 }
  else if value &&& 0xf8 = 0x20 then
    { chip with inService := chip.inService &&& (chip.inService - 1) }
  else chip

/-- A word on the data port. -/
def data (value : BitVec 8) (chip : Chip) : Chip :=
  match chip.expected with
  | .vector :: rest => { chip with expected := rest, offset := value &&& 0xf8 }
  | _ :: rest => { chip with expected := rest }
  | [] => { chip with mask := value }

/-- The chip is ready, the line is not masked, and nothing that comes before is in service. -/
structure Open (chip : Chip) (line : Fin 8) : Prop where
  ready : chip.expected = []
  unmasked : chip.mask.getLsbD line = false
  first : ∀ other : Fin 8, other ≤ line → chip.inService.getLsbD other = false

def accept (line : Fin 8) (chip : Chip) : Chip :=
  { chip with inService := chip.inService ||| (1 : BitVec 8) <<< line.val }

end Chip

/-- The chip at the processor, and the one behind it. -/
structure Pair where
  master : Chip
  slave : Chip

/-- The line of the first chip at which the second one is. -/
def cascadeLine : Fin 8 := 2

/-- A line is delivered as this vector. -/
inductive Delivers : Pair → BitVec 8 → Pair → Prop
  | master {pair : Pair} (line : Fin 8) (direct : line ≠ cascadeLine)
      (isOpen : pair.master.Open line) :
      Delivers pair (pair.master.offset + BitVec.ofNat 8 line)
        { pair with master := pair.master.accept line }
  | slave {pair : Pair} (line : Fin 8) (through : pair.master.Open cascadeLine)
      (isOpen : pair.slave.Open line) :
      Delivers pair (pair.slave.offset + BitVec.ofNat 8 line)
        ⟨pair.master.accept cascadeLine, pair.slave.accept line⟩

/-- Both chips are programmed, and nothing is in service. -/
structure Pair.Idle (offset offset' : BitVec 8) (pair : Pair) : Prop where
  master : pair.master.expected = [] ∧ pair.master.offset = offset ∧ pair.master.inService = 0
  slave : pair.slave.expected = [] ∧ pair.slave.offset = offset' ∧ pair.slave.inService = 0

variable {chip : Chip} {pair pair' : Pair} {line : Fin 8} {value : BitVec 8}

theorem data_ready (ready : chip.expected = []) :
    chip.data value = { chip with mask := value } := by
  unfold Chip.data
  rw [ready]

/-- The end of the only interrupt in service. -/
theorem accept_ends (idle : chip.inService = 0) : (chip.accept line).command 0x20 = chip := by
  have ends : ∀ line : Fin 8, (0 ||| (1 : BitVec 8) <<< line.val) &&&
      ((0 ||| (1 : BitVec 8) <<< line.val) - 1) = 0 := by
    decide
  unfold Chip.command Chip.accept
  rw [if_neg (by decide), if_pos (by decide)]
  dsimp only
  rw [idle, ends, ← idle]

/-- The end of an interrupt that is not there changes nothing. -/
theorem idle_ends (idle : chip.inService = 0) : chip.command 0x20 = chip := by
  unfold Chip.command
  rw [if_neg (by decide), if_pos (by decide), idle]
  have none : (0 : BitVec 8) &&& (0 - 1) = 0 := by decide
  rw [none, ← idle]

end InterruptChip
