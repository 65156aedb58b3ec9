import Oseer.Library.InterruptChip

/-!
# The interrupt controller

The two chips that `arch/i386/arch/devices/i8259.c` programs.
-/

namespace Oseer

open InterruptChip

def PIC1_CMD : Nat := 0x20
def PIC2_CMD : Nat := 0xa0
def PIC1_DATA : Nat := 0x21
def PIC2_DATA : Nat := 0xa1
def PIC_EOI : BitVec 32 := 0x20

def IRQ_OFFSET : BitVec 32 := 0x20
/-- The line of the second chip. -/
def IRQ_SLAVE_PIC : BitVec 32 := 0x22
def HW_INTERRUPTS : BitVec 32 := 0x30

/-- `outb` to the ports of the chips; one byte of the value is written. -/
def outb (port : Nat) (value : BitVec 32) (pics : Pair) : Pair :=
  if port = PIC1_CMD then { pics with master := pics.master.command (value.setWidth 8) }
  else if port = PIC2_CMD then { pics with slave := pics.slave.command (value.setWidth 8) }
  else if port = PIC1_DATA then { pics with master := pics.master.data (value.setWidth 8) }
  else if port = PIC2_DATA then { pics with slave := pics.slave.data (value.setWidth 8) }
  else pics

/-- `inb` from the data ports, which gives the mask. -/
def inb (port : Nat) (pics : Pair) : BitVec 32 :=
  if port = PIC1_DATA then pics.master.mask.setWidth 32
  else if port = PIC2_DATA then pics.slave.mask.setWidth 32
  else 0

/-- `i8259_init`. -/
def i8259Init (pics : Pair) : Pair :=
  let pics := outb PIC2_CMD 0x11 (outb PIC1_CMD 0x11 pics)
  let pics := outb PIC2_DATA ((IRQ_OFFSET + 8) &&& 0xf8) (outb PIC1_DATA (IRQ_OFFSET &&& 0xf8) pics)
  let pics := outb PIC2_DATA 0x2 (outb PIC1_DATA 0x4 pics)
  let pics := outb PIC2_DATA 0x1 (outb PIC1_DATA 0x1 pics)
  outb PIC2_DATA 0xff (outb PIC1_DATA 0xfb pics)

/-- The mask of the line's chip is read and written, changed for the line. -/
def i8259Update (change : BitVec 32 → BitVec 32 → BitVec 32) (irq : BitVec 32) (pics : Pair) : Pair :=
  let irq := irq - IRQ_OFFSET
  if irq < 8 then outb PIC1_DATA (change (inb PIC1_DATA pics) irq) pics
  else outb PIC2_DATA (change (inb PIC2_DATA pics) (irq - 8)) pics

/-- `i8259_irq_enable`. -/
def i8259IrqEnable : BitVec 32 → Pair → Pair :=
  i8259Update fun mask irq => mask &&& ~~~((1 : BitVec 32) <<< irq)

/-- `i8259_irq_disable`. -/
def i8259IrqDisable : BitVec 32 → Pair → Pair :=
  i8259Update fun mask irq => mask ||| ((1 : BitVec 32) <<< irq)

/-- `i8259_at_exit`. -/
def i8259AtExit (irq : BitVec 32) (pics : Pair) : Pair :=
  if IRQ_OFFSET ≤ irq ∧ irq < HW_INTERRUPTS then
    let pics := outb PIC1_CMD PIC_EOI pics
    if IRQ_OFFSET + 8 ≤ irq then outb PIC2_CMD PIC_EOI pics else pics
  else pics

section Lines

variable {pics pics' : Pair} {irq other : Fin 16}

/-- The number of the interrupt of a line. -/
def lineIrq (irq : Fin 16) : BitVec 32 := IRQ_OFFSET + BitVec.ofNat 32 irq

/-- The line is masked on its chip. -/
def Masked (pics : Pair) (irq : Fin 16) : Bool :=
  if irq.val < 8 then pics.master.mask.getLsbD irq else pics.slave.mask.getLsbD (irq - 8)

/-- Both chips are programmed as `i8259_init` does it, and no interrupt is in service. -/
def Settled8259 (pics : Pair) : Prop := pics.Idle 0x20 0x28

theorem i8259Init_settled (pics : Pair) :
    Settled8259 (i8259Init pics) ∧
      ∀ irq, irq ≠ 2 → Masked (i8259Init pics) irq = true := by
  refine ⟨⟨⟨rfl, rfl, rfl⟩, ⟨rfl, rfl, rfl⟩⟩, ?_⟩
  have masks : (i8259Init pics).master.mask = 0xfb ∧ (i8259Init pics).slave.mask = 0xff := ⟨rfl, rfl⟩
  unfold Masked
  rw [masks.1, masks.2]
  decide

theorem lineIrq_sub (irq : Fin 16) : lineIrq irq - IRQ_OFFSET = BitVec.ofNat 32 irq := by
  unfold lineIrq
  rw [BitVec.add_comm, BitVec.add_sub_cancel]

theorem lineIrq_lt (irq : Fin 16) : BitVec.ofNat 32 irq < 8 ↔ irq.val < 8 := by
  revert irq
  decide

/-- One mask is written. -/
theorem settled_mask (settled : Settled8259 pics) (value : BitVec 32) (port : Nat)
    (isData : port = PIC1_DATA ∨ port = PIC2_DATA) : Settled8259 (outb port value pics) := by
  obtain ⟨⟨ready, offset, idle⟩, ⟨ready', offset', idle'⟩⟩ := settled
  rcases isData with rfl | rfl
  · refine ⟨?_, ready', offset', idle'⟩
    simp only [outb, PIC1_DATA, PIC1_CMD, PIC2_CMD, data_ready ready]
    exact ⟨ready, offset, idle⟩
  · refine ⟨⟨ready, offset, idle⟩, ?_⟩
    simp only [outb, PIC1_DATA, PIC2_DATA, PIC1_CMD, PIC2_CMD, data_ready ready']
    exact ⟨ready', offset', idle'⟩

theorem clear_bit (mask : BitVec 8) (line other : Fin 8) :
    ((mask.setWidth 32 &&& ~~~((1 : BitVec 32) <<< BitVec.ofNat 32 line)).setWidth 8).getLsbD other =
      (decide (other ≠ line) && mask.getLsbD other) := by
  have bits : ∀ line other : Fin 8,
      (~~~((1 : BitVec 32) <<< BitVec.ofNat 32 line)).getLsbD other = decide (other ≠ line) := by
    decide
  have low : other.val < 8 := other.isLt
  rw [BitVec.getLsbD_setWidth, BitVec.getLsbD_and, bits, BitVec.getLsbD_setWidth]
  simp [low, Nat.lt_trans low (by decide : 8 < 32), Bool.and_comm]

theorem set_bit (mask : BitVec 8) (line other : Fin 8) :
    ((mask.setWidth 32 ||| ((1 : BitVec 32) <<< BitVec.ofNat 32 line)).setWidth 8).getLsbD other =
      (decide (other = line) || mask.getLsbD other) := by
  have bits : ∀ line other : Fin 8,
      ((1 : BitVec 32) <<< BitVec.ofNat 32 line).getLsbD other = decide (other = line) := by
    decide
  have low : other.val < 8 := other.isLt
  rw [BitVec.getLsbD_setWidth, BitVec.getLsbD_or, bits, BitVec.getLsbD_setWidth]
  simp [low, Nat.lt_trans low (by decide : 8 < 32), Bool.or_comm]

/-- A line of one of the chips, and the number on that chip. -/
theorem line_cases (irq : Fin 16) :
    (∃ line : Fin 8, irq.val = line.val ∧ BitVec.ofNat 32 irq < 8 ∧
      BitVec.ofNat 32 irq = BitVec.ofNat 32 line) ∨
    ∃ line : Fin 8, irq.val = line.val + 8 ∧ ¬ BitVec.ofNat 32 irq < 8 ∧
      BitVec.ofNat 32 irq - 8 = BitVec.ofNat 32 line := by
  revert irq
  decide

theorem masked_first (settled : Settled8259 pics) (value : BitVec 32) (other : Fin 16) :
    Masked (outb PIC1_DATA value pics) other =
      if other.val < 8 then (value.setWidth 8).getLsbD other else Masked pics other := by
  have written : (outb PIC1_DATA value pics).master.mask = value.setWidth 8 := by
    simp only [outb, PIC1_DATA, PIC1_CMD, PIC2_CMD, data_ready settled.master.1]
    rfl
  unfold Masked
  rw [written]
  split
  · rfl
  · rfl

theorem masked_second (settled : Settled8259 pics) (value : BitVec 32) (other : Fin 16) :
    Masked (outb PIC2_DATA value pics) other =
      if other.val < 8 then Masked pics other else (value.setWidth 8).getLsbD (other - 8) := by
  have written : (outb PIC2_DATA value pics).slave.mask = value.setWidth 8 := by
    simp only [outb, PIC1_DATA, PIC2_DATA, PIC1_CMD, PIC2_CMD, data_ready settled.slave.1]
    rfl
  unfold Masked
  rw [written]
  split
  · rfl
  · rfl

/-- One line is changed, and the others are left. -/
theorem i8259Update_masked (settled : Settled8259 pics) {change : BitVec 32 → BitVec 32 → BitVec 32}
    (bit : Bool → Bool → Bool) (kept : ∀ masked, bit false masked = masked)
    (changes : ∀ (mask : BitVec 8) (line other : Fin 8),
      ((change (mask.setWidth 32) (BitVec.ofNat 32 line)).setWidth 8).getLsbD other =
        bit (decide (other = line)) (mask.getLsbD other)) (irq : Fin 16) :
    Settled8259 (i8259Update change (lineIrq irq) pics) ∧ ∀ other,
      Masked (i8259Update change (lineIrq irq) pics) other =
        bit (decide (other = irq)) (Masked pics other) := by
  unfold i8259Update
  rw [lineIrq_sub]
  rcases line_cases irq with ⟨line, same, isFirst, isLine⟩ | ⟨line, same, isSecond, isLine⟩
  · dsimp only
    rw [if_pos isFirst, isLine]
    refine ⟨settled_mask settled _ _ (.inl rfl), fun other => ?_⟩
    rw [masked_first settled]
    split
    · rename_i first
      have isBit := changes pics.master.mask line ⟨other, first⟩
      have isSame : decide ((⟨other, first⟩ : Fin 8) = line) = decide (other = irq) := by
        simp only [Fin.ext_iff, same]
      rw [isSame] at isBit
      have before : Masked pics other = pics.master.mask.getLsbD other := if_pos first
      rw [before]
      exact isBit
    · have different : decide (other = irq) = false := by
        rw [decide_eq_false_iff_not]
        rintro rfl
        have bound := line.isLt
        omega
      rw [different, kept]
  · dsimp only
    rw [if_neg isSecond, isLine]
    refine ⟨settled_mask settled _ _ (.inr rfl), fun other => ?_⟩
    rw [masked_second settled]
    split
    · have different : decide (other = irq) = false := by
        rw [decide_eq_false_iff_not]
        rintro rfl
        omega
      rw [different, kept]
    · rename_i second
      have bound := other.isLt
      have isBit := changes pics.slave.mask line ⟨other - 8, by omega⟩
      have isSame : decide ((⟨other - 8, by omega⟩ : Fin 8) = line) = decide (other = irq) := by
        simp only [Fin.ext_iff, same, decide_eq_decide]
        omega
      rw [isSame] at isBit
      have before : Masked pics other = pics.slave.mask.getLsbD (other - 8) := if_neg second
      rw [before]
      exact isBit

theorem i8259IrqEnable_masked (settled : Settled8259 pics) (irq : Fin 16) :
    Settled8259 (i8259IrqEnable (lineIrq irq) pics) ∧ ∀ other,
      Masked (i8259IrqEnable (lineIrq irq) pics) other =
        (!decide (other = irq) && Masked pics other) :=
  i8259Update_masked settled (fun same masked => !same && masked) (fun _ => rfl)
    (fun mask line other => by rw [clear_bit, decide_not]) irq

theorem i8259IrqDisable_masked (settled : Settled8259 pics) (irq : Fin 16) :
    Settled8259 (i8259IrqDisable (lineIrq irq) pics) ∧ ∀ other,
      Masked (i8259IrqDisable (lineIrq irq) pics) other =
        (decide (other = irq) || Masked pics other) :=
  i8259Update_masked settled (fun same masked => same || masked) (fun _ => rfl)
    (fun mask line other => by rw [set_bit]) irq

theorem atExit_first (line : Fin 8) :
    i8259AtExit (lineIrq (line.castLE (by decide))) pics =
      { pics with master := pics.master.command 0x20 } := by
  have isFirst : ∀ line : Fin 8, (IRQ_OFFSET ≤ lineIrq (line.castLE (by decide)) ∧
      lineIrq (line.castLE (by decide)) < HW_INTERRUPTS) ∧
      ¬ IRQ_OFFSET + 8 ≤ lineIrq (line.castLE (by decide)) := by
    decide
  unfold i8259AtExit
  rw [if_pos (isFirst line).1, if_neg (isFirst line).2]
  rfl

theorem atExit_second (line : Fin 8) :
    i8259AtExit (lineIrq (line.addNat 8)) pics =
      ⟨pics.master.command 0x20, pics.slave.command 0x20⟩ := by
  have isSecond : ∀ line : Fin 8, (IRQ_OFFSET ≤ lineIrq (line.addNat 8) ∧
      lineIrq (line.addNat 8) < HW_INTERRUPTS) ∧ IRQ_OFFSET + 8 ≤ lineIrq (line.addNat 8) := by
    decide
  unfold i8259AtExit
  rw [if_pos (isSecond line).1, if_pos (isSecond line).2]
  rfl

/-- What is delivered is the number of an unmasked line, and not of that of the second chip; the
controller is as before when the interrupt has ended. -/
theorem delivers_line {vector : BitVec 8} (settled : Settled8259 pics)
    (delivers : Delivers pics vector pics') : ∃ irq : Fin 16, irq ≠ 2 ∧
      vector.setWidth 32 = lineIrq irq ∧ Masked pics irq = false ∧
      i8259AtExit (lineIrq irq) pics' = pics := by
  obtain ⟨⟨ready, offset, idle⟩, ⟨ready', offset', idle'⟩⟩ := settled
  cases delivers with
  | master line direct isOpen =>
      have vectors : ∀ line : Fin 8, ((0x20 : BitVec 8) + BitVec.ofNat 8 line).setWidth 32 =
          lineIrq (line.castLE (by decide)) := by
        decide
      refine ⟨line.castLE (by decide), ?_, ?_, ?_, ?_⟩
      · have others : ∀ line : Fin 8, line ≠ cascadeLine →
            line.castLE (by decide : 8 ≤ 16) ≠ 2 := by
          decide
        exact others line direct
      · rw [offset]
        exact vectors line
      · have before : Masked pics (line.castLE (by decide)) = pics.master.mask.getLsbD line :=
          if_pos line.isLt
        rw [before]
        exact isOpen.unmasked
      · rw [atExit_first]
        dsimp only
        rw [accept_ends idle]
  | slave line through isOpen =>
      have vectors : ∀ line : Fin 8, ((0x28 : BitVec 8) + BitVec.ofNat 8 line).setWidth 32 =
          lineIrq (line.addNat 8) := by
        decide
      refine ⟨line.addNat 8, ?_, ?_, ?_, ?_⟩
      · have others : ∀ line : Fin 8, line.addNat 8 ≠ (2 : Fin 16) := by decide
        exact others line
      · rw [offset']
        exact vectors line
      · have before : Masked pics (line.addNat 8) = pics.slave.mask.getLsbD line := by
          unfold Masked
          have notFirst : ¬ (line.addNat 8).val < 8 := by simp
          rw [if_neg notFirst]
          simp
        rw [before]
        exact isOpen.unmasked
      · rw [atExit_second]
        dsimp only
        rw [accept_ends idle, accept_ends idle']

/-- A line that is not masked can be delivered, one of the second chip as long as that chip is
not masked itself. -/
theorem line_delivers (settled : Settled8259 pics) (direct : irq ≠ 2)
    (unmasked : Masked pics irq = false) (through : 8 ≤ irq.val → Masked pics 2 = false) :
    ∃ vector pics', Delivers pics vector pics' ∧ vector.setWidth 32 = lineIrq irq := by
  obtain ⟨⟨ready, offset, idle⟩, ⟨ready', offset', idle'⟩⟩ := settled
  have nothing : ∀ line : Fin 8, (0 : BitVec 8).getLsbD line = false := by decide
  by_cases isFirst : irq.val < 8
  · have vectors : ∀ line : Fin 8, ((0x20 : BitVec 8) + BitVec.ofNat 8 line).setWidth 32 =
        lineIrq (line.castLE (by decide)) := by
      decide
    let line : Fin 8 := ⟨irq, isFirst⟩
    have isUnmasked : pics.master.mask.getLsbD line = false := by
      rw [Masked, if_pos isFirst] at unmasked
      exact unmasked
    have different : line ≠ cascadeLine := by
      intro same
      have number : irq.val = 2 := congrArg (fun line : Fin 8 => line.val) same
      exact direct (Fin.ext number)
    have isOpen : pics.master.Open line := ⟨ready, isUnmasked, fun other _ => by
      rw [idle]
      exact nothing other⟩
    refine ⟨_, _, .master line different isOpen, ?_⟩
    rw [offset]
    exact vectors line
  · have vectors : ∀ line : Fin 8, ((0x28 : BitVec 8) + BitVec.ofNat 8 line).setWidth 32 =
        lineIrq (line.addNat 8) := by
      decide
    have bound := irq.isLt
    let line : Fin 8 := ⟨irq - 8, by omega⟩
    have isUnmasked : pics.slave.mask.getLsbD line = false := by
      rw [Masked, if_neg isFirst] at unmasked
      exact unmasked
    have isThrough : pics.master.mask.getLsbD cascadeLine = false := through (by omega)
    have isOpen : pics.slave.Open line := ⟨ready', isUnmasked, fun other _ => by
      rw [idle']
      exact nothing other⟩
    have cascades : pics.master.Open cascadeLine := ⟨ready, isThrough, fun other _ => by
      rw [idle]
      exact nothing other⟩
    refine ⟨_, _, .slave line cascades isOpen, ?_⟩
    rw [offset', vectors]
    apply congrArg lineIrq
    apply Fin.ext
    simp only [line, Fin.addNat_mk]
    omega

end Lines

end Oseer
