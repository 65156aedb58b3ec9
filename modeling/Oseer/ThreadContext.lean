import Oseer.Arguments
import Oseer.Library.CellStack
import Oseer.Segments

/-!
# Contexts of threads

The frame of an interrupt in `arch/i386/arch/interrupts.S` and `context.c`.  A thread is interrupted
onto a stack that ends behind its own descriptor's `arch_context_t`, so that what is pushed fills the
fields, and the thread goes on from there.
-/

namespace Oseer

open CellStack

/-- `GDT_DESCRIPTOR`. -/
def GDT_DESCRIPTOR (id table privLevel : Nat) : Nat := (id <<< 3) ||| (table <<< 2) ||| privLevel

/-- The flags of a new thread. -/
def INIT_EFLAGS : Nat := 0x3202

/-- The registers of a thread. -/
structure Registers where
  gs : Nat
  fs : Nat
  es : Nat
  ds : Nat
  edi : Nat
  esi : Nat
  ebp : Nat
  ebx : Nat
  edx : Nat
  ecx : Nat
  eax : Nat
  eip : Nat
  cs : Nat
  eflags : Nat
  esp : Nat
  ss : Nat

/-- `arch_context_t`, as the widths and the values of its fields. -/
def Registers.archContext (espBefore err : Nat) (regs : Registers) : List (Nat × Nat) :=
  [(2, regs.gs), (2, regs.fs), (2, regs.es), (2, regs.ds), (4, regs.edi), (4, regs.esi),
    (4, regs.ebp), (4, espBefore), (4, regs.ebx), (4, regs.edx), (4, regs.ecx), (4, regs.eax),
    (4, err), (4, regs.eip), (4, regs.cs), (4, regs.eflags), (4, regs.esp), (4, regs.ss)]

/-- `sizeof (arch_context_t)`. -/
def sizeofArchContext : Nat := 64

/-- The processor with its descriptor tables, and the variables of `context.c`; what the kernel
keeps in registers is left out. -/
structure Processor where
  regs : Registers
  memory : Nat → Nat
  esp0 : Nat
  gdt : Gdt
  archThrContext : Nat
  archInterruptStack : Nat

/-- The processor pushes an error code. -/
def PushesError (num : Nat) : Prop := num = 8 ∨ 10 ≤ num ∧ num ≤ 14 ∨ num = 17

instance (num : Nat) : Decidable (PushesError num) := inferInstanceAs (Decidable (_ ∨ _))

/-- The entry of the interrupt pushes a dummy error code. -/
def PushesDummy (num : Nat) : Prop := num < 8 ∨ num = 9 ∨ 14 < num

instance (num : Nat) : Decidable (PushesDummy num) := inferInstanceAs (Decidable (_ ∨ _))

namespace Processor

/-- What the processor itself pushes; the stack is changed only where the privilege is. -/
def entry (num err : Nat) (processor : Processor) : List (Nat × Nat) :=
  let regs := processor.regs
  (if regs.cs % 4 = 0 then [] else [(4, regs.ss), (4, regs.esp)]) ++
    [(4, regs.eflags), (4, regs.cs), (4, regs.eip)] ++
    if PushesError num then [(4, err)] else []

/-- An interrupt up to the call of `arch_interrupt_handler`. -/
def interrupt (num err : Nat) (processor : Processor) : Processor :=
  let regs := processor.regs
  let stack : Stack := ⟨if regs.cs % 4 = 0 then regs.esp else processor.esp0, processor.memory⟩
  let stack := stack.pushAll (processor.entry num err)
  -- `interrupt_num`
  let stack := stack.pushAll (if PushesDummy num then [(4, 0)] else [])
  let stack := stack.pushAll [(4, regs.eax), (4, regs.ecx), (4, regs.edx), (4, regs.ebx),
    (4, stack.top), (4, regs.ebp), (4, regs.esi), (4, regs.edi)]
  -- `arch_interrupts_common_routine`
  let stack := stack.pushAll [(2, regs.ds), (2, regs.es), (2, regs.fs), (2, regs.gs)]
  let stack : Stack := ⟨processor.archInterruptStack, stack.cell⟩
  { processor with memory := (stack.push (4, num)).cell }

/-- `arch_return_to_thread`. -/
def archReturnToThread (processor : Processor) : Processor :=
  let context := processor.archThrContext
  let field (offset : Nat) : Nat := processor.memory (context + offset)
  { processor with
    regs :=
      { gs := field 0, fs := field 2, es := field 4, ds := field 6, edi := field 8, esi := field 12
        ebp := field 16, ebx := field 24, edx := field 28, ecx := field 32, eax := field 36
        eip := field 44, cs := field 48, eflags := field 52
        -- `iret` takes up another stack only where the privilege changes
        esp := if field 48 % 4 = 0 then context + 56 else field 56
        ss := if field 48 % 4 = 0 then GDT_DESCRIPTOR 2 0 0 else field 60 } }

/-- `arch_syscall_set_retval`. -/
def archSyscallSetRetval (context retval : Nat) (processor : Processor) : Processor :=
  { processor with memory := Function.update processor.memory (context + 36) retval }

/-- `arch_create_thread_context`, where the fields that are cleared for `DEBUG` only are left as they
are; nothing is returned if the stack is not in the process. -/
def archCreateThreadContext (context func param threadExit stack stackSize : Nat) (proc : Mseg)
    (processor : Processor) : Option Processor :=
  let pushed := (Stack.mk (stack + stackSize) processor.memory).pushAll [(4, param), (4, threadExit)]
  let data := GDT_DESCRIPTOR 4 0 3
  let memory := Function.update pushed.cell (context + 52) INIT_EFLAGS
  let memory := Function.update memory (context + 48) (GDT_DESCRIPTOR 3 0 3)
  let memory := Function.update memory (context + 44) func
  let memory := Function.update memory (context + 60) data
  let memory := Function.update memory (context + 6) data
  let memory := Function.update memory (context + 4) data
  let memory := Function.update memory (context + 2) data
  let memory := Function.update memory context data
  (proc.kK2uAdr pushed.top).map fun esp =>
    { processor with memory := Function.update memory (context + 56) esp }

/-- `arch_select_thread`. -/
def archSelectThread (context : Nat) (proc : Mseg) (processor : Processor) : Option Processor :=
  (archUpdateUserSegments (BitVec.ofNat 32 proc.start) (BitVec.ofNat 32 proc.size)
    processor.gdt).map fun gdt =>
      { processor with
        archThrContext := context
        esp0 := context + sizeofArchContext
        gdt := gdt }

end Processor

/-- The descriptors as `GDT_init` leaves them, with the TSS at this address. -/
def gdtInitialized (tss : BitVec 32) : Option Gdt := do
  let gdt ← archUpdSegmDescr 1 0 0xffffffff 0 gdtInit
  let gdt ← archUpdSegmDescr 2 0 0xffffffff 0 gdt
  let gdt ← archUpdateUserSegments 0 0xffffffff gdt
  archUpdSegmDescr 5 tss 103 0 gdt

/-- A program can access this address: a descriptor lets it, and one of the kernel does not let
programs. -/
def UserReach (gdt : Gdt) (address : Nat) : Prop :=
  ∃ row offset, (gdt row).S = 1 ∧ (gdt row).P = 1 ∧ (gdt row).DPL = 3 ∧
    (gdt row).Accessible offset ∧ address = ((gdt row).base + offset).toNat

/-- The address is in the segment of the process, as it is rounded. -/
def Mseg.Reaches (proc : Mseg) (address : Nat) : Prop :=
  ∃ offset, offset < segmentSize (BitVec.ofNat 32 proc.size) ∧
    address = (proc.start + offset) % 2 ^ 32

section Descriptors

variable {gdt gdt' : Gdt} {proc : Mseg} {address : Nat}

/-- Programs can use two of the descriptors only. -/
structure Protected (gdt : Gdt) : Prop where
  null : (gdt 0).S = 0
  kernelCode : (gdt 1).DPL = 0
  kernelData : (gdt 2).DPL = 0
  code : (gdt 3).S = 1 ∧ (gdt 3).P = 1
  data : (gdt 4).S = 1 ∧ (gdt 4).P = 1
  tss : (gdt 5).S = 0

/-- Both descriptors of programs are those of the process. -/
structure Gives (gdt : Gdt) (proc : Mseg) : Prop where
  guarded : Protected gdt
  describes : ∀ row, row = 3 ∨ row = 4 → (gdt row).DPL = 3 ∧
    (gdt row).base = BitVec.ofNat 32 proc.start ∧
    ∀ offset, (gdt row).Accessible offset ↔
      offset.toNat < segmentSize (BitVec.ofNat 32 proc.size)

theorem gdtInitialized_protected (tss : BitVec 32) :
    ∃ gdt, gdtInitialized tss = some gdt ∧ Protected gdt := by
  refine ⟨_, rfl, ?_⟩
  constructor
  case code => exact ⟨rfl, rfl⟩
  case data => exact ⟨rfl, rfl⟩
  all_goals rfl

/-- `arch_update_user_segments` gives programs the segment of the process. -/
theorem Protected.gives (guarded : Protected gdt) (positive : proc.size ≠ 0) :
    ∃ gdt', archUpdateUserSegments (BitVec.ofNat 32 proc.start) (BitVec.ofNat 32 proc.size) gdt =
      some gdt' ∧ Gives gdt' proc := by
  have nonzero : BitVec.ofNat 32 proc.size ≠ 0 := by
    intro zero
    have isZero := congrArg BitVec.toNat zero
    rw [BitVec.toNat_ofNat, Nat.mod_eq_of_lt proc.bounded] at isZero
    exact positive isZero
  obtain ⟨gdt', updated, code, data, others⟩ :=
    archUpdateUserSegments_describes (BitVec.ofNat 32 proc.start) nonzero gdt
  refine ⟨gdt', updated, ⟨?_, ?_, ?_, ?_, ?_, ?_⟩, ?_⟩
  · rw [others 0 (by decide) (by decide)]
    exact guarded.null
  · rw [others 1 (by decide) (by decide)]
    exact guarded.kernelCode
  · rw [others 2 (by decide) (by decide)]
    exact guarded.kernelData
  · rw [code.S, code.P]
    exact guarded.code
  · rw [data.S, data.P]
    exact guarded.data
  · rw [others 5 (by decide) (by decide)]
    exact guarded.tss
  · rintro row (rfl | rfl)
    · exact ⟨code.DPL, code.base, code.accessible⟩
    · exact ⟨data.DPL, data.base, data.accessible⟩

/-- Programs reach the segment of the process, and nothing else. -/
theorem Gives.userReach_iff (gives : Gives gdt proc) : UserReach gdt address ↔ proc.Reaches address := by
  have fits : segmentSize (BitVec.ofNat 32 proc.size) ≤ 2 ^ 32 := by
    have bound := (BitVec.ofNat 32 proc.size).isLt
    unfold segmentSize
    split <;> omega
  have place : ∀ offset : BitVec 32, (BitVec.ofNat 32 proc.start + offset).toNat =
      (proc.start + offset.toNat) % 2 ^ 32 := by
    intro offset
    rw [BitVec.toNat_add, BitVec.toNat_ofNat, Nat.mod_add_mod]
  constructor
  · rintro ⟨row, offset, isSegment, -, privilege, accessible, rfl⟩
    have isUser : row = 3 ∨ row = 4 := by
      have null := gives.guarded.null
      have kernelCode := gives.guarded.kernelCode
      have kernelData := gives.guarded.kernelData
      have tss := gives.guarded.tss
      have rows : ∀ row : Fin 6, row = 0 ∨ row = 1 ∨ row = 2 ∨ row = 3 ∨ row = 4 ∨ row = 5 := by
        decide
      rcases rows row with rfl | rfl | rfl | rfl | rfl | rfl
      · rw [null] at isSegment
        cases isSegment
      · rw [kernelCode] at privilege
        cases privilege
      · rw [kernelData] at privilege
        cases privilege
      · exact .inl rfl
      · exact .inr rfl
      · rw [tss] at isSegment
        cases isSegment
    obtain ⟨-, base, iff⟩ := gives.describes row isUser
    rw [base, place]
    exact ⟨offset.toNat, (iff offset).mp accessible, rfl⟩
  · rintro ⟨offset, inside, rfl⟩
    obtain ⟨privilege, base, iff⟩ := gives.describes 4 (.inr rfl)
    obtain ⟨isSegment, present⟩ := gives.guarded.data
    have same : (BitVec.ofNat 32 offset).toNat = offset := by
      rw [BitVec.toNat_ofNat, Nat.mod_eq_of_lt (by omega)]
    refine ⟨4, BitVec.ofNat 32 offset, isSegment, present, privilege, ?_, ?_⟩
    · rw [iff, same]
      exact inside
    · rw [base, place, same]

end Descriptors

section Frames

variable {memory memory' : Nat → Nat} {context : Nat} {regs : Registers} {processor : Processor}

/-- The registers stand in the fields of the context. -/
def Registers.SavedAt (regs : Registers) (memory : Nat → Nat) (context : Nat) : Prop :=
  ∃ espBefore err, CellsAt memory context (regs.archContext espBefore err)

theorem archContext_extent (espBefore err : Nat) :
    extent (regs.archContext espBefore err) = sizeofArchContext := by
  simp [Registers.archContext, sizeofArchContext]

theorem archContext_solid (espBefore err : Nat) : Solid (regs.archContext espBefore err) := by
  simp [Solid, Registers.archContext]

theorem Registers.SavedAt.congr (saved : regs.SavedAt memory context)
    (same : ∀ address, context ≤ address → address < context + sizeofArchContext →
      memory' address = memory address) : regs.SavedAt memory' context := by
  obtain ⟨espBefore, err, held⟩ := saved
  refine ⟨espBefore, err, held.congr (archContext_solid espBefore err) ?_⟩
  rw [archContext_extent]
  exact same

/-- A thread goes on with its registers. -/
theorem archReturnToThread_regs (saved : regs.SavedAt processor.memory processor.archThrContext)
    (isUser : regs.cs % 4 = 3) : processor.archReturnToThread.regs = regs := by
  obtain ⟨espBefore, err, held⟩ := saved
  simp only [Registers.archContext, CellsAt, Nat.add_assoc, Nat.reduceAdd] at held
  obtain ⟨gs, fs, es, ds, edi, esi, ebp, -, ebx, edx, ecx, eax, -, eip, cs, eflags, esp, ss, -⟩ :=
    held
  have notKernel : ¬ regs.cs % 4 = 0 := by omega
  simp only [Processor.archReturnToThread, Nat.add_zero, gs, fs, es, ds, edi, esi, ebp, ebx, edx,
    ecx, eax, eip, cs, eflags, esp, ss, if_neg notKernel]

theorem archSyscallSetRetval_saved (retval : Nat)
    (saved : regs.SavedAt processor.memory context) :
    Registers.SavedAt { regs with eax := retval }
      (processor.archSyscallSetRetval context retval).memory context := by
  obtain ⟨espBefore, err, held⟩ := saved
  refine ⟨espBefore, err, ?_⟩
  simp only [Registers.archContext, CellsAt, Nat.add_assoc, Nat.reduceAdd] at held
  simp [Registers.archContext, CellsAt, Nat.add_assoc, Processor.archSyscallSetRetval, held]

/-- The pushes of an interrupt fill the context of the thread, but for the alignment check, where
both push an error code. -/
theorem interrupt_saved {num : Nat} (err : Nat) (isUser : processor.regs.cs % 4 = 3)
    (aligned : num ≠ 17) (isEsp0 : processor.esp0 = context + sizeofArchContext)
    (room : 4 ≤ processor.archInterruptStack)
    (apart : processor.archInterruptStack ≤ context ∨
      context + sizeofArchContext + 4 ≤ processor.archInterruptStack) :
    processor.regs.SavedAt (processor.interrupt num err).memory context ∧
      ∀ address, address < context ∨ context + sizeofArchContext ≤ address →
        address ≠ processor.archInterruptStack - 4 →
          (processor.interrupt num err).memory address = processor.memory address := by
  have notKernel : ¬ processor.regs.cs % 4 = 0 := by omega
  -- one error code, of whichever origin
  obtain ⟨code, isCode⟩ : ∃ code, (if PushesError num then [(4, err)] else []) ++
      (if PushesDummy num then [(4, 0)] else []) = [((4 : Nat), (code : Nat))] := by
    by_cases pushes : PushesError num
    · have none : ¬ PushesDummy num := by
        unfold PushesError at pushes
        unfold PushesDummy
        omega
      exact ⟨err, by rw [if_pos pushes, if_neg none]; rfl⟩
    · have dummy : PushesDummy num := by
        unfold PushesError at pushes
        unfold PushesDummy
        omega
      exact ⟨0, by rw [if_neg pushes, if_pos dummy]; rfl⟩
  let stack : Stack := ⟨processor.esp0, processor.memory⟩
  have entered : ((Stack.mk processor.esp0 processor.memory).pushAll (processor.entry num err)).pushAll
      (if PushesDummy num then [(4, 0)] else []) =
        (Stack.mk processor.esp0 processor.memory).pushAll [(4, processor.regs.ss),
          (4, processor.regs.esp), (4, processor.regs.eflags), (4, processor.regs.cs),
          (4, processor.regs.eip), (4, code)] := by
    unfold Processor.entry
    simp only [if_neg notKernel]
    rw [← pushAll_append, List.append_assoc, isCode]
    rfl
  obtain ⟨espBefore, pushed⟩ : ∃ espBefore, (processor.interrupt num err).memory =
      ((Stack.mk processor.archInterruptStack
        (stack.pushAll (processor.regs.archContext espBefore code).reverse).cell).push
          (4, num)).cell := by
    unfold Processor.interrupt
    simp only [if_neg notKernel, entered]
    exact ⟨_, rfl⟩
  have isExtent : extent (processor.regs.archContext espBefore code).reverse =
      sizeofArchContext := by
    rw [extent_reverse, archContext_extent]
  have fits : extent (processor.regs.archContext espBefore code).reverse ≤ stack.top := by
    rw [isExtent]
    simp only [stack, isEsp0]
    omega
  have solid : Solid (processor.regs.archContext espBefore code).reverse := by
    intro entry mem
    exact archContext_solid espBefore code entry (List.mem_reverse.mp mem)
  have lowest : stack.top - extent (processor.regs.archContext espBefore code).reverse =
      context := by
    rw [isExtent]
    simp only [stack, isEsp0]
    omega
  have held := pushAll_cellsAt fits solid
  rw [List.reverse_reverse, lowest] at held
  refine ⟨⟨espBefore, code, ?_⟩, fun address outside elsewhere => ?_⟩
  · rw [pushed]
    apply held.congr (archContext_solid espBefore code)
    intro other low high
    rw [archContext_extent] at high
    apply Function.update_of_ne
    unfold sizeofArchContext at *
    dsimp only
    omega
  · rw [pushed]
    simp only [Stack.push]
    rw [Function.update_of_ne elsewhere]
    apply pushAll_other fits solid
    rw [lowest]
    simp only [stack, isEsp0]
    exact outside

/-- An interrupt of the kernel itself is pushed on the stack in use, and goes no further. -/
theorem interrupt_inKernel (num err : Nat) (inKernel : processor.regs.cs % 4 = 0)
    (room : 64 ≤ processor.regs.esp) {address : Nat}
    (outside : address < processor.regs.esp - 64 ∨ processor.regs.esp ≤ address)
    (elsewhere : address ≠ processor.archInterruptStack - 4) :
    (processor.interrupt num err).memory address = processor.memory address := by
  obtain ⟨entries, short, solid, isEntry⟩ : ∃ entries : List (Nat × Nat), extent entries ≤ 20 ∧
      Solid entries ∧
      processor.entry num err ++ (if PushesDummy num then [(4, 0)] else []) = entries := by
    refine ⟨_, ?_, ?_, rfl⟩
    · unfold Processor.entry
      dsimp only
      rw [if_pos inKernel]
      split_ifs <;> simp
    · unfold Processor.entry
      dsimp only
      rw [if_pos inKernel]
      split_ifs <;> simp [Solid]
  let regs := processor.regs
  let stack : Stack := ⟨regs.esp, processor.memory⟩
  obtain ⟨espBefore, pushed⟩ : ∃ espBefore, (processor.interrupt num err).memory =
      ((Stack.mk processor.archInterruptStack (stack.pushAll (entries ++ [(4, regs.eax),
        (4, regs.ecx), (4, regs.edx), (4, regs.ebx), (4, espBefore), (4, regs.ebp), (4, regs.esi),
        (4, regs.edi), (2, regs.ds), (2, regs.es), (2, regs.fs), (2, regs.gs)])).cell).push
          (4, num)).cell := by
    unfold Processor.interrupt
    simp only [if_pos inKernel, ← pushAll_append, isEntry]
    simp only [pushAll_append]
    exact ⟨_, rfl⟩
  rw [pushed]
  simp only [Stack.push]
  rw [Function.update_of_ne elsewhere]
  apply pushAll_other
  · simp only [extent_append, extent_cons, extent_nil, stack, regs]
    omega
  · intro entry mem
    rcases List.mem_append.mp mem with first | later
    · exact solid entry first
    · have solidLater : Solid [(4, regs.eax), (4, regs.ecx), (4, regs.edx), (4, regs.ebx),
          (4, espBefore), (4, regs.ebp), (4, regs.esi), (4, regs.edi), (2, regs.ds), (2, regs.es),
          (2, regs.fs), (2, regs.gs)] := by
        simp [Solid]
      exact solidLater entry later
  · simp only [extent_append, extent_cons, extent_nil, stack, regs]
    omega

end Frames

end Oseer
