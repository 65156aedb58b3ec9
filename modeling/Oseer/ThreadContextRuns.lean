import Mathlib.Data.Set.Insert
import Mathlib.Logic.Relation
import Oseer.ThreadContext

/-!
# Switches between threads

In every run of interrupts, of stores of the kernel and of switches, each thread goes on with its
registers as they were, and a program stays in the memory of its process.
-/

namespace Oseer

open CellStack

/-- The stack of the kernel, `k_stack`. -/
structure KernelStack where
  start : Nat
  size : Nat
  room : 64 ≤ size

/-- `kernel_proc.m`. -/
def kernelSegment : Mseg := ⟨0, 0xffffffff, by omega, by omega⟩

/-- The processor in a thread or in the kernel, the threads with the segments of their processes,
the registers with which each is to go on, and the thread that is selected. -/
structure ThreadMachine where
  processor : Processor
  inKernel : Bool
  live : Set Nat
  proc : Nat → Mseg
  saved : Nat → Registers
  selected : Option Nat

namespace ThreadMachine

/-- The contexts of all threads stay as they are. -/
def Spares (machine : ThreadMachine) (memory : Nat → Nat) : Prop :=
  ∀ thread ∈ machine.live, ∀ address, thread ≤ address →
    address < thread + sizeofArchContext → memory address = machine.processor.memory address

/-- The registers of a new thread; some of them are what the memory of its context was. -/
def begins (processor : Processor) (thread func esp : Nat) : Registers where
  gs := GDT_DESCRIPTOR 4 0 3
  fs := GDT_DESCRIPTOR 4 0 3
  es := GDT_DESCRIPTOR 4 0 3
  ds := GDT_DESCRIPTOR 4 0 3
  edi := processor.memory (thread + 8)
  esi := processor.memory (thread + 12)
  ebp := processor.memory (thread + 16)
  ebx := processor.memory (thread + 24)
  edx := processor.memory (thread + 28)
  ecx := processor.memory (thread + 32)
  eax := processor.memory (thread + 36)
  eip := func
  cs := GDT_DESCRIPTOR 3 0 3
  eflags := INIT_EFLAGS
  esp := esp
  ss := GDT_DESCRIPTOR 4 0 3

/-- A program computes or is interrupted; the kernel stores something, works on the contexts, waits
for an interrupt in `sys__suspend`, and goes back to the thread that is selected.  A new context is
in memory of its own. -/
inductive Step (kStack : KernelStack) : ThreadMachine → ThreadMachine → Prop
  | compute {machine : ThreadMachine} (regs : Registers) (memory : Nat → Nat)
      (user : machine.inKernel = false) (privilege : regs.cs % 4 = 3)
      (reach : ∀ address, ¬ UserReach machine.processor.gdt address →
        memory address = machine.processor.memory address)
      -- the idle thread is part of the kernel
      (idle : ∀ thread, machine.selected = some thread → machine.proc thread = kernelSegment →
        machine.Spares memory) :
      Step kStack machine { machine with
        processor := { machine.processor with regs := regs, memory := memory } }
  | interrupt {machine : ThreadMachine} (num err thread : Nat) (user : machine.inKernel = false)
      -- the alignment check is never switched on
      (aligned : num ≠ 17) (isSelected : machine.selected = some thread) :
      Step kStack machine { machine with
        processor := machine.processor.interrupt num err
        inKernel := true
        saved := Function.update machine.saved thread machine.processor.regs }
  | store {machine : ThreadMachine} (memory : Nat → Nat) (kernel : machine.inKernel = true)
      (spares : machine.Spares memory) :
      Step kStack machine { machine with
        processor := { machine.processor with memory := memory } }
  | create {machine : ThreadMachine} {processor : Processor} (func param threadExit stack stackSize : Nat)
      (thread : Nat) (proc : Mseg) (kernel : machine.inKernel = true) (positive : proc.size ≠ 0)
      (room : 8 ≤ stack + stackSize)
      (fresh : ∀ other ∈ machine.live,
        other + sizeofArchContext ≤ thread ∨ thread + sizeofArchContext ≤ other)
      (offStack : thread + sizeofArchContext ≤ kStack.start ∨ kStack.start + kStack.size ≤ thread)
      (hidden : ∀ other ∈ machine.live, machine.proc other ≠ kernelSegment →
        ∀ address, thread ≤ address → address < thread + sizeofArchContext →
          ¬ (machine.proc other).Reaches address)
      (confined : proc ≠ kernelSegment → ∀ other, other = thread ∨ other ∈ machine.live →
        ∀ address, other ≤ address → address < other + sizeofArchContext → ¬ proc.Reaches address)
      (stackApart : ∀ other, other = thread ∨ other ∈ machine.live →
        stack + stackSize ≤ other ∨ other + sizeofArchContext + 8 ≤ stack + stackSize)
      (result : machine.processor.archCreateThreadContext thread func param threadExit stack
        stackSize proc = some processor) :
      Step kStack machine { machine with
        processor := processor
        live := insert thread machine.live
        proc := Function.update machine.proc thread proc
        saved := Function.update machine.saved thread 
          (begins processor thread func (stack + stackSize - 8 - proc.start)) }
  | setRetval {machine : ThreadMachine} (thread retval : Nat) (kernel : machine.inKernel = true)
      (mem : thread ∈ machine.live) :
      Step kStack machine { machine with
        processor := machine.processor.archSyscallSetRetval thread retval
        saved := Function.update machine.saved thread
          { machine.saved thread with eax := retval } }
  | select {machine : ThreadMachine} {processor : Processor} (thread : Nat)
      (kernel : machine.inKernel = true) (mem : thread ∈ machine.live)
      (result : machine.processor.archSelectThread thread (machine.proc thread) = some processor) :
      Step kStack machine { machine with
        processor := processor
        selected := some thread }
  | remove {machine : ThreadMachine} (thread : Nat) (kernel : machine.inKernel = true) :
      Step kStack machine { machine with
        live := machine.live \ {thread}
        selected := if machine.selected = some thread then none else machine.selected }
  | suspend {machine : ThreadMachine} (regs : Registers) (num err : Nat)
      (kernel : machine.inKernel = true) (privilege : regs.cs % 4 = 0)
      (above : kStack.start + sizeofArchContext ≤ regs.esp)
      (below : regs.esp ≤ kStack.start + kStack.size) :
      Step kStack machine { machine with
        processor := ({ machine.processor with regs := regs } : Processor).interrupt num err }
  | leave {machine : ThreadMachine} (thread : Nat) (kernel : machine.inKernel = true)
      (isSelected : machine.selected = some thread) :
      Step kStack machine { machine with
        processor := machine.processor.archReturnToThread
        inKernel := false }

/-- What holds in every state. -/
structure Kept (kStack : KernelStack) (machine : ThreadMachine) : Prop where
  interruptStack : machine.processor.archInterruptStack = kStack.start + kStack.size
  guarded : Protected machine.processor.gdt
  apart : ∀ thread ∈ machine.live, ∀ other ∈ machine.live, thread ≠ other →
    thread + sizeofArchContext ≤ other ∨ other + sizeofArchContext ≤ thread
  offStack : ∀ thread ∈ machine.live,
    thread + sizeofArchContext ≤ kStack.start ∨ kStack.start + kStack.size ≤ thread
  confined : ∀ thread ∈ machine.live, machine.proc thread ≠ kernelSegment →
    ∀ other ∈ machine.live, ∀ address, other ≤ address → address < other + sizeofArchContext →
      ¬ (machine.proc thread).Reaches address
  positive : ∀ thread ∈ machine.live, (machine.proc thread).size ≠ 0
  selected : ∀ thread, machine.selected = some thread → thread ∈ machine.live ∧
    machine.processor.archThrContext = thread ∧
    machine.processor.esp0 = thread + sizeofArchContext ∧
    Gives machine.processor.gdt (machine.proc thread)
  frames : ∀ thread ∈ machine.live, (machine.inKernel = true ∨ machine.selected ≠ some thread) →
    (machine.saved thread).SavedAt machine.processor.memory thread
  users : ∀ thread ∈ machine.live, (machine.saved thread).cs % 4 = 3
  user : machine.inKernel = false →
    machine.processor.regs.cs % 4 = 3 ∧ ∃ thread, machine.selected = some thread

variable {kStack : KernelStack} {machine machine' first last : ThreadMachine} {thread : Nat}

section Steps

/-- The fields of a new context. -/
theorem archCreateThreadContext_saved {processor processor' : Processor}
    {func param threadExit stack stackSize : Nat} {proc : Mseg} (room : 8 ≤ stack + stackSize)
    (apart : stack + stackSize ≤ thread ∨ thread + sizeofArchContext + 8 ≤ stack + stackSize)
    (result : processor.archCreateThreadContext thread func param threadExit stack stackSize proc =
      some processor') :
    (begins processor' thread func (stack + stackSize - 8 - proc.start)).SavedAt
        processor'.memory thread ∧
      processor'.archInterruptStack = processor.archInterruptStack ∧
      processor'.gdt = processor.gdt ∧ processor'.archThrContext = processor.archThrContext ∧
      processor'.esp0 = processor.esp0 ∧
      processor'.memory (stack + stackSize - 8) = threadExit ∧
      processor'.memory (stack + stackSize - 4) = param ∧
      ∀ address, address < thread ∨ thread + sizeofArchContext ≤ address →
        address < stack + stackSize - 8 ∨ stack + stackSize ≤ address →
          processor'.memory address = processor.memory address := by
  unfold Processor.archCreateThreadContext at result
  obtain ⟨esp, translated, rfl⟩ := Option.map_eq_some_iff.mp result
  have isEsp : esp = stack + stackSize - 8 - proc.start := by
    unfold Mseg.kK2uAdr at translated
    split at translated
    · rw [← Option.some.inj translated]
      rfl
    · cases translated
  refine ⟨⟨?espBefore, ?err, ?_⟩, rfl, rfl, rfl, rfl, ?_, ?_, fun address outside elsewhere => ?_⟩
  · exact (Stack.mk (stack + stackSize) processor.memory).pushAll
      [(4, param), (4, threadExit)] |>.cell (thread + 20)
  · exact (Stack.mk (stack + stackSize) processor.memory).pushAll
      [(4, param), (4, threadExit)] |>.cell (thread + 40)
  · simp [Registers.archContext, CellsAt, begins, Nat.add_assoc, isEsp]
  · unfold sizeofArchContext at apart
    dsimp only
    repeat rw [Function.update_of_ne (by omega)]
    exact Function.update_self ..
  · unfold sizeofArchContext at apart
    dsimp only
    repeat rw [Function.update_of_ne (by omega)]
    simp only [Stack.pushAll, Stack.push]
    rw [Function.update_of_ne (by omega)]
    exact Function.update_self ..
  · unfold sizeofArchContext at outside
    dsimp only
    repeat rw [Function.update_of_ne (by omega)]
    apply pushAll_other
    · simpa using room
    · simp [Solid]
    · simpa using elsewhere

/-- The contexts of the threads that do not run. -/
theorem Kept.spared (kept : Kept kStack machine) {memory : Nat → Nat} (mem : thread ∈ machine.live)
    (waits : machine.inKernel = true ∨ machine.selected ≠ some thread)
    (spares : ∀ address, thread ≤ address → address < thread + sizeofArchContext →
      memory address = machine.processor.memory address) :
    (machine.saved thread).SavedAt memory thread :=
  (kept.frames thread mem waits).congr spares

/-- A program changes nothing outside of its process, but for the idle thread. -/
theorem Kept.compute_spares (kept : Kept kStack machine) (user : machine.inKernel = false)
    {memory : Nat → Nat} (reach : ∀ address, ¬ UserReach machine.processor.gdt address →
      memory address = machine.processor.memory address)
    (idle : ∀ thread, machine.selected = some thread → machine.proc thread = kernelSegment →
      machine.Spares memory) : machine.Spares memory := by
  obtain ⟨-, running, isSelected⟩ := kept.user user
  obtain ⟨mem, -, -, gives⟩ := kept.selected running isSelected
  by_cases kernel : machine.proc running = kernelSegment
  · exact idle running isSelected kernel
  · intro thread threadMem address low high
    apply reach
    rw [gives.userReach_iff]
    exact kept.confined running mem kernel thread threadMem address low high

theorem Kept.computes (kept : Kept kStack machine) (user : machine.inKernel = false)
    {regs : Registers} {memory : Nat → Nat} (privilege : regs.cs % 4 = 3)
    (spares : machine.Spares memory) :
    Kept kStack { machine with
      processor := { machine.processor with regs := regs, memory := memory } } where
  interruptStack := kept.interruptStack
  guarded := kept.guarded
  apart := kept.apart
  offStack := kept.offStack
  confined := kept.confined
  positive := kept.positive
  selected := kept.selected
  frames thread mem waits := kept.spared mem waits (spares thread mem)
  users := kept.users
  user _ := ⟨privilege, (kept.user user).2⟩

/-- The registers of the thread are saved in its context. -/
theorem Kept.interrupts (kept : Kept kStack machine) (user : machine.inKernel = false)
    {num : Nat} (err : Nat) (aligned : num ≠ 17) (isSelected : machine.selected = some thread) :
    Kept kStack { machine with
      processor := machine.processor.interrupt num err
      inKernel := true
      saved := Function.update machine.saved thread machine.processor.regs } := by
  obtain ⟨mem, -, isEsp0, -⟩ := kept.selected thread isSelected
  have isUser := (kept.user user).1
  have size := kStack.room
  have isStack := kept.interruptStack
  have offStack := kept.offStack
  obtain ⟨saved, others⟩ := interrupt_saved err isUser aligned isEsp0 (by omega) (by
    have off := offStack thread mem
    unfold sizeofArchContext at *
    omega)
  constructor
  case interruptStack => exact kept.interruptStack
  case guarded => exact kept.guarded
  case apart => exact kept.apart
  case offStack => exact kept.offStack
  case confined => exact kept.confined
  case positive => exact kept.positive
  case selected => exact kept.selected
  case frames =>
    intro other otherMem _
    dsimp only
    by_cases same : other = thread
    · subst same
      rw [Function.update_self]
      exact saved
    · rw [Function.update_of_ne same]
      apply kept.spared otherMem (.inr fun isOther => ?_)
      · intro address low high
        have between := kept.apart other otherMem thread mem same
        have off := offStack other otherMem
        apply others address
        · omega
        · rw [isStack]
          unfold sizeofArchContext at *
          omega
      · rw [isSelected] at isOther
        exact same (Option.some.inj isOther).symm
  case users =>
    intro other otherMem
    dsimp only
    by_cases same : other = thread
    · subst same
      rw [Function.update_self]
      exact isUser
    · rw [Function.update_of_ne same]
      exact kept.users other otherMem
  case user => exact fun notUser => by cases notUser

theorem Kept.stores (kept : Kept kStack machine) (kernel : machine.inKernel = true)
    {memory : Nat → Nat} (spares : machine.Spares memory) :
    Kept kStack { machine with processor := { machine.processor with memory := memory } } where
  interruptStack := kept.interruptStack
  guarded := kept.guarded
  apart := kept.apart
  offStack := kept.offStack
  confined := kept.confined
  positive := kept.positive
  selected := kept.selected
  frames thread mem waits := kept.spared mem waits (spares thread mem)
  users := kept.users
  user user := by
    rw [kernel] at user
    cases user

theorem Kept.setsRetval (kept : Kept kStack machine) (kernel : machine.inKernel = true)
    (retval : Nat) (mem : thread ∈ machine.live) :
    Kept kStack { machine with
      processor := machine.processor.archSyscallSetRetval thread retval
      saved := Function.update machine.saved thread
        { machine.saved thread with eax := retval } } := by
  constructor
  case interruptStack => exact kept.interruptStack
  case guarded => exact kept.guarded
  case apart => exact kept.apart
  case offStack => exact kept.offStack
  case confined => exact kept.confined
  case positive => exact kept.positive
  case selected => exact kept.selected
  case frames =>
    intro other otherMem _
    dsimp only
    by_cases same : other = thread
    · subst same
      rw [Function.update_self]
      exact archSyscallSetRetval_saved retval (kept.frames other mem (.inl kernel))
    · rw [Function.update_of_ne same]
      apply kept.spared otherMem (.inl kernel)
      intro address low high
      have between := kept.apart other otherMem thread mem same
      apply Function.update_of_ne
      unfold sizeofArchContext at *
      omega
  case users =>
    intro other otherMem
    dsimp only
    by_cases same : other = thread
    · subst same
      rw [Function.update_self]
      exact kept.users other mem
    · rw [Function.update_of_ne same]
      exact kept.users other otherMem
  case user =>
    intro user
    rw [kernel] at user
    cases user

theorem Kept.selects (kept : Kept kStack machine) (kernel : machine.inKernel = true)
    {processor : Processor} (mem : thread ∈ machine.live)
    (result : machine.processor.archSelectThread thread (machine.proc thread) = some processor) :
    Kept kStack { machine with
      processor := processor
      selected := some thread } := by
  obtain ⟨gdt, updated, gives⟩ := kept.guarded.gives (kept.positive thread mem)
  unfold Processor.archSelectThread at result
  rw [updated, Option.map_some] at result
  obtain rfl := Option.some.inj result
  constructor
  case interruptStack => exact kept.interruptStack
  case guarded => exact gives.guarded
  case apart => exact kept.apart
  case offStack => exact kept.offStack
  case confined => exact kept.confined
  case positive => exact kept.positive
  case selected =>
    intro other isOther
    obtain rfl := Option.some.inj isOther
    exact ⟨mem, rfl, rfl, gives⟩
  case frames => exact fun other otherMem _ => kept.frames other otherMem (.inl kernel)
  case users => exact kept.users
  case user =>
    intro user
    rw [kernel] at user
    cases user

theorem Kept.removes (kept : Kept kStack machine) (kernel : machine.inKernel = true)
    (thread : Nat) :
    Kept kStack { machine with
      live := machine.live \ {thread}
      selected := if machine.selected = some thread then none else machine.selected } := by
  constructor
  case interruptStack => exact kept.interruptStack
  case guarded => exact kept.guarded
  case apart => exact fun one mem other otherMem => kept.apart one mem.1 other otherMem.1
  case offStack => exact fun other mem => kept.offStack other mem.1
  case confined =>
    exact fun one mem isUser other otherMem => kept.confined one mem.1 isUser other otherMem.1
  case positive => exact fun other mem => kept.positive other mem.1
  case selected =>
    intro other isOther
    dsimp only at isOther
    split at isOther
    · cases isOther
    · rename_i different
      obtain ⟨mem, facts⟩ := kept.selected other isOther
      refine ⟨⟨mem, fun same => ?_⟩, facts⟩
      rw [Set.mem_singleton_iff] at same
      exact different (same ▸ isOther)
  case frames => exact fun other mem _ => kept.frames other mem.1 (.inl kernel)
  case users => exact fun other mem => kept.users other mem.1
  case user =>
    intro user
    rw [kernel] at user
    cases user

/-- An interrupt of the kernel reaches no context. -/
theorem Kept.suspend_spares (kept : Kept kStack machine) {regs : Registers} (num err : Nat)
    (privilege : regs.cs % 4 = 0) (above : kStack.start + sizeofArchContext ≤ regs.esp)
    (below : regs.esp ≤ kStack.start + kStack.size) :
    machine.Spares
      (({ machine.processor with regs := regs } : Processor).interrupt num err).memory := by
  intro thread mem address low high
  have off := kept.offStack thread mem
  have isStack := kept.interruptStack
  have size := kStack.room
  unfold sizeofArchContext at *
  apply interrupt_inKernel num err privilege
  · dsimp only
    omega
  · dsimp only
    omega
  · dsimp only
    omega

theorem Kept.leaves (kept : Kept kStack machine) (kernel : machine.inKernel = true)
    (isSelected : machine.selected = some thread) :
    machine.processor.archReturnToThread.regs = machine.saved thread ∧
    Kept kStack { machine with
      processor := machine.processor.archReturnToThread
      inKernel := false } := by
  obtain ⟨mem, isContext, -, -⟩ := kept.selected thread isSelected
  have saved := kept.frames thread mem (.inl kernel)
  have isUser := kept.users thread mem
  rw [← isContext] at saved
  have regs := archReturnToThread_regs saved (by rw [isContext]; exact isUser)
  rw [isContext] at regs
  refine ⟨regs, ?_⟩
  constructor
  case interruptStack => exact kept.interruptStack
  case guarded => exact kept.guarded
  case apart => exact kept.apart
  case offStack => exact kept.offStack
  case confined => exact kept.confined
  case positive => exact kept.positive
  case selected => exact kept.selected
  case frames => exact fun other otherMem _ => kept.frames other otherMem (.inl kernel)
  case users => exact kept.users
  case user =>
    intro _
    refine ⟨?_, thread, isSelected⟩
    dsimp only
    rw [regs]
    exact isUser

theorem Kept.creates (kept : Kept kStack machine) (kernel : machine.inKernel = true)
    {processor : Processor} {func param threadExit stack stackSize : Nat} {proc : Mseg}
    (positive : proc.size ≠ 0) (room : 8 ≤ stack + stackSize)
    (fresh : ∀ other ∈ machine.live,
      other + sizeofArchContext ≤ thread ∨ thread + sizeofArchContext ≤ other)
    (offStack : thread + sizeofArchContext ≤ kStack.start ∨ kStack.start + kStack.size ≤ thread)
    (hidden : ∀ other ∈ machine.live, machine.proc other ≠ kernelSegment →
      ∀ address, thread ≤ address → address < thread + sizeofArchContext →
        ¬ (machine.proc other).Reaches address)
    (confined : proc ≠ kernelSegment → ∀ other, other = thread ∨ other ∈ machine.live →
      ∀ address, other ≤ address → address < other + sizeofArchContext → ¬ proc.Reaches address)
    (stackApart : ∀ other, other = thread ∨ other ∈ machine.live →
      stack + stackSize ≤ other ∨ other + sizeofArchContext + 8 ≤ stack + stackSize)
    (result : machine.processor.archCreateThreadContext thread func param threadExit stack
      stackSize proc = some processor) :
    Kept kStack { machine with
      processor := processor
      live := insert thread machine.live
      proc := Function.update machine.proc thread proc
      saved := Function.update machine.saved thread
        (begins processor thread func (stack + stackSize - 8 - proc.start)) } := by
  obtain ⟨saved, isStack, isGdt, isContext, isEsp0, -, -, others⟩ :=
    archCreateThreadContext_saved room (stackApart thread (.inl rfl)) result
  have old : ∀ other ∈ machine.live, other ≠ thread := by
    rintro other mem rfl
    have apart := fresh other mem
    unfold sizeofArchContext at apart
    omega
  constructor
  case interruptStack =>
    dsimp only
    rw [isStack]
    exact kept.interruptStack
  case guarded =>
    dsimp only
    rw [isGdt]
    exact kept.guarded
  case apart =>
    intro one oneMem other otherMem different
    rcases Set.mem_insert_iff.mp oneMem with rfl | oneOld
    · exact (fresh other ((Set.mem_insert_iff.mp otherMem).resolve_left (Ne.symm different))).symm
    · rcases Set.mem_insert_iff.mp otherMem with rfl | otherOld
      · exact fresh one oneOld
      · exact kept.apart one oneOld other otherOld different
  case offStack =>
    intro other mem
    rcases Set.mem_insert_iff.mp mem with rfl | otherOld
    · exact offStack
    · exact kept.offStack other otherOld
  case confined =>
    intro one oneMem isUser other otherMem
    dsimp only at isUser ⊢
    rcases Set.mem_insert_iff.mp oneMem with rfl | oneOld
    · rw [Function.update_self] at isUser ⊢
      exact confined isUser other (Set.mem_insert_iff.mp otherMem)
    · rw [Function.update_of_ne (old one oneOld)] at isUser ⊢
      rcases Set.mem_insert_iff.mp otherMem with rfl | otherOld
      · exact hidden one oneOld isUser
      · exact kept.confined one oneOld isUser other otherOld
  case positive =>
    intro other mem
    dsimp only
    rcases Set.mem_insert_iff.mp mem with rfl | otherOld
    · rw [Function.update_self]
      exact positive
    · rw [Function.update_of_ne (old other otherOld)]
      exact kept.positive other otherOld
  case selected =>
    intro other isOther
    obtain ⟨mem, contextIs, esp0Is, gives⟩ := kept.selected other isOther
    dsimp only
    rw [isContext, isEsp0, isGdt, Function.update_of_ne (old other mem)]
    exact ⟨Set.mem_insert_of_mem thread mem, contextIs, esp0Is, gives⟩
  case frames =>
    intro other mem _
    dsimp only
    rcases Set.mem_insert_iff.mp mem with rfl | otherOld
    · rw [Function.update_self]
      exact saved
    · rw [Function.update_of_ne (old other otherOld)]
      apply kept.spared otherOld (.inl kernel)
      intro address low high
      have between := fresh other otherOld
      have offPushed := stackApart other (.inr otherOld)
      unfold sizeofArchContext at *
      apply others address
      · omega
      · omega
  case users =>
    intro other mem
    dsimp only
    rcases Set.mem_insert_iff.mp mem with rfl | otherOld
    · rw [Function.update_self]
      simp [begins, GDT_DESCRIPTOR]
    · rw [Function.update_of_ne (old other otherOld)]
      exact kept.users other otherOld
  case user =>
    intro user
    rw [kernel] at user
    cases user

theorem Kept.step (kept : Kept kStack machine) (step : Step kStack machine machine') :
    Kept kStack machine' := by
  cases step with
  | compute regs memory user privilege reach idle =>
      exact kept.computes user privilege (kept.compute_spares user reach idle)
  | interrupt num err thread user aligned isSelected =>
      exact kept.interrupts user err aligned isSelected
  | store memory kernel spares => exact kept.stores kernel spares
  | create func param threadExit stack stackSize thread proc kernel positive room fresh offStack
      hidden confined stackApart result =>
      exact kept.creates kernel positive room fresh offStack hidden confined stackApart result
  | setRetval thread retval kernel mem => exact kept.setsRetval kernel retval mem
  | select thread kernel mem result => exact kept.selects kernel mem result
  | remove thread kernel => exact kept.removes kernel thread
  | suspend regs num err kernel privilege above below =>
      have spares := kept.suspend_spares num err privilege above below
      have stored := kept.stores kernel spares
      exact ⟨stored.interruptStack, stored.guarded, stored.apart, stored.offStack,
        stored.confined, stored.positive, stored.selected, stored.frames, stored.users, fun user => by
          rw [kernel] at user
          cases user⟩
  | leave thread kernel isSelected => exact (kept.leaves kernel isSelected).2

end Steps

section Results

/-- `arch_context_init` has run, and no thread is there yet. -/
structure Starts (kStack : KernelStack) (tss : BitVec 32) (machine : ThreadMachine) : Prop where
  interruptStack : machine.processor.archInterruptStack = kStack.start + kStack.size
  gdt : gdtInitialized tss = some machine.processor.gdt
  inKernel : machine.inKernel = true
  live : machine.live = ∅
  selected : machine.selected = none

theorem Starts.kept {tss : BitVec 32} (starts : Starts kStack tss machine) :
    Kept kStack machine := by
  obtain ⟨gdt, initialized, guarded⟩ := gdtInitialized_protected tss
  have none : ∀ thread, thread ∉ machine.live := by
    intro thread mem
    rw [starts.live] at mem
    exact mem
  constructor
  case interruptStack => exact starts.interruptStack
  case guarded =>
    obtain rfl := Option.some.inj (initialized.symm.trans starts.gdt)
    exact guarded
  case selected =>
    intro thread isSelected
    rw [starts.selected] at isSelected
    cases isSelected
  case user =>
    intro user
    rw [starts.inKernel] at user
    cases user
  all_goals exact fun thread mem => absurd mem (none thread)

theorem Kept.runs (kept : Kept kStack first)
    (run : Relation.ReflTransGen (Step kStack) first last) : Kept kStack last := by
  induction run with
  | refl => exact kept
  | tail _ step ih => exact ih.step step

/-- One thread of one process. -/
def sampleStack : KernelStack := ⟨0x1000, 0x1000, by omega⟩

def sampleSegment : Mseg := ⟨0x100000, 0x10000, by omega, by omega⟩

theorem sampleSegment_reaches {address : Nat} (reaches : sampleSegment.Reaches address) :
    0x100000 ≤ address := by
  obtain ⟨offset, inside, rfl⟩ := reaches
  have small : segmentSize (BitVec.ofNat 32 sampleSegment.size) = 0x10000 := by decide
  rw [small] at inside
  simp only [sampleSegment]
  omega

def sampleFirst (gdt : Gdt) : ThreadMachine where
  processor := ⟨⟨0, 0, 0, 0, 0, 0, 0, 0, 0, 0, 0, 0, 0, 0, 0, 0⟩, fun _ => 0, 0, gdt, 0, 0x2000⟩
  inKernel := true
  live := ∅
  proc := fun _ => kernelSegment
  saved := fun _ => ⟨0, 0, 0, 0, 0, 0, 0, 0, 0, 0, 0, 0, 0, 0, 0, 0⟩
  selected := none

/-- A thread is created and selected, and runs. -/
theorem sample_runs : ∃ first last machine, Starts sampleStack 0 first ∧
    Relation.ReflTransGen (Step sampleStack) first last ∧ last.inKernel = true ∧
    last.selected = some 0x4000 ∧ (last.saved 0x4000).eip = 0x200 ∧
    Relation.ReflTransGen (Step sampleStack) first machine ∧ machine.inKernel = false ∧
    machine.proc 0x4000 = sampleSegment ∧ ∃ next, Step sampleStack machine next := by
  obtain ⟨gdt, initialized, -⟩ := gdtInitialized_protected 0
  have starts : Starts sampleStack 0 (sampleFirst gdt) := ⟨rfl, initialized, rfl, rfl, rfl⟩
  have none : ∀ other, other ∉ (sampleFirst gdt).live := fun _ mem => mem
  obtain ⟨processor, result⟩ : ∃ processor, (sampleFirst gdt).processor.archCreateThreadContext
      0x4000 0x200 55 0x300 0x108000 0x1000 sampleSegment = some processor := ⟨_, rfl⟩
  have creates : Step sampleStack (sampleFirst gdt) _ :=
    .create 0x200 55 0x300 0x108000 0x1000 0x4000 sampleSegment rfl (by decide) (by decide)
      (fun other mem => absurd mem (none other)) (by decide)
      (fun other mem => absurd mem (none other))
      (fun _ other isNew address _ high reaches => by
        have isThread := isNew.resolve_right (none other)
        have low := sampleSegment_reaches reaches
        unfold sizeofArchContext at high
        omega)
      (fun other isNew => by
        have isThread := isNew.resolve_right (none other)
        unfold sizeofArchContext
        omega)
      result
  have kept := starts.kept.step creates
  obtain ⟨gdt', updated, -⟩ := kept.guarded.gives (by decide : sampleSegment.size ≠ 0)
  have selects : Step sampleStack _ _ :=
    .select 0x4000 rfl (Set.mem_insert _ _) (congrArg (Option.map _) updated)
  refine ⟨_, _, _, starts, .tail (.single creates) selects, rfl, rfl, rfl,
    .tail (.tail (.single creates) selects) (.leave 0x4000 rfl rfl), rfl, rfl, _,
    .interrupt 48 0 0x4000 rfl (by decide) rfl⟩

/-- In every run a program that computes, or is interrupted, changes nothing outside of the segment
of its process but for its own context and the stack of the kernel; the idle thread belongs to the
kernel. -/
theorem programs_confined {tss : BitVec 32} (starts : Starts kStack tss first)
    (run : Relation.ReflTransGen (Step kStack) first last) (user : last.inKernel = false)
    (step : Step kStack last machine) :
    ∃ running ∈ last.live, last.selected = some running ∧
      (∀ address, UserReach last.processor.gdt address ↔ (last.proc running).Reaches address) ∧
      (last.proc running ≠ kernelSegment → ∀ address,
        ¬ (last.proc running).Reaches address →
        (address < running ∨ running + sizeofArchContext ≤ address) →
        (address < kStack.start ∨ kStack.start + kStack.size ≤ address) →
          machine.processor.memory address = last.processor.memory address) ∧
      ∀ thread ∈ machine.live, thread ≠ running →
        (last.saved thread).SavedAt machine.processor.memory thread := by
  have kept := starts.kept.runs run
  obtain ⟨isUser, running, isSelected⟩ := kept.user user
  obtain ⟨mem, -, isEsp0, gives⟩ := kept.selected running isSelected
  have kept' := kept.step step
  have size := kStack.room
  have isStack := kept.interruptStack
  refine ⟨running, mem, isSelected, fun address => gives.userReach_iff, ?_, ?_⟩
  · intro isProgram address outside offContext offStack
    cases step with
    | compute regs memory _ privilege reach _ =>
        apply reach
        rwa [gives.userReach_iff]
    | interrupt num err thread _ aligned _ =>
        have off := kept.offStack running mem
        apply (interrupt_saved err isUser aligned isEsp0 (by omega) (by
          unfold sizeofArchContext at *
          omega)).2 address offContext
        rw [isStack]
        omega
    | store _ kernel => exact absurd (user.symm.trans kernel) Bool.false_ne_true
    | create _ _ _ _ _ _ _ kernel => exact absurd (user.symm.trans kernel) Bool.false_ne_true
    | setRetval _ _ kernel => exact absurd (user.symm.trans kernel) Bool.false_ne_true
    | select _ kernel => exact absurd (user.symm.trans kernel) Bool.false_ne_true
    | remove _ kernel => exact absurd (user.symm.trans kernel) Bool.false_ne_true
    | suspend _ _ _ kernel => exact absurd (user.symm.trans kernel) Bool.false_ne_true
    | leave _ kernel => exact absurd (user.symm.trans kernel) Bool.false_ne_true
  · intro thread threadMem different
    cases step with
    | compute regs memory _ privilege reach _ =>
        exact kept'.frames thread threadMem (.inr fun same =>
          different (Option.some.inj (same.symm.trans isSelected)))
    | interrupt num err interrupted _ aligned isInterrupted =>
        have same := Option.some.inj (isInterrupted.symm.trans isSelected)
        have frame := kept'.frames thread threadMem (.inl rfl)
        dsimp only at frame
        rw [same, Function.update_of_ne different] at frame
        exact frame
    | store _ kernel => exact absurd (user.symm.trans kernel) Bool.false_ne_true
    | create _ _ _ _ _ _ _ kernel => exact absurd (user.symm.trans kernel) Bool.false_ne_true
    | setRetval _ _ kernel => exact absurd (user.symm.trans kernel) Bool.false_ne_true
    | select _ kernel => exact absurd (user.symm.trans kernel) Bool.false_ne_true
    | remove _ kernel => exact absurd (user.symm.trans kernel) Bool.false_ne_true
    | suspend _ _ _ kernel => exact absurd (user.symm.trans kernel) Bool.false_ne_true
    | leave _ kernel => exact absurd (user.symm.trans kernel) Bool.false_ne_true

theorem programs_confined_sample : ∃ machine next : ThreadMachine, Step sampleStack machine next ∧
    ∃ running ∈ machine.live, machine.selected = some running ∧
      ∀ address, UserReach machine.processor.gdt address ↔
        (machine.proc running).Reaches address := by
  obtain ⟨first, -, machine, starts, -, -, -, -, run, user, -, next, step⟩ := sample_runs
  obtain ⟨running, mem, isSelected, reaches, -⟩ := programs_confined starts run user step
  exact ⟨machine, next, step, running, mem, isSelected, reaches⟩

end Results

end ThreadMachine

end Oseer
