import Oseer.LinkedList
import Oseer.Library.Turns
import Oseer.ThreadContext

/-!
# User threads

The threads of `programs/user_threads/uthread.c`, which a program manages itself: the kernel sees
one thread only.  A context is kept on the stack of its thread, and `arch_switch_to_uthread` saves
one and takes up another.
-/

namespace Oseer

/-- A stack in memory, which is a map of words. -/
structure Stack where
  esp : Nat
  memory : Nat → Nat

/-- `*( --esp ) = value`. -/
def Stack.push (value : Nat) (stack : Stack) : Stack where
  esp := stack.esp - 4
  memory := Function.update stack.memory (stack.esp - 4) value

/-- The processor, as far as a user thread goes. -/
structure Cpu extends Stack where
  eax : Nat
  ecx : Nat
  edx : Nat
  ebx : Nat
  ebp : Nat
  esi : Nat
  edi : Nat
  eflags : Nat
  eip : Nat

namespace Cpu

def push (value : Nat) (cpu : Cpu) : Cpu := { cpu with toStack := cpu.toStack.push value }

def pushfl (cpu : Cpu) : Cpu := cpu.push cpu.eflags

def pushal (cpu : Cpu) : Cpu :=
  let temp := cpu.esp
  (((((((cpu.push cpu.eax).push cpu.ecx).push cpu.edx).push cpu.ebx).push temp).push
    cpu.ebp).push cpu.esi).push cpu.edi

/-- The word of `esp` is skipped. -/
def popal (cpu : Cpu) : Cpu :=
  { cpu with
    edi := cpu.memory cpu.esp
    esi := cpu.memory (cpu.esp + 4)
    ebp := cpu.memory (cpu.esp + 8)
    ebx := cpu.memory (cpu.esp + 16)
    edx := cpu.memory (cpu.esp + 20)
    ecx := cpu.memory (cpu.esp + 24)
    eax := cpu.memory (cpu.esp + 28)
    esp := cpu.esp + 32 }

def popfl (cpu : Cpu) : Cpu :=
  { cpu with
    eflags := cpu.memory cpu.esp
    esp := cpu.esp + 4 }

def ret (cpu : Cpu) : Cpu :=
  { cpu with
    eip := cpu.memory cpu.esp
    esp := cpu.esp + 4 }

/-- The first half of `arch_switch_to_uthread`, before `esp` is stored; the label is where the
thread goes on. -/
def save (label : Nat) (cpu : Cpu) : Cpu := (cpu.push label).pushfl.pushal

/-- The second half of `arch_switch_to_uthread`. -/
def load (esp : Nat) (cpu : Cpu) : Cpu := ({ cpu with esp := esp } : Cpu).popal.popfl.ret

end Cpu

/-- `arch_create_uthread_context`. -/
def archCreateUthreadContext (func param threadExit : Nat) (stack stackSize : Nat)
    (memory : Nat → Nat) : Stack :=
  let context : Stack := ⟨stack + stackSize, memory⟩
  let context := ((context.push param).push threadExit).push func
  let context := context.push INIT_EFLAGS
  -- the eight registers of `popal`
  (((((((context.push 0).push 0).push 0).push 0).push 0).push 0).push 0).push 0

/-- The lists `active` and `ready`. -/
inductive UthreadList
  | active
  | ready
deriving DecidableEq

/-- The processor, the variables of `uthread.c`, and the members of the descriptors. -/
structure Uthreads where
  cpu : Cpu
  nextId : Nat
  lists : Lists UthreadList
  id : Ptr → Nat
  context : Ptr → Nat
  stack : Ptr → Nat

namespace Uthreads

/-- `uthreads_init`, where `main_thread` has this address. -/
def init (mainThread : Ptr) (threads : Uthreads) : Uthreads :=
  { threads with
    nextId := 1
    lists := ((threads.lists.listInit .active).listAppend .active mainThread).listInit .ready }

/-- The size of a stack, the address of `uthread_exit`, and where a thread goes on that has called
`arch_switch_to_uthread`. -/
structure Layout where
  THREAD_STACK_SIZE : Nat
  uthreadExit : Nat
  resume : Nat

variable (layout : Layout)

/-- `create_uthread`, with the addresses that `malloc` returns and the memory that it leaves. -/
def create (thread : Ptr) (stack : Nat) (memory : Nat → Nat) (func param : Nat)
    (threads : Uthreads) : Option Uthreads :=
  if thread = 0 then none
  else
    let context := archCreateUthreadContext func param layout.uthreadExit stack
      layout.THREAD_STACK_SIZE memory
    some { threads with
      cpu := { threads.cpu with memory := context.memory }
      nextId := threads.nextId + 1
      lists := threads.lists.listAppend .ready thread
      id := Function.update threads.id thread threads.nextId
      context := Function.update threads.context thread context.esp
      stack := Function.update threads.stack thread stack }

/-- `uthread_exit`, with the memory that `free` leaves; the context of the thread is stored where
nobody reads it. -/
def exit (memory : Nat → Nat) (threads : Uthreads) : Option Uthreads :=
  let curThread := threads.lists.listRemove .active FIRST 0
  let newThread := curThread.2.listRemove .ready FIRST 0
  if curThread.1 = 0 ∨ newThread.1 = 0 then none
  else
    let saved := ({ threads.cpu with memory := memory } : Cpu).save layout.resume
    some { threads with
      cpu := saved.load (threads.context newThread.1)
      lists := newThread.2.listAppend .active newThread.1 }

/-- `uthread_yield`. -/
def yield (threads : Uthreads) : Option Uthreads :=
  let curThread := threads.lists.listRemove .active FIRST 0
  let lists := curThread.2.listAppend .ready curThread.1
  let newThread := lists.listRemove .ready FIRST 0
  if curThread.1 = 0 ∨ newThread.1 = 0 then none
  else
    let saved := threads.cpu.save layout.resume
    let context := Function.update threads.context curThread.1 saved.esp
    some { threads with
      cpu := saved.load (context newThread.1)
      lists := newThread.2.listAppend .active newThread.1
      context := context }

/-- The thread that runs. -/
def self (threads : Uthreads) : Ptr := threads.lists.listGet .active FIRST

end Uthreads

section Frames

variable {memory memory' : Nat → Nat} {cpu saved : Cpu} {esp high label address : Nat}

/-- A context below this address, as `popal`, `popfl` and `ret` find it, and the stack above it. -/
structure Frame (memory : Nat → Nat) (high esp : Nat) (saved : Cpu) : Prop where
  isEsp : saved.esp = esp + 40
  edi : memory esp = saved.edi
  esi : memory (esp + 4) = saved.esi
  ebp : memory (esp + 8) = saved.ebp
  ebx : memory (esp + 16) = saved.ebx
  edx : memory (esp + 20) = saved.edx
  ecx : memory (esp + 24) = saved.ecx
  eax : memory (esp + 28) = saved.eax
  eflags : memory (esp + 32) = saved.eflags
  eip : memory (esp + 36) = saved.eip
  above : ∀ address, saved.esp ≤ address → address < high → memory address = saved.memory address

/-- The processor is as it was, with the same stack. -/
structure Resumes (cpu : Cpu) (high : Nat) (saved : Cpu) : Prop where
  esp : cpu.esp = saved.esp
  edi : cpu.edi = saved.edi
  esi : cpu.esi = saved.esi
  ebp : cpu.ebp = saved.ebp
  ebx : cpu.ebx = saved.ebx
  edx : cpu.edx = saved.edx
  ecx : cpu.ecx = saved.ecx
  eax : cpu.eax = saved.eax
  eflags : cpu.eflags = saved.eflags
  eip : cpu.eip = saved.eip
  above : ∀ address, saved.esp ≤ address → address < high → cpu.memory address = saved.memory address

theorem Frame.congr (frame : Frame memory high esp saved)
    (same : ∀ address, esp ≤ address → address < high → memory' address = memory address)
    (room : esp + 40 ≤ high) : Frame memory' high esp saved := by
  obtain ⟨isEsp, edi, esi, ebp, ebx, edx, ecx, eax, eflags, eip, above⟩ := frame
  refine ⟨isEsp, ?_, ?_, ?_, ?_, ?_, ?_, ?_, ?_, ?_, fun address later before => ?_⟩
  on_goal 10 =>
    rw [same address (by omega) before]
    exact above address later before
  all_goals
    rw [same _ (by omega) (by omega)]
    assumption

theorem Frame.load (frame : Frame cpu.memory high esp saved) :
    Resumes (cpu.load esp) high saved := by
  obtain ⟨isEsp, edi, esi, ebp, ebx, edx, ecx, eax, eflags, eip, above⟩ := frame
  exact ⟨by simp [Cpu.load, Cpu.popal, Cpu.popfl, Cpu.ret, isEsp], edi, esi, ebp, ebx, edx, ecx,
    eax, eflags, eip, above⟩

/-- What is saved is a frame, and nothing else changes in memory. -/
theorem Cpu.save_frame (high label : Nat) (room : 40 ≤ cpu.esp) :
    (cpu.save label).esp = cpu.esp - 40 ∧
      Frame (cpu.save label).memory high (cpu.esp - 40) { cpu with eip := label } ∧
      ∀ address, address < cpu.esp - 40 ∨ cpu.esp ≤ address →
        (cpu.save label).memory address = cpu.memory address := by
  obtain ⟨base, isEsp⟩ : ∃ base, cpu.esp = base + 40 := ⟨cpu.esp - 40, by omega⟩
  have others : ∀ address, address < cpu.esp - 40 ∨ cpu.esp ≤ address →
      (cpu.save label).memory address = cpu.memory address := by
    intro address outside
    rw [isEsp] at outside
    simp only [Cpu.save, Cpu.pushal, Cpu.pushfl, Cpu.push, Stack.push, isEsp]
    repeat rw [Function.update_of_ne (by omega)]
  have stored : (cpu.save label).esp = cpu.esp - 40 := by
    simp only [Cpu.save, Cpu.pushal, Cpu.pushfl, Cpu.push, Stack.push]
    omega
  refine ⟨stored, ?_, others⟩
  have split : base + 40 - 40 = base := by omega
  rw [isEsp, split]
  constructor
  case isEsp => exact isEsp
  case above => exact fun address later _ => others address (.inr later)
  all_goals
    simp [Cpu.save, Cpu.pushal, Cpu.pushfl, Cpu.push, Stack.push, isEsp]

/-- What `create_uthread` puts on a stack. -/
theorem archCreateUthreadContext_frame (high : Nat) {func param threadExit stack stackSize : Nat}
    (room : 48 ≤ stackSize) :
    let context := archCreateUthreadContext func param threadExit stack stackSize memory
    let start : Cpu := ⟨⟨stack + stackSize - 8, context.memory⟩, 0, 0, 0, 0, 0, 0, 0, INIT_EFLAGS, func⟩
    context.esp = stack + stackSize - 48 ∧ Frame context.memory high context.esp start ∧
      context.memory (stack + stackSize - 8) = threadExit ∧
      context.memory (stack + stackSize - 4) = param ∧
      ∀ address, address < stack + stackSize - 48 ∨ stack + stackSize ≤ address →
        context.memory address = memory address := by
  obtain ⟨base, isTop⟩ : ∃ base, stack + stackSize = base + 48 :=
    ⟨stack + stackSize - 48, by omega⟩
  dsimp only
  rw [isTop]
  have isEsp : (archCreateUthreadContext func param threadExit stack stackSize memory).esp = base := by
    simp [archCreateUthreadContext, Stack.push, isTop]
  refine ⟨by omega, ?_, ?_, ?_, fun address outside => ?_⟩
  · rw [isEsp]
    constructor
    case isEsp => simp
    case above => exact fun _ _ _ => rfl
    all_goals simp [archCreateUthreadContext, Stack.push, isTop]
  · simp [archCreateUthreadContext, Stack.push, isTop]
  · simp [archCreateUthreadContext, Stack.push, isTop]
  · simp only [archCreateUthreadContext, Stack.push, isTop]
    repeat rw [Function.update_of_ne (by omega)]

end Frames

end Oseer
