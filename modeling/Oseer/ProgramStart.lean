import Oseer.FirstFitInvariant
import Oseer.ThreadMemory

/-!
# Starting a program

`sys__start_program` copies the arguments into a block of the kernel heap, and
`kthread_start_process` then takes one for the process descriptor and one for the image.  Not
every exit gives them back.  What the blocks hold is left out, but for the stack pools.
-/

namespace Oseer

open WordMemory FirstFit Results

/-- A string of bytes other than zero. -/
abbrev CString := List UInt8

/-- A program that was loaded as a module, and what is read from its header. -/
structure KProg where
  progName : CString
  size : Nat
  heapSize : Nat
  stackSize : Nat
  threadStack : Nat
  prio : Int

/-- `proc->m.size`. -/
def KProg.imageSize (prog : KProg) : Nat :=
  add32 (add32 prog.size prog.heapSize) prog.stackSize

/-- `sizeof (kprocess_t)`. -/
def sizeofKprocess : Nat := 36

def THR_DEFAULT_PRIO : Int := 20

/-- The ways in which the kernel stops. -/
inductive StartFault
  | kernel (fault : Fault)
  /-- `ASSERT` in `ffs_init` and in `ffs_alloc`. -/
  | badPool
  /-- `ASSERT` in `ffs_free`: the chunk must not be null. -/
  | nullFree
  /-- A store through the null pointer, or behind the end of a block. -/
  | outsideBlock
deriving DecidableEq

/-- The kernel, its heap with the blocks that were taken and not freed, and the words of the
stack pools. -/
structure ProgramKernel where
  heap : HeapState
  stackArea : Memory
  kernel : Kernel

namespace ProgramKernel

/-- A pool answers, or its search does not end. -/
def searched {α : Type} : Option α → Except StartFault α
  | none => .error (.kernel .endless)
  | some answer => .ok answer

/-- `kmalloc`. -/
def kmalloc (mpool size : Nat) (state : ProgramKernel) : Except StartFault (Nat × ProgramKernel) :=
  (searched (ffsAlloc mpool size state.heap.memory)).map fun answer =>
    (answer.1, { state with heap := ⟨answer.2, if answer.1 = 0 then state.heap.live
      else (answer.1, size) :: state.heap.live⟩ })

/-- `kfree`. -/
def kfree (mpool block : Nat) (state : ProgramKernel) : Except StartFault ProgramKernel :=
  if block = 0 then .error .nullFree
  else .ok { state with heap := ⟨ffsFree mpool block state.heap.memory,
    state.heap.live.filter fun held => held.1 ≠ block⟩ }

/-- `EXIT` with a constant. -/
def exit (errnum : Int) (state : ProgramKernel) : Int × ProgramKernel :=
  (-errnum, { state with kernel := state.kernel.setErrno errnum })

/-- The bytes of the copied arguments: the pointers with the null pointer behind them, and the
strings. -/
def argSize (args : List CString) : Nat :=
  (args.length + 1) * 4 + (args.map fun arg => arg.length + 1).sum

/-- The arguments are copied into the kernel heap: the address of the copies. -/
def copyArgs (mpool : Nat) (param : Option (List CString)) (state : ProgramKernel) :
    Except StartFault (Nat × ProgramKernel) :=
  match param with
  | none => .ok (0, state)
  | some [] => .ok (0, state)
  | some args => do
    let (kargs, state) ← state.kmalloc mpool (argSize args % 2 ^ 32)
    -- a size that wraps gets a block that is too small
    if kargs = 0 ∨ 2 ^ 32 ≤ argSize args + 11 then throw .outsideBlock
    return (kargs, state)

/-- The arguments are copied to the stack pool of the process, and the copies in the kernel
heap are freed. -/
def passArgs (mpool stackPool kargs argsize : Nat) (state : ProgramKernel) :
    Except StartFault ProgramKernel := do
  if kargs = 0 then return state
  if stackPool = 0 then throw .badPool
  let (args, area) ← searched (ffsAlloc stackPool argsize state.stackArea)
  if args = 0 then throw .outsideBlock
  { state with stackArea := area }.kfree mpool kargs

/-- The first thread of the process `proc`. -/
def startThread (mpool threadStack : Nat) (prio : Int) (proc : Ptr) (state : ProgramKernel) :
    Except StartFault (Nat × ProgramKernel) := do
  let created ← searched (ThreadMemory.kthreadCreate mpool threadStack 0 prio proc
    ⟨state.heap.memory, state.stackArea⟩ state.kernel)
  let (kthread, kernel, memory) ← created.mapError .kernel
  let kernel' ← ((kernel.listProcess proc).kthreadsSchedule).mapError .kernel
  let live := if (kernel.processes proc).stackPool ≠ 0 then state.heap.live
    else ((kernel.thread kthread).stack, DEFAULT_THREAD_STACK_SIZE) :: state.heap.live
  return (kthread, ⟨⟨memory.heap, (kthread, sizeofKthread) :: live⟩, memory.stackArea, kernel'⟩)

/-- `kthread_start_process` after the image is there. -/
def loadProcess (mpool : Nat) (prog : KProg) (proc pi kargs argsize : Nat) (prio : Int)
    (state : ProgramKernel) : Except StartFault (Nat × ProgramKernel) :=
  let stack := add32 (add32 pi prog.size) prog.heapSize
  match ffsInit stack prog.stackSize state.stackArea with
  | none => .error .badPool
  | some (stackPool, area) => do
    let prio := if prio = 0 then prog.prio else prio
    let prio := if prio = 0 then THR_DEFAULT_PRIO else prio
    let state ← { state with stackArea := area }.passArgs mpool stackPool kargs argsize
    let kernel := state.kernel.storeProcess proc pi stackPool
    { state with kernel := kernel }.startThread mpool prog.threadStack prio proc

/-- `kthread_start_process`. -/
def kthreadStartProcess (mpool : Nat) (progs : List KProg) (progName : CString)
    (kargs argsize : Nat) (prio : Int) (state : ProgramKernel) :
    Except StartFault (Nat × ProgramKernel) :=
  match progs.find? (·.progName = progName) with
  | none => .ok (0, state)
  | some prog => do
    let (proc, state) ← state.kmalloc mpool sizeofKprocess
    if proc = 0 then throw (.kernel .noMemory)
    let (pi, state) ← state.kmalloc mpool prog.imageSize
    if pi = 0 then
      let state ← state.kfree mpool pi
      return (0, state)
    state.loadProcess mpool prog proc pi kargs argsize prio

/-- `sys__start_program`. -/
def sysStartProgram (mpool : Nat) (progs : List KProg) (progName : Option CString)
    (param : Option (List CString)) (prio : Int) (state : ProgramKernel) :
    Except StartFault (Int × ProgramKernel) :=
  match progName with
  | none => .ok (state.exit E_INVALID_HANDLE)
  | some progName => do
    let (kargs, state) ← state.copyArgs mpool param
    let state := { state with kernel := state.kernel.setErrno SUCCESS }
    let argsize := argSize (param.getD []) % 2 ^ 32
    let (kthread, state) ← state.kthreadStartProcess mpool progs progName kargs argsize prio
    if kthread = 0 then return state.exit E_NO_MEMORY
    return (-SUCCESS, state)

/-- The program is not found. -/
def NotFound (progs : List KProg) (progName : Option CString) : Prop :=
  ∃ name, progName = some name ∧ progs.find? (·.progName = name) = none

/-- The heap has no block for the image, after the arguments are copied and the process
descriptor is taken. -/
def NoImage (mpool : Nat) (progs : List KProg) (progName : Option CString)
    (param : Option (List CString)) (state : ProgramKernel) : Prop :=
  ∃ name prog copied described last, progName = some name ∧
    progs.find? (·.progName = name) = some prog ∧ state.copyArgs mpool param = .ok copied ∧
    copied.2.kmalloc mpool sizeofKprocess = .ok described ∧ described.1 ≠ 0 ∧
    described.2.kmalloc mpool prog.imageSize = .ok (0, last)

/-- The same blocks are in use, and the same processes and threads exist. -/
structure Unchanged (state state' : ProgramKernel) : Prop where
  live : state'.heap.live = state.heap.live
  procs : state'.kernel.procs = state.kernel.procs
  allThreads : state'.kernel.allThreads = state.kernel.allThreads

/-- A program that is not found, or has no memory for its image, gives an error; and where an
error is returned, nothing has changed. -/
structure FailsCleanly (fails : Prop) (state : ProgramKernel)
    (outcome : Except StartFault (Int × ProgramKernel)) : Prop where
  returns : fails → ∃ code state', outcome = .ok (code, state') ∧ code ≠ SUCCESS
  unchanged : ∀ code state', outcome = .ok (code, state') → code ≠ SUCCESS →
    Unchanged state state'

variable {mpool : Nat} {progs : List KProg} {progName : Option CString}
  {param : Option (List CString)} {prio : Int} {state : ProgramKernel}

section Exits

theorem exit_unchanged (errnum : Int) : Unchanged state (state.exit errnum).2 := ⟨rfl, rfl, rfl⟩

theorem kmalloc_eq {size : Nat} {answer : Nat × Memory}
    (search : ffsAlloc mpool size state.heap.memory = some answer) :
    state.kmalloc mpool size = .ok (answer.1, { state with heap := ⟨answer.2,
      if answer.1 = 0 then state.heap.live else (answer.1, size) :: state.heap.live⟩ }) := by
  unfold kmalloc
  rw [search]
  rfl

theorem kmalloc_kernel (size : Nat) (kernel : Kernel) :
    { state with kernel := kernel }.kmalloc mpool size = (state.kmalloc mpool size).map
      fun answer => (answer.1, { answer.2 with kernel := kernel }) := by
  unfold kmalloc searched
  cases ffsAlloc mpool size state.heap.memory with
  | none => rfl
  | some answer => rfl

theorem kmalloc_live {size : Nat} {answer : Nat × ProgramKernel}
    (takes : state.kmalloc mpool size = .ok answer) (nonzero : answer.1 ≠ 0) :
    answer.2.heap.live = (answer.1, size) :: state.heap.live := by
  obtain ⟨found, -, rfl⟩ := map_ok takes
  exact if_neg nonzero

theorem copyArgs_empty (empty : param.getD [] = []) : state.copyArgs mpool param = .ok (0, state) := by
  match param, empty with
  | none, _ => rfl
  | some [], _ => rfl

theorem kmalloc_step {size : Nat} {answer : Nat × ProgramKernel} (fits : size + 11 < 2 ^ 32)
    (takes : state.kmalloc mpool size = .ok answer) :
    HeapStep mpool state.heap answer.2.heap := by
  obtain ⟨found, search, rfl⟩ := map_ok takes
  apply HeapStep.alloc fits
  cases result : ffsAlloc mpool size state.heap.memory with
  | none =>
      rw [result] at search
      cases search
  | some pair =>
      rw [result] at search
      exact congrArg some (Except.ok.inj search)

/-- The copies of the arguments are in a block of their own. -/
theorem copyArgs_ok {copied : Nat × ProgramKernel} (given : param.getD [] ≠ [])
    (copies : state.copyArgs mpool param = .ok copied) :
    HeapStep mpool state.heap copied.2.heap ∧
      ∃ block, copied.2.heap.live = block :: state.heap.live := by
  match param with
  | none => exact absurd rfl given
  | some [] => exact absurd rfl given
  | some (arg :: args) =>
      obtain ⟨answer, takes, finishes⟩ := bind_ok copies
      dsimp only at finishes
      split at finishes
      · cases finishes
      · rename_i inside
        obtain rfl := Except.ok.inj finishes
        rw [not_or, not_le] at inside
        rw [Nat.mod_eq_of_lt (by omega)] at takes
        exact ⟨kmalloc_step inside.2 takes, _, kmalloc_live takes inside.1⟩

theorem sysStartProgram_notFound {name : CString} {copied : Nat × ProgramKernel}
    (unknown : progs.find? (·.progName = name) = none)
    (copies : state.copyArgs mpool param = .ok copied) :
    state.sysStartProgram mpool progs (some name) param prio = .ok
      ({ copied.2 with kernel := copied.2.kernel.setErrno SUCCESS }.exit E_NO_MEMORY) := by
  unfold sysStartProgram kthreadStartProcess
  dsimp only
  rw [copies, unknown]
  rfl

/-- The call when the image does not fit: the null pointer is freed. -/
theorem sysStartProgram_noImage (noImage : NoImage mpool progs progName param state) :
    state.sysStartProgram mpool progs progName param prio = .error .nullFree := by
  obtain ⟨name, prog, copied, described, last, rfl, found, copies, takes, nonzero, noMemory⟩ :=
    noImage
  unfold sysStartProgram kthreadStartProcess
  dsimp only
  rw [copies]
  dsimp only [Bind.bind, Except.bind]
  rw [found]
  dsimp only
  rw [kmalloc_kernel, takes]
  dsimp only [Except.map]
  rw [if_neg nonzero]
  dsimp only [Except.pure, Pure.pure]
  rw [kmalloc_kernel, noMemory]
  rfl

end Exits

section Success

theorem startThread_nonzero {threadStack : Nat} {proc : Ptr} {started : Nat × ProgramKernel}
    (starts : state.startThread mpool threadStack prio proc = .ok started) : started.1 ≠ 0 := by
  obtain ⟨answer, search, starts⟩ := bind_ok starts
  obtain ⟨created, creates, starts⟩ := bind_ok starts
  obtain ⟨kernel, -, starts⟩ := bind_ok starts
  obtain rfl := Except.ok.inj starts
  cases answer with
  | error fault => cases creates
  | ok answer =>
      obtain rfl := Except.ok.inj creates
      generalize attempted : ThreadMemory.kthreadCreate .. = attempt at search
      cases attempt with
      | none => cases search
      | some attempt =>
          obtain rfl := Except.ok.inj search
          exact ThreadMemory.kthreadCreate_nonzero attempted

theorem loadProcess_nonzero {prog : KProg} {proc pi kargs argsize : Nat}
    {started : Nat × ProgramKernel}
    (loads : state.loadProcess mpool prog proc pi kargs argsize prio = .ok started) :
    started.1 ≠ 0 := by
  unfold loadProcess at loads
  dsimp only at loads
  split at loads
  · cases loads
  · obtain ⟨passed, -, starts⟩ := bind_ok loads
    exact startThread_nonzero starts

/-- Where the program is found, a call that returns has started it. -/
theorem sysStartProgram_found {name : CString} {prog : KProg} {result : Int × ProgramKernel}
    (found : progs.find? (·.progName = name) = some prog)
    (returns : state.sysStartProgram mpool progs (some name) param prio = .ok result) :
    result.1 = SUCCESS := by
  obtain ⟨copied, -, returns⟩ := bind_ok returns
  obtain ⟨started, starts, returns⟩ := bind_ok returns
  have nonzero : started.1 ≠ 0 := by
    unfold kthreadStartProcess at starts
    rw [found] at starts
    obtain ⟨described, -, starts⟩ := bind_ok starts
    dsimp only at starts
    split at starts
    · cases starts
    obtain ⟨image, -, starts⟩ := bind_ok starts
    split at starts
    · rename_i isNull
      obtain ⟨freed, frees, -⟩ := bind_ok starts
      rw [kfree, if_pos isNull] at frees
      cases frees
    · exact loadProcess_nonzero starts
  dsimp only at returns
  rw [if_neg nonzero] at returns
  obtain rfl := Except.ok.inj returns
  rfl

end Success

section Clean

/-- The copies of the arguments stay in use if the program is not found. -/
theorem args_leak (notFound : NotFound progs progName) (given : param.getD [] ≠ []) :
    ¬ FailsCleanly (NotFound progs progName ∨ NoImage mpool progs progName param state) state
      (state.sysStartProgram mpool progs progName param prio) := by
  rintro ⟨returns, unchanged⟩
  obtain ⟨code, state', result, isError⟩ := returns (.inl notFound)
  obtain ⟨name, rfl, unknown⟩ := notFound
  obtain ⟨copied, copies, -⟩ := bind_ok result
  obtain ⟨-, block, leaked⟩ := copyArgs_ok given copies
  have kept := (unchanged code state' result isError).live
  have exits : state.sysStartProgram mpool progs (some name) param prio = .ok
      ({ copied.2 with kernel := copied.2.kernel.setErrno SUCCESS }.exit E_NO_MEMORY) :=
    sysStartProgram_notFound unknown copies
  have returned := exits.symm.trans result
  obtain rfl := congrArg Prod.snd (Except.ok.inj returned)
  change copied.2.heap.live = state.heap.live at kept
  rw [leaked] at kept
  exact List.cons_ne_self block _ kept

theorem image_stops (noImage : NoImage mpool progs progName param state) :
    ¬ FailsCleanly (NotFound progs progName ∨ NoImage mpool progs progName param state) state
      (state.sysStartProgram mpool progs progName param prio) := by
  rintro ⟨returns, -⟩
  obtain ⟨code, state', result, -⟩ := returns (.inr noImage)
  rw [sysStartProgram_noImage noImage] at result
  cases result

/-- A call fails cleanly exactly where the image is not too large, and no arguments are given to
a program that is not found. -/
theorem program_start_clean_iff :
    FailsCleanly (NotFound progs progName ∨ NoImage mpool progs progName param state) state
        (state.sysStartProgram mpool progs progName param prio) ↔
      ¬ NoImage mpool progs progName param state ∧
        (NotFound progs progName → param.getD [] = []) := by
  constructor
  · intro clean
    constructor
    · intro noImage
      exact image_stops noImage clean
    · intro notFound
      by_contra given
      exact args_leak notFound given clean
  · rintro ⟨image, noArgs⟩
    -- without arguments there is nothing to give back
    have missing : ∀ name, progName = some name → progs.find? (·.progName = name) = none →
        state.sysStartProgram mpool progs progName param prio = .ok
          ({ state with kernel := state.kernel.setErrno SUCCESS }.exit E_NO_MEMORY) := by
      rintro name rfl unknown
      exact sysStartProgram_notFound unknown (copyArgs_empty (noArgs ⟨name, rfl, unknown⟩))
    constructor
    · rintro (⟨name, isName, unknown⟩ | noImage)
      · exact ⟨_, _, missing name isName unknown, by decide⟩
      · exact absurd noImage image
    · intro code state' result isError
      cases progName with
      | none =>
          obtain rfl := congrArg Prod.snd (Except.ok.inj result)
          exact exit_unchanged E_INVALID_HANDLE
      | some name =>
          cases found : progs.find? (·.progName = name) with
          | none =>
              rw [missing name rfl found] at result
              obtain rfl := congrArg Prod.snd (Except.ok.inj result)
              exact ⟨rfl, rfl, rfl⟩
          | some prog => exact absurd (sysStartProgram_found found result) isError

/-- What a call with an error does to the heap; so a sound heap stays so, and the blocks in use
are its chunks in use. -/
theorem error_run {code : Int} {state' : ProgramKernel}
    (returns : state.sysStartProgram mpool progs progName param prio = .ok (code, state'))
    (isError : code ≠ SUCCESS) :
    Relation.ReflTransGen (HeapStep mpool) state.heap state'.heap := by
  cases progName with
  | none =>
      obtain rfl := congrArg Prod.snd (Except.ok.inj returns)
      exact .refl
  | some name =>
      cases found : progs.find? (·.progName = name) with
      | some prog => exact absurd (sysStartProgram_found found returns) isError
      | none =>
          obtain ⟨copied, copies, -⟩ := bind_ok returns
          rw [sysStartProgram_notFound found copies] at returns
          obtain rfl := congrArg Prod.snd (Except.ok.inj returns)
          change Relation.ReflTransGen (HeapStep mpool) state.heap copied.2.heap
          by_cases given : param.getD [] = []
          · rw [copyArgs_empty given] at copies
            obtain rfl := Except.ok.inj copies
            exact .refl
          · exact .single (copyArgs_ok given copies).1

theorem error_sound {code : Int} {state' : ProgramKernel} {high : Nat}
    (sound : FirstFit.Sound mpool high state.heap)
    (returns : state.sysStartProgram mpool progs progName param prio = .ok (code, state'))
    (isError : code ≠ SUCCESS) : FirstFit.Sound mpool high state'.heap :=
  sound.run (error_run returns isError)

/-- The program `x` is not there, and is asked for with the argument `a`; then it is there, and is
larger than the heap, which is in a segment of 8 KiB with the idle thread. -/
theorem program_start_clean_iff_fail : ∃ built heap heap' kernel,
    ffsInit 4096 8192 (fun _ => 0) = some (4096, built) ∧
    ffsAlloc 4096 DEFAULT_THREAD_STACK_SIZE built = some (8184, heap) ∧
    ffsAlloc 4096 sizeofKthread heap = some (7960, heap') ∧
    Kernel.boot.kthreadsInit 8184 7960 100 = .ok kernel ∧
    let state : ProgramKernel := ⟨⟨heap', [(7960, 216), (8184, 4096)]⟩, fun _ => 0, kernel⟩
    let progs : List KProg := [⟨[120], 8192, 4096, 4096, 1024, 0⟩]
    (¬ FailsCleanly (NotFound [] (some [120]) ∨ NoImage 4096 [] (some [120]) (some [[97]]) state)
      state (state.sysStartProgram 4096 [] (some [120]) (some [[97]]) 0)) ∧
    ¬ FailsCleanly (NotFound progs (some [120]) ∨ NoImage 4096 progs (some [120]) none state)
      state (state.sysStartProgram 4096 progs (some [120]) none 0) := by
  have evaluated : (do
      let (mpool, built) ← ffsInit 4096 8192 (fun _ => 0)
      let (stack, heap) ← ffsAlloc 4096 DEFAULT_THREAD_STACK_SIZE built
      let (idle, heap) ← ffsAlloc 4096 sizeofKthread heap
      let (proc, heap) ← ffsAlloc 4096 sizeofKprocess heap
      let (image, _) ← ffsAlloc 4096 16384 heap
      return (mpool, stack, idle, proc, image)) = some (4096, 8184, 7960, 7916, 0) := by
    decide +kernel
  obtain ⟨⟨mpool, built⟩, init, evaluated⟩ := Option.bind_eq_some_iff.mp evaluated
  obtain ⟨⟨stack, heap⟩, takesStack, evaluated⟩ := Option.bind_eq_some_iff.mp evaluated
  obtain ⟨⟨idle, heap'⟩, takesIdle, evaluated⟩ := Option.bind_eq_some_iff.mp evaluated
  obtain ⟨⟨proc, described⟩, takesProc, evaluated⟩ := Option.bind_eq_some_iff.mp evaluated
  obtain ⟨⟨image, last⟩, noMemory, evaluated⟩ := Option.bind_eq_some_iff.mp evaluated
  obtain ⟨rfl, rfl, rfl, rfl, rfl⟩ :
      mpool = 4096 ∧ stack = 8184 ∧ idle = 7960 ∧ proc = 7916 ∧ image = 0 := by
    simpa using Option.some.inj evaluated
  have starts : ((Kernel.boot.kthreadsInit 8184 7960 100).map fun _ => ()) = .ok () := by
    decide +kernel
  obtain ⟨kernel, starts, -⟩ := map_ok starts
  refine ⟨built, heap, heap', kernel, init, takesStack, takesIdle, starts, ?_, ?_⟩
  · exact args_leak ⟨[120], rfl, rfl⟩ (List.cons_ne_nil _ _)
  · apply image_stops
    exact ⟨[120], _, _, _, _, rfl, rfl, rfl, kmalloc_eq takesProc, Nat.succ_ne_zero _,
      @kmalloc_eq 4096 _ _ (0, last) noMemory⟩

end Clean

end ProgramKernel

end Oseer
