import Oseer.FirstFitRequest
import Oseer.Library.Results
import Oseer.RoundRobin
import Oseer.TimedStart
import Oseer.UniqueId

/-!
# The memory of a new thread

`kthread_create` takes a stack, a descriptor and an identifier, one after the other, and stops
the kernel if one of them is missing, before `sys__create_thread` can return an error.  The
stacks of a process are in a pool of its own; its words are kept apart from those of the kernel
heap here.
-/

namespace Oseer

open WordMemory FirstFit Results

/-- `sizeof (kthread_t)`. -/
def sizeofKthread : Nat := 216

/-- From the `Makefile`. -/
def DEFAULT_THREAD_STACK_SIZE : Nat := 0x1000

/-- The words of the kernel heap, and those of the stack pool of a process. -/
structure ThreadMemory where
  heap : Memory
  stackArea : Memory

/-- The pool serves the requests, one after the other. -/
def Serves (mpool : Nat) : List Nat → Memory → Prop
  | [], _ => True
  | size :: sizes, memory => ∃ answer, ffsAlloc mpool size memory = some answer ∧
      answer.1 ≠ 0 ∧ Serves mpool sizes answer.2

namespace ThreadMemory

/-- The part of `kthread_create` that finds a stack when none is given: its address and size.
`stackPool` is that of the process, and `threadStack` the member `thread_stack` of its
header. -/
def takeStack (mpool stackPool threadStack : Nat) (memory : ThreadMemory) :
    Option (Nat × Nat × ThreadMemory) :=
  if stackPool ≠ 0 then
    (ffsAlloc stackPool threadStack memory.stackArea).map fun answer =>
      (answer.1, threadStack, { memory with stackArea := answer.2 })
  else
    (ffsAlloc mpool DEFAULT_THREAD_STACK_SIZE memory.heap).map fun answer =>
      (answer.1, DEFAULT_THREAD_STACK_SIZE, { memory with heap := answer.2 })

/-- `kthread_create` of a ready thread with no stack given: the address of the descriptor, the
kernel and the memory. -/
def kthreadCreate (mpool threadStack : Nat) (sched prio : Int) (proc : Ptr)
    (memory : ThreadMemory) (kernel : Kernel) :
    Option (Except Fault (Nat × Kernel × ThreadMemory)) := do
  let stack ← memory.takeStack mpool (kernel.processes proc).stackPool threadStack
  if stack.1 = 0 ∨ stack.2.1 = 0 then
    return .error .noMemory
  let kthread ← ffsAlloc mpool sizeofKthread stack.2.2.heap
  if kthread.1 = 0 then
    return .error .noMemory
  return (kernel.kthreadCreate stack.1 kthread.1 prio true proc).bind fun kernel =>
    -- `ksched_thread_add`
    match SchedPolicy.ofInt sched with
    | none => .error .badPolicy
    | some _ => .ok (kthread.1, kernel, { stack.2.2 with heap := kthread.2 })

/-- `sys__create_thread`: the value returned, the kernel and the memory. -/
def sysCreateThread (mpool threadStack : Nat) (sched prio : Int) (memory : ThreadMemory)
    (kernel : Kernel) : Option (Except Fault (Int × Kernel × ThreadMemory)) :=
  let proc := (kernel.thread kernel.activeThread).proc
  (memory.kthreadCreate mpool threadStack sched prio proc kernel).map fun created =>
    created.bind fun result =>
      if result.1 = 0 then
        .ok (-E_NO_MEMORY, result.2.1.setErrno E_NO_MEMORY, result.2.2)
      else (result.2.1.setErrno SUCCESS).kthreadsSchedule.map fun kernel =>
        (-SUCCESS, kernel, result.2.2)

/-- All that a new thread needs is there: its policy, an identifier, a stack and a place for
its descriptor. -/
def Resources (mpool threadStack : Nat) (sched : Int) (memory : ThreadMemory)
    (kernel : Kernel) : Prop :=
  (SchedPolicy.ofInt sched).isSome ∧ kernel.Room ∧
    let stackPool := (kernel.processes (kernel.thread kernel.activeThread).proc).stackPool
    if stackPool ≠ 0 then
      threadStack ≠ 0 ∧ Serves stackPool [threadStack] memory.stackArea ∧
        Serves mpool [sizeofKthread] memory.heap
    else Serves mpool [DEFAULT_THREAD_STACK_SIZE, sizeofKthread] memory.heap

/-- The thread is created, or an error is returned and nothing is changed but the error
number. -/
def Clean (alive : Set Ptr) (memory : ThreadMemory) (kernel : Kernel)
    (outcome : Option (Except Fault (Int × Kernel × ThreadMemory))) : Prop :=
  (∃ kthread kernel' memory' members, outcome = some (.ok (-SUCCESS, kernel', memory')) ∧
    kthread ∉ alive ∧ Sound kernel'.sched (insert kthread alive) members ∧
    Running kernel'.sched (insert kthread alive) ∧
    kernel'.allThreads = kernel.allThreads.listAppend () kthread) ∨
  outcome = some (.ok (-E_NO_MEMORY, kernel.setErrno E_NO_MEMORY, memory))

/-- The state when a thread calls: the threads are in their queues, the table of identifiers is
sound, and the descriptors that are in use are blocks of the kernel heap. -/
structure Consistent (mpool low high : Nat) (blocks : List Tiling.Block) (free : List Nat)
    (alive : Set Ptr) (members : Members) (held : Set Nat) (memory : ThreadMemory)
    (kernel : Kernel) : Prop where
  heap : WellFormed mpool low high memory.heap blocks free
  sound : Sound kernel.sched alive members
  running : Running kernel.sched alive
  table : Kernel.Table kernel held
  descriptors : ∀ thread, thread ∈ alive ∨ members (.join thread) ≠ [] ∨
    members (.thrq (.thread thread)) ≠ [] →
      ∃ block ∈ blocks, block.used = true ∧ thread = block.addr + sizeT

variable {mpool low high threadStack : Nat} {blocks : List Tiling.Block} {free : List Nat}
  {alive : Set Ptr} {members : Members} {held : Set Nat} {memory : ThreadMemory}
  {kernel : Kernel} {sched prio : Int} {outcome : Int × Kernel × ThreadMemory}

section Steps

/-- The descriptor that `kthread_create` returns is never null. -/
theorem kthreadCreate_nonzero {proc : Ptr} {created : Nat × Kernel × ThreadMemory}
    (creates : memory.kthreadCreate mpool threadStack sched prio proc kernel =
      some (.ok created)) : created.1 ≠ 0 := by
  obtain ⟨stack, -, creates⟩ := Option.bind_eq_some_iff.mp creates
  dsimp only at creates
  split_ifs at creates
  · cases creates
  obtain ⟨kthread, -, creates⟩ := Option.bind_eq_some_iff.mp creates
  split_ifs at creates with noDescriptor
  · cases creates
  obtain ⟨kernel', -, creates⟩ := bind_ok (Option.some.inj creates)
  cases isPolicy : SchedPolicy.ofInt sched with
  | none =>
      rw [isPolicy] at creates
      cases creates
  | some policy =>
      rw [isPolicy] at creates
      obtain rfl := Except.ok.inj creates
      exact noDescriptor

/-- The steps of a call that returns. -/
theorem sysCreateThread_ok
    (returns : memory.sysCreateThread mpool threadStack sched prio kernel = some (.ok outcome)) :
    ∃ stack kthread kernel' policy,
      memory.takeStack mpool (kernel.processes (kernel.thread kernel.activeThread).proc).stackPool
        threadStack = some stack ∧ ¬ (stack.1 = 0 ∨ stack.2.1 = 0) ∧
      ffsAlloc mpool sizeofKthread stack.2.2.heap = some kthread ∧ kthread.1 ≠ 0 ∧
      kernel.kthreadCreate stack.1 kthread.1 prio true
        (kernel.thread kernel.activeThread).proc = .ok kernel' ∧
      SchedPolicy.ofInt sched = some policy ∧ outcome.1 = -SUCCESS := by
  obtain ⟨created, creates, finishes⟩ := Option.map_eq_some_iff.mp returns
  obtain ⟨result, rfl, finished⟩ := bind_ok finishes
  obtain ⟨stack, takes, creates⟩ := Option.bind_eq_some_iff.mp creates
  dsimp only at creates
  split_ifs at creates with noStack
  · cases creates
  obtain ⟨kthread, allocates, creates⟩ := Option.bind_eq_some_iff.mp creates
  split_ifs at creates with noDescriptor
  · cases creates
  obtain ⟨kernel', isNew, creates⟩ := bind_ok (Option.some.inj creates)
  cases isPolicy : SchedPolicy.ofInt sched with
  | none =>
      rw [isPolicy] at creates
      cases creates
  | some policy =>
      rw [isPolicy] at creates
      obtain rfl := Except.ok.inj creates
      rw [if_neg noDescriptor] at finished
      obtain ⟨last, -, rfl⟩ := map_ok finished
      exact ⟨stack, kthread, kernel', policy, takes, noStack, allocates, noDescriptor, isNew,
        rfl, rfl⟩

/-- What is needed is there if the call returns. -/
theorem resources_of_ok (table : Kernel.Table kernel held)
    (returns : memory.sysCreateThread mpool threadStack sched prio kernel = some (.ok outcome)) :
    memory.Resources mpool threadStack sched kernel := by
  obtain ⟨stack, kthread, kernel', policy, takes, hasStack, allocates, hasDescriptor, isNew,
    isPolicy, -⟩ := sysCreateThread_ok returns
  rw [not_or] at hasStack
  have room : kernel.Room := by
    rcases table.kNewUniqueId with ⟨id, -, after, inside, unused, -⟩ | ⟨fails, -⟩
    · exact ⟨id, after, inside, unused⟩
    · unfold Kernel.kthreadCreate at isNew
      rw [if_neg (by tauto), fails] at isNew
      cases isNew
  refine ⟨by rw [isPolicy]; rfl, room, ?_⟩
  unfold takeStack at takes
  dsimp only
  split_ifs at takes ⊢
  · obtain ⟨answer, serves, rfl⟩ := Option.map_eq_some_iff.mp takes
    exact ⟨hasStack.2, ⟨answer, serves, hasStack.1, trivial⟩, kthread, allocates, hasDescriptor,
      trivial⟩
  · obtain ⟨answer, serves, rfl⟩ := Option.map_eq_some_iff.mp takes
    exact ⟨answer, serves, hasStack.1, kthread, allocates, hasDescriptor, trivial⟩

end Steps

section Creation

/-- A block that the heap hands out comes into use; it is none of those in use before, which
stay. -/
theorem new_block {heap : Memory} {size : Nat} {answer : Nat × Memory}
    (wellFormed : WellFormed mpool low high heap blocks free) (fits : size + 11 < 2 ^ 32)
    (allocates : ffsAlloc mpool size heap = some answer) (nonzero : answer.1 ≠ 0) :
    answer.1 < addressCount ∧ ∃ blocks' free', WellFormed mpool low high answer.2 blocks' free' ∧
      (∃ taken ∈ blocks', taken.used = true ∧ answer.1 = taken.addr + sizeT) ∧
      ∀ block ∈ blocks, block.used = true → block ∈ blocks' ∧ answer.1 ≠ block.addr + sizeT := by
  rcases wellFormed.ffsAlloc fits with ⟨null, -⟩ |
    ⟨taken, heap', blocks', free', result, -, grants, wellFormed', -⟩
  · rw [null] at allocates
    obtain rfl := Option.some.inj allocates
    exact absurd rfl nonzero
  · rw [result] at allocates
    obtain rfl := Option.some.inj allocates
    have mem : taken ∈ blocks' := (grants.used_iff taken grants.used).mpr (.inl rfl)
    have bounds := wellFormed'.bounds mem
    refine ⟨?_, blocks', free', wellFormed', ⟨taken, mem, grants.used, rfl⟩,
      fun block memBlock used => ?_⟩
    · dsimp only
      unfold addressCount sizeT
      omega
    · have kept : block ∈ blocks' := (grants.used_iff block used).mpr (.inr memBlock)
      refine ⟨kept, fun same => ?_⟩
      have sameAddr : taken.addr = block.addr := Nat.add_right_cancel same
      rcases wellFormed'.apart kept mem with isTaken | apart
      · exact grants.fresh (isTaken ▸ memBlock)
      · have size := (wellFormed'.bounds kept).2.1
        omega

/-- The stack and the descriptor are taken, where they are there, and the descriptor is none of
those in use. -/
theorem Resources.taken (resources : memory.Resources mpool threadStack sched kernel)
    (heap : WellFormed mpool low high memory.heap blocks free) :
    ∃ stack kthread, memory.takeStack mpool
        (kernel.processes (kernel.thread kernel.activeThread).proc).stackPool threadStack =
          some stack ∧ ¬ (stack.1 = 0 ∨ stack.2.1 = 0) ∧
      ffsAlloc mpool sizeofKthread stack.2.2.heap = some kthread ∧ kthread.1 ≠ 0 ∧
      kthread.1 < addressCount ∧
      ∀ block ∈ blocks, block.used = true → kthread.1 ≠ block.addr + sizeT := by
  obtain ⟨-, -, served⟩ := resources
  unfold takeStack
  dsimp only at served ⊢
  split_ifs at served ⊢
  · obtain ⟨someSize, ⟨stack, takes, hasStack, -⟩, kthread, allocates, hasDescriptor, -⟩ := served
    obtain ⟨below, _, _, _, -, apart⟩ := new_block heap (by decide) allocates hasDescriptor
    refine ⟨_, kthread, by rw [takes]; rfl, not_or.mpr ⟨hasStack, someSize⟩, allocates,
      hasDescriptor, below, fun block mem used => (apart block mem used).2⟩
  · obtain ⟨stack, takes, hasStack, kthread, allocates, hasDescriptor, -⟩ := served
    obtain ⟨-, blocks', free', heap', -, keeps⟩ := new_block heap (by decide) takes hasStack
    obtain ⟨below, _, _, _, -, apart⟩ := new_block heap' (by decide) allocates hasDescriptor
    refine ⟨_, kthread, by rw [takes]; rfl, not_or.mpr ⟨hasStack, Nat.succ_ne_zero _⟩, allocates,
      hasDescriptor, below, fun block mem used => ?_⟩
    exact (apart block (keeps block mem used).1 used).2

/-- The stores of `kthread_create` put a descriptor that nobody uses in its ready queue. -/
theorem Consistent.kthreadCreate {stack kthread proc : Ptr}
    (consistent : Consistent mpool low high blocks free alive members held memory kernel)
    (room : kernel.Room) (hasStack : stack ≠ 0) (pointer : 0 < kthread ∧ kthread < addressCount)
    (apart : ∀ block ∈ blocks, block.used = true → kthread ≠ block.addr + sizeT) (prio : Int) :
    ∃ created, kernel.kthreadCreate stack kthread prio true proc = .ok created ∧
      kthread ∉ alive ∧ Sound created.sched (insert kthread alive)
        (enqueued members (.ready (Kernel.clampPrio prio)) kthread) ∧
      created.activeThread = kernel.activeThread ∧
      created.allThreads = kernel.allThreads.listAppend () kthread := by
  have notInUse : ¬ (kthread ∈ alive ∨ members (.join kthread) ≠ [] ∨
      members (.thrq (.thread kthread)) ≠ []) := by
    intro inUse
    obtain ⟨block, mem, used, same⟩ := consistent.descriptors kthread inUse
    exact apart block mem used same
  push Not at notInUse
  obtain ⟨dead, noJoin, noThrq⟩ := notInUse
  rcases consistent.table.kNewUniqueId with ⟨id, taken, -⟩ | ⟨-, noRoom⟩
  · have isNumbered : Sound { kernel with
        lastId := id, idmask := Function.update kernel.idmask id true }.sched alive members :=
      consistent.sound
    refine ⟨Kernel.created stack kthread prio proc _, ?_, dead,
      isNumbered.created dead noJoin noThrq pointer prio proc, rfl, rfl⟩
    unfold Kernel.kthreadCreate
    rw [if_neg (not_or.mpr ⟨hasStack, Nat.ne_of_gt pointer.1⟩), taken]
    rfl
  · exact absurd room noRoom

/-- The thread is created where all that it needs is there. -/
theorem Consistent.creates
    (consistent : Consistent mpool low high blocks free alive members held memory kernel)
    (resources : memory.Resources mpool threadStack sched kernel) (prio : Int) :
    Clean alive memory kernel (memory.sysCreateThread mpool threadStack sched prio kernel) := by
  obtain ⟨stack, kthread, takes, hasStack, allocates, hasDescriptor, below, apart⟩ :=
    resources.taken consistent.heap
  obtain ⟨isPolicy, room, -⟩ := resources
  obtain ⟨policy, isPolicy⟩ := Option.isSome_iff_exists.mp isPolicy
  generalize procIs : (kernel.thread kernel.activeThread).proc = proc at takes
  have pointer : 0 < kthread.1 ∧ kthread.1 < addressCount :=
    ⟨Nat.pos_of_ne_zero hasDescriptor, below⟩
  obtain ⟨created, creates, dead, sound, sameActive, listed⟩ :=
    @Consistent.kthreadCreate _ _ _ _ _ _ _ _ _ _ stack.1 kthread.1 proc consistent room
      (fun isNull => hasStack (.inl isNull)) pointer apart prio
  have quiet : Sound (created.sched.setThread created.activeThread fun descriptor =>
      { descriptor with errno := -SUCCESS }) (insert kthread.1 alive)
      (enqueued members (.ready (Kernel.clampPrio prio)) kthread.1) := by
    apply Sound.setThread_data sound <;> rfl
  have active : created.activeThread ∈ insert kthread.1 alive := by
    rw [sameActive]
    exact Set.mem_insert_of_mem _ consistent.running.mem_alive
  obtain ⟨sched', members', scheduled, sound', running', -⟩ :=
    quiet.kthreadsSchedule (fun _ => active) (.inr ⟨Kernel.clampPrio prio, by simp [enqueued]⟩)
  refine .inl ⟨kthread.1, { created.setErrno SUCCESS with sched := sched' },
    { stack.2.2 with heap := kthread.2 }, members', ?_, dead, sound', running', listed⟩
  have isCreated : memory.kthreadCreate mpool threadStack sched prio proc kernel =
      some (.ok (kthread.1, created, { stack.2.2 with heap := kthread.2 })) := by
    unfold ThreadMemory.kthreadCreate
    dsimp only
    rw [takes, Option.bind_eq_bind, Option.bind_some, if_neg hasStack, allocates]
    dsimp only [Option.bind_eq_bind, Option.bind_some]
    rw [if_neg hasDescriptor, creates, isPolicy]
    rfl
  have isScheduled : (created.setErrno SUCCESS).kthreadsSchedule =
      .ok { created.setErrno SUCCESS with sched := sched' } := by
    unfold Kernel.kthreadsSchedule Kernel.setErrno Kernel.setThread
    rw [scheduled]
    rfl
  unfold sysCreateThread
  dsimp only
  rw [procIs, isCreated, Option.map_some]
  unfold Except.bind
  dsimp only
  rw [if_neg hasDescriptor, isScheduled]
  rfl

/-- A thread is created, or nothing is changed, exactly where all that it needs is there. -/
theorem thread_creation_clean_iff
    (consistent : Consistent mpool low high blocks free alive members held memory kernel) :
    Clean alive memory kernel (memory.sysCreateThread mpool threadStack sched prio kernel) ↔
      memory.Resources mpool threadStack sched kernel := by
  constructor
  · rintro (⟨kthread, kernel', memory', members', returns, -⟩ | returns)
    · exact resources_of_ok consistent.table returns
    · exact resources_of_ok consistent.table returns
  · intro resources
    exact consistent.creates resources prio

end Creation

section Start

variable {segment size idle stack kernelProc : Nat} {area built heap heap' start : Memory}

theorem members_empty {sched : Sched} (sound : Sound sched {idle} members)
    (running : Running sched {idle}) (queue : QueueId) : members queue = [] := by
  apply List.eq_nil_iff_forall_not_mem.mpr
  intro thread mem
  have isIdle : thread = sched.activeThread :=
    (sound.mem_alive queue thread mem).trans (Eq.symm running.mem_alive)
  exact sound.active_free (isIdle ▸ running.active) mem

/-- `kthreads_init` with a new heap. -/
theorem kthreadsInit_consistent (fits : segment + size < 2 ^ 32)
    (init : ffsInit segment size start = some (mpool, built)) (success : mpool ≠ 0)
    (takesStack : ffsAlloc mpool DEFAULT_THREAD_STACK_SIZE built = some (stack, heap))
    (takesIdle : ffsAlloc mpool sizeofKthread heap = some (idle, heap')) (given : idle ≠ 0)
    (starts : Kernel.boot.kthreadsInit stack idle kernelProc = .ok kernel) :
    ∃ blocks free members held, Consistent mpool (mpool + sizeT) (highBorder segment size) blocks
      free {idle} members held ⟨heap', area⟩ kernel := by
  obtain ⟨created, creates, schedules⟩ := bind_ok starts
  obtain ⟨sched', scheduled, rfl⟩ := map_ok schedules
  generalize bootIs : Kernel.boot.initLists kernelProc = boot at creates
  have isBoot : boot.sched = Kernel.boot.sched := bootIs ▸ initLists_sched kernelProc
  have isEmpty : Kernel.Table boot ∅ := bootIs ▸ (Kernel.IdRun.start _ rfl rfl).table
  unfold Kernel.kthreadCreate at creates
  by_cases missing : stack = 0 ∨ idle = 0
  · rw [if_pos missing] at creates
    cases creates
  rw [if_neg missing] at creates
  rw [not_or] at missing
  -- the blocks of the idle thread
  obtain ⟨-, _, _, wellFormed, -, -⟩ :=
    new_block (ffsInit_wellFormed fits init success) (by decide) takesStack missing.1
  obtain ⟨below, blocks, free, wellFormed', isBlock, -⟩ :=
    new_block wellFormed (by decide) takesIdle given
  rcases isEmpty.kNewUniqueId with ⟨id, taken, after, inside, unused, -⟩ | ⟨fails, -⟩
  · rw [taken] at creates
    obtain rfl := Except.ok.inj creates
    have isNumbered : Sound { boot with
        lastId := id, idmask := Function.update boot.idmask id true }.sched ∅ fun _ => [] := by
      change Sound boot.sched ∅ fun _ => []
      rw [isBoot]
      exact boot_sound
    have table := isEmpty.alloc after inside
    generalize numberedIs : ({ boot with
      lastId := id, idmask := Function.update boot.idmask id true } : Kernel) = numbered
      at table isNumbered scheduled
    have sound : Sound (numbered.created stack idle 0 kernelProc).sched (insert idle ∅)
        (enqueued (fun _ => []) (.ready (Kernel.clampPrio 0)) idle) :=
      isNumbered.created (Set.notMem_empty _) rfl rfl ⟨Nat.pos_of_ne_zero given, below⟩ 0
        kernelProc
    rw [insert_empty_eq] at sound
    have noThread : numbered.sched.activeThread = 0 := by
      rw [← numberedIs]
      exact congrArg Sched.activeThread isBoot
    have passive : ((numbered.created stack idle 0 kernelProc).sched.threads
        (numbered.created stack idle 0 kernelProc).sched.activeThread).state ≠ .active := by
      change ((numbered.created stack idle 0 kernelProc).sched.threads
        numbered.sched.activeThread).state ≠ .active
      rw [noThread, Kernel.created_threads, Function.update_of_ne given.symm, ← numberedIs]
      change (boot.sched.threads 0).state ≠ .active
      rw [isBoot]
      decide
    obtain ⟨sched, members, result, sound', running, -⟩ := sound.kthreadsSchedule
      (fun active => absurd active passive) (.inr ⟨Kernel.clampPrio 0, by simp [enqueued]⟩)
    obtain rfl := Except.ok.inj (scheduled.symm.trans result)
    refine ⟨blocks, free, members, insert id ∅, wellFormed', sound', running,
      ⟨table.last, table.used, table.range⟩, fun thread inUse => ?_⟩
    rcases inUse with isIdle | waits | waits
    · rw [Set.mem_singleton_iff.mp isIdle]
      exact isBlock
    · exact absurd (members_empty sound' running _) waits
    · exact absurd (members_empty sound' running _) waits
  · rw [fails] at creates
    cases creates

/-- The idle thread creates a thread; the heap is in a segment of 32 KiB. -/
theorem thread_creation_clean_iff_sample : ∃ built heap heap' kernel,
    ffsInit 4096 32768 (fun _ => 0) = some (4096, built) ∧
    ffsAlloc 4096 DEFAULT_THREAD_STACK_SIZE built = some (32760, heap) ∧
    ffsAlloc 4096 sizeofKthread heap = some (32536, heap') ∧
    Kernel.boot.kthreadsInit 32760 32536 100 = .ok kernel ∧
    (Clean {32536} ⟨heap', fun _ => 0⟩ kernel
        (sysCreateThread 4096 0 0 5 ⟨heap', fun _ => 0⟩ kernel) ↔
      Resources 4096 0 0 ⟨heap', fun _ => 0⟩ kernel) := by
  have evaluated : (do
      let (mpool, built) ← ffsInit 4096 32768 (fun _ => 0)
      let (stack, heap) ← ffsAlloc 4096 DEFAULT_THREAD_STACK_SIZE built
      let (idle, _) ← ffsAlloc 4096 sizeofKthread heap
      return (mpool, stack, idle)) = some (4096, 32760, 32536) := by decide +kernel
  obtain ⟨⟨mpool, built⟩, init, evaluated⟩ := Option.bind_eq_some_iff.mp evaluated
  obtain ⟨⟨stack, heap⟩, takesStack, evaluated⟩ := Option.bind_eq_some_iff.mp evaluated
  obtain ⟨⟨idle, heap'⟩, takesIdle, evaluated⟩ := Option.bind_eq_some_iff.mp evaluated
  obtain ⟨rfl, rfl, rfl⟩ : mpool = 4096 ∧ stack = 32760 ∧ idle = 32536 := by
    simpa using Option.some.inj evaluated
  have starts : ((Kernel.boot.kthreadsInit 32760 32536 100).map fun _ => ()) = .ok () := by
    decide +kernel
  obtain ⟨kernel, starts, -⟩ := map_ok starts
  obtain ⟨blocks, free, members, held, consistent⟩ := kthreadsInit_consistent (by decide) init
    (by decide) takesStack takesIdle (by decide) starts
  exact ⟨built, heap, heap', kernel, init, takesStack, takesIdle, starts,
    thread_creation_clean_iff consistent⟩

/-- A segment of 8 KiB has no room for another stack. -/
theorem thread_creation_clean_iff_fail : ∃ built heap heap' kernel blocks free members held,
    ffsInit 4096 8192 (fun _ => 0) = some (4096, built) ∧
    ffsAlloc 4096 DEFAULT_THREAD_STACK_SIZE built = some (8184, heap) ∧
    ffsAlloc 4096 sizeofKthread heap = some (7960, heap') ∧
    Kernel.boot.kthreadsInit 8184 7960 100 = .ok kernel ∧
    Consistent 4096 4100 (highBorder 4096 8192) blocks free {7960} members held
      ⟨heap', fun _ => 0⟩ kernel ∧
    sysCreateThread 4096 0 0 5 ⟨heap', fun _ => 0⟩ kernel = some (.error .noMemory) ∧
    ¬ Clean {7960} ⟨heap', fun _ => 0⟩ kernel
      (sysCreateThread 4096 0 0 5 ⟨heap', fun _ => 0⟩ kernel) := by
  have evaluated : (do
      let (mpool, built) ← ffsInit 4096 8192 (fun _ => 0)
      let (stack, heap) ← ffsAlloc 4096 DEFAULT_THREAD_STACK_SIZE built
      let (idle, heap) ← ffsAlloc 4096 sizeofKthread heap
      let (more, _) ← ffsAlloc 4096 DEFAULT_THREAD_STACK_SIZE heap
      return (mpool, stack, idle, more)) = some (4096, 8184, 7960, 0) := by decide +kernel
  obtain ⟨⟨mpool, built⟩, init, evaluated⟩ := Option.bind_eq_some_iff.mp evaluated
  obtain ⟨⟨stack, heap⟩, takesStack, evaluated⟩ := Option.bind_eq_some_iff.mp evaluated
  obtain ⟨⟨idle, heap'⟩, takesIdle, evaluated⟩ := Option.bind_eq_some_iff.mp evaluated
  obtain ⟨⟨more, heap''⟩, noStack, evaluated⟩ := Option.bind_eq_some_iff.mp evaluated
  obtain ⟨rfl, rfl, rfl, rfl⟩ : mpool = 4096 ∧ stack = 8184 ∧ idle = 7960 ∧ more = 0 := by
    simpa using Option.some.inj evaluated
  have starts : ((Kernel.boot.kthreadsInit 8184 7960 100).map fun kernel =>
      (kernel.processes (kernel.thread kernel.activeThread).proc).stackPool) = .ok 0 := by
    decide +kernel
  obtain ⟨kernel, starts, noPool⟩ := map_ok starts
  obtain ⟨blocks, free, members, held, consistent⟩ := kthreadsInit_consistent (by decide) init
    (by decide) takesStack takesIdle (by decide) starts
  have kernelPool : ¬ (kernel.processes (kernel.thread kernel.activeThread).proc).stackPool ≠ 0 :=
    not_not.mpr noPool
  have halts : sysCreateThread 4096 0 0 5 ⟨heap', fun _ => 0⟩ kernel =
      some (.error .noMemory) := by
    unfold sysCreateThread ThreadMemory.kthreadCreate takeStack
    dsimp only
    rw [if_neg kernelPool, noStack]
    rfl
  refine ⟨built, heap, heap', kernel, blocks, free, members, held, init, takesStack, takesIdle,
    starts, consistent, halts, ?_⟩
  rw [halts]
  rintro (⟨_, _, _, _, returns, -⟩ | returns)
  · cases returns
  · cases returns

end Start

end ThreadMemory

end Oseer
