import Oseer.Sched

/-!
# The kernel: threads, processes and their objects

The variables of the kernel, and the part of `kernel/thread.c` and
`kernel/memory.c` that creates threads, ends them and frees their descriptors.
The allocators are not part of the state: a function that allocates is given
the addresses that it obtains, and blocks that are freed are recorded.  The
contexts of the threads, their code and the sizes of their stacks are left out.
-/

namespace Oseer

/-- The error numbers of `lib/errno.h` that the kernel functions return. -/
def SUCCESS : Int := 0
def E_NOT_FINISHED : Int := 5
def E_NOT_EXPIRED : Int := 6
def E_NOT_OWNER : Int := 7
def E_DONT_EXIST : Int := 9
def E_IGNORED : Int := 10
def E_INVALID_TYPE : Int := 11
def E_INVALID_HANDLE : Int := 12
def E_NO_MEMORY : Int := 14
def E_RETRY : Int := 15
def E_EMPTY : Int := 16
def E_TOO_BIG : Int := 17

/-- Bits of a word, in the table of used identifiers. -/
def WBITS : Nat := 32

/-- The number of identifiers, from the `Makefile`. -/
def MAX_RESOURCES : Nat := 1000

/-- A process descriptor; `start` is the member `m.start`. -/
structure Process where
  thrCount : Int
  pi : Ptr
  start : Ptr
  stackPool : Ptr
deriving DecidableEq, Repr

/-- A monitor, apart from its queue. -/
structure Monitor where
  lock : Bool
  owner : Ptr
deriving DecidableEq, Repr

/-- A message: `data` is what follows the header in memory. -/
structure Msg where
  type : Int
  size : Nat
  data : Nat → UInt8

/-- What a user keeps of a thread, in a `thread_t`. -/
structure Handle where
  thread : Ptr
  thrId : Nat
deriving DecidableEq, Repr

/-- The state of the kernel.  `idmask` is the table of used identifiers by bits,
`kfreed` and `ffsFreed` record the calls of `kfree` and of `ffs_free`, and the
`list` members of the messages are linked in `msgs`. -/
structure Kernel where
  sched : Sched
  allThreads : Lists Unit
  procs : Lists Unit
  processes : Ptr → Process
  idmask : Nat → Bool
  lastId : Nat
  kfreed : List Ptr
  ffsFreed : List (Ptr × Ptr)
  semValue : Ptr → Int
  monitors : Ptr → Monitor
  msgs : Lists MsgqId
  kmsgs : Ptr → Msg
  minPrio : MsgqId → Nat
  kgmsgqId : Ptr → Nat

namespace Kernel

/-- The descriptor of a thread. -/
def thread (kernel : Kernel) (thread : Ptr) : Thread := kernel.sched.threads thread

/-- `active_thread`. -/
def activeThread (kernel : Kernel) : Ptr := kernel.sched.activeThread

/-- Change one thread descriptor. -/
def setThread (thread : Ptr) (change : Thread → Thread) (kernel : Kernel) : Kernel :=
  { kernel with sched := kernel.sched.setThread thread change }

/-- `SET_ERRNO`: the error number of the active thread. -/
def setErrno (errnum : Int) (kernel : Kernel) : Kernel :=
  kernel.setThread kernel.activeThread fun descriptor => { descriptor with errno := -errnum }

/-- `EXIT` with a constant. -/
def exit (errnum : Int) (kernel : Kernel) : Int × Kernel :=
  (-errnum, kernel.setErrno errnum)

/-- `kfree`. -/
def kfree (block : Ptr) (kernel : Kernel) : Kernel :=
  { kernel with kfreed := block :: kernel.kfreed }

/-- `ffs_free`. -/
def ffsFree (pool block : Ptr) (kernel : Kernel) : Kernel :=
  { kernel with ffsFreed := (pool, block) :: kernel.ffsFreed }

/-- `kthreads_schedule`. -/
def kthreadsSchedule (kernel : Kernel) : Except Fault Kernel :=
  kernel.sched.kthreadsSchedule.map fun sched => { kernel with sched := sched }

/-- `kthread_enqueue` of the active thread. -/
def kthreadEnqueue (queue : QueueId) (kernel : Kernel) : Kernel :=
  { kernel with sched := kernel.sched.kthreadEnqueue 0 queue }

/-- `kthreadq_release`. -/
def kthreadqRelease (queue : QueueId) (kernel : Kernel) : Nat × Kernel :=
  let released := kernel.sched.kthreadqRelease queue
  (released.1, { kernel with sched := released.2 })

/-- `kthreadq_release_all`. -/
def kthreadqReleaseAll (queue : QueueId) (kernel : Kernel) : Nat × Kernel :=
  let released := kernel.sched.kthreadqReleaseAll queue
  (released.1, { kernel with sched := released.2 })

/-- The loop of `k_new_unique_id`, for at most `fuel` rounds.  `continue` goes on
with the test of the bit, for zero as well. -/
def newIdLoop (idmask : Nat → Bool) (starting : Nat) : Nat → Nat → Except Fault Nat
  | 0, _ => .error .noFreeId
  | fuel + 1, lastId =>
      let lastId := (lastId + 1) % MAX_RESOURCES
      if lastId = starting then .error .noFreeId
      else if MAX_RESOURCES / WBITS ≤ lastId / WBITS then .error .idOutOfRange
      else if idmask lastId then newIdLoop idmask starting fuel lastId
      else .ok lastId

/-- `k_new_unique_id`: the identifier is `lastId` afterwards. -/
def kNewUniqueId (kernel : Kernel) : Except Fault Kernel :=
  (newIdLoop kernel.idmask kernel.lastId MAX_RESOURCES kernel.lastId).map fun lastId =>
    { kernel with
      lastId := lastId
      idmask := Function.update kernel.idmask lastId true }

/-- `k_free_unique_id`. -/
def kFreeUniqueId (id : Nat) (kernel : Kernel) : Except Fault Kernel :=
  if id = 0 ∨ MAX_RESOURCES ≤ id then .error .badId
  else if MAX_RESOURCES / WBITS ≤ id / WBITS then .error .idOutOfRange
  else if kernel.idmask id then
    .ok { kernel with idmask := Function.update kernel.idmask id false }
  else .error .badId

/-- The loop of `k_msgq_clean`, for at most `fuel` messages. -/
def msgqCleanLoop (msgq : MsgqId) : Nat → Kernel → Kernel
  | 0, kernel => kernel
  | fuel + 1, kernel =>
      let removed := kernel.msgs.listRemove msgq FIRST 0
      let kernel := { kernel with msgs := removed.2 }
      if removed.1 = 0 then kernel
      else msgqCleanLoop msgq fuel (kernel.kfree removed.1)

/-- `k_msgq_clean`. -/
def kMsgqClean (msgq : MsgqId) (kernel : Kernel) : Kernel :=
  msgqCleanLoop msgq addressCount kernel

/-- `k_thr_msg_init`. -/
def kThrMsgInit (thread : Ptr) (kernel : Kernel) : Kernel :=
  { kernel with
    msgs := kernel.msgs.listInit (.thread thread)
    sched := { kernel.sched with
      queues := kernel.sched.queues.listInit (.thrq (.thread thread)) }
    minPrio := Function.update kernel.minPrio (.thread thread) 0 }

/-- The bounds that `kthread_create` puts on a priority. -/
def clampPrio (prio : Int) : Nat :=
  if prio < 0 then 0
  else if PRIO_LEVELS ≤ prio then PRIO_LEVELS - 1
  else prio.toNat

/-- The first stores of `kthread_create` in a new descriptor. -/
def newThread (id : Nat) (prio : Int) (descriptor : Thread) : Thread :=
  { descriptor with
    id := id
    state := .passive
    prio := clampPrio prio
    queue := none
    exitStatus := 0
    refCnt := 0 }

/-- The first part of `kthread_create`, up to `if ( run )`. -/
def initThread (kthread : Ptr) (prio : Int) (kernel : Kernel) : Kernel :=
  let kernel := kernel.setThread kthread (newThread kernel.lastId prio)
  { kernel with
    sched := { kernel.sched with queues := kernel.sched.queues.listInit (.join kthread) } }

/-- `if ( run )` in `kthread_create`. -/
def startThread (kthread : Ptr) (kernel : Kernel) : Kernel :=
  let kernel := { kernel with sched := kernel.sched.kthreadMoveToReady kthread LAST }
  kernel.setThread kthread fun descriptor => { descriptor with refCnt := 1 }

/-- The process that a new thread belongs to, and its stack. -/
def joinProcess (kthread stack proc : Ptr) (kernel : Kernel) : Kernel :=
  let kernel := kernel.setThread kthread fun descriptor => { descriptor with
    stack := stack
    proc := proc
    privateStorage := 0 }
  { kernel with
    processes := Function.update kernel.processes proc
      { kernel.processes proc with thrCount := (kernel.processes proc).thrCount + 1 } }

/-- The end of `kthread_create`: the list of all threads, and the scheduler. -/
def listThread (kthread : Ptr) (kernel : Kernel) : Kernel :=
  let kernel := { kernel with allThreads := kernel.allThreads.listAppend () kthread }
  kernel.setThread kthread fun descriptor => { descriptor with activated := false }

/-- `kthread_create` with the addresses of the stack and of the descriptor. -/
def kthreadCreate (stack kthread : Ptr) (prio : Int) (run : Bool) (proc : Ptr)
    (kernel : Kernel) : Except Fault Kernel :=
  if stack = 0 ∨ kthread = 0 then .error .noMemory
  else kernel.kNewUniqueId.map fun kernel =>
    let kernel := kernel.initThread kthread prio
    let kernel := if run then kernel.startThread kthread else kernel
    let kernel := kernel.joinProcess kthread stack proc
    (kernel.kThrMsgInit kthread).listThread kthread

/-- `kthread_remove_descriptor`. -/
def kthreadRemoveDescriptor (kthread : Ptr) (kernel : Kernel) : Except Fault Kernel :=
  (kernel.kFreeUniqueId (kernel.thread kthread).id).map fun kernel =>
    let kernel := kernel.setThread kthread fun descriptor => { descriptor with id := 0 }
    let kernel := { kernel with allThreads := (kernel.allThreads.listRemove () 0 kthread).2 }
    kernel.kfree kthread

/-- `kthread_delete_private_storage`. -/
def kthreadDeletePrivateStorage (kthread ps : Ptr) (kernel : Kernel) : Kernel :=
  if ps ≠ 0 then kernel.ffsFree (kernel.processes (kernel.thread kthread).proc).stackPool ps
  else kernel

/-- The release of the stack in `kthread_cancel`. -/
def releaseStack (kthread : Ptr) (kernel : Kernel) : Kernel :=
  let descriptor := kernel.thread kthread
  let proc := kernel.processes descriptor.proc
  if descriptor.stack ≠ 0 then
    if proc.start ≠ 0 then kernel.ffsFree proc.stackPool descriptor.stack
    else kernel.kfree descriptor.stack
  else kernel

/-- The removal of the process in `kthread_cancel`, after its last thread. -/
def removeProcess (kthread : Ptr) (kernel : Kernel) : Except Fault Kernel :=
  let proc := (kernel.thread kthread).proc
  if (kernel.processes proc).thrCount = 0 ∧ (kernel.processes proc).pi ≠ 0 then
    let kernel := kernel.kfree (kernel.processes proc).pi
    let removed := kernel.procs.listRemove () FIRST proc
    if removed.1 = 0 then .error .processNotListed
    else
      .ok (({ kernel with procs := removed.2 } : Kernel).kfree proc)
  else .ok kernel

/-- The stores of `kthread_cancel` in the descriptors of the thread and of its
process. -/
def endThread (kthread : Ptr) (exitStatus : Int) (kernel : Kernel) : Kernel :=
  let kernel := kernel.setThread kthread fun descriptor => { descriptor with
    refCnt := descriptor.refCnt - 1
    exitStatus := exitStatus }
  let proc := (kernel.thread kthread).proc
  { kernel with
    processes := Function.update kernel.processes proc
      { kernel.processes proc with thrCount := (kernel.processes proc).thrCount - 1 } }

/-- The release of all that the thread holds, in `kthread_cancel`. -/
def releaseResources (kthread : Ptr) (kernel : Kernel) : Except Fault Kernel :=
  let kernel := (kernel.kMsgqClean (.thread kthread)).releaseStack kthread
  let kernel := kernel.kthreadDeletePrivateStorage kthread
    (kernel.thread kthread).privateStorage
  kernel.removeProcess kthread

/-- The descriptor is freed, or kept for the threads that wait for its end. -/
def releaseDescriptor (kthread : Ptr) (kernel : Kernel) : Except Fault Kernel :=
  if (kernel.thread kthread).refCnt = 0 then kernel.kthreadRemoveDescriptor kthread
  else .ok (kernel.kthreadqReleaseAll (.join kthread)).2

/-- The part of `kthread_cancel` between the removal of the thread from its queue and
the call of `kthreads_schedule`. -/
def endAndRelease (kthread : Ptr) (exitStatus : Int) (kernel : Kernel) : Except Fault Kernel :=
  ((kernel.endThread kthread exitStatus).releaseResources kthread).bind
    (releaseDescriptor kthread)

/-- `kthread_cancel` of a thread that is in no queue any more. -/
def finishCancel (kthread : Ptr) (exitStatus : Int) (kernel : Kernel) :
    Except Fault (Int × Kernel) := do
  let kernel ← kernel.endAndRelease kthread exitStatus
  let kernel ← kernel.kthreadsSchedule
  return (SUCCESS, kernel)

/-- `kthreadq_remove` from the queue that the descriptor names. -/
def leaveQueue (kthread : Ptr) (kernel : Kernel) : Except Fault Kernel :=
  match (kernel.thread kthread).queue with
  | none => .error .nullQueue
  | some queue =>
      .ok { kernel with sched := (kernel.sched.kthreadqRemove queue kthread).2 }

/-- `kthread_cancel`. -/
def kthreadCancel (kthread : Ptr) (exitStatus : Int) (kernel : Kernel) :
    Except Fault (Int × Kernel) :=
  match (kernel.thread kthread).state with
  | .passive => .ok (SUCCESS, kernel)
  | .ready => do
      let kernel ← kernel.leaveQueue kthread
      let prio := (kernel.thread kthread).prio
      finishCancel kthread exitStatus { kernel with sched := kernel.sched.markIfEmpty prio }
  | .wait => do
      let kernel ← kernel.leaveQueue kthread
      kernel.finishCancel kthread exitStatus
  | .active =>
      if kthread ≠ kernel.activeThread then .ok (E_DONT_EXIST, kernel)
      else
        finishCancel kthread exitStatus
          (kernel.setThread kthread fun descriptor => { descriptor with state := .passive })

/-- The state of the kernel's memory before `kthreads_init`. -/
def boot : Kernel where
  sched :=
    { threads := fun _ =>
        { id := 0, prio := 0, qdata := 0, stack := 0, proc := 0, privateStorage := 0,
          exitStatus := 0, errno := 0, refCnt := 0, state := .passive, queue := none,
          activated := false }
      queues := ⟨fun _ => 0, fun _ => 0, fun _ => 0, fun _ => 0, fun _ => 0⟩
      rdyMask := fun _ => 0
      activeThread := 0 }
  allThreads := ⟨fun _ => 0, fun _ => 0, fun _ => 0, fun _ => 0, fun _ => 0⟩
  procs := ⟨fun _ => 0, fun _ => 0, fun _ => 0, fun _ => 0, fun _ => 0⟩
  processes := fun _ => ⟨0, 0, 0, 0⟩
  idmask := fun _ => false
  lastId := 0
  kfreed := []
  ffsFreed := []
  semValue := fun _ => 0
  monitors := fun _ => ⟨false, 0⟩
  msgs := ⟨fun _ => 0, fun _ => 0, fun _ => 0, fun _ => 0, fun _ => 0⟩
  kmsgs := fun _ => ⟨0, 0, fun _ => 0⟩
  minPrio := fun _ => 0
  kgmsgqId := fun _ => 0

/-- The part of `kthreads_init` before the idle thread is created: the lists are
empty, and `kernelProc` is the process `kernel_proc`. -/
def initLists (kernelProc : Ptr) (kernel : Kernel) : Kernel :=
  { kernel with
    allThreads := kernel.allThreads.listInit ()
    procs := kernel.procs.listInit ()
    sched := { kernel.sched with
      queues := (List.range PRIO_LEVELS).foldl
        (fun queues prio => queues.listInit (.ready prio)) kernel.sched.queues
      rdyMask := fun mask => if mask < RDY_MASKS then 0 else kernel.sched.rdyMask mask
      activeThread := 0 }
    processes := Function.update kernel.processes kernelProc
      { kernel.processes kernelProc with stackPool := 0, start := 0 } }

/-- `kthreads_init`: the idle thread is created, with priority zero. -/
def kthreadsInit (stack idle kernelProc : Ptr) (kernel : Kernel) : Except Fault Kernel :=
  ((kernel.initLists kernelProc).kthreadCreate stack idle 0 true kernelProc).bind
    kthreadsSchedule

/-- The stores of `kthread_start_process` in the descriptor of a new process, whose
program is loaded at `pi`. -/
def storeProcess (proc pi stackPool : Ptr) (kernel : Kernel) : Kernel :=
  { kernel with processes := Function.update kernel.processes proc ⟨0, pi, pi, stackPool⟩ }

/-- `list_append` of a process in `kthread_start_process`. -/
def listProcess (proc : Ptr) (kernel : Kernel) : Kernel :=
  { kernel with procs := kernel.procs.listAppend () proc }

/-- The part of `kthread_start_process` after the program is loaded at `pi`: the
process descriptor `proc` gets its first thread, at `kthread`. -/
def startProcess (proc pi stackPool stack kthread : Ptr) (prio : Int) (kernel : Kernel) :
    Except Fault Kernel :=
  ((kernel.storeProcess proc pi stackPool).kthreadCreate stack kthread prio true proc).bind
    fun kernel => (kernel.listProcess proc).kthreadsSchedule

end Kernel

end Oseer
