import Oseer.LinkedList
import Oseer.ReadyMask

/-!
# Threads, their queues and the scheduler

The part of `kernel/thread.c` that decides which thread runs: the states of
the threads, the queues they wait in, the multi-level ready list and
`kthreads_schedule`.  All threads are scheduled by `SCHED_FIFO`, for which
`kernel/sched.c` has no functions of its own.

A thread queue is named by the object it is a member of, and a thread by the
address of its descriptor.  A descriptor keeps its contents after it is freed.
-/

namespace Oseer

/-- The states of a thread. -/
inductive ThreadState
  | active
  | ready
  | wait
  | passive
deriving DecidableEq, Repr

/-- A message queue: a global one, or the one of a thread. -/
inductive MsgqId
  | global (queue : Ptr)
  | thread (thread : Ptr)
deriving DecidableEq, Repr

/-- The thread queues of the kernel. -/
inductive QueueId
  | ready (prio : Nat)
  | join (thread : Ptr)
  | sem (sem : Ptr)
  | monitor (monitor : Ptr)
  | monitorQueue (queue : Ptr)
  | thrq (queue : MsgqId)
  | alarm (alarm : Ptr)
deriving DecidableEq, Repr

/-- The fields of a thread descriptor that the scheduler does not change when
it moves the thread. -/
structure ThreadData where
  id : Nat
  prio : Nat
  qdata : Ptr
  stack : Ptr
  proc : Ptr
  privateStorage : Ptr
  exitStatus : Int
  errno : Int
  refCnt : Int
deriving DecidableEq, Repr

/-- A thread descriptor. -/
structure Thread extends ThreadData where
  state : ThreadState
  queue : Option QueueId
  activated : Bool
deriving DecidableEq, Repr

/-- The variables of the scheduler. -/
structure Sched where
  threads : Ptr → Thread
  queues : Lists QueueId
  rdyMask : Nat → Nat
  activeThread : Ptr

/-- Where the kernel stops, or does what the language does not define. -/
inductive Fault
  /-- `ASSERT` in `kthreads_schedule`: a thread to return to must exist. -/
  | noThreadToRun
  /-- `ASSERT` in `kthread_create`. -/
  | noMemory
  /-- `halt` in `k_new_unique_id`. -/
  | noFreeId
  /-- `ASSERT` in `k_free_unique_id`. -/
  | badId
  /-- An access past the end of `idmask`. -/
  | idOutOfRange
  /-- `ASSERT` in `kthread_cancel`: the process must be in `procs`. -/
  | processNotListed
  /-- `ASSERT` in `list_remove`: the list must not be the null pointer. -/
  | nullQueue
  /-- `ASSERT` in the alarm functions: the handle must be an alarm. -/
  | noAlarm
  /-- `ASSERT` in `ksched_thread_add`: the policy must exist. -/
  | badPolicy
  /-- A loop or a chain of nested calls that does not end. -/
  | endless
deriving DecidableEq, Repr

namespace Sched

/-- Change one thread descriptor. -/
def setThread (thread : Ptr) (change : Thread → Thread) (sched : Sched) : Sched :=
  { sched with
    threads := Function.update sched.threads thread (change (sched.threads thread)) }

/-- `kthreadq_append`. -/
def kthreadqAppend (queue : QueueId) (thread : Ptr) (sched : Sched) : Sched :=
  { sched with queues := sched.queues.listAppend queue thread }

/-- `kthreadq_prepend`. -/
def kthreadqPrepend (queue : QueueId) (thread : Ptr) (sched : Sched) : Sched :=
  { sched with queues := sched.queues.listPrepend queue thread }

/-- `kthreadq_remove`. -/
def kthreadqRemove (queue : QueueId) (thread : Ptr) (sched : Sched) : Ptr × Sched :=
  let removed := sched.queues.listRemove queue FIRST thread
  (removed.1, { sched with queues := removed.2 })

/-- `kthreadq_get`. -/
def kthreadqGet (queue : QueueId) (sched : Sched) : Ptr :=
  sched.queues.listGet queue FIRST

/-- `kthread_move_to_ready`. -/
def kthreadMoveToReady (thread : Ptr) (place : Nat) (sched : Sched) : Sched :=
  let prio := (sched.threads thread).prio
  let sched := sched.setThread thread fun descriptor =>
    { descriptor with state := .ready, queue := some (.ready prio) }
  let sched :=
    if place = LAST then sched.kthreadqAppend (.ready prio) thread
    else sched.kthreadqPrepend (.ready prio) thread
  { sched with rdyMask := ReadyMask.kthreadReadyListSetNotEmpty prio sched.rdyMask }

/-- The end of every removal from a ready list: an empty level is marked. -/
def markIfEmpty (prio : Nat) (sched : Sched) : Sched :=
  if sched.kthreadqGet (.ready prio) = 0 then
    { sched with rdyMask := ReadyMask.kthreadReadyListSetEmpty prio sched.rdyMask }
  else sched

/-- `kthread_remove_from_ready`. -/
def kthreadRemoveFromReady (thread : Ptr) (sched : Sched) : Ptr × Sched :=
  if thread = 0 then (0, sched)
  else
    let prio := (sched.threads thread).prio
    let sched := sched.setThread thread fun descriptor =>
      { descriptor with queue := some (.ready prio) }
    let removed := sched.kthreadqRemove (.ready prio) thread
    if removed.1 ≠ thread then (0, removed.2)
    else (thread, removed.2.markIfEmpty prio)

/-- `kthread_enqueue`; the active thread is meant by the null pointer. -/
def kthreadEnqueue (thread : Ptr) (queue : QueueId) (sched : Sched) : Sched :=
  let thread := if thread = 0 then sched.activeThread else thread
  let sched := sched.setThread thread fun descriptor =>
    { descriptor with state := .wait, queue := some queue }
  sched.kthreadqAppend queue thread

/-- `kthreadq_release`. -/
def kthreadqRelease (queue : QueueId) (sched : Sched) : Nat × Sched :=
  let removed := sched.kthreadqRemove queue 0
  if removed.1 ≠ 0 then (1, removed.2.kthreadMoveToReady removed.1 LAST)
  else (0, removed.2)

/-- The loop of `kthreadq_release_all`, for at most `fuel` threads. -/
def releaseLoop (queue : QueueId) : Nat → Sched → Nat × Sched
  | 0, sched => (0, sched)
  | fuel + 1, sched =>
      let released := sched.kthreadqRelease queue
      if released.1 = 0 then released
      else
        let rest := releaseLoop queue fuel released.2
        (rest.1 + 1, rest.2)

/-- `kthreadq_release_all`. -/
def kthreadqReleaseAll (queue : QueueId) (sched : Sched) : Nat × Sched :=
  sched.releaseLoop queue addressCount

/-- `ksched_deactivate_thread`. -/
def kschedDeactivateThread (thread : Ptr) (sched : Sched) : Sched :=
  sched.setThread thread fun descriptor => { descriptor with activated := false }

/-- `ksched_activate_thread`. -/
def kschedActivateThread (thread : Ptr) (sched : Sched) : Sched :=
  sched.setThread thread fun descriptor => { descriptor with activated := true }

/-- The first part of the change of the active thread in `kthreads_schedule`:
the last one leaves, and is put among the ready threads if it can still run. -/
def leaveActive (sched : Sched) : Sched :=
  let curr := sched.activeThread
  if curr ≠ 0 then
    let sched := sched.kschedDeactivateThread curr
    if (sched.threads curr).state = .active then sched.kthreadMoveToReady curr LAST
    else sched
  else sched

/-- The stores of `kthreads_schedule` that make a thread the active one. -/
def becomeActive (next : Ptr) (sched : Sched) : Sched :=
  let sched := { sched with activeThread := next }
  sched.setThread next fun descriptor => { descriptor with state := .active, queue := none }

/-- The end of a change of the active thread. -/
def makeActive (next : Ptr) (sched : Sched) : Sched :=
  (sched.becomeActive next).kschedActivateThread next

/-- The second part: the first thread of the highest level becomes active. -/
def enterActive (highest : Nat) (sched : Sched) : Except Fault Sched :=
  let removed := sched.kthreadqRemove (.ready highest) 0
  if removed.1 = 0 then .error .noThreadToRun
  else
    .ok ((removed.2.markIfEmpty highest).makeActive removed.1)

/-- `kthreads_schedule`. -/
def kthreadsSchedule (sched : Sched) : Except Fault Sched :=
  let curr := sched.activeThread
  let highest := ReadyMask.kthreadReadyListHighest sched.rdyMask
  if ¬ ((curr ≠ 0 ∧ (sched.threads curr).state = .active) ∨ 0 ≤ highest) then
    .error .noThreadToRun
  else if curr = 0 ∨ (sched.threads curr).state ≠ .active ∨
      ((sched.threads curr).prio : Int) < highest then
    sched.leaveActive.enterActive highest.toNat
  else .ok sched

/-- The store of `kthread_set_prio` in a descriptor. -/
def storePrio (thread : Ptr) (prio : Nat) (sched : Sched) : Sched :=
  sched.setThread thread fun descriptor => { descriptor with prio := prio }

/-- `kthread_set_prio`; the active thread is meant by the null pointer. -/
def kthreadSetPrio (thread : Ptr) (prio : Nat) (sched : Sched) :
    Except Fault (Nat × Sched) :=
  let thread := if thread = 0 then sched.activeThread else thread
  let oldPrio := (sched.threads thread).prio
  match (sched.threads thread).state with
  | .active => do
      let sched := (sched.storePrio thread prio).kthreadMoveToReady thread LAST
      return (oldPrio, ← sched.kthreadsSchedule)
  | .ready => do
      let sched := (sched.kthreadRemoveFromReady thread).2.storePrio thread prio
      let sched := sched.kthreadMoveToReady thread LAST
      return (oldPrio, ← sched.kthreadsSchedule)
  | .wait => .ok (oldPrio, sched.storePrio thread prio)
  | .passive => .ok (oldPrio, sched.storePrio thread prio)

end Sched

end Oseer
