import Oseer.Alarm
import Oseer.Kernel

/-!
# The kernel with round-robin scheduling

The functions of `kernel/sched.c` and `kernel/sched_rr.c`, and the functions of
`kernel/thread.c` and `kernel/time.c` that call them.  `rr_thread_activate`
sets an alarm of the kernel, and `k_alarm_set` may run `kthreads_schedule`
before it returns; these functions are programs of such calls.

The clock is a sequence of readings, and the addresses of the threads that
alarms create are a sequence of pairs of a stack and a descriptor.
-/

namespace Oseer

/-- The scheduling policies, `SCHED_FIFO` and `SCHED_RR`. -/
inductive SchedPolicy
  | fifo
  | rr
deriving DecidableEq, Repr

/-- The policy of a number below `SCHED_NUM`. -/
def SchedPolicy.ofInt (policy : Int) : Option SchedPolicy :=
  if policy = 0 then some .fifo else if policy = 1 then some .rr else none

/-- `kthread_sched_data_t`, apart from the flag `activated`. -/
structure SchedData where
  policy : SchedPolicy
  sliceStart : Time
  sliceEnd : Time
  remainder : Time
deriving DecidableEq, Repr

/-- What became of the thread with a descriptor. -/
inductive Life
  /-- There is no descriptor at the address. -/
  | free
  /-- The thread is created and has not ended. -/
  | living
  /-- The thread has ended; its descriptor is kept for its status. -/
  | ended
deriving DecidableEq, Repr

/-- The member `params.rr.threshold` of `ksched_rr`. -/
def rrThreshold : Time := ⟨0, 10000000⟩

/-- The address of the function `rr_timer`. -/
def rrTimerAddress : Ptr := 4

/-- The kernel, the members `time_slice`, `rr_alarm` and `alarm` of `ksched_rr`, the
clock and the timer.  `life` records the creation and the end of threads. -/
structure World where
  kernel : Kernel
  tsched : Ptr → SchedData
  timeSlice : Time
  rrAlarm : Ptr
  rrParams : Alarm
  clock : Nat → Time
  readings : Nat
  delay : Time
  supply : Nat → Ptr × Ptr
  supplied : Nat
  life : Ptr → Life

namespace World

/-- Change the kernel. -/
def onKernel (change : Kernel → Kernel) (world : World) : World :=
  { world with kernel := change world.kernel }

/-- Change the variables of the scheduler. -/
def onSched (change : Sched → Sched) (world : World) : World :=
  world.onKernel fun kernel => { kernel with sched := change kernel.sched }

/-- The descriptor of a thread. -/
def thread (world : World) (thread : Ptr) : Thread := world.kernel.thread thread

/-- `active_thread`. -/
def activeThread (world : World) : Ptr := world.kernel.activeThread

/-- Change the scheduling data of a thread. -/
def setSched (thread : Ptr) (change : SchedData → SchedData) (world : World) : World :=
  { world with tsched := Function.update world.tsched thread (change (world.tsched thread)) }

/-- `arch_get_time`. -/
def getTime (world : World) : Time × World :=
  (world.clock world.readings, { world with readings := world.readings + 1 })

section Threads

/-- `rr_thread_add`. -/
def rrThreadAdd (thread : Ptr) (world : World) : World :=
  world.setSched thread fun data => { data with remainder := world.timeSlice }

/-- The function `thread_add` of a policy, if there is one. -/
def threadAdd (policy : SchedPolicy) (thread : Ptr) (world : World) : World :=
  match policy with
  | .fifo => world
  | .rr => world.rrThreadAdd thread

/-- `ksched_set_thread_policy`; no policy has anything to remove. -/
def kschedSetThreadPolicy (thread : Ptr) (policy : SchedPolicy) (world : World) : World :=
  (world.setSched thread fun data => { data with policy := policy }).threadAdd policy thread

/-- `ksched_thread_add`; `kthread_create` stores the flag `activated`. -/
def kschedThreadAdd (thread : Ptr) (policy : SchedPolicy) (world : World) : World :=
  (world.setSched thread fun data => { data with policy := policy }).threadAdd policy thread

/-- `kthread_create`, with the addresses that the allocators return: that of the
descriptor is not in use. -/
def kthreadCreate (policy : SchedPolicy) (prio : Int) (stack kthread proc : Ptr)
    (world : World) : Except Fault World :=
  if world.life kthread ≠ .free ∨ addressCount ≤ kthread then .error .noMemory
  else (world.kernel.kthreadCreate stack kthread prio true proc).map fun kernel =>
    ({ world with
      kernel := kernel
      life := Function.update world.life kthread .living } : World).kschedThreadAdd kthread policy

/-- `kthread_create` in `k_schedule_alarms`, for the owner of an alarm. -/
def createThread (kalarm : KAlarm) (world : World) : Except Fault World :=
  let addresses := world.supply world.supplied
  let owner := world.thread kalarm.thread
  ({ world with supplied := world.supplied + 1 } : World).kthreadCreate .fifo (owner.prio + 1)
    addresses.1 addresses.2 owner.proc

end Threads

section Schedule

/-- The test in `rr_thread_activate` whether the remainder is to be replenished. -/
def replenish (thread : Ptr) (world : World) : World :=
  if Time.timeCmp (world.tsched thread).remainder rrThreshold ≤ 0 then
    world.setSched thread fun data =>
      { data with remainder := Time.timeAdd data.remainder world.timeSlice }
  else world

/-- The start of the slice in `rr_thread_activate`, and the parameters of the alarm for
its end. -/
def startSlice (thread : Ptr) (world : World) : World :=
  let reading := world.getTime
  let sliceEnd := Time.timeAdd reading.1 (world.tsched thread).remainder
  let world := reading.2.setSched thread fun data =>
    { data with sliceStart := reading.1, sliceEnd := sliceEnd }
  { world with rrParams := { world.rrParams with expTime := sliceEnd, param := thread } }

/-- `rr_thread_activate`. -/
def rrThreadActivate (thread : Ptr) : Prog World Unit := do
  Prog.modify fun world => (world.replenish thread).startSlice thread
  let world ← Prog.get
  Prog.setAlarm world.rrAlarm world.rrParams

/-- The function `thread_activate` of a policy, if there is one. -/
def threadActivate (policy : SchedPolicy) (thread : Ptr) : Prog World Unit :=
  match policy with
  | .fifo => pure ()
  | .rr => rrThreadActivate thread

/-- The store in `ksched_activate_thread`. -/
def storeActivated (thread : Ptr) (world : World) : World :=
  world.onSched fun sched => sched.kschedActivateThread thread

/-- `ksched_activate_thread`. -/
def kschedActivateThread (thread : Ptr) : Prog World Unit := do
  let world ← Prog.get
  if (world.thread thread).activated then pure ()
  else do
    threadActivate (world.tsched thread).policy thread
    Prog.modify fun world => world.storeActivated thread

/-- `kthread_move_to_ready`. -/
def kthreadMoveToReady (thread : Ptr) (place : Nat) (world : World) : World :=
  world.onSched fun sched => sched.kthreadMoveToReady thread place

/-- `rr_thread_deactivate`. -/
def rrThreadDeactivate (thread : Ptr) (world : World) : World :=
  let remainder := (world.tsched thread).remainder
  if remainder.sec + remainder.nsec ≠ 0 then
    let reading := world.getTime
    let rest := Time.timeSub (world.tsched thread).sliceEnd reading.1
    let world := reading.2.setSched thread fun data =>
      { data with sliceEnd := rest, remainder := rest }
    -- `kthread_is_ready`
    if (world.thread thread).state = .active ∨ (world.thread thread).state = .ready then
      if Time.timeCmp rest rrThreshold ≤ 0 then world.kthreadMoveToReady thread LAST
      else world.kthreadMoveToReady thread FIRST
    else world
  else world

/-- `ksched_deactivate_thread`. -/
def kschedDeactivateThread (thread : Ptr) (world : World) : World :=
  if (world.thread thread).activated then
    let world :=
      if (world.tsched thread).policy = .rr then world.rrThreadDeactivate thread else world
    world.onSched fun sched => sched.kschedDeactivateThread thread
  else world

/-- The first part of the change of the active thread in `kthreads_schedule`. -/
def leaveActive (world : World) : World :=
  let curr := world.activeThread
  if curr ≠ 0 then
    let world := world.kschedDeactivateThread curr
    if (world.thread curr).state = .active then world.kthreadMoveToReady curr LAST
    else world
  else world

/-- The second part, up to `ksched_activate_thread`. -/
def enterActive (highest : Nat) (world : World) : Except Fault World :=
  let removed := world.kernel.sched.kthreadqRemove (.ready highest) 0
  if removed.1 = 0 then .error .noThreadToRun
  else .ok (world.onSched fun _ => (removed.2.markIfEmpty highest).becomeActive removed.1)

/-- `kthreads_schedule`. -/
def kthreadsSchedule : Prog World Unit := do
  let world ← Prog.get
  let sched := world.kernel.sched
  let curr := sched.activeThread
  let highest := ReadyMask.kthreadReadyListHighest sched.rdyMask
  if ¬ ((curr ≠ 0 ∧ (sched.threads curr).state = .active) ∨ 0 ≤ highest) then
    Prog.attempt fun _ => .error .noThreadToRun
  else if curr = 0 ∨ (sched.threads curr).state ≠ .active ∨
      ((sched.threads curr).prio : Int) < highest then do
    Prog.attempt fun world => world.leaveActive.enterActive highest.toNat
    let world ← Prog.get
    kschedActivateThread world.activeThread
  else pure ()

/-- The stores of `rr_timer`. -/
def expire (thread : Ptr) (world : World) : World :=
  (world.setSched thread fun data => { data with remainder := ⟨0, 0⟩ }).kthreadMoveToReady
    thread LAST

/-- `rr_timer`. -/
def rrTimer (param : Ptr) : Prog World Unit := do
  let world ← Prog.get
  if world.activeThread ≠ param then pure ()
  else do
    Prog.modify fun world => world.expire param
    kthreadsSchedule

/-- `kthread_set_prio`. -/
def kthreadSetPrio (thread : Ptr) (prio : Nat) : Prog World Unit := do
  let world ← Prog.get
  match (world.thread thread).state with
  | .active => do
      Prog.modify fun world =>
        (world.onSched fun sched => sched.storePrio thread prio).kthreadMoveToReady thread LAST
      kthreadsSchedule
  | .ready => do
      Prog.modify fun world =>
        (world.onSched fun sched => (sched.kthreadRemoveFromReady thread).2.storePrio thread
          prio).kthreadMoveToReady thread LAST
      kthreadsSchedule
  | .wait => Prog.modify fun world => world.onSched fun sched => sched.storePrio thread prio
  | .passive => Prog.modify fun world => world.onSched fun sched => sched.storePrio thread prio

end Schedule

/-- What the alarm functions call, with the static variable `threshold`. -/
def host (threshold : Time) : Host World where
  getTime := getTime
  timerSet := fun delay world => { world with delay := delay }
  createThread := createThread
  initQueue := fun id world => world.onSched fun sched =>
    { sched with queues := sched.queues.listInit (.alarm id) }
  releaseAll := fun id world =>
    let released := world.kernel.kthreadqReleaseAll (.alarm id)
    (released.1, { world with kernel := released.2 })
  enqueue := fun thread id world => world.onSched fun sched =>
    sched.kthreadEnqueue thread (.alarm id)
  action := fun action param => if action = rrTimerAddress then rrTimer param else pure ()
  schedule := kthreadsSchedule
  setErrno := fun errnum world => world.onKernel (Kernel.setErrno errnum)
  activeThread := activeThread
  kfree := fun block world => world.onKernel (Kernel.kfree block)
  threshold := threshold

end World

end Oseer
