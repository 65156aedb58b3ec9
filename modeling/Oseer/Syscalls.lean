import Oseer.RoundRobin

/-!
# The entries to the kernel

The system calls on threads, on scheduling and on alarms, the timer interrupt,
and the start of the kernel.  What other system calls do with threads is that
the active thread waits in a queue, that threads are released from one, and that
a thread is moved from one to another.

A system call that allocates is given the addresses that it obtains.
-/

namespace Oseer

namespace World

/-- `SET_ERRNO`. -/
def setErrno (errnum : Int) : Prog World Unit :=
  Prog.modify fun world => world.onKernel (Kernel.setErrno errnum)

/-- `sys__create_thread`. -/
def sysCreateThread (sched prio : Int) (stack kthread : Ptr) : Prog World Unit :=
  match SchedPolicy.ofInt sched with
  | none => Prog.attempt fun _ => .error .badPolicy
  | some policy => do
      Prog.attempt fun world => world.kthreadCreate policy prio stack kthread
        (world.thread world.activeThread).proc
      setErrno SUCCESS
      kthreadsSchedule

/-- The part of `kthread_start_process` up to `kthreads_schedule`. -/
def startProcess (proc pi stackPool stack kthread : Ptr) (prio : Int) (world : World) :
    Except Fault World :=
  ((world.onKernel (Kernel.storeProcess proc pi stackPool)).kthreadCreate .fifo prio stack
    kthread proc).map (onKernel (Kernel.listProcess proc))

/-- `sys__start_program`. -/
def sysStartProgram (proc pi stackPool stack kthread : Ptr) (prio : Int) : Prog World Unit := do
  setErrno SUCCESS
  Prog.attempt (startProcess proc pi stackPool stack kthread prio)
  kthreadsSchedule

/-- The part of `kthread_cancel` between the removal of the thread from its queue and
the call of `kthreads_schedule`. -/
def endAndRelease (kthread : Ptr) (exitStatus : Int) (world : World) : Except Fault World :=
  (world.kernel.endAndRelease kthread exitStatus).map fun kernel =>
    { world with
      kernel := kernel
      life := Function.update world.life kthread
        (if (kernel.thread kthread).refCnt = 0 then .free else .ended) }

/-- `kthread_cancel` of a thread that is in no queue any more. -/
def finishCancel (kthread : Ptr) (exitStatus : Int) : Prog World Unit := do
  Prog.attempt (endAndRelease kthread exitStatus)
  kthreadsSchedule

/-- The removal of a ready thread from its queue in `kthread_cancel`. -/
def leaveReady (kthread : Ptr) (world : World) : Except Fault World :=
  (world.kernel.leaveQueue kthread).map fun kernel =>
    { world with kernel := { kernel with
      sched := kernel.sched.markIfEmpty (kernel.thread kthread).prio } }

/-- `kthread_cancel`. -/
def kthreadCancel (kthread : Ptr) (exitStatus : Int) : Prog World Unit := do
  let world ← Prog.get
  match (world.thread kthread).state with
  | .passive => pure ()
  | .ready => do
      Prog.attempt (leaveReady kthread)
      finishCancel kthread exitStatus
  | .wait => do
      Prog.attempt fun world =>
        (world.kernel.leaveQueue kthread).map fun kernel => { world with kernel := kernel }
      finishCancel kthread exitStatus
  | .active =>
      if kthread ≠ world.activeThread then pure ()
      else do
        Prog.modify fun world => world.onKernel fun kernel =>
          kernel.setThread kthread fun descriptor => { descriptor with state := .passive }
        finishCancel kthread exitStatus

/-- `sys__thread_exit`. -/
def sysThreadExit (status : Int) : Prog World Unit := do
  let world ← Prog.get
  kthreadCancel world.activeThread status
  kthreadsSchedule

/-- `sys__cancel_thread`, where `EXIT` evaluates `kthread_cancel` for the error number
and again for the value that is returned. -/
def sysCancelThread (handle : Handle) : Prog World Unit := do
  let world ← Prog.get
  if handle.thread = 0 then setErrno E_INVALID_HANDLE
  else if (world.thread handle.thread).id ≠ handle.thrId then setErrno SUCCESS
  else match (world.thread handle.thread).state with
    | .passive => setErrno SUCCESS
    | .active => setErrno E_INVALID_HANDLE
    | .ready | .wait => do
        kthreadCancel handle.thread (-1)
        setErrno SUCCESS
        kthreadCancel handle.thread (-1)

/-- The active thread waits in a queue. -/
def blockActive (queue : QueueId) : Prog World Unit := do
  Prog.modify fun world => world.onKernel (Kernel.kthreadEnqueue queue)
  kthreadsSchedule

/-- A thread is released from a queue. -/
def releaseOne (queue : QueueId) : Prog World Unit := do
  Prog.modify fun world => world.onKernel fun kernel => (kernel.kthreadqRelease queue).2
  kthreadsSchedule

/-- All threads are released from a queue. -/
def releaseAll (queue : QueueId) : Prog World Unit := do
  Prog.modify fun world => world.onKernel fun kernel => (kernel.kthreadqReleaseAll queue).2
  kthreadsSchedule

/-- `k_monitor_release` moves a thread from the queue of a condition to that of the
monitor. -/
def moveWaiting (queue monitor : Ptr) : Prog World Unit :=
  Prog.modify fun world => world.onSched fun sched =>
    let removed := sched.kthreadqRemove (.monitorQueue queue) 0
    if removed.1 = 0 then sched else removed.2.kthreadEnqueue removed.1 (.monitor monitor)

/-- The reference to a thread that the active thread is going to wait for. -/
def countJoin (kthread : Ptr) (world : World) : World :=
  world.onKernel fun kernel => kernel.setThread kthread fun descriptor =>
    { descriptor with refCnt := descriptor.refCnt + 1 }

/-- The end of `sys__wait_for_thread` for a thread that has ended. -/
def collectStatus (kthread : Ptr) (world : World) : Except Fault World :=
  let kernel := world.kernel.setThread kthread fun descriptor =>
    { descriptor with refCnt := descriptor.refCnt - 1 }
  if (kernel.thread kthread).refCnt = 0 then
    (kernel.kthreadRemoveDescriptor kthread).map fun kernel =>
      { world with
        kernel := kernel
        life := Function.update world.life kthread .free }
  else .ok { world with kernel := kernel }

/-- `sys__wait_for_thread`. -/
def sysWaitForThread (handle : Handle) (wait : Bool) : Prog World Unit := do
  let world ← Prog.get
  if handle.thread = 0 then setErrno E_INVALID_HANDLE
  else if (world.thread handle.thread).id ≠ handle.thrId then setErrno SUCCESS
  else if (world.thread handle.thread).state ≠ .passive then
    if wait then do
      Prog.modify (countJoin handle.thread)
      setErrno E_RETRY
      blockActive (.join handle.thread)
    else setErrno E_NOT_FINISHED
  else do
    setErrno SUCCESS
    Prog.attempt (collectStatus handle.thread)

/-- `rr_set_sched_parameters` and `rr_set_thread_sched_parameters`, if parameters are
given. -/
def setTimeSlice (params : Option Time) (world : World) : World :=
  match params with
  | none => world
  | some timeSlice => { world with timeSlice := timeSlice }

/-- The test of a policy that a system call is given: there must be a secondary
scheduler for it. -/
def ValidPolicy (policy : Int) : Prop := 0 < policy ∧ (SchedPolicy.ofInt policy).isSome

instance (policy : Int) : Decidable (ValidPolicy policy) := inferInstanceAs (Decidable (_ ∧ _))

/-- The tests of `sys__set_thread_sched_params`. -/
def ValidParams (handle : Handle) (policy prio : Int) (world : World) : Prop :=
  handle.thread ≠ 0 ∧ handle.thrId = (world.thread handle.thread).id ∧ ValidPolicy policy ∧
    0 < prio ∧ prio < PRIO_LEVELS

instance (handle : Handle) (policy prio : Int) (world : World) :
    Decidable (ValidParams handle policy prio world) := inferInstanceAs (Decidable (_ ∧ _))

/-- `sys__set_thread_sched_params`. -/
def sysSetThreadSchedParams (handle : Handle) (policy prio : Int) (params : Option Time) :
    Prog World Unit := do
  let world ← Prog.get
  if ¬ ValidParams handle policy prio world then setErrno E_INVALID_HANDLE
  else do
    Prog.modify fun world => world.kschedSetThreadPolicy handle.thread .rr
    kthreadSetPrio handle.thread prio.toNat
    Prog.modify (setTimeSlice params)

/-- `sys__set_sched_params`. -/
def sysSetSchedParams (policy : Int) (params : Option Time) : Prog World Unit :=
  if ¬ ValidPolicy policy then setErrno E_INVALID_HANDLE
  else Prog.modify (setTimeSlice params)

section Alarms

variable (threshold : Time) (fuel : Nat)

/-- Run a part of the kernel, with nested calls of `k_alarm_set`. -/
def perform (prog : Prog World Unit) (alarms : Alarms World) :
    Except Fault (Alarms World) :=
  (prog.run (Alarms.kAlarmSet (host threshold) fuel) alarms).map Prod.snd

/-- `sys__wait_for_alarm`. -/
def sysWaitForAlarm (id : Ptr) (wait : Nat) (alarms : Alarms World) :
    Except Fault (Alarms World) :=
  if id = 0 ∨ (alarms.kalarm id).magic ≠ ALARM_MAGIC then
    perform threshold fuel (setErrno E_INVALID_HANDLE) alarms
  else if (alarms.kalarm id).active then
    if wait &&& IPC_WAIT ≠ 0 then
      perform threshold fuel
        (do
          setErrno SUCCESS
          blockActive (.alarm id)) alarms
    else perform threshold fuel (setErrno E_NOT_EXPIRED) alarms
  else perform threshold fuel (setErrno SUCCESS) alarms

/-- `sys__alarm_set`. -/
def sysAlarmSet (id : Ptr) (alarm : Alarm) (alarms : Alarms World) : Except Fault (Alarms World) :=
  if id = 0 then perform threshold fuel (setErrno E_INVALID_HANDLE) alarms
  else Alarms.kAlarmSet (host threshold) fuel id alarm alarms

/-- `sys__alarm_remove`. -/
def sysAlarmRemove (id : Ptr) (alarms : Alarms World) : Except Fault (Alarms World) :=
  if id = 0 then perform threshold fuel (setErrno E_INVALID_HANDLE) alarms
  else alarms.kAlarmRemove (host threshold) fuel id

end Alarms

end World

/-- The entries to the kernel. -/
inductive Entry
  | createThread (sched prio : Int) (stack kthread : Ptr)
  | startProgram (proc pi stackPool stack kthread : Ptr) (prio : Int)
  | threadExit (status : Int)
  | kthreadCancel (kthread : Ptr) (status : Int)
  | cancelThread (handle : Handle)
  | waitForThread (handle : Handle) (wait : Bool)
  | block (queue : QueueId)
  | release (queue : QueueId)
  | releaseAll (queue : QueueId)
  | moveWaiting (queue monitor : Ptr)
  | setThreadSchedParams (handle : Handle) (policy prio : Int) (params : Option Time)
  | setSchedParams (policy : Int) (params : Option Time)
  | alarmNew (id : Ptr) (alarm : Alarm)
  | alarmSet (id : Ptr) (alarm : Alarm)
  | alarmRemove (id : Ptr)
  | waitForAlarm (id : Ptr) (wait : Nat)
  | timerInterrupt
deriving DecidableEq, Repr

namespace World

/-- The record of what was done starts again with each entry to the kernel. -/
def clearRecord (alarms : Alarms World) : Alarms World := { alarms with events := [] }

/-- One entry to the kernel. -/
def enter (threshold : Time) (fuel : Nat) (entry : Entry) (alarms : Alarms World) :
    Except Fault (Alarms World) :=
  let alarms := clearRecord alarms
  match entry with
  | .createThread sched prio stack kthread =>
      perform threshold fuel (sysCreateThread sched prio stack kthread) alarms
  | .startProgram proc pi stackPool stack kthread prio =>
      perform threshold fuel (sysStartProgram proc pi stackPool stack kthread prio) alarms
  | .threadExit status => perform threshold fuel (sysThreadExit status) alarms
  | .kthreadCancel kthread status => perform threshold fuel (kthreadCancel kthread status) alarms
  | .cancelThread handle => perform threshold fuel (sysCancelThread handle) alarms
  | .waitForThread handle wait =>
      perform threshold fuel (sysWaitForThread handle wait) alarms
  | .block queue => perform threshold fuel (blockActive queue) alarms
  | .release queue => perform threshold fuel (releaseOne queue) alarms
  | .releaseAll queue => perform threshold fuel (releaseAll queue) alarms
  | .moveWaiting queue monitor => perform threshold fuel (moveWaiting queue monitor) alarms
  | .setThreadSchedParams handle policy prio params =>
      perform threshold fuel (sysSetThreadSchedParams handle policy prio params) alarms
  | .setSchedParams policy params =>
      perform threshold fuel (sysSetSchedParams policy params) alarms
  | .alarmNew id alarm => alarms.kAlarmNew (host threshold) fuel id alarm true
  | .alarmSet id alarm => sysAlarmSet threshold fuel id alarm alarms
  | .alarmRemove id => sysAlarmRemove threshold fuel id alarms
  | .waitForAlarm id wait => sysWaitForAlarm threshold fuel id wait alarms
  | .timerInterrupt => alarms.kTimerInterrupt (host threshold) fuel

/-- The memory before the kernel starts. -/
def powerOn (clock : Nat → Time) (supply : Nat → Ptr × Ptr) : Alarms World where
  kalarms := ⟨fun _ => 0, fun _ => 0, fun _ => 0, fun _ => 0, fun _ => 0⟩
  kalarm := fun _ => ⟨⟨⟨0, 0⟩, 0, 0, 0, ⟨0, 0⟩⟩, false, 0, 0⟩
  world :=
    { kernel := Kernel.boot
      tsched := fun _ => ⟨.fifo, ⟨0, 0⟩, ⟨0, 0⟩, ⟨0, 0⟩⟩
      timeSlice := ⟨0, 50000000⟩
      rrAlarm := 0
      rrParams := ⟨⟨0, 0⟩, 0, 0, 0, ⟨0, 0⟩⟩
      clock := clock
      readings := 0
      delay := ⟨0, 0⟩
      supply := supply
      supplied := 0
      life := fun _ => .free }
  events := []

/-- `rr_init`, where the alarm is created at the address `rrAlarm`. -/
def rrInit (threshold : Time) (fuel : Nat) (rrAlarm : Ptr) (alarms : Alarms World) :
    Except Fault (Alarms World) :=
  let params : Alarm := ⟨⟨0, 0⟩, rrTimerAddress, 0, 0, ⟨0, 0⟩⟩
  (alarms.onWorld fun world => { world with
    rrParams := params
    rrAlarm := rrAlarm }).kAlarmNew (host threshold) fuel rrAlarm params false

/-- `k_time_init` and `kthreads_init`, where the idle thread is created at the address
`idle` and `kernelProc` is the address of `kernel_proc`. -/
def start (threshold : Time) (fuel : Nat) (rrAlarm stack idle kernelProc : Ptr)
    (clock : Nat → Time) (supply : Nat → Ptr × Ptr) : Except Fault (Alarms World) := do
  let alarms := (powerOn clock supply).kTimeInit.onWorld
    (onKernel (Kernel.initLists kernelProc))
  let alarms ← rrInit threshold fuel rrAlarm alarms
  perform threshold fuel
    (do
      Prog.attempt (kthreadCreate .fifo 0 stack idle kernelProc)
      kthreadsSchedule) (clearRecord alarms)

end World

end Oseer
