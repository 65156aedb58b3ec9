import Mathlib.Logic.Relation
import Oseer.Cancel
import Oseer.Library.Results

/-!
# Monitors and their owners

The functions of `kernel/monitor.c`, together with the creation and the end of
threads.  A monitor names its owner by the address of the thread's descriptor;
the descriptor of a thread that has ended may be used again by a later thread.

The rest of the kernel is an arbitrary change of its memory outside of the
monitors that exist.
-/

namespace Oseer

open Results

namespace Kernel

/-- `sys__thread_exit`. -/
def sysThreadExit (status : Int) (kernel : Kernel) : Except Fault Kernel := do
  let cancelled ← kernel.kthreadCancel kernel.activeThread status
  cancelled.2.kthreadsSchedule

/-- `sys__cancel_thread`, with the contents of the user's handle, if there is one.  `EXIT`
evaluates `kthread_cancel` for the error number and again for the value that is returned. -/
def sysCancelThread (thread : Option Handle) (kernel : Kernel) : Except Fault (Int × Kernel) :=
  match thread with
  | none => .ok (kernel.exit E_INVALID_HANDLE)
  | some thread =>
      if thread.thread = 0 then .ok (kernel.exit E_INVALID_HANDLE)
      else if (kernel.thread thread.thread).id ≠ thread.thrId then .ok (kernel.exit SUCCESS)
      else match (kernel.thread thread.thread).state with
        | .passive => .ok (kernel.exit SUCCESS)
        | .active => .ok (kernel.exit E_INVALID_HANDLE)
        | .ready | .wait => do
            let cancelled ← kernel.kthreadCancel thread.thread (-1)
            let again ← (cancelled.2.setErrno cancelled.1).kthreadCancel thread.thread (-1)
            return (-again.1, again.2)

end Kernel

/-- A thread: its descriptor, and how many threads had the descriptor up to it. -/
structure ThreadRef where
  kthread : Ptr
  birth : Nat
deriving DecidableEq, Repr

/-- The kernel with the monitors that exist.  `births` counts the calls of `kthread_create`
that returned a descriptor, and `given` is the thread that a monitor was last given to. -/
structure MonitorKernel where
  kernel : Kernel
  inUse : Ptr → Bool
  births : Ptr → Nat
  given : Ptr → Option ThreadRef

namespace MonitorKernel

/-- Change the kernel. -/
def onKernel (change : Kernel → Kernel) (state : MonitorKernel) : MonitorKernel :=
  { state with kernel := change state.kernel }

/-- `EXIT` with a constant. -/
def exit (errnum : Int) (state : MonitorKernel) : Int × MonitorKernel :=
  (-errnum, state.onKernel (Kernel.setErrno errnum))

/-- `kthreads_schedule`. -/
def kthreadsSchedule (state : MonitorKernel) : Except Fault MonitorKernel :=
  state.kernel.kthreadsSchedule.map fun kernel => { state with kernel := kernel }

/-- The thread that has a descriptor now. -/
def threadAt (kthread : Ptr) (state : MonitorKernel) : ThreadRef :=
  ⟨kthread, state.births kthread⟩

/-- The store in `lock` of a monitor. -/
def setLock (kmonitor : Ptr) (lock : Bool) (state : MonitorKernel) : MonitorKernel :=
  state.onKernel fun kernel => { kernel with
    monitors := Function.update kernel.monitors kmonitor
      { kernel.monitors kmonitor with lock := lock } }

/-- The store in `owner` of a monitor: it is given to the owner. -/
def setOwner (kmonitor owner : Ptr) (state : MonitorKernel) : MonitorKernel :=
  { state with
    kernel := { state.kernel with
      monitors := Function.update state.kernel.monitors kmonitor
        { state.kernel.monitors kmonitor with owner := owner } }
    given := Function.update state.given kmonitor
      (if owner = 0 then none else some (state.threadAt owner)) }

/-- `sys__monitor_init`, with the address that `kmalloc` returns. -/
def sysMonitorInit (monitor kmonitor : Ptr) (state : MonitorKernel) : Int × MonitorKernel :=
  if monitor = 0 then state.exit E_INVALID_HANDLE
  else if kmonitor = 0 then state.exit E_NO_MEMORY
  else
    let state := { state with inUse := Function.update state.inUse kmonitor true }
    let state := (state.setLock kmonitor false).setOwner kmonitor 0
    exit SUCCESS (state.onKernel fun kernel => { kernel with
      sched := { kernel.sched with
        queues := kernel.sched.queues.listInit (.monitor kmonitor) } })

/-- All threads are released from a queue, before the object that has it is freed. -/
def releaseWaiting (queue : QueueId) (state : MonitorKernel) : Except Fault MonitorKernel :=
  let released := state.kernel.kthreadqReleaseAll queue
  let state := { state with kernel := released.2 }
  if released.1 ≠ 0 then state.kthreadsSchedule else .ok state

/-- `sys__monitor_destroy`, with the member `ptr` of the user's monitor, if there is one. -/
def sysMonitorDestroy (monitor : Option Ptr) (state : MonitorKernel) :
    Except Fault (Int × MonitorKernel) :=
  let kmonitor := monitor.getD 0
  if kmonitor = 0 then .ok (state.exit E_INVALID_HANDLE)
  else (state.releaseWaiting (.monitor kmonitor)).map fun state => exit SUCCESS
    { state with
      kernel := state.kernel.kfree kmonitor
      inUse := Function.update state.inUse kmonitor false }

/-- `sys__monitor_queue_init`, with the address that `kmalloc` returns. -/
def sysMonitorQueueInit (queue kqueue : Ptr) (state : MonitorKernel) : Int × MonitorKernel :=
  if queue = 0 then state.exit E_INVALID_HANDLE
  else if kqueue = 0 then state.exit E_NO_MEMORY
  else exit SUCCESS (state.onKernel fun kernel => { kernel with
    sched := { kernel.sched with
      queues := kernel.sched.queues.listInit (.monitorQueue kqueue) } })

/-- `sys__monitor_queue_destroy`. -/
def sysMonitorQueueDestroy (queue : Option Ptr) (state : MonitorKernel) :
    Except Fault (Int × MonitorKernel) :=
  let kqueue := queue.getD 0
  if kqueue = 0 then .ok (state.exit E_INVALID_HANDLE)
  else (state.releaseWaiting (.monitorQueue kqueue)).map fun state =>
    exit SUCCESS (state.onKernel (Kernel.kfree kqueue))

/-- `sys__monitor_lock`. -/
def sysMonitorLock (monitor : Option Ptr) (state : MonitorKernel) :
    Except Fault (Int × MonitorKernel) :=
  let kmonitor := monitor.getD 0
  if kmonitor = 0 then .ok (state.exit E_INVALID_HANDLE)
  else
    let state := state.onKernel (Kernel.setErrno SUCCESS)
    if (state.kernel.monitors kmonitor).lock = false then
      .ok (-SUCCESS,
        (state.setLock kmonitor true).setOwner kmonitor state.kernel.activeThread)
    else
      (state.onKernel (Kernel.kthreadEnqueue (.monitor kmonitor))).kthreadsSchedule.map
        fun state => (-SUCCESS, state)

/-- The part that `sys__monitor_unlock` and `sys__monitor_wait` share: the first thread that
waits for the monitor becomes its owner, and is released. -/
def passOn (kmonitor : Ptr) (state : MonitorKernel) : Nat × MonitorKernel :=
  let state := state.setOwner kmonitor (state.kernel.sched.kthreadqGet (.monitor kmonitor))
  let released := state.kernel.kthreadqRelease (.monitor kmonitor)
  let state := { state with kernel := released.2 }
  (released.1, if released.1 = 0 then state.setLock kmonitor false else state)

/-- `sys__monitor_unlock`. -/
def sysMonitorUnlock (monitor : Option Ptr) (state : MonitorKernel) :
    Except Fault (Int × MonitorKernel) :=
  let kmonitor := monitor.getD 0
  if kmonitor = 0 then .ok (state.exit E_INVALID_HANDLE)
  else if (state.kernel.monitors kmonitor).owner ≠ state.kernel.activeThread then
    .ok (state.exit E_NOT_OWNER)
  else
    let passed := (state.onKernel (Kernel.setErrno SUCCESS)).passOn kmonitor
    if passed.1 = 0 then .ok (-SUCCESS, passed.2)
    else passed.2.kthreadsSchedule.map fun state => (-SUCCESS, state)

/-- `sys__monitor_wait`. -/
def sysMonitorWait (monitor queue : Option Ptr) (state : MonitorKernel) :
    Except Fault (Int × MonitorKernel) :=
  let kmonitor := monitor.getD 0
  let kqueue := queue.getD 0
  if kmonitor = 0 then .ok (state.exit E_INVALID_HANDLE)
  else if kqueue = 0 then .ok (state.exit E_INVALID_HANDLE)
  else if (state.kernel.monitors kmonitor).owner ≠ state.kernel.activeThread then
    .ok (state.exit E_NOT_OWNER)
  else
    let state := state.onKernel fun kernel =>
      ((kernel.setErrno SUCCESS).setThread kernel.activeThread fun descriptor =>
        { descriptor with qdata := kmonitor }).kthreadEnqueue (.monitorQueue kqueue)
    (state.passOn kmonitor).2.kthreadsSchedule.map fun state => (-SUCCESS, state)

/-- The loop of `k_monitor_release`, for at most `fuel` threads: whether a thread became
ready. -/
def monitorReleaseLoop (kqueue : Ptr) (broadcast : Bool) :
    Nat → Bool → MonitorKernel → Bool × MonitorKernel
  | 0, reschedule, state => (reschedule, state)
  | fuel + 1, reschedule, state =>
      let kthr := state.kernel.sched.kthreadqGet (.monitorQueue kqueue)
      if kthr = 0 then (reschedule, state)
      else
        let kmonitor := (state.kernel.thread kthr).qdata
        if (state.kernel.monitors kmonitor).lock = false then
          -- the thread becomes the owner
          let state := ((state.setLock kmonitor true).setOwner kmonitor kthr).onKernel
            fun kernel => (kernel.kthreadqRelease (.monitorQueue kqueue)).2
          if broadcast then monitorReleaseLoop kqueue broadcast fuel true state
          else (true, state)
        else
          -- the thread waits for the monitor
          let removed := state.kernel.sched.kthreadqRemove (.monitorQueue kqueue) 0
          let state := state.onKernel fun kernel =>
            { kernel with sched := removed.2.kthreadEnqueue removed.1 (.monitor kmonitor) }
          if removed.1 ≠ 0 ∧ broadcast then
            monitorReleaseLoop kqueue broadcast fuel reschedule state
          else (reschedule, state)

/-- `k_monitor_release`. -/
def kMonitorRelease (queue : Option Ptr) (broadcast : Bool) (state : MonitorKernel) :
    Except Fault (Int × MonitorKernel) :=
  let kqueue := queue.getD 0
  if kqueue = 0 then .ok (state.exit E_INVALID_HANDLE)
  else
    let released := state.monitorReleaseLoop kqueue broadcast addressCount false
    let state := released.2.onKernel (Kernel.setErrno SUCCESS)
    if released.1 then state.kthreadsSchedule.map fun state => (-SUCCESS, state)
    else .ok (-SUCCESS, state)

/-- `sys__monitor_signal`. -/
def sysMonitorSignal (queue : Option Ptr) (state : MonitorKernel) :
    Except Fault (Int × MonitorKernel) :=
  state.kMonitorRelease queue false

/-- `sys__monitor_broadcast`. -/
def sysMonitorBroadcast (queue : Option Ptr) (state : MonitorKernel) :
    Except Fault (Int × MonitorKernel) :=
  state.kMonitorRelease queue true

/-- `kthread_create`. -/
def kthreadCreate (prio : Int) (stack kthread proc : Ptr) (state : MonitorKernel) :
    Except Fault MonitorKernel :=
  (state.kernel.kthreadCreate stack kthread prio true proc).map fun kernel =>
    { state with
      kernel := kernel
      births := Function.update state.births kthread (state.births kthread + 1) }

/-- `sys__create_thread`. -/
def sysCreateThread (prio : Int) (stack kthread : Ptr) (state : MonitorKernel) :
    Except Fault (Int × MonitorKernel) := do
  let proc := (state.kernel.thread state.kernel.activeThread).proc
  let state ← state.kthreadCreate prio stack kthread proc
  let state ← (state.onKernel (Kernel.setErrno SUCCESS)).kthreadsSchedule
  return (-SUCCESS, state)

/-- The kernel after `kthreads_init`, with the idle thread and no monitor. -/
def start (stack idle kernelProc : Ptr) : Except Fault MonitorKernel :=
  let state : MonitorKernel := ⟨Kernel.boot.initLists kernelProc, fun _ => false, fun _ => 0,
    fun _ => none⟩
  (state.kthreadCreate 0 stack idle kernelProc).bind kthreadsSchedule

end MonitorKernel

/-- The system calls on monitors, what creates and ends threads, and any change of the kernel
outside of the monitors. -/
inductive MonitorEntry
  | monitorInit (monitor kmonitor : Ptr)
  | monitorDestroy (monitor : Option Ptr)
  | monitorQueueInit (queue kqueue : Ptr)
  | monitorQueueDestroy (queue : Option Ptr)
  | monitorLock (monitor : Option Ptr)
  | monitorUnlock (monitor : Option Ptr)
  | monitorWait (monitor queue : Option Ptr)
  | monitorSignal (queue : Option Ptr)
  | monitorBroadcast (queue : Option Ptr)
  | createThread (prio : Int) (stack kthread : Ptr)
  | kthreadCreate (prio : Int) (stack kthread proc : Ptr)
  | threadExit (status : Int)
  | cancelThread (thread : Option Handle)
  | other (kernel : Kernel)

/-- One entry: the value returned and the new state. -/
def MonitorKernel.enter (entry : MonitorEntry) (state : MonitorKernel) :
    Except Fault (Int × MonitorKernel) :=
  match entry with
  | .monitorInit monitor kmonitor => .ok (state.sysMonitorInit monitor kmonitor)
  | .monitorDestroy monitor => state.sysMonitorDestroy monitor
  | .monitorQueueInit queue kqueue => .ok (state.sysMonitorQueueInit queue kqueue)
  | .monitorQueueDestroy queue => state.sysMonitorQueueDestroy queue
  | .monitorLock monitor => state.sysMonitorLock monitor
  | .monitorUnlock monitor => state.sysMonitorUnlock monitor
  | .monitorWait monitor queue => state.sysMonitorWait monitor queue
  | .monitorSignal queue => state.sysMonitorSignal queue
  | .monitorBroadcast queue => state.sysMonitorBroadcast queue
  | .createThread prio stack kthread => state.sysCreateThread prio stack kthread
  | .kthreadCreate prio stack kthread proc =>
      (state.kthreadCreate prio stack kthread proc).map fun state => (0, state)
  | .threadExit status =>
      (state.kernel.sysThreadExit status).map fun kernel => (0, { state with kernel := kernel })
  | .cancelThread thread =>
      (state.kernel.sysCancelThread thread).map fun ran =>
        (ran.1, { state with kernel := ran.2 })
  | .other kernel => .ok (0, { state with kernel := kernel })

/-- Other parts of the kernel leave the monitors that exist alone, and a thread is active
after them. -/
def MonitorEntry.Apart (state : MonitorKernel) : MonitorEntry → Prop
  | .other kernel => kernel.activeThread ≠ 0 ∧
      ∀ kmonitor, state.inUse kmonitor → kernel.monitors kmonitor = state.kernel.monitors kmonitor
  | _ => True

/-- No thread gets the descriptor that a monitor names as its owner. -/
def MonitorEntry.Vacant (state : MonitorKernel) : MonitorEntry → Prop
  | .createThread _ _ kthread | .kthreadCreate _ _ kthread _ =>
      ∀ kmonitor, state.inUse kmonitor → (state.kernel.monitors kmonitor).owner ≠ kthread
  | _ => True

/-- One entry that meets a condition. -/
def MonitorStep (meets : MonitorKernel → MonitorEntry → Prop) (state state' : MonitorKernel) :
    Prop :=
  ∃ entry code, entry.Apart state ∧ meets state entry ∧ state.enter entry = .ok (code, state')

/-- The active thread is the one that a monitor was last given to. -/
def MonitorKernel.GivenToActive (kmonitor : Ptr) (state : MonitorKernel) : Prop :=
  state.given kmonitor = some (state.threadAt state.kernel.activeThread)

/-- A monitor that is unlocked, or waited in, was given to the active thread. -/
def MonitorEntry.Rightful (state : MonitorKernel) (code : Int) : MonitorEntry → Prop
  | .monitorUnlock monitor | .monitorWait monitor _ => ∀ kmonitor, monitor = some kmonitor →
      state.inUse kmonitor → code = -SUCCESS → state.GivenToActive kmonitor
  | _ => True

/-- A part of the kernel leaves the monitors as they are, and a thread active. -/
structure Kernel.Spares (kernel kernel' : Kernel) : Prop where
  monitors : kernel'.monitors = kernel.monitors
  active : kernel.activeThread ≠ 0 → kernel'.activeThread ≠ 0

section Kernels

variable {kernel kernel' kernel'' : Kernel} {kthread stack proc : Ptr} {queue : QueueId}
  {prio status : Int} {result : Int × Kernel}

theorem Kernel.Spares.trans (first : kernel.Spares kernel') (second : kernel'.Spares kernel'') :
    kernel.Spares kernel'' where
  monitors := second.monitors.trans first.monitors
  active := second.active ∘ first.active

theorem Kernel.Spares.of_eq (monitors : kernel'.monitors = kernel.monitors)
    (active : kernel'.activeThread = kernel.activeThread) : kernel.Spares kernel' :=
  ⟨monitors, fun nonzero => active ▸ nonzero⟩

/-- A thread is active after `kthreads_schedule`. -/
theorem Sched.kthreadsSchedule_active {sched sched' : Sched}
    (scheduled : sched.kthreadsSchedule = .ok sched') : sched'.activeThread ≠ 0 := by
  unfold Sched.kthreadsSchedule at scheduled
  dsimp only at scheduled
  split at scheduled
  · cases scheduled
  split at scheduled
  case isTrue =>
    unfold Sched.enterActive at scheduled
    dsimp only at scheduled
    split at scheduled
    · cases scheduled
    · next nonzero =>
      obtain rfl := Except.ok.inj scheduled
      exact nonzero
  case isFalse stays =>
    obtain rfl := Except.ok.inj scheduled
    exact fun null => stays (.inl null)

theorem Kernel.kthreadsSchedule_spares (scheduled : kernel.kthreadsSchedule = .ok kernel') :
    kernel.Spares kernel' := by
  obtain ⟨sched, schedules, rfl⟩ := map_ok scheduled
  exact ⟨rfl, fun _ => Sched.kthreadsSchedule_active schedules⟩

theorem Sched.kthreadqRelease_active (sched : Sched) :
    (sched.kthreadqRelease queue).2.activeThread = sched.activeThread := by
  unfold Sched.kthreadqRelease
  dsimp only
  split <;> rfl

theorem Sched.releaseLoop_active (fuel : Nat) (sched : Sched) :
    (sched.releaseLoop queue fuel).2.activeThread = sched.activeThread := by
  induction fuel generalizing sched with
  | zero => rfl
  | succ fuel ih =>
      unfold Sched.releaseLoop
      dsimp only
      split
      · exact sched.kthreadqRelease_active
      · exact (ih _).trans sched.kthreadqRelease_active

theorem Kernel.kthreadqRelease_spares (kernel : Kernel) (queue : QueueId) :
    kernel.Spares (kernel.kthreadqRelease queue).2 :=
  .of_eq rfl kernel.sched.kthreadqRelease_active

theorem Kernel.kthreadqReleaseAll_spares (kernel : Kernel) (queue : QueueId) :
    kernel.Spares (kernel.kthreadqReleaseAll queue).2 :=
  .of_eq rfl (Sched.releaseLoop_active _ _)

theorem Kernel.kFreeUniqueId_spares {id : Nat} (freed : kernel.kFreeUniqueId id = .ok kernel') :
    kernel.Spares kernel' := by
  unfold Kernel.kFreeUniqueId at freed
  split_ifs at freed
  obtain rfl := Except.ok.inj freed
  exact .of_eq rfl rfl

theorem Kernel.kthreadCreate_spares
    (created : kernel.kthreadCreate stack kthread prio true proc = .ok kernel') :
    kernel.Spares kernel' := by
  unfold Kernel.kthreadCreate at created
  split at created
  · cases created
  · obtain ⟨numbered, taken, rfl⟩ := map_ok created
    obtain ⟨lastId, -, rfl⟩ := map_ok taken
    exact .of_eq rfl rfl

theorem Kernel.releaseDescriptor_spares
    (released : kernel.releaseDescriptor kthread = .ok kernel') : kernel.Spares kernel' := by
  unfold Kernel.releaseDescriptor at released
  split at released
  · obtain ⟨middle, freed, rfl⟩ := map_ok released
    exact (kFreeUniqueId_spares freed).trans (.of_eq rfl rfl)
  · obtain rfl := Except.ok.inj released
    exact kthreadqReleaseAll_spares _ _

theorem Kernel.endAndRelease_spares
    (ended : kernel.endAndRelease kthread status = .ok kernel') : kernel.Spares kernel' := by
  obtain ⟨middle, released, descriptor⟩ := bind_ok ended
  have first : kernel.Spares (kernel.endThread kthread status) := .of_eq rfl rfl
  have core := releaseResources_core released
  have second : (kernel.endThread kthread status).Spares middle :=
    .of_eq core.monitors (congrArg Sched.activeThread core.sched)
  exact first.trans (second.trans (releaseDescriptor_spares descriptor))

theorem Kernel.finishCancel_spares
    (finished : kernel.finishCancel kthread status = .ok result) : kernel.Spares result.2 := by
  obtain ⟨middle, ended, rest⟩ := bind_ok finished
  obtain ⟨scheduled, schedules, rest⟩ := bind_ok rest
  obtain rfl := Except.ok.inj rest
  exact (endAndRelease_spares ended).trans (kthreadsSchedule_spares schedules)

theorem Kernel.leaveQueue_spares (left : kernel.leaveQueue kthread = .ok kernel') :
    kernel.Spares kernel' := by
  unfold Kernel.leaveQueue at left
  split at left
  · cases left
  · obtain rfl := Except.ok.inj left
    exact .of_eq rfl rfl

theorem Sched.markIfEmpty_active (sched : Sched) (prio : Nat) :
    (sched.markIfEmpty prio).activeThread = sched.activeThread := by
  unfold Sched.markIfEmpty
  split <;> rfl

theorem Kernel.kthreadCancel_spares
    (cancelled : kernel.kthreadCancel kthread status = .ok result) : kernel.Spares result.2 := by
  unfold Kernel.kthreadCancel at cancelled
  split at cancelled
  · obtain rfl := Except.ok.inj cancelled
    exact .of_eq rfl rfl
  · obtain ⟨middle, left, finished⟩ := bind_ok cancelled
    have marked : middle.Spares { middle with
        sched := middle.sched.markIfEmpty (middle.thread kthread).prio } :=
      .of_eq rfl (middle.sched.markIfEmpty_active _)
    exact (leaveQueue_spares left).trans (marked.trans (finishCancel_spares finished))
  · obtain ⟨middle, left, finished⟩ := bind_ok cancelled
    exact (leaveQueue_spares left).trans (finishCancel_spares finished)
  · split at cancelled
    · obtain rfl := Except.ok.inj cancelled
      exact .of_eq rfl rfl
    · have stopped : kernel.Spares (kernel.setThread kthread fun descriptor =>
          { descriptor with state := .passive }) := .of_eq rfl rfl
      exact stopped.trans (finishCancel_spares cancelled)

theorem Kernel.sysThreadExit_spares (exits : kernel.sysThreadExit status = .ok kernel') :
    kernel.Spares kernel' := by
  obtain ⟨cancelled, cancels, scheduled⟩ := bind_ok exits
  exact (kthreadCancel_spares cancels).trans (kthreadsSchedule_spares scheduled)

theorem Kernel.sysCancelThread_spares {thread : Option Handle}
    (cancels : kernel.sysCancelThread thread = .ok result) : kernel.Spares result.2 := by
  have exits : ∀ errnum, kernel.exit errnum = result → kernel.Spares result.2 := by
    rintro errnum rfl
    exact .of_eq rfl rfl
  have twice : ∀ kthread, ((kernel.kthreadCancel kthread (-1)).bind fun cancelled =>
      ((cancelled.2.setErrno cancelled.1).kthreadCancel kthread (-1)).bind fun again =>
        .ok (-again.1, again.2)) = .ok result → kernel.Spares result.2 := by
    intro kthread done
    obtain ⟨cancelled, first, rest⟩ := bind_ok done
    obtain ⟨again, second, rest⟩ := bind_ok rest
    obtain rfl := Except.ok.inj rest
    have between : cancelled.2.Spares (cancelled.2.setErrno cancelled.1) := .of_eq rfl rfl
    have last : (cancelled.2.setErrno cancelled.1).Spares again.2 := kthreadCancel_spares second
    exact (kthreadCancel_spares first).trans (between.trans last)
  unfold Kernel.sysCancelThread at cancels
  split at cancels
  · exact exits _ (Except.ok.inj cancels)
  · split at cancels
    · exact exits _ (Except.ok.inj cancels)
    split at cancels
    · exact exits _ (Except.ok.inj cancels)
    split at cancels
    · exact exits _ (Except.ok.inj cancels)
    · exact exits _ (Except.ok.inj cancels)
    · exact twice _ cancels
    · exact twice _ cancels

end Kernels

/-- The owner of each monitor is the thread that it was given to. -/
structure MonitorKernel.Owned (state : MonitorKernel) : Prop where
  active : state.kernel.activeThread ≠ 0
  given : ∀ kmonitor, state.inUse kmonitor → (state.kernel.monitors kmonitor).owner ≠ 0 →
    state.given kmonitor = some (state.threadAt (state.kernel.monitors kmonitor).owner)

namespace MonitorKernel

variable {state state' first : MonitorKernel} {entry : MonitorEntry} {code : Int}
  {kernel : Kernel} {kmonitor kqueue kthread stack proc idle kernelProc : Ptr} {prio : Int}
  {queue : QueueId} {ran : Int × MonitorKernel}

theorem Owned.spares (owned : state.Owned) (spares : state.kernel.Spares kernel) :
    Owned { state with kernel := kernel } where
  active := spares.active owned.active
  given := by
    change ∀ kmonitor, state.inUse kmonitor → (kernel.monitors kmonitor).owner ≠ 0 →
      state.given kmonitor = some (state.threadAt (kernel.monitors kmonitor).owner)
    rw [spares.monitors]
    exact owned.given

theorem Owned.exit (owned : state.Owned) (errnum : Int) : (state.exit errnum).2.Owned :=
  owned.spares (.of_eq rfl rfl)

theorem Owned.kthreadsSchedule (owned : state.Owned)
    (scheduled : state.kthreadsSchedule = .ok state') : state'.Owned := by
  obtain ⟨kernel, schedules, rfl⟩ := map_ok scheduled
  exact owned.spares (Kernel.kthreadsSchedule_spares schedules)

theorem Owned.setLock (owned : state.Owned) (kmonitor : Ptr) (lock : Bool) :
    (state.setLock kmonitor lock).Owned where
  active := owned.active
  given := by
    intro other inUse
    by_cases same : other = kmonitor
    · subst same
      have owner : ((state.setLock other lock).kernel.monitors other).owner =
          (state.kernel.monitors other).owner := by
        simp [MonitorKernel.setLock, onKernel]
      rw [owner]
      exact owned.given other inUse
    · have others : (state.setLock kmonitor lock).kernel.monitors other =
          state.kernel.monitors other := Function.update_of_ne same _ _
      rw [others]
      exact owned.given other inUse

/-- A monitor is given to whoever is stored as its owner. -/
theorem Owned.setOwner (owned : state.Owned) (kmonitor owner : Ptr) :
    (state.setOwner kmonitor owner).Owned where
  active := owned.active
  given := by
    intro other inUse nonzero
    by_cases same : other = kmonitor
    · subst same
      have stored : ((state.setOwner other owner).kernel.monitors other).owner = owner := by
        simp [MonitorKernel.setOwner]
      rw [stored] at nonzero ⊢
      calc (state.setOwner other owner).given other = _ := Function.update_self _ _ _
        _ = some (state.threadAt owner) := if_neg nonzero
    · have others : (state.setOwner kmonitor owner).kernel.monitors other =
          state.kernel.monitors other := Function.update_of_ne same _ _
      rw [others] at nonzero ⊢
      exact (Function.update_of_ne same _ _).trans (owned.given other inUse nonzero)

theorem Owned.use (owned : state.Owned) (kmonitor : Ptr)
    (noOwner : (state.kernel.monitors kmonitor).owner = 0) :
    Owned { state with inUse := Function.update state.inUse kmonitor true } where
  active := owned.active
  given := by
    intro other inUse nonzero
    have different : other ≠ kmonitor := by
      rintro rfl
      exact nonzero noOwner
    exact owned.given other ((Function.update_of_ne different _ _).symm.trans inUse) nonzero

theorem Owned.unuse (owned : state.Owned) (kmonitor : Ptr) :
    Owned { state with inUse := Function.update state.inUse kmonitor false } where
  active := owned.active
  given := by
    intro other inUse nonzero
    have different : other ≠ kmonitor := by
      rintro rfl
      have unused : Function.update state.inUse other false other = true := inUse
      rw [Function.update_self] at unused
      cases unused
    exact owned.given other ((Function.update_of_ne different _ _).symm.trans inUse) nonzero

theorem Owned.sysMonitorInit (owned : state.Owned) (monitor kmonitor : Ptr) :
    (state.sysMonitorInit monitor kmonitor).2.Owned := by
  unfold MonitorKernel.sysMonitorInit
  split
  · exact owned.exit _
  split
  · exact owned.exit _
  · have cleared := (owned.setLock kmonitor false).setOwner kmonitor 0
    have used := cleared.use kmonitor (by simp [MonitorKernel.setOwner])
    exact used.spares (.of_eq rfl rfl)

theorem Owned.releaseWaiting (owned : state.Owned)
    (released : state.releaseWaiting queue = .ok state') : state'.Owned := by
  have freed := owned.spares (state.kernel.kthreadqReleaseAll_spares queue)
  unfold MonitorKernel.releaseWaiting at released
  dsimp only at released
  split at released
  · exact freed.kthreadsSchedule released
  · obtain rfl := Except.ok.inj released
    exact freed

theorem Owned.passOn (owned : state.Owned) (kmonitor : Ptr) :
    (state.passOn kmonitor).2.Owned := by
  have released := (owned.setOwner kmonitor
    (state.kernel.sched.kthreadqGet (.monitor kmonitor))).spares
      (Kernel.kthreadqRelease_spares _ (.monitor kmonitor))
  unfold MonitorKernel.passOn
  dsimp only
  split
  · exact released.setLock kmonitor false
  · exact released

theorem Owned.monitorReleaseLoop (owned : state.Owned) (kqueue : Ptr) (broadcast : Bool)
    (fuel : Nat) (reschedule : Bool) :
    (state.monitorReleaseLoop kqueue broadcast fuel reschedule).2.Owned := by
  induction fuel generalizing state reschedule with
  | zero => exact owned
  | succ fuel ih =>
      unfold MonitorKernel.monitorReleaseLoop
      dsimp only
      split
      · exact owned
      split
      · have becomes := ((owned.setLock (state.kernel.thread (state.kernel.sched.kthreadqGet
          (.monitorQueue kqueue))).qdata true).setOwner (state.kernel.thread
            (state.kernel.sched.kthreadqGet (.monitorQueue kqueue))).qdata
              (state.kernel.sched.kthreadqGet (.monitorQueue kqueue))).spares
                (Kernel.kthreadqRelease_spares _ (.monitorQueue kqueue))
        split
        · exact ih becomes _
        · exact becomes
      · have moved : state.kernel.Spares { state.kernel with
            sched := (state.kernel.sched.kthreadqRemove
              (.monitorQueue kqueue) 0).2.kthreadEnqueue
                (state.kernel.sched.kthreadqRemove (.monitorQueue kqueue) 0).1
                  (.monitor (state.kernel.thread (state.kernel.sched.kthreadqGet
                    (.monitorQueue kqueue))).qdata) } := .of_eq rfl rfl
        have waits := owned.spares moved
        split
        · exact ih waits _
        · exact waits

theorem Owned.kMonitorRelease (owned : state.Owned) {queue : Option Ptr} {broadcast : Bool}
    (releases : state.kMonitorRelease queue broadcast = .ok ran) : ran.2.Owned := by
  have released := (owned.monitorReleaseLoop (queue.getD 0) broadcast addressCount false).exit
    SUCCESS
  unfold MonitorKernel.kMonitorRelease at releases
  dsimp only at releases
  split at releases
  · obtain rfl := Except.ok.inj releases
    exact owned.exit _
  split at releases
  · obtain ⟨scheduled, schedules, rfl⟩ := map_ok releases
    exact released.kthreadsSchedule schedules
  · obtain rfl := Except.ok.inj releases
    exact released

theorem Owned.sysMonitorDestroy (owned : state.Owned) {monitor : Option Ptr}
    (destroys : state.sysMonitorDestroy monitor = .ok ran) : ran.2.Owned := by
  unfold MonitorKernel.sysMonitorDestroy at destroys
  dsimp only at destroys
  split at destroys
  · obtain rfl := Except.ok.inj destroys
    exact owned.exit _
  · obtain ⟨released, releases, rfl⟩ := map_ok destroys
    exact ((owned.releaseWaiting releases).unuse _).spares (.of_eq rfl rfl)

theorem Owned.sysMonitorQueueDestroy (owned : state.Owned) {queue : Option Ptr}
    (destroys : state.sysMonitorQueueDestroy queue = .ok ran) : ran.2.Owned := by
  unfold MonitorKernel.sysMonitorQueueDestroy at destroys
  dsimp only at destroys
  split at destroys
  · obtain rfl := Except.ok.inj destroys
    exact owned.exit _
  · obtain ⟨released, releases, rfl⟩ := map_ok destroys
    exact (owned.releaseWaiting releases).spares (.of_eq rfl rfl)

theorem Owned.sysMonitorLock (owned : state.Owned) {monitor : Option Ptr}
    (locks : state.sysMonitorLock monitor = .ok ran) : ran.2.Owned := by
  unfold MonitorKernel.sysMonitorLock at locks
  dsimp only at locks
  split at locks
  · obtain rfl := Except.ok.inj locks
    exact owned.exit _
  split at locks
  · obtain rfl := Except.ok.inj locks
    exact ((owned.exit SUCCESS).setLock _ true).setOwner _ _
  · obtain ⟨scheduled, schedules, rfl⟩ := map_ok locks
    have waits : Owned (state.onKernel fun kernel =>
        (kernel.setErrno SUCCESS).kthreadEnqueue (.monitor (monitor.getD 0))) :=
      owned.spares (.of_eq rfl rfl)
    exact waits.kthreadsSchedule schedules

/-- `sys__monitor_unlock` succeeds if the monitor names the active thread as its owner. -/
theorem Owned.sysMonitorUnlock (owned : state.Owned) {monitor : Option Ptr}
    (unlocks : state.sysMonitorUnlock monitor = .ok ran) :
    ran.2.Owned ∧ (ran.1 = -SUCCESS →
      (state.kernel.monitors (monitor.getD 0)).owner = state.kernel.activeThread) := by
  have passed := (owned.exit SUCCESS).passOn (monitor.getD 0)
  unfold MonitorKernel.sysMonitorUnlock at unlocks
  dsimp only at unlocks
  split at unlocks
  · obtain rfl := Except.ok.inj unlocks
    exact ⟨owned.exit _, fun code => absurd code (neg_injective.ne (by decide))⟩
  split at unlocks
  · obtain rfl := Except.ok.inj unlocks
    exact ⟨owned.exit _, fun code => absurd code (neg_injective.ne (by decide))⟩
  next isOwner =>
    have isOwner := not_not.mp isOwner
    split at unlocks
    · obtain rfl := Except.ok.inj unlocks
      exact ⟨passed, fun _ => isOwner⟩
    · obtain ⟨scheduled, schedules, rfl⟩ := map_ok unlocks
      exact ⟨passed.kthreadsSchedule schedules, fun _ => isOwner⟩

/-- `sys__monitor_wait`, likewise. -/
theorem Owned.sysMonitorWait (owned : state.Owned) {monitor queue : Option Ptr}
    (waits : state.sysMonitorWait monitor queue = .ok ran) :
    ran.2.Owned ∧ (ran.1 = -SUCCESS →
      (state.kernel.monitors (monitor.getD 0)).owner = state.kernel.activeThread) := by
  unfold MonitorKernel.sysMonitorWait at waits
  dsimp only at waits
  split at waits
  · obtain rfl := Except.ok.inj waits
    exact ⟨owned.exit _, fun code => absurd code (neg_injective.ne (by decide))⟩
  split at waits
  · obtain rfl := Except.ok.inj waits
    exact ⟨owned.exit _, fun code => absurd code (neg_injective.ne (by decide))⟩
  split at waits
  · obtain rfl := Except.ok.inj waits
    exact ⟨owned.exit _, fun code => absurd code (neg_injective.ne (by decide))⟩
  next isOwner =>
    obtain ⟨scheduled, schedules, rfl⟩ := map_ok waits
    have enqueued : Owned (state.onKernel fun kernel =>
        ((kernel.setErrno SUCCESS).setThread kernel.activeThread fun descriptor =>
          { descriptor with qdata := monitor.getD 0 }).kthreadEnqueue
            (.monitorQueue (queue.getD 0))) := owned.spares (.of_eq rfl rfl)
    exact ⟨(enqueued.passOn _).kthreadsSchedule schedules, fun _ => not_not.mp isOwner⟩

/-- A new thread gets a descriptor that no monitor names. -/
theorem Owned.kthreadCreate (owned : state.Owned)
    (vacant : ∀ kmonitor, state.inUse kmonitor →
      (state.kernel.monitors kmonitor).owner ≠ kthread)
    (creates : state.kthreadCreate prio stack kthread proc = .ok state') : state'.Owned := by
  obtain ⟨kernel, created, rfl⟩ := map_ok creates
  have kept := owned.spares (Kernel.kthreadCreate_spares created)
  refine ⟨kept.active, fun kmonitor inUse nonzero => ?_⟩
  have given := kept.given kmonitor inUse nonzero
  have same : (kernel.monitors kmonitor).owner = (state.kernel.monitors kmonitor).owner :=
    congrArg (fun monitors => (monitors kmonitor).owner)
      (Kernel.kthreadCreate_spares created).monitors
  have different : (kernel.monitors kmonitor).owner ≠ kthread := by
    rw [same]
    exact vacant kmonitor inUse
  have births : Function.update state.births kthread (state.births kthread + 1)
      (kernel.monitors kmonitor).owner = state.births (kernel.monitors kmonitor).owner :=
    Function.update_of_ne different _ _
  calc state.given kmonitor
      = some ⟨_, state.births (kernel.monitors kmonitor).owner⟩ := given
    _ = some ⟨_, _⟩ := by rw [← births]

theorem Owned.sysCreateThread (owned : state.Owned)
    (vacant : ∀ kmonitor, state.inUse kmonitor →
      (state.kernel.monitors kmonitor).owner ≠ kthread)
    (result : state.sysCreateThread prio stack kthread = .ok ran) : ran.2.Owned := by
  obtain ⟨created, creates, rest⟩ := bind_ok result
  obtain ⟨scheduled, schedules, rest⟩ := bind_ok rest
  obtain rfl := Except.ok.inj rest
  exact ((owned.kthreadCreate vacant creates).exit SUCCESS).kthreadsSchedule schedules

/-- The owner of each monitor stays the thread that it was given to. -/
theorem Owned.enter (owned : state.Owned) (apart : entry.Apart state)
    (vacant : entry.Vacant state) (enters : state.enter entry = .ok (code, state')) :
    state'.Owned := by
  cases entry with
  | monitorInit monitor kmonitor =>
      have result : state.sysMonitorInit monitor kmonitor = (code, state') :=
        Except.ok.inj enters
      have kept := owned.sysMonitorInit monitor kmonitor
      rwa [result] at kept
  | monitorDestroy monitor => exact owned.sysMonitorDestroy enters
  | monitorQueueInit queue kqueue =>
      have result : state.sysMonitorQueueInit queue kqueue = (code, state') :=
        Except.ok.inj enters
      unfold sysMonitorQueueInit at result
      split_ifs at result <;> obtain ⟨-, rfl⟩ := Prod.mk.inj result
      all_goals exact owned.spares (.of_eq rfl rfl)
  | monitorQueueDestroy queue => exact owned.sysMonitorQueueDestroy enters
  | monitorLock monitor => exact owned.sysMonitorLock enters
  | monitorUnlock monitor => exact (owned.sysMonitorUnlock enters).1
  | monitorWait monitor queue => exact (owned.sysMonitorWait enters).1
  | monitorSignal queue => exact owned.kMonitorRelease enters
  | monitorBroadcast queue => exact owned.kMonitorRelease enters
  | createThread prio stack kthread => exact owned.sysCreateThread vacant enters
  | kthreadCreate prio stack kthread proc =>
      obtain ⟨created, creates, result⟩ := map_ok enters
      obtain ⟨-, rfl⟩ := Prod.mk.inj result
      exact owned.kthreadCreate vacant creates
  | threadExit status =>
      obtain ⟨kernel, exits, result⟩ := map_ok enters
      obtain ⟨-, rfl⟩ := Prod.mk.inj result
      exact owned.spares (Kernel.sysThreadExit_spares exits)
  | cancelThread thread =>
      obtain ⟨ran, cancels, result⟩ := map_ok enters
      obtain ⟨-, rfl⟩ := Prod.mk.inj result
      exact owned.spares (Kernel.sysCancelThread_spares cancels)
  | other kernel =>
      obtain ⟨-, rfl⟩ := Prod.mk.inj (Except.ok.inj enters)
      refine ⟨apart.1, fun kmonitor inUse => ?_⟩
      have same : kernel.monitors kmonitor = state.kernel.monitors kmonitor :=
        apart.2 kmonitor inUse
      change (kernel.monitors kmonitor).owner ≠ 0 →
        state.given kmonitor = some (state.threadAt (kernel.monitors kmonitor).owner)
      rw [same]
      exact owned.given kmonitor inUse

theorem Owned.givenToActive (owned : state.Owned) (inUse : state.inUse kmonitor)
    (isOwner : (state.kernel.monitors kmonitor).owner = state.kernel.activeThread) :
    state.GivenToActive kmonitor := by
  have given := owned.given kmonitor inUse (by rw [isOwner]; exact owned.active)
  rwa [isOwner] at given

theorem Owned.rightful (owned : state.Owned) (enters : state.enter entry = .ok (code, state')) :
    entry.Rightful state code := by
  cases entry with
  | monitorUnlock monitor =>
      rintro kmonitor rfl inUse success
      exact owned.givenToActive inUse ((owned.sysMonitorUnlock enters).2 success)
  | monitorWait monitor queue =>
      rintro kmonitor rfl inUse success
      exact owned.givenToActive inUse ((owned.sysMonitorWait enters).2 success)
  | _ => trivial

theorem start_inUse (started : start stack idle kernelProc = .ok first) :
    first.inUse kmonitor = false := by
  obtain ⟨created, creates, schedules⟩ := bind_ok started
  obtain ⟨kernel, -, rfl⟩ := map_ok creates
  obtain ⟨kernel', -, rfl⟩ := map_ok schedules
  rfl

theorem start_owned (started : start stack idle kernelProc = .ok first) : first.Owned := by
  refine ⟨?_, fun kmonitor inUse => ?_⟩
  · obtain ⟨created, -, schedules⟩ := bind_ok started
    obtain ⟨kernel, scheduled, rfl⟩ := map_ok schedules
    obtain ⟨sched, schedules', rfl⟩ := map_ok scheduled
    exact Sched.kthreadsSchedule_active schedules'
  · rw [start_inUse started] at inUse
    cases inUse

/-- In every run in which no thread gets the descriptor that a monitor names as its owner, an
owner that is the active thread is the thread that the monitor was last given to; and a monitor
is unlocked, or waited in, by that thread only. -/
theorem monitors_run_owned (started : start stack idle kernelProc = .ok first)
    (run : Relation.ReflTransGen (MonitorStep fun state entry => entry.Vacant state) first
      state) :
    (∀ kmonitor, state.inUse kmonitor →
      (state.kernel.monitors kmonitor).owner = state.kernel.activeThread →
        state.GivenToActive kmonitor) ∧
      ∀ entry code state', state.enter entry = .ok (code, state') →
        entry.Rightful state code := by
  have owned : state.Owned := by
    induction run with
    | refl => exact start_owned started
    | tail _ step ih =>
        obtain ⟨entry, code, apart, vacant, enters⟩ := step
        exact ih.enter apart vacant enters
  exact ⟨fun _ => owned.givenToActive, fun _ _ _ => owned.rightful⟩

/-- A thread locks a monitor and unlocks it. -/
theorem monitors_run_owned_sample :
    ∃ first state state', start 50 200 100 = .ok first ∧
      Relation.ReflTransGen (MonitorStep fun state entry => entry.Vacant state) first state ∧
      state.inUse 8000 ∧ state.enter (.monitorUnlock (some 8000)) = .ok (-SUCCESS, state') ∧
      state.GivenToActive 8000 := by
  have evaluated : (do
      let first ← start 50 200 100
      let second ← first.enter (.createThread 5 60 300)
      let third ← second.2.enter (.monitorInit 40 8000)
      let fourth ← third.2.enter (.monitorLock (some 8000))
      let fifth ← fourth.2.enter (.monitorUnlock (some 8000))
      return decide (fourth.2.inUse 8000 ∧ fifth.1 = -SUCCESS)) =
        (.ok true : Except Fault Bool) := by decide +kernel
  obtain ⟨first, started, evaluated⟩ := bind_ok evaluated
  obtain ⟨⟨code2, second⟩, creates, evaluated⟩ := bind_ok evaluated
  obtain ⟨⟨code3, third⟩, inits, evaluated⟩ := bind_ok evaluated
  obtain ⟨⟨code4, fourth⟩, locks, evaluated⟩ := bind_ok evaluated
  obtain ⟨⟨code5, fifth⟩, unlocks, evaluated⟩ := bind_ok evaluated
  obtain ⟨inUse, success⟩ := of_decide_eq_true (Except.ok.inj evaluated)
  obtain rfl : code5 = -SUCCESS := success
  have vacant : MonitorEntry.Vacant first (.createThread 5 60 300) := by
    intro kmonitor inUse
    rw [start_inUse started] at inUse
    cases inUse
  have one : MonitorStep (fun state entry => entry.Vacant state) first second :=
    ⟨.createThread 5 60 300, code2, trivial, vacant, creates⟩
  have two : MonitorStep (fun state entry => entry.Vacant state) second third :=
    ⟨.monitorInit 40 8000, code3, trivial, trivial, inits⟩
  have three : MonitorStep (fun state entry => entry.Vacant state) third fourth :=
    ⟨.monitorLock (some 8000), code4, trivial, trivial, locks⟩
  have run := ((Relation.ReflTransGen.single one).tail two).tail three
  exact ⟨first, fourth, fifth, started, run, inUse, unlocks,
    (monitors_run_owned started run).2 _ _ _ unlocks 8000 rfl inUse rfl⟩

/-- The owner of a monitor ends, and a later thread gets its descriptor: it can unlock the
monitor that it never locked. -/
theorem monitors_run_owned_fail :
    ¬ ∀ stack idle kernelProc first state, start stack idle kernelProc = .ok first →
      Relation.ReflTransGen (MonitorStep fun _ _ => True) first state →
        ∀ entry code state', state.enter entry = .ok (code, state') →
          entry.Rightful state code := by
  intro claim
  have evaluated : (do
      let first ← start 50 200 100
      let second ← first.enter (.createThread 5 60 300)
      let third ← second.2.enter (.monitorInit 40 8000)
      let fourth ← third.2.enter (.monitorLock (some 8000))
      -- the owner ends, its descriptor is freed and used again
      let fifth ← fourth.2.enter (.threadExit 0)
      let sixth ← fifth.2.enter (.createThread 5 60 300)
      let seventh ← sixth.2.enter (.monitorUnlock (some 8000))
      return decide (300 ∈ fifth.2.kernel.kfreed ∧ sixth.2.inUse 8000 ∧
        seventh.1 = -SUCCESS ∧ ¬ sixth.2.given 8000 =
          some (sixth.2.threadAt sixth.2.kernel.activeThread))) =
        (.ok true : Except Fault Bool) := by decide +kernel
  obtain ⟨first, started, evaluated⟩ := bind_ok evaluated
  obtain ⟨⟨code2, second⟩, creates, evaluated⟩ := bind_ok evaluated
  obtain ⟨⟨code3, third⟩, inits, evaluated⟩ := bind_ok evaluated
  obtain ⟨⟨code4, fourth⟩, locks, evaluated⟩ := bind_ok evaluated
  obtain ⟨⟨code5, fifth⟩, exits, evaluated⟩ := bind_ok evaluated
  obtain ⟨⟨code6, sixth⟩, again, evaluated⟩ := bind_ok evaluated
  obtain ⟨⟨code7, seventh⟩, unlocks, evaluated⟩ := bind_ok evaluated
  obtain ⟨-, inUse, success, notGiven⟩ := of_decide_eq_true (Except.ok.inj evaluated)
  have one : MonitorStep (fun _ _ => True) first second :=
    ⟨.createThread 5 60 300, code2, trivial, trivial, creates⟩
  have two : MonitorStep (fun _ _ => True) second third :=
    ⟨.monitorInit 40 8000, code3, trivial, trivial, inits⟩
  have three : MonitorStep (fun _ _ => True) third fourth :=
    ⟨.monitorLock (some 8000), code4, trivial, trivial, locks⟩
  have four : MonitorStep (fun _ _ => True) fourth fifth :=
    ⟨.threadExit 0, code5, trivial, trivial, exits⟩
  have five : MonitorStep (fun _ _ => True) fifth sixth :=
    ⟨.createThread 5 60 300, code6, trivial, trivial, again⟩
  have run := ((((Relation.ReflTransGen.single one).tail two).tail three).tail four).tail five
  exact notGiven (claim 50 200 100 first sixth started run _ code7 seventh unlocks 8000 rfl inUse
    success)

end MonitorKernel

end Oseer
