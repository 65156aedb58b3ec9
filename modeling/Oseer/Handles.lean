import Mathlib.Logic.Relation
import Oseer.Cancel
import Oseer.MsgQueues
import Oseer.Syscalls

/-!
# Handles of threads

A user knows a thread by the address of its descriptor and its identifier.  Both
are used again: the descriptor after `kfree`, and the identifiers after
`k_new_unique_id` has come to `MAX_RESOURCES`.  The table of identifiers has no
bits for the last of them; here the word of memory behind it, which nothing else
uses, is read and written like the table.

The scheduling policies of the threads are left out.
-/

namespace Oseer

open Results

/-- A handle of a thread, and whether the thread's descriptor has not been freed. -/
structure ThreadIssue where
  handle : Handle
  lasts : Bool
deriving DecidableEq, Repr

/-- The kernel with a record of the handles that were issued. -/
structure HandleKernel where
  kernel : Kernel
  issued : List ThreadIssue

namespace HandleKernel

/-- Change the kernel. -/
def onKernel (change : Kernel → Kernel) (state : HandleKernel) : HandleKernel :=
  { state with kernel := change state.kernel }

/-- `EXIT` with a constant. -/
def exit (errnum : Int) (state : HandleKernel) : Int × HandleKernel :=
  (-errnum, state.onKernel (Kernel.setErrno errnum))

/-- `kthreads_schedule`. -/
def kthreadsSchedule (state : HandleKernel) : Except Fault HandleKernel :=
  state.kernel.kthreadsSchedule.map fun kernel => { state with kernel := kernel }

/-- The loop of `k_new_unique_id`, for at most `fuel` rounds. -/
def newIdLoop (idmask : Nat → Bool) (starting : Nat) : Nat → Nat → Except Fault Nat
  | 0, _ => .error .noFreeId
  | fuel + 1, lastId =>
      let lastId := (lastId + 1) % MAX_RESOURCES
      if lastId = starting then .error .noFreeId
      else if idmask lastId then newIdLoop idmask starting fuel lastId
      else .ok lastId

/-- `k_new_unique_id`: the identifier is `lastId` afterwards. -/
def kNewUniqueId (kernel : Kernel) : Except Fault Kernel :=
  (newIdLoop kernel.idmask kernel.lastId MAX_RESOURCES kernel.lastId).map fun lastId =>
    { kernel with
      lastId := lastId
      idmask := Function.update kernel.idmask lastId true }

/-- `k_free_unique_id`. -/
def kFreeUniqueId (id : Nat) (kernel : Kernel) : Except Fault Kernel :=
  if 0 < id ∧ id < MAX_RESOURCES ∧ kernel.idmask id then
    .ok { kernel with idmask := Function.update kernel.idmask id false }
  else .error .badId

/-- `kthread_create`, which returns a handle of the new thread. -/
def kthreadCreate (stack kthread : Ptr) (prio : Int) (proc : Ptr) (state : HandleKernel) :
    Except Fault HandleKernel :=
  if stack = 0 ∨ kthread = 0 then .error .noMemory
  else (kNewUniqueId state.kernel).map fun kernel =>
    { kernel := kernel.created stack kthread prio proc
      issued := ⟨⟨kthread, kernel.lastId⟩, true⟩ :: state.issued }

/-- `sys__create_thread`. -/
def sysCreateThread (prio : Int) (stack kthread : Ptr) (state : HandleKernel) :
    Except Fault (Int × HandleKernel) := do
  let proc := (state.kernel.thread state.kernel.activeThread).proc
  let state ← state.kthreadCreate stack kthread prio proc
  let state ← (state.onKernel (Kernel.setErrno SUCCESS)).kthreadsSchedule
  return (-SUCCESS, state)

/-- The handles of a thread whose descriptor is freed. -/
def endHandle (kthread : Ptr) (issue : ThreadIssue) : ThreadIssue :=
  if issue.handle.thread = kthread then { issue with lasts := false } else issue

/-- `kthread_remove_descriptor`. -/
def kthreadRemoveDescriptor (kthread : Ptr) (state : HandleKernel) : Except Fault HandleKernel :=
  (kFreeUniqueId (state.kernel.thread kthread).id state.kernel).map fun kernel =>
    let kernel := kernel.setThread kthread fun descriptor => { descriptor with id := 0 }
    let kernel := { kernel with allThreads := (kernel.allThreads.listRemove () 0 kthread).2 }
    { kernel := kernel.kfree kthread
      issued := state.issued.map (endHandle kthread) }

/-- The descriptor is freed, or kept for the threads that wait for its end. -/
def releaseDescriptor (kthread : Ptr) (state : HandleKernel) : Except Fault HandleKernel :=
  if (state.kernel.thread kthread).refCnt = 0 then state.kthreadRemoveDescriptor kthread
  else .ok (state.onKernel fun kernel => (kernel.kthreadqReleaseAll (.join kthread)).2)

/-- `kthread_cancel` of a thread that is in no queue any more. -/
def finishCancel (kthread : Ptr) (exitStatus : Int) (state : HandleKernel) :
    Except Fault (Int × HandleKernel) := do
  let kernel ← (state.kernel.endThread kthread exitStatus).releaseResources kthread
  let state ← releaseDescriptor kthread { state with kernel := kernel }
  let state ← state.kthreadsSchedule
  return (SUCCESS, state)

/-- `kthread_cancel`. -/
def kthreadCancel (kthread : Ptr) (exitStatus : Int) (state : HandleKernel) :
    Except Fault (Int × HandleKernel) :=
  match (state.kernel.thread kthread).state with
  | .passive => .ok (SUCCESS, state)
  | .ready => do
      let kernel ← state.kernel.leaveQueue kthread
      let prio := (kernel.thread kthread).prio
      finishCancel kthread exitStatus
        { state with kernel := { kernel with sched := kernel.sched.markIfEmpty prio } }
  | .wait => do
      let kernel ← state.kernel.leaveQueue kthread
      finishCancel kthread exitStatus { state with kernel := kernel }
  | .active =>
      if kthread ≠ state.kernel.activeThread then .ok (E_DONT_EXIST, state)
      else
        finishCancel kthread exitStatus (state.onKernel fun kernel =>
          kernel.setThread kthread fun descriptor => { descriptor with state := .passive })

/-- `sys__thread_exit`. -/
def sysThreadExit (status : Int) (state : HandleKernel) : Except Fault (Int × HandleKernel) := do
  let cancelled ← state.kthreadCancel state.kernel.activeThread status
  let state ← cancelled.2.kthreadsSchedule
  return (0, state)

/-- The test of `sys__wait_for_thread` and of `sys__cancel_thread`. -/
def Denotes (thread : Handle) (kernel : Kernel) : Prop :=
  (kernel.thread thread.thread).id = thread.thrId

instance (thread : Handle) (kernel : Kernel) : Decidable (Denotes thread kernel) :=
  inferInstanceAs (Decidable (_ = _))

/-- `sys__wait_for_thread`, with the contents of the user's handle, if there is one. -/
def sysWaitForThread (thread : Option Handle) (wait : Bool) (state : HandleKernel) :
    Except Fault (Int × HandleKernel) :=
  match thread with
  | none => .ok (state.exit E_INVALID_HANDLE)
  | some thread =>
      let kthread := thread.thread
      if kthread = 0 then .ok (state.exit E_INVALID_HANDLE)
      else if ¬ Denotes thread state.kernel then .ok (state.exit SUCCESS)
      else if (state.kernel.thread kthread).state ≠ .passive then
        if wait then
          let waits := state.onKernel fun kernel =>
            ((kernel.setThread kthread fun descriptor =>
              { descriptor with refCnt := descriptor.refCnt + 1 }).setErrno
                E_RETRY).kthreadEnqueue (.join kthread)
          waits.kthreadsSchedule.map fun state => (-E_RETRY, state)
        else .ok (state.exit E_NOT_FINISHED)
      else
        let collected := state.onKernel fun kernel =>
          (kernel.setErrno SUCCESS).setThread kthread fun descriptor =>
            { descriptor with refCnt := descriptor.refCnt - 1 }
        let exitStatus := (state.kernel.thread kthread).exitStatus
        if (collected.kernel.thread kthread).refCnt = 0 then
          (collected.kthreadRemoveDescriptor kthread).map fun state => (exitStatus, state)
        else .ok (exitStatus, collected)

/-- `sys__cancel_thread`.  `EXIT` evaluates `kthread_cancel` for the error number and again for
the value that is returned. -/
def sysCancelThread (thread : Option Handle) (state : HandleKernel) :
    Except Fault (Int × HandleKernel) :=
  match thread with
  | none => .ok (state.exit E_INVALID_HANDLE)
  | some thread =>
      if thread.thread = 0 then .ok (state.exit E_INVALID_HANDLE)
      else if ¬ Denotes thread state.kernel then .ok (state.exit SUCCESS)
      else match (state.kernel.thread thread.thread).state with
        | .passive => .ok (state.exit SUCCESS)
        | .active => .ok (state.exit E_INVALID_HANDLE)
        | .ready | .wait => do
            let cancelled ← state.kthreadCancel thread.thread (-1)
            let again ← (cancelled.2.exit cancelled.1).2.kthreadCancel thread.thread (-1)
            return (-again.1, again.2)

/-- `sys__msg_post` for `MSG_THREAD`, with the address that `kmalloc` returns. -/
def sysMsgPost (dest : Option Handle) (msg : Option Msg) (kmsg : Ptr) (state : HandleKernel) :
    Except Fault (Int × HandleKernel) :=
  match dest, msg with
  | some thr, some msg =>
      match state.kernel.kthreadGetDescriptor thr with
      | none => .ok (state.exit E_DONT_EXIST)
      | some kthr => (state.kernel.postTo (.thread kthr) msg kmsg).map fun ran =>
          (ran.1, { state with kernel := ran.2 })
  | _, _ => .ok (state.exit E_INVALID_HANDLE)

/-- `sys__set_thread_sched_params`, apart from the policy. -/
def sysSetThreadSchedParams (thread : Option Handle) (schedPolicy prio : Int)
    (state : HandleKernel) : Except Fault (Int × HandleKernel) :=
  match thread with
  | none => .ok (state.exit E_INVALID_HANDLE)
  | some thread =>
      let kthread := thread.thread
      if kthread = 0 ∨ thread.thrId ≠ (state.kernel.thread kthread).id then
        .ok (state.exit E_INVALID_HANDLE)
      else if ¬ World.ValidPolicy schedPolicy then .ok (state.exit E_INVALID_HANDLE)
      else if ¬ (0 < prio ∧ prio < PRIO_LEVELS) then .ok (state.exit E_INVALID_HANDLE)
      else (state.kernel.sched.kthreadSetPrio kthread prio.toNat).map fun set =>
        (0, state.onKernel fun kernel => { kernel with sched := set.2 })

/-- The kernel after `kthreads_init`, with the idle thread. -/
def start (stack idle kernelProc : Ptr) : Except Fault HandleKernel :=
  let state : HandleKernel := ⟨Kernel.boot.initLists kernelProc, []⟩
  (state.kthreadCreate stack idle 0 kernelProc).bind kthreadsSchedule

end HandleKernel

/-- The system calls that create threads, end them and take handles of them, other calls of
`kthread_create`, of `k_new_unique_id` and of `k_free_unique_id`, and any change of the kernel
outside of the identifiers. -/
inductive HandleEntry
  | createThread (prio : Int) (stack kthread : Ptr)
  | threadExit (status : Int)
  | waitForThread (thread : Option Handle) (wait : Bool)
  | cancelThread (thread : Option Handle)
  | msgPost (dest : Option Handle) (msg : Option Msg) (kmsg : Ptr)
  | setThreadSchedParams (thread : Option Handle) (schedPolicy prio : Int)
  | kthreadCreate (stack kthread : Ptr) (prio : Int) (proc : Ptr)
  | newUniqueId
  | freeUniqueId (id : Nat)
  | other (kernel : Kernel)

/-- One entry: the value returned and the new state. -/
def HandleKernel.enter (entry : HandleEntry) (state : HandleKernel) :
    Except Fault (Int × HandleKernel) :=
  match entry with
  | .createThread prio stack kthread => state.sysCreateThread prio stack kthread
  | .threadExit status => state.sysThreadExit status
  | .waitForThread thread wait => state.sysWaitForThread thread wait
  | .cancelThread thread => state.sysCancelThread thread
  | .msgPost dest msg kmsg => state.sysMsgPost dest msg kmsg
  | .setThreadSchedParams thread schedPolicy prio =>
      state.sysSetThreadSchedParams thread schedPolicy prio
  | .kthreadCreate stack kthread prio proc =>
      (state.kthreadCreate stack kthread prio proc).map fun state => (0, state)
  | .newUniqueId => (kNewUniqueId state.kernel).map fun kernel =>
      (0, { state with kernel := kernel })
  | .freeUniqueId id => (kFreeUniqueId id state.kernel).map fun kernel =>
      (0, { state with kernel := kernel })
  | .other kernel => .ok (0, { state with kernel := kernel })

/-- The identifiers of the threads, and the last one that was given, stay. -/
structure SameIds (kernel kernel' : Kernel) : Prop where
  id : ∀ thread, (kernel'.thread thread).id = (kernel.thread thread).id
  lastId : kernel'.lastId = kernel.lastId

/-- Other parts of the kernel leave the identifiers alone. -/
def HandleEntry.Apart (state : HandleKernel) : HandleEntry → Prop
  | .other kernel => SameIds state.kernel kernel
  | _ => True

/-- There is an identifier that is not used above the last one. -/
def Kernel.Above (kernel : Kernel) : Prop :=
  ∃ id, kernel.lastId < id ∧ id < MAX_RESOURCES ∧ kernel.idmask id = false

/-- No identifier is taken when there is none above the last one. -/
def HandleEntry.Above (state : HandleKernel) : HandleEntry → Prop
  | .createThread _ _ _ | .kthreadCreate _ _ _ _ | .newUniqueId => state.kernel.Above
  | _ => True

/-- One entry that meets a condition. -/
def HandleStep (meets : HandleKernel → HandleEntry → Prop) (state state' : HandleKernel) :
    Prop :=
  ∃ entry code, entry.Apart state ∧ meets state entry ∧ state.enter entry = .ok (code, state')

/-- No system call takes a handle for a thread: each ends as for a thread that does not
exist. -/
structure HandleKernel.Ignores (thread : Handle) (state : HandleKernel) : Prop where
  wait : ∀ wait, state.sysWaitForThread (some thread) wait = .ok (state.exit SUCCESS)
  cancel : state.sysCancelThread (some thread) = .ok (state.exit SUCCESS)
  post : ∀ msg kmsg, state.sysMsgPost (some thread) (some msg) kmsg = .ok (state.exit E_DONT_EXIST)
  descriptor : state.kernel.kthreadGetDescriptor thread = none
  params : ∀ schedPolicy prio, state.sysSetThreadSchedParams (some thread) schedPolicy prio =
    .ok (state.exit E_INVALID_HANDLE)

section Identifiers

variable {kernel kernel' : Kernel} {idmask : Nat → Bool} {starting fuel last id : Nat}

/-- Where the search for an identifier stays in the table, it is the same as without the word
behind it. -/
theorem newIdLoop_agrees (found : Kernel.newIdLoop idmask starting fuel last = .ok id) :
    HandleKernel.newIdLoop idmask starting fuel last = .ok id := by
  induction fuel generalizing last with
  | zero => cases found
  | succ fuel ih =>
      unfold Kernel.newIdLoop at found
      unfold HandleKernel.newIdLoop
      dsimp only at found ⊢
      split at found
      · cases found
      next differs =>
        rw [if_neg differs]
        split at found
        · cases found
        split at found
        · next used =>
          rw [if_pos used]
          exact ih found
        · next unused =>
          rw [if_neg unused]
          exact found

theorem kNewUniqueId_agrees (taken : kernel.kNewUniqueId = .ok kernel') :
    HandleKernel.kNewUniqueId kernel = .ok kernel' := by
  obtain ⟨id, found, rfl⟩ := map_ok taken
  unfold HandleKernel.kNewUniqueId
  rw [newIdLoop_agrees found]
  rfl

/-- The search goes up to the first identifier that is not used. -/
theorem newIdLoop_above {target : Nat} (atLeast : starting ≤ last) (below : last < target)
    (inRange : target < MAX_RESOURCES) (unused : idmask target = false)
    (enough : target ≤ last + fuel) :
    ∃ id, HandleKernel.newIdLoop idmask starting fuel last = .ok id ∧ last < id ∧ id ≤ target := by
  induction fuel generalizing last with
  | zero => omega
  | succ fuel ih =>
      have next : (last + 1) % MAX_RESOURCES = last + 1 := Nat.mod_eq_of_lt (by omega)
      have notStart : last + 1 ≠ starting := by omega
      unfold HandleKernel.newIdLoop
      simp only [next, if_neg notStart]
      split
      · next used =>
        have further : last + 1 ≠ target := by
          rintro rfl
          rw [unused] at used
          cases used
        obtain ⟨id, found, greater, upper⟩ := @ih (last + 1) (by omega) (by omega) (by omega)
        exact ⟨id, found, by omega, upper⟩
      · exact ⟨last + 1, rfl, Nat.lt_succ_self last, below⟩

theorem Kernel.Above.kNewUniqueId (above : kernel.Above)
    (taken : HandleKernel.kNewUniqueId kernel = .ok kernel') :
    kernel.lastId < kernel'.lastId ∧ kernel'.lastId < MAX_RESOURCES ∧
      kernel'.sched = kernel.sched := by
  obtain ⟨target, greater, inRange, unused⟩ := above
  obtain ⟨id, found, bigger, upper⟩ := newIdLoop_above (Nat.le_refl kernel.lastId) greater
    inRange unused (show target ≤ kernel.lastId + MAX_RESOURCES by omega)
  obtain ⟨id', found', rfl⟩ := map_ok taken
  obtain rfl : id = id' := Except.ok.inj (found.symm.trans found')
  exact ⟨bigger, by dsimp only; omega, rfl⟩

end Identifiers

namespace SameIds

variable {kernel kernel' kernel'' : Kernel} {sched' : Sched} {kthread : Ptr} {queue : QueueId}

theorem refl (kernel : Kernel) : SameIds kernel kernel := ⟨fun _ => rfl, rfl⟩

theorem trans (first : SameIds kernel kernel') (second : SameIds kernel' kernel'') :
    SameIds kernel kernel'' :=
  ⟨fun thread => (second.id thread).trans (first.id thread), second.lastId.trans first.lastId⟩

theorem of_eq (threads : kernel'.sched.threads = kernel.sched.threads)
    (lastId : kernel'.lastId = kernel.lastId) : SameIds kernel kernel' :=
  ⟨fun thread => congrArg (fun threads => (threads thread).id) threads, lastId⟩

theorem of_core (core : SameCore kernel kernel') : SameIds kernel kernel' :=
  of_eq (congrArg Sched.threads core.sched) core.lastId

theorem setThread {change : Thread → Thread}
    (same : (change (kernel.thread kthread)).id = (kernel.thread kthread).id) :
    SameIds kernel (kernel.setThread kthread change) where
  id := fun thread => by
    by_cases isThread : thread = kthread
    · subst isThread
      have stored : (kernel.setThread thread change).thread thread =
          change (kernel.thread thread) := Kernel.setThread_same
      rw [stored, same]
    · have kept : (kernel.setThread kthread change).thread thread = kernel.thread thread :=
        Kernel.setThread_other isThread
      rw [kept]
  lastId := rfl

theorem setErrno (kernel : Kernel) (errnum : Int) : SameIds kernel (kernel.setErrno errnum) :=
  setThread rfl

end SameIds

/-- The scheduler changes no identifiers. -/
def Sched.SameIds (sched sched' : Sched) : Prop :=
  ∀ thread, (sched'.threads thread).id = (sched.threads thread).id

namespace Sched.SameIds

variable {sched sched' sched'' : Sched} {kernel : Kernel} {thread : Ptr} {queue : QueueId}

theorem trans (first : sched.SameIds sched') (second : sched'.SameIds sched'') :
    sched.SameIds sched'' :=
  fun thread => (second thread).trans (first thread)

theorem of_eq (threads : sched'.threads = sched.threads) : sched.SameIds sched' :=
  fun thread => congrArg (fun threads => (threads thread).id) threads

theorem toKernel (same : kernel.sched.SameIds sched') :
    Oseer.SameIds kernel { kernel with sched := sched' } := ⟨same, rfl⟩

theorem setThread {change : Thread → Thread}
    (same : (change (sched.threads thread)).id = (sched.threads thread).id) :
    sched.SameIds (sched.setThread thread change) := by
  intro other
  by_cases isThread : other = thread
  · subst isThread
    rw [Sched.setThread_same, same]
  · rw [Sched.setThread_other isThread]

theorem kthreadMoveToReady (sched : Sched) (thread : Ptr) (place : Nat) :
    sched.SameIds (sched.kthreadMoveToReady thread place) := by
  have stored : sched.SameIds (sched.setThread thread fun descriptor =>
      { descriptor with
        state := .ready, queue := some (.ready (sched.threads thread).prio) }) := setThread rfl
  unfold Sched.kthreadMoveToReady
  dsimp only
  split
  · exact stored.trans (of_eq rfl)
  · exact stored.trans (of_eq rfl)

theorem markIfEmpty (sched : Sched) (prio : Nat) : sched.SameIds (sched.markIfEmpty prio) := by
  unfold Sched.markIfEmpty
  split <;> exact of_eq rfl

theorem kthreadqRelease (sched : Sched) (queue : QueueId) :
    sched.SameIds (sched.kthreadqRelease queue).2 := by
  have removed : sched.SameIds (sched.kthreadqRemove queue 0).2 := of_eq rfl
  unfold Sched.kthreadqRelease
  dsimp only
  split
  · exact removed.trans (kthreadMoveToReady _ _ _)
  · exact removed

theorem releaseLoop (fuel : Nat) (sched : Sched) (queue : QueueId) :
    sched.SameIds (sched.releaseLoop queue fuel).2 := by
  induction fuel generalizing sched with
  | zero => exact of_eq rfl
  | succ fuel ih =>
      unfold Sched.releaseLoop
      dsimp only
      split
      · exact kthreadqRelease sched queue
      · exact (kthreadqRelease sched queue).trans (ih _)

theorem leaveActive (sched : Sched) : sched.SameIds sched.leaveActive := by
  have left : sched.SameIds (sched.kschedDeactivateThread sched.activeThread) := setThread rfl
  unfold Sched.leaveActive
  dsimp only
  split
  · split
    · exact left.trans (kthreadMoveToReady _ _ _)
    · exact left
  · exact of_eq rfl

theorem enterActive {highest : Nat} (entered : sched.enterActive highest = .ok sched') :
    sched.SameIds sched' := by
  unfold Sched.enterActive at entered
  dsimp only at entered
  split at entered
  · cases entered
  · obtain rfl := Except.ok.inj entered
    have removed : sched.SameIds (sched.kthreadqRemove (.ready highest) 0).2 := of_eq rfl
    have becomes : ∀ (sched : Sched) next, sched.SameIds (sched.becomeActive next) := by
      intro sched next
      have moved : sched.SameIds { sched with activeThread := next } := of_eq rfl
      unfold Sched.becomeActive
      exact moved.trans (setThread rfl)
    have activates : ∀ (sched : Sched) next, sched.SameIds (sched.kschedActivateThread next) :=
      fun _ _ => setThread rfl
    exact removed.trans ((markIfEmpty _ highest).trans ((becomes _ _).trans (activates _ _)))

theorem kthreadsSchedule (scheduled : sched.kthreadsSchedule = .ok sched') :
    sched.SameIds sched' := by
  unfold Sched.kthreadsSchedule at scheduled
  dsimp only at scheduled
  split at scheduled
  · cases scheduled
  split at scheduled
  · exact (leaveActive sched).trans (enterActive scheduled)
  · obtain rfl := Except.ok.inj scheduled
    exact of_eq rfl

theorem kthreadRemoveFromReady (sched : Sched) (thread : Ptr) :
    sched.SameIds (sched.kthreadRemoveFromReady thread).2 := by
  have stored : sched.SameIds (sched.setThread thread fun descriptor =>
      { descriptor with queue := some (.ready (sched.threads thread).prio) }) := setThread rfl
  unfold Sched.kthreadRemoveFromReady
  dsimp only
  split
  · exact of_eq rfl
  split
  · exact stored.trans (of_eq rfl)
  · exact stored.trans ((of_eq rfl).trans (markIfEmpty _ _))

theorem kthreadSetPrio {prio : Nat} {set : Nat × Sched}
    (sets : sched.kthreadSetPrio thread prio = .ok set) : sched.SameIds set.2 := by
  have stored : ∀ (sched : Sched) thread, sched.SameIds (sched.storePrio thread prio) :=
    fun _ _ => setThread rfl
  unfold Sched.kthreadSetPrio at sets
  dsimp only at sets
  split at sets
  · obtain ⟨scheduled, schedules, rest⟩ := bind_ok sets
    obtain rfl := Except.ok.inj rest
    exact (stored _ _).trans ((kthreadMoveToReady _ _ _).trans (kthreadsSchedule schedules))
  · obtain ⟨scheduled, schedules, rest⟩ := bind_ok sets
    obtain rfl := Except.ok.inj rest
    exact (kthreadRemoveFromReady _ _).trans ((stored _ _).trans
      ((kthreadMoveToReady _ _ _).trans (kthreadsSchedule schedules)))
  · obtain rfl := Except.ok.inj sets
    exact stored _ _
  · obtain rfl := Except.ok.inj sets
    exact stored _ _

end Sched.SameIds

section Kernels

variable {kernel kernel' : Kernel} {kthread : Ptr} {status : Int} {queue : QueueId}

theorem SameIds.kthreadsSchedule (scheduled : kernel.kthreadsSchedule = .ok kernel') :
    SameIds kernel kernel' := by
  obtain ⟨sched, schedules, rfl⟩ := map_ok scheduled
  exact (Sched.SameIds.kthreadsSchedule schedules).toKernel

theorem SameIds.kthreadEnqueue (kernel : Kernel) (queue : QueueId) :
    SameIds kernel (kernel.kthreadEnqueue queue) := by
  have stored : SameIds kernel (kernel.setThread kernel.activeThread fun descriptor =>
      { descriptor with state := .wait, queue := some queue }) := .setThread rfl
  exact stored.trans (.of_eq rfl rfl)

theorem SameIds.kthreadqRelease (kernel : Kernel) (queue : QueueId) :
    SameIds kernel (kernel.kthreadqRelease queue).2 :=
  (Sched.SameIds.kthreadqRelease kernel.sched queue).toKernel

theorem SameIds.kthreadqReleaseAll (kernel : Kernel) (queue : QueueId) :
    SameIds kernel (kernel.kthreadqReleaseAll queue).2 :=
  (Sched.SameIds.releaseLoop addressCount kernel.sched queue).toKernel

theorem SameIds.leaveQueue (left : kernel.leaveQueue kthread = .ok kernel') :
    SameIds kernel kernel' := by
  unfold Kernel.leaveQueue at left
  split at left
  · cases left
  · obtain rfl := Except.ok.inj left
    exact .of_eq rfl rfl

theorem SameIds.releaseResources (released : kernel.releaseResources kthread = .ok kernel') :
    SameIds kernel kernel' :=
  .of_core (Kernel.releaseResources_core released)

theorem SameIds.endThread (kernel : Kernel) (kthread : Ptr) (status : Int) :
    SameIds kernel (kernel.endThread kthread status) := by
  have stored : SameIds kernel (kernel.setThread kthread fun descriptor => { descriptor with
    refCnt := descriptor.refCnt - 1, exitStatus := status }) := .setThread rfl
  exact stored.trans (.of_eq rfl rfl)

theorem SameIds.postTo {msgq : MsgqId} {msg : Msg} {kmsg : Ptr} {ran : Int × Kernel}
    (posts : kernel.postTo msgq msg kmsg = .ok ran) : SameIds kernel ran.2 := by
  unfold Kernel.postTo at posts
  dsimp only at posts
  split at posts
  · split at posts
    · obtain rfl := Except.ok.inj posts
      exact .setErrno _ _
    have appended : SameIds kernel { kernel with
      kmsgs := Function.update kernel.kmsgs kmsg msg
      msgs := kernel.msgs.listAppend msgq kmsg } := .of_eq rfl rfl
    have released := appended.trans (.kthreadqRelease _ (.thrq msgq))
    split at posts
    · obtain ⟨scheduled, schedules, rfl⟩ := map_ok posts
      exact released.trans ((kthreadsSchedule schedules).trans (.setErrno _ _))
    · obtain rfl := Except.ok.inj posts
      exact released.trans (.setErrno _ _)
  · obtain rfl := Except.ok.inj posts
    exact .setErrno _ _

end Kernels

end Oseer
