import Oseer.CancelOnce
import Oseer.Waiting

/-!
# Threads that wait for the end of another one

`sys__wait_for_thread` counts the thread that blocks in `ref_cnt` of its target, and the loop of
`wait_for_thread` collects the status when the target has ended.  A thread that comes later is
not counted, but collects all the same; `sys__cancel_thread` counts its target down twice; and a
status of `-E_RETRY` is taken for the answer of the kernel.
-/

namespace Oseer

open LinkedRing Results

variable {kernel kernel' : Kernel} {idle thread target other : Ptr} {alive : Set Ptr}
  {members members' : Members} {all all' : List Ptr} {handle : Handle} {status code : Int}

/-- `sys__wait_for_thread`, with the contents of the user's handle, if there is one. -/
def Kernel.sysWaitForThread (thread : Option Handle) (wait : Bool) (kernel : Kernel) :
    Except Fault (Int × Kernel) :=
  match thread with
  | none => .ok (kernel.exit E_INVALID_HANDLE)
  | some thread =>
      let kthread := thread.thread
      if kthread = 0 then .ok (kernel.exit E_INVALID_HANDLE)
      else if (kernel.thread kthread).id ≠ thread.thrId then .ok (kernel.exit SUCCESS)
      else if (kernel.thread kthread).state ≠ .passive ∧ wait = false then
        .ok (kernel.exit E_NOT_FINISHED)
      else if (kernel.thread kthread).state ≠ .passive then
        let counted := kernel.setThread kthread fun descriptor =>
          { descriptor with refCnt := descriptor.refCnt + 1 }
        let waits := (counted.setErrno E_RETRY).kthreadEnqueue (.join kthread)
        waits.kthreadsSchedule.map fun kernel => (-E_RETRY, kernel)
      else
        let collected := (kernel.setErrno SUCCESS).setThread kthread fun descriptor =>
          { descriptor with refCnt := descriptor.refCnt - 1 }
        let exitStatus := (kernel.thread kthread).exitStatus
        if (collected.thread kthread).refCnt = 0 then
          (collected.kthreadRemoveDescriptor kthread).map fun kernel => (exitStatus, kernel)
        else .ok (exitStatus, collected)

/-- The test of the loop in `wait_for_thread`. -/
def Again (retval : Int) (wait : Bool) : Prop := retval = -E_RETRY ∧ wait = true

/-- The handle of a thread that has not ended. -/
structure Kernel.Joinable (kernel : Kernel) (handle : Handle) : Prop where
  nonzero : handle.thread ≠ 0
  valid : (kernel.thread handle.thread).id = handle.thrId
  unfinished : (kernel.thread handle.thread).state ≠ .passive

/-- The handle of a thread that has ended. -/
structure Kernel.Late (kernel : Kernel) (handle : Handle) : Prop where
  nonzero : handle.thread ≠ 0
  valid : (kernel.thread handle.thread).id = handle.thrId
  finished : (kernel.thread handle.thread).state = .passive

/-- What the kernel keeps in the descriptor for the threads that wait for its thread. -/
def Kernel.record (kernel : Kernel) (thread : Ptr) : Nat × Int × Int :=
  ((kernel.thread thread).id, (kernel.thread thread).refCnt, (kernel.thread thread).exitStatus)

/-- The kernel with the threads alive, the threads that have blocked until the end of another one
and have neither collected its status nor been cancelled, the handle that each of them waits
for, and the status that each thread ended with. -/
structure JoinRun where
  kernel : Kernel
  live : Set Ptr
  waiting : Ptr → List Ptr
  asked : Ptr → Handle
  status : Ptr → Int

namespace JoinRun

/-- The active thread. -/
def self (run : JoinRun) : Ptr := run.kernel.activeThread

/-- The thread is in the loop of `wait_for_thread`. -/
def Pending (run : JoinRun) (thread : Ptr) : Prop := ∃ target, thread ∈ run.waiting target

open Classical in
/-- The threads that wait after a call of `sys__wait_for_thread` that is not a repeated one. -/
noncomputable def joining (run : JoinRun) (handle : Handle) : Ptr → List Ptr :=
  if run.kernel.Joinable handle then
    Function.update run.waiting handle.thread (run.waiting handle.thread ++ [run.self])
  else run.waiting

/-- The threads that wait after a repeated call that returned `code`. -/
def collecting (run : JoinRun) (target : Ptr) (code : Int) : Ptr → List Ptr :=
  if code = -E_RETRY then run.waiting
  else Function.update run.waiting target ((run.waiting target).erase run.self)

open Classical in
/-- The threads alive after a call of `sys__cancel_thread`. -/
noncomputable def survivors (run : JoinRun) (handle : Handle) : Set Ptr :=
  if run.kernel.Cancellable handle then run.live \ {handle.thread} else run.live

open Classical in
/-- The threads that wait after a call of `sys__cancel_thread`. -/
noncomputable def spared (run : JoinRun) (handle : Handle) : Ptr → List Ptr :=
  if run.kernel.Cancellable handle then fun target => (run.waiting target).erase handle.thread
  else run.waiting

/-- A change of the kernel outside of the threads that wait for the end of others.  Threads may
be created. -/
def Spares (idle : Ptr) (run : JoinRun) (kernel : Kernel) (live : Set Ptr) : Prop :=
  ∀ members all, Coherent run.kernel idle run.live members all →
    ∃ members' all', Coherent kernel idle live members' all' ∧
      (∀ target, members' (.join target) = members (.join target)) ∧
      (∀ target ∈ all, target ∈ all' ∧ (target ∈ live ↔ target ∈ run.live) ∧
        kernel.record target = run.kernel.record target) ∧
      (∀ target ∈ all', target ∉ all → target ∈ live ∧ (kernel.thread target).refCnt = 1) ∧
      ∀ target ∉ live, (run.kernel.thread target).state = .passive →
        (kernel.thread target).state = .passive

end JoinRun

/-- A thread is created, ends, waits for the end of another one, tries again, or is cancelled, or
anything else happens.  Where `careful` holds no thread ends with `-E_RETRY` while others wait for
it, nobody asks for the first time for a thread that has ended, and no thread that is ready or
waits is cancelled. -/
inductive JoinStep (idle : Ptr) (careful : Prop) : JoinRun → JoinRun → Prop
  | create {run : JoinRun} {kernel : Kernel} (stack kthread : Ptr) (prio : Int) (proc : Ptr)
      (below : kthread < addressCount)
      (fresh : ∀ all : List Ptr, run.kernel.allThreads.Linked (fun _ => all) → kthread ∉ all)
      (known : ∃ mate ∈ run.live, (run.kernel.thread mate).proc = proc)
      (result : run.kernel.kthreadCreate stack kthread prio true proc = .ok kernel) :
      JoinStep idle careful run { run with kernel := kernel, live := insert kthread run.live }
  | exit {run : JoinRun} {kernel : Kernel} (status : Int) (notIdle : run.self ≠ idle)
      (ready : ¬ run.Pending run.self)
      (result : run.kernel.sysThreadExit status = .ok kernel)
      (told : careful → run.waiting run.self ≠ [] → status ≠ -E_RETRY) :
      JoinStep idle careful run { run with
        kernel := kernel
        live := run.live \ {run.self}
        status := Function.update run.status run.self status }
  | join {run : JoinRun} {kernel : Kernel} {code : Int} (handle : Handle)
      (notIdle : run.self ≠ idle) (ready : ¬ run.Pending run.self)
      (result : run.kernel.sysWaitForThread (some handle) true = .ok (code, kernel))
      (prompt : careful → ¬ run.kernel.Late handle) :
      JoinStep idle careful run { run with
        kernel := kernel
        waiting := run.joining handle
        asked := Function.update run.asked run.self handle }
  | retry {run : JoinRun} {kernel : Kernel} {code : Int} (target : Ptr)
      (pending : run.self ∈ run.waiting target)
      (result : run.kernel.sysWaitForThread (some (run.asked run.self)) true =
        .ok (code, kernel)) :
      JoinStep idle careful run { run with
        kernel := kernel
        waiting := run.collecting target code }
  | cancel {run : JoinRun} {kernel : Kernel} {code : Int} (handle : Handle)
      (ready : ¬ run.Pending run.self)
      (result : run.kernel.sysCancelThread (some handle) = .ok (code, kernel))
      (refused : careful → ¬ run.kernel.Cancellable handle) :
      JoinStep idle careful run { run with
        kernel := kernel
        live := run.survivors handle
        waiting := run.spared handle }
  | other {run : JoinRun} {kernel : Kernel} {live : Set Ptr}
      (spares : run.Spares idle kernel live) :
      JoinStep idle careful run { run with kernel := kernel, live := live }

section Effects

theorem Kernel.record_of_data {descriptor descriptor' : Thread}
    (data : descriptor'.toThreadData = descriptor.toThreadData) :
    (descriptor'.id, descriptor'.refCnt, descriptor'.exitStatus) =
      (descriptor.id, descriptor.refCnt, descriptor.exitStatus) :=
  congrArg (fun data : ThreadData => (data.id, data.refCnt, data.exitStatus)) data

theorem Kernel.record_of_sched (data : SameData kernel.sched kernel'.sched) :
    kernel'.record other = kernel.record other :=
  Kernel.record_of_data (data other)

theorem Kernel.record_setErrno (errnum : Int) :
    (kernel.setErrno errnum).record other = kernel.record other :=
  Kernel.setThread_field (fun descriptor : Thread =>
    (descriptor.id, descriptor.refCnt, descriptor.exitStatus)) rfl

/-- The end of a thread leaves what the kernel keeps of the others. -/
theorem Kernel.endAndRelease_record (ended : kernel.endAndRelease thread status = .ok kernel')
    (different : other ≠ thread) : kernel'.record other = kernel.record other := by
  obtain ⟨released, resources, ended⟩ := bind_ok ended
  have core := Kernel.releaseResources_core resources
  have same : released.record other = kernel.record other := by
    unfold Kernel.record Kernel.thread
    rw [core.sched]
    exact congrArg (fun descriptor : Thread =>
      (descriptor.id, descriptor.refCnt, descriptor.exitStatus)) (Kernel.endThread_other different)
  rw [← same]
  unfold Kernel.releaseDescriptor at ended
  split at ended
  · obtain ⟨freed, frees, rfl⟩ := map_ok ended
    unfold Kernel.kFreeUniqueId at frees
    split_ifs at frees
    obtain rfl := Except.ok.inj frees
    have kept : (released.setThread thread fun descriptor =>
        { descriptor with id := 0 }).thread other = released.thread other :=
      Kernel.setThread_other different
    exact congrArg (fun descriptor : Thread =>
      (descriptor.id, descriptor.refCnt, descriptor.exitStatus)) kept
  · obtain rfl := Except.ok.inj ended
    exact Kernel.record_of_data (SameData.releaseLoop (.join thread) addressCount released.sched
      other)

/-- The identifier of a thread that ends is kept with its descriptor. -/
theorem Kernel.endAndRelease_id (ended : kernel.endAndRelease thread status = .ok kernel')
    (used : (kernel.thread thread).refCnt ≠ 1) :
    (kernel'.thread thread).id = (kernel.thread thread).id := by
  obtain ⟨released, resources, ended⟩ := bind_ok ended
  have descriptor : released.thread thread = { kernel.thread thread with
      refCnt := (kernel.thread thread).refCnt - 1, exitStatus := status } := by
    unfold Kernel.thread
    rw [(Kernel.releaseResources_core resources).sched]
    exact Kernel.endThread_thread
  have stays : (released.thread thread).refCnt ≠ 0 := by
    rw [descriptor]
    exact sub_ne_zero.mpr used
  rw [(Kernel.releaseDescriptor_remains ended).2, if_neg stays, descriptor]

/-- The active thread has ended. -/
structure Exited (idle : Ptr) (kernel kernel' : Kernel) (alive : Set Ptr)
    (members members' : Members) (all all' : List Ptr) (status : Int) : Prop where
  coherent : Coherent kernel' idle (alive \ {kernel.activeThread}) members' all'
  listed : ∀ other, other ∈ all' ↔ other ∈ all ∧
    ¬ (other = kernel.activeThread ∧ (kernel.thread kernel.activeThread).refCnt = 1)
  joins : ∀ target, target ≠ kernel.activeThread →
    members' (.join target) = members (.join target)
  empty : members' (.join kernel.activeThread) = []
  others : ∀ other, other ≠ kernel.activeThread → kernel'.record other = kernel.record other
  exitStatus : (kernel'.thread kernel.activeThread).exitStatus = status
  refCnt : (kernel'.thread kernel.activeThread).refCnt =
    (kernel.thread kernel.activeThread).refCnt - 1
  id : (kernel.thread kernel.activeThread).refCnt ≠ 1 →
    (kernel'.thread kernel.activeThread).id = (kernel.thread kernel.activeThread).id
  passive : (kernel'.thread kernel.activeThread).state = .passive
  dead : ∀ other ∉ alive, (kernel'.thread other).state = (kernel.thread other).state

/-- `sys__thread_exit`. -/
theorem Coherent.exited (coherent : Coherent kernel idle alive members all)
    (notIdle : kernel.activeThread ≠ idle)
    (exits : kernel.sysThreadExit status = .ok kernel') :
    ∃ members' all', Exited idle kernel kernel' alive members members' all all' status := by
  have mem : kernel.activeThread ∈ alive := coherent.running.mem_alive
  have isActive : (kernel.thread kernel.activeThread).state = .active := coherent.running.active
  generalize selfIs : kernel.activeThread = self at *
  have departed := coherent.departed_active
  rw [selfIs] at departed
  obtain ⟨released, members₁, all', ends, ended, settled⟩ :=
    departed.endAndRelease coherent mem notIdle status
  obtain ⟨sched₂, members₂, schedules, coherent₂, -, switches⟩ := settled.kthreadsSchedule
  obtain ⟨sched₃, members₃, schedules', coherent₃, -, switches'⟩ :=
    coherent₂.toSettled.kthreadsSchedule
  generalize stoppedIs : (kernel.setThread self fun descriptor =>
    { descriptor with state := .passive }) = stopped at *
  have finishes : stopped.finishCancel self status =
      .ok (SUCCESS, { released with sched := sched₂ }) := by
    unfold Kernel.finishCancel
    rw [ends]
    change (released.kthreadsSchedule >>= fun kernel => _) = _
    rw [schedules]
    rfl
  have cancels : kernel.kthreadCancel self status =
      .ok (SUCCESS, { released with sched := sched₂ }) := by
    unfold Kernel.kthreadCancel
    rw [isActive]
    dsimp only
    rw [selfIs, if_neg (not_not_intro rfl), stoppedIs]
    exact finishes
  have exits' : kernel.sysThreadExit status =
      .ok { { released with sched := sched₂ } with sched := sched₃ } := by
    unfold Kernel.sysThreadExit
    rw [selfIs, cancels]
    exact schedules'
  obtain rfl := Except.ok.inj (exits.symm.trans exits')
  -- the two calls of the scheduler change no data, and nothing of those that have ended
  have data : ∀ other, (sched₃.threads other).toThreadData =
      (released.thread other).toThreadData := fun other =>
    (switches'.data other).trans (switches.data other)
  have joined : ∀ target, members₃ (.join target) = members₁ (.join target) := fun target =>
    (switches'.waiting _ rfl id).trans (switches.waiting _ rfl id)
  have stays : ∀ other ∉ alive \ {self}, (sched₃.threads other).state =
      (released.thread other).state := fun other outside =>
    (switches'.dead other outside).1.trans (switches.dead other outside).1
  have before : stopped.thread self = { kernel.thread self with state := .passive } := by
    rw [← stoppedIs, Kernel.setThread_same]
  obtain ⟨exitStatus, refCnt, -⟩ := Kernel.endAndRelease_remains ends
  rw [before] at refCnt
  refine ⟨members₃, all', ?_⟩
  constructor
  case coherent =>
    rw [selfIs]
    exact coherent₃
  case listed =>
    intro other
    rw [ended.listed, selfIs, refCnt]
    exact and_congr_right fun _ => not_congr (and_congr_right fun _ => sub_eq_zero)
  case joins =>
    intro target different
    rw [selfIs] at different
    rw [joined, ended.waiting _ rfl]
    exact fun same => different (QueueId.join.inj same)
  case empty =>
    rw [selfIs, joined]
    exact ended.empty
  case others =>
    intro other different
    rw [selfIs] at different
    have same : released.record other = stopped.record other :=
      Kernel.endAndRelease_record ends different
    have kept : stopped.record other = kernel.record other := by
      unfold Kernel.record
      rw [departed.others other different]
    exact (Kernel.record_of_data (data other)).trans (same.trans kept)
  case exitStatus =>
    rw [selfIs]
    exact (congrArg ThreadData.exitStatus (data self)).trans exitStatus
  case refCnt =>
    rw [selfIs]
    exact (congrArg ThreadData.refCnt (data self)).trans refCnt
  case id =>
    rw [selfIs]
    intro used
    have used' : (stopped.thread self).refCnt ≠ 1 := by
      rw [before]
      exact used
    have id : (released.thread self).id = (stopped.thread self).id :=
      Kernel.endAndRelease_id ends used'
    rw [before] at id
    exact (congrArg ThreadData.id (data self)).trans id
  case passive =>
    rw [selfIs]
    have state : (released.thread self).state = .passive := by
      rw [ended.state, before]
    exact (stays self fun inside => inside.2 rfl).trans state
  case dead =>
    intro other dead
    have different : other ≠ self := fun same => dead (same ▸ mem)
    have notIn : other ∉ members (.join self) := fun inQueue =>
      dead (coherent.sound.mem_alive _ other inQueue)
    have same := ended.others other different notIn
    rw [departed.others other different] at same
    exact (stays other fun inside => dead inside.1).trans (congrArg Thread.state same)

theorem Kernel.kthreadEnqueue_other {queue : QueueId} (nonzero : kernel.activeThread ≠ 0)
    (different : other ≠ kernel.activeThread) :
    (kernel.kthreadEnqueue queue).thread other = kernel.thread other := by
  have nonzero' : kernel.sched.activeThread ≠ 0 := nonzero
  unfold Kernel.kthreadEnqueue Kernel.thread
  rw [Sched.kthreadEnqueue_active queue nonzero']
  have threads := kernel.sched.kthreadEnqueue_threads queue nonzero'
  exact (congrFun threads other).trans (Function.update_of_ne different ..)

/-- The active thread has blocked until the end of another one. -/
structure Joined (idle : Ptr) (kernel kernel' : Kernel) (target : Ptr) (alive : Set Ptr)
    (members members' : Members) (all : List Ptr) : Prop where
  coherent : Coherent kernel' idle alive members' all
  joins : ∀ other, members' (.join other) =
    enqueued members (.join target) kernel.activeThread (.join other)
  others : ∀ other, other ≠ target → kernel'.record other = kernel.record other
  id : (kernel'.thread target).id = (kernel.thread target).id
  refCnt : (kernel'.thread target).refCnt = (kernel.thread target).refCnt + 1
  dead : ∀ other ∉ alive, (kernel'.thread other).state = (kernel.thread other).state

theorem Coherent.joined (coherent : Coherent kernel idle alive members all)
    (mem : target ∈ alive) (notIdle : kernel.activeThread ≠ idle)
    (scheduled : (((kernel.setThread target fun descriptor =>
        { descriptor with refCnt := descriptor.refCnt + 1 }).setErrno E_RETRY).kthreadEnqueue
          (.join target)).kthreadsSchedule = .ok kernel') :
    ∃ members', Joined idle kernel kernel' target alive members members' all := by
  generalize countedIs : (kernel.setThread target fun descriptor =>
    { descriptor with refCnt := descriptor.refCnt + 1 }) = counted at scheduled
  have counts : Coherent counted idle alive members all := by
    rw [← countedIs]
    exact coherent.setThread rfl rfl rfl rfl rfl (by simp)
  have active : counted.activeThread = kernel.activeThread := by
    rw [← countedIs]
    rfl
  have more : counted.thread target = { kernel.thread target with
      refCnt := (kernel.thread target).refCnt + 1 } := by
    rw [← countedIs, Kernel.setThread_same]
  have others : ∀ other, other ≠ target → counted.thread other = kernel.thread other := by
    intro other different
    rw [← countedIs, Kernel.setThread_other different]
  have noted := counts.setErrno E_RETRY
  have inAll := coherent.ledger.alive_listed target mem
  have room : ∀ thread, QueueId.join target = .join thread → thread ∈ all ∧
      ((members (.join thread)).length : Int) + 1 <
        ((counted.setErrno E_RETRY).thread thread).refCnt := by
    rintro thread same
    obtain rfl := QueueId.join.inj same
    have before := coherent.ledger.counted target inAll
    have after : ((counted.setErrno E_RETRY).thread target).refCnt =
        (kernel.thread target).refCnt + 1 :=
      (Kernel.setThread_field (fun descriptor : Thread => descriptor.refCnt) rfl).trans
        (congrArg (fun descriptor : Thread => descriptor.refCnt) more)
    rw [after]
    exact ⟨inAll, by omega⟩
  have notIdle' : (counted.setErrno E_RETRY).activeThread ≠ idle := active ▸ notIdle
  obtain ⟨settled, data, -⟩ := noted.kthreadEnqueue rfl notIdle' room
    fun _ isThrq => by cases isThrq
  obtain ⟨sched, members', schedules, coherent', -, switches⟩ := settled.kthreadsSchedule
  obtain rfl := Except.ok.inj (scheduled.symm.trans schedules)
  have record : ∀ other, Kernel.record { (counted.setErrno E_RETRY).kthreadEnqueue (.join target)
      with sched := sched } other = counted.record other := fun other =>
    (Kernel.record_of_data ((switches.data other).trans (data other))).trans
      (Kernel.record_setErrno E_RETRY)
  have record' : counted.record target = ((kernel.thread target).id,
      (kernel.thread target).refCnt + 1, (kernel.thread target).exitStatus) := by
    unfold Kernel.record
    rw [more]
  have here := (record target).trans record'
  refine ⟨members', coherent', fun other => ?_, fun other different => ?_,
    congrArg Prod.fst here, congrArg (fun record => record.2.1) here, fun other dead => ?_⟩
  · exact (switches.waiting _ rfl id).trans (by
      rw [← active]
      rfl)
  · refine (record other).trans ?_
    unfold Kernel.record
    rw [others other different]
  · have different : other ≠ target := fun same => dead (same ▸ mem)
    have notActive : other ≠ counted.activeThread := fun same =>
      dead (same ▸ counts.running.mem_alive)
    have nonzero : counted.activeThread ≠ 0 :=
      (coherent.sound.pointer _ counts.running.mem_alive).1.ne'
    have queued : (((counted.setErrno E_RETRY).kthreadEnqueue (.join target)).thread other) =
        (counted.setErrno E_RETRY).thread other := Kernel.kthreadEnqueue_other nonzero notActive
    have noted : ((counted.setErrno E_RETRY).thread other).state = (counted.thread other).state :=
      Kernel.setThread_field Thread.state rfl
    exact (switches.dead other dead).1.trans ((congrArg Thread.state queued).trans
      (noted.trans (congrArg Thread.state (others other different))))

/-- The status of a thread that has ended has been collected. -/
structure Collected (idle : Ptr) (kernel kernel' : Kernel) (target : Ptr) (alive : Set Ptr)
    (members : Members) (all all' : List Ptr) : Prop where
  coherent : Coherent kernel' idle alive members all'
  listed : ∀ other, other ∈ all' ↔
    other ∈ all ∧ ¬ (other = target ∧ (kernel.thread target).refCnt = 1)
  others : ∀ other, other ≠ target → kernel'.record other = kernel.record other
  refCnt : (kernel'.thread target).refCnt = (kernel.thread target).refCnt - 1
  exitStatus : (kernel'.thread target).exitStatus = (kernel.thread target).exitStatus
  id : (kernel'.thread target).id =
    if (kernel.thread target).refCnt = 1 then 0 else (kernel.thread target).id
  idmask : kernel'.idmask = if (kernel.thread target).refCnt = 1 then
    Function.update kernel.idmask (kernel.thread target).id false else kernel.idmask
  kfreed : kernel'.kfreed = if (kernel.thread target).refCnt = 1 then target :: kernel.kfreed
    else kernel.kfreed
  states : ∀ other, (kernel'.thread other).state = (kernel.thread other).state

/-- The invariant when neither a state of a thread nor the active thread has changed. -/
theorem Coherent.of_states (coherent : Coherent kernel idle alive members all)
    (sound : Sound kernel'.sched alive members) (ledger : Ledger kernel' idle alive members all')
    (active : kernel'.activeThread = kernel.activeThread)
    (states : ∀ other, (kernel'.thread other).state = (kernel.thread other).state) :
    Coherent kernel' idle alive members all' := by
  have mem : kernel'.activeThread ∈ alive := active ▸ coherent.running.mem_alive
  refine ⟨⟨sound, ledger, fun _ => mem, ?_⟩, mem, ?_⟩
  · rw [states]
    exact coherent.idle_runs
  · have isActive : (kernel'.thread kernel'.activeThread).state = .active := by
      rw [states, active]
      exact coherent.running.active
    exact isActive

/-- `sys__wait_for_thread` of a thread that has ended. -/
theorem Coherent.collected (coherent : Coherent kernel idle alive members all)
    (dead : target ∉ alive) (mem : target ∈ all) (empty : members (.join target) = [])
    (finished : (kernel.thread target).state = .passive) :
    ∃ kernel' all', kernel.sysWaitForThread (some ⟨target, (kernel.thread target).id⟩) true =
        .ok ((kernel.thread target).exitStatus, kernel') ∧
      Collected idle kernel kernel' target alive members all all' := by
  have nonzero : target ≠ 0 := (coherent.ledger.pointer target mem).1.ne'
  have noted := coherent.setErrno SUCCESS
  generalize notedIs : kernel.setErrno SUCCESS = before at noted
  have record : ∀ other, before.record other = kernel.record other := by
    intro other
    rw [← notedIs]
    exact Kernel.record_setErrno SUCCESS
  have state : ∀ other, (before.thread other).state = (kernel.thread other).state := by
    intro other
    rw [← notedIs]
    exact Kernel.setThread_field Thread.state rfl
  have active : before.activeThread = kernel.activeThread := by
    rw [← notedIs]
    rfl
  have idmask : before.idmask = kernel.idmask := by
    rw [← notedIs]
    rfl
  have kfreed : before.kfreed = kernel.kfreed := by
    rw [← notedIs]
    rfl
  have id : (before.thread target).id = (kernel.thread target).id :=
    congrArg Prod.fst (record target)
  have refCnt : (before.thread target).refCnt = (kernel.thread target).refCnt :=
    congrArg (fun record => record.2.1) (record target)
  have exitStatus : (before.thread target).exitStatus = (kernel.thread target).exitStatus :=
    congrArg (fun record => record.2.2) (record target)
  have less : ((before.lessReference target).thread target).refCnt =
      (kernel.thread target).refCnt - 1 := by
    rw [Kernel.lessReference_same, ← refCnt]
  have unfolded : kernel.sysWaitForThread (some ⟨target, (kernel.thread target).id⟩) true =
      if ((before.lessReference target).thread target).refCnt = 0 then
        ((before.lessReference target).kthreadRemoveDescriptor target).map fun kernel' =>
          ((kernel.thread target).exitStatus, kernel')
      else .ok ((kernel.thread target).exitStatus, before.lessReference target) := by
    unfold Kernel.sysWaitForThread
    dsimp only
    rw [if_neg nonzero, if_neg (not_not_intro rfl), if_neg (by simp), if_neg (by simp [finished]),
      notedIs]
    rfl
  rw [unfolded, less]
  have nodup : all.Nodup := (List.nodup_cons.mp (coherent.ledger.listed.nodup ())).2
  by_cases last : (kernel.thread target).refCnt = 1
  · obtain ⟨removes, ledger⟩ := noted.ledger.collectLast dead empty mem
    have states : ∀ other, (((before.lessReference target).withoutDescriptor target).thread
        other).state = (kernel.thread other).state := fun other =>
      (Kernel.withoutReference_field Thread.state Kernel.lessReference_state fun _ => rfl).trans
        (state other)
    have kept : ((before.lessReference target).withoutDescriptor target).thread target =
        { (before.lessReference target).thread target with id := 0 } := by
      rw [Kernel.withoutDescriptor_thread, Kernel.setThread_same]
    rw [if_pos (by omega), removes]
    refine ⟨_, all.erase target, rfl, ?_⟩
    constructor
    case coherent =>
      exact coherent.of_states (noted.sound.withoutReference dead) ledger active states
    case listed =>
      intro other
      rw [nodup.mem_erase_iff]
      simp [last, and_comm]
    case others =>
      intro other different
      rw [← record]
      unfold Kernel.record
      rw [Kernel.withoutReference_other different]
    case refCnt => rw [kept, ← less]
    case exitStatus => rw [kept, Kernel.lessReference_same, ← exitStatus]
    case id => rw [kept, if_pos last]
    case idmask =>
      rw [if_pos last, ← idmask, ← id]
      change Function.update before.idmask ((before.lessReference target).thread target).id
        false = _
      rw [Kernel.lessReference_id]
    case kfreed =>
      rw [if_pos last, ← kfreed]
      rfl
    case states => exact states
  · have used : (before.thread target).refCnt - 1 ≠ 0 := by omega
    have states : ∀ other, ((before.lessReference target).thread other).state =
        (kernel.thread other).state := fun other => Kernel.lessReference_state.trans (state other)
    rw [if_neg (by omega)]
    refine ⟨_, all, rfl, ?_⟩
    constructor
    case coherent =>
      exact coherent.of_states (noted.sound.lessReference dead)
        (noted.ledger.collectEarly empty mem used) active states
    case listed => simp [last]
    case others =>
      intro other different
      rw [← record]
      unfold Kernel.record
      rw [Kernel.lessReference_other different]
    case refCnt => exact less
    case exitStatus => rw [Kernel.lessReference_same, ← exitStatus]
    case id => rw [if_neg last, Kernel.lessReference_id, id]
    case idmask =>
      rw [if_neg last, ← idmask]
      rfl
    case kfreed =>
      rw [if_neg last, ← kfreed]
      rfl
    case states => exact states

/-- A call of `sys__cancel_thread` that cancels nothing. -/
theorem Kernel.sysCancelThread_refused
    (result : kernel.sysCancelThread (some handle) = .ok (code, kernel'))
    (refused : ¬ kernel.Cancellable handle) : ∃ errnum, kernel' = kernel.setErrno errnum := by
  unfold Kernel.sysCancelThread at result
  dsimp only at result
  split at result
  · exact ⟨_, (Prod.mk.inj (Except.ok.inj result)).2.symm⟩
  rename_i nonzero
  split at result
  · exact ⟨_, (Prod.mk.inj (Except.ok.inj result)).2.symm⟩
  rename_i valid
  split at result
  · exact ⟨_, (Prod.mk.inj (Except.ok.inj result)).2.symm⟩
  · exact ⟨_, (Prod.mk.inj (Except.ok.inj result)).2.symm⟩
  · rename_i ready
    exact absurd ⟨nonzero, not_not.mp valid, .inl ready⟩ refused
  · rename_i waits
    exact absurd ⟨nonzero, not_not.mp valid, .inr waits⟩ refused

/-- The descriptors after a thread is created. -/
theorem Coherent.kthreadCreate_threads {stack proc : Ptr} {prio : Int}
    (coherent : Coherent kernel idle alive members all)
    (created : kernel.kthreadCreate stack thread prio true proc = .ok kernel') :
    (∀ other, other ≠ thread → kernel'.thread other = kernel.thread other) ∧
      (kernel'.thread thread).refCnt = 1 := by
  by_cases null : stack = 0 ∨ thread = 0
  · unfold Kernel.kthreadCreate at created
    rw [if_pos null] at created
    cases created
  obtain ⟨stackPointer, nonzero⟩ := not_or.mp null
  rw [coherent.ledger.toRoster.kthreadCreate_eq nonzero stackPointer] at created
  split_ifs at created
  obtain rfl := Except.ok.inj created
  have spec : Created kernel (kernel.numbered.created stack thread prio proc) thread stack
      (Kernel.clampPrio prio) proc := Kernel.created_spec prio
  exact ⟨spec.others, spec.refCnt_eq⟩

end Effects

/-- What holds in every state of a run: the threads that wait are counted, and the descriptor of a
thread that has ended is kept, with its status, as long as some have not collected it. -/
structure JoinRun.Kept (idle : Ptr) (run : JoinRun) (members : Members) (all : List Ptr) :
    Prop where
  coherent : Coherent run.kernel idle run.live members all
  queued : ∀ target ∈ run.live, members (.join target) = run.waiting target
  released : ∀ target ∉ run.live, members (.join target) = []
  gone : ∀ target ∉ all, run.waiting target = []
  running : ∀ target ∈ run.live,
    (run.kernel.thread target).refCnt = (run.waiting target).length + 1
  ended : ∀ target ∈ all, target ∉ run.live →
    (run.kernel.thread target).refCnt = (run.waiting target).length ∧
      (run.kernel.thread target).exitStatus = run.status target ∧ run.status target ≠ -E_RETRY
  passive : ∀ target ∉ run.live, (run.kernel.thread target).state = .passive
  nodup : ∀ target, (run.waiting target).Nodup
  asked : ∀ target, ∀ thread ∈ run.waiting target,
    run.asked thread = ⟨target, (run.kernel.thread target).id⟩

namespace JoinRun

variable {run : JoinRun} {live : Set Ptr}

theorem Kept.listed (kept : run.Kept idle members all) (waits : thread ∈ run.waiting target) :
    target ∈ all := by
  by_contra outside
  rw [kept.gone target outside] at waits
  cases waits

/-- Anything else happens. -/
theorem Kept.spares (kept : run.Kept idle members all) (spares : run.Spares idle kernel live) :
    ∃ members' all', Kept idle { run with kernel := kernel, live := live } members' all' := by
  obtain ⟨members', all', coherent, joins, old, new, states⟩ := spares members all kept.coherent
  have unlisted := kept.coherent.ledger.unlisted
  refine ⟨members', all', ?_⟩
  constructor
  case coherent => exact coherent
  case queued =>
    intro target mem
    rw [joins]
    by_cases inAll : target ∈ all
    · exact kept.queued target ((old target inAll).2.1.mp mem)
    · exact (unlisted target inAll).trans (kept.gone target inAll).symm
  case released =>
    intro target dead
    rw [joins]
    by_cases inAll : target ∈ all
    · exact kept.released target fun mem => dead ((old target inAll).2.1.mpr mem)
    · exact unlisted target inAll
  case gone => exact fun target outside => kept.gone target fun mem => outside (old target mem).1
  case running =>
    intro target mem
    by_cases inAll : target ∈ all
    · obtain ⟨-, lives, record⟩ := old target inAll
      exact (congrArg (fun record => record.2.1) record).trans (kept.running target (lives.mp mem))
    · have counted := (new target (coherent.ledger.alive_listed target mem) inAll).2
      rw [counted, kept.gone target inAll]
      rfl
  case ended =>
    intro target mem dead
    by_cases inAll : target ∈ all
    · obtain ⟨-, lives, record⟩ := old target inAll
      obtain ⟨counted, told, notRetry⟩ := kept.ended target inAll fun mem => dead (lives.mpr mem)
      exact ⟨(congrArg (fun record => record.2.1) record).trans counted,
        (congrArg (fun record => record.2.2) record).trans told, notRetry⟩
    · exact absurd (new target mem inAll).1 dead
  case passive =>
    intro target dead
    apply states target dead
    apply kept.passive
    intro mem
    have inAll := kept.coherent.ledger.alive_listed target mem
    exact dead ((old target inAll).2.1.mpr mem)
  case nodup => exact kept.nodup
  case asked =>
    intro target thread waits
    obtain ⟨-, -, record⟩ := old target (kept.listed waits)
    have id : (kernel.thread target).id = (run.kernel.thread target).id :=
      congrArg Prod.fst record
    rw [id]
    exact kept.asked target thread waits

theorem Spares.setErrno (errnum : Int) :
    run.Spares idle (run.kernel.setErrno errnum) run.live := by
  intro members all coherent
  refine ⟨members, all, coherent.setErrno errnum, fun _ => rfl, fun target mem => ⟨mem, .rfl, ?_⟩,
    fun target mem outside => absurd mem outside, fun target dead passive => ?_⟩
  · exact Kernel.record_setErrno errnum
  · exact (Kernel.setThread_field Thread.state rfl).trans passive

/-- A thread is created. -/
theorem Spares.create {stack kthread proc : Ptr} {prio : Int} (below : kthread < addressCount)
    (fresh : ∀ all : List Ptr, run.kernel.allThreads.Linked (fun _ => all) → kthread ∉ all)
    (known : ∃ mate ∈ run.live, (run.kernel.thread mate).proc = proc)
    (result : run.kernel.kthreadCreate stack kthread prio true proc = .ok kernel) :
    run.Spares idle kernel (insert kthread run.live) := by
  intro members all coherent
  have unused : kthread ∉ all := fresh all coherent.ledger.listed
  have old : ∀ target ∈ all, target ≠ kthread := fun target mem same => unused (same ▸ mem)
  obtain ⟨members', coherent', waiting⟩ := coherent.kthreadCreate unused below known result
  obtain ⟨others, refCnt⟩ := coherent.kthreadCreate_threads result
  refine ⟨members', _, coherent', fun target => waiting _ rfl id, fun target mem => ?_,
    fun target mem outside => ?_, fun target dead passive => ?_⟩
  · refine ⟨List.mem_append_left _ mem, ?_, ?_⟩
    · simp [old target mem]
    · unfold Kernel.record
      rw [others target (old target mem)]
  · rcases List.mem_append.mp mem with inAll | isNew
    · exact absurd inAll outside
    · rw [List.mem_singleton.mp isNew]
      exact ⟨Set.mem_insert .., refCnt⟩
  · rw [others target fun same => dead (.inl same)]
    exact passive

/-- Another thread may run. -/
theorem Spares.schedule (scheduled : run.kernel.kthreadsSchedule = .ok kernel) :
    run.Spares idle kernel run.live := by
  intro members all coherent
  obtain ⟨sched, members', schedules, coherent', -, switches⟩ :=
    coherent.toSettled.kthreadsSchedule
  obtain rfl := Except.ok.inj (scheduled.symm.trans schedules)
  refine ⟨members', all, coherent', fun target => switches.waiting _ rfl id,
    fun target mem => ⟨mem, .rfl, ?_⟩, fun target mem outside => absurd mem outside,
    fun target dead passive => ?_⟩
  · exact Kernel.record_of_data (switches.data target)
  · exact (switches.dead target dead).1.trans passive

/-- A thread that is not in the loop of `wait_for_thread` may ask for another one. -/
theorem Kept.asks (kept : run.Kept idle members all) (ready : ¬ run.Pending run.self)
    (handle : Handle) :
    Kept idle { run with asked := Function.update run.asked run.self handle } members all := by
  refine { kept with asked := fun target thread waits => ?_ }
  have different : thread ≠ run.self := by
    rintro rfl
    exact ready ⟨target, waits⟩
  exact (Function.update_of_ne different ..).trans (kept.asked target thread waits)

/-- The active thread ends. -/
theorem Kept.exit (kept : run.Kept idle members all) (notIdle : run.self ≠ idle)
    (result : run.kernel.sysThreadExit status = .ok kernel)
    (told : run.waiting run.self ≠ [] → status ≠ -E_RETRY) :
    ∃ members' all', Kept idle { run with
      kernel := kernel
      live := run.live \ {run.self}
      status := Function.update run.status run.self status } members' all' := by
  obtain ⟨members', all', exited⟩ := kept.coherent.exited notIdle result
  have mem : run.self ∈ run.live := kept.coherent.running.mem_alive
  have counted := kept.running run.self mem
  have last : (run.kernel.thread run.self).refCnt = 1 ↔ run.waiting run.self = [] := by
    rw [counted, ← List.length_eq_zero_iff]
    omega
  have record : ∀ target, target ≠ run.self → kernel.record target = run.kernel.record target :=
    exited.others
  refine ⟨members', all', ?_⟩
  constructor
  case coherent => exact exited.coherent
  case queued =>
    intro target inLive
    rw [exited.joins target inLive.2]
    exact kept.queued target inLive.1
  case released =>
    intro target dead
    by_cases same : target = run.self
    · rw [same]
      exact exited.empty
    · rw [exited.joins target same]
      exact kept.released target fun inLive => dead ⟨inLive, same⟩
  case gone =>
    intro target outside
    by_cases inAll : target ∈ all
    · by_cases both : target = run.self ∧ (run.kernel.thread run.self).refCnt = 1
      · obtain ⟨rfl, one⟩ := both
        exact last.mp one
      · exact absurd ((exited.listed target).mpr ⟨inAll, both⟩) outside
    · exact kept.gone target inAll
  case running =>
    intro target inLive
    exact (congrArg (fun record => record.2.1) (record target inLive.2)).trans
      (kept.running target inLive.1)
  case ended =>
    intro target inAll' dead
    obtain ⟨inAll, stays⟩ := (exited.listed target).mp inAll'
    by_cases same : target = run.self
    · subst same
      have waits : run.waiting run.self ≠ [] := fun none => stays ⟨rfl, last.mpr none⟩
      have less : (kernel.thread run.self).refCnt = (run.kernel.thread run.self).refCnt - 1 :=
        exited.refCnt
      dsimp only
      rw [Function.update_self, less, counted]
      exact ⟨by omega, exited.exitStatus, told waits⟩
    · obtain ⟨counted, isTold, notRetry⟩ :=
        kept.ended target inAll fun inLive => dead ⟨inLive, same⟩
      dsimp only
      rw [Function.update_of_ne same]
      exact ⟨(congrArg (fun record => record.2.1) (record target same)).trans counted,
        (congrArg (fun record => record.2.2) (record target same)).trans isTold, notRetry⟩
  case passive =>
    intro target dead
    by_cases same : target = run.self
    · rw [same]
      exact exited.passive
    · have wasDead : target ∉ run.live := fun inLive => dead ⟨inLive, same⟩
      exact (exited.dead target wasDead).trans (kept.passive target wasDead)
  case nodup => exact kept.nodup
  case asked =>
    intro target thread waits
    have id : (kernel.thread target).id = (run.kernel.thread target).id := by
      by_cases same : target = run.self
      · rw [same] at waits ⊢
        exact exited.id fun one => List.ne_nil_of_mem waits (last.mp one)
      · exact congrArg Prod.fst (record target same)
    rw [id]
    exact kept.asked target thread waits

/-- The active thread asks for the first time. -/
theorem Kept.join (kept : run.Kept idle members all) (notIdle : run.self ≠ idle)
    (ready : ¬ run.Pending run.self)
    (result : run.kernel.sysWaitForThread (some handle) true = .ok (code, kernel))
    (prompt : ¬ run.kernel.Late handle) :
    ∃ members' all', Kept idle { run with
      kernel := kernel
      waiting := run.joining handle
      asked := Function.update run.asked run.self handle } members' all' := by
  have asks := kept.asks ready handle
  by_cases joinable : run.kernel.Joinable handle
  · obtain ⟨nonzero, valid, unfinished⟩ := joinable
    unfold Kernel.sysWaitForThread at result
    dsimp only at result
    rw [if_neg nonzero, if_neg (not_not_intro valid), if_neg (by simp), if_pos unfinished] at result
    obtain ⟨scheduled, schedules, isResult⟩ := map_ok result
    obtain rfl : kernel = scheduled := (Prod.mk.inj isResult).2.symm
    have mem : handle.thread ∈ run.live := by
      by_contra dead
      exact unfinished (kept.passive _ dead)
    obtain ⟨members', joined⟩ := kept.coherent.joined mem notIdle schedules
    have waiting : run.joining handle = Function.update run.waiting handle.thread
        (run.waiting handle.thread ++ [run.self]) := if_pos ⟨nonzero, valid, unfinished⟩
    have id : ∀ target, (kernel.thread target).id = (run.kernel.thread target).id := by
      intro target
      by_cases same : target = handle.thread
      · rw [same]
        exact joined.id
      · exact congrArg Prod.fst (joined.others target same)
    have others : ∀ target, target ≠ handle.thread →
        members' (.join target) = members (.join target) ∧
          run.joining handle target = run.waiting target := by
      intro target different
      rw [joined.joins, waiting]
      exact ⟨Function.update_of_ne (fun same => different (QueueId.join.inj same)) ..,
        Function.update_of_ne different ..⟩
    have here : run.joining handle handle.thread = run.waiting handle.thread ++ [run.self] := by
      rw [waiting, Function.update_self]
    have joinHere : members' (.join handle.thread) =
        members (.join handle.thread) ++ [run.self] :=
      (joined.joins handle.thread).trans (Function.update_self ..)
    refine ⟨members', all, ?_⟩
    constructor
    case coherent => exact joined.coherent
    case queued =>
      intro target inLive
      dsimp only
      by_cases same : target = handle.thread
      · rw [same, here, joinHere, kept.queued _ mem]
      · obtain ⟨joins, waits⟩ := others target same
        rw [joins, waits]
        exact kept.queued target inLive
    case released =>
      intro target dead
      have different : target ≠ handle.thread := fun same => dead (same ▸ mem)
      rw [(others target different).1]
      exact kept.released target dead
    case gone =>
      intro target outside
      have different : target ≠ handle.thread := fun same =>
        outside (same ▸ kept.coherent.ledger.alive_listed _ mem)
      exact (others target different).2.trans (kept.gone target outside)
    case running =>
      intro target inLive
      dsimp only
      by_cases same : target = handle.thread
      · have counted := kept.running _ mem
        rw [same, here, joined.refCnt, counted, List.length_append, List.length_singleton]
        push_cast
        rfl
      · rw [(others target same).2]
        exact (congrArg (fun record => record.2.1) (joined.others target same)).trans
          (kept.running target inLive)
    case ended =>
      intro target inAll dead
      have different : target ≠ handle.thread := fun same => dead (same ▸ mem)
      obtain ⟨counted, told, notRetry⟩ := kept.ended target inAll dead
      dsimp only
      rw [(others target different).2]
      exact ⟨(congrArg (fun record => record.2.1) (joined.others target different)).trans counted,
        (congrArg (fun record => record.2.2) (joined.others target different)).trans told,
        notRetry⟩
    case passive =>
      intro target dead
      exact (joined.dead target dead).trans (kept.passive target dead)
    case nodup =>
      intro target
      dsimp only
      by_cases same : target = handle.thread
      · rw [same, here]
        have absent : run.self ∉ run.waiting handle.thread := fun waits => ready ⟨_, waits⟩
        exact List.nodup_append.mpr ⟨kept.nodup _, List.nodup_singleton _, by
          rintro first inWaiting second isSelf rfl
          exact absent (List.mem_singleton.mp isSelf ▸ inWaiting)⟩
      · rw [(others target same).2]
        exact kept.nodup target
    case asked =>
      intro target thread waits
      dsimp only at waits ⊢
      rw [id]
      by_cases isSelf : thread = run.self
      · have isTarget : target = handle.thread := by
          by_contra different
          rw [(others target different).2] at waits
          exact ready ⟨target, isSelf ▸ waits⟩
        rw [isSelf, Function.update_self, isTarget, valid]
      · rw [Function.update_of_ne isSelf]
        apply kept.asked
        by_cases same : target = handle.thread
        · rw [same, here] at waits
          rw [same]
          exact (List.mem_append.mp waits).resolve_right fun isLast =>
            isSelf (List.mem_singleton.mp isLast)
        · rwa [(others target same).2] at waits
  · have exits : ∃ errnum, kernel = run.kernel.setErrno errnum := by
      unfold Kernel.sysWaitForThread at result
      dsimp only at result
      by_cases null : handle.thread = 0
      · rw [if_pos null] at result
        exact ⟨_, (Prod.mk.inj (Except.ok.inj result)).2.symm⟩
      · have invalid : (run.kernel.thread handle.thread).id ≠ handle.thrId := by
          intro valid
          by_cases finished : (run.kernel.thread handle.thread).state = .passive
          · exact prompt ⟨null, valid, finished⟩
          · exact joinable ⟨null, valid, finished⟩
        rw [if_neg null, if_pos invalid] at result
        exact ⟨_, (Prod.mk.inj (Except.ok.inj result)).2.symm⟩
    obtain ⟨errnum, rfl⟩ := exits
    have waiting : run.joining handle = run.waiting := if_neg joinable
    rw [waiting]
    exact asks.spares (Spares.setErrno errnum)

/-- A thread that waits runs only when its target has ended: it collects the status, and the
descriptor is freed if nobody else waits. -/
theorem Kept.collected (kept : run.Kept idle members all)
    (pending : run.self ∈ run.waiting target) :
    ∃ kernel all', run.kernel.sysWaitForThread (some (run.asked run.self)) true =
        .ok (run.status target, kernel) ∧
      Collected idle run.kernel kernel target run.live members all all' ∧ target ∈ all ∧
        target ∉ run.live := by
  have dead : target ∉ run.live := by
    intro mem
    rw [← kept.queued target mem] at pending
    exact kept.coherent.active_free pending
  have inAll := kept.listed pending
  obtain ⟨-, told, -⟩ := kept.ended target inAll dead
  obtain ⟨kernel, all', result, collected⟩ :=
    kept.coherent.collected dead inAll (kept.released target dead) (kept.passive target dead)
  rw [kept.asked target run.self pending, ← told]
  exact ⟨kernel, all', result, collected, inAll, dead⟩

/-- A thread that waits tries again. -/
theorem Kept.retry (kept : run.Kept idle members all) (pending : run.self ∈ run.waiting target)
    (result : run.kernel.sysWaitForThread (some (run.asked run.self)) true =
      .ok (code, kernel)) :
    ∃ all', Kept idle { run with kernel := kernel, waiting := run.collecting target code } members
      all' := by
  obtain ⟨kernel', all', result', collected, inAll, dead⟩ := kept.collected pending
  obtain ⟨rfl, rfl⟩ := Prod.mk.inj (Except.ok.inj (result'.symm.trans result))
  obtain ⟨counted, told, notRetry⟩ := kept.ended target inAll dead
  have waiting : run.collecting target (run.status target) =
      Function.update run.waiting target ((run.waiting target).erase run.self) := if_neg notRetry
  have here : run.collecting target (run.status target) target =
      (run.waiting target).erase run.self := by
    rw [waiting, Function.update_self]
  have others : ∀ other, other ≠ target →
      run.collecting target (run.status target) other = run.waiting other := by
    intro other different
    rw [waiting, Function.update_of_ne different]
  have fewer : ((run.waiting target).erase run.self).length + 1 = (run.waiting target).length :=
    List.length_erase_add_one pending
  have lasts : (run.kernel.thread target).refCnt = 1 → (run.waiting target).erase run.self = [] := by
    intro one
    apply List.length_eq_zero_iff.mp
    omega
  refine ⟨all', ?_⟩
  constructor
  case coherent => exact collected.coherent
  case queued =>
    intro other mem
    have different : other ≠ target := fun same => dead (same ▸ mem)
    dsimp only
    rw [others other different]
    exact kept.queued other mem
  case released => exact kept.released
  case gone =>
    intro other outside
    dsimp only
    by_cases same : other = target
    · subst same
      rw [here]
      apply lasts
      by_contra used
      exact outside ((collected.listed other).mpr ⟨inAll, fun both => used both.2⟩)
    · rw [others other same]
      apply kept.gone
      exact fun mem => outside ((collected.listed other).mpr ⟨mem, fun both => same both.1⟩)
  case running =>
    intro other mem
    have different : other ≠ target := fun same => dead (same ▸ mem)
    dsimp only
    rw [others other different]
    exact (congrArg (fun record => record.2.1) (collected.others other different)).trans
      (kept.running other mem)
  case ended =>
    intro other mem dead
    dsimp only
    by_cases same : other = target
    · subst same
      rw [here, collected.refCnt, collected.exitStatus]
      exact ⟨by omega, told, notRetry⟩
    · obtain ⟨counted, told, notRetry⟩ :=
        kept.ended other ((collected.listed other).mp mem).1 dead
      rw [others other same]
      exact ⟨(congrArg (fun record => record.2.1) (collected.others other same)).trans counted,
        (congrArg (fun record => record.2.2) (collected.others other same)).trans told, notRetry⟩
  case passive =>
    intro other dead
    exact (collected.states other).trans (kept.passive other dead)
  case nodup =>
    intro other
    dsimp only
    by_cases same : other = target
    · rw [same, here]
      exact (kept.nodup target).erase run.self
    · rw [others other same]
      exact kept.nodup other
  case asked =>
    intro other thread waits
    dsimp only at waits ⊢
    by_cases same : other = target
    · subst same
      rw [here] at waits
      have used : (run.kernel.thread other).refCnt ≠ 1 := by
        intro one
        rw [lasts one] at waits
        cases waits
      rw [collected.id, if_neg used]
      exact kept.asked other thread (List.mem_of_mem_erase waits)
    · rw [others other same] at waits
      have id : (kernel'.thread other).id = (run.kernel.thread other).id :=
        congrArg Prod.fst (collected.others other same)
      rw [id]
      exact kept.asked other thread waits

/-- Every step that meets the conditions keeps the invariant. -/
theorem Kept.step {run' : JoinRun} (kept : run.Kept idle members all)
    (step : JoinStep idle True run run') : ∃ members' all', run'.Kept idle members' all' := by
  cases step with
  | create stack kthread prio proc below fresh known result =>
      exact kept.spares (Spares.create below fresh known result)
  | exit status notIdle ready result told => exact kept.exit notIdle result (told trivial)
  | join handle notIdle ready result prompt =>
      exact kept.join notIdle ready result (prompt trivial)
  | retry target pending result =>
      obtain ⟨all', kept'⟩ := kept.retry pending result
      exact ⟨members, all', kept'⟩
  | cancel handle ready result refused =>
      obtain ⟨errnum, rfl⟩ := Kernel.sysCancelThread_refused result (refused trivial)
      have live : run.survivors handle = run.live := if_neg (refused trivial)
      have waiting : run.spared handle = run.waiting := if_neg (refused trivial)
      rw [live, waiting]
      exact kept.spares (Spares.setErrno errnum)
  | other spares => exact kept.spares spares

/-- What the threads can rely on that wait for the end of others: they are counted, the descriptor
of a thread that has ended is kept as long as one of them is left, and a thread that tries again
gets the status, and frees the descriptor if it is the last one. -/
structure Protocol (run : JoinRun) (members : Members) (all : List Ptr) : Prop where
  listed : run.kernel.allThreads.Linked fun _ => all
  numbered : ∀ target ∈ all, run.kernel.idmask (run.kernel.thread target).id = true
  running : ∀ target ∈ run.live, target ∈ all ∧ members (.join target) = run.waiting target ∧
    (run.kernel.thread target).refCnt = (run.waiting target).length + 1
  ended : ∀ target ∉ run.live, (target ∈ all ↔ run.waiting target ≠ []) ∧
    (target ∈ all → (run.kernel.thread target).refCnt = (run.waiting target).length)
  collects : ∀ target, run.self ∈ run.waiting target → target ∉ run.live ∧ target ∈ all ∧
    ¬ Again (run.status target) true ∧
    ∃ kernel, run.kernel.sysWaitForThread (some (run.asked run.self)) true =
        .ok (run.status target, kernel) ∧
      kernel.kfreed = (if run.waiting target = [run.self] then target :: run.kernel.kfreed
        else run.kernel.kfreed) ∧
      kernel.idmask = if run.waiting target = [run.self] then
        Function.update run.kernel.idmask (run.asked run.self).thrId false
        else run.kernel.idmask

theorem Kept.protocol (kept : run.Kept idle members all) : run.Protocol members all := by
  have ledger := kept.coherent.ledger
  constructor
  case listed => exact ledger.listed
  case numbered => exact fun target mem => (ledger.known target mem).2.2
  case running =>
    exact fun target mem =>
      ⟨ledger.alive_listed target mem, kept.queued target mem, kept.running target mem⟩
  case ended =>
    intro target dead
    refine ⟨⟨fun mem none => ?_, fun waits => ?_⟩, fun mem => (kept.ended target mem dead).1⟩
    · -- nobody is counted in the descriptor, which the kernel would have freed
      have counted := ledger.counted target mem
      rw [kept.released target dead, (kept.ended target mem dead).1, none] at counted
      exact absurd counted (by decide)
    · by_contra outside
      exact waits (kept.gone target outside)
  case collects =>
    intro target pending
    obtain ⟨kernel, all', result, collected, mem, dead⟩ := kept.collected pending
    obtain ⟨counted, -, notRetry⟩ := kept.ended target mem dead
    have alone : (run.kernel.thread target).refCnt = 1 ↔ run.waiting target = [run.self] := by
      rw [counted]
      constructor
      · intro one
        obtain ⟨only, isOnly⟩ := List.length_eq_one_iff.mp (by exact_mod_cast one)
        rw [isOnly] at pending ⊢
        rw [List.mem_singleton.mp pending]
      · intro same
        rw [same]
        rfl
    refine ⟨dead, mem, fun again => notRetry again.1, kernel, result, ?_, ?_⟩
    · rw [collected.kfreed]
      simp only [alone]
    · rw [collected.idmask, kept.asked target run.self pending]
      simp only [alone]

/-- Nobody waits at first. -/
theorem Kept.start {stack kernelProc : Ptr} (below : idle < addressCount)
    (starts : Kernel.boot.kthreadsInit stack idle kernelProc = .ok run.kernel)
    (live : run.live = {idle}) (none : ∀ target, run.waiting target = []) :
    ∃ members, run.Kept idle members [idle] := by
  obtain ⟨created, settled, spec, schedules⟩ := kthreadsInit_settled below starts
  obtain ⟨sched, members, scheduled, coherent, -, switches⟩ := settled.kthreadsSchedule
  have isKernel := Except.ok.inj (schedules.symm.trans scheduled)
  have waiting : ∀ target, members (.join target) = [] := fun target =>
    switches.waiting _ rfl id
  have refCnt : (run.kernel.thread idle).refCnt = 1 := by
    rw [isKernel]
    exact (congrArg ThreadData.refCnt (switches.data idle)).trans spec.refCnt_eq
  have passive : ∀ target, target ≠ idle → (run.kernel.thread target).state = .passive := by
    intro target different
    have same : (created.thread target).state = .passive := by
      rw [spec.others target different]
      exact started_passive kernelProc target
    rw [isKernel]
    exact (switches.dead target different).1.trans same
  refine ⟨members, ?_⟩
  constructor
  case coherent =>
    rw [isKernel, live]
    exact coherent
  case queued => exact fun target _ => (waiting target).trans (none target).symm
  case released => exact fun target _ => waiting target
  case gone => exact fun target _ => none target
  case running =>
    intro target mem
    rw [live] at mem
    rw [Set.mem_singleton_iff.mp mem, refCnt, none]
    rfl
  case ended =>
    intro target mem dead
    rw [live] at dead
    exact absurd (List.mem_singleton.mp mem) dead
  case passive =>
    intro target dead
    rw [live] at dead
    exact passive target dead
  case nodup =>
    intro target
    rw [none]
    exact List.nodup_nil
  case asked =>
    intro target thread waits
    rw [none] at waits
    cases waits

end JoinRun

section Runs

/-- In every run where no thread ends with `-E_RETRY` while others wait for it, nobody asks for the
first time for a thread that has ended, and no thread that is ready or waits is cancelled. -/
theorem join_protocol {stack kernelProc : Ptr} {first last : JoinRun} (below : idle < addressCount)
    (starts : Kernel.boot.kthreadsInit stack idle kernelProc = .ok first.kernel)
    (live : first.live = {idle}) (none : ∀ target, first.waiting target = [])
    (run : Relation.ReflTransGen (JoinStep idle True) first last) :
    ∃ members all, Coherent last.kernel idle last.live members all ∧
      last.Protocol members all := by
  have kept : ∃ members all, last.Kept idle members all := by
    induction run with
    | refl =>
        obtain ⟨members, kept⟩ := JoinRun.Kept.start below starts live none
        exact ⟨members, [idle], kept⟩
    | tail _ step ih =>
        obtain ⟨members, all, kept⟩ := ih
        exact kept.step step
  obtain ⟨members, all, kept⟩ := kept
  exact ⟨members, all, kept.coherent, kept.protocol⟩

/-- Nothing has been asked for yet. -/
def JoinRun.begin (idle : Ptr) (kernel : Kernel) : JoinRun :=
  ⟨kernel, {idle}, fun _ => [], fun _ => ⟨0, 0⟩, fun _ => 0⟩

/-- The threads of the runs below. -/
def sampleThreads : Set Ptr := insert 7200 (insert 7100 (insert 7000 {7960}))

/-- Three threads are created. -/
theorem JoinStep.begin {careful : Prop} {started one two three running : Kernel}
    (starts : Kernel.boot.kthreadsInit 8184 7960 100 = .ok started)
    (creates : started.kthreadCreate 8200 7000 5 true 100 = .ok one)
    (creates' : one.kthreadCreate 8300 7100 5 true 100 = .ok two)
    (creates'' : two.kthreadCreate 8400 7200 5 true 100 = .ok three)
    (schedules : three.kthreadsSchedule = .ok running)
    (known : (started.thread 7960).proc = 100 ∧ (one.thread 7960).proc = 100 ∧
      (two.thread 7960).proc = 100) :
    Relation.ReflTransGen (JoinStep 7960 careful) (.begin 7960 started)
      { JoinRun.begin 7960 running with live := sampleThreads } := by
  obtain ⟨members, coherent⟩ := kthreadsInit_coherent (by decide) starts
  obtain ⟨known, known', known''⟩ := known
  have mate : ∃ mate ∈ ({7960} : Set Ptr), (started.thread mate).proc = 100 := ⟨7960, rfl, known⟩
  have mate' : ∃ mate ∈ (insert 7000 {7960} : Set Ptr), (one.thread mate).proc = 100 :=
    ⟨7960, .inr rfl, known'⟩
  have mate'' : ∃ mate ∈ (insert 7100 (insert 7000 {7960}) : Set Ptr),
      (two.thread mate).proc = 100 := ⟨7960, .inr (.inr rfl), known''⟩
  obtain ⟨members', coherent', -⟩ := coherent.kthreadCreate (by decide) (by decide) mate creates
  obtain ⟨members'', coherent'', -⟩ :=
    coherent'.kthreadCreate (by decide) (by decide) mate' creates'
  have unused : ∀ {kernel : Kernel} {live : Set Ptr} {members : Members} {all : List Ptr}
      {thread : Ptr}, Coherent kernel 7960 live members all → thread ∉ all →
      ∀ all', kernel.allThreads.Linked (fun _ => all') → thread ∉ all' := by
    intro kernel live members all thread coherent absent all' linked
    rwa [linked.unique coherent.ledger.listed ()]
  have first : JoinStep 7960 careful (.begin 7960 started)
      { JoinRun.begin 7960 one with live := insert 7000 {7960} } :=
    .create 8200 7000 5 100 (by decide) (unused coherent (by decide)) mate creates
  have second : JoinStep 7960 careful { JoinRun.begin 7960 one with live := insert 7000 {7960} }
      { JoinRun.begin 7960 two with live := insert 7100 (insert 7000 {7960}) } :=
    .create 8300 7100 5 100 (by decide) (unused coherent' (by decide)) mate' creates'
  have third : JoinStep 7960 careful
      { JoinRun.begin 7960 two with live := insert 7100 (insert 7000 {7960}) }
      { JoinRun.begin 7960 three with live := sampleThreads } :=
    .create 8400 7200 5 100 (by decide) (unused coherent'' (by decide)) mate'' creates''
  have last : JoinStep 7960 careful { JoinRun.begin 7960 three with live := sampleThreads }
      { JoinRun.begin 7960 running with live := sampleThreads } :=
    .other (JoinRun.Spares.schedule schedules)
  exact (((Relation.ReflTransGen.single first).tail second).tail third).tail last

theorem only_waits {only : Ptr} (different : thread ≠ only) :
    ¬ ∃ other, thread ∈ Function.update (fun _ => ([] : List Ptr)) target [only] other := by
  rintro ⟨other, waits⟩
  by_cases same : other = target
  · subst same
    rw [Function.update_self] at waits
    exact different (List.mem_singleton.mp waits)
  · rw [Function.update_of_ne same] at waits
    cases waits

/-- The first thread blocks until the end of the second one, which ends with 7. -/
theorem JoinStep.ends {careful : Prop} {running blocked ended : Kernel} {code : Int}
    {first : JoinRun}
    (run : Relation.ReflTransGen (JoinStep 7960 careful) first
      { JoinRun.begin 7960 running with live := sampleThreads })
    (active : running.activeThread = 7000) (joinable : running.Joinable ⟨7100, 3⟩)
    (blocks : running.sysWaitForThread (some ⟨7100, 3⟩) true = .ok (code, blocked))
    (active' : blocked.activeThread = 7100) (exits : blocked.sysThreadExit 7 = .ok ended) :
    Relation.ReflTransGen (JoinStep 7960 careful) first
      ⟨ended, sampleThreads \ {7100}, Function.update (fun _ => []) 7100 [7000],
        Function.update (fun _ => ⟨0, 0⟩) 7000 ⟨7100, 3⟩, Function.update (fun _ => 0) 7100 7⟩ := by
  have run := run.tail (.join ⟨7100, 3⟩ (by
      change running.activeThread ≠ 7960
      rw [active]
      decide) (by
      rintro ⟨target, waits⟩
      cases waits) blocks fun _ late => joinable.unfinished late.finished)
  have joining : ({ JoinRun.begin 7960 running with live := sampleThreads } : JoinRun).joining
      ⟨7100, 3⟩ = Function.update (fun _ => []) 7100 [7000] := by
    rw [← active]
    exact if_pos joinable
  rw [joining] at run
  dsimp only [JoinRun.begin, JoinRun.self] at run
  rw [active] at run
  have run := run.tail (.exit 7 (by
      change blocked.activeThread ≠ 7960
      rw [active']
      decide) (by
      apply only_waits
      change blocked.activeThread ≠ 7000
      rw [active']
      decide) exits fun _ _ => by decide)
  unfold JoinRun.self at run
  dsimp only at run
  rw [active'] at run
  exact run

/-- A thread gets the status 7 that its target ended with. -/
theorem join_protocol_sample : ∃ first last : JoinRun,
    Kernel.boot.kthreadsInit 8184 7960 100 = .ok first.kernel ∧
      Relation.ReflTransGen (JoinStep 7960 True) first last ∧ last.self = 7000 ∧
      last.waiting 7100 = [7000] ∧ last.status 7100 = 7 ∧
      ∃ members all, Coherent last.kernel 7960 last.live members all ∧
        last.Protocol members all := by
  have evaluated : (do
      let started ← Kernel.boot.kthreadsInit 8184 7960 100
      let one ← started.kthreadCreate 8200 7000 5 true 100
      let two ← one.kthreadCreate 8300 7100 5 true 100
      let three ← two.kthreadCreate 8400 7200 5 true 100
      let running ← three.kthreadsSchedule
      let blocked ← running.sysWaitForThread (some ⟨7100, 3⟩) true
      let ended ← blocked.2.sysThreadExit 7
      let final ← ended.sysThreadExit 0
      return decide (((started.thread 7960).proc = 100 ∧ (one.thread 7960).proc = 100 ∧
        (two.thread 7960).proc = 100) ∧ running.activeThread = 7000 ∧
        (running.thread 7100).id = 3 ∧ (running.thread 7100).state ≠ .passive ∧
        blocked.2.activeThread = 7100 ∧ ended.activeThread = 7200 ∧
        final.activeThread = 7000)) = (.ok true : Except Fault Bool) := by
    decide +kernel
  obtain ⟨started, starts, evaluated⟩ := bind_ok evaluated
  obtain ⟨one, creates, evaluated⟩ := bind_ok evaluated
  obtain ⟨two, creates', evaluated⟩ := bind_ok evaluated
  obtain ⟨three, creates'', evaluated⟩ := bind_ok evaluated
  obtain ⟨running, schedules, evaluated⟩ := bind_ok evaluated
  obtain ⟨⟨code, blocked⟩, blocks, evaluated⟩ := bind_ok evaluated
  obtain ⟨ended, exits, evaluated⟩ := bind_ok evaluated
  obtain ⟨final, exits', evaluated⟩ := bind_ok evaluated
  obtain ⟨known, active, id, unfinished, active', active'', active3⟩ :=
    of_decide_eq_true (Except.ok.inj evaluated)
  have run : Relation.ReflTransGen (JoinStep 7960 True) (.begin 7960 started) _ :=
    JoinStep.ends (JoinStep.begin starts creates creates' creates'' schedules known) active
      ⟨by decide, id, unfinished⟩ blocks active' exits
  have run := run.tail (.exit 0 (by
      change ended.activeThread ≠ 7960
      rw [active'']
      decide) (by
      apply only_waits
      change ended.activeThread ≠ 7000
      rw [active'']
      decide) exits' fun _ _ => by decide)
  refine ⟨_, _, starts, run, active3, rfl, ?_,
    join_protocol (by decide) starts rfl (fun _ => rfl) run⟩
  change Function.update (Function.update (fun _ => (0 : Int)) 7100 7) ended.activeThread 0 7100 = 7
  rw [active'']
  rfl

/-- A thread that has not blocked collects the status, and the one that waits for it gets 0. -/
theorem join_protocol_fail : ¬ ∀ idle stack kernelProc first last, idle < addressCount →
    Kernel.boot.kthreadsInit stack idle kernelProc = .ok first.kernel →
      first.live = {idle} → (∀ target, first.waiting target = []) →
        Relation.ReflTransGen (JoinStep idle False) first last →
          ∃ members all, Coherent last.kernel idle last.live members all ∧
            last.Protocol members all := by
  intro claim
  have evaluated : (do
      let started ← Kernel.boot.kthreadsInit 8184 7960 100
      let one ← started.kthreadCreate 8200 7000 5 true 100
      let two ← one.kthreadCreate 8300 7100 5 true 100
      let three ← two.kthreadCreate 8400 7200 5 true 100
      let running ← three.kthreadsSchedule
      let blocked ← running.sysWaitForThread (some ⟨7100, 3⟩) true
      let ended ← blocked.2.sysThreadExit 7
      let late ← ended.sysWaitForThread (some ⟨7100, 3⟩) true
      let final ← late.2.sysThreadExit 0
      let again ← final.sysWaitForThread (some ⟨7100, 3⟩) true
      return decide (((started.thread 7960).proc = 100 ∧ (one.thread 7960).proc = 100 ∧
        (two.thread 7960).proc = 100) ∧ running.activeThread = 7000 ∧
        (running.thread 7100).id = 3 ∧ (running.thread 7100).state ≠ .passive ∧
        blocked.2.activeThread = 7100 ∧ ended.activeThread = 7200 ∧
        (ended.thread 7100).state = .passive ∧ late.1 = 7 ∧ late.2.activeThread = 7200 ∧
        final.activeThread = 7000 ∧ again.1 = 0)) = (.ok true : Except Fault Bool) := by
    decide +kernel
  obtain ⟨started, starts, evaluated⟩ := bind_ok evaluated
  obtain ⟨one, creates, evaluated⟩ := bind_ok evaluated
  obtain ⟨two, creates', evaluated⟩ := bind_ok evaluated
  obtain ⟨three, creates'', evaluated⟩ := bind_ok evaluated
  obtain ⟨running, schedules, evaluated⟩ := bind_ok evaluated
  obtain ⟨⟨code, blocked⟩, blocks, evaluated⟩ := bind_ok evaluated
  obtain ⟨ended, exits, evaluated⟩ := bind_ok evaluated
  obtain ⟨⟨code', collected⟩, collects, evaluated⟩ := bind_ok evaluated
  obtain ⟨final, exits', evaluated⟩ := bind_ok evaluated
  obtain ⟨⟨answer, again⟩, retries, evaluated⟩ := bind_ok evaluated
  obtain ⟨known, active, id, unfinished, active', active'', finished, isSeven, active3, active4,
    isZero⟩ := of_decide_eq_true (Except.ok.inj evaluated)
  have run : Relation.ReflTransGen (JoinStep 7960 False) (.begin 7960 started) _ :=
    JoinStep.ends (JoinStep.begin starts creates creates' creates'' schedules known) active
      ⟨by decide, id, unfinished⟩ blocks active' exits
  have run := run.tail (.join ⟨7100, 3⟩ (by
      change ended.activeThread ≠ 7960
      rw [active'']
      decide) (by
      apply only_waits
      change ended.activeThread ≠ 7000
      rw [active'']
      decide) collects False.elim)
  have joining : ∀ {live : Set Ptr} {waiting : Ptr → List Ptr} {asked : Ptr → Handle}
      {status : Ptr → Int},
      JoinRun.joining ⟨ended, live, waiting, asked, status⟩ ⟨7100, 3⟩ = waiting :=
    if_neg fun joinable => joinable.unfinished finished
  rw [joining] at run
  dsimp only [JoinRun.self] at run
  rw [active''] at run
  have run := run.tail (.exit 0 (by
      change collected.activeThread ≠ 7960
      rw [active3]
      decide) (by
      apply only_waits
      change collected.activeThread ≠ 7000
      rw [active3]
      decide) exits' fun _ _ => by decide)
  obtain ⟨members, all, -, protocol⟩ := claim _ _ _ _ _ (by decide) starts rfl (fun _ => rfl) run
  dsimp only [JoinRun.self] at protocol
  rw [active3] at protocol
  have pending : final.activeThread ∈ Function.update (fun _ => []) 7100 [7000] 7100 := by
    rw [active4]
    decide
  obtain ⟨-, -, -, kernel, returns, -⟩ := protocol.collects 7100 pending
  dsimp only [JoinRun.self] at returns
  rw [active4] at returns
  have same := Except.ok.inj (retries.symm.trans returns)
  have isStatus : (answer, again).1 = 7 := congrArg Prod.fst same
  exact absurd (isZero.symm.trans isStatus) (by decide)

end Runs

end Oseer
