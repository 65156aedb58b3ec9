import Oseer.Cancellation
import Oseer.SchedRuns

/-!
# One call of `sys__cancel_thread`

`EXIT` evaluates its argument for the error number and again for the value that is returned, so
that `sys__cancel_thread` calls `kthread_cancel` twice.  The first call leaves a thread that was
ready or waited in the state it had, and the second one does everything again.
-/

namespace Oseer

open Results

variable {kernel kernel' : Kernel} {sched sched' : Sched} {thread other : Ptr} {status : Int}
  {handle : Handle} {result : Int × Kernel} {highest : Nat}

/-- The thread waits for the end of another one. -/
def Kernel.Joins (kernel : Kernel) (thread other : Ptr) : Prop :=
  (kernel.thread other).state = .wait ∧ (kernel.thread other).queue = some (.join thread)

/-- The blocks of the stack pool that a thread holds, with the pool. -/
def Kernel.poolBlocks (kernel : Kernel) (thread : Ptr) : List (Ptr × Ptr) :=
  let descriptor := kernel.thread thread
  let proc := kernel.processes descriptor.proc
  (if descriptor.stack ≠ 0 ∧ proc.start ≠ 0 then [(proc.stackPool, descriptor.stack)] else []) ++
    if descriptor.privateStorage ≠ 0 then [(proc.stackPool, descriptor.privateStorage)] else []

/-- A thread is cancelled exactly once. -/
structure Kernel.CancelledOnce (before after : Kernel) (thread : Ptr) : Prop where
  refCnt : (after.thread thread).refCnt = (before.thread thread).refCnt - 1
  thrCount : (after.processes (before.thread thread).proc).thrCount =
    (before.processes (before.thread thread).proc).thrCount - 1
  poolBlocks : after.ffsFreed.Perm (before.poolBlocks thread ++ before.ffsFreed)
  id : after.idmask = before.idmask ∨
    after.idmask = Function.update before.idmask (before.thread thread).id false
  teardown : (before.processes (before.thread thread).proc).thrCount ≠ 1 →
    after.procs = before.procs
  threads : ∀ other, other ≠ thread →
    { (after.thread other).toThreadData with errno := 0 } =
        { (before.thread other).toThreadData with errno := 0 } ∧
      ((after.thread other).state = .wait ↔
        (before.thread other).state = .wait ∧ ¬ before.Joins thread other)
  processes : ∀ proc, proc ≠ (before.thread thread).proc →
    after.processes proc = before.processes proc

/-- The handle of a thread that is ready or waits. -/
structure Kernel.Cancellable (kernel : Kernel) (handle : Handle) : Prop where
  nonzero : handle.thread ≠ 0
  valid : (kernel.thread handle.thread).id = handle.thrId
  inactive : (kernel.thread handle.thread).state = .ready ∨
    (kernel.thread handle.thread).state = .wait

/-- A call of `sys__cancel_thread` returns and cancels the thread exactly once. -/
def Kernel.CancelsOnce (kernel : Kernel) (handle : Handle) : Prop :=
  ∃ result, kernel.sysCancelThread (some handle) = .ok result ∧
    kernel.CancelledOnce result.2 handle.thread

section Schedule

theorem SameData.leaveActive (sched : Sched) : SameData sched sched.leaveActive := by
  have left : SameData sched (sched.kschedDeactivateThread sched.activeThread) := .setThread rfl
  unfold Sched.leaveActive
  dsimp only
  split
  · split
    · exact left.trans (.kthreadMoveToReady _ _ _)
    · exact left
  · exact .refl _

theorem SameData.enterActive (entered : sched.enterActive highest = .ok sched') :
    SameData sched sched' := by
  unfold Sched.enterActive at entered
  dsimp only at entered
  split at entered
  · cases entered
  · obtain rfl := Except.ok.inj entered
    have marked : SameData sched
        ((sched.kthreadqRemove (.ready highest) 0).2.markIfEmpty highest) :=
      .markIfEmpty (sched.kthreadqRemove (.ready highest) 0).2 highest
    apply marked.trans
    unfold Sched.makeActive Sched.kschedActivateThread Sched.becomeActive
    dsimp only
    generalize (sched.kthreadqRemove (.ready highest) 0).2.markIfEmpty highest = moved
    generalize (sched.kthreadqRemove (.ready highest) 0).1 = next
    have becomes : SameData moved (({ moved with activeThread := next } : Sched).setThread next
        fun descriptor => { descriptor with state := .active, queue := none }) :=
      sameData_update rfl rfl
    exact becomes.trans (.setThread rfl)

theorem SameData.kthreadsSchedule (scheduled : sched.kthreadsSchedule = .ok sched') :
    SameData sched sched' := by
  unfold Sched.kthreadsSchedule at scheduled
  dsimp only at scheduled
  split at scheduled
  · cases scheduled
  split at scheduled
  · exact (SameData.leaveActive sched).trans (.enterActive scheduled)
  · obtain rfl := Except.ok.inj scheduled
    exact .refl _

end Schedule

/-- The descriptor of a thread says that it can be cancelled. -/
structure Sched.Cancels (sched : Sched) (thread : Ptr) : Prop where
  unfinished : (sched.threads thread).state ≠ .passive
  current : (sched.threads thread).state = .active → thread = sched.activeThread

namespace Sched.Cancels

theorem of_inactive (unfinished : (sched.threads thread).state ≠ .passive)
    (inactive : (sched.threads thread).state ≠ .active) : sched.Cancels thread :=
  ⟨unfinished, fun active => absurd active inactive⟩

theorem congr (cancels : sched.Cancels thread)
    (state : (sched'.threads thread).state = (sched.threads thread).state)
    (active : sched'.activeThread = sched.activeThread) : sched'.Cancels thread := by
  constructor
  · rw [state]
    exact cancels.unfinished
  · rw [state, active]
    exact cancels.current

/-- A thread that gets ready can be cancelled. -/
theorem kthreadMoveToReady (cancels : sched.Cancels thread) (other : Ptr) (place : Nat) :
    (sched.kthreadMoveToReady other place).Cancels thread := by
  have threads := sched.kthreadMoveToReady_threads other place
  by_cases same : thread = other
  · subst same
    have ready : ((sched.kthreadMoveToReady thread place).threads thread).state = .ready := by
      rw [threads, Function.update_self]
    apply of_inactive <;> rw [ready] <;> decide
  · apply cancels.congr
    · rw [threads, Function.update_of_ne same]
    · unfold Sched.kthreadMoveToReady
      dsimp only
      split <;> rfl

theorem kthreadqRelease (cancels : sched.Cancels thread) (queue : QueueId) :
    (sched.kthreadqRelease queue).2.Cancels thread := by
  have removed : (sched.kthreadqRemove queue 0).2.Cancels thread := cancels.congr rfl rfl
  unfold Sched.kthreadqRelease
  dsimp only
  split
  · exact removed.kthreadMoveToReady _ _
  · exact removed

theorem releaseLoop (cancels : sched.Cancels thread) (queue : QueueId) (fuel : Nat) :
    (sched.releaseLoop queue fuel).2.Cancels thread := by
  induction fuel generalizing sched with
  | zero => exact cancels
  | succ fuel ih =>
      unfold Sched.releaseLoop
      dsimp only
      split
      · exact cancels.kthreadqRelease queue
      · exact ih (cancels.kthreadqRelease queue)

theorem markIfEmpty (cancels : sched.Cancels thread) (prio : Nat) :
    (sched.markIfEmpty prio).Cancels thread := by
  unfold Sched.markIfEmpty
  split
  · exact cancels.congr rfl rfl
  · exact cancels

/-- No thread is active when the active one has left. -/
theorem leaveActive (cancels : sched.Cancels thread) (nonzero : thread ≠ 0) :
    (sched.leaveActive.threads thread).state ≠ .passive ∧
      (sched.leaveActive.threads thread).state ≠ .active := by
  have left : (sched.kschedDeactivateThread sched.activeThread).Cancels thread := by
    refine cancels.congr ?_ rfl
    unfold Sched.kschedDeactivateThread Sched.setThread
    by_cases same : thread = sched.activeThread
    · rw [same]
      simp
    · simp [same]
  unfold Sched.leaveActive
  dsimp only
  split
  · rename_i some
    split
    · by_cases same : thread = sched.activeThread
      · rw [same, Sched.kthreadMoveToReady_threads, Function.update_self]
        simp
      · rw [Sched.kthreadMoveToReady_threads, Function.update_of_ne same]
        exact ⟨left.unfinished, fun active => same (left.current active)⟩
    · rename_i stopped
      refine ⟨left.unfinished, fun active => ?_⟩
      have isActive : thread = sched.activeThread := left.current active
      rw [isActive] at active
      exact stopped active
  · rename_i none
    refine ⟨cancels.unfinished, fun active => ?_⟩
    have isActive := cancels.current active
    exact none (isActive ▸ nonzero)

theorem enterActive (unfinished : (sched.threads thread).state ≠ .passive)
    (inactive : (sched.threads thread).state ≠ .active)
    (entered : sched.enterActive highest = .ok sched') : sched'.Cancels thread := by
  unfold Sched.enterActive at entered
  dsimp only at entered
  split at entered
  · cases entered
  · obtain rfl := Except.ok.inj entered
    have removed : (sched.kthreadqRemove (.ready highest) 0).2.Cancels thread :=
      of_inactive unfinished inactive
    have marked := removed.markIfEmpty highest
    have stays : ∀ state,
        ((sched.kthreadqRemove (.ready highest) 0).2.markIfEmpty highest).threads thread = state →
          sched.threads thread = state := by
      intro state same
      unfold Sched.markIfEmpty at same
      split at same <;> exact same
    generalize (sched.kthreadqRemove (.ready highest) 0).2.markIfEmpty highest = moved at *
    generalize (sched.kthreadqRemove (.ready highest) 0).1 = next
    unfold Sched.makeActive Sched.kschedActivateThread Sched.becomeActive Sched.setThread
    by_cases same : thread = next
    · subst same
      constructor
      · simp
      · simp
    · constructor
      · simpa [same] using marked.unfinished
      · intro active
        have isActive : (moved.threads thread).state = .active := by simpa [same] using active
        rw [stays _ rfl] at inactive
        exact absurd isActive inactive

theorem kthreadsSchedule (cancels : sched.Cancels thread) (nonzero : thread ≠ 0)
    (scheduled : sched.kthreadsSchedule = .ok sched') : sched'.Cancels thread := by
  unfold Sched.kthreadsSchedule at scheduled
  dsimp only at scheduled
  split at scheduled
  · cases scheduled
  split at scheduled
  · obtain ⟨unfinished, inactive⟩ := cancels.leaveActive nonzero
    exact enterActive unfinished inactive scheduled
  · obtain rfl := Except.ok.inj scheduled
    exact cancels

end Sched.Cancels

section Twice

/-- The end of `kthread_cancel` counts the thread down. -/
theorem Kernel.finishCancel_refCnt (finished : kernel.finishCancel thread status = .ok result) :
    (result.2.thread thread).refCnt = (kernel.thread thread).refCnt - 1 := by
  unfold Kernel.finishCancel at finished
  obtain ⟨ended, ends, finished⟩ := bind_ok finished
  obtain ⟨scheduled, schedules, finished⟩ := bind_ok finished
  obtain rfl := Except.ok.inj finished
  obtain ⟨sched, dispatches, rfl⟩ := map_ok schedules
  have data := SameData.kthreadsSchedule dispatches thread
  have refCnt : (sched.threads thread).refCnt = (ended.thread thread).refCnt :=
    congrArg ThreadData.refCnt data
  exact refCnt.trans (Kernel.endAndRelease_remains ends).2.1

/-- A thread that has ended while it was not active is not marked so. -/
theorem Kernel.finishCancel_cancels (cancels : kernel.sched.Cancels thread)
    (nonzero : thread ≠ 0) (finished : kernel.finishCancel thread status = .ok result) :
    result.2.sched.Cancels thread := by
  unfold Kernel.finishCancel at finished
  obtain ⟨ended, ends, finished⟩ := bind_ok finished
  obtain ⟨scheduled, schedules, finished⟩ := bind_ok finished
  obtain rfl := Except.ok.inj finished
  obtain ⟨sched, dispatches, rfl⟩ := map_ok schedules
  refine Sched.Cancels.kthreadsSchedule ?_ nonzero dispatches
  obtain ⟨released, resources, releases⟩ := bind_ok ends
  have core := Kernel.releaseResources_core resources
  have stored : released.sched.Cancels thread := by
    rw [core.sched, Kernel.endThread_sched]
    refine cancels.congr ?_ rfl
    rw [Sched.setThread_same]
  unfold Kernel.releaseDescriptor at releases
  split at releases
  · obtain ⟨freed, frees, rfl⟩ := map_ok releases
    unfold Kernel.kFreeUniqueId at frees
    split_ifs at frees
    obtain rfl := Except.ok.inj frees
    refine stored.congr ?_ rfl
    unfold Kernel.kfree Kernel.setThread Sched.setThread
    simp
  · obtain rfl := Except.ok.inj releases
    exact stored.releaseLoop (.join thread) addressCount

/-- `kthread_cancel` of a thread that its descriptor says can be cancelled. -/
theorem Kernel.kthreadCancel_refCnt (cancels : kernel.sched.Cancels thread)
    (cancelled : kernel.kthreadCancel thread status = .ok result) :
    (result.2.thread thread).refCnt = (kernel.thread thread).refCnt - 1 := by
  unfold Kernel.kthreadCancel at cancelled
  split at cancelled
  · rename_i passive
    exact absurd passive cancels.unfinished
  · obtain ⟨left, leaves, cancelled⟩ := bind_ok cancelled
    have same := (Kernel.leaveQueue_same leaves).1
    rw [Kernel.finishCancel_refCnt cancelled, ← congrFun same thread]
    congr 2
    unfold Kernel.thread Sched.markIfEmpty
    split <;> rfl
  · obtain ⟨left, leaves, cancelled⟩ := bind_ok cancelled
    have same := (Kernel.leaveQueue_same leaves).1
    rw [Kernel.finishCancel_refCnt cancelled, ← congrFun same thread]
  · rename_i active
    have isActive : thread = kernel.activeThread := cancels.current active
    rw [if_neg (not_not_intro isActive)] at cancelled
    rw [Kernel.finishCancel_refCnt cancelled, Kernel.setThread_same]

/-- A thread that was ready or waited can be cancelled again. -/
theorem Kernel.kthreadCancel_again (nonzero : thread ≠ 0)
    (inactive : (kernel.thread thread).state = .ready ∨ (kernel.thread thread).state = .wait)
    (cancelled : kernel.kthreadCancel thread status = .ok result) :
    result.2.sched.Cancels thread := by
  have unmarked : ∀ sched : Sched, sched.threads thread = kernel.thread thread →
      sched.Cancels thread := by
    intro sched same
    apply Sched.Cancels.of_inactive <;> rw [same] <;> rcases inactive with state | state <;>
      rw [state] <;> decide
  unfold Kernel.kthreadCancel at cancelled
  rcases inactive with ready | waits
  · rw [ready] at cancelled
    obtain ⟨left, leaves, cancelled⟩ := bind_ok cancelled
    have same : left.sched.Cancels thread :=
      unmarked _ (congrFun (Kernel.leaveQueue_same leaves).1 thread)
    exact Kernel.finishCancel_cancels (same.markIfEmpty _) nonzero cancelled
  · rw [waits] at cancelled
    obtain ⟨left, leaves, cancelled⟩ := bind_ok cancelled
    have same : left.sched.Cancels thread :=
      unmarked _ (congrFun (Kernel.leaveQueue_same leaves).1 thread)
    exact Kernel.finishCancel_cancels same nonzero cancelled

/-- The thread is counted down twice. -/
theorem Kernel.Cancellable.refCnt_twice (cancellable : kernel.Cancellable handle)
    (cancelled : kernel.sysCancelThread (some handle) = .ok result) :
    (result.2.thread handle.thread).refCnt = (kernel.thread handle.thread).refCnt - 2 := by
  obtain ⟨nonzero, valid, inactive⟩ := cancellable
  unfold Kernel.sysCancelThread at cancelled
  dsimp only at cancelled
  rw [if_neg nonzero, if_neg (not_not_intro valid)] at cancelled
  have twice : (do
      let cancelled ← kernel.kthreadCancel handle.thread (-1)
      let again ← (cancelled.2.setErrno cancelled.1).kthreadCancel handle.thread (-1)
      return (-again.1, again.2)) = (.ok result : Except Fault (Int × Kernel)) := by
    rcases inactive with state | state <;> rwa [state] at cancelled
  obtain ⟨first, cancels, twice⟩ := bind_ok twice
  obtain ⟨again, cancelsAgain, twice⟩ := bind_ok twice
  obtain rfl := Except.ok.inj twice
  have cancellable := Kernel.kthreadCancel_again nonzero inactive cancels
  have unmarked : (kernel.sched.Cancels handle.thread) := by
    apply Sched.Cancels.of_inactive <;> rcases inactive with state | state <;>
      exact fun same => by cases state.symm.trans same
  have count := Kernel.kthreadCancel_refCnt unmarked cancels
  have noted : (first.2.setErrno first.1).sched.Cancels handle.thread :=
    cancellable.congr (Kernel.setThread_field Thread.state rfl) rfl
  have countAgain := Kernel.kthreadCancel_refCnt noted cancelsAgain
  have errno : ((first.2.setErrno first.1).thread handle.thread).refCnt =
      (first.2.thread handle.thread).refCnt :=
    Kernel.setThread_field (fun descriptor => descriptor.refCnt) rfl
  rw [errno, count] at countAgain
  dsimp only
  omega

end Twice

/-- `sys__cancel_thread` never cancels a thread that is ready or waits exactly once. -/
theorem never_cancels_once (kernel : Kernel) (handle : Handle)
    (cancellable : kernel.Cancellable handle) : ¬ kernel.CancelsOnce handle := by
  rintro ⟨result, cancelled, once⟩
  have twice := cancellable.refCnt_twice cancelled
  have counted := once.refCnt
  omega

/-- The kernel after `kthreads_init`, where the idle thread creates a thread. -/
theorem cancel_sample : ∃ first kernel : Kernel,
    Kernel.boot.kthreadsInit 8184 7960 100 = .ok first ∧ (first.thread 7960).proc = 100 ∧
      (SchedOp.create 8200 7000 5 100).run first = .ok kernel ∧
      kernel.Cancellable ⟨7000, 2⟩ := by
  have evaluated : (do
      let first ← Kernel.boot.kthreadsInit 8184 7960 100
      let kernel ← (SchedOp.create 8200 7000 5 100).run first
      return decide ((first.thread 7960).proc = 100 ∧ (kernel.thread 7000).id = 2 ∧
        (kernel.thread 7000).state = .ready)) = (.ok true : Except Fault Bool) := by
    decide +kernel
  obtain ⟨first, starts, evaluated⟩ := bind_ok evaluated
  obtain ⟨kernel, creates, evaluated⟩ := bind_ok evaluated
  obtain ⟨proc, id, ready⟩ := of_decide_eq_true (Except.ok.inj evaluated)
  exact ⟨first, kernel, starts, proc, creates, by decide, id, .inl ready⟩

theorem never_cancels_once_sample : ∃ kernel : Kernel, kernel.Cancellable ⟨7000, 2⟩ ∧
    ¬ kernel.CancelsOnce ⟨7000, 2⟩ := by
  obtain ⟨first, kernel, -, -, -, cancellable⟩ := cancel_sample
  exact ⟨kernel, cancellable, never_cancels_once kernel ⟨7000, 2⟩ cancellable⟩

/-- The first thread that is created is cancelled. -/
theorem cancels_once_fail : ¬ ∀ (idle stack kernelProc : Ptr) (first : Kernel)
    (state : SchedState) (handle : Handle), idle < addressCount →
    Kernel.boot.kthreadsInit stack idle kernelProc = .ok first →
    Relation.ReflTransGen (SchedStep idle) ⟨first, {idle}⟩ state →
    handle.thread ∈ state.live → state.kernel.Cancellable handle →
    state.kernel.CancelsOnce handle := by
  intro claim
  obtain ⟨first, kernel, starts, proc, creates, cancellable⟩ := cancel_sample
  obtain ⟨members, coherent⟩ := kthreadsInit_coherent (by decide) starts
  have fits : (SchedOp.create 8200 7000 5 100).Fits 7960 first {7960} := by
    refine ⟨by decide, fun all linked mem => ?_, 7960, rfl, proc⟩
    rw [linked.unique coherent.ledger.listed ()] at mem
    exact absurd (List.mem_singleton.mp mem) (by decide)
  have step : SchedStep 7960 ⟨first, {7960}⟩ ⟨kernel, insert 7000 {7960}⟩ := .step fits creates
  obtain ⟨result, cancelled, once⟩ := claim 7960 8184 100 first _ ⟨7000, 2⟩ (by decide) starts
    (.single step) (Set.mem_insert 7000 _) cancellable
  have twice : (result.2.thread 7000).refCnt = (kernel.thread 7000).refCnt - 2 :=
    cancellable.refCnt_twice cancelled
  have counted : (result.2.thread 7000).refCnt = (kernel.thread 7000).refCnt - 1 := once.refCnt
  omega

end Oseer
