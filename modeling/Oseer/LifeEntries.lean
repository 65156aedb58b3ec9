import Oseer.AlarmFrame
import Oseer.Syscalls
import Oseer.TimedKernel

/-!
# What threads hold while others are scheduled

`kthreads_schedule` and the alarm of the kernel change neither what a thread holds nor what
the kernel keeps about threads and processes.  An entry that creates or ends a thread then
has changed these tables by that creation or end alone.
-/

namespace Oseer

open Results Prog Alarms

/-- What a thread holds: its stack, its process, and the references to it. -/
def Thread.holdings (descriptor : Thread) : Ptr × Ptr × Int :=
  (descriptor.stack, descriptor.proc, descriptor.refCnt)

/-- Only the scheduler, and the parts of the descriptors that it changes, differ. -/
structure World.SameHoldings (world world' : World) : Prop where
  kernel : world'.kernel = { world.kernel with sched := world'.kernel.sched }
  life : world'.life = world.life
  holdings : ∀ thread, (world'.thread thread).holdings = (world.thread thread).holdings

variable {world world' world'' : World} {thread : Ptr} {queue : QueueId} {place : Nat}
  {sched sched' : Sched}

namespace World.SameHoldings

theorem refl (world : World) : world.SameHoldings world := ⟨rfl, rfl, fun _ => rfl⟩

theorem trans (first : world.SameHoldings world') (second : world'.SameHoldings world'') :
    world.SameHoldings world'' where
  kernel := by
    rw [second.kernel, first.kernel]
  life := second.life.trans first.life
  holdings := fun thread => (second.holdings thread).trans (first.holdings thread)

theorem of_data {change : Sched → Sched}
    (data : SameData world.kernel.sched (change world.kernel.sched)) :
    world.SameHoldings (world.onSched change) where
  kernel := rfl
  life := rfl
  holdings := fun thread =>
    congrArg (fun data : ThreadData => (data.stack, data.proc, data.refCnt)) (data thread)

theorem setThread {change : Thread → Thread}
    (same : (change (world.thread thread)).holdings = (world.thread thread).holdings) :
    world.SameHoldings (world.onKernel fun kernel => kernel.setThread thread change) where
  kernel := rfl
  life := rfl
  holdings := fun _ => Kernel.setThread_field Thread.holdings same

theorem activeThread_setErrno (errnum : Int) :
    world.SameHoldings (world.onKernel (Kernel.setErrno errnum)) :=
  setThread rfl

end World.SameHoldings

section Moves

theorem SameData.kthreadMoveToReady (sched : Sched) (thread : Ptr) (place : Nat) :
    SameData sched (sched.kthreadMoveToReady thread place) :=
  sameData_update (sched.kthreadMoveToReady_threads thread place) rfl

theorem SameData.kthreadqRelease (sched : Sched) (queue : QueueId) :
    SameData sched (sched.kthreadqRelease queue).2 := by
  unfold Sched.kthreadqRelease
  dsimp only
  split
  · exact SameData.kthreadMoveToReady _ _ _
  · exact .refl _

theorem SameData.releaseLoop (queue : QueueId) (fuel : Nat) (sched : Sched) :
    SameData sched (sched.releaseLoop queue fuel).2 := by
  induction fuel generalizing sched with
  | zero => exact .refl _
  | succ fuel ih =>
      have released := SameData.kthreadqRelease sched queue
      unfold Sched.releaseLoop
      dsimp only
      split
      · exact released
      · exact released.trans (ih _)

theorem SameData.markIfEmpty (sched : Sched) (prio : Nat) :
    SameData sched (sched.markIfEmpty prio) := by
  unfold Sched.markIfEmpty
  split
  · exact .refl _
  · exact .refl _

theorem SameData.setThread {change : Thread → Thread}
    (same : (change (sched.threads thread)).toThreadData = (sched.threads thread).toThreadData) :
    SameData sched (sched.setThread thread change) :=
  sameData_update rfl same

theorem SameData.kthreadEnqueue (sched : Sched) (thread : Ptr) (queue : QueueId) :
    SameData sched (sched.kthreadEnqueue thread queue) :=
  sameData_update rfl rfl

end Moves

section Schedule

open World

theorem rrThreadDeactivate_holdings (thread : Ptr) :
    world.SameHoldings (world.rrThreadDeactivate thread) := by
  unfold World.rrThreadDeactivate
  dsimp only
  have reads : ∀ data : SchedData → SchedData,
      world.SameHoldings (world.getTime.2.setSched thread data) :=
    fun data => ⟨rfl, rfl, fun _ => rfl⟩
  split_ifs
  · exact (reads _).trans (.of_data (SameData.kthreadMoveToReady _ _ _))
  · exact (reads _).trans (.of_data (SameData.kthreadMoveToReady _ _ _))
  · exact reads _
  · exact .refl _

theorem kschedDeactivateThread_holdings (thread : Ptr) :
    world.SameHoldings (world.kschedDeactivateThread thread) := by
  unfold World.kschedDeactivateThread
  dsimp only
  have clears : ∀ world : World,
      world.SameHoldings (world.onSched fun sched => sched.kschedDeactivateThread thread) :=
    fun world => .of_data (SameData.setThread rfl)
  split_ifs
  · exact (rrThreadDeactivate_holdings thread).trans (clears _)
  · exact clears _
  · exact .refl _

theorem leaveActive_holdings : world.SameHoldings world.leaveActive := by
  unfold World.leaveActive
  dsimp only
  split_ifs
  · exact (kschedDeactivateThread_holdings _).trans
      (.of_data (SameData.kthreadMoveToReady _ _ _))
  · exact kschedDeactivateThread_holdings _
  · exact .refl _

theorem enterActive_holdings {highest : Nat} (enters : world.enterActive highest = .ok world') :
    world.SameHoldings world' := by
  unfold World.enterActive at enters
  dsimp only at enters
  split_ifs at enters
  obtain rfl := Except.ok.inj enters
  apply World.SameHoldings.of_data
  have removed : SameData world.kernel.sched
      (world.kernel.sched.kthreadqRemove (.ready highest) 0).2 := .refl _
  have marked := removed.trans (SameData.markIfEmpty _ highest)
  exact marked.trans (sameData_update rfl rfl)

/-- `ksched_activate_thread`. -/
theorem kschedActivateThread_within (thread : Ptr) :
    (World.kschedActivateThread thread).Within World.SameHoldings := by
  unfold World.kschedActivateThread
  refine Within.bind (Within.read .refl) fun world => ?_
  apply Within.ite
  · trivial
  · apply Within.bind
    · unfold World.threadActivate
      split
      · trivial
      · unfold World.rrThreadActivate
        refine Within.bind (Within.modify fun world => ?_) fun _ =>
          Within.bind (Within.read .refl) fun world => trivial
        unfold World.replenish
        split
        · exact ⟨rfl, rfl, fun _ => rfl⟩
        · exact ⟨rfl, rfl, fun _ => rfl⟩
    · exact fun _ => Within.modify fun world => .of_data (SameData.setThread rfl)

theorem kthreadsSchedule_within : World.kthreadsSchedule.Within World.SameHoldings := by
  unfold World.kthreadsSchedule
  refine Within.bind (Within.read .refl) fun world => ?_
  apply Within.ite
  · apply Within.attempt
    intro world world' never
    cases never
  apply Within.ite
  · refine Within.bind (Within.attempt fun world world' enters => ?_) fun _ =>
      Within.bind (Within.read .refl) fun world => kschedActivateThread_within _
    exact leaveActive_holdings.trans (enterActive_holdings enters)
  · trivial

theorem rrTimer_within (param : Ptr) : (World.rrTimer param).Within World.SameHoldings := by
  unfold World.rrTimer
  refine Within.bind (Within.read .refl) fun world => ?_
  apply Within.ite
  · trivial
  · refine Within.bind (Within.modify fun world => ?_) fun _ => kthreadsSchedule_within
    have empties : world.SameHoldings
        (world.setSched param fun data => { data with remainder := ⟨0, 0⟩ }) :=
      ⟨rfl, rfl, fun _ => rfl⟩
    exact empties.trans (.of_data (SameData.kthreadMoveToReady _ _ _))

/-- The alarm functions and what they call leave what the threads hold. -/
theorem host_within (threshold : Time) : (World.host threshold).Within World.SameHoldings where
  refl := .refl
  trans := fun _ _ _ first second => first.trans second
  getTime := fun _ => ⟨rfl, rfl, fun _ => rfl⟩
  timerSet := fun _ _ => ⟨rfl, rfl, fun _ => rfl⟩
  releaseAll := fun id world => by
    change world.SameHoldings
      (world.onSched fun sched => (sched.kthreadqReleaseAll (.alarm id)).2)
    exact .of_data (SameData.releaseLoop (.alarm id) addressCount _)
  enqueue := fun thread id world => .of_data (SameData.kthreadEnqueue _ thread (.alarm id))
  setErrno := fun errnum world => .activeThread_setErrno errnum
  action := fun action param => by
    change (if action = rrTimerAddress then World.rrTimer param else pure ()).Within _
    apply Within.ite
    · exact rrTimer_within param
    · trivial
  schedule := kthreadsSchedule_within

end Schedule

section Entries

variable {threshold : Time} {fuel : Nat} {alarms alarms' : Alarms World}

theorem run_holdings {α : Type} {prog : Prog World α} {ran : α × Alarms World}
    (ownerless : alarms.Ownerless) (within : prog.Within World.SameHoldings)
    (runs : prog.run (Alarms.kAlarmSet (World.host threshold) fuel) alarms = .ok ran) :
    ran.2.Ownerless ∧ alarms.world.SameHoldings ran.2.world :=
  (host_within threshold).run ((host_within threshold).kAlarmSet fuel) within ownerless runs

/-- A thread is created, and then threads are scheduled. -/
theorem enter_createThread {policy prio : Int} {stack kthread : Ptr}
    (ownerless : alarms.Ownerless)
    (enters : World.enter threshold fuel (.createThread policy prio stack kthread) alarms =
      .ok alarms') :
    alarms'.Ownerless ∧ ∃ policy world,
      alarms.world.kthreadCreate policy prio stack kthread
        (alarms.world.thread alarms.world.activeThread).proc = .ok world ∧
      world.SameHoldings alarms'.world := by
  obtain ⟨ran, runs, rfl⟩ := map_ok enters
  unfold World.sysCreateThread at runs
  split at runs
  · obtain ⟨world, never, -⟩ := bind_ok runs
    cases never
  · rw [run_attempt] at runs
    obtain ⟨world, created, runs⟩ := bind_ok runs
    have within : (do World.setErrno SUCCESS; World.kthreadsSchedule).Within
        World.SameHoldings :=
      Within.bind (Within.modify fun _ => .activeThread_setErrno _) fun _ =>
        kthreadsSchedule_within
    have unowned : ({ World.clearRecord alarms with world := world } : Alarms World).Ownerless :=
      ownerless
    obtain ⟨after, same⟩ := run_holdings unowned within runs
    exact ⟨after, _, world, created, same⟩

/-- A program is started, and then threads are scheduled. -/
theorem enter_startProgram {proc pi stackPool stack kthread : Ptr} {prio : Int}
    (ownerless : alarms.Ownerless)
    (enters : World.enter threshold fuel
      (.startProgram proc pi stackPool stack kthread prio) alarms = .ok alarms') :
    alarms'.Ownerless ∧ ∃ world,
      (alarms.world.onKernel (Kernel.setErrno SUCCESS)).startProcess proc pi stackPool stack
        kthread prio = .ok world ∧ world.SameHoldings alarms'.world := by
  obtain ⟨ran, runs, rfl⟩ := map_ok enters
  have starts : World.sysStartProgram proc pi stackPool stack kthread prio =
      (Prog.modify (World.onKernel (Kernel.setErrno SUCCESS)) >>= fun _ =>
        Prog.attempt (World.startProcess proc pi stackPool stack kthread prio) >>= fun _ =>
          World.kthreadsSchedule) := rfl
  rw [starts, run_modify, run_attempt] at runs
  obtain ⟨world, started, runs⟩ := bind_ok runs
  have unowned : ({ World.clearRecord alarms with world := world } : Alarms World).Ownerless :=
    ownerless
  obtain ⟨after, same⟩ := run_holdings unowned kthreadsSchedule_within runs
  exact ⟨after, world, started, same⟩

theorem finishCancel_eq (kthread : Ptr) (status : Int) : World.finishCancel kthread status =
    (Prog.attempt (World.endAndRelease kthread status) >>= fun _ => World.kthreadsSchedule) :=
  rfl

/-- The active thread leaves the processor. -/
def World.dismiss (thread : Ptr) (world : World) : World :=
  world.onKernel fun kernel => kernel.setThread thread fun descriptor =>
    { descriptor with state := .passive }

/-- The active thread ends, and then threads are scheduled. -/
theorem enter_threadExit {status : Int} (ownerless : alarms.Ownerless)
    (active : (alarms.world.thread alarms.world.activeThread).state = .active)
    (enters : World.enter threshold fuel (.threadExit status) alarms = .ok alarms') :
    alarms'.Ownerless ∧ ∃ world,
      World.endAndRelease alarms.world.activeThread status
        (alarms.world.dismiss alarms.world.activeThread) = .ok world ∧
      world.SameHoldings alarms'.world := by
  obtain ⟨ran, runs, rfl⟩ := map_ok enters
  have exits : World.sysThreadExit status = (Prog.get >>= fun world =>
      World.kthreadCancel world.activeThread status >>= fun _ => World.kthreadsSchedule) := rfl
  rw [exits, run_get, run_bind] at runs
  obtain ⟨cancelled, cancels, runs⟩ := bind_ok runs
  unfold World.kthreadCancel at cancels
  rw [run_get] at cancels
  have isActive : ((World.clearRecord alarms).world.thread
      (World.clearRecord alarms).world.activeThread).state = .active := active
  rw [isActive] at cancels
  dsimp only at cancels
  rw [if_neg (not_not.mpr rfl)] at cancels
  rw [run_modify, finishCancel_eq, run_attempt] at cancels
  obtain ⟨world, ended, cancels⟩ := bind_ok cancels
  have unowned : ({ World.clearRecord alarms with world := world } : Alarms World).Ownerless :=
    ownerless
  obtain ⟨unowned', same⟩ := run_holdings unowned kthreadsSchedule_within cancels
  obtain ⟨after, same'⟩ := run_holdings unowned' kthreadsSchedule_within runs
  exact ⟨after, world, ended, same.trans same'⟩

theorem enter_timerInterrupt (ownerless : alarms.Ownerless)
    (enters : World.enter threshold fuel .timerInterrupt alarms = .ok alarms') :
    alarms'.Ownerless ∧ alarms.world.SameHoldings alarms'.world := by
  have unowned : (World.clearRecord alarms).Ownerless := ownerless
  have effect := (host_within threshold).kTimerInterrupt unowned enters
  exact effect

end Entries

end Oseer
