import Oseer.TimedRun

/-!
# The active thread where `kthreads_schedule` is entered

`kthreads_schedule` reads the descriptor of the active thread.  The functions of the kernel
that call it are given here with the scheduler as a parameter: with one that looks first
whether the descriptor is freed, the kernel stops at the first call that finds it so.  While the
invariant holds, this check passes wherever the scheduler is entered, however deep in the
alarm functions, and the kernel runs as it does without the check.
-/

namespace Oseer

open Results Prog Alarms

namespace World

section Checked

/-- The descriptor of the active thread is not freed, or there is no active thread. -/
def Spared (world : World) : Prop :=
  world.activeThread = 0 ∨ world.life world.activeThread ≠ .free

instance (world : World) : Decidable world.Spared := inferInstanceAs (Decidable (_ ∨ _))

/-- Look at the active thread, and stop if its descriptor is freed. -/
def checkActive (fault : Fault) (world : World) : Except Fault World :=
  if world.Spared then .ok world else .error fault

/-- `kthreads_schedule`, after a look at the active thread. -/
def checkedSchedule (fault : Fault) : Prog World Unit := do
  Prog.attempt (checkActive fault)
  kthreadsSchedule

end Checked

section With

variable (schedule : Prog World Unit) (threshold : Time) (fuel : Nat)

/-- `rr_timer`. -/
def rrTimerWith (param : Ptr) : Prog World Unit := do
  let world ← Prog.get
  if world.activeThread ≠ param then pure ()
  else do
    Prog.modify fun world => world.expire param
    schedule

/-- What the alarm functions call. -/
def hostWith : Host World :=
  { host threshold with
    action := fun action param =>
      if action = rrTimerAddress then rrTimerWith schedule param else pure ()
    schedule := schedule }

/-- `sys__create_thread`. -/
def sysCreateThreadWith (sched prio : Int) (stack kthread : Ptr) : Prog World Unit :=
  match SchedPolicy.ofInt sched with
  | none => Prog.attempt fun _ => .error .badPolicy
  | some policy => do
      Prog.attempt fun world => world.kthreadCreate policy prio stack kthread
        (world.thread world.activeThread).proc
      setErrno SUCCESS
      schedule

/-- `sys__start_program`. -/
def sysStartProgramWith (proc pi stackPool stack kthread : Ptr) (prio : Int) :
    Prog World Unit := do
  setErrno SUCCESS
  Prog.attempt (startProcess proc pi stackPool stack kthread prio)
  schedule

/-- `kthread_cancel` of a thread that is in no queue any more. -/
def finishCancelWith (kthread : Ptr) (exitStatus : Int) : Prog World Unit := do
  Prog.attempt (endAndRelease kthread exitStatus)
  schedule

/-- `kthread_cancel`. -/
def kthreadCancelWith (kthread : Ptr) (exitStatus : Int) : Prog World Unit := do
  let world ← Prog.get
  match (world.thread kthread).state with
  | .passive => pure ()
  | .ready => do
      Prog.attempt (leaveReady kthread)
      finishCancelWith schedule kthread exitStatus
  | .wait => do
      Prog.attempt fun world =>
        (world.kernel.leaveQueue kthread).map fun kernel => { world with kernel := kernel }
      finishCancelWith schedule kthread exitStatus
  | .active =>
      if kthread ≠ world.activeThread then pure ()
      else do
        Prog.modify fun world => world.onKernel fun kernel =>
          kernel.setThread kthread fun descriptor => { descriptor with state := .passive }
        finishCancelWith schedule kthread exitStatus

/-- `sys__thread_exit`. -/
def sysThreadExitWith (status : Int) : Prog World Unit := do
  let world ← Prog.get
  kthreadCancelWith schedule world.activeThread status
  schedule

/-- `sys__cancel_thread`. -/
def sysCancelThreadWith (handle : Handle) : Prog World Unit := do
  let world ← Prog.get
  if handle.thread = 0 then setErrno E_INVALID_HANDLE
  else if (world.thread handle.thread).id ≠ handle.thrId then setErrno SUCCESS
  else match (world.thread handle.thread).state with
    | .passive => setErrno SUCCESS
    | .active => setErrno E_INVALID_HANDLE
    | .ready | .wait => do
        kthreadCancelWith schedule handle.thread (-1)
        setErrno SUCCESS
        kthreadCancelWith schedule handle.thread (-1)

/-- The active thread waits in a queue. -/
def blockActiveWith (queue : QueueId) : Prog World Unit := do
  Prog.modify fun world => world.onKernel (Kernel.kthreadEnqueue queue)
  schedule

/-- `sys__wait_for_thread`. -/
def sysWaitForThreadWith (handle : Handle) (wait : Bool) : Prog World Unit := do
  let world ← Prog.get
  if handle.thread = 0 then setErrno E_INVALID_HANDLE
  else if (world.thread handle.thread).id ≠ handle.thrId then setErrno SUCCESS
  else if (world.thread handle.thread).state ≠ .passive then
    if wait then do
      Prog.modify (countJoin handle.thread)
      setErrno E_RETRY
      blockActiveWith schedule (.join handle.thread)
    else setErrno E_NOT_FINISHED
  else do
    setErrno SUCCESS
    Prog.attempt (collectStatus handle.thread)

/-- Run a part of the kernel, with nested calls of `k_alarm_set`. -/
def performWith (prog : Prog World Unit) (alarms : Alarms World) :
    Except Fault (Alarms World) :=
  (prog.run (Alarms.kAlarmSet (hostWith schedule threshold) fuel) alarms).map Prod.snd

end With

end World

/-- The entries to the kernel that create, end, join and cancel threads, and the timer
interrupt. -/
inductive ThreadEntry
  | createThread (sched prio : Int) (stack kthread : Ptr)
  | startProgram (proc pi stackPool stack kthread : Ptr) (prio : Int)
  | threadExit (status : Int)
  | kthreadCancel (kthread : Ptr) (status : Int)
  | cancelThread (handle : Handle)
  | waitForThread (handle : Handle) (wait : Bool)
  | timerInterrupt
deriving DecidableEq, Repr

namespace ThreadEntry

/-- The entry among all the entries to the kernel. -/
def entry : ThreadEntry → Entry
  | .createThread sched prio stack kthread => .createThread sched prio stack kthread
  | .startProgram proc pi stackPool stack kthread prio =>
      .startProgram proc pi stackPool stack kthread prio
  | .threadExit status => .threadExit status
  | .kthreadCancel kthread status => .kthreadCancel kthread status
  | .cancelThread handle => .cancelThread handle
  | .waitForThread handle wait => .waitForThread handle wait
  | .timerInterrupt => .timerInterrupt

/-- One entry to the kernel, with the given scheduler. -/
def enterWith (schedule : Prog World Unit) (threshold : Time) (fuel : Nat)
    (entry : ThreadEntry) (alarms : Alarms World) : Except Fault (Alarms World) :=
  let alarms := World.clearRecord alarms
  let perform := World.performWith schedule threshold fuel
  match entry with
  | .createThread sched prio stack kthread =>
      perform (World.sysCreateThreadWith schedule sched prio stack kthread) alarms
  | .startProgram proc pi stackPool stack kthread prio =>
      perform (World.sysStartProgramWith schedule proc pi stackPool stack kthread prio) alarms
  | .threadExit status => perform (World.sysThreadExitWith schedule status) alarms
  | .kthreadCancel kthread status =>
      perform (World.kthreadCancelWith schedule kthread status) alarms
  | .cancelThread handle => perform (World.sysCancelThreadWith schedule handle) alarms
  | .waitForThread handle wait =>
      perform (World.sysWaitForThreadWith schedule handle wait) alarms
  | .timerInterrupt => alarms.kTimerInterrupt (World.hostWith schedule threshold) fuel

theorem enterWith_kthreadsSchedule (threshold : Time) (fuel : Nat) (entry : ThreadEntry) :
    entry.enterWith World.kthreadsSchedule threshold fuel =
      World.enter threshold fuel entry.entry := by
  cases entry <;> rfl

end ThreadEntry

section Schedule

variable {setting : Setting} {alarms : Alarms World} {call call' : AlarmCall World} {fault : Fault}

/-- A nested call of `k_alarm_set` by `rr_thread_activate` runs as another one does. -/
def CallAgrees (call call' : AlarmCall World) : Prop :=
  ∀ (setting : Setting) (alarms : Alarms World),
    Holds { setting with armed := False } alarms → alarms.world.ForSlice →
    call' setting.rr alarms.world.rrParams alarms = call setting.rr alarms.world.rrParams alarms

theorem Holds.spared (holds : Holds setting alarms) : alarms.world.Spared := by
  obtain ⟨members, all, kept, running⟩ := holds
  have living : alarms.world.life alarms.world.activeThread = .living := running.mem_alive
  refine .inr ?_
  rw [living]
  decide

/-- `thread_activate` for the thread that has got the processor. -/
theorem threadActivate_agrees (same : CallAgrees call call') (thread : Ptr)
    (policy : SchedPolicy) :
    Agrees call call' (Entering setting thread) (World.threadActivate policy thread)
      (World.threadActivate policy thread) := by
  cases policy with
  | fifo => exact Agrees.pure
  | rr =>
      apply Agrees.bind Agrees.modify (startSlice_spec thread)
      intro _
      apply Agrees.bind Agrees.read Ensures.read
      intro world
      apply Agrees.setAlarm
      rintro alarms ⟨rfl, entering, forSlice⟩
      have rrAlarm : alarms.world.rrAlarm = setting.rr := by
        obtain ⟨members, all, kept, -⟩ := entering.holds
        exact kept.table.rr_eq
      rw [rrAlarm]
      exact same { setting with marked := False } alarms entering.holds forSlice

/-- `ksched_activate_thread` of the thread that has got the processor. -/
theorem kschedActivateThread_agrees (same : CallAgrees call call') (thread : Ptr) :
    Agrees call call' (fun alarms => Fresh setting alarms ∧ alarms.world.activeThread = thread)
      (World.kschedActivateThread thread) (World.kschedActivateThread thread) := by
  apply Agrees.bind Agrees.read Ensures.read
  intro world
  apply Agrees.ite
  · exact fun _ => Agrees.pure
  · intro _
    have anywhere : Ensures call
        (fun alarms => world = alarms.world ∧ Fresh setting alarms ∧
          alarms.world.activeThread = thread)
        (World.threadActivate (world.tsched thread).policy thread) fun _ _ => True :=
      fun _ _ _ _ => trivial
    refine Agrees.bind ?_ anywhere fun _ => Agrees.modify
    apply (threadActivate_agrees same thread _).mono
    rintro alarms ⟨-, fresh, isActive⟩
    exact ⟨fresh.holds, isActive, fresh.topmost⟩

/-- Another thread gets the processor, and its slice begins. -/
theorem switch_agrees (same : CallAgrees call call') (level : Nat) :
    Agrees call call' (fun alarms => Ready setting alarms ∧ alarms.world.Below level)
      (do
        Prog.attempt fun world => world.leaveActive.enterActive level
        let world ← Prog.get
        World.kschedActivateThread world.activeThread)
      (do
        Prog.attempt fun world => world.leaveActive.enterActive level
        let world ← Prog.get
        World.kschedActivateThread world.activeThread) := by
  apply Agrees.bind Agrees.attempt (enterActive_spec level)
  intro _
  apply Agrees.bind Agrees.read Ensures.read
  intro entered
  apply (kschedActivateThread_agrees same entered.activeThread).mono
  rintro alarms ⟨rfl, fresh⟩
  exact ⟨fresh, rfl⟩

/-- `kthreads_schedule` runs as with the check, if the check passes when it is entered. -/
theorem kthreadsSchedule_agrees (same : CallAgrees call call') :
    Agrees call call' (fun alarms => Ready setting alarms ∧ alarms.world.Spared)
      World.kthreadsSchedule (World.checkedSchedule fault) := by
  have unchecked : Agrees call call' (Ready setting) World.kthreadsSchedule
      World.kthreadsSchedule := by
    apply Agrees.bind Agrees.read Ensures.read
    intro world
    apply Agrees.ite
    · exact fun _ => Agrees.attempt
    intro _
    apply Agrees.ite
    · intro changes
      apply (switch_agrees same _).mono
      rintro alarms ⟨rfl, ready⟩
      have ⟨members, all, kept, _⟩ := ready
      exact ⟨ready, kept.below changes⟩
    · exact fun _ => Agrees.pure
  rintro alarms ⟨ready, spared⟩
  have passes : World.checkActive fault alarms.world = .ok alarms.world := if_pos spared
  unfold World.checkedSchedule
  rw [run_attempt, passes]
  exact unchecked alarms ready

theorem reschedule_agrees (same : CallAgrees call call') :
    Agrees call call' (Holds setting) World.kthreadsSchedule (World.checkedSchedule fault) :=
  (kthreadsSchedule_agrees same).mono fun _ holds => ⟨holds.ready, holds.spared⟩

/-- `rr_timer` puts the active thread in a ready list before it calls the scheduler. -/
theorem rrTimer_agrees (same : CallAgrees call call') (param : Ptr) :
    Agrees call call' (Holds { setting with armed := False }) (World.rrTimer param)
      (World.rrTimerWith (World.checkedSchedule fault) param) := by
  apply Agrees.bind Agrees.read Ensures.read
  intro world
  apply Agrees.ite
  · exact fun _ => Agrees.pure
  intro isActive
  have expires : Ensures call
      (fun alarms => world = alarms.world ∧ Holds { setting with armed := False } alarms)
      (Prog.modify fun world => world.expire param)
      (fun _ alarms => Ready setting alarms ∧ alarms.world.Spared) := by
    refine Ensures.modify.mono ?_ fun _ _ post => post
    rintro alarms ⟨rfl, holds⟩
    refine ⟨holds.expire (not_not.mp isActive), ?_⟩
    have activeThread : (alarms.world.expire param).activeThread = alarms.world.activeThread :=
      World.kthreadMoveToReady_activeThread
    change (alarms.world.expire param).Spared
    unfold World.Spared
    rw [activeThread]
    exact holds.spared
  exact Agrees.bind Agrees.modify expires fun _ => kthreadsSchedule_agrees same

end Schedule

section Alarms

variable {setting : Setting} {alarms : Alarms World} {call call' : AlarmCall World} {fault : Fault}
  {threshold refTime : Time} {first : Ptr} {fuel count : Nat}

/-- The action of an alarm: only that of the kernel's alarm calls the scheduler. -/
theorem Holds.runAction_agrees (holds : Holds { setting with armed := False } alarms)
    (same : CallAgrees call call')
    (owned : first ≠ setting.rr → (alarms.kalarm first).thread ≠ 0) :
    alarms.runAction (World.hostWith (World.checkedSchedule fault) threshold) call' first =
      alarms.runAction (World.host threshold) call first := by
  unfold Alarms.runAction
  dsimp only
  by_cases isRr : first = setting.rr
  · subst isRr
    have ⟨members, all, kept, _⟩ := holds
    have isTimer := kept.table.rr_action
    have watched : (World.hostWith (World.checkedSchedule fault) threshold).action
        (alarms.kalarm setting.rr).alarm.action (alarms.kalarm setting.rr).alarm.param =
          World.rrTimerWith (World.checkedSchedule fault)
            (alarms.kalarm setting.rr).alarm.param := if_pos isTimer
    have plain : (World.host threshold).action (alarms.kalarm setting.rr).alarm.action
        (alarms.kalarm setting.rr).alarm.param =
          World.rrTimer (alarms.kalarm setting.rr).alarm.param := if_pos isTimer
    rw [watched, plain, rrTimer_agrees same _ alarms holds]
    rfl
  · rw [if_pos (owned isRr), if_pos (owned isRr)]
    rfl

/-- `k_schedule_alarms` fires the first alarm of the list. -/
theorem Holds.fire_agrees (holds : Holds setting alarms) (same : CallAgrees call call')
    (hasFirst : alarms.kalarms.listGet () FIRST ≠ 0) :
    alarms.fire (World.hostWith (World.checkedSchedule fault) threshold) call' =
      alarms.fire (World.host threshold) call := by
  obtain ⟨members, all, kept, running⟩ := holds
  obtain ⟨removed, memLive, active, list⟩ := kept.table.list.takeFirst hasFirst
  unfold Alarms.fire
  dsimp only
  rw [removed]
  generalize alarms.kalarms.listGet () FIRST = first at active memLive list
  have take : Taken first alarms (alarms.takeFirst first) := takeFirst_taken first alarms
  generalize alarms.takeFirst first = taken at list take
  have unarmed : Holds { setting with attend := setting.attend \ {first}, armed := False } taken :=
    ⟨members, all, kept.takeFirst False take list memLive active False.elim,
      take.world ▸ running⟩
  have owned : first ≠ setting.rr → (taken.kalarm first).thread ≠ 0 := by
    intro notRr
    rw [take.same.thread]
    exact kept.table.owned first memLive notRr
  rw [@Holds.runAction_agrees { setting with attend := setting.attend \ {first} } taken call call'
    fault threshold first unarmed same owned]
  rfl

/-- The loop of `k_schedule_alarms`. -/
theorem Holds.fireLoop_agrees (nested : Nested call) (holds : Holds setting alarms)
    (same : CallAgrees call call') :
    alarms.fireLoop (World.hostWith (World.checkedSchedule fault) threshold) call' refTime fuel
        count =
      alarms.fireLoop (World.host threshold) call refTime fuel count := by
  induction fuel generalizing alarms count with
  | zero => rfl
  | succ fuel ih =>
      unfold Alarms.fireLoop
      dsimp only
      split
      · rename_i expired
        apply bind_agree (holds.fire_agrees same expired.1)
        exact fun fired fires => ih (holds.fire nested rfl expired.1 fires).2.1
      · rfl

theorem Holds.kScheduleAlarms_agrees (nested : Nested call) (holds : Holds setting alarms)
    (same : CallAgrees call call') :
    alarms.kScheduleAlarms (World.hostWith (World.checkedSchedule fault) threshold) call' fuel =
      alarms.kScheduleAlarms (World.host threshold) call fuel := by
  obtain ⟨members, all, kept, running⟩ := holds
  have read : Holds setting { alarms with world := alarms.world.getTime.2 } := by
    refine ⟨members, all, ?_, running⟩
    apply Kept.frame kept <;> rfl
  have loops := @Holds.fireLoop_agrees setting _ call call' fault threshold
    (refTimeOf threshold alarms.world) fuel 0 nested read same
  exact congrArg (Except.map _) loops

theorem Holds.scheduleIf_agrees {asked : Prop} [Decidable asked] (holds : Holds setting alarms)
    (same : CallAgrees call call') :
    alarms.scheduleIf (World.hostWith (World.checkedSchedule fault) threshold) call' asked =
      alarms.scheduleIf (World.host threshold) call asked := by
  unfold Alarms.scheduleIf
  split
  · exact congrArg (Except.map Prod.snd) (reschedule_agrees same alarms holds)
  · rfl

/-- The end of `k_alarm_add` for the alarm of the kernel. -/
theorem Holds.finishAdd_agrees {reschedule : Nat} (holds : Holds setting alarms)
    (same : CallAgrees call call') :
    alarms.finishAdd (World.hostWith (World.checkedSchedule fault) threshold) call' setting.rr
        reschedule =
      alarms.finishAdd (World.host threshold) call setting.rr reschedule := by
  have noted : Holds setting (alarms.onWorld ((World.host threshold).setErrno 0)) :=
    holds.setErrno 0
  have owner : (alarms.kalarm setting.rr).thread = 0 := by
    obtain ⟨members, all, kept, -⟩ := holds
    exact kept.table.rr_owner
  have notWaits : ¬ Alarms.Waits (alarms.kalarm setting.rr) := fun waits => waits.1 owner
  unfold Alarms.finishAdd
  dsimp only
  rw [Alarms.onWorld_kalarm, if_neg notWaits, Alarms.onWorld_kalarm, if_neg notWaits]
  exact noted.scheduleIf_agrees same

/-- `k_alarm_set` for the slice of the active thread, however deep it is nested. -/
theorem kAlarmSet_agrees (threshold : Time) (fault : Fault) (fuel : Nat) :
    CallAgrees (Alarms.kAlarmSet (World.host threshold) fuel)
      (Alarms.kAlarmSet (World.hostWith (World.checkedSchedule fault) threshold) fuel) := by
  induction fuel with
  | zero => exact fun _ _ _ _ => rfl
  | succ fuel ih =>
      intro setting alarms holds forSlice
      have nested := kAlarmSet_nested threshold fuel
      generalize notedIs : alarms.noted threshold setting.rr alarms.world.rrParams = noted
      have armed : Holds { setting with armed := True }
          (noted.armAlarm setting.rr alarms.world.rrParams) := notedIs ▸ holds.armSlice forSlice
      unfold Alarms.kAlarmSet
      by_cases noAlarm : setting.rr = 0 ∨ (alarms.kalarm setting.rr).magic ≠ ALARM_MAGIC
      · rw [if_pos noAlarm, if_pos noAlarm]
      rw [if_neg noAlarm, if_neg noAlarm]
      by_cases differs : Time.timeCmp
          ((noted.storeAlarm setting.rr alarms.world.rrParams).kalarm setting.rr).alarm.expTime
          alarms.world.rrParams.expTime ≠ 0
      · have fires := @Holds.kScheduleAlarms_agrees { setting with armed := True } _ _ _ fault
          threshold fuel nested armed ih
        subst notedIs
        refine (if_pos differs).trans (Eq.trans (bind_agree fires ?_) (if_pos differs).symm)
        intro scheduled ran
        exact (armed.kScheduleAlarms nested ran).1.finishAdd_agrees ih
      · subst notedIs
        exact (if_neg differs).trans (if_neg differs).symm

theorem Holds.kTimerInterrupt_agrees (holds : Holds setting alarms) :
    alarms.kTimerInterrupt (World.hostWith (World.checkedSchedule fault) threshold) fuel =
      alarms.kTimerInterrupt (World.host threshold) fuel := by
  have nested := kAlarmSet_nested threshold fuel
  have same := kAlarmSet_agrees threshold fault fuel
  apply bind_agree (holds.kScheduleAlarms_agrees nested same)
  exact fun fired ran => (holds.kScheduleAlarms nested ran).1.scheduleIf_agrees same

end Alarms

end Oseer
