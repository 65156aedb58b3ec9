import Oseer.Lifetimes
import Oseer.ScheduleWatch

/-!
# Runs in which the scheduler spares freed descriptors

Threads are created, end, are joined and cancelled.  Wherever `kthreads_schedule` is entered in
such a run, the descriptor of the active thread is not freed, unless a thread has ended
itself that nobody was joined to: `kthread_cancel` frees its descriptor and calls the
scheduler while it is the active thread still.
-/

namespace Oseer

open Results Prog Alarms

variable {setting : Setting} {alarms alarms' : Alarms World} {world world' : World}
  {call call' : AlarmCall World} {fault : Fault} {threshold : Time} {fuel : Nat}
  {thread kthread idle rrAlarm : Ptr} {status : Int} {queue : QueueId}

section End

/-- A thread that others are joined to is kept when it ends. -/
theorem World.endAndRelease_life (ended : world.endAndRelease thread status = .ok world')
    (joined : (world.thread thread).refCnt ≠ 1) : world'.life thread = .ended := by
  obtain ⟨kernel, result, rfl⟩ := map_ok ended
  obtain ⟨released, releases, descriptor⟩ := bind_ok result
  have core := Kernel.releaseResources_core releases
  obtain ⟨-, -, -, -, -, holdings⟩ := Kernel.releaseDescriptor_effect descriptor
  have count : (kernel.thread thread).refCnt = (world.thread thread).refCnt - 1 := by
    have same := congrArg (fun held : Ptr × Ptr × Int => held.2.2) (holdings thread)
    have stored : released.thread thread =
        (world.kernel.endThread thread status).thread thread := by
      unfold Kernel.thread
      rw [core.sched]
    rw [stored, Kernel.endThread_thread] at same
    exact same
  dsimp only
  rw [Function.update_self, if_neg]
  rw [count]
  omega

/-- A thread that ends as the active thread is joined by another one. -/
def Outlived (thread : Ptr) (world : World) : Prop :=
  thread = world.activeThread → (world.thread thread).refCnt ≠ 1

/-- `kthread_cancel` of a thread that is in no queue any more. -/
theorem finishCancel_agrees (same : CallAgrees call call') (thread : Ptr) (status : Int) :
    Agrees call call'
      (fun alarms => Leaving setting thread alarms ∧ Outlived thread alarms.world)
      (World.finishCancel thread status)
      (World.finishCancelWith (World.checkedSchedule fault) thread status) := by
  have ends : Ensures call
      (fun alarms => Leaving setting thread alarms ∧ Outlived thread alarms.world)
      (Prog.attempt (World.endAndRelease thread status))
      (fun _ alarms => Ready setting alarms ∧ alarms.world.Spared) := by
    refine Ensures.attempt.mono ?_ fun _ _ post => post
    rintro _ ⟨⟨alarms, kernel, members, members', all, kept, running, mem, notIdle, unowned,
      parting, rfl⟩, outlived⟩ world ended
    obtain ⟨ready, holds, activeThread⟩ := kept.ended running mem notIdle unowned parting ended
    refine ⟨ready, ?_⟩
    by_cases isActive : thread = alarms.world.activeThread
    · have life := World.endAndRelease_life ended
        (outlived (isActive.trans parting.activeThread.symm))
      rw [isActive, ← activeThread] at life
      refine .inr ?_
      rw [life]
      decide
    · exact (holds isActive).spared
  exact Agrees.bind Agrees.attempt ends fun _ => kthreadsSchedule_agrees same

/-- `kthread_cancel`. -/
theorem kthreadCancel_agrees (same : CallAgrees call call') (thread : Ptr) (status : Int) :
    Agrees call call'
      (fun alarms => Holds setting alarms ∧ MayEnd setting.idle setting.lasting thread alarms ∧
        Outlived thread alarms.world)
      (World.kthreadCancel thread status)
      (World.kthreadCancelWith (World.checkedSchedule fault) thread status) := by
  unfold World.kthreadCancel World.kthreadCancelWith
  apply Agrees.bind Agrees.read Ensures.read
  intro world
  -- a thread that leaves a queue is not the active one
  have absent : ∀ {alarms : Alarms World} {world' : World},
      world'.activeThread = alarms.world.activeThread → thread ≠ alarms.world.activeThread →
      Outlived thread world' := fun activeThread inactive isActive =>
    absurd (isActive.trans activeThread) inactive
  have finishes : Unit → Agrees call call'
      (fun alarms => Leaving setting thread alarms ∧ Outlived thread alarms.world)
      (World.finishCancel thread status)
      (World.finishCancelWith (World.checkedSchedule fault) thread status) :=
    fun _ => finishCancel_agrees same thread status
  cases state : (world.thread thread).state with
  | passive => exact Agrees.pure
  | ready =>
      refine Agrees.bind Agrees.attempt ?_ finishes
      refine Ensures.attempt.mono ?_ fun _ _ post => post
      rintro alarms ⟨rfl, holds, may, -⟩ world' left
      obtain ⟨leaving, activeThread, inactive⟩ := holds.leaveReady may state left
      exact ⟨leaving, absent activeThread inactive⟩
  | wait =>
      refine Agrees.bind Agrees.attempt ?_ finishes
      refine Ensures.attempt.mono ?_ fun _ _ post => post
      rintro alarms ⟨rfl, holds, may, -⟩ world' left
      obtain ⟨leaving, activeThread, inactive⟩ := holds.leaveWait may state left
      exact ⟨leaving, absent activeThread inactive⟩
  | active =>
      apply Agrees.ite
      · exact fun _ => Agrees.pure
      intro _
      refine Agrees.bind Agrees.modify ?_ finishes
      refine Ensures.modify.mono ?_ fun _ _ post => post
      rintro alarms ⟨rfl, holds, may, outlived⟩
      refine ⟨holds.dismiss may state, fun isActive => ?_⟩
      have refCnt : ((alarms.world.kernel.setThread thread fun descriptor =>
          { descriptor with state := .passive }).thread thread).refCnt =
            (alarms.world.thread thread).refCnt :=
        Kernel.setThread_field (fun descriptor => descriptor.refCnt) rfl
      have kept := outlived isActive
      rw [← refCnt] at kept
      exact kept

/-- `sys__thread_exit`. -/
theorem sysThreadExit_agrees (nested : Nested call) (same : CallAgrees call call')
    (status : Int) :
    Agrees call call'
      (fun alarms => Holds setting alarms ∧
        MayEnd setting.idle setting.lasting alarms.world.activeThread alarms ∧
        Outlived alarms.world.activeThread alarms.world)
      (World.sysThreadExit status)
      (World.sysThreadExitWith (World.checkedSchedule fault) status) := by
  unfold World.sysThreadExit World.sysThreadExitWith
  apply Agrees.bind Agrees.read Ensures.read
  intro world
  have cancels : Ensures call
      (fun alarms => world = alarms.world ∧ Holds setting alarms ∧
        MayEnd setting.idle setting.lasting alarms.world.activeThread alarms ∧
        Outlived alarms.world.activeThread alarms.world)
      (World.kthreadCancel world.activeThread status) fun _ => Holds setting := by
    refine (kthreadCancel_spec nested world.activeThread status).mono ?_ fun _ _ post => post
    rintro alarms ⟨rfl, holds, may, -⟩
    exact ⟨holds, may⟩
  refine Agrees.bind ?_ cancels fun _ => reschedule_agrees same
  apply (kthreadCancel_agrees same world.activeThread status).mono
  rintro alarms ⟨rfl, pre⟩
  exact pre

/-- `sys__cancel_thread` of a thread that is not cancelled. -/
theorem sysCancelThread_agrees (handle : Handle) :
    Agrees call call'
      (fun alarms => handle.thread = 0 ∨ (alarms.world.thread handle.thread).id ≠ handle.thrId ∨
        (alarms.world.thread handle.thread).state = .passive ∨
        (alarms.world.thread handle.thread).state = .active)
      (World.sysCancelThread handle)
      (World.sysCancelThreadWith (World.checkedSchedule fault) handle) := by
  unfold World.sysCancelThread World.sysCancelThreadWith
  intro alarms ended
  rw [run_get, run_get]
  by_cases isNull : handle.thread = 0
  · rw [if_pos isNull, if_pos isNull]
    rfl
  rw [if_neg isNull, if_neg isNull]
  by_cases otherId : (alarms.world.thread handle.thread).id ≠ handle.thrId
  · rw [if_pos otherId, if_pos otherId]
    rfl
  rw [if_neg otherId, if_neg otherId]
  rcases (ended.resolve_left isNull).resolve_left otherId with passive | active
  · rw [passive]
    rfl
  · rw [active]
    rfl

end End

section Others

theorem sysCreateThread_agrees (same : CallAgrees call call') (sched prio : Int)
    (stack kthread : Ptr) :
    Agrees call call' (Holds setting) (World.sysCreateThread sched prio stack kthread)
      (World.sysCreateThreadWith (World.checkedSchedule fault) sched prio stack kthread) := by
  unfold World.sysCreateThread World.sysCreateThreadWith
  cases SchedPolicy.ofInt sched with
  | none => exact Agrees.attempt
  | some policy =>
      refine Agrees.bind Agrees.attempt (kthreadCreate_spec policy prio stack kthread) fun _ => ?_
      refine Agrees.bind Agrees.modify (setErrno_spec SUCCESS) fun _ => ?_
      exact reschedule_agrees same

theorem sysStartProgram_agrees (same : CallAgrees call call')
    (proc pi stackPool stack kthread : Ptr) (prio : Int) :
    Agrees call call' (fun alarms => Holds setting alarms ∧ alarms.world.NewProcess proc pi)
      (World.sysStartProgram proc pi stackPool stack kthread prio)
      (World.sysStartProgramWith (World.checkedSchedule fault) proc pi stackPool stack kthread
        prio) := by
  refine Agrees.bind Agrees.modify (setErrno_new proc pi) fun _ => ?_
  refine Agrees.bind Agrees.attempt (startProcess_spec proc pi stackPool stack kthread prio)
    fun _ => ?_
  exact reschedule_agrees same

/-- The active thread waits in a queue. -/
theorem blockActive_agrees (same : CallAgrees call call') (queue : QueueId) :
    Agrees call call' (Waiter setting queue) (World.blockActive queue)
      (World.blockActiveWith (World.checkedSchedule fault) queue) := by
  have enters : Ensures call (Waiter setting queue)
      (Prog.modify fun world => world.onKernel (Kernel.kthreadEnqueue queue))
      (fun _ alarms => Ready setting.afterWait alarms ∧ alarms.world.Spared) := by
    refine Ensures.modify.mono ?_ fun _ _ post => post
    intro alarms waiter
    refine ⟨waiter.enqueue, ?_⟩
    obtain ⟨members, all, kept, running, -⟩ := waiter
    have holds : Holds setting alarms := ⟨members, all, kept, running⟩
    exact holds.spared
  exact Agrees.bind Agrees.modify enters fun _ => kthreadsSchedule_agrees same

/-- `sys__wait_for_thread`. -/
theorem sysWaitForThread_agrees (same : CallAgrees call call') (handle : Handle) (wait : Bool) :
    Agrees call call'
      (fun alarms => Holds setting alarms ∧ alarms.world.activeThread = setting.caller ∧
        alarms.world.Known handle)
      (World.sysWaitForThread handle wait)
      (World.sysWaitForThreadWith (World.checkedSchedule fault) handle wait) := by
  unfold World.sysWaitForThread World.sysWaitForThreadWith
  apply Agrees.bind Agrees.read Ensures.read
  intro world
  apply Agrees.ite
  · exact fun _ => Agrees.modify
  intro _
  apply Agrees.ite
  · exact fun _ => Agrees.modify
  intro sameId
  apply Agrees.ite
  · intro unfinished
    split
    · have counted : Ensures call
          (fun alarms => world = alarms.world ∧ Holds setting alarms ∧
            alarms.world.activeThread = setting.caller ∧ alarms.world.Known handle)
          (Prog.modify (World.countJoin handle.thread))
          fun _ => Waiter setting (.join handle.thread) := by
        refine Ensures.modify.mono ?_ fun _ _ post => post
        rintro alarms ⟨rfl, holds, isCaller, known⟩
        exact holds.countJoin isCaller (known (not_not.mp sameId)) unfinished
      refine Agrees.bind Agrees.modify counted fun _ => ?_
      exact Agrees.bind Agrees.modify (setErrno_waiter _) fun _ => blockActive_agrees same _
    · exact Agrees.modify
  · exact fun _ _ _ => rfl

end Others

section Runs

variable {entry : ThreadEntry} {first last : Alarms World}

/-- In the entry the scheduler is entered only where the descriptor of the active thread is
not freed: with a look at it there, whatever fault that may raise, the kernel runs as it does. -/
def ThreadEntry.SparesFreed (threshold : Time) (fuel : Nat) (entry : ThreadEntry)
    (alarms : Alarms World) : Prop :=
  ∀ fault, entry.enterWith (World.checkedSchedule fault) threshold fuel alarms =
    World.enter threshold fuel entry.entry alarms

/-- No thread ends itself that nobody is joined to. -/
def ThreadEntry.Joined (alarms : Alarms World) : ThreadEntry → Prop
  | .threadExit _ => Outlived alarms.world.activeThread alarms.world
  | .kthreadCancel kthread _ => Outlived kthread alarms.world
  | _ => True

/-- The arguments are such as the kernel hands out, no thread ends itself that nobody is joined
to, and none is cancelled twice at once. -/
structure ThreadEntry.Spares (idle : Ptr) (alarms : Alarms World) (entry : ThreadEntry) :
    Prop where
  valid : entry.entry.Valid idle alarms
  joined : entry.Joined alarms
  cancelsOnce : entry.entry.CancelsOnce alarms

/-- One entry in a run of threads. -/
def ThreadStep (threshold : Time) (meets : Alarms World → ThreadEntry → Prop)
    (alarms alarms' : Alarms World) : Prop :=
  ∃ fuel entry, meets alarms entry ∧ World.enter threshold fuel entry.entry alarms = .ok alarms'

/-- None of the entries creates an alarm. -/
theorem ThreadEntry.ownerless (ownerless : alarms.Ownerless)
    (enters : World.enter threshold fuel entry.entry alarms = .ok alarms') :
    alarms'.Ownerless := by
  have within := Host.Within.always (World.host threshold)
  have cleared : (World.clearRecord alarms).Ownerless := ownerless
  have performs : ∀ {prog : Prog World Unit},
      World.perform threshold fuel prog (World.clearRecord alarms) = .ok alarms' →
      alarms'.Ownerless := by
    intro prog performed
    obtain ⟨ran, runs, rfl⟩ := map_ok performed
    exact (within.run (within.kAlarmSet fuel) (.always prog) cleared runs).1
  cases entry with
  | timerInterrupt => exact (within.kTimerInterrupt cleared enters).1
  | _ => exact performs enters

/-- No alarm keeps a thread from its end. -/
theorem ThreadEntry.Spares.careful {attend : Set Ptr} {timed lasting : Prop}
    (spares : entry.Spares idle alarms) (ownerless : alarms.Ownerless)
    (outside : Outside idle rrAlarm attend timed lasting alarms) :
    entry.entry.Careful threshold idle ∅ lasting alarms := by
  obtain ⟨live, members, all, kept, running⟩ := outside
  have unowned : ∀ thread ∈ alarms.world.alive, Unowned lasting thread alarms := by
    intro thread mem id _ _ isOwner
    exact kept.threads.sound.ne_zero mem (isOwner.symm.trans (ownerless id))
  refine ⟨spares.valid, ?_, ?_, ?_, spares.cancelsOnce, fun notEmpty => absurd rfl notEmpty⟩
  · cases entry <;> trivial
  · cases entry <;> trivial
  · cases entry with
    | threadExit status => exact unowned _ running.mem_alive
    | kthreadCancel kthread status => exact unowned kthread
    | _ => trivial

/-- An entry that meets the condition enters the scheduler only where the descriptor of the
active thread is not freed. -/
theorem Holds.sparesFreed (holds : Holds setting (World.clearRecord alarms))
    (isCaller : alarms.world.activeThread = setting.caller)
    (spares : entry.Spares setting.idle alarms)
    (careful : entry.entry.Careful threshold setting.idle ∅ setting.lasting alarms) :
    entry.SparesFreed threshold fuel alarms := by
  intro fault
  have nested := kAlarmSet_nested threshold fuel
  have same := kAlarmSet_agrees threshold fault fuel
  have performs : ∀ {prog prog' : Prog World Unit} {P : Alarms World → Prop},
      Agrees (Alarms.kAlarmSet (World.host threshold) fuel)
        (Alarms.kAlarmSet (World.hostWith (World.checkedSchedule fault) threshold) fuel) P prog
        prog' → P (World.clearRecord alarms) →
      World.performWith (World.checkedSchedule fault) threshold fuel prog'
        (World.clearRecord alarms) =
          World.perform threshold fuel prog (World.clearRecord alarms) :=
    fun agrees pre => congrArg (Except.map Prod.snd) (agrees _ pre)
  have ends : alarms.world.activeThread ≠ setting.idle → Unowned setting.lasting
      alarms.world.activeThread alarms →
      MayEnd setting.idle setting.lasting alarms.world.activeThread
        (World.clearRecord alarms) := by
    intro notIdle unowned
    obtain ⟨members, all, kept, running⟩ := holds
    exact .inr ⟨running.mem_alive, notIdle, unowned⟩
  obtain ⟨valid, joined, cancelsOnce⟩ := spares
  cases entry with
  | createThread sched prio stack kthread =>
      exact performs (sysCreateThread_agrees same sched prio stack kthread) holds
  | startProgram proc pi stackPool stack kthread prio =>
      exact performs (sysStartProgram_agrees same proc pi stackPool stack kthread prio)
        ⟨holds, valid⟩
  | threadExit status =>
      exact performs (sysThreadExit_agrees nested same status)
        ⟨holds, ends valid careful.ownersLive, joined⟩
  | kthreadCancel kthread status =>
      have may : MayEnd setting.idle setting.lasting kthread (World.clearRecord alarms) := by
        rcases valid with passive | ⟨mem, notIdle⟩
        · exact .inl passive
        · exact .inr ⟨mem, notIdle, careful.ownersLive mem⟩
      exact performs (kthreadCancel_agrees same kthread status) ⟨holds, may, joined⟩
  | cancelThread handle => exact performs (sysCancelThread_agrees handle) cancelsOnce
  | waitForThread handle wait =>
      exact performs (sysWaitForThread_agrees same handle wait) ⟨holds, isCaller, valid⟩
  | timerInterrupt => exact holds.kTimerInterrupt_agrees

/-- The invariant after a run of threads. -/
theorem Started.spares (started : Started threshold idle rrAlarm first)
    (run : Relation.ReflTransGen
      (ThreadStep threshold fun alarms entry => entry.Spares idle alarms) first last) :
    Outside idle rrAlarm ∅ False False last ∧ last.Ownerless := by
  induction run with
  | refl =>
      have audited : Audited (fun _ => ∅) idle rrAlarm ⟨first, _⟩ _ _ := started.audited
      exact ⟨started.outside, audited.ownerless⟩
  | tail _ step ih =>
      obtain ⟨outside, ownerless⟩ := ih
      obtain ⟨fuel, entry, spares, enters⟩ := step
      exact ⟨outside.enter (spares.careful ownerless outside) False.elim enters,
        entry.ownerless ownerless enters⟩

/-- In every run in which no thread ends itself that nobody is joined to, and none is
cancelled twice at once, each further such entry enters `kthreads_schedule` only where the
descriptor of the active thread is not freed. -/
theorem schedule_spares_freed (started : Started threshold idle rrAlarm first)
    (run : Relation.ReflTransGen
      (ThreadStep threshold fun alarms entry => entry.Spares idle alarms) first last)
    (spares : entry.Spares idle last) : entry.SparesFreed threshold fuel last := by
  obtain ⟨outside, ownerless⟩ := started.spares run
  have careful : entry.entry.Careful threshold idle ∅ False last :=
    spares.careful ownerless outside
  obtain ⟨live, holds⟩ := outside
  exact holds.sparesFreed rfl spares careful

/-- A thread is joined by another one and ends. -/
theorem schedule_spares_freed_sample : ∃ first last, Started ⟨0, 500⟩ 6000 4096 first ∧
    Relation.ReflTransGen
      (ThreadStep ⟨0, 500⟩ fun alarms entry => entry.Spares 6000 alarms) first last ∧
    last.world.activeThread = 20000 ∧
    (ThreadEntry.threadExit 0).SparesFreed ⟨0, 500⟩ 20 last := by
  have evaluated : (do
      let second ← sampleProgram
      let third ← World.enter ⟨0, 500⟩ 20 (.createThread 0 6 10020 21000) second
      let last ← World.enter ⟨0, 500⟩ 20 (.waitForThread ⟨20000, 2⟩ true) third
      return decide (third.world.life 20000 = .living ∧ last.world.activeThread = 20000 ∧
        (last.world.thread 20000).refCnt = 2)) = Except.ok true := by
    decide +kernel
  obtain ⟨second, program, evaluated⟩ := bind_ok evaluated
  obtain ⟨third, creates, evaluated⟩ := bind_ok evaluated
  obtain ⟨last, waits, evaluated⟩ := bind_ok evaluated
  obtain ⟨living, isActive, refCnt⟩ := of_decide_eq_true (Except.ok.inj evaluated)
  obtain ⟨first, started, new, starts⟩ := sample_program program
  have known : third.world.Known ⟨20000, 2⟩ := by
    intro _ isFree
    exact absurd (living.symm.trans isFree) (by decide)
  have one : ThreadStep ⟨0, 500⟩ (fun alarms entry => entry.Spares 6000 alarms) first second :=
    ⟨20, .startProgram 10000 10004 10008 10012 20000 5, ⟨new, trivial, trivial⟩, starts⟩
  have two : ThreadStep ⟨0, 500⟩ (fun alarms entry => entry.Spares 6000 alarms) second third :=
    ⟨20, .createThread 0 6 10020 21000, ⟨trivial, trivial, trivial⟩, creates⟩
  have three : ThreadStep ⟨0, 500⟩ (fun alarms entry => entry.Spares 6000 alarms) third last :=
    ⟨20, .waitForThread ⟨20000, 2⟩ true, ⟨known, trivial, trivial⟩, waits⟩
  have run := ((Relation.ReflTransGen.single one).tail two).tail three
  have spares : (ThreadEntry.threadExit 0).Spares 6000 last := by
    refine ⟨?_, fun _ => ?_, trivial⟩
    · change last.world.activeThread ≠ 6000
      rw [isActive]
      decide
    · rw [isActive, refCnt]
      decide
  exact ⟨first, last, started, run, isActive, schedule_spares_freed started run spares⟩

/-- A thread that nobody is joined to ends itself: the scheduler is entered while the active
thread is the one whose descriptor is freed. -/
theorem schedule_spares_freed_fail : ∃ first last, Started ⟨0, 500⟩ 6000 4096 first ∧
    Relation.ReflTransGen
      (ThreadStep ⟨0, 500⟩ fun alarms entry => entry.entry.Valid 6000 alarms) first last ∧
    (ThreadEntry.threadExit 0).entry.Valid 6000 last ∧
    ¬ (ThreadEntry.threadExit 0).SparesFreed ⟨0, 500⟩ 20 last := by
  have evaluated : (do
      let last ← sampleProgram
      return decide (last.world.activeThread ≠ 6000 ∧
        (World.enter ⟨0, 500⟩ 20 (.threadExit 0) last).toBool = true ∧
        ((ThreadEntry.threadExit 0).enterWith (World.checkedSchedule .badId) ⟨0, 500⟩ 20
          last).toBool = false)) = Except.ok true := by
    decide +kernel
  obtain ⟨last, program, evaluated⟩ := bind_ok evaluated
  obtain ⟨notIdle, runs, stops⟩ := of_decide_eq_true (Except.ok.inj evaluated)
  obtain ⟨first, started, new, starts⟩ := sample_program program
  have run : Relation.ReflTransGen
      (ThreadStep ⟨0, 500⟩ fun alarms entry => entry.entry.Valid 6000 alarms) first last :=
    .single ⟨20, .startProgram 10000 10004 10008 10012 20000 5, new, starts⟩
  refine ⟨first, last, started, run, notIdle, fun spares => ?_⟩
  rw [spares .badId] at stops
  exact absurd (runs.symm.trans stops) (by decide)

end Runs

end Oseer
