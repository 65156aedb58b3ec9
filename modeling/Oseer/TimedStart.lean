import Oseer.TimedRun

/-!
# The start of the kernel

`rr_init` creates the alarm of the kernel, which is not armed, and
`kthreads_init` the idle thread, which gets the processor.
-/

namespace Oseer

open LinkedRing Results Prog Alarms

variable {idle rrAlarm stack kernelProc : Ptr} {attend : Set Ptr} {timed lasting : Prop}
  {threshold : Time} {fuel : Nat} {clock : Nat → Time} {supply : Nat → Ptr × Ptr}
  {alarms first : Alarms World} {world world' : World} {call : AlarmCall World}

section Boot

theorem boot_linked : Kernel.boot.sched.queues.Linked fun _ => [] where
  ring := fun _ => by simp [LinkedRing.Ring, Lists.Link, Lists.follow, Lists.precede, Kernel.boot]
  nodup := fun _ => by simp
  apart := fun _ _ _ mem => by cases mem
  object := fun _ _ mem => by cases mem

/-- `kthreads_init` finds the ready lists empty. -/
theorem initLists_sched (kernelProc : Ptr) :
    (Kernel.initLists kernelProc Kernel.boot).sched = Kernel.boot.sched := by
  have queues : ∀ levels : List Nat, levels.foldl
      (fun queues prio => queues.listInit (.ready prio)) Kernel.boot.sched.queues =
        Kernel.boot.sched.queues :=
    List.foldl_fixed' fun _ => boot_linked.listInit_eq rfl
  have mask : (fun mask => if mask < RDY_MASKS then 0 else Kernel.boot.sched.rdyMask mask) =
      Kernel.boot.sched.rdyMask := by
    funext mask
    exact ite_self 0
  unfold Kernel.initLists
  dsimp only
  rw [queues, mask]
  rfl

theorem boot_sound : Sound Kernel.boot.sched ∅ fun _ => [] where
  linked := boot_linked
  mem_alive := fun _ _ mem => by cases mem
  placed := fun _ _ mem => by cases mem
  located := fun _ mem => by cases mem
  mask := ReadyMask.shows_zero.congr fun _ _ => by simp
  prio := fun _ mem => by cases mem
  pointer := fun _ mem => by cases mem

end Boot

section Alarm

/-- `k_schedule_alarms` where there is no alarm reads the time. -/
theorem kScheduleAlarms_empty {host : Host World} {result : Nat × Alarms World}
    (empty : alarms.kalarms.listGet () FIRST = 0)
    (runs : alarms.kScheduleAlarms host call fuel = .ok result) :
    result = (0, { alarms with world := (host.getTime alarms.world).2 }) := by
  obtain ⟨looped, loops, rfl⟩ := map_ok runs
  cases fuel with
  | zero => cases loops
  | succ fuel =>
      unfold Alarms.fireLoop at loops
      dsimp only at loops
      rw [if_neg (by simp [empty])] at loops
      obtain rfl := Except.ok.inj loops
      unfold Alarms.setTimer
      dsimp only
      rw [if_neg (by simp [empty])]

/-- The parameters of the alarm of the kernel. -/
def rrInitParams : Alarm := ⟨⟨0, 0⟩, rrTimerAddress, 0, 0, ⟨0, 0⟩⟩

/-- `rr_init` creates the alarm of the kernel, and does not arm it. -/
theorem rrInit_spec (empty : alarms.kalarms.listGet () FIRST = 0)
    (queues : alarms.world.kernel.sched = Kernel.boot.sched) (nonzero : rrAlarm ≠ 0)
    (started : World.rrInit threshold fuel rrAlarm alarms = .ok first) :
    first.kalarm = Function.update alarms.kalarm rrAlarm
        ⟨rrInitParams, false, 0, ALARM_MAGIC⟩ ∧
      ∃ readings, first.world = { alarms.world with
        kernel := alarms.world.kernel.setErrno 0
        rrAlarm := rrAlarm
        rrParams := rrInitParams
        readings := readings } := by
  have initial : ∀ world : World, world.kernel = alarms.world.kernel →
      (World.host threshold).initQueue rrAlarm world = world := by
    intro world same
    have unchanged : world.kernel.sched.queues.listInit (.alarm rrAlarm) =
        world.kernel.sched.queues := by
      rw [same, queues]
      exact boot_linked.listInit_eq rfl
    change (world.onSched fun sched =>
      { sched with queues := sched.queues.listInit (.alarm rrAlarm) }) = world
    unfold World.onSched World.onKernel
    dsimp only
    rw [unchanged]
  unfold World.rrInit Alarms.kAlarmNew at started
  dsimp only at started
  rw [if_neg nonzero] at started
  obtain ⟨scheduled, ran, finished⟩ := bind_ok started
  generalize baseIs : (alarms.onWorld fun world => { world with
    rrParams := rrInitParams
    rrAlarm := rrAlarm }) = base
  generalize createdIs : ((base.setKalarm rrAlarm fun kalarm => { kalarm with
    alarm := rrInitParams
    magic := ALARM_MAGIC
    thread := 0 }).onWorld ((World.host threshold).initQueue rrAlarm)) = created
  have sameWorld : created.world = base.world := by
    rw [← createdIs, ← baseIs]
    exact initial _ rfl
  obtain ⟨kalarm, world, -⟩ := @newAlarm_spec base rrAlarm 0 rrInitParams created
    (createdIs ▸ rfl) sameWorld (createdIs ▸ rfl)
  have kalarms : (created.activate rrAlarm).kalarms = alarms.kalarms := by
    have untimed : ¬ 0 < (created.kalarm rrAlarm).alarm.expTime.sec +
        (created.kalarm rrAlarm).alarm.expTime.nsec := by
      rw [← createdIs, Alarms.onWorld_kalarm, setKalarm_same]
      exact (by decide : ¬ 0 < rrInitParams.expTime.sec + rrInitParams.expTime.nsec)
    unfold Alarms.activate
    dsimp only
    rw [if_neg untimed, ← createdIs, ← baseIs]
    rfl
  have reaches : Alarms.kScheduleAlarms (World.host threshold)
      (Alarms.kAlarmSet (World.host threshold) fuel) fuel (created.activate rrAlarm) =
        .ok scheduled := by
    rw [← createdIs, ← baseIs]
    exact ran
  generalize created.activate rrAlarm = after at *
  have result := kScheduleAlarms_empty (by rw [kalarms]; exact empty) reaches
  rw [result] at finished
  have here : after.kalarm rrAlarm = .new rrInitParams 0 := by
    rw [kalarm, Function.update_self]
  unfold Alarms.finishAdd at finished
  dsimp only at finished
  rw [Alarms.onWorld_kalarm, here, if_neg (by decide)] at finished
  unfold Alarms.scheduleIf at finished
  rw [if_neg (by decide)] at finished
  obtain rfl := Except.ok.inj finished
  refine ⟨?_, base.world.readings + 1, ?_⟩
  · rw [Alarms.onWorld_kalarm]
    exact kalarm.trans (baseIs ▸ rfl)
  · change ((World.host threshold).getTime after.world).2.onKernel (Kernel.setErrno 0) = _
    rw [world, ← baseIs]
    rfl

end Alarm

section Idle

/-- The kernel before the idle thread is created. -/
def Kernel.started (kernelProc : Ptr) : Kernel :=
  (Kernel.initLists kernelProc Kernel.boot).setErrno 0

theorem started_sound (kernelProc : Ptr) :
    Sound (Kernel.started kernelProc).sched ∅ fun _ => [] := by
  have sched : (Kernel.started kernelProc).sched = Kernel.boot.sched.setThread 0
      fun descriptor => { descriptor with errno := -0 } := by
    unfold Kernel.started Kernel.setErrno Kernel.setThread Kernel.activeThread
    dsimp only
    rw [initLists_sched]
    rfl
  rw [sched]
  exact boot_sound.setThread_dead (Set.notMem_empty _)

theorem started_passive (kernelProc thread : Ptr) :
    ((Kernel.started kernelProc).thread thread).state = .passive := by
  have kept : ((Kernel.started kernelProc).thread thread).state =
      ((Kernel.initLists kernelProc Kernel.boot).thread thread).state :=
    Kernel.setThread_field Thread.state rfl
  rw [kept]
  unfold Kernel.thread
  rw [initLists_sched]
  rfl

theorem started_kNewUniqueId (kernelProc : Ptr) :
    (Kernel.started kernelProc).kNewUniqueId = .ok (Kernel.started kernelProc).numbered := by
  have last : (Kernel.started kernelProc).lastId = 0 := rfl
  rw [Kernel.kNewUniqueId_next (by rw [last]; decide) rfl, last]
  rfl

theorem started_process (kernelProc : Ptr) :
    (Kernel.started kernelProc).processes kernelProc = ⟨0, 0, 0, 0⟩ := by
  change Function.update Kernel.boot.processes kernelProc ⟨0, 0, 0, 0⟩ kernelProc = _
  rw [Function.update_self]

theorem started_created (pointer : 0 < idle ∧ idle < addressCount) :
    Sound ((Kernel.started kernelProc).numbered.created stack idle 0 kernelProc).sched
      {idle} (enqueued (fun _ => []) (.ready 0) idle) := by
  have sound : Sound (Kernel.started kernelProc).numbered.sched ∅ fun _ => [] :=
    started_sound kernelProc
  generalize (Kernel.started kernelProc).numbered = kernel at *
  have created : Sound (kernel.created stack idle 0 kernelProc).sched (insert idle ∅)
      (enqueued (fun _ => []) (.ready (Kernel.clampPrio 0)) idle) :=
    sound.created (Set.notMem_empty _) rfl rfl pointer 0 kernelProc
  rw [insert_empty_eq] at created
  exact created

/-- What the kernel keeps about the idle thread. -/
theorem started_ledger (pointer : 0 < idle ∧ idle < addressCount) :
    Ledger ((Kernel.started kernelProc).numbered.created stack idle 0 kernelProc) idle {idle}
      (enqueued (fun _ => []) (.ready 0) idle) [idle] := by
  have spec : Created (Kernel.started kernelProc)
      ((Kernel.started kernelProc).numbered.created stack idle 0 kernelProc) idle stack 0
      kernelProc := Kernel.created_spec 0
  have waiting : ∀ queue : QueueId, queue.state = .wait →
      enqueued (fun _ => []) (.ready 0) idle queue = [] := by
    intro queue isWait
    unfold enqueued
    rw [Function.update_of_ne]
    rintro rfl
    cases isWait
  generalize (Kernel.started kernelProc).numbered.created stack idle 0 kernelProc = kernel at spec ⊢
  have lastId : kernel.lastId = 1 := spec.lastId
  have id : (kernel.thread idle).id = 1 := spec.id_eq.trans lastId
  have idmask : kernel.idmask = Function.update (fun _ => false) 1 true := spec.idmask
  have all : kernel.allThreads.Linked fun _ => [idle] := by
    rw [spec.allThreads]
    exact Lists.Linked.init_single.append_single pointer.1.ne' (by simp)
  have procs : kernel.procs.Linked fun _ => [] := by
    rw [spec.procs]
    exact Lists.Linked.init_single
  refine ⟨⟨all, by simp, by simpa using pointer, ?_, ?_, ?_, ?_, ?_, ?_, ?_, rfl⟩, [], procs, ?_, ?_, ?_,
    ?_, ?_⟩
  · intro thread mem
    obtain rfl := List.mem_singleton.mp mem
    rw [waiting _ rfl, spec.refCnt_eq]
    decide
  · intro thread _
    exact waiting _ rfl
  · intro thread other mem
    rw [waiting _ rfl] at mem
    cases mem
  · intro thread mem
    obtain rfl := List.mem_singleton.mp mem
    rw [id, lastId, idmask, Function.update_self]
    exact ⟨by omega, le_rfl, rfl⟩
  · intro thread mem other memOther _
    exact (List.mem_singleton.mp mem).trans (List.mem_singleton.mp memOther).symm
  · intro number greater
    rw [lastId] at greater
    rw [idmask, Function.update_of_ne (by omega)]
  · rw [lastId]
    decide
  · rintro proc (rfl | mem)
    · have only : kernel.threadsOf {idle} (kernel.thread idle).proc = {idle} := by
        ext thread
        unfold Kernel.threadsOf
        constructor
        · exact fun mem => mem.1
        · rintro rfl
          exact ⟨rfl, rfl⟩
      rw [only, Set.ncard_singleton, spec.processes, spec.proc_eq, Function.update_self,
        started_process]
      rfl
    · cases mem
  · intro thread mem
    exact .inl (congrArg (fun thread => (kernel.thread thread).proc) mem)
  · intro proc mem
    cases mem
  · intro proc mem
    cases mem
  · rw [spec.processes, spec.proc_eq, Function.update_self, started_process]

theorem started_kthreadCreate (stackPointer : stack ≠ 0) (pointer : idle ≠ 0) :
    (Kernel.started kernelProc).kthreadCreate stack idle 0 true kernelProc =
      .ok ((Kernel.started kernelProc).numbered.created stack idle 0 kernelProc) := by
  unfold Kernel.kthreadCreate
  rw [if_neg (by simp [pointer, stackPointer]), started_kNewUniqueId]
  generalize (Kernel.started kernelProc).numbered = kernel
  rfl

/-- What is stored when the idle thread is created. -/
theorem idle_created_world (kernelIs : world.kernel = Kernel.started kernelProc)
    (created : world.kthreadCreate .fifo 0 stack idle kernelProc = .ok world') :
    stack ≠ 0 ∧ (0 < idle ∧ idle < addressCount) ∧
      world' = ({ world with
        kernel := (Kernel.started kernelProc).numbered.created stack idle 0 kernelProc
        life := Function.update world.life idle .living } : World).kschedThreadAdd idle .fifo := by
  unfold World.kthreadCreate at created
  split_ifs at created with inUse
  obtain ⟨kernel, result, rfl⟩ := map_ok created
  have bound : idle < addressCount := Nat.lt_of_not_le fun beyond => inUse (.inr beyond)
  rw [kernelIs] at result
  by_cases null : stack = 0 ∨ idle = 0
  · unfold Kernel.kthreadCreate at result
    rw [if_pos null] at result
    cases result
  obtain ⟨stackPointer, nonzero⟩ := not_or.mp null
  rw [started_kthreadCreate stackPointer nonzero] at result
  generalize (Kernel.started kernelProc).numbered.created stack idle 0 kernelProc = after at *
  obtain rfl := Except.ok.inj result
  exact ⟨stackPointer, ⟨Nat.pos_of_ne_zero nonzero, bound⟩, rfl⟩

/-- The idle thread is created. -/
theorem idle_created (kernelIs : world.kernel = Kernel.started kernelProc)
    (free : ∀ thread, world.life thread = .free)
    (created : world.kthreadCreate .fifo 0 stack idle kernelProc = .ok world') :
    Threads idle ∅ world' (enqueued (fun _ => []) (.ready 0) idle) [idle] ∧
      world'.activeThread = 0 ∧ world'.alive = {idle} ∧
      (world'.thread idle).activated = false ∧ (world'.thread 0).state = .passive ∧
      world'.rrAlarm = world.rrAlarm ∧ world'.rrParams = world.rrParams ∧
      (∀ thread, thread ≠ idle → world'.tsched thread = world.tsched thread) ∧
      (world'.tsched idle).policy = .fifo := by
  obtain ⟨-, pointer, rfl⟩ := idle_created_world kernelIs created
  have sound := @started_created idle stack kernelProc pointer
  have ledger := @started_ledger idle stack kernelProc pointer
  have spec : Created (Kernel.started kernelProc)
      ((Kernel.started kernelProc).numbered.created stack idle 0 kernelProc) idle stack 0
      kernelProc := Kernel.created_spec 0
  have flag : (((Kernel.started kernelProc).numbered.created stack idle 0
      kernelProc).sched.threads idle).activated = false := by
    rw [Kernel.created_threads, Function.update_self]
  generalize (Kernel.started kernelProc).numbered.created stack idle 0 kernelProc = after at *
  obtain ⟨sameKernel, life, rrAlarm, rrParams, tsched⟩ :=
    @World.kschedThreadAdd_same { world with
      kernel := after
      life := Function.update world.life idle .living } .fifo idle
  have fifo : ((World.kschedThreadAdd idle .fifo { world with
      kernel := after
      life := Function.update world.life idle .living }).tsched idle).policy = .fifo := by
    unfold World.kschedThreadAdd World.threadAdd World.setSched
    dsimp only
    rw [Function.update_self]
  generalize World.kschedThreadAdd idle .fifo { world with
    kernel := after
    life := Function.update world.life idle .living } = last at *
  have alive : last.alive = {idle} := by
    ext thread
    unfold World.alive
    rw [life]
    by_cases same : thread = idle
    · rw [same]
      simp
    · simp [same, free]
  have descriptor : ∀ thread, last.thread thread = after.thread thread := by
    intro thread
    unfold World.thread
    rw [sameKernel]
  have ready : (last.thread idle).state = .ready := by
    rw [descriptor]
    exact spec.state
  refine ⟨⟨?_, ?_, fun thread => ?_, ?_, fun thread notMem _ => ?_⟩, ?_, alive, ?_, ?_, rrAlarm,
    rrParams, tsched, fifo⟩
  · rw [alive, sameKernel]
    exact sound
  · rw [alive, sameKernel]
    exact ledger
  · rw [life, List.mem_singleton]
    by_cases same : thread = idle
    · rw [same]
      simp
    · simp [same, free]
  · rw [alive]
    rintro thread rfl waits
    rw [ready] at waits
    cases waits
  · unfold enqueued
    rw [Function.update_of_ne (by simp)]
  · unfold World.activeThread
    rw [sameKernel]
    exact spec.active
  · rw [descriptor]
    exact flag
  · rw [descriptor, spec.others 0 pointer.1.ne]
    exact started_passive kernelProc 0

end Idle

section Start

/-- Nothing is recorded at the start: the idle thread has no time slice. -/
theorem kthreadsSchedule_fifo :
    Ensures call
      (fun alarms => alarms.events = [] ∧ alarms.world.activeThread = 0 ∧
        ∀ thread, (alarms.world.tsched thread).policy = .fifo)
      World.kthreadsSchedule fun _ alarms => alarms.events = [] := by
  have activates : ∀ thread, Ensures call
      (fun alarms => alarms.events = [] ∧
        ∀ thread, (alarms.world.tsched thread).policy = .fifo)
      (World.kschedActivateThread thread) fun _ alarms => alarms.events = [] := by
    intro thread
    unfold World.kschedActivateThread
    refine Ensures.bind Ensures.read fun world => ?_
    apply Ensures.ite
    · intro _
      exact Ensures.pure.mono (fun _ pre => pre.2.1) fun _ _ post => post
    · intro _
      have keeps : Ensures call
          (fun alarms => world = alarms.world ∧ alarms.events = [] ∧
            ∀ thread, (alarms.world.tsched thread).policy = .fifo)
          (World.threadActivate (world.tsched thread).policy thread)
          (fun _ alarms => alarms.events = []) := by
        intro alarms ran pre runs
        obtain ⟨rfl, events, fifo⟩ := pre
        rw [fifo] at runs
        obtain rfl := Except.ok.inj runs
        exact events
      refine Ensures.bind keeps fun _ => ?_
      exact Ensures.modify.mono (fun _ events => events) fun _ _ post => post
  unfold World.kthreadsSchedule
  refine Ensures.bind Ensures.read fun world => ?_
  apply Ensures.ite
  · intro _
    refine Ensures.attempt.mono ?_ fun _ _ post => post
    intro alarms _ world' failed
    cases failed
  · intro _
    apply Ensures.ite
    · intro _
      have entered : Ensures call
          (fun alarms => world = alarms.world ∧ alarms.events = [] ∧
            alarms.world.activeThread = 0 ∧
            ∀ thread, (alarms.world.tsched thread).policy = .fifo)
          (Prog.attempt fun current => current.leaveActive.enterActive
            (ReadyMask.kthreadReadyListHighest world.kernel.sched.rdyMask).toNat)
          (fun _ alarms => alarms.events = [] ∧
            ∀ thread, (alarms.world.tsched thread).policy = .fifo) := by
        refine Ensures.attempt.mono ?_ fun _ _ post => post
        rintro alarms ⟨-, events, isNull, fifo⟩ world' result
        have stays : alarms.world.leaveActive = alarms.world := by
          unfold World.leaveActive
          dsimp only
          rw [if_neg (not_not.mpr isNull)]
        rw [stays] at result
        unfold World.enterActive at result
        dsimp only at result
        split_ifs at result
        obtain rfl := Except.ok.inj result
        exact ⟨events, fifo⟩
      refine Ensures.bind entered fun _ => Ensures.bind Ensures.read fun entered => ?_
      exact (activates entered.activeThread).mono (fun _ pre => pre.2) fun _ _ post => post
    · intro stays alarms ran pre _
      obtain ⟨rfl, -, isNull, -⟩ := pre
      exact absurd (.inl isNull) stays

/-- What the parts of the kernel have in common while it starts. -/
def startSetting (idle rrAlarm : Ptr) (attend : Set Ptr) (timed lasting : Prop)
    (alarms : Alarms World) : Setting :=
  { settingOf idle rrAlarm {rrAlarm} attend timed lasting alarms with
    waits := ∅
    armed := False
    marked := False }

/-- The idle thread may get the processor. -/
theorem Ready.start (list : ListSound {rrAlarm} alarms)
    (kalarm : alarms.kalarm rrAlarm = ⟨rrInitParams, false, 0, ALARM_MAGIC⟩)
    (isAlarm : alarms.world.rrAlarm = rrAlarm) (params : alarms.world.rrParams = rrInitParams)
    (kernelIs : alarms.world.kernel = Kernel.started kernelProc)
    (free : ∀ thread, alarms.world.life thread = .free)
    (result : (World.clearRecord alarms).world.kthreadCreate .fifo 0 stack idle kernelProc =
      .ok world') :
    Ready (startSetting idle rrAlarm attend timed lasting alarms)
        { World.clearRecord alarms with world := world' } ∧
      world'.activeThread = 0 ∧
      (∀ thread, thread ≠ idle → world'.tsched thread = alarms.world.tsched thread) ∧
      (world'.tsched idle).policy = .fifo := by
  obtain ⟨threads, activeThread, alive, flag, passive, rrSame, paramsSame, tsched⟩ :=
    @idle_created idle stack kernelProc (World.clearRecord alarms).world world' kernelIs free
      result
  refine ⟨⟨_, _, ⟨threads, ?_, ⟨?_, ?_, ?_⟩, ⟨?_, False.elim, False.elim⟩, ?_⟩, ?_, ?_⟩,
    activeThread, tsched⟩
  · exact
      { list := list.world _ _
        rr_live := rfl
        rr_eq := rrSame.trans isAlarm
        rr_owner := congrArg KAlarm.thread kalarm
        rr_action := congrArg (fun kalarm => kalarm.alarm.action) kalarm
        params_action := congrArg Alarm.action (paramsSame.trans params)
        owned := fun id mem notRr => absurd mem notRr
        same := fun _ _ => .refl _ }
  · exact fun id mem notRr => absurd mem notRr
  · exact fun id notEmpty => absurd rfl notEmpty
  · exact fun id _ notEmpty => absurd rfl notEmpty
  · intro _ thread mem activated
    have isAlive : thread ∈ world'.alive := mem
    rw [alive] at isAlive
    have isActivated : (world'.thread thread).activated = true := activated
    rw [isAlive, flag] at isActivated
    cases isActivated
  · intro event mem
    cases mem
  all_goals
    intro state
    have isState : (world'.thread world'.activeThread).state = _ := state
    rw [activeThread, passive] at isState
    cases isState

/-- The kernel has started, with its alarm at `rrAlarm` and its idle thread at `idle`. -/
def Started (threshold : Time) (idle rrAlarm : Ptr) (first : Alarms World) : Prop :=
  0 < rrAlarm ∧ rrAlarm < addressCount ∧ ∃ fuel stack kernelProc clock supply,
    World.start threshold fuel rrAlarm stack idle kernelProc clock supply = .ok first

/-- The kernel after `rr_init`, before the idle thread is created. -/
structure Initial (rrAlarm kernelProc : Ptr) (initial : Alarms World) : Prop where
  list : ListSound {rrAlarm} initial
  kalarm : initial.kalarm rrAlarm = ⟨rrInitParams, false, 0, ALARM_MAGIC⟩
  ownerless : ∀ id, (initial.kalarm id).thread = 0
  isAlarm : initial.world.rrAlarm = rrAlarm
  params : initial.world.rrParams = rrInitParams
  kernel : initial.world.kernel = Kernel.started kernelProc
  free : ∀ thread, initial.world.life thread = .free
  fifo : ∀ thread, (initial.world.tsched thread).policy = .fifo

/-- The start of the kernel ends with the creation of the idle thread. -/
theorem Started.initial (started : Started threshold idle rrAlarm first) :
    ∃ fuel stack kernelProc initial, Initial rrAlarm kernelProc initial ∧
      World.perform threshold fuel
        (do
          Prog.attempt (World.kthreadCreate .fifo 0 stack idle kernelProc)
          World.kthreadsSchedule) (World.clearRecord initial) = .ok first := by
  obtain ⟨nonzero, bound, fuel, stack, kernelProc, clock, supply, started⟩ := started
  have pointer : 0 < rrAlarm ∧ rrAlarm < addressCount := ⟨nonzero, bound⟩
  unfold World.start at started
  obtain ⟨initial, inits, started⟩ := bind_ok started
  generalize bootIs : (World.powerOn clock supply).kTimeInit.onWorld
    (World.onKernel (Kernel.initLists kernelProc)) = boot at inits
  have unmarked : ∀ id, ¬ (World.powerOn clock supply).Marked id := by
    intro id marked
    have isZero : 0 = ALARM_MAGIC := marked
    exact absurd isZero (by decide)
  have bootList : ListSound ∅ boot := by
    rw [← bootIs]
    exact (ListSound.kTimeInit unmarked).world _ _
  have empty : boot.kalarms.listGet () FIRST = 0 := by
    rw [← bootIs]
    exact Lists.Linked.init_single.listGet_first ()
  have sched : boot.world.kernel.sched = Kernel.boot.sched := by
    rw [← bootIs]
    exact initLists_sched kernelProc
  obtain ⟨kalarm, readings, world⟩ := rrInit_spec empty sched pointer.1.ne' inits
  have list : ListSound {rrAlarm} initial := by
    have stored : ListSound ∅ (boot.onWorld fun world => { world with
        rrParams := rrInitParams
        rrAlarm := rrAlarm }) := bootList.world _ _
    have created := stored.kAlarmNew (Set.notMem_empty _) pointer inits
    rwa [insert_empty_eq] at created
  refine ⟨fuel, stack, kernelProc, initial, ⟨list, ?_, fun id => ?_, ?_, ?_, ?_, ?_, ?_⟩,
    started⟩
  · rw [kalarm, Function.update_self]
  · rw [kalarm]
    by_cases same : id = rrAlarm
    · rw [same, Function.update_self]
    · rw [Function.update_of_ne same, ← bootIs]
      rfl
  · rw [world]
  · rw [world]
  · rw [world, ← bootIs]
    rfl
  · rw [world, ← bootIs]
    exact fun _ => rfl
  · rw [world, ← bootIs]
    exact fun _ => rfl

/-- The invariant holds when the kernel has started. -/
theorem Started.outside (started : Started threshold idle rrAlarm first) :
    Outside idle rrAlarm attend timed lasting first := by
  obtain ⟨fuel, stack, kernelProc, initial, inits, started⟩ := started.initial
  obtain ⟨ran, ranOk, rfl⟩ := map_ok started
  rw [run_bind] at ranOk
  obtain ⟨middle, creates, schedules⟩ := bind_ok ranOk
  obtain ⟨world', result, creates⟩ := bind_ok creates
  obtain rfl := Except.ok.inj creates
  obtain ⟨ready, isNull, tsched, isFifo⟩ :=
    @Ready.start idle rrAlarm stack kernelProc attend timed lasting initial world' inits.list
      inits.kalarm inits.isAlarm inits.params inits.kernel inits.free result
  have holds := kthreadsSchedule_first (kAlarmSet_nested threshold fuel) _ ran ⟨ready, isNull⟩
    schedules
  have events := kthreadsSchedule_fifo _ ran ⟨rfl, isNull, fun thread => ?_⟩ schedules
  · refine holds.outside trivial trivial fun isTimed => ⟨isTimed, fun alarm memory mem => ?_⟩
    rw [events] at mem
    cases mem
  · by_cases same : thread = idle
    · rw [same]
      exact isFifo
    · exact (congrArg SchedData.policy (tsched thread same)).trans (inits.fifo thread)

end Start

section Sample

/-- A start of the kernel that can be evaluated: each reading of the clock is one millisecond
after the last. -/
def sampleStart : Except Fault (Alarms World) :=
  World.start ⟨0, 500⟩ 20 4096 5000 6000 7000 (fun reading => ⟨0, 1000000 * reading⟩)
    fun index => (900000 + 4 * index, 800000 + 4 * index)

theorem sample_started (started : sampleStart = .ok first) : Started ⟨0, 500⟩ 6000 4096 first :=
  ⟨by decide, by decide, _, _, _, _, _, started⟩

/-- A process descriptor is new before there are processes, apart from that of the idle
thread. -/
theorem Outside.newProcess {proc pi : Ptr}
    (outside : Outside idle rrAlarm attend timed lasting alarms) (empty : alarms.world.kernel.procs.listGet () FIRST = 0)
    (different : proc ≠ (alarms.world.thread idle).proc) (nonzero : proc ≠ 0) (loaded : pi ≠ 0) :
    alarms.world.NewProcess proc pi := by
  obtain ⟨live, members, all, kept, -⟩ := outside
  obtain ⟨procs, accounted⟩ := kept.threads.ledger.accounted
  have linked : alarms.world.kernel.procs.Linked fun _ => procs := accounted.linked
  have none : procs = [] := linked.eq_nil empty
  refine ⟨nonzero, loaded, fun mate mem same => ?_⟩
  rcases accounted.member mate mem with isHome | inProcs
  · exact different (same.symm.trans isHome)
  · rw [none] at inProcs
    cases inProcs

/-- The start of the kernel and of the first program. -/
def sampleProgram : Except Fault (Alarms World) := do
  let first ← sampleStart
  World.enter ⟨0, 500⟩ 20 (.startProgram 10000 10004 10008 10012 20000 5) first

theorem sample_program (starts : sampleProgram = .ok alarms) :
    ∃ first, Started ⟨0, 500⟩ 6000 4096 first ∧ first.world.NewProcess 10000 10004 ∧
      World.enter ⟨0, 500⟩ 20 (.startProgram 10000 10004 10008 10012 20000 5) first =
        .ok alarms := by
  unfold sampleProgram at starts
  obtain ⟨first, started, enters⟩ := bind_ok starts
  have evaluated : (do
      let first ← sampleStart
      return decide (first.world.kernel.procs.listGet () FIRST = 0 ∧
        (first.world.thread 6000).proc = 7000)) = Except.ok true := by
    decide +kernel
  rw [started] at evaluated
  obtain ⟨noProcess, home⟩ := of_decide_eq_true (Except.ok.inj evaluated)
  have outside : Outside 6000 4096 ∅ False False first := (sample_started started).outside
  refine ⟨first, sample_started started, ?_, enters⟩
  exact outside.newProcess noProcess (by rw [home]; decide) (by decide) (by decide)

theorem careful_start {proc pi stackPool stack kthread : Ptr} {prio : Int}
    (new : alarms.world.NewProcess proc pi) :
    (Entry.startProgram proc pi stackPool stack kthread prio).Careful threshold idle ∅ lasting
      alarms :=
  ⟨new, trivial, trivial, trivial, trivial, fun notEmpty => absurd rfl notEmpty⟩

theorem careful_create {sched prio : Int} {stack kthread : Ptr} :
    (Entry.createThread sched prio stack kthread).Careful threshold idle ∅ lasting alarms :=
  ⟨trivial, trivial, trivial, trivial, trivial, fun notEmpty => absurd rfl notEmpty⟩

theorem careful_alarmNew {id : Ptr} {alarm : Alarm} (unmarked : (alarms.kalarm id).magic = 0)
    (pointer : 0 < id ∧ id < addressCount)
    (inactive : (alarms.kalarm alarms.world.rrAlarm).active = false) :
    (Entry.alarmNew id alarm).Careful threshold idle ∅ lasting alarms := by
  refine ⟨⟨fun marked => ?_, pointer⟩, trivial, fun _ => ⟨rfl, fun active => ?_⟩, trivial,
    trivial, fun notEmpty => absurd rfl notEmpty⟩
  · exact absurd (unmarked.symm.trans marked) (by decide)
  · exact absurd (inactive.symm.trans active) (by decide)

end Sample

end Oseer
