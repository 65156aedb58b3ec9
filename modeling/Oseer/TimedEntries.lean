import Oseer.Cancel
import Oseer.Syscalls
import Oseer.TimedSteady

/-!
# The system calls on threads keep the invariant

The active thread creates threads and processes, waits in a queue, releases
threads, and ends.  Each entry changes the threads first and calls
`kthreads_schedule` then.
-/

namespace Oseer

open LinkedRing Results Prog

variable {setting : Setting} {alarms alarms' : Alarms World} {members members' : Members}
  {all : List Ptr} {thread kthread proc : Ptr} {world world' : World} {call : AlarmCall World}
  {queue : QueueId}

section Create

theorem setErrno_spec (errnum : Int) :
    Ensures call (Holds setting) (World.setErrno errnum) fun _ => Holds setting :=
  Ensures.modify.mono (fun _ holds => holds.setErrno errnum) fun _ _ post => post

theorem reschedule_spec (nested : Nested call) :
    Ensures call (Holds setting) World.kthreadsSchedule fun _ => Holds setting :=
  (kthreadsSchedule_spec nested).mono (fun _ holds => holds.ready) fun _ _ post => post

theorem kthreadCreate_spec (policy : SchedPolicy) (prio : Int) (stack kthread : Ptr) :
    Ensures call (Holds setting)
      (Prog.attempt fun world => world.kthreadCreate policy prio stack kthread
        (world.thread world.activeThread).proc)
      fun _ => Holds setting := by
  refine Ensures.attempt.mono ?_ fun _ _ post => post
  rintro alarms ⟨members, all, kept, running⟩ world created
  have mem : alarms.world.activeThread ∈ alarms.world.alive := running.mem_alive
  obtain ⟨members', spawned⟩ := kept.threads.kthreadCreate ⟨_, mem, rfl⟩ created
  obtain ⟨kept', running'⟩ := kept.spawned running spawned
  exact ⟨members', _, kept', running'⟩

theorem sysCreateThread_spec (nested : Nested call) (sched prio : Int) (stack kthread : Ptr) :
    Ensures call (Holds setting) (World.sysCreateThread sched prio stack kthread)
      fun _ => Holds setting := by
  unfold World.sysCreateThread
  split
  · refine Ensures.attempt.mono ?_ fun _ _ post => post
    intro alarms _ world failed
    cases failed
  · exact Ensures.bind (kthreadCreate_spec _ prio stack kthread) fun _ =>
      Ensures.bind (setErrno_spec _) fun _ => reschedule_spec nested

/-- A process descriptor at `proc` is new. -/
structure World.NewProcess (world : World) (proc pi : Ptr) : Prop where
  nonzero : proc ≠ 0
  loaded : pi ≠ 0
  unused : ∀ mate ∈ world.alive, (world.thread mate).proc ≠ proc

theorem Threads.storeProcess {idle : Ptr} {waits : Set Ptr} (pi stackPool : Ptr)
    (threads : Threads idle waits world members all)
    (unused : ∀ mate ∈ world.alive, (world.thread mate).proc ≠ proc) :
    Threads idle waits (world.onKernel (Kernel.storeProcess proc pi stackPool)) members all :=
  ⟨threads.sound, threads.ledger.newProcess unused ⟨0, pi, pi, stackPool⟩, threads.listed,
    threads.waiting, threads.finished⟩

/-- The first thread of a new process. -/
theorem Threads.startProcess {idle : Ptr} {waits : Set Ptr} {pi stackPool stack : Ptr} {prio : Int}
    (threads : Threads idle waits world members all) (new : world.NewProcess proc pi)
    (started : world.startProcess proc pi stackPool stack kthread prio = .ok world') :
    ∃ members', Spawned idle waits world world' members members' all kthread proc := by
  obtain ⟨middle, created, startedIs⟩ := map_ok started
  have stored := threads.storeProcess pi stackPool new.unused
  have ledger : Ledger (Kernel.storeProcess proc pi stackPool world.kernel) idle world.alive
      members all := stored.ledger
  obtain ⟨fresh, pointer, below, rfl⟩ :=
    Threads.kthreadCreate_cases stored.ledger.toRoster stored.listed created
  have dead : kthread ∉ world.alive := fun mem => fresh (threads.ledger.alive_listed kthread mem)
  have notHome : proc ≠ (world.thread idle).proc := fun same =>
    new.unused idle threads.ledger.idle_mem same.symm
  have process : (Kernel.storeProcess proc pi stackPool world.kernel).processes proc =
      ⟨0, pi, pi, stackPool⟩ := Function.update_self ..
  have spec : Created (Kernel.storeProcess proc pi stackPool world.kernel)
      ((Kernel.storeProcess proc pi stackPool world.kernel).numbered.created stack kthread prio
        proc) kthread stack (Kernel.clampPrio prio) proc := Kernel.created_spec prio
  obtain ⟨procs, accounted⟩ := ledger.accounted
  have accounted' := accounted.started ledger.toRoster.finite dead new.nonzero notHome new.unused
    (by rw [process]) (by rw [process]; exact new.loaded) spec
  have ledger' := ledger.created_with fresh pointer below prio accounted'
  have tsched : ∀ thread, thread ≠ kthread → world'.tsched thread = world.tsched thread := by
    intro thread different
    rw [← startedIs]
    exact Function.update_of_ne different ..
  have spawned := stored.created fresh pointer ledger' (startedIs ▸ rfl) (startedIs ▸ rfl) tsched
    (startedIs ▸ rfl) (startedIs ▸ rfl)
  exact ⟨_, { spawned with }⟩

theorem setErrno_new (proc pi : Ptr) :
    Ensures call (fun alarms => Holds setting alarms ∧ alarms.world.NewProcess proc pi)
      (World.setErrno SUCCESS)
      (fun _ alarms => Holds setting alarms ∧ alarms.world.NewProcess proc pi) := by
  refine Ensures.modify.mono ?_ fun _ _ post => post
  rintro alarms ⟨holds, new⟩
  refine ⟨holds.setErrno SUCCESS, new.nonzero, new.loaded, fun mate mem => ?_⟩
  have same : ((alarms.world.kernel.setErrno SUCCESS).thread mate).proc =
      (alarms.world.thread mate).proc :=
    Kernel.setThread_field (fun descriptor => descriptor.proc) rfl
  exact same ▸ new.unused mate mem

theorem startProcess_spec (proc pi stackPool stack kthread : Ptr) (prio : Int) :
    Ensures call (fun alarms => Holds setting alarms ∧ alarms.world.NewProcess proc pi)
      (Prog.attempt (World.startProcess proc pi stackPool stack kthread prio))
      fun _ => Holds setting := by
  refine Ensures.attempt.mono ?_ fun _ _ post => post
  rintro alarms ⟨⟨members, all, kept, running⟩, new⟩ world started
  obtain ⟨members', spawned⟩ := kept.threads.startProcess new started
  obtain ⟨kept', running'⟩ := kept.spawned running spawned
  exact ⟨members', _, kept', running'⟩

theorem sysStartProgram_spec (nested : Nested call) (proc pi stackPool stack kthread : Ptr)
    (prio : Int) :
    Ensures call (fun alarms => Holds setting alarms ∧ alarms.world.NewProcess proc pi)
      (World.sysStartProgram proc pi stackPool stack kthread prio) fun _ => Holds setting := by
  unfold World.sysStartProgram
  refine Ensures.bind (setErrno_new proc pi) fun _ => ?_
  refine Ensures.bind (startProcess_spec proc pi stackPool stack kthread prio) fun _ => ?_
  exact reschedule_spec nested

end Create

section Wait

/-- A queue that a thread may wait in, where the references to the threads waited for are
counted, only its owner waits in the queue of a thread, and an alarm that is waited for is
active. -/
structure MayWait (setting : Setting) (alarms : Alarms World) (members : Members)
    (all : List Ptr) (queue : QueueId) : Prop where
  isWait : queue.state = .wait
  join : ∀ thread, queue = .join thread → thread ∈ all ∧
    ((members queue).length : Int) + 1 < (alarms.world.thread thread).refCnt ∧
    (alarms.world.thread thread).state ≠ .passive
  own : ∀ thread, queue = .thrq (.thread thread) → alarms.world.activeThread = thread
  alarm : ∀ id, queue = .alarm id →
    id ∈ setting.live ∧ id ≠ setting.rr ∧ (alarms.kalarm id).active = true

/-- The active thread waits. -/
theorem Kept.waits (kept : Kept setting alarms members all)
    (running : Running alarms.world.kernel.sched alarms.world.alive)
    (may : MayWait setting alarms members all queue) :
    Ready { setting with waits := insert alarms.world.activeThread setting.waits }
      { alarms with world := alarms.world.onSched fun sched =>
          sched.kthreadEnqueue alarms.world.activeThread queue } := by
  obtain ⟨threads, same, descriptor, activeThread⟩ :=
    kept.threads.kthreadEnqueue running may.isWait may.join may.own
  generalize enqueuedIs : (alarms.world.onSched fun sched =>
    sched.kthreadEnqueue alarms.world.activeThread queue) = world' at *
  have tsched : world'.tsched = alarms.world.tsched := enqueuedIs ▸ rfl
  have here : (world'.thread alarms.world.activeThread).state = .wait := by
    rw [descriptor, Function.update_self]
  have flag : ∀ thread, (world'.thread thread).activated =
      (alarms.world.thread thread).activated := by
    intro thread
    rw [descriptor]
    by_cases isActive : thread = alarms.world.activeThread
    · rw [isActive, Function.update_self]
    · rw [Function.update_of_ne isActive]
  refine ⟨_, all, ⟨threads, ?_, ⟨?_, fun id notEmpty => ?_, fun id mem notEmpty => ?_⟩,
    ⟨?_, ?_, ?_⟩, kept.events⟩, ?_, ?_⟩
  · have rrParams := congrArg Alarm.action same.rrParams
    have table := kept.table.world same.rrAlarm rrParams alarms.events
    exact { table with }
  · rw [same.alive]
    exact kept.users.owners
  · by_cases isQueue : queue = .alarm id
    · obtain ⟨mem, notRr, -⟩ := may.alarm id isQueue
      exact ⟨mem, notRr⟩
    · unfold enqueued at notEmpty
      rw [Function.update_of_ne (Ne.symm isQueue)] at notEmpty
      exact kept.users.queues id notEmpty
  · by_cases isQueue : queue = .alarm id
    · exact (may.alarm id isQueue).2.2
    · unfold enqueued at notEmpty
      rw [Function.update_of_ne (Ne.symm isQueue)] at notEmpty
      exact kept.users.attended id mem notEmpty
  · intro isClean thread mem activated
    rw [same.alive] at mem
    rw [flag] at activated
    exact (kept.slices.only isClean thread mem activated).trans activeThread.symm
  · intro _ _ isActive
    rw [activeThread, here] at isActive
    cases isActive
  · intro isMarked isClean
    rw [activeThread, flag]
    exact kept.slices.marked isMarked isClean
  · intro isActive
    rw [activeThread, here] at isActive
    cases isActive
  · intro isReady
    rw [activeThread, here] at isReady
    cases isReady

/-- The active thread, which is the caller, may wait in the queue. -/
def Waiter (setting : Setting) (queue : QueueId) (alarms : Alarms World) : Prop :=
  ∃ members all, Kept setting alarms members all ∧
    Running alarms.world.kernel.sched alarms.world.alive ∧
    alarms.world.activeThread = setting.caller ∧ MayWait setting alarms members all queue

/-- The setting after the caller waited. -/
def Setting.afterWait (setting : Setting) : Setting :=
  { setting with waits := insert setting.caller setting.waits }

/-- `kthread_enqueue` of the active thread. -/
theorem Waiter.enqueue (waiter : Waiter setting queue alarms) :
    Ready setting.afterWait (alarms.onWorld fun world =>
      world.onKernel (Kernel.kthreadEnqueue queue)) := by
  obtain ⟨members, all, kept, running, isCaller, may⟩ := waiter
  have ready := kept.waits running may
  have mem : alarms.world.activeThread ∈ alarms.world.alive := running.mem_alive
  have nonzero : alarms.world.kernel.sched.activeThread ≠ 0 := kept.threads.sound.ne_zero mem
  have same : alarms.world.onKernel (Kernel.kthreadEnqueue queue) =
      alarms.world.onSched fun sched =>
        sched.kthreadEnqueue alarms.world.activeThread queue := by
    unfold World.onSched World.onKernel Kernel.kthreadEnqueue
    rw [Sched.kthreadEnqueue_active queue nonzero]
    rfl
  rw [← same, isCaller] at ready
  exact ready

theorem blockActive_spec (nested : Nested call) (queue : QueueId) :
    Ensures call (Waiter setting queue) (World.blockActive queue)
      fun _ => Holds setting.afterWait := by
  unfold World.blockActive
  refine Ensures.bind ?_ fun _ => kthreadsSchedule_spec nested
  exact Ensures.modify.mono (fun _ waiter => waiter.enqueue) fun _ _ post => post

theorem releaseOne_spec (nested : Nested call) (isWait : queue.state = .wait) :
    Ensures call (Holds setting) (World.releaseOne queue) fun _ => Holds setting := by
  unfold World.releaseOne
  refine Ensures.bind ?_ fun _ => reschedule_spec nested
  refine Ensures.modify.mono ?_ fun _ _ post => post
  rintro alarms ⟨members, all, kept, running⟩
  obtain ⟨members', freed⟩ := kept.threads.kthreadqRelease isWait
  exact ⟨members', all, kept.released running freed, freed.running kept.threads running⟩

theorem releaseAll_spec (nested : Nested call) (isWait : queue.state = .wait) :
    Ensures call (Holds setting) (World.releaseAll queue) fun _ => Holds setting := by
  unfold World.releaseAll
  refine Ensures.bind ?_ fun _ => reschedule_spec nested
  refine Ensures.modify.mono ?_ fun _ _ post => post
  rintro alarms ⟨members, all, kept, running⟩
  obtain ⟨members', freed, -⟩ := kept.threads.kthreadqReleaseAll isWait
  exact ⟨members', all, kept.released running freed, freed.running kept.threads running⟩

/-- A thread leaves the queue of a condition and enters that of a monitor. -/
theorem Sound.moveWaiting {sched : Sched} {alive : Set Ptr} {queue monitor : Ptr} {rest : List Ptr}
    (sound : Sound sched alive members) (place : members (.monitorQueue queue) = thread :: rest) :
    (sched.kthreadqRemove (.monitorQueue queue) 0).1 = thread ∧
      ∃ members', Sound ((sched.kthreadqRemove (.monitorQueue queue) 0).2.kthreadEnqueue thread
          (.monitor monitor)) alive members' ∧
        SameWaiting (fun other => other = .monitorQueue queue ∨ other = .monitor monitor) members
          members' := by
  have isWait : (QueueId.monitorQueue queue).state = .wait := rfl
  have mem : thread ∈ alive := sound.mem_alive _ thread (by rw [place]; exact List.mem_cons_self)
  have first : sched.kthreadqRemove (.monitorQueue queue) 0 =
      sched.kthreadqRemove (.monitorQueue queue) thread := by
    unfold Sched.kthreadqRemove
    rw [sound.linked.listRemove_first place]
  have place' : members (.monitorQueue queue) = [] ++ thread :: rest := place
  obtain ⟨removed, taken⟩ := sound.kthreadqRemove place' isWait
  have isWaitToo : (QueueId.monitor monitor).state = .wait := rfl
  have entered := taken.kthreadEnqueue (by simp) (sound.pointer thread mem) (sound.prio thread mem)
    isWaitToo
  rw [Set.insert_sdiff_singleton, Set.insert_eq_of_mem mem] at entered
  rw [first]
  refine ⟨removed, _, entered, ?_⟩
  intro other _ untouched
  obtain ⟨notQueue, notMonitor⟩ := not_or.mp untouched
  rw [Function.update_of_ne notMonitor, Function.update_of_ne notQueue]

theorem Kept.moveWaiting {queue monitor : Ptr} {rest : List Ptr}
    (kept : Kept setting alarms members all)
    (running : Running alarms.world.kernel.sched alarms.world.alive)
    (place : members (.monitorQueue queue) = thread :: rest)
    (movedIs : world' = alarms.world.onSched fun sched =>
      (sched.kthreadqRemove (.monitorQueue queue) 0).2.kthreadEnqueue thread (.monitor monitor)) :
    Holds setting { alarms with world := world' } := by
  obtain ⟨-, members', sound, waiting⟩ := @Sound.moveWaiting members thread _ _ queue monitor rest
    kept.threads.sound place
  have mem : thread ∈ alarms.world.alive := kept.threads.sound.mem_alive _ thread
    (by rw [place]; exact List.mem_cons_self)
  have nonzero : thread ≠ 0 := kept.threads.sound.ne_zero mem
  have stored : world'.thread = Function.update alarms.world.thread thread
      { alarms.world.thread thread with state := .wait, queue := some (.monitor monitor) } := by
    rw [movedIs]
    exact Sched.kthreadEnqueue_threads _ _ nonzero
  have data : SameData alarms.world.kernel.sched world'.kernel.sched := sameData_update stored rfl
  have same : SameWorld alarms.world world' := by
    rw [movedIs] at data ⊢
    exact SameWorld.sched data
  have activeThread : world'.activeThread = alarms.world.activeThread := by
    rw [movedIs]
    exact Sched.kthreadEnqueue_activeThread _ _ nonzero
  have join : ∀ other, members' (.join other) = members (.join other) := fun other =>
    waiting (.join other) rfl (by simp)
  have inQueue : thread ∈ members (.monitorQueue queue) := by
    rw [place]
    exact List.mem_cons_self
  have isWaiting : (alarms.world.thread thread).state = .wait :=
    (kept.threads.sound.placed (.monitorQueue queue) thread inQueue).inState
  have others : ∀ other, other ≠ thread → world'.thread other = alarms.world.thread other := by
    intro other different
    rw [stored, Function.update_of_ne different]
  have state : ∀ other, (world'.thread other).state = (alarms.world.thread other).state := by
    intro other
    by_cases isThread : other = thread
    · rw [isThread, stored, Function.update_self, isWaiting]
    · rw [others other isThread]
  have ledger : Ledger world'.kernel setting.idle alarms.world.alive members' all := by
    refine kept.threads.ledger.congr same.tables (fun other inside => ?_) (fun other outside => ?_)
      fun owner other inQueue => ?_
    · have refCnt : (world'.thread other).refCnt = (alarms.world.thread other).refCnt :=
        congrArg ThreadData.refCnt (data other)
      rw [join]
      exact lt_of_lt_of_eq (kept.threads.ledger.counted other inside) refCnt.symm
    · rw [join]
      exact kept.threads.ledger.unlisted other outside
    · rw [waiting (.thrq (.thread owner)) rfl (by simp)] at inQueue
      exact kept.threads.ledger.own owner other inQueue
  have threads : Threads setting.idle setting.waits world' members' all := by
    refine ⟨?_, ?_, same.life ▸ kept.threads.listed, ?_, ?_⟩
    · rw [same.alive, movedIs]
      exact sound
    · rw [same.alive]
      exact ledger
    · rw [same.alive]
      intro other inside waits
      exact kept.threads.waiting other inside ((state other).symm.trans waits)
    · rw [same.alive]
      intro other outside passive
      rw [join]
      exact kept.threads.finished other outside ((state other).symm.trans passive)
  have kept' : Kept setting { alarms with world := world' } members' all := by
    apply kept.regroup threads same.alive.subset _ same.rrAlarm same.rrParams
      (movedIs ▸ rfl) (fun id => by rw [waiting (.alarm id) rfl (by simp)]) activeThread
      fun isActive => (state _).symm.trans isActive
    · intro other
      by_cases isThread : other = thread
      · rw [isThread, stored, Function.update_self]
      · rw [others other isThread]
    · exact fun id mem notRr active => same.alive ▸ kept.users.owners id mem notRr active
  have active : world'.kernel.sched.activeThread = alarms.world.activeThread := activeThread
  refine ⟨members', all, kept', ?_, ?_⟩
  · rw [same.alive, active]
    exact running.mem_alive
  · rw [active]
    exact (state _).trans running.active

/-- `k_monitor_release` of a thread whose monitor is locked. -/
theorem moveWaiting_spec (queue monitor : Ptr) :
    Ensures call (Holds setting) (World.moveWaiting queue monitor) fun _ => Holds setting := by
  refine Ensures.modify.mono ?_ fun _ _ post => post
  rintro alarms ⟨members, all, kept, running⟩
  cases place : members (.monitorQueue queue) with
  | nil =>
      have none : (alarms.world.kernel.sched.kthreadqRemove (.monitorQueue queue) 0).1 = 0 := by
        unfold Sched.kthreadqRemove
        rw [kept.threads.sound.linked.listRemove_empty place]
      have stays : (alarms.world.onSched fun sched =>
          if (sched.kthreadqRemove (.monitorQueue queue) 0).1 = 0 then sched
          else (sched.kthreadqRemove (.monitorQueue queue) 0).2.kthreadEnqueue
            (sched.kthreadqRemove (.monitorQueue queue) 0).1 (.monitor monitor)) =
          alarms.world := by
        unfold World.onSched World.onKernel
        dsimp only
        rw [if_pos none]
      dsimp only
      rw [stays]
      exact ⟨members, all, kept, running⟩
  | cons thread rest =>
      obtain ⟨removed, -⟩ := @Sound.moveWaiting members thread _ _ queue monitor rest
        kept.threads.sound place
      have mem : thread ∈ alarms.world.alive := kept.threads.sound.mem_alive _ thread
        (by rw [place]; exact List.mem_cons_self)
      have movedIs : (alarms.world.onSched fun sched =>
          if (sched.kthreadqRemove (.monitorQueue queue) 0).1 = 0 then sched
          else (sched.kthreadqRemove (.monitorQueue queue) 0).2.kthreadEnqueue
            (sched.kthreadqRemove (.monitorQueue queue) 0).1 (.monitor monitor)) =
          alarms.world.onSched fun sched =>
            (sched.kthreadqRemove (.monitorQueue queue) 0).2.kthreadEnqueue thread
              (.monitor monitor) := by
        unfold World.onSched World.onKernel
        dsimp only
        rw [removed, if_neg (kept.threads.sound.ne_zero mem)]
      exact kept.moveWaiting running place movedIs

theorem Kept.countJoin (kept : Kept setting alarms members all) (kthread : Ptr) :
    Kept setting (alarms.onWorld (World.countJoin kthread)) members all := by
  have more : (alarms.world.thread kthread).refCnt ≤ (alarms.world.thread kthread).refCnt + 1 := by
    omega
  refine kept.kernel (kept.threads.setThread rfl rfl rfl rfl rfl more) rfl (fun other => ?_)
    fun other => ?_
  · exact Kernel.setThread_field Thread.state rfl
  · exact Kernel.setThread_field Thread.activated rfl

/-- A thread that is waited for is counted before the caller waits. -/
theorem Holds.countJoin (holds : Holds setting alarms)
    (isCaller : alarms.world.activeThread = setting.caller)
    (exists' : alarms.world.life kthread ≠ .free)
    (unfinished : (alarms.world.thread kthread).state ≠ .passive) :
    Waiter setting (.join kthread) (alarms.onWorld (World.countJoin kthread)) := by
  obtain ⟨members, all, kept, running⟩ := holds
  have mem : kthread ∈ all := (kept.threads.listed kthread).mpr exists'
  have counted := kept.threads.ledger.counted kthread mem
  have stored : (World.countJoin kthread alarms.world).thread kthread =
      { alarms.world.thread kthread with refCnt := (alarms.world.thread kthread).refCnt + 1 } :=
    Kernel.setThread_same
  have state : ∀ other, ((World.countJoin kthread alarms.world).thread other).state =
      (alarms.world.thread other).state := fun other => Kernel.setThread_field Thread.state rfl
  refine ⟨members, all, kept.countJoin kthread, ⟨running.mem_alive, ?_⟩, isCaller, rfl, ?_, ?_, ?_⟩
  · exact (state _).trans running.active
  · rintro thread isJoin
    obtain rfl := QueueId.join.inj isJoin
    refine ⟨mem, ?_, ?_⟩
    · change _ < ((World.countJoin kthread alarms.world).thread kthread).refCnt
      rw [stored]
      change _ < (alarms.world.thread kthread).refCnt + 1
      have below : ((members (.join kthread)).length : Int) <
        (alarms.world.thread kthread).refCnt := counted
      omega
    · exact fun passive => unfinished ((state kthread).symm.trans passive)
  · intro thread isOwn
    cases isOwn
  · intro id isAlarm
    cases isAlarm

theorem Threads.passive_dead {idle : Ptr} {waits : Set Ptr}
    (threads : Threads idle waits world members all)
    (passive : (world.thread kthread).state = .passive) : kthread ∉ world.alive := by
  intro mem
  rcases threads.sound.located kthread mem with ⟨active, -⟩ | ⟨queue, inQueue⟩
  · exact absurd (active.symm.trans passive) (by decide)
  · have inState := (threads.sound.placed queue kthread inQueue).inState
    have isPassive : queue.state = .passive := inState.symm.trans passive
    cases queue <;> cases isPassive

/-- One reference to the thread less. -/
def Kernel.lessReference (kernel : Kernel) (kthread : Ptr) : Kernel :=
  kernel.setThread kthread fun descriptor => { descriptor with refCnt := descriptor.refCnt - 1 }

section LessReference

variable {kernel : Kernel} {other : Ptr}

theorem Kernel.lessReference_other (different : other ≠ kthread) :
    (kernel.lessReference kthread).thread other = kernel.thread other :=
  Kernel.setThread_other different

theorem Kernel.lessReference_same : (kernel.lessReference kthread).thread kthread =
    { kernel.thread kthread with refCnt := (kernel.thread kthread).refCnt - 1 } :=
  Kernel.setThread_same

@[simp] theorem Kernel.lessReference_state :
    ((kernel.lessReference kthread).thread other).state = (kernel.thread other).state :=
  Kernel.setThread_field Thread.state rfl

@[simp] theorem Kernel.lessReference_activated :
    ((kernel.lessReference kthread).thread other).activated = (kernel.thread other).activated :=
  Kernel.setThread_field Thread.activated rfl

@[simp] theorem Kernel.lessReference_proc :
    ((kernel.lessReference kthread).thread other).proc = (kernel.thread other).proc :=
  Kernel.setThread_field (fun descriptor => descriptor.proc) rfl

@[simp] theorem Kernel.lessReference_id :
    ((kernel.lessReference kthread).thread other).id = (kernel.thread other).id :=
  Kernel.setThread_field (fun descriptor => descriptor.id) rfl

end LessReference

section Collect

variable {kernel : Kernel} {idle other : Ptr} {alive waits : Set Ptr}

theorem Kernel.withoutReference_other (different : other ≠ kthread) :
    ((kernel.lessReference kthread).withoutDescriptor kthread).thread other =
      kernel.thread other := by
  rw [Kernel.withoutDescriptor_thread, Kernel.setThread_other different,
    Kernel.lessReference_other different]

theorem Kernel.withoutReference_field {α : Type} (field : Thread → α)
    (kept : field ((kernel.lessReference kthread).thread other) = field (kernel.thread other))
    (freed : ∀ descriptor : Thread, field { descriptor with id := 0 } = field descriptor) :
    field (((kernel.lessReference kthread).withoutDescriptor kthread).thread other) =
      field (kernel.thread other) := by
  rw [← kept, Kernel.withoutDescriptor_thread]
  exact Kernel.setThread_field field (freed _)

/-- The descriptor of an ended thread is freed by the last one that is counted in it. -/
theorem Ledger.collectLast (ledger : Ledger kernel idle alive members all)
    (dead : kthread ∉ alive) (empty : members (.join kthread) = []) (mem : kthread ∈ all) :
    (kernel.lessReference kthread).kthreadRemoveDescriptor kthread =
        .ok ((kernel.lessReference kthread).withoutDescriptor kthread) ∧
      Ledger ((kernel.lessReference kthread).withoutDescriptor kthread) idle alive members
        (all.erase kthread) := by
  have notIdle : kthread ≠ idle := fun same => dead (same ▸ ledger.idle_mem)
  have removes : (kernel.lessReference kthread).kthreadRemoveDescriptor kthread =
      .ok ((kernel.lessReference kthread).withoutDescriptor kthread) :=
    ledger.toRoster.kthreadRemoveDescriptor mem rfl Kernel.lessReference_id
  have linked : (kernel.lessReference kthread).allThreads.Linked fun _ => all := ledger.listed
  have ids : ((kernel.lessReference kthread).withoutDescriptor kthread).idmask =
      Function.update kernel.idmask (kernel.thread kthread).id false := by
    change Function.update kernel.idmask ((kernel.lessReference kthread).thread kthread).id
      false = _
    rw [Kernel.lessReference_id]
  have roster : Roster ((kernel.lessReference kthread).withoutDescriptor kthread) idle
      (alive \ {kthread}) members (all.erase kthread) := by
    apply ledger.toRoster.freed mem notIdle empty (linked.remove_single 0 mem).2 ids rfl
    · intro other different
      rw [Kernel.withoutReference_other different]
    · intro other different
      rw [Kernel.withoutReference_other different]
  rw [Set.sdiff_singleton_eq_self dead] at roster
  obtain ⟨procs, accounted⟩ := ledger.accounted
  have processes : Accounted ((kernel.lessReference kthread).withoutDescriptor kthread)
      (((kernel.lessReference kthread).withoutDescriptor kthread).thread idle).proc alive
      procs := by
    rw [Kernel.withoutReference_other notIdle.symm]
    refine accounted.congr rfl (fun mate inside => ?_) fun _ _ => rfl
    have different : mate ≠ kthread := fun same => dead (same ▸ inside)
    rw [Kernel.withoutReference_other different]
  exact ⟨removes, roster, procs, processes⟩

/-- Others are still counted in the descriptor of an ended thread. -/
theorem Ledger.collectEarly (ledger : Ledger kernel idle alive members all)
    (empty : members (.join kthread) = []) (mem : kthread ∈ all)
    (used : (kernel.thread kthread).refCnt - 1 ≠ 0) :
    Ledger (kernel.lessReference kthread) idle alive members all := by
  have counted := ledger.counted kthread mem
  have tables : SameTables kernel (kernel.lessReference kthread) :=
    ⟨rfl, rfl, rfl, rfl, rfl, fun other => Kernel.lessReference_id,
      fun other => Kernel.lessReference_proc⟩
  apply ledger.congr tables _ ledger.unlisted ledger.own
  intro other inside
  by_cases same : other = kthread
  · rw [same, empty, Kernel.lessReference_same]
    rw [empty] at counted
    have positive : (0 : Int) < (kernel.thread kthread).refCnt := counted
    change (0 : Int) < (kernel.thread kthread).refCnt - 1
    omega
  · rw [Kernel.lessReference_other same]
    exact ledger.counted other inside

theorem Sound.lessReference (sound : Sound kernel.sched alive members) (dead : kthread ∉ alive) :
    Sound (kernel.lessReference kthread).sched alive members := by
  have sched : (kernel.lessReference kthread).sched = kernel.sched.setThread kthread
      fun descriptor => { descriptor with refCnt := descriptor.refCnt - 1 } := rfl
  rw [sched]
  exact sound.setThread_dead dead

theorem Sound.withoutReference (sound : Sound kernel.sched alive members)
    (dead : kthread ∉ alive) :
    Sound ((kernel.lessReference kthread).withoutDescriptor kthread).sched alive members := by
  rw [Kernel.withoutDescriptor_sched]
  exact (sound.lessReference dead).setThread_dead dead

end Collect

/-- The last one that is counted in the descriptor of an ended thread collects its status, and
the descriptor is freed. -/
theorem Threads.collectLast {idle : Ptr} {waits : Set Ptr}
    (threads : Threads idle waits world members all)
    (passive : (world.thread kthread).state = .passive) (mem : kthread ∈ all) :
    (world.kernel.lessReference kthread).kthreadRemoveDescriptor kthread =
        .ok ((world.kernel.lessReference kthread).withoutDescriptor kthread) ∧
      Threads idle waits { world with
          kernel := (world.kernel.lessReference kthread).withoutDescriptor kthread
          life := Function.update world.life kthread .free } members (all.erase kthread) ∧
      ({ world with
          kernel := (world.kernel.lessReference kthread).withoutDescriptor kthread
          life := Function.update world.life kthread .free } : World).alive = world.alive ∧
      ∀ other, (((world.kernel.lessReference kthread).withoutDescriptor kthread).thread
            other).state = (world.thread other).state ∧
        (((world.kernel.lessReference kthread).withoutDescriptor kthread).thread
            other).activated = (world.thread other).activated := by
  have dead := threads.passive_dead passive
  have empty := threads.finished kthread dead passive
  obtain ⟨removes, ledger⟩ := threads.ledger.collectLast dead empty mem
  have stays : ∀ other, (((world.kernel.lessReference kthread).withoutDescriptor kthread).thread
        other).state = (world.thread other).state ∧
      (((world.kernel.lessReference kthread).withoutDescriptor kthread).thread
        other).activated = (world.thread other).activated := fun other =>
    ⟨Kernel.withoutReference_field Thread.state Kernel.lessReference_state fun _ => rfl,
      Kernel.withoutReference_field Thread.activated Kernel.lessReference_activated fun _ => rfl⟩
  have alive : ({ world with
      kernel := (world.kernel.lessReference kthread).withoutDescriptor kthread
      life := Function.update world.life kthread .free } : World).alive = world.alive := by
    ext other
    unfold World.alive at dead ⊢
    by_cases same : other = kthread
    · subst same
      simpa using dead
    · simp [same]
  have nodup : all.Nodup := (List.nodup_cons.mp (threads.ledger.listed.nodup ())).2
  refine ⟨removes, ⟨?_, ?_, fun other => ?_, ?_, ?_⟩, alive, stays⟩
  · rw [alive]
    exact threads.sound.withoutReference dead
  · rw [alive]
    exact ledger
  · dsimp only
    rw [nodup.mem_erase_iff, threads.listed]
    by_cases same : other = kthread
    · subst same
      simp
    · simp [same]
  · rw [alive]
    intro other inside waits
    exact threads.waiting other inside ((stays other).1.symm.trans waits)
  · rw [alive]
    intro other outside isPassive
    exact threads.finished other outside ((stays other).1.symm.trans isPassive)

/-- Others are still counted in the descriptor of an ended thread. -/
theorem Threads.collectEarly {idle : Ptr} {waits : Set Ptr}
    (threads : Threads idle waits world members all)
    (passive : (world.thread kthread).state = .passive) (mem : kthread ∈ all)
    (used : (world.thread kthread).refCnt - 1 ≠ 0) :
    Threads idle waits { world with kernel := world.kernel.lessReference kthread } members all := by
  have dead := threads.passive_dead passive
  have empty := threads.finished kthread dead passive
  refine ⟨threads.sound.lessReference dead, threads.ledger.collectEarly empty mem used,
    threads.listed, fun other inside waits => ?_, fun other outside isPassive => ?_⟩
  · exact threads.waiting other inside (Kernel.lessReference_state.symm.trans waits)
  · exact threads.finished other outside (Kernel.lessReference_state.symm.trans isPassive)

/-- The status of a thread is collected, and its descriptor is freed after the last one that
is counted in it. -/
theorem Threads.collectStatus {idle : Ptr} {waits : Set Ptr}
    (threads : Threads idle waits world members all)
    (passive : (world.thread kthread).state = .passive) (mem : kthread ∈ all)
    (collected : world.collectStatus kthread = .ok world') :
    ∃ all', Threads idle waits world' members all' ∧ world'.alive = world.alive ∧
      ∃ kernel', world' = { world with kernel := kernel', life := world'.life } ∧
        kernel'.activeThread = world.activeThread ∧
        ∀ other, (kernel'.thread other).state = (world.thread other).state ∧
          (kernel'.thread other).activated = (world.thread other).activated := by
  unfold World.collectStatus at collected
  change (if ((world.kernel.lessReference kthread).thread kthread).refCnt = 0 then
      ((world.kernel.lessReference kthread).kthreadRemoveDescriptor kthread).map _
    else _) = _ at collected
  split at collected
  · obtain ⟨removes, threads', alive, stays⟩ := threads.collectLast passive mem
    rw [removes] at collected
    obtain rfl := Except.ok.inj collected
    exact ⟨all.erase kthread, threads', alive, _, rfl, rfl, stays⟩
  · rename_i used
    obtain rfl := Except.ok.inj collected
    rw [Kernel.lessReference_same] at used
    exact ⟨all, threads.collectEarly passive mem used, rfl, world.kernel.lessReference kthread, rfl,
      rfl, fun other => ⟨Kernel.lessReference_state, Kernel.lessReference_activated⟩⟩

theorem Holds.mayWait (holds : Holds setting alarms) : Holds setting.afterWait alarms := by
  obtain ⟨members, all, kept, running⟩ := holds
  have threads : Threads setting.idle (insert setting.caller setting.waits) alarms.world members
      all := { kept.threads with
    waiting := fun thread mem waits => .inr (kept.threads.waiting thread mem waits) }
  exact ⟨members, all, ⟨threads, { kept.table with }, { kept.users with }, { kept.slices with },
    kept.events⟩, running⟩

/-- `SET_ERRNO` before the active thread waits. -/
theorem Waiter.setErrno (waiter : Waiter setting queue alarms) (errnum : Int) :
    Waiter setting queue (alarms.onWorld (World.onKernel (Kernel.setErrno errnum))) := by
  obtain ⟨members, all, kept, running, isCaller, may⟩ := waiter
  have state : ∀ thread, ((alarms.world.kernel.setErrno errnum).thread thread).state =
      (alarms.world.thread thread).state := fun thread => Kernel.setThread_field Thread.state rfl
  have refCnt : ∀ thread, ((alarms.world.kernel.setErrno errnum).thread thread).refCnt =
      (alarms.world.thread thread).refCnt :=
    fun thread => Kernel.setThread_field (fun descriptor => descriptor.refCnt) rfl
  refine ⟨members, all, kept.setErrno errnum, ⟨running.mem_alive, (state _).trans running.active⟩,
    isCaller, may.isWait, fun thread isJoin => ?_, may.own, may.alarm⟩
  obtain ⟨mem, counted, unfinished⟩ := may.join thread isJoin
  exact ⟨mem, counted.trans_eq (refCnt thread).symm,
    fun passive => unfinished ((state thread).symm.trans passive)⟩

theorem setErrno_waiter (errnum : Int) :
    Ensures call (Waiter setting queue) (World.setErrno errnum) fun _ => Waiter setting queue :=
  Ensures.modify.mono (fun _ waiter => waiter.setErrno errnum) fun _ _ post => post

/-- The handle is of a thread whose descriptor is not freed, if the identifier is right. -/
def World.Known (world : World) (handle : Handle) : Prop :=
  (world.thread handle.thread).id = handle.thrId → world.life handle.thread ≠ .free

/-- The status of a thread is collected while the active thread has the processor. -/
theorem Holds.collectStatus (holds : Holds setting alarms)
    (passive : (alarms.world.thread kthread).state = .passive)
    (exists' : alarms.world.life kthread ≠ .free)
    (collected : alarms.world.collectStatus kthread = .ok world') :
    Holds setting { alarms with world := world' } := by
  obtain ⟨members, all, kept, running⟩ := holds
  have mem : kthread ∈ all := (kept.threads.listed kthread).mpr exists'
  obtain ⟨all', threads, alive, kernel', worldIs, activeThread, flags⟩ :=
    kept.threads.collectStatus passive mem collected
  have descriptor : ∀ other, world'.thread other = kernel'.thread other := by
    intro other
    rw [worldIs]
    rfl
  have active : world'.activeThread = alarms.world.activeThread := by
    rw [worldIs]
    exact activeThread
  have state : ∀ other, (world'.thread other).state = (alarms.world.thread other).state := by
    intro other
    rw [descriptor]
    exact (flags other).1
  have kept' : Kept setting { alarms with world := world' } members all' := by
    apply kept.regroup threads alive.subset
    · exact fun id mem notRr isActive => alive ▸ kept.users.owners id mem notRr isActive
    all_goals try rw [worldIs]
    · exact fun _ => .refl _
    · exact activeThread
    · exact fun isActive => (flags _).1.symm.trans isActive
    · exact fun other => (flags other).2
  refine ⟨members, all', kept', ?_, ?_⟩
  · have isActive : world'.kernel.sched.activeThread = alarms.world.activeThread := active
    rw [alive, isActive]
    exact running.mem_alive
  · have isActive : world'.kernel.sched.activeThread = alarms.world.activeThread := active
    rw [isActive]
    exact (state _).trans running.active

/-- `sys__wait_for_thread`. -/
theorem sysWaitForThread_spec (nested : Nested call) (handle : Handle) (wait : Bool) :
    Ensures call
      (fun alarms => Holds setting alarms ∧ alarms.world.activeThread = setting.caller ∧
        alarms.world.Known handle)
      (World.sysWaitForThread handle wait) fun _ => Holds setting.afterWait := by
  unfold World.sysWaitForThread
  refine Ensures.bind Ensures.read fun world => ?_
  have noted : ∀ errnum, Ensures call
      (fun alarms => world = alarms.world ∧ Holds setting alarms ∧
        alarms.world.activeThread = setting.caller ∧ alarms.world.Known handle)
      (World.setErrno errnum) fun _ => Holds setting.afterWait := fun errnum =>
    (setErrno_spec errnum).mono (fun _ pre => pre.2.1) fun _ _ holds => holds.mayWait
  apply Ensures.ite
  · exact fun _ => noted _
  intro _
  apply Ensures.ite
  · exact fun _ => noted _
  intro sameId
  apply Ensures.ite
  · intro unfinished
    split
    · refine Ensures.bind ?_ fun _ => Ensures.bind (setErrno_waiter _) fun _ =>
        blockActive_spec nested _
      refine Ensures.modify.mono ?_ fun _ _ post => post
      rintro alarms ⟨rfl, holds, isCaller, known⟩
      exact holds.countJoin isCaller (known (not_not.mp sameId)) unfinished
    · exact noted _
  · intro finished
    have passive : (world.thread handle.thread).state = .passive := not_not.mp finished
    have success : Ensures call
        (fun alarms => world = alarms.world ∧ Holds setting alarms ∧
          alarms.world.activeThread = setting.caller ∧ alarms.world.Known handle)
        (World.setErrno SUCCESS)
        (fun _ alarms => Holds setting alarms ∧
          (alarms.world.thread handle.thread).state = .passive ∧
          alarms.world.life handle.thread ≠ .free) := by
      refine Ensures.modify.mono ?_ fun _ _ post => post
      rintro alarms ⟨rfl, holds, -, known⟩
      have state : ((alarms.world.kernel.setErrno SUCCESS).thread handle.thread).state =
          (alarms.world.thread handle.thread).state := Kernel.setThread_field Thread.state rfl
      exact ⟨holds.setErrno SUCCESS, state.trans passive, known (not_not.mp sameId)⟩
    refine Ensures.bind success fun _ => ?_
    refine Ensures.attempt.mono ?_ fun _ _ post => post
    rintro alarms ⟨holds, isPassive, exists'⟩ world collected
    exact (holds.collectStatus isPassive exists' collected).mayWait

end Wait

end Oseer
