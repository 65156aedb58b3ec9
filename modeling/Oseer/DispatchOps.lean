import Oseer.DispatchOrder

/-!
# What operations do with the plain queues

Each operation of a run of the scheduler prepares the plain queues: threads arrive, leave, sleep and
are woken.  Most operations then choose the thread to run.
-/

namespace Oseer

open LinkedRing PriorityQueues Results

namespace SchedOp

/-- The thread that `kthread_set_prio` is for. -/
def target (kthread : Ptr) (plain : Dispatcher Ptr QueueId) : Ptr :=
  if kthread = 0 then plain.running.getD 0 else kthread

/-- What an operation does with the plain queues before the thread to run is chosen. -/
def prepare (op : SchedOp) (plain : Dispatcher Ptr QueueId) : Dispatcher Ptr QueueId :=
  match op with
  | .create _ kthread prio _ =>
      (plain.assign kthread (Kernel.clampPrio prio)).arrive .ready kthread
  | .block queue => plain.sleep queue
  | .release queue => plain.wake .ready queue
  | .releaseAll queue => plain.wakeAll .ready queue
  | .setPrio kthread prio =>
      let kthread := target kthread plain
      if plain.running = some kthread then (plain.assign kthread prio).preempt .ready
      else if kthread ∈ plain.queues (.ready (plain.prio kthread)) then
        ((plain.remove kthread).assign kthread prio).arrive .ready kthread
      else plain.assign kthread prio
  | .exit _ =>
      match plain.running with
      | none => plain
      | some kthread => plain.quit.wakeAll .ready (.join kthread)
  | .cancel kthread _ => (plain.remove kthread).wakeAll .ready (.join kthread)

/-- Is the thread to run chosen? -/
def schedules (op : SchedOp) (plain : Dispatcher Ptr QueueId) : Bool :=
  match op with
  | .create .. => false
  | .setPrio kthread _ =>
      let kthread := target kthread plain
      plain.running = some kthread || kthread ∈ plain.queues (.ready (plain.prio kthread))
  | _ => true

/-- What an operation does with the plain queues. -/
def plainly (op : SchedOp) (plain : Dispatcher Ptr QueueId) : Dispatcher Ptr QueueId :=
  if op.schedules plain then (op.prepare plain).dispatch .ready PRIO_LEVELS else op.prepare plain

end SchedOp

/-- The scheduler is about to choose the thread to run. -/
structure Prepared (sched : Sched) (alive : Set Ptr) (plain : Dispatcher Ptr QueueId) : Prop where
  mirrors : Mirrors sched alive plain
  current : (sched.threads sched.activeThread).state = .active → sched.activeThread ∈ alive
  runnable : Sound.Runnable sched alive plain.queues

variable {kernel kernel' : Kernel} {idle thread : Ptr} {alive : Set Ptr}
  {members : Members} {all : List Ptr} {queue : QueueId} {status : Int}
  {plain : Dispatcher Ptr QueueId} {sched : Sched} {op : SchedOp}

theorem Settled.prepared (settled : Settled kernel idle alive members all)
    (mirrors : Mirrors kernel.sched alive plain) : Prepared kernel.sched alive plain where
  mirrors := mirrors
  current := settled.current
  runnable := mirrors.sound.runnable settled.ledger.idle_mem settled.idle_runs

theorem Coherent.runs (coherent : Coherent kernel idle alive members all)
    (mirrors : Mirrors kernel.sched alive plain) : plain.running = some kernel.activeThread := by
  rw [mirrors.running, if_pos coherent.running.active]
  rfl

/-- The kernel chooses the thread to run at the end. -/
theorem kernel_schedules (schedules : kernel.kthreadsSchedule = .ok kernel') :
    kernel.sched.kthreadsSchedule = .ok kernel'.sched := by
  obtain ⟨sched, result, rfl⟩ := map_ok schedules
  exact result

section Operations

theorem block_prepared (coherent : Coherent kernel idle alive plain.queues all)
    (mirrors : Mirrors kernel.sched alive plain) (fits : (SchedOp.block queue).Fits idle kernel alive)
    (result : (SchedOp.block queue).run kernel = .ok kernel') :
    ∃ middle, Prepared middle alive (plain.sleep queue) ∧
      middle.kthreadsSchedule = .ok kernel'.sched := by
  obtain ⟨waits, notIdle, -, -⟩ := fits
  have counts := SchedOp.countWaiter_coherent coherent queue
  have stored : ∀ kthread, Mirrors (kernel.sched.setThread kthread fun descriptor =>
      { descriptor with refCnt := descriptor.refCnt + 1 }) alive plain := by
    intro kthread
    apply mirrors.setThread <;> rfl
  have counted : Mirrors (kernel.countWaiter queue).sched alive plain := by
    unfold Kernel.countWaiter
    split
    · exact stored _
    · exact mirrors
  have active : (kernel.countWaiter queue).activeThread = kernel.activeThread := by
    unfold Kernel.countWaiter
    split <;> rfl
  obtain ⟨asleep, threads⟩ := sleep_mirrors counted counts.running waits
  refine ⟨((kernel.countWaiter queue).kthreadEnqueue queue).sched, ⟨asleep, ?_, ?_⟩,
    kernel_schedules result⟩
  · exact fun _ => counts.running.mem_alive
  · apply asleep.sound.runnable counts.ledger.idle_mem
    rw [threads, Function.update_of_ne]
    · exact counts.idle_runs
    · rintro rfl
      exact notIdle active.symm

theorem release_prepared (coherent : Coherent kernel idle alive plain.queues all)
    (mirrors : Mirrors kernel.sched alive plain) (waits : queue.state = .wait)
    (result : (SchedOp.release queue).run kernel = .ok kernel') :
    ∃ middle, Prepared middle alive (plain.wake .ready queue) ∧
      middle.kthreadsSchedule = .ok kernel'.sched := by
  have woken := wake_mirrors mirrors waits
  refine ⟨_, ?_, kernel_schedules result⟩
  cases place : plain.queues queue with
  | nil =>
      rw [coherent.toSettled.kthreadqRelease_empty place]
      have same : kernel.sched.kthreadqRelease queue = (0, kernel.sched) :=
        coherent.sound.kthreadqRelease_empty place
      rw [same] at woken
      exact coherent.toSettled.prepared woken
  | cons first rest =>
      obtain ⟨-, settled, -⟩ := coherent.toSettled.kthreadqRelease place waits
      exact settled.prepared woken

theorem releaseAll_prepared (coherent : Coherent kernel idle alive plain.queues all)
    (mirrors : Mirrors kernel.sched alive plain) (waits : queue.state = .wait)
    (result : (SchedOp.releaseAll queue).run kernel = .ok kernel') :
    ∃ middle, Prepared middle alive (plain.wakeAll .ready queue) ∧
      middle.kthreadsSchedule = .ok kernel'.sched := by
  obtain ⟨members', -, settled, -⟩ := coherent.toSettled.kthreadqReleaseAll waits
  exact ⟨_, settled.prepared (releaseAll_mirrors mirrors waits), kernel_schedules result⟩

/-- A new thread is the last one of its level. -/
theorem create_mirrors {stack kthread proc : Ptr} {prio : Int}
    (coherent : Coherent kernel idle alive plain.queues all)
    (mirrors : Mirrors kernel.sched alive plain)
    (fits : (SchedOp.create stack kthread prio proc).Fits idle kernel alive)
    (result : (SchedOp.create stack kthread prio proc).run kernel = .ok kernel') :
    Mirrors kernel'.sched (insert kthread alive)
      ((plain.assign kthread (Kernel.clampPrio prio)).arrive .ready kthread) := by
  obtain ⟨below, unused, -⟩ := fits
  have runs := coherent.runs mirrors
  have fresh := unused all coherent.ledger.listed
  have roster := coherent.ledger.toRoster
  change kernel.kthreadCreate stack kthread prio true proc = .ok kernel' at result
  have someStack : stack ≠ 0 ∧ kthread ≠ 0 := by
    unfold Kernel.kthreadCreate at result
    split at result
    · cases result
    · rename_i notNull
      exact not_or.mp notNull
  obtain ⟨stackPointer, nonzero⟩ := someStack
  have pointer : 0 < kthread ∧ kthread < addressCount := ⟨Nat.pos_of_ne_zero nonzero, below⟩
  have dead : kthread ∉ alive := fun mem => fresh (roster.alive_listed kthread mem)
  obtain ⟨noJoin, noThrq⟩ := roster.empty_queues mirrors.sound fresh
  rw [roster.kthreadCreate_eq nonzero stackPointer] at result
  split at result
  · cases result
  · obtain rfl := Except.ok.inj result
    have numbered : Sound kernel.numbered.sched alive plain.queues := mirrors.sound
    have sound : Sound (kernel.numbered.created stack kthread prio proc).sched
        (insert kthread alive) (enqueued plain.queues (.ready (Kernel.clampPrio prio)) kthread) :=
      numbered.created dead noJoin noThrq pointer prio proc
    have spec : Created kernel (kernel.numbered.created stack kthread prio proc) kthread stack
        (Kernel.clampPrio prio) proc := Kernel.created_spec prio
    have queues : (Dispatcher.arrive .ready kthread
        (plain.assign kthread (Kernel.clampPrio prio))).queues =
        enqueued plain.queues (.ready (Kernel.clampPrio prio)) kthread := by
      unfold enqueued Dispatcher.arrive Dispatcher.append Dispatcher.assign
      dsimp only
      rw [Function.update_self]
    have old : ∀ other ∈ alive,
        (kernel.numbered.created stack kthread prio proc).thread other = kernel.thread other := by
      intro other mem
      apply spec.others
      rintro rfl
      exact dead mem
    refine ⟨queues ▸ sound, ?_, ?_⟩
    · rintro other (isThread | mem)
      · rw [isThread]
        exact (Function.update_self ..).trans spec.prio_eq.symm
      · have different : other ≠ kthread := fun same => dead (same ▸ mem)
        have prioIs : ((kernel.numbered.created stack kthread prio proc).thread other).prio =
            (kernel.thread other).prio := congrArg (fun descriptor => descriptor.prio) (old other mem)
        exact ((Function.update_of_ne different ..).trans (mirrors.prio other mem)).trans
          prioIs.symm
    · have active : (kernel.numbered.created stack kthread prio proc).sched.activeThread =
          kernel.sched.activeThread := spec.active
      have state : ((kernel.numbered.created stack kthread prio proc).sched.threads
          kernel.sched.activeThread).state = .active :=
        (congrArg Thread.state (old _ coherent.running.mem_alive)).trans coherent.running.active
      rw [active, if_pos state]
      exact runs

/-- The end of a thread that has left its queue or the processor. -/
theorem end_mirrors {released : Kernel} (ledger : Ledger kernel idle alive plain.queues all)
    (mirrors : Mirrors kernel.sched (alive \ {thread}) plain) (mem : thread ∈ alive)
    (ends : kernel.endAndRelease thread status = .ok released) :
    Mirrors released.sched (alive \ {thread}) (plain.wakeAll .ready (.join thread)) := by
  have roster := ledger.toRoster
  have memAll := roster.alive_listed thread mem
  obtain ⟨freed, result, core, sound, -⟩ :=
    @Ledger.releaseResources kernel idle thread alive plain.queues all status ledger mirrors.sound mem
  have ended : Mirrors freed.sched (alive \ {thread}) plain := by
    rw [core.sched, Kernel.endThread_sched]
    apply mirrors.setThread <;> rfl
  have descriptor : freed.thread thread = (kernel.endThread thread status).thread thread := by
    unfold Kernel.thread
    rw [core.sched]
  have refCnt : (freed.thread thread).refCnt = (kernel.thread thread).refCnt - 1 := by
    rw [descriptor, Kernel.endThread_thread]
  unfold Kernel.endAndRelease at ends
  rw [result] at ends
  change freed.releaseDescriptor thread = .ok released at ends
  unfold Kernel.releaseDescriptor at ends
  by_cases unused : (freed.thread thread).refCnt = 0
  · -- nobody waits for the end
    have counted := roster.counted thread memAll
    have empty : plain.queues (.join thread) = [] := List.length_eq_zero_iff.mp (by omega)
    have sameId : (freed.thread thread).id = (kernel.thread thread).id := by
      rw [descriptor, Kernel.endThread_thread]
    have removes : freed.kthreadRemoveDescriptor thread = .ok (freed.withoutDescriptor thread) :=
      roster.kthreadRemoveDescriptor memAll core.idmask sameId
    rw [if_pos unused, removes] at ends
    obtain rfl := Except.ok.inj ends
    have nobody : plain.wakeAll .ready (.join thread) = plain := by
      unfold Dispatcher.wakeAll
      rw [empty]
      rfl
    rw [nobody, Kernel.withoutDescriptor_sched]
    apply ended.setThread <;> rfl
  · rw [if_neg unused] at ends
    obtain rfl := Except.ok.inj ends
    exact releaseAll_mirrors ended rfl

theorem Departed.prepared {left released : Kernel}
    (departed : Departed kernel left idle thread alive plain.queues all)
    (coherent : Coherent kernel idle alive members all) (mem : thread ∈ alive)
    (notIdle : thread ≠ idle) (mirrors : Mirrors left.sched (alive \ {thread}) plain)
    (ends : left.endAndRelease thread status = .ok released) :
    Prepared released.sched (alive \ {thread}) (plain.wakeAll .ready (.join thread)) := by
  obtain ⟨after, members', all', isAfter, -, settled⟩ :=
    departed.endAndRelease coherent mem notIdle status
  obtain rfl := Except.ok.inj (ends.symm.trans isAfter)
  exact settled.prepared (end_mirrors departed.ledger mirrors mem ends)

/-- A second call of `kthreads_schedule` changes nothing. -/
theorem Sound.kthreadsSchedule_top (sound : Sound sched alive members)
    (running : Running sched alive) (top : Sound.TopPriority sched alive) :
    sched.kthreadsSchedule = .ok sched := by
  have nonzero := sound.ne_zero running.mem_alive
  have lower : ReadyMask.kthreadReadyListHighest sched.rdyMask ≤
      ((sched.threads sched.activeThread).prio : Int) := by
    rcases sound.mask.highest with ⟨isNone, -⟩ | ⟨level, below, isLevel, filled, -⟩
    · omega
    · obtain ⟨first, rest, place⟩ := List.exists_cons_of_ne_nil filled
      have mem : first ∈ members (.ready level) := by simp [place]
      have bound := top first (sound.mem_alive _ first mem) (sound.placed _ first mem).inState
      rw [sound.ready_level mem] at bound
      omega
  unfold Sched.kthreadsSchedule
  dsimp only
  rw [if_neg (not_not_intro (.inl ⟨nonzero, running.active⟩)), if_neg]
  rintro (isZero | notActive | higher)
  · exact nonzero isZero
  · exact notActive running.active
  · omega

theorem exit_prepared (coherent : Coherent kernel idle alive plain.queues all)
    (mirrors : Mirrors kernel.sched alive plain)
    (notIdle : kernel.activeThread ≠ idle) (result : (SchedOp.exit status).run kernel = .ok kernel') :
    ∃ middle, Prepared middle (alive \ {kernel.activeThread})
        (plain.quit.wakeAll .ready (.join kernel.activeThread)) ∧
      middle.kthreadsSchedule = .ok kernel'.sched := by
  have mem : kernel.activeThread ∈ alive := coherent.running.mem_alive
  have isActive : (kernel.thread kernel.activeThread).state = .active := coherent.running.active
  have departed : Departed kernel (kernel.setThread kernel.activeThread fun descriptor =>
      { descriptor with state := .passive }) idle kernel.activeThread alive plain.quit.queues all :=
    coherent.departed_active
  change kernel.sysThreadExit status = .ok kernel' at result
  unfold Kernel.sysThreadExit at result
  obtain ⟨cancelled, cancels, schedules⟩ := bind_ok result
  unfold Kernel.kthreadCancel at cancels
  rw [isActive] at cancels
  dsimp only at cancels
  rw [if_neg (not_not_intro rfl)] at cancels
  unfold Kernel.finishCancel at cancels
  obtain ⟨released, ends, rest⟩ := bind_ok cancels
  obtain ⟨scheduled, first, last⟩ := bind_ok rest
  obtain rfl := Except.ok.inj last
  have left : Mirrors (kernel.setThread kernel.activeThread fun descriptor =>
      { descriptor with state := .passive }).sched (alive \ {kernel.activeThread}) plain.quit := by
    refine ⟨departed.sound, fun other inside => ?_, ?_⟩
    · have kept := departed.others other inside.2
      exact (mirrors.prio other inside.1).trans
        (congrArg (fun descriptor : Thread => descriptor.prio) kept).symm
    · have passive := departed.passive rfl
      have state : ((kernel.setThread kernel.activeThread fun descriptor =>
          { descriptor with state := .passive }).sched.threads kernel.activeThread).state ≠
            .active := fun active => absurd (passive.symm.trans active) (by decide)
      exact (if_neg state).symm
  have prepared := departed.prepared coherent mem notIdle left ends
  refine ⟨released.sched, prepared, ?_⟩
  obtain ⟨after, members', isAfter, sound, running, top, -⟩ :=
    prepared.mirrors.sound.kthreadsSchedule prepared.current prepared.runnable
  have isScheduled := kernel_schedules first
  obtain rfl := Except.ok.inj (isAfter.symm.trans isScheduled)
  have again := kernel_schedules schedules
  rw [sound.kthreadsSchedule_top running top] at again
  rw [isScheduled, again]

theorem erase_members (sound : Sound sched alive members) {before after : List Ptr}
    (place : members queue = before ++ thread :: after) :
    Function.update members queue (before ++ after) =
      fun other => (members other).erase thread := by
  funext other
  by_cases same : other = queue
  · have nodup : (before ++ thread :: after).Nodup := place ▸ sound.linked.nodup_members
    have notBefore : thread ∉ before := fun inBefore =>
      (List.nodup_append.mp nodup).2.2 thread inBefore thread (by simp) rfl
    rw [same, Function.update_self, place, List.erase_append_right _ notBefore,
      List.erase_cons_head]
  · rw [Function.update_of_ne same, List.erase_of_not_mem]
    exact fun mem => same (sound.mem_unique mem (by rw [place]; simp))

/-- A thread leaves its queue. -/
theorem remove_mirrors {after : Sched} {before behind : List Ptr}
    (mirrors : Mirrors sched alive plain) (place : plain.queues queue = before ++ thread :: behind)
    (sound : Sound after (alive \ {thread})
      (Function.update plain.queues queue (before ++ behind)))
    (threads : after.threads = sched.threads) (active : after.activeThread = sched.activeThread) :
    Mirrors after (alive \ {thread}) (plain.remove thread) := by
  rw [erase_members mirrors.sound place] at sound
  refine ⟨sound, fun other inside => ?_, ?_⟩
  · rw [threads]
    exact mirrors.prio other inside.1
  · rw [active, threads]
    exact mirrors.running

theorem cancel_departs (coherent : Coherent kernel idle alive plain.queues all)
    (mirrors : Mirrors kernel.sched alive plain) (mem : thread ∈ alive)
    (inactive : thread ≠ kernel.activeThread) (status : Int) :
    ∃ left, Departed kernel left idle thread alive (plain.remove thread).queues all ∧
      Mirrors left.sched (alive \ {thread}) (plain.remove thread) ∧
      kernel.kthreadCancel thread status = left.finishCancel thread status := by
  obtain ⟨queue, before, after, place, names, state⟩ := coherent.inactive_queue mem inactive
  have leaves : kernel.leaveQueue thread =
      .ok { kernel with sched := (kernel.sched.kthreadqRemove queue thread).2 } := by
    unfold Kernel.leaveQueue
    rw [names]
  have fewer : ∀ other : QueueId, ((plain.remove thread).queues other).Sublist
      (plain.queues other) := fun other => List.erase_sublist
  -- the lists and the mask change, and no descriptor
  have departs : ∀ sched : Sched, Sound sched (alive \ {thread})
      (Function.update plain.queues queue (before ++ after)) →
      sched.threads = kernel.sched.threads → sched.activeThread = kernel.sched.activeThread →
      Departed kernel { kernel with sched := sched } idle thread alive
          (plain.remove thread).queues all ∧
        Mirrors sched (alive \ {thread}) (plain.remove thread) := by
    intro sched sound threads active
    have removed := remove_mirrors mirrors place sound threads active
    exact ⟨coherent.departed_queue removed.sound threads active (fun other _ => fewer other)
      inactive, removed⟩
  cases queueState : queue.state with
  | ready =>
      cases queue with
      | ready level =>
          have isLevel : (kernel.thread thread).prio = level :=
            coherent.sound.ready_level (by rw [place]; simp)
          obtain ⟨departed, removed⟩ := departs _ (coherent.sound.takeReady place).2
            (by unfold Sched.markIfEmpty; split <;> rfl)
            (by unfold Sched.markIfEmpty; split <;> rfl)
          refine ⟨_, departed, removed, ?_⟩
          unfold Kernel.kthreadCancel
          rw [state, queueState, leaves]
          have kept : (Kernel.thread { kernel with
              sched := (kernel.sched.kthreadqRemove (.ready level) thread).2 } thread).prio =
                level := isLevel
          change Kernel.finishCancel thread status { kernel with
            sched := (kernel.sched.kthreadqRemove (.ready level) thread).2.markIfEmpty _ } = _
          rw [kept]
      | _ => cases queueState
  | wait =>
      obtain ⟨departed, removed⟩ := departs _ (coherent.sound.kthreadqRemove place queueState).2
        rfl rfl
      refine ⟨_, departed, removed, ?_⟩
      unfold Kernel.kthreadCancel
      rw [state, queueState, leaves]
      rfl
  | active => cases queue <;> cases queueState
  | passive => cases queue <;> cases queueState

theorem cancel_prepared (coherent : Coherent kernel idle alive plain.queues all)
    (mirrors : Mirrors kernel.sched alive plain)
    (fits : (SchedOp.cancel thread status).Fits idle kernel alive)
    (result : (SchedOp.cancel thread status).run kernel = .ok kernel') :
    ∃ middle, Prepared middle (alive \ {thread})
        ((plain.remove thread).wakeAll .ready (.join thread)) ∧
      middle.kthreadsSchedule = .ok kernel'.sched := by
  obtain ⟨mem, notIdle, inactive⟩ := fits
  obtain ⟨left, departed, removed, cancels⟩ := cancel_departs coherent mirrors mem inactive status
  obtain ⟨answer, ran, rfl⟩ := map_ok result
  rw [cancels] at ran
  unfold Kernel.finishCancel at ran
  obtain ⟨released, ends, rest⟩ := bind_ok ran
  obtain ⟨scheduled, first, last⟩ := bind_ok rest
  obtain rfl := Except.ok.inj last
  exact ⟨released.sched, departed.prepared coherent mem notIdle removed ends,
    kernel_schedules first⟩

/-- A priority is only stored. -/
theorem store_mirrors {prio : Nat} (mirrors : Mirrors sched alive plain)
    (sound : Sound (sched.storePrio thread prio) alive plain.queues) :
    Mirrors (sched.storePrio thread prio) alive (plain.assign thread prio) := by
  refine ⟨sound, fun other mem => ?_, ?_⟩
  · unfold Sched.storePrio Dispatcher.assign
    by_cases same : other = thread
    · rw [same, Sched.setThread_same]
      exact Function.update_self ..
    · rw [Sched.setThread_other same]
      exact (Function.update_of_ne same ..).trans (mirrors.prio other mem)
  · have state : ((sched.storePrio thread prio).threads sched.activeThread).state =
        (sched.threads sched.activeThread).state := by
      unfold Sched.storePrio
      by_cases same : sched.activeThread = thread
      · rw [same, Sched.setThread_same]
      · rw [Sched.setThread_other same]
    change plain.running = if ((sched.storePrio thread prio).threads sched.activeThread).state =
      .active then some sched.activeThread else none
    rw [state]
    exact mirrors.running

/-- A thread that comes to the end of a level can run. -/
theorem arrive_prepared {middle : Sched} (mirrors : Mirrors middle alive (plain.arrive .ready thread))
    (active : middle.activeThread ∈ alive) :
    Prepared middle alive (plain.arrive .ready thread) := by
  refine ⟨mirrors, fun _ => active, .inr ⟨plain.prio thread, ?_⟩⟩
  change Function.update plain.queues _ _ (.ready (plain.prio thread)) ≠ []
  rw [Function.update_self]
  simp

/-- `kthread_set_prio` of the active thread puts it at the end of its new level. -/
theorem setPrio_active {old prio : Nat} {after : Sched} (mirrors : Mirrors sched alive plain)
    (running : Running sched alive) (bound : prio < PRIO_LEVELS)
    (result : sched.kthreadSetPrio sched.activeThread prio = .ok (old, after)) :
    ∃ middle, Prepared middle alive ((plain.assign sched.activeThread prio).preempt .ready) ∧
      middle.kthreadsSchedule = .ok after := by
  have mem := running.mem_alive
  have free : ∀ queue, sched.activeThread ∉ plain.queues queue :=
    fun queue => mirrors.sound.active_free running.active
  have runs : plain.running = some sched.activeThread := by
    rw [mirrors.running, if_pos running.active]
  have stopped : (plain.assign sched.activeThread prio).preempt .ready =
      (plain.quit.assign sched.activeThread prio).arrive .ready sched.activeThread := by
    have same : (plain.assign sched.activeThread prio).running = some sched.activeThread := runs
    unfold Dispatcher.preempt
    rw [same]
    rfl
  have dropped : Sound sched (alive \ {sched.activeThread}) plain.quit.queues :=
    mirrors.sound.drop free
  have idle : plain.quit.running = if sched.activeThread ≠ sched.activeThread ∧
      (sched.threads sched.activeThread).state = .active then some sched.activeThread else none := by
    rw [if_neg fun both => both.1 rfl]
    rfl
  have arrived := arrive_mirrors dropped (fun other inside => mirrors.prio other inside.1) idle mem
    (mirrors.sound.pointer _ mem) bound
  rw [stopped]
  refine ⟨_, arrive_prepared arrived mem, ?_⟩
  simp only [Sched.kthreadSetPrio, if_neg (mirrors.sound.ne_zero mem), running.active] at result
  obtain ⟨chosen, schedules, last⟩ := bind_ok result
  cases Except.ok.inj last
  exact schedules

/-- `kthread_set_prio` of a ready thread. -/
theorem setPrio_ready {old prio : Nat} {after : Sched} (mirrors : Mirrors sched alive plain)
    (running : Running sched alive) (bound : prio < PRIO_LEVELS) {level : Nat}
    (inLevel : thread ∈ plain.queues (.ready level))
    (result : sched.kthreadSetPrio thread prio = .ok (old, after)) :
    ∃ middle, Prepared middle alive
        (((plain.remove thread).assign thread prio).arrive .ready thread) ∧
      middle.kthreadsSchedule = .ok after := by
  have mem := mirrors.sound.mem_alive _ thread inLevel
  have isReady : (sched.threads thread).state = .ready :=
    (mirrors.sound.placed _ thread inLevel).inState
  obtain ⟨before, behind, place⟩ := List.append_of_mem inLevel
  obtain ⟨-, taken, threads, active⟩ := mirrors.sound.kthreadRemoveFromReady place
  have removed := remove_mirrors mirrors place taken threads active
  have inactive : sched.activeThread ≠ thread := by
    rintro rfl
    exact mirrors.sound.active_free running.active inLevel
  have arrived := arrive_mirrors removed.sound removed.prio
    (by rw [removed.running, active]; simp [inactive]) mem (mirrors.sound.pointer _ mem) bound
  refine ⟨_, arrive_prepared arrived ?_, ?_⟩
  · change (sched.kthreadRemoveFromReady thread).2.activeThread ∈ alive
    rw [active]
    exact running.mem_alive
  · simp only [Sched.kthreadSetPrio, if_neg (mirrors.sound.ne_zero mem), isReady] at result
    obtain ⟨chosen, schedules, last⟩ := bind_ok result
    cases Except.ok.inj last
    exact schedules

/-- `kthread_set_prio` of a thread that waits or has ended. -/
theorem setPrio_stores {old prio : Nat} {after : Sched} (mirrors : Mirrors sched alive plain)
    (nonzero : thread ≠ 0) (bound : prio < PRIO_LEVELS)
    (rests : (sched.threads thread).state = .wait ∨
      (sched.threads thread).state = .passive ∧ thread ∉ alive)
    (result : sched.kthreadSetPrio thread prio = .ok (old, after)) :
    Mirrors after alive (plain.assign thread prio) := by
  rcases rests with waits | ⟨passive, dead⟩
  · simp only [Sched.kthreadSetPrio, if_neg nonzero, waits] at result
    cases Except.ok.inj result
    apply store_mirrors mirrors
    refine mirrors.sound.congr rfl rfl rfl fun other _ => ?_
    unfold Sched.storePrio
    by_cases same : other = thread
    · rw [same, Sched.setThread_same]
      exact ⟨rfl, rfl, .inr ⟨waits, bound⟩⟩
    · rw [Sched.setThread_other same]
      exact ⟨rfl, rfl, .inl rfl⟩
  · simp only [Sched.kthreadSetPrio, if_neg nonzero, passive] at result
    cases Except.ok.inj result
    exact store_mirrors mirrors (mirrors.sound.setThread_dead dead)

theorem target_eq {kthread : Ptr} (runs : plain.running = some kernel.activeThread) :
    SchedOp.target kthread plain = if kthread = 0 then kernel.activeThread else kthread := by
  unfold SchedOp.target
  rw [runs]
  rfl

/-- What an operation does with the plain queues: the kernel chooses the thread to run from the
queues as they are prepared, or it has prepared them and no more. -/
def SchedOp.Follows (op : SchedOp) (alive : Set Ptr) (plain : Dispatcher Ptr QueueId)
    (sched : Sched) : Prop :=
  (op.schedules plain = true ∧ ∃ middle, Prepared middle alive (op.prepare plain) ∧
      middle.kthreadsSchedule = .ok sched) ∨
    op.schedules plain = false ∧ Mirrors sched alive (op.prepare plain)

theorem setPrio_follows {kthread : Ptr} {prio : Nat}
    (coherent : Coherent kernel idle alive plain.queues all)
    (mirrors : Mirrors kernel.sched alive plain)
    (fits : (SchedOp.setPrio kthread prio).Fits idle kernel alive)
    (result : (SchedOp.setPrio kthread prio).run kernel = .ok kernel') :
    (SchedOp.setPrio kthread prio).Follows alive plain kernel'.sched := by
  obtain ⟨bound, which⟩ := fits
  obtain ⟨⟨old, after⟩, sets, rfl⟩ := map_ok result
  have runs := coherent.runs mirrors
  have running := coherent.running
  have mem := running.mem_alive
  -- the thread that is meant
  obtain ⟨target, isTarget, sets, nonzero, known⟩ : ∃ target,
      SchedOp.target kthread plain = target ∧
      kernel.sched.kthreadSetPrio target prio = .ok (old, after) ∧ target ≠ 0 ∧
      (target ∈ alive ∨ (kernel.sched.threads target).state = .passive) := by
    rw [target_eq runs]
    by_cases isZero : kthread = 0
    · refine ⟨_, if_pos isZero, ?_, mirrors.sound.ne_zero mem, .inl mem⟩
      rw [isZero, SchedOp.kthreadSetPrio_zero (mirrors.sound.ne_zero mem)] at sets
      exact sets
    · exact ⟨_, if_neg isZero, sets, isZero, which.resolve_left isZero⟩
  have rests : target ≠ kernel.activeThread →
      (∀ level, target ∉ plain.queues (.ready level)) →
      (kernel.sched.threads target).state = .wait ∨
        (kernel.sched.threads target).state = .passive ∧ target ∉ alive := by
    intro inactive notReady
    by_cases alone : target ∈ alive
    · left
      obtain ⟨queue, before, behind, place, -, state⟩ := coherent.inactive_queue alone inactive
      have inQueue : target ∈ plain.queues queue := by simp [place]
      cases queue with
      | ready level => exact absurd inQueue (notReady level)
      | _ => exact state
    · exact .inr ⟨known.resolve_left alone, alone⟩
  unfold SchedOp.Follows SchedOp.schedules SchedOp.prepare
  dsimp only
  rw [isTarget, runs]
  by_cases active : target = kernel.activeThread
  · left
    subst active
    rw [if_pos rfl]
    refine ⟨by simp, ?_⟩
    exact setPrio_active mirrors running bound sets
  · have different : some kernel.activeThread ≠ some target := fun same =>
      active (Option.some.inj same).symm
    rw [if_neg different]
    by_cases inLevel : target ∈ plain.queues (.ready (plain.prio target))
    · left
      rw [if_pos inLevel]
      refine ⟨by simp [inLevel], ?_⟩
      exact setPrio_ready mirrors running bound inLevel sets
    · right
      rw [if_neg inLevel]
      refine ⟨by simp [inLevel, Ne.symm active], ?_⟩
      apply setPrio_stores mirrors nonzero bound _ sets
      apply rests active
      intro level inReady
      have inAlive := mirrors.sound.mem_alive _ target inReady
      have isLevel := mirrors.sound.ready_level inReady
      rw [mirrors.prio target inAlive, isLevel] at inLevel
      exact inLevel inReady

/-- Every operation does with the kernel's queues what it does with the plain ones. -/
theorem SchedOp.follows (coherent : Coherent kernel idle alive plain.queues all)
    (mirrors : Mirrors kernel.sched alive plain) (fits : op.Fits idle kernel alive)
    (result : op.run kernel = .ok kernel') :
    op.Follows (op.liveAfter kernel alive) plain kernel'.sched := by
  cases op with
  | create stack kthread prio proc => exact .inr ⟨rfl, create_mirrors coherent mirrors fits result⟩
  | block queue => exact .inl ⟨rfl, block_prepared coherent mirrors fits result⟩
  | release queue => exact .inl ⟨rfl, release_prepared coherent mirrors fits result⟩
  | releaseAll queue => exact .inl ⟨rfl, releaseAll_prepared coherent mirrors fits result⟩
  | setPrio kthread prio => exact setPrio_follows coherent mirrors fits result
  | exit status =>
      left
      refine ⟨rfl, ?_⟩
      unfold SchedOp.prepare
      rw [coherent.runs mirrors]
      exact exit_prepared coherent mirrors fits result
  | cancel kthread status => exact .inl ⟨rfl, cancel_prepared coherent mirrors fits result⟩

theorem SchedOp.Follows.plainly (follows : op.Follows alive plain sched) :
    Mirrors sched alive (op.plainly plain) := by
  unfold SchedOp.plainly
  rcases follows with ⟨schedules, middle, prepared, chosen⟩ | ⟨rests, mirrors⟩
  · rw [if_pos schedules]
    exact prepared.mirrors.kthreadsSchedule prepared.current prepared.runnable chosen
  · rw [if_neg (by rw [rests]; decide)]
    exact mirrors

end Operations

end Oseer
