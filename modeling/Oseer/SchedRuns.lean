import Oseer.Monitors
import Oseer.TimedStart

/-!
# Runs of the scheduler

Threads are created, block, are released, change their priority and end, in any order.  In every
state of such a run each thread alive is linked exactly where its state says, the mask shows the
levels that have threads, and `kthreads_schedule` finds a thread to run.
-/

namespace Oseer

open LinkedRing Results

variable {kernel kernel' : Kernel} {idle thread : Ptr} {alive : Set Ptr}
  {members members' : Members} {all : List Ptr} {queue : QueueId} {status : Int}

section Cancel

/-- A thread has left its queue or the processor, and has not ended yet. -/
structure Departed (kernel kernel' : Kernel) (idle thread : Ptr) (alive : Set Ptr)
    (members' : Members) (all : List Ptr) : Prop where
  sound : Sound kernel'.sched (alive \ {thread}) members'
  ledger : Ledger kernel' idle alive members' all
  others : ∀ other, other ≠ thread → kernel'.thread other = kernel.thread other
  activeThread : kernel'.activeThread = kernel.activeThread
  passive : thread = kernel.activeThread → (kernel'.thread thread).state = .passive

/-- The active thread leaves the processor. -/
theorem Coherent.departed_active (coherent : Coherent kernel idle alive members all) :
    Departed kernel (kernel.setThread kernel.activeThread fun descriptor =>
      { descriptor with state := .passive }) idle kernel.activeThread alive members all where
  sound := by
    have outside : kernel.activeThread ∉ alive \ {kernel.activeThread} := by simp
    change Sound (kernel.sched.setThread kernel.activeThread fun descriptor =>
      { descriptor with state := .passive }) _ _
    exact (coherent.sound.drop fun queue =>
      coherent.sound.active_free coherent.running.active).setThread_dead outside
  ledger := by
    apply coherent.ledger.congr _ _ coherent.ledger.unlisted coherent.ledger.own
    · exact ⟨rfl, rfl, rfl, rfl, rfl,
        fun other => Kernel.setThread_field (fun descriptor => descriptor.id) rfl,
        fun other => Kernel.setThread_field (fun descriptor => descriptor.proc) rfl⟩
    · intro other mem
      rw [Kernel.setThread_field (fun descriptor => descriptor.refCnt) rfl]
      exact coherent.ledger.counted other mem
  others := fun other different => Kernel.setThread_other different
  activeThread := rfl
  passive := fun _ => by rw [Kernel.setThread_same]

/-- A thread is taken out of a queue by a change of the lists and of the mask. -/
theorem Coherent.departed_queue {sched : Sched}
    (coherent : Coherent kernel idle alive members all)
    (sound : Sound sched (alive \ {thread}) members')
    (same : sched.threads = kernel.sched.threads)
    (active : sched.activeThread = kernel.sched.activeThread)
    (fewer : ∀ queue : QueueId, queue.state = .wait → (members' queue).Sublist (members queue))
    (inactive : thread ≠ kernel.activeThread) :
    Departed kernel { kernel with sched := sched } idle thread alive members' all where
  sound := sound
  ledger := coherent.ledger.reschedule (fun other => by rw [same]) fewer
  others := fun other _ => congrFun same other
  activeThread := active
  passive := fun isActive => absurd isActive inactive

theorem Coherent.inactive_queue (coherent : Coherent kernel idle alive members all)
    (mem : thread ∈ alive) (inactive : thread ≠ kernel.activeThread) :
    ∃ queue before after, members queue = before ++ thread :: after ∧
      (kernel.thread thread).queue = some queue ∧ (kernel.thread thread).state = queue.state := by
  rcases coherent.sound.located thread mem with ⟨-, isActive⟩ | ⟨queue, inQueue⟩
  · exact absurd isActive inactive
  · have placed := coherent.sound.placed queue thread inQueue
    obtain ⟨before, after, place⟩ := List.append_of_mem inQueue
    exact ⟨queue, before, after, place, placed.names, placed.inState⟩

/-- A thread that is ready or waits leaves its queue in `kthread_cancel`. -/
theorem Coherent.kthreadCancel_departed (coherent : Coherent kernel idle alive members all)
    (mem : thread ∈ alive) (inactive : thread ≠ kernel.activeThread) (status : Int) :
    ∃ kernel' members', Departed kernel kernel' idle thread alive members' all ∧
      (∀ queue : QueueId, queue.state = .wait → members' queue = (members queue).erase thread) ∧
      kernel.kthreadCancel thread status = kernel'.finishCancel thread status := by
  obtain ⟨queue, before, after, place, names, state⟩ := coherent.inactive_queue mem inactive
  have elsewhere : ∀ other, other ≠ queue → (members other).erase thread = members other := by
    intro other different
    apply List.erase_of_not_mem
    exact fun inOther => different (coherent.sound.mem_unique inOther (by rw [place]; simp))
  have here : (members queue).erase thread = before ++ after := by
    have nodup : (members queue).Nodup := coherent.sound.linked.nodup_members
    rw [place] at nodup ⊢
    have notBefore : thread ∉ before := fun inBefore =>
      (List.nodup_append.mp nodup).2.2 thread inBefore thread (by simp) rfl
    rw [List.erase_append_right _ notBefore, List.erase_cons_head]
  have leaves : kernel.leaveQueue thread =
      .ok { kernel with sched := (kernel.sched.kthreadqRemove queue thread).2 } := by
    unfold Kernel.leaveQueue
    rw [names]
  cases queueState : queue.state with
  | ready =>
      cases queue with
      | ready level =>
          have isLevel : (kernel.thread thread).prio = level :=
            coherent.sound.ready_level (by rw [place]; simp)
          refine ⟨{ kernel with sched :=
              (kernel.sched.kthreadqRemove (.ready level) thread).2.markIfEmpty level }, _,
            coherent.departed_queue (coherent.sound.takeReady place).2 ?_ ?_
              (fun other waits => ?_) inactive, fun other waits => ?_, ?_⟩
          · unfold Sched.markIfEmpty
            split <;> rfl
          · unfold Sched.markIfEmpty
            split <;> rfl
          · have different : other ≠ .ready level := by
              rintro rfl
              cases waits
            rw [Function.update_of_ne different]
          · have different : other ≠ .ready level := by
              rintro rfl
              cases waits
            rw [Function.update_of_ne different, elsewhere other different]
          · unfold Kernel.kthreadCancel
            rw [state, queueState, leaves]
            have kept : (Kernel.thread { kernel with
                sched := (kernel.sched.kthreadqRemove (.ready level) thread).2 } thread).prio =
                  level := isLevel
            change Kernel.finishCancel thread status { kernel with
              sched := (kernel.sched.kthreadqRemove (.ready level) thread).2.markIfEmpty _ } = _
            rw [kept]
      | _ => cases queueState
  | wait =>
      refine ⟨{ kernel with sched := (kernel.sched.kthreadqRemove queue thread).2 }, _,
        coherent.departed_queue (coherent.sound.kthreadqRemove place queueState).2 rfl rfl
          (fun other waits => ?_) inactive, fun other waits => ?_, ?_⟩
      · by_cases same : other = queue
        · rw [same, Function.update_self, place]
          exact List.Sublist.append_left (List.sublist_cons_self thread after) before
        · rw [Function.update_of_ne same]
      · by_cases same : other = queue
        · rw [same, Function.update_self, here]
        · rw [Function.update_of_ne same, elsewhere other same]
      · unfold Kernel.kthreadCancel
        rw [state, queueState, leaves]
        rfl
  | active => cases queue <;> cases queueState
  | passive => cases queue <;> cases queueState

/-- The thread ends, and the kernel is ready to choose another one. -/
theorem Departed.endAndRelease (departed : Departed kernel kernel' idle thread alive members' all)
    (coherent : Coherent kernel idle alive members all) (mem : thread ∈ alive)
    (notIdle : thread ≠ idle) (status : Int) :
    ∃ released members'' all'', kernel'.endAndRelease thread status = .ok released ∧
      Ended kernel' released idle thread alive members' members'' all all'' ∧
      Settled released idle (alive \ {thread}) members'' all'' := by
  obtain ⟨released, members'', all'', ends, ended⟩ :=
    @Ledger.endAndRelease kernel' idle thread alive members' all status departed.ledger
      departed.sound mem notIdle
  have active : released.activeThread = kernel.activeThread :=
    ended.activeThread.trans departed.activeThread
  have idleKept : kernel'.thread idle = kernel.thread idle :=
    departed.others idle notIdle.symm
  refine ⟨released, members'', all'', ends, ended, ended.sound, ended.ledger, ?_, ?_⟩
  · rw [active]
    intro isActive
    refine ⟨coherent.running.mem_alive, fun same => ?_⟩
    have isThread : thread = kernel.activeThread := (Set.mem_singleton_iff.mp same).symm
    rw [← isThread, ended.state, departed.passive isThread] at isActive
    cases isActive
  · have notIn : idle ∉ members' (.join thread) := by
      intro inQueue
      have placed := (departed.sound.placed _ idle inQueue).inState
      exact coherent.idle_runs (idleKept ▸ placed)
    rw [ended.others idle notIdle.symm notIn, idleKept]
    exact coherent.idle_runs

/-- The thread ends, and another one runs. -/
theorem Departed.finishCancel (departed : Departed kernel kernel' idle thread alive members' all)
    (coherent : Coherent kernel idle alive members all) (mem : thread ∈ alive)
    (notIdle : thread ≠ idle) (status : Int) :
    ∃ kernel'' members'' all'', kernel'.finishCancel thread status = .ok (SUCCESS, kernel'') ∧
      Coherent kernel'' idle (alive \ {thread}) members'' all'' ∧
      SameWaiting (· = .join thread) members' members'' := by
  obtain ⟨released, members'', all'', ends, ended, settled⟩ :=
    departed.endAndRelease coherent mem notIdle status
  obtain ⟨sched, members₃, scheduled, coherent', -, switches⟩ := settled.kthreadsSchedule
  have waiting : SameWaiting (· = .join thread) members' members₃ := by
    intro queue waits different
    rw [switches.waiting queue waits id]
    exact ended.waiting queue waits different
  refine ⟨_, members₃, all'', ?_, coherent', waiting⟩
  unfold Kernel.finishCancel
  rw [ends]
  change (released.kthreadsSchedule >>= fun kernel => _) = _
  rw [scheduled]
  rfl

theorem Coherent.kthreadCancel (coherent : Coherent kernel idle alive members all)
    (mem : thread ∈ alive) (notIdle : thread ≠ idle) (inactive : thread ≠ kernel.activeThread)
    (status : Int) :
    ∃ kernel' members' all', kernel.kthreadCancel thread status = .ok (SUCCESS, kernel') ∧
      Coherent kernel' idle (alive \ {thread}) members' all' ∧
      ∀ queue : QueueId, queue.state = .wait → queue ≠ .join thread →
        members' queue = (members queue).erase thread := by
  obtain ⟨left, members', departed, erased, cancels⟩ :=
    coherent.kthreadCancel_departed mem inactive status
  obtain ⟨kernel', members'', all', finishes, coherent', waiting⟩ :=
    departed.finishCancel coherent mem notIdle status
  refine ⟨kernel', members'', all', cancels.trans finishes, coherent', ?_⟩
  intro queue waits different
  rw [waiting queue waits different, erased queue waits]

/-- `sys__thread_exit`. -/
theorem Coherent.sysThreadExit (coherent : Coherent kernel idle alive members all)
    (notIdle : kernel.activeThread ≠ idle) (status : Int) :
    ∃ kernel' members' all', kernel.sysThreadExit status = .ok kernel' ∧
      Coherent kernel' idle (alive \ {kernel.activeThread}) members' all' := by
  have mem : kernel.activeThread ∈ alive := coherent.running.mem_alive
  have isActive : (kernel.thread kernel.activeThread).state = .active := coherent.running.active
  obtain ⟨kernel', members', all', finishes, coherent', -⟩ :=
    coherent.departed_active.finishCancel coherent mem notIdle status
  obtain ⟨sched, members'', scheduled, coherent'', -⟩ := coherent'.toSettled.kthreadsSchedule
  refine ⟨_, members'', all', ?_, coherent''⟩
  have cancels : kernel.kthreadCancel kernel.activeThread status = .ok (SUCCESS, kernel') := by
    unfold Kernel.kthreadCancel
    rw [isActive]
    dsimp only
    rw [if_neg (not_not_intro rfl)]
    exact finishes
  unfold Kernel.sysThreadExit
  rw [cancels]
  exact scheduled

end Cancel

section Create

/-- A thread is created ready to run. -/
theorem Coherent.kthreadCreate {stack proc : Ptr} {prio : Int}
    (coherent : Coherent kernel idle alive members all) (fresh : thread ∉ all)
    (below : thread < addressCount) (known : ∃ mate ∈ alive, (kernel.thread mate).proc = proc)
    (created : kernel.kthreadCreate stack thread prio true proc = .ok kernel') :
    ∃ members', Coherent kernel' idle (insert thread alive) members' (all ++ [thread]) ∧
      SameWaiting (fun _ => False) members members' := by
  have roster := coherent.ledger.toRoster
  by_cases null : stack = 0 ∨ thread = 0
  · unfold Kernel.kthreadCreate at created
    rw [if_pos null] at created
    cases created
  obtain ⟨stackPointer, nonzero⟩ := not_or.mp null
  have pointer : 0 < thread ∧ thread < addressCount := ⟨Nat.pos_of_ne_zero nonzero, below⟩
  have dead : thread ∉ alive := fun mem => fresh (roster.alive_listed thread mem)
  obtain ⟨noJoin, noThrq⟩ := roster.empty_queues coherent.sound fresh
  rw [roster.kthreadCreate_eq nonzero stackPointer] at created
  split_ifs at created with full
  have isCreated := Except.ok.inj created
  have spec : Created kernel kernel' thread stack (Kernel.clampPrio prio) proc :=
    isCreated ▸ Kernel.created_spec prio
  have numbered : Sound kernel.numbered.sched alive members := coherent.sound
  have sound : Sound (kernel.numbered.created stack thread prio proc).sched (insert thread alive)
      (enqueued members (.ready (Kernel.clampPrio prio)) thread) :=
    numbered.created dead noJoin noThrq pointer prio proc
  have ledger : Ledger (kernel.numbered.created stack thread prio proc) idle (insert thread alive)
      (enqueued members (.ready (Kernel.clampPrio prio)) thread) (all ++ [thread]) :=
    coherent.ledger.created fresh pointer (Nat.lt_of_not_le full) prio known
  rw [isCreated] at sound ledger
  have old : ∀ other ∈ alive, kernel'.thread other = kernel.thread other := by
    intro other mem
    apply spec.others
    rintro rfl
    exact dead mem
  have active : kernel'.sched.activeThread = kernel.sched.activeThread := spec.active
  have inAlive := coherent.running.mem_alive
  have running : Running kernel'.sched (insert thread alive) := by
    refine ⟨?_, ?_⟩
    · rw [active]
      exact .inr inAlive
    · rw [active]
      exact (congrArg Thread.state (old _ inAlive)).trans coherent.running.active
  refine ⟨_, ⟨⟨sound, ledger, fun _ => running.mem_alive, ?_⟩, running⟩, sameWaiting_ready⟩
  rw [old idle roster.idle_mem]
  exact coherent.idle_runs

theorem started_eq (kernelProc : Ptr) :
    Kernel.started kernelProc = Kernel.boot.initLists kernelProc := by
  have same : ((Kernel.boot.initLists kernelProc).sched.setThread
      (Kernel.boot.initLists kernelProc).sched.activeThread fun descriptor =>
        { descriptor with errno := -0 }) = (Kernel.boot.initLists kernelProc).sched := by
    rw [initLists_sched]
    exact congrArg (fun threads => { Kernel.boot.sched with threads := threads })
      (Function.update_eq_self Kernel.boot.sched.activeThread Kernel.boot.sched.threads)
  unfold Kernel.started Kernel.setErrno Kernel.setThread Kernel.activeThread
  rw [same]

/-- `kthreads_init` up to its call of the scheduler. -/
theorem kthreadsInit_settled {stack kernelProc : Ptr} (below : idle < addressCount)
    (starts : Kernel.boot.kthreadsInit stack idle kernelProc = .ok kernel) :
    ∃ created, Settled created idle {idle} (enqueued (fun _ => []) (.ready 0) idle) [idle] ∧
      Created (Kernel.started kernelProc) created idle stack 0 kernelProc ∧
      created.kthreadsSchedule = .ok kernel := by
  unfold Kernel.kthreadsInit at starts
  rw [← started_eq] at starts
  by_cases null : stack = 0 ∨ idle = 0
  · unfold Kernel.kthreadCreate at starts
    rw [if_pos null] at starts
    cases starts
  obtain ⟨stackPointer, nonzero⟩ := not_or.mp null
  have pointer : 0 < idle ∧ idle < addressCount := ⟨Nat.pos_of_ne_zero nonzero, below⟩
  rw [started_kthreadCreate stackPointer nonzero] at starts
  have spec : Created (Kernel.started kernelProc)
      ((Kernel.started kernelProc).numbered.created stack idle 0 kernelProc) idle stack 0
      kernelProc := Kernel.created_spec 0
  refine ⟨_, ⟨started_created pointer, started_ledger pointer, fun isActive => ?_, ?_⟩, spec,
    starts⟩
  · have noThread : ((Kernel.started kernelProc).numbered.created stack idle 0
        kernelProc).activeThread = 0 := by
      rw [spec.active, started_eq]
      unfold Kernel.activeThread
      rw [initLists_sched]
      rfl
    rw [noThread, spec.others 0 (Ne.symm nonzero), started_passive] at isActive
    cases isActive
  · rw [spec.state]
    decide

/-- `kthreads_init`. -/
theorem kthreadsInit_coherent {stack kernelProc : Ptr} (below : idle < addressCount)
    (starts : Kernel.boot.kthreadsInit stack idle kernelProc = .ok kernel) :
    ∃ members, Coherent kernel idle {idle} members [idle] := by
  obtain ⟨created, settled, -, starts⟩ := kthreadsInit_settled below starts
  obtain ⟨sched, members, scheduled, coherent, -⟩ := settled.kthreadsSchedule
  rw [scheduled] at starts
  obtain rfl := Except.ok.inj starts
  exact ⟨members, coherent⟩

end Create

section Operations

/-- The operations of a run. -/
inductive SchedOp
  | create (stack kthread : Ptr) (prio : Int) (proc : Ptr)
  | block (queue : QueueId)
  | release (queue : QueueId)
  | releaseAll (queue : QueueId)
  | setPrio (kthread : Ptr) (prio : Nat)
  | exit (status : Int)
  | cancel (kthread : Ptr) (status : Int)

/-- A thread that waits for the end of another one is counted there, as in
`sys__wait_for_thread`. -/
def Kernel.countWaiter (queue : QueueId) (kernel : Kernel) : Kernel :=
  match queue with
  | .join kthread => kernel.setThread kthread fun descriptor =>
      { descriptor with refCnt := descriptor.refCnt + 1 }
  | _ => kernel

namespace SchedOp

variable {op : SchedOp}

/-- What an operation does. -/
def run (op : SchedOp) (kernel : Kernel) : Except Fault Kernel :=
  match op with
  | .create stack kthread prio proc => kernel.kthreadCreate stack kthread prio true proc
  | .block queue => ((kernel.countWaiter queue).kthreadEnqueue queue).kthreadsSchedule
  | .release queue => (kernel.kthreadqRelease queue).2.kthreadsSchedule
  | .releaseAll queue => (kernel.kthreadqReleaseAll queue).2.kthreadsSchedule
  | .setPrio kthread prio =>
      (kernel.sched.kthreadSetPrio kthread prio).map fun set => { kernel with sched := set.2 }
  | .exit status => kernel.sysThreadExit status
  | .cancel kthread status => (kernel.kthreadCancel kthread status).map Prod.snd

/-- The threads alive after an operation. -/
def liveAfter (op : SchedOp) (kernel : Kernel) (live : Set Ptr) : Set Ptr :=
  match op with
  | .create _ kthread _ _ => insert kthread live
  | .exit _ => live \ {kernel.activeThread}
  | .cancel kthread _ => live \ {kthread}
  | _ => live

/-- What the callers keep to: a new descriptor is not in use, the idle thread neither blocks nor
ends, threads wait for threads that are alive and in their own queue of messages only, and a
thread that is cancelled is ready or waits. -/
def Fits (idle : Ptr) (kernel : Kernel) (live : Set Ptr) : SchedOp → Prop
  | .create _ kthread _ proc => kthread < addressCount ∧
      (∀ all : List Ptr, kernel.allThreads.Linked (fun _ => all) → kthread ∉ all) ∧
      ∃ mate ∈ live, (kernel.thread mate).proc = proc
  | .block queue => queue.state = .wait ∧ kernel.activeThread ≠ idle ∧
      (∀ target, queue = .join target → target ∈ live) ∧
      ∀ owner, queue = .thrq (.thread owner) → kernel.activeThread = owner
  | .release queue => queue.state = .wait
  | .releaseAll queue => queue.state = .wait
  | .setPrio kthread prio => prio < PRIO_LEVELS ∧
      (kthread = 0 ∨ kthread ∈ live ∨ (kernel.thread kthread).state = .passive)
  | .exit _ => kernel.activeThread ≠ idle
  | .cancel kthread _ => kthread ∈ live ∧ kthread ≠ idle ∧ kthread ≠ kernel.activeThread

/-- An operation that ends keeps the invariant, and none comes to the assertion of the
scheduler. -/
def Keeps (op : SchedOp) (idle : Ptr) (kernel : Kernel) (live : Set Ptr) : Prop :=
  (∀ kernel', op.run kernel = .ok kernel' →
    ∃ members all, Coherent kernel' idle (op.liveAfter kernel live) members all) ∧
  op.run kernel ≠ .error .noThreadToRun

theorem keeps_of_ok (result : op.run kernel = .ok kernel')
    (coherent : Coherent kernel' idle (op.liveAfter kernel alive) members all) :
    op.Keeps idle kernel alive := by
  constructor
  · intro kernel'' result'
    obtain rfl := Except.ok.inj (result.symm.trans result')
    exact ⟨members, all, coherent⟩
  · rw [result]
    simp

theorem keeps_of_settled (settled : Settled kernel' idle (op.liveAfter kernel alive) members all)
    (schedules : op.run kernel = kernel'.kthreadsSchedule) : op.Keeps idle kernel alive := by
  obtain ⟨sched, members', scheduled, coherent, -⟩ := settled.kthreadsSchedule
  exact keeps_of_ok (schedules.trans scheduled) coherent

theorem create_keeps {stack kthread proc : Ptr} {prio : Int}
    (coherent : Coherent kernel idle alive members all)
    (fits : (create stack kthread prio proc).Fits idle kernel alive) :
    (create stack kthread prio proc).Keeps idle kernel alive := by
  obtain ⟨below, unused, known⟩ := fits
  constructor
  · intro kernel' result
    obtain ⟨members', coherent', -⟩ :=
      coherent.kthreadCreate (unused all coherent.ledger.listed) below known result
    exact ⟨members', _, coherent'⟩
  · change kernel.kthreadCreate stack kthread prio true proc ≠ _
    by_cases null : stack = 0 ∨ kthread = 0
    · unfold Kernel.kthreadCreate
      rw [if_pos null]
      simp
    · obtain ⟨stackPointer, nonzero⟩ := not_or.mp null
      rw [coherent.ledger.toRoster.kthreadCreate_eq nonzero stackPointer]
      split <;> simp

theorem countWaiter_coherent (coherent : Coherent kernel idle alive members all)
    (queue : QueueId) : Coherent (kernel.countWaiter queue) idle alive members all := by
  unfold Kernel.countWaiter
  split
  · exact coherent.setThread rfl rfl rfl rfl rfl (by simp)
  · exact coherent

theorem block_keeps (coherent : Coherent kernel idle alive members all)
    (fits : (block queue).Fits idle kernel alive) : (block queue).Keeps idle kernel alive := by
  obtain ⟨waits, notIdle, target, own⟩ := fits
  have counted := countWaiter_coherent coherent queue
  have active : (kernel.countWaiter queue).activeThread = kernel.activeThread := by
    unfold Kernel.countWaiter
    split <;> rfl
  have room : ∀ thread, queue = .join thread → thread ∈ all ∧
      ((members (.join thread)).length : Int) + 1 <
        ((kernel.countWaiter queue).thread thread).refCnt := by
    rintro thread rfl
    have mem := coherent.ledger.alive_listed thread (target thread rfl)
    have before := coherent.ledger.counted thread mem
    have after : ((kernel.countWaiter (.join thread)).thread thread).refCnt =
        (kernel.thread thread).refCnt + 1 :=
      congrArg (fun descriptor : Thread => descriptor.refCnt) Kernel.setThread_same
    rw [after]
    exact ⟨mem, by omega⟩
  rw [← active] at notIdle own
  obtain ⟨settled, -⟩ := counted.kthreadEnqueue waits notIdle room own
  exact keeps_of_settled settled rfl

theorem release_keeps (coherent : Coherent kernel idle alive members all)
    (waits : queue.state = .wait) : (release queue).Keeps idle kernel alive := by
  cases place : members queue with
  | nil =>
      have schedules : (release queue).run kernel = kernel.kthreadsSchedule := by
        change (kernel.kthreadqRelease queue).2.kthreadsSchedule = _
        rw [coherent.toSettled.kthreadqRelease_empty place]
      exact keeps_of_settled coherent.toSettled schedules
  | cons thread rest =>
      obtain ⟨-, settled, -⟩ := coherent.toSettled.kthreadqRelease place waits
      exact keeps_of_settled settled rfl

theorem releaseAll_keeps (coherent : Coherent kernel idle alive members all)
    (waits : queue.state = .wait) : (releaseAll queue).Keeps idle kernel alive := by
  obtain ⟨members', -, settled, -⟩ := coherent.toSettled.kthreadqReleaseAll waits
  exact keeps_of_settled settled rfl

/-- A thread that has ended is in no queue, and its priority is only stored. -/
theorem setPrio_dead {kthread : Ptr} {prio : Nat}
    (coherent : Coherent kernel idle alive members all) (dead : kthread ∉ alive)
    (nonzero : kthread ≠ 0) (passive : (kernel.thread kthread).state = .passive) :
    (setPrio kthread prio).Keeps idle kernel alive := by
  have inactive : kthread ≠ kernel.activeThread := by
    rintro rfl
    exact dead coherent.running.mem_alive
  have isPassive : (kernel.sched.threads kthread).state = .passive := passive
  have result : (setPrio kthread prio).run kernel =
      .ok (kernel.setThread kthread fun descriptor => { descriptor with prio := prio }) := by
    change (kernel.sched.kthreadSetPrio kthread prio).map _ = _
    unfold Sched.kthreadSetPrio
    dsimp only
    rw [if_neg nonzero, isPassive]
    rfl
  have running : Running (kernel.setThread kthread fun descriptor =>
      { descriptor with prio := prio }).sched alive :=
    ⟨coherent.running.mem_alive,
      (Kernel.setThread_field Thread.state rfl).trans coherent.running.active⟩
  have ledger : Ledger (kernel.setThread kthread fun descriptor =>
      { descriptor with prio := prio }) idle alive members all := by
    apply coherent.ledger.congr _ _ coherent.ledger.unlisted coherent.ledger.own
    · exact ⟨rfl, rfl, rfl, rfl, rfl,
        fun other => Kernel.setThread_field (fun descriptor => descriptor.id) rfl,
        fun other => Kernel.setThread_field (fun descriptor => descriptor.proc) rfl⟩
    · intro other mem
      rw [Kernel.setThread_field (fun descriptor => descriptor.refCnt) rfl]
      exact coherent.ledger.counted other mem
  have sound : Sound (kernel.setThread kthread fun descriptor =>
      { descriptor with prio := prio }).sched alive members := by
    exact @Sound.setThread_dead kernel.sched alive members kthread
      (fun descriptor => { descriptor with prio := prio }) coherent.sound dead
  have settled : Coherent (kernel.setThread kthread fun descriptor =>
      { descriptor with prio := prio }) idle alive members all := by
    refine ⟨⟨sound, ledger, fun _ => running.mem_alive, ?_⟩, running⟩
    rw [Kernel.setThread_field Thread.state rfl]
    exact coherent.idle_runs
  exact keeps_of_ok result settled

theorem kthreadSetPrio_zero {sched : Sched} {prio : Nat} (nonzero : sched.activeThread ≠ 0) :
    sched.kthreadSetPrio 0 prio = sched.kthreadSetPrio sched.activeThread prio := by
  unfold Sched.kthreadSetPrio
  rw [if_pos rfl, if_neg nonzero]

theorem setPrio_keeps {kthread : Ptr} {prio : Nat}
    (coherent : Coherent kernel idle alive members all)
    (fits : (setPrio kthread prio).Fits idle kernel alive) :
    (setPrio kthread prio).Keeps idle kernel alive := by
  obtain ⟨bound, which⟩ := fits
  have keeps : ∀ target ∈ alive, (setPrio target prio).Keeps idle kernel alive := by
    intro target mem
    obtain ⟨sched, members', result, coherent', -⟩ := coherent.kthreadSetPrio mem bound
    have ran : (setPrio target prio).run kernel = .ok { kernel with sched := sched } := by
      change (kernel.sched.kthreadSetPrio target prio).map _ = _
      rw [result]
      rfl
    exact keeps_of_ok ran coherent'
  have inAlive := coherent.running.mem_alive
  by_cases isZero : kthread = 0
  · subst isZero
    have same : (setPrio 0 prio).run kernel =
        (setPrio kernel.sched.activeThread prio).run kernel := by
      change (kernel.sched.kthreadSetPrio 0 prio).map _ = _
      rw [kthreadSetPrio_zero (coherent.sound.ne_zero inAlive)]
      rfl
    have active := keeps _ inAlive
    unfold Keeps at active ⊢
    rw [same]
    exact active
  · by_cases mem : kthread ∈ alive
    · exact keeps kthread mem
    · exact setPrio_dead coherent mem isZero (by tauto)

/-- Every operation keeps the invariant. -/
theorem keeps (coherent : Coherent kernel idle alive members all)
    (fits : op.Fits idle kernel alive) : op.Keeps idle kernel alive := by
  cases op with
  | create => exact create_keeps coherent fits
  | block => exact block_keeps coherent fits
  | release => exact release_keeps coherent fits
  | releaseAll => exact releaseAll_keeps coherent fits
  | setPrio => exact setPrio_keeps coherent fits
  | exit status =>
      obtain ⟨kernel', members', all', result, coherent'⟩ := coherent.sysThreadExit fits status
      exact keeps_of_ok result coherent'
  | cancel kthread status =>
      obtain ⟨mem, notIdle, inactive⟩ := fits
      obtain ⟨kernel', members', all', result, coherent', -⟩ :=
        coherent.kthreadCancel mem notIdle inactive status
      have ran : (cancel kthread status).run kernel = .ok kernel' := by
        change (kernel.kthreadCancel kthread status).map _ = _
        rw [result]
        rfl
      exact keeps_of_ok ran coherent'

end SchedOp

end Operations

section Runs

/-- The kernel and its threads alive. -/
structure SchedState where
  kernel : Kernel
  live : Set Ptr

/-- One operation of a run. -/
inductive SchedStep (idle : Ptr) : SchedState → SchedState → Prop
  | step {kernel kernel' : Kernel} {live : Set Ptr} {op : SchedOp}
      (fits : op.Fits idle kernel live) (result : op.run kernel = .ok kernel') :
      SchedStep idle ⟨kernel, live⟩ ⟨kernel', op.liveAfter kernel live⟩

/-- How the threads alive are linked: the active thread in no queue, a ready thread in the list
of its level, and a waiting thread in the queue that its descriptor names.  Each list is linked
both ways, without a thread twice, and no thread is in two lists.  The mask has the bits of the
levels with threads. -/
structure Dispatched (sched : Sched) (live : Set Ptr) (members : Members) : Prop where
  linked : sched.queues.Linked members
  running : sched.activeThread ∈ live
  active : ∀ thread ∈ live,
    (sched.threads thread).state = .active ↔ thread = sched.activeThread
  unlinked : ∀ queue, sched.activeThread ∉ members queue
  ready : ∀ thread ∈ live, (sched.threads thread).state = .ready →
    thread ∈ members (.ready (sched.threads thread).prio)
  wait : ∀ thread ∈ live, (sched.threads thread).state = .wait → ∃ queue : QueueId,
    queue.state = .wait ∧ (sched.threads thread).queue = some queue ∧ thread ∈ members queue
  notPassive : ∀ thread ∈ live, (sched.threads thread).state ≠ .passive
  only : ∀ queue, ∀ thread ∈ members queue, thread ∈ live ∧
    (sched.threads thread).state = queue.state ∧ (sched.threads thread).queue = some queue
  mask : ∀ level < PRIO_LEVELS,
    (sched.rdyMask (level / sizeofWord)).testBit (level % sizeofWord) = true ↔
      members (.ready level) ≠ []
  highest : (ReadyMask.kthreadReadyListHighest sched.rdyMask = -1 ∧
      ∀ level < PRIO_LEVELS, members (.ready level) = []) ∨
    ∃ level < PRIO_LEVELS, ReadyMask.kthreadReadyListHighest sched.rdyMask = level ∧
      members (.ready level) ≠ [] ∧
      ∀ other < PRIO_LEVELS, level < other → members (.ready other) = []

/-- Where a thread alive is, told by its state. -/
theorem Coherent.dispatched (coherent : Coherent kernel idle alive members all) :
    Dispatched kernel.sched alive members := by
  have sound := coherent.sound
  have running := coherent.running
  -- the state of a linked thread is that of its queue
  have inQueue : ∀ queue, ∀ thread ∈ members queue,
      (kernel.sched.threads thread).state = queue.state := fun queue thread mem =>
    (sound.placed queue thread mem).inState
  have notActive : ∀ queue : QueueId, queue.state ≠ .active ∧ queue.state ≠ .passive := by
    intro queue
    cases queue <;> exact ⟨by simp [QueueId.state], by simp [QueueId.state]⟩
  refine ⟨sound.linked, running.mem_alive, ?_, fun queue => sound.active_free running.active,
    fun thread mem ready => sound.mem_ready mem ready, ?_, ?_, ?_, sound.mask.bit, ?_⟩
  · intro thread mem
    constructor
    · intro active
      rcases sound.located thread mem with ⟨-, isActive⟩ | ⟨queue, linked⟩
      · exact isActive
      · exact absurd ((inQueue queue thread linked).symm.trans active) (notActive queue).1
    · rintro rfl
      exact running.active
  · intro thread mem waits
    rcases sound.located thread mem with ⟨active, -⟩ | ⟨queue, linked⟩
    · exact absurd (active.symm.trans waits) (by decide)
    · exact ⟨queue, (inQueue queue thread linked).symm.trans waits,
        (sound.placed queue thread linked).names, linked⟩
  · intro thread mem passive
    rcases sound.located thread mem with ⟨active, -⟩ | ⟨queue, linked⟩
    · exact absurd (active.symm.trans passive) (by decide)
    · exact absurd ((inQueue queue thread linked).symm.trans passive) (notActive queue).2
  · intro queue thread mem
    exact ⟨sound.mem_alive queue thread mem, inQueue queue thread mem,
      (sound.placed queue thread mem).names⟩
  · rcases sound.mask.highest with ⟨isNone, none⟩ | ⟨level, bound, isLevel, some, greatest⟩
    · exact .inl ⟨isNone, fun level bound => not_not.mp (none level bound)⟩
    · exact .inr ⟨level, bound, isLevel, some,
        fun other below greater => not_not.mp (greatest other below greater)⟩

end Runs

end Oseer
