import Oseer.TimedEntries

/-!
# The end of threads keeps the invariant

`kthread_cancel` takes the thread out of its queue, or off the processor, releases
what it holds, and calls `kthreads_schedule`.  The alarms of the thread are not
looked at: the invariant is kept if no active alarm belongs to it.
-/

namespace Oseer

open LinkedRing Results Prog

variable {setting : Setting} {alarms alarms' : Alarms World} {members members' : Members}
  {all : List Ptr} {thread other : Ptr} {world world' : World} {call : AlarmCall World}
  {queue : QueueId} {kernel kernel' : Kernel} {status : Int}

section Parting

/-- The thread has left its queue or the processor, and has not ended yet. -/
structure Parting (idle : Ptr) (world : World) (kernel : Kernel) (members members' : Members)
    (all : List Ptr) (thread : Ptr) : Prop where
  sound : Sound kernel.sched (world.alive \ {thread}) members'
  ledger : Ledger kernel idle world.alive members' all
  fewer : ∀ queue : QueueId, queue.state = .wait → (members' queue).Sublist (members queue)
  others : ∀ other, other ≠ thread → kernel.thread other = world.thread other
  activated : ∀ other, (kernel.thread other).activated = (world.thread other).activated
  activeThread : kernel.activeThread = world.activeThread
  passive : thread = world.activeThread → (kernel.thread thread).state = .passive

variable {idle : Ptr} {waits : Set Ptr}

/-- The active thread leaves the processor. -/
theorem Threads.parting_active (threads : Threads idle waits world members all)
    (active : (world.thread thread).state = .active) :
    Parting idle world (world.kernel.setThread thread fun descriptor =>
      { descriptor with state := .passive }) members members all thread where
  sound := by
    have free : ∀ queue, thread ∉ members queue := fun queue => threads.sound.active_free active
    have outside : thread ∉ world.alive \ {thread} := by simp
    change Sound (world.kernel.sched.setThread thread fun descriptor =>
      { descriptor with state := .passive }) _ _
    exact (threads.sound.drop free).setThread_dead outside
  ledger := by
    apply threads.ledger.congr _ _ threads.ledger.unlisted threads.ledger.own
    · exact ⟨rfl, rfl, rfl, rfl, rfl,
        fun other => Kernel.setThread_field (fun descriptor => descriptor.id) rfl,
        fun other => Kernel.setThread_field (fun descriptor => descriptor.proc) rfl⟩
    · intro other mem
      rw [Kernel.setThread_field (fun descriptor => descriptor.refCnt) rfl]
      exact threads.ledger.counted other mem
  fewer := fun _ _ => .refl _
  others := fun other different => Kernel.setThread_other different
  activated := fun other => Kernel.setThread_field Thread.activated rfl
  activeThread := rfl
  passive := fun _ => by rw [Kernel.setThread_same]

/-- A thread is taken out of a queue by a change of the lists and of the mask. -/
theorem Threads.parting_queue {sched : Sched} (threads : Threads idle waits world members all)
    (sound : Sound sched (world.alive \ {thread}) members')
    (same : sched.threads = world.kernel.sched.threads)
    (active : sched.activeThread = world.kernel.sched.activeThread)
    (fewer : ∀ queue : QueueId, queue.state = .wait → (members' queue).Sublist (members queue))
    (inactive : thread ≠ world.activeThread) :
    Parting idle world { world.kernel with sched := sched } members members' all thread where
  sound := sound
  ledger := threads.ledger.reschedule (fun other => by rw [same]) fewer
  fewer := fewer
  others := fun other _ => congrFun same other
  activated := fun other => congrArg Thread.activated (congrFun same other)
  activeThread := active
  passive := fun isActive => absurd isActive inactive

/-- A ready thread leaves its level. -/
theorem Threads.parting_ready (threads : Threads idle waits world members all)
    (running : Running world.kernel.sched world.alive) (mem : thread ∈ world.alive)
    (ready : (world.thread thread).state = .ready) (left : world.leaveReady thread = .ok world') :
    ∃ kernel members', world' = { world with kernel := kernel } ∧
      Parting idle world kernel members members' all thread := by
  have inactive : thread ≠ world.activeThread := by
    rintro rfl
    have active : (world.thread world.activeThread).state = .active := running.active
    rw [ready] at active
    cases active
  rcases threads.sound.located thread mem with ⟨active, -⟩ | ⟨queue, inQueue⟩
  · exact absurd (active.symm.trans ready) (by decide)
  have placed := threads.sound.placed queue thread inQueue
  have isReady : queue.state = .ready := placed.inState.symm.trans ready
  cases queue with
  | ready level =>
      obtain ⟨before, after, place⟩ := List.append_of_mem inQueue
      have names : (world.kernel.thread thread).queue = some (.ready level) := placed.names
      have isLevel : (world.kernel.thread thread).prio = level := placed.level level rfl
      unfold World.leaveReady Kernel.leaveQueue at left
      rw [names] at left
      obtain rfl := Except.ok.inj left
      dsimp only
      have isLevel' : (Kernel.thread { world.kernel with
          sched := (world.kernel.sched.kthreadqRemove (.ready level) thread).2 } thread).prio =
            level := isLevel
      rw [isLevel']
      refine ⟨_, _, rfl, threads.parting_queue (threads.sound.takeReady place).2 ?_ ?_
        (fun queue waits => ?_) inactive⟩
      · unfold Sched.markIfEmpty
        split <;> rfl
      · unfold Sched.markIfEmpty
        split <;> rfl
      · have different : queue ≠ .ready level := by
          rintro rfl
          cases waits
        rw [Function.update_of_ne different]
  | _ => cases isReady

/-- A waiting thread leaves its queue. -/
theorem Threads.parting_wait (threads : Threads idle waits world members all)
    (running : Running world.kernel.sched world.alive) (mem : thread ∈ world.alive)
    (isWaiting : (world.thread thread).state = .wait)
    (left : (world.kernel.leaveQueue thread).map
      (fun kernel => { world with kernel := kernel }) = .ok world') :
    ∃ kernel members', world' = { world with kernel := kernel } ∧
      Parting idle world kernel members members' all thread := by
  have inactive : thread ≠ world.activeThread := by
    rintro rfl
    have active : (world.thread world.activeThread).state = .active := running.active
    rw [isWaiting] at active
    cases active
  obtain ⟨queue, isWait, inQueue⟩ := (threads.wait_iff mem).mp isWaiting
  obtain ⟨before, after, place⟩ := List.append_of_mem inQueue
  have names : (world.kernel.thread thread).queue = some queue :=
    (threads.sound.placed queue thread inQueue).names
  unfold Kernel.leaveQueue at left
  rw [names] at left
  obtain rfl := Except.ok.inj left
  refine ⟨_, _, rfl, threads.parting_queue (threads.sound.kthreadqRemove place isWait).2 rfl rfl
    (fun other _ => ?_) inactive⟩
  by_cases same : other = queue
  · rw [same, Function.update_self, place]
    exact List.Sublist.append_left (List.sublist_cons_self thread after) before
  · rw [Function.update_of_ne same]

end Parting

section Ended

/-- No alarm that can expire belongs to the thread, or no alarm at all. -/
def Unowned (lasting : Prop) (thread : Ptr) (alarms : Alarms World) : Prop :=
  ∀ id, alarms.Marked id → (lasting ∨ (alarms.kalarm id).active = true) →
    (alarms.kalarm id).thread ≠ thread

/-- The threads after one has ended. -/
theorem Parting.ended {idle : Ptr} {waits : Set Ptr} {all' : List Ptr} {members'' : Members}
    (parting : Parting idle world kernel members members' all thread)
    (threads : Threads idle waits world members all) (mem : thread ∈ world.alive)
    (ended : Ended kernel kernel' idle thread world.alive members' members'' all all')
    (life : world'.life = Function.update world.life thread
      (if (kernel'.thread thread).refCnt = 0 then .free else .ended))
    (isKernel : world'.kernel = kernel') :
    Threads idle waits world' members'' all' ∧ world'.alive = world.alive \ {thread} := by
  have alive : world'.alive = world.alive \ {thread} := by
    ext other
    unfold World.alive
    rw [life]
    by_cases same : other = thread
    · subst same
      simp only [Function.update_self, Set.mem_ofPred_eq, Set.mem_sdiff, Set.mem_singleton_iff,
        not_true_eq_false, and_false, iff_false]
      split <;> simp
    · simp [same]
  have fewer : ∀ queue : QueueId, queue.state = .wait →
      (members'' queue).Sublist (members queue) := by
    intro queue waits
    by_cases isJoin : queue = .join thread
    · rw [isJoin, ended.empty]
      exact List.nil_sublist _
    · rw [ended.waiting queue waits isJoin]
      exact parting.fewer queue waits
  have descriptor : ∀ other, world'.thread other = kernel'.thread other := by
    intro other
    unfold World.thread
    rw [isKernel]
  refine ⟨⟨?_, ?_, fun other => ?_, ?_, ?_⟩, alive⟩
  · rw [alive, isKernel]
    exact ended.sound
  · rw [alive, isKernel]
    exact ended.ledger
  · rw [ended.listed, threads.listed, life]
    by_cases same : other = thread
    · subst same
      have living : world.life other ≠ .free := by
        have isLiving : world.life other = .living := mem
        rw [isLiving]
        decide
      rw [Function.update_self]
      split <;> simp_all
    · simp [same]
  · rw [alive]
    intro other inside waits
    rw [descriptor] at waits
    rcases ended.sound.located other inside with ⟨active, -⟩ | ⟨queue, inQueue⟩
    · exact absurd (active.symm.trans waits) (by decide)
    · have isWait : queue.state = .wait :=
        (ended.sound.placed queue other inQueue).inState.symm.trans waits
      have wasIn : other ∈ members queue := (fewer queue isWait).subset inQueue
      exact threads.waiting other inside.1 ((threads.wait_iff inside.1).mpr ⟨queue, isWait, wasIn⟩)
  · rw [alive]
    intro other outside passive
    by_cases same : other = thread
    · rw [same]
      exact ended.empty
    · have dead : other ∉ world.alive := fun inside => outside ⟨inside, same⟩
      have notIn : other ∉ members' (.join thread) := fun inQueue =>
        dead (parting.sound.mem_alive _ other inQueue).1
      rw [descriptor, ended.others other same notIn, parting.others other same] at passive
      have none := threads.finished other dead passive
      have shorter := fewer (.join other) rfl
      rwa [none, List.sublist_nil] at shorter

/-- A thread ends that has left its queue or the processor. -/
theorem Kept.ended (kept : Kept setting alarms members all)
    (running : Running alarms.world.kernel.sched alarms.world.alive)
    (mem : thread ∈ alarms.world.alive) (notIdle : thread ≠ setting.idle)
    (unowned : Unowned setting.lasting thread alarms)
    (parting : Parting setting.idle alarms.world kernel members members' all thread)
    (ended : World.endAndRelease thread status { alarms.world with kernel := kernel } =
      .ok world') :
    Ready setting { alarms with world := world' } ∧
      (thread ≠ alarms.world.activeThread → Holds setting { alarms with world := world' }) ∧
      world'.activeThread = alarms.world.activeThread := by
  obtain ⟨kernel', members'', all', result, spec⟩ :=
    @Ledger.endAndRelease kernel setting.idle thread alarms.world.alive members' all status
      parting.ledger parting.sound mem notIdle
  unfold World.endAndRelease at ended
  dsimp only at ended
  rw [result] at ended
  obtain rfl := Except.ok.inj ended
  dsimp only
  generalize afterIs : ({ alarms.world with
    kernel := kernel'
    life := Function.update alarms.world.life thread
      (if (kernel'.thread thread).refCnt = 0 then .free else .ended) } : World) = after
  have isKernel : after.kernel = kernel' := afterIs ▸ rfl
  have life : after.life = Function.update alarms.world.life thread
    (if (kernel'.thread thread).refCnt = 0 then .free else .ended) := afterIs ▸ rfl
  obtain ⟨threads, alive⟩ := parting.ended kept.threads mem spec life isKernel
  have descriptor : ∀ other, after.thread other = kernel'.thread other := by
    intro other
    unfold World.thread
    rw [isKernel]
  have activeThread : after.activeThread = alarms.world.activeThread := by
    unfold World.activeThread
    rw [isKernel]
    exact spec.activeThread.trans parting.activeThread
  have isActive : (alarms.world.thread alarms.world.activeThread).state = .active := running.active
  -- the active thread is in no queue, so it is not released with those that wait for the thread
  have stays : alarms.world.activeThread ≠ thread →
      after.thread alarms.world.activeThread = alarms.world.thread alarms.world.activeThread := by
    intro different
    have notIn : alarms.world.activeThread ∉ members' (.join thread) := fun inQueue =>
      kept.threads.sound.active_free isActive ((parting.fewer (.join thread) rfl).subset inQueue)
    rw [descriptor, spec.others _ different notIn, parting.others _ different]
  have kept' : Kept setting { alarms with world := after } members'' all' := by
    apply kept.regroup threads (alive ▸ Set.sdiff_subset)
    · intro id live notRr active
      have marked : alarms.Marked id := by
        obtain ⟨entries, listed⟩ := kept.table.list
        exact (listed.marked_iff id).mpr live
      rw [alive]
      exact ⟨kept.users.owners id live notRr active, unowned id marked active⟩
    · exact afterIs ▸ rfl
    · exact afterIs ▸ rfl
    · exact afterIs ▸ rfl
    · intro id
      rw [spec.waiting (.alarm id) rfl (by simp)]
      exact parting.fewer (.alarm id) rfl
    · exact activeThread
    · exact fun _ => isActive
    · intro other
      rw [descriptor, spec.activated, parting.activated]
  have holds : thread ≠ alarms.world.activeThread → Holds setting { alarms with world := after } := by
    intro different
    have active : after.kernel.sched.activeThread = alarms.world.activeThread := activeThread
    refine ⟨members'', all', kept', ?_, ?_⟩
    · rw [alive, active]
      exact ⟨running.mem_alive, different.symm⟩
    · rw [active]
      exact (congrArg Thread.state (stays different.symm)).trans isActive
  refine ⟨?_, holds, activeThread⟩
  by_cases same : thread = alarms.world.activeThread
  · have passive : (after.thread alarms.world.activeThread).state = .passive := by
      rw [← same, descriptor, spec.state]
      exact parting.passive same
    refine ⟨members'', all', kept', ?_, ?_⟩
    all_goals
      intro state
      rw [activeThread, passive] at state
      cases state
  · exact (holds same).ready

/-- A thread that has left its queue or the processor. -/
def Leaving (setting : Setting) (thread : Ptr) (alarms' : Alarms World) : Prop :=
  ∃ alarms kernel members members' all, Kept setting alarms members all ∧
    Running alarms.world.kernel.sched alarms.world.alive ∧ thread ∈ alarms.world.alive ∧
    thread ≠ setting.idle ∧ Unowned setting.lasting thread alarms ∧
    Parting setting.idle alarms.world kernel members members' all thread ∧
    alarms' = { alarms with world := { alarms.world with kernel := kernel } }

theorem finishCancel_spec (nested : Nested call) (thread : Ptr) (status : Int) :
    Ensures call (Leaving setting thread) (World.finishCancel thread status)
      fun _ => Holds setting := by
  unfold World.finishCancel
  refine Ensures.bind ?_ fun _ => kthreadsSchedule_spec nested
  refine Ensures.attempt.mono ?_ fun _ _ post => post
  rintro _ ⟨alarms, kernel, members, members', all, kept, running, mem, notIdle, unowned, parting,
    rfl⟩ world ended
  exact (kept.ended running mem notIdle unowned parting ended).1

/-- `kthread_cancel` may be called for the thread: it has ended by itself, or it is alive and
no alarm belongs to it. -/
def MayEnd (idle : Ptr) (lasting : Prop) (thread : Ptr) (alarms : Alarms World) : Prop :=
  (alarms.world.thread thread).state = .passive ∨
    thread ∈ alarms.world.alive ∧ thread ≠ idle ∧ Unowned lasting thread alarms

theorem MayEnd.alive {idle : Ptr} {lasting : Prop} (may : MayEnd idle lasting thread alarms)
    (notPassive : (alarms.world.thread thread).state ≠ .passive) :
    thread ∈ alarms.world.alive ∧ thread ≠ idle ∧ Unowned lasting thread alarms :=
  may.resolve_left notPassive

/-- A ready thread leaves its queue in `kthread_cancel`. -/
theorem Holds.leaveReady (holds : Holds setting alarms)
    (may : MayEnd setting.idle setting.lasting thread alarms)
    (ready : (alarms.world.thread thread).state = .ready)
    (left : World.leaveReady thread alarms.world = .ok world') :
    Leaving setting thread { alarms with world := world' } ∧
      world'.activeThread = alarms.world.activeThread ∧ thread ≠ alarms.world.activeThread := by
  obtain ⟨members, all, kept, running⟩ := holds
  obtain ⟨mem, notIdle, unowned⟩ := may.alive (by rw [ready]; decide)
  obtain ⟨kernel, members', rfl, parting⟩ := kept.threads.parting_ready running mem ready left
  refine ⟨⟨alarms, kernel, members, members', all, kept, running, mem, notIdle, unowned, parting,
    rfl⟩, parting.activeThread, ?_⟩
  rintro rfl
  exact absurd (ready.symm.trans running.active) (by decide)

/-- A waiting thread leaves its queue in `kthread_cancel`. -/
theorem Holds.leaveWait (holds : Holds setting alarms)
    (may : MayEnd setting.idle setting.lasting thread alarms)
    (waits : (alarms.world.thread thread).state = .wait)
    (left : (alarms.world.kernel.leaveQueue thread).map
      (fun kernel => { alarms.world with kernel := kernel }) = .ok world') :
    Leaving setting thread { alarms with world := world' } ∧
      world'.activeThread = alarms.world.activeThread ∧ thread ≠ alarms.world.activeThread := by
  obtain ⟨members, all, kept, running⟩ := holds
  obtain ⟨mem, notIdle, unowned⟩ := may.alive (by rw [waits]; decide)
  obtain ⟨kernel, members', rfl, parting⟩ := kept.threads.parting_wait running mem waits left
  refine ⟨⟨alarms, kernel, members, members', all, kept, running, mem, notIdle, unowned, parting,
    rfl⟩, parting.activeThread, ?_⟩
  rintro rfl
  exact absurd (waits.symm.trans running.active) (by decide)

theorem Holds.dismiss (holds : Holds setting alarms)
    (may : MayEnd setting.idle setting.lasting thread alarms)
    (active : (alarms.world.thread thread).state = .active) :
    Leaving setting thread (alarms.onWorld fun world => world.onKernel fun kernel =>
      kernel.setThread thread fun descriptor => { descriptor with state := .passive }) := by
  obtain ⟨members, all, kept, running⟩ := holds
  obtain ⟨mem, notIdle, unowned⟩ := may.alive (by rw [active]; decide)
  exact ⟨alarms, _, members, members, all, kept, running, mem, notIdle, unowned,
    kept.threads.parting_active active, rfl⟩

/-- `kthread_cancel`. -/
theorem kthreadCancel_spec (nested : Nested call) (thread : Ptr) (status : Int) :
    Ensures call (fun alarms => Holds setting alarms ∧ MayEnd setting.idle setting.lasting thread alarms)
      (World.kthreadCancel thread status) fun _ => Holds setting := by
  unfold World.kthreadCancel
  refine Ensures.bind Ensures.read fun world => ?_
  split
  · exact Ensures.pure.mono (fun _ pre => pre.2.1) fun _ _ post => post
  · rename_i ready
    refine Ensures.bind ?_ fun _ => finishCancel_spec nested thread status
    refine Ensures.attempt.mono ?_ fun _ _ post => post
    rintro alarms ⟨rfl, holds, may⟩ world' left
    exact (holds.leaveReady may ready left).1
  · rename_i isWaiting
    refine Ensures.bind ?_ fun _ => finishCancel_spec nested thread status
    refine Ensures.attempt.mono ?_ fun _ _ post => post
    rintro alarms ⟨rfl, holds, may⟩ world' left
    exact (holds.leaveWait may isWaiting left).1
  · rename_i active
    apply Ensures.ite
    · exact fun _ => Ensures.pure.mono (fun _ pre => pre.2.1) fun _ _ post => post
    · intro _
      refine Ensures.bind ?_ fun _ => finishCancel_spec nested thread status
      refine Ensures.modify.mono ?_ fun _ _ post => post
      rintro alarms ⟨rfl, holds, may⟩
      exact holds.dismiss may active

theorem sysThreadExit_spec (nested : Nested call) (status : Int) :
    Ensures call
      (fun alarms => Holds setting alarms ∧
        MayEnd setting.idle setting.lasting alarms.world.activeThread alarms)
      (World.sysThreadExit status) fun _ => Holds setting := by
  unfold World.sysThreadExit
  refine Ensures.bind Ensures.read fun world => Ensures.bind ?_ fun _ => reschedule_spec nested
  refine (kthreadCancel_spec nested world.activeThread status).mono ?_ fun _ _ post => post
  rintro alarms ⟨rfl, holds, may⟩
  exact ⟨holds, may⟩

/-- `sys__cancel_thread` of a thread that is not cancelled. -/
theorem sysCancelThread_spec (handle : Handle) :
    Ensures call
      (fun alarms => Holds setting alarms ∧
        (handle.thread = 0 ∨ (alarms.world.thread handle.thread).id ≠ handle.thrId ∨
          (alarms.world.thread handle.thread).state = .passive ∨
          (alarms.world.thread handle.thread).state = .active))
      (World.sysCancelThread handle) fun _ => Holds setting := by
  unfold World.sysCancelThread
  refine Ensures.bind Ensures.read fun world => ?_
  have noted : ∀ errnum, Ensures call
      (fun alarms => world = alarms.world ∧ Holds setting alarms ∧
        (handle.thread = 0 ∨ (alarms.world.thread handle.thread).id ≠ handle.thrId ∨
          (alarms.world.thread handle.thread).state = .passive ∨
          (alarms.world.thread handle.thread).state = .active))
      (World.setErrno errnum) fun _ => Holds setting := fun errnum =>
    (setErrno_spec errnum).mono (fun _ pre => pre.2.1) fun _ _ post => post
  have never : (world.thread handle.thread).state = .ready ∨
      (world.thread handle.thread).state = .wait → handle.thread ≠ 0 →
      (world.thread handle.thread).id = handle.thrId →
      ∀ prog : Prog World Unit, Ensures call
        (fun alarms => world = alarms.world ∧ Holds setting alarms ∧
          (handle.thread = 0 ∨ (alarms.world.thread handle.thread).id ≠ handle.thrId ∨
            (alarms.world.thread handle.thread).state = .passive ∨
            (alarms.world.thread handle.thread).state = .active)) prog fun _ => Holds setting := by
    rintro state nonzero sameId prog alarms ran ⟨rfl, -, ended⟩ -
    rcases ended with isNull | otherId | passive | active
    · exact absurd isNull nonzero
    · exact absurd sameId otherId
    · rw [passive] at state
      simp at state
    · rw [active] at state
      simp at state
  apply Ensures.ite
  · exact fun _ => noted _
  intro nonzero
  apply Ensures.ite
  · exact fun _ => noted _
  intro sameId
  split
  · exact noted _
  · exact noted _
  · exact never (.inl ‹_›) nonzero (not_not.mp sameId) _
  · exact never (.inr ‹_›) nonzero (not_not.mp sameId) _

end Ended

end Oseer
