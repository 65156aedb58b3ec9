import Oseer.Bystanders
import Oseer.Lifetimes

/-!
# The effect of `kthread_cancel`

A thread that is cancelled leaves its queue or the processor, and its descriptor is freed
or kept for the threads that are counted in it.  Only the active thread gets the state
`THR_STATE_PASSIVE`: the descriptor of another one that is kept says still that the thread is
ready or waits.
-/

namespace Oseer

open LinkedRing Results Prog Alarms

variable {setting : Setting} {alarms before after first last : Alarms World}
  {members members' members'' : Members} {all all' : List Ptr} {thread other : Ptr}
  {world world' : World} {kernel kernel' : Kernel} {call : AlarmCall World}
  {status : Int} {ran : Unit × Alarms World} {idle rrAlarm : Ptr} {threshold : Time} {fuel : Nat}

/-- The descriptor is in the list of all threads. -/
def World.Listed (world : World) (thread : Ptr) : Prop :=
  ∃ all, world.kernel.allThreads.Linked (fun _ => all) ∧ thread ∈ all

/-- The thread waits for the end of another one. -/
def World.Joins (world : World) (thread other : Ptr) : Prop :=
  other ∈ world.alive ∧ (world.thread other).state = .wait ∧
    (world.thread other).queue = some (.join thread)

/-- The descriptor is kept, with the status, for the threads that are counted in it. -/
structure World.Passive (before after : World) (thread : Ptr) (status : Int) : Prop where
  state : (after.thread thread).state = .passive
  exitStatus : (after.thread thread).exitStatus = status
  noneJoins : after.kernel.sched.kthreadqGet (.join thread) = 0
  woken : ∀ other, before.Joins thread other →
    (after.thread other).state = .ready ∨ (after.thread other).state = .active

/-- What `kthread_cancel` is to do with a thread. -/
structure Cancelled (before : World) (after : Alarms World) (thread : Ptr) (status : Int) :
    Prop where
  unlinked : after.world.Unlinked thread
  gone : thread ∈ after.world.kernel.kfreed ∧ ¬ after.world.Listed thread ∨
    before.Passive after.world thread status
  cancelAgain : after.world.Listed thread → ∀ threshold fuel again,
    World.enter threshold fuel (.kthreadCancel thread again) after =
      .ok (World.clearRecord after)
  waitAgain : ∀ threshold fuel wait last,
    World.enter threshold fuel
      (.waitForThread ⟨thread, (before.thread thread).id⟩ wait) after = .ok last →
    last.world.activeThread = after.world.activeThread ∧
      (last.world.thread last.world.activeThread).state = .active

section Leave

theorem Kernel.leaveQueue_same (left : kernel.leaveQueue thread = .ok kernel') :
    kernel'.thread = kernel.thread ∧ kernel'.kfreed = kernel.kfreed := by
  unfold Kernel.leaveQueue at left
  split at left
  · cases left
  · obtain rfl := Except.ok.inj left
    exact ⟨rfl, rfl⟩

theorem World.leaveReady_same (left : world.leaveReady thread = .ok world') :
    world'.thread = world.thread ∧ world'.kernel.kfreed = world.kernel.kfreed := by
  obtain ⟨kernel, leaves, rfl⟩ := map_ok left
  have same := Kernel.leaveQueue_same leaves
  unfold World.thread Sched.markIfEmpty
  split <;> exact same

/-- What is left in the descriptor of a thread when it leaves its queue or the processor. -/
def Thread.leaving (descriptor : Thread) : Thread :=
  { descriptor with
    state := if descriptor.state = .active then .passive else descriptor.state }

theorem Thread.leaving_inactive {descriptor : Thread} (inactive : descriptor.state ≠ .active) :
    descriptor.leaving = descriptor := by
  unfold Thread.leaving
  rw [if_neg inactive]

/-- `kthread_cancel` takes the thread out of its queue or off the processor, and ends it. -/
theorem Kept.kthreadCancel_parts (kept : Kept setting alarms members all)
    (running : Running alarms.world.kernel.sched alarms.world.alive)
    (mem : thread ∈ alarms.world.alive)
    (runs : (World.kthreadCancel thread status).run call alarms = .ok ran) :
    ∃ kernel members', Parting setting.idle alarms.world kernel members members' all thread ∧
      kernel.thread thread = (alarms.world.thread thread).leaving ∧
      kernel.kfreed = alarms.world.kernel.kfreed ∧
      ∃ world, World.endAndRelease thread status { alarms.world with kernel := kernel } =
          .ok world ∧
        World.kthreadsSchedule.run call { alarms with world := world } = .ok ran := by
  unfold World.kthreadCancel at runs
  rw [run_get] at runs
  split at runs
  · rename_i passive
    rcases kept.threads.sound.located thread mem with ⟨active, -⟩ | ⟨queue, inQueue⟩
    · exact absurd (active.symm.trans passive) (by decide)
    · have inState := (kept.threads.sound.placed queue thread inQueue).inState
      have isPassive : queue.state = .passive := inState.symm.trans passive
      cases queue <;> cases isPassive
  · rename_i isReady
    rw [run_attempt] at runs
    obtain ⟨world, left, runs⟩ := bind_ok runs
    obtain ⟨sameThread, kfreed⟩ := World.leaveReady_same left
    obtain ⟨kernel, members', rfl, parting⟩ :=
      kept.threads.parting_ready running mem isReady left
    rw [finishCancel_eq, run_attempt] at runs
    refine ⟨kernel, members', parting, ?_, kfreed, bind_ok runs⟩
    rw [Thread.leaving_inactive (by rw [isReady]; decide)]
    exact congrFun sameThread thread
  · rename_i isWaiting
    rw [run_attempt] at runs
    obtain ⟨world, left, runs⟩ := bind_ok runs
    have same : world.thread = alarms.world.thread ∧
        world.kernel.kfreed = alarms.world.kernel.kfreed := by
      obtain ⟨kernel, leaves, rfl⟩ := map_ok left
      exact Kernel.leaveQueue_same leaves
    obtain ⟨kernel, members', rfl, parting⟩ :=
      kept.threads.parting_wait running mem isWaiting left
    rw [finishCancel_eq, run_attempt] at runs
    refine ⟨kernel, members', parting, ?_, same.2, bind_ok runs⟩
    rw [Thread.leaving_inactive (by rw [isWaiting]; decide)]
    exact congrFun same.1 thread
  · rename_i active
    have isActive : thread = alarms.world.activeThread := by
      rcases kept.threads.sound.located thread mem with ⟨-, isActive⟩ | ⟨queue, inQueue⟩
      · exact isActive
      · exact absurd inQueue (kept.threads.sound.active_free active)
    rw [if_neg (not_not.mpr isActive), run_modify, finishCancel_eq, run_attempt] at runs
    refine ⟨_, members, kept.threads.parting_active active, ?_, rfl, bind_ok runs⟩
    rw [Kernel.setThread_same]
    unfold Thread.leaving
    rw [if_pos active]
    rfl

end Leave

section End

/-- The descriptor keeps its status, and its identifier unless it is freed. -/
theorem Kernel.releaseDescriptor_remains
    (releases : kernel.releaseDescriptor thread = .ok kernel') :
    (kernel'.thread thread).exitStatus = (kernel.thread thread).exitStatus ∧
      (kernel'.thread thread).id =
        if (kernel.thread thread).refCnt = 0 then 0 else (kernel.thread thread).id := by
  unfold Kernel.releaseDescriptor at releases
  split_ifs at releases with unused
  · obtain ⟨freed, frees, rfl⟩ := map_ok releases
    unfold Kernel.kFreeUniqueId at frees
    split_ifs at frees
    obtain rfl := Except.ok.inj frees
    rw [if_pos unused]
    unfold Kernel.thread Kernel.kfree Kernel.setThread
    dsimp only
    rw [Sched.setThread_same]
    exact ⟨rfl, rfl⟩
  · obtain rfl := Except.ok.inj releases
    have data : ((kernel.kthreadqReleaseAll (.join thread)).2.thread thread).toThreadData =
        (kernel.thread thread).toThreadData :=
      SameData.releaseLoop (.join thread) addressCount kernel.sched thread
    rw [if_neg unused]
    exact ⟨congrArg ThreadData.exitStatus data, congrArg ThreadData.id data⟩

/-- What is left in the descriptor after the thread has ended. -/
theorem Kernel.endAndRelease_remains (ended : kernel.endAndRelease thread status = .ok kernel') :
    (kernel'.thread thread).exitStatus = status ∧
      (kernel'.thread thread).refCnt = (kernel.thread thread).refCnt - 1 ∧
      ((kernel.thread thread).refCnt = 1 →
        thread ∈ kernel'.kfreed ∧ (kernel'.thread thread).id = 0) := by
  obtain ⟨released, resources, ended⟩ := bind_ok ended
  have core := Kernel.releaseResources_core resources
  have descriptor : released.thread thread = { kernel.thread thread with
      refCnt := (kernel.thread thread).refCnt - 1, exitStatus := status } := by
    unfold Kernel.thread
    rw [core.sched]
    exact Kernel.endThread_thread
  obtain ⟨exitStatus, id⟩ := Kernel.releaseDescriptor_remains ended
  obtain ⟨kfreed, -, -, -, -, holdings⟩ := Kernel.releaseDescriptor_effect ended
  have refCnt : (kernel'.thread thread).refCnt = (released.thread thread).refCnt :=
    congrArg (fun held : Ptr × Ptr × Int => held.2.2) (holdings thread)
  have isCount : (released.thread thread).refCnt = (kernel.thread thread).refCnt - 1 := by
    rw [descriptor]
  refine ⟨?_, refCnt.trans isCount, fun one => ?_⟩
  · rw [exitStatus, descriptor]
  · have unused : (released.thread thread).refCnt = 0 := by omega
    rw [kfreed, id, if_pos unused, if_pos unused]
    exact ⟨List.mem_cons_self, rfl⟩

/-- The state of the kernel after the thread has ended, and before others are scheduled. -/
structure Dead (setting : Setting) (before after : World) (thread : Ptr) (status : Int)
    (members'' : Members) (all' : List Ptr) : Prop where
  threads : Threads setting.idle setting.waits after members'' all'
  alive : after.alive = before.alive \ {thread}
  remains : (after.thread thread).state = (before.thread thread).leaving.state ∧
    (after.thread thread).exitStatus = status ∧
    (after.thread thread).refCnt = (before.thread thread).refCnt - 1
  freed : (before.thread thread).refCnt = 1 →
    thread ∈ after.kernel.kfreed ∧ (after.thread thread).id = 0
  life : after.life thread = if (before.thread thread).refCnt = 1 then .free else .ended
  woken : ∀ other, before.Joins thread other → other ≠ thread →
    (after.thread other).state = .ready

theorem Threads.mem_join {idle : Ptr} {waits : Set Ptr}
    (threads : Threads idle waits world members all) (joins : world.Joins thread other) :
    other ∈ members (.join thread) := by
  obtain ⟨mem, isWaiting, names⟩ := joins
  obtain ⟨queue, -, inQueue⟩ := (threads.wait_iff mem).mp isWaiting
  have isQueue : (world.thread other).queue = some queue :=
    (threads.sound.placed queue other inQueue).names
  rw [names] at isQueue
  obtain rfl := Option.some.inj isQueue
  exact inQueue

/-- A thread ends that has left its queue or the processor. -/
theorem Kept.dead (kept : Kept setting alarms members all)
    (running : Running alarms.world.kernel.sched alarms.world.alive)
    (mem : thread ∈ alarms.world.alive)
    (notIdle : thread ≠ setting.idle)
    (parting : Parting setting.idle alarms.world kernel members members' all thread)
    (descriptor : kernel.thread thread = (alarms.world.thread thread).leaving)
    (ended : World.endAndRelease thread status { alarms.world with kernel := kernel } =
      .ok world') :
    ∃ members'' all', Dead setting alarms.world world' thread status members'' all' := by
  obtain ⟨kernel', members'', all', result, spec⟩ :=
    @Ledger.endAndRelease kernel setting.idle thread alarms.world.alive members' all status
      parting.ledger parting.sound mem notIdle
  unfold World.endAndRelease at ended
  dsimp only at ended
  rw [result] at ended
  obtain rfl := Except.ok.inj ended
  dsimp only
  obtain ⟨exitStatus, refCnt, freed⟩ := Kernel.endAndRelease_remains result
  generalize afterIs : ({ alarms.world with
    kernel := kernel'
    life := Function.update alarms.world.life thread
      (if (kernel'.thread thread).refCnt = 0 then .free else .ended) } : World) = after
  have isKernel : after.kernel = kernel' := afterIs ▸ rfl
  have life : after.life = Function.update alarms.world.life thread
    (if (kernel'.thread thread).refCnt = 0 then .free else .ended) := afterIs ▸ rfl
  obtain ⟨threads, alive⟩ := parting.ended kept.threads mem spec life isKernel
  have here : ∀ other, after.thread other = kernel'.thread other := by
    intro other
    unfold World.thread
    rw [isKernel]
  have counted : (kernel.thread thread).refCnt = (alarms.world.thread thread).refCnt := by
    rw [descriptor]
    rfl
  rw [counted] at refCnt freed
  refine ⟨members'', all', threads, alive, ?_, ?_, ?_, fun other joins different => ?_⟩
  · rw [here, spec.state, descriptor]
    exact ⟨rfl, exitStatus, refCnt⟩
  · rw [here, isKernel]
    exact freed
  · rw [life, Function.update_self, refCnt]
    simp only [sub_eq_zero]
  · have inJoin := kept.threads.mem_join joins
    have inAlive : other ∈ after.alive := alive ▸ ⟨joins.1, different⟩
    rcases threads.sound.located other inAlive with ⟨-, isActive⟩ | ⟨queue, inQueue⟩
    · have sameActive : after.kernel.sched.activeThread = alarms.world.activeThread := by
        rw [isKernel]
        exact spec.activeThread.trans parting.activeThread
      have active : (alarms.world.thread other).state = .active := by
        rw [isActive, sameActive]
        exact running.active
      exact absurd (active.symm.trans joins.2.1) (by decide)
    · have inState : (after.thread other).state = queue.state :=
        (threads.sound.placed queue other inQueue).inState
      by_cases isWait : queue.state = .wait
      · by_cases isJoin : queue = .join thread
        · rw [isJoin, spec.empty] at inQueue
          cases inQueue
        · rw [spec.waiting queue isWait isJoin] at inQueue
          have wasIn := (parting.fewer queue isWait).subset inQueue
          exact absurd (kept.threads.sound.mem_unique wasIn inJoin) isJoin
      · rw [inState]
        cases queue <;> first | rfl | exact absurd rfl isWait

theorem Ready.onlyWaiting (ready : Ready setting alarms) :
    Ready { setting with waits := {thread | thread ∈ alarms.world.alive ∧
      (alarms.world.thread thread).state = .wait} } alarms := by
  obtain ⟨members, all, kept, poised⟩ := ready
  refine ⟨members, all, ⟨?_, { kept.table with }, { kept.users with }, { kept.slices with },
    kept.events⟩, poised⟩
  exact { kept.threads with waiting := fun thread mem isWaiting => ⟨mem, isWaiting⟩ }

theorem Threads.ready_or_active {idle : Ptr} {waits : Set Ptr}
    (threads : Threads idle waits world members all) (mem : thread ∈ world.alive)
    (free : thread ∉ waits) :
    (world.thread thread).state = .ready ∨ (world.thread thread).state = .active := by
  have notWaiting : (world.thread thread).state ≠ .wait := fun isWaiting =>
    free (threads.waiting thread mem isWaiting)
  rcases threads.sound.located thread mem with ⟨active, -⟩ | ⟨queue, inQueue⟩
  · exact .inr active
  · have inState : (world.thread thread).state = queue.state :=
      (threads.sound.placed queue thread inQueue).inState
    rw [inState] at notWaiting ⊢
    cases queue <;> first | exact .inl rfl | exact absurd rfl notWaiting

/-- What holds after others are scheduled. -/
structure Left (setting : Setting) (before : World) (after : Alarms World) (thread : Ptr)
    (status : Int) : Prop where
  holds : Holds setting after
  dead : after.world.life thread = if (before.thread thread).refCnt = 1 then .free else .ended
  state : (after.world.thread thread).state = (before.thread thread).leaving.state
  exitStatus : (after.world.thread thread).exitStatus = status
  freed : (before.thread thread).refCnt = 1 →
    thread ∈ after.world.kernel.kfreed ∧ (after.world.thread thread).id = 0
  woken : ∀ other, before.Joins thread other → other ≠ thread →
    (after.world.thread other).state = .ready ∨ (after.world.thread other).state = .active

/-- A call of `kthread_cancel`, from the first to the last. -/
theorem Holds.kthreadCancel_left {setting : Setting} (holds : Holds setting alarms)
    (mem : thread ∈ alarms.world.alive) (notIdle : thread ≠ setting.idle)
    (unowned : Unowned setting.lasting thread alarms)
    (runs : (World.kthreadCancel thread status).run
      (Alarms.kAlarmSet (World.host threshold) fuel) alarms = .ok ran) :
    alarms.world.supplied ≤ ran.2.world.supplied ∧
      (alarms.world.Gives ran.2.world thread → (alarms.world.thread thread).refCnt = 1) ∧
      (¬ alarms.world.Gives ran.2.world thread →
        Left setting alarms.world ran.2 thread status) := by
  obtain ⟨members, all, kept, running⟩ := holds
  obtain ⟨kernel, members', parting, descriptor, kfreed, world, ended, schedules⟩ :=
    kept.kthreadCancel_parts running mem runs
  have ready := (kept.ended running mem notIdle unowned parting ended).1
  obtain ⟨members'', all', dead⟩ := kept.dead running mem notIdle parting descriptor ended
  have nested := kAlarmSet_nested threshold fuel
  have grows := kthreadsSchedule_grows (kAlarmSet_grows threshold fuel) _ ran ready schedules
  have waiters := kthreadsSchedule_spec nested _ ran ready.onlyWaiting schedules
  have holds := kthreadsSchedule_spec nested _ ran ready schedules
  have supply : world.supply = alarms.world.supply ∧ world.supplied = alarms.world.supplied := by
    obtain ⟨kernel', -, rfl⟩ := map_ok ended
    exact ⟨rfl, rfl⟩
  have gives : alarms.world.Gives ran.2.world thread ↔ world.Gives ran.2.world thread := by
    unfold World.Gives
    rw [supply.1, supply.2]
  rw [gives]
  refine ⟨supply.2 ▸ grows.supplied, fun given => ?_, fun kept => ?_⟩
  · have isFree : world.life thread = .free := (grows.given thread given).1
    by_contra used
    rw [dead.life, if_neg used] at isFree
    cases isFree
  · have notLiving : world.life thread ≠ .living := by
      rw [dead.life]
      split <;> decide
    obtain ⟨life, same⟩ := grows.spent thread notLiving kept
    unfold Thread.remains at same
    simp only [Prod.mk.injEq] at same
    obtain ⟨state, exitStatus, -, id⟩ := same
    refine ⟨holds, life.trans dead.life, state.trans dead.remains.1,
      exitStatus.trans dead.remains.2.1, fun one => ?_, fun other joins different => ?_⟩
    · obtain ⟨inFreed, isZero⟩ := dead.freed one
      have kfreed' : ran.2.world.kernel.kfreed = world.kernel.kfreed := grows.kfreed
      rw [kfreed', id]
      exact ⟨inFreed, isZero⟩
    · have isReady := dead.woken other joins different
      have inAlive : other ∈ world.alive := dead.alive ▸ ⟨joins.1, different⟩
      obtain ⟨members, all, keptAfter, -⟩ := waiters
      refine keptAfter.threads.ready_or_active (grows.living other inAlive) ?_
      rintro ⟨-, isWaiting⟩
      exact absurd (isReady.symm.trans isWaiting) (by decide)

end End

section Effect

theorem Holds.listed_iff (holds : Holds setting alarms) :
    alarms.world.Listed thread ↔ alarms.world.life thread ≠ .free := by
  obtain ⟨members, all, kept, -⟩ := holds
  rw [← kept.threads.listed]
  constructor
  · rintro ⟨all', linked, mem⟩
    have same := linked.unique kept.threads.ledger.listed
    exact same () ▸ mem
  · exact fun mem => ⟨all, kept.threads.ledger.listed, mem⟩

theorem World.enter_kthreadCancel_passive (threshold : Time) (fuel : Nat) (again : Int)
    (passive : (after.world.thread thread).state = .passive) :
    World.enter threshold fuel (.kthreadCancel thread again) after =
      .ok (World.clearRecord after) := by
  have isPassive : ((World.clearRecord after).world.thread thread).state = .passive := passive
  change World.perform threshold fuel (World.kthreadCancel thread again)
    (World.clearRecord after) = _
  unfold World.perform World.kthreadCancel
  rw [run_get, isPassive]
  rfl

theorem World.collectStatus_activeThread (collected : world.collectStatus thread = .ok world') :
    world'.activeThread = world.activeThread := by
  unfold World.collectStatus at collected
  dsimp only at collected
  split_ifs at collected
  · obtain ⟨kernel, removed, rfl⟩ := map_ok collected
    obtain ⟨freed, frees, rfl⟩ := map_ok removed
    unfold Kernel.kFreeUniqueId at frees
    split_ifs at frees
    obtain rfl := Except.ok.inj frees
    rfl
  · obtain rfl := Except.ok.inj collected
    rfl

/-- A wait for a thread that has ended, or whose descriptor is freed, does not block. -/
theorem Holds.enter_waitForThread {id : Nat} {wait : Bool}
    (holds : Holds setting (World.clearRecord after))
    (gone : (after.world.thread thread).id = id → after.world.life thread ≠ .free ∧
      (after.world.thread thread).state = .passive)
    (waits : World.enter threshold fuel (.waitForThread ⟨thread, id⟩ wait) after = .ok last) :
    last.world.activeThread = after.world.activeThread ∧
      (last.world.thread last.world.activeThread).state = .active := by
  obtain ⟨ran, runs, rfl⟩ := map_ok waits
  have noted : ∀ errnum, Holds setting ((World.clearRecord after).onWorld
      (World.onKernel (Kernel.setErrno errnum))) := fun errnum => holds.setErrno errnum
  have quiet : ∀ errnum, (World.setErrno errnum).run
      (Alarms.kAlarmSet (World.host threshold) fuel) (World.clearRecord after) = .ok ran →
      ran.2.world.activeThread = after.world.activeThread ∧
        (ran.2.world.thread ran.2.world.activeThread).state = .active := by
    intro errnum runs
    obtain rfl := Except.ok.inj runs
    obtain ⟨members, all, -, running⟩ := noted errnum
    exact ⟨rfl, running.active⟩
  unfold World.sysWaitForThread at runs
  rw [run_get] at runs
  by_cases isNull : thread = 0
  · rw [if_pos isNull] at runs
    exact quiet _ runs
  rw [if_neg isNull] at runs
  by_cases sameId : (after.world.thread thread).id = id
  · obtain ⟨exists', passive⟩ := gone sameId
    have isId : ¬ ((World.clearRecord after).world.thread thread).id ≠ id := not_not.mpr sameId
    have isPassive : ¬ ((World.clearRecord after).world.thread thread).state ≠ .passive :=
      not_not.mpr passive
    rw [if_neg isId, if_neg isPassive] at runs
    change (Prog.modify (World.onKernel (Kernel.setErrno SUCCESS)) >>= fun _ =>
      Prog.attempt (World.collectStatus thread)).run _ _ = _ at runs
    rw [run_modify] at runs
    obtain ⟨world, collected, ends⟩ := bind_ok runs
    obtain rfl := Except.ok.inj ends
    have notedPassive : (((World.clearRecord after).onWorld
        (World.onKernel (Kernel.setErrno SUCCESS))).world.thread thread).state = .passive :=
      (Kernel.setThread_field Thread.state rfl).trans passive
    obtain ⟨members, all, -, running⟩ :=
      (noted SUCCESS).collectStatus notedPassive exists' collected
    have sameActive := World.collectStatus_activeThread collected
    exact ⟨sameActive, running.active⟩
  · have isOther : ((World.clearRecord after).world.thread thread).id ≠ id := sameId
    rw [if_pos isOther] at runs
    exact quiet _ runs

/-- What is left of a thread that was active or that nobody else was counted in is what
`kthread_cancel` is to leave. -/
theorem Left.cancelled {setting : Setting} (left : Left setting world after thread status)
    (known : 0 < (world.thread thread).id)
    (cleared : ∃ setting', Holds setting' (World.clearRecord after))
    (sole : (world.thread thread).state = .active ∨
      (world.thread thread).refCnt = 1) :
    Cancelled world after thread status := by
  obtain ⟨holds, dead, state, exitStatus, freed, woken⟩ := left
  have listed := @Holds.listed_iff _ _ thread holds
  obtain ⟨members, all, kept, -⟩ := holds
  have notMem : thread ∉ after.world.alive := by
    change ¬ after.world.life thread = .living
    rw [dead]
    split <;> decide
  -- a descriptor that is kept is that of the active thread
  have passive : (world.thread thread).refCnt ≠ 1 →
      (after.world.thread thread).state = .passive := by
    intro counted
    rw [state]
    exact if_pos (sole.resolve_right counted)
  refine ⟨⟨members, kept.threads.sound.linked, fun queue inQueue =>
    notMem (kept.threads.sound.mem_alive queue thread inQueue)⟩, ?_, ?_, ?_⟩
  · by_cases one : (world.thread thread).refCnt = 1
    · rw [if_pos one] at dead
      exact .inl ⟨(freed one).1, fun isListed => listed.mp isListed dead⟩
    · have isActive := sole.resolve_right one
      have empty := kept.threads.finished thread notMem (passive one)
      have first := kept.threads.sound.linked.listGet_first (.join thread)
      rw [empty] at first
      refine .inr ⟨passive one, exitStatus, first, fun other joins => woken other joins ?_⟩
      rintro rfl
      exact absurd (isActive.symm.trans joins.2.1) (by decide)
  · intro isListed threshold fuel again
    apply World.enter_kthreadCancel_passive
    apply passive
    intro one
    rw [if_pos one] at dead
    exact listed.mp isListed dead
  · intro threshold fuel wait last waits
    obtain ⟨setting', holds⟩ := cleared
    refine holds.enter_waitForThread (fun sameId => ?_) waits
    have counted : (world.thread thread).refCnt ≠ 1 := by
      intro one
      rw [(freed one).2] at sameId
      omega
    refine ⟨?_, passive counted⟩
    rw [dead, if_neg counted]
    decide

/-- What is left of another thread is not. -/
theorem Left.not_cancelled {setting : Setting}
    (left : Left setting world after thread status)
    (notPassive : (world.thread thread).state ≠ .passive)
    (inactive : (world.thread thread).state ≠ .active)
    (counted : (world.thread thread).refCnt ≠ 1) :
    ¬ Cancelled world after thread status := by
  intro cancelled
  have isListed : after.world.Listed thread := by
    rw [left.holds.listed_iff, left.dead, if_neg counted]
    decide
  rcases cancelled.gone with ⟨-, unlisted⟩ | passive
  · exact unlisted isListed
  · have state := left.state
    rw [passive.state, Thread.leaving_inactive inactive] at state
    exact notPassive state.symm

theorem Outside.unowned {attend : Set Ptr} {timed lasting : Prop}
    (outside : Outside idle rrAlarm attend timed lasting alarms)
    (empty : alarms.kalarms.listGet () FIRST = 0) : Unowned False thread alarms := by
  obtain ⟨live, members, all, kept, -⟩ := outside
  obtain ⟨entries, listed⟩ := kept.table.list
  have none : entries = [] := listed.linked.eq_nil empty
  intro id marked active
  have isOn := active.resolve_left not_false
  have mem := (listed.mem_iff id).mpr ⟨(listed.marked_iff id).mp marked, isOn⟩
  rw [none] at mem
  cases mem

end Effect

end Oseer
