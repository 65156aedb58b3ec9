import Oseer.LifeEntries
import Oseer.TimedRun

/-!
# Ended threads while others are scheduled

`kthreads_schedule` may fire alarms, and these may create threads.  All that is said
here is what it leaves: no thread ends, no block is freed, and the descriptor of a thread
that has ended keeps its state and its status, unless the allocator gives its address to
a new thread.
-/

namespace Oseer

open Results Prog Alarms

/-- What a descriptor keeps after the end of its thread. -/
def Thread.remains (descriptor : Thread) : ThreadState × Int × Int × Nat :=
  (descriptor.state, descriptor.exitStatus, descriptor.refCnt, descriptor.id)

/-- Between the two states the allocator has given the address to a new thread. -/
def World.Gives (world world' : World) (thread : Ptr) : Prop :=
  ∃ n, world.supplied ≤ n ∧ n < world'.supplied ∧ (world.supply n).2 = thread

/-- Threads are only created, at free addresses. -/
structure World.Grows (world world' : World) : Prop where
  supply : world'.supply = world.supply
  supplied : world.supplied ≤ world'.supplied
  kfreed : world'.kernel.kfreed = world.kernel.kfreed
  living : ∀ thread, world.life thread = .living → world'.life thread = .living
  given : ∀ thread, world.Gives world' thread →
    world.life thread = .free ∧ world'.life thread = .living
  spent : ∀ thread, world.life thread ≠ .living → ¬ world.Gives world' thread →
    world'.life thread = world.life thread ∧
      (world'.thread thread).remains = (world.thread thread).remains

variable {setting : Setting} {alarms alarms' : Alarms World} {world world' world'' start : World}
  {thread : Ptr} {call : AlarmCall World} {members members' : Members} {all : List Ptr}
  {level fuel count : Nat} {threshold refTime : Time} {first : Ptr} {idle : Ptr} {waits : Set Ptr}

section Relation

theorem World.Gives.supplied (gives : world.Gives world' thread) :
    world.supplied ≠ world'.supplied := by
  obtain ⟨n, least, less, -⟩ := gives
  omega

theorem World.Grows.of_same (supply : world'.supply = world.supply)
    (supplied : world'.supplied = world.supplied)
    (kfreed : world'.kernel.kfreed = world.kernel.kfreed) (life : world'.life = world.life)
    (spent : ∀ thread, world.life thread ≠ .living →
      (world'.thread thread).remains = (world.thread thread).remains) : world.Grows world' where
  supply := supply
  supplied := supplied.ge
  kfreed := kfreed
  living := fun _ isLiving => life ▸ isLiving
  given := fun _ gives => absurd supplied.symm gives.supplied
  spent := fun thread dead _ => ⟨congrFun life thread, spent thread dead⟩

theorem World.Grows.refl (world : World) : world.Grows world :=
  .of_same rfl rfl rfl rfl fun _ _ => rfl

theorem World.Grows.of_kernel (supply : world'.supply = world.supply)
    (supplied : world'.supplied = world.supplied) (kernel : world'.kernel = world.kernel)
    (life : world'.life = world.life) : world.Grows world' := by
  apply World.Grows.of_same supply supplied _ life
  · intro thread _
    unfold World.thread
    rw [kernel]
  · rw [kernel]

theorem World.Grows.trans (before : world.Grows world') (after : world'.Grows world'') :
    world.Grows world'' := by
  have splits : ∀ thread, world.Gives world'' thread ↔
      world.Gives world' thread ∨ world'.Gives world'' thread := by
    intro thread
    have early := before.supplied
    have late := after.supplied
    constructor
    · rintro ⟨n, least, less, isThread⟩
      by_cases sooner : n < world'.supplied
      · exact .inl ⟨n, least, sooner, isThread⟩
      · exact .inr ⟨n, not_lt.mp sooner, less, before.supply ▸ isThread⟩
    · rintro (⟨n, least, less, isThread⟩ | ⟨n, least, less, isThread⟩)
      · exact ⟨n, least, less.trans_le late, isThread⟩
      · exact ⟨n, early.trans least, less, before.supply ▸ isThread⟩
  refine ⟨after.supply.trans before.supply, before.supplied.trans after.supplied,
    after.kfreed.trans before.kfreed, fun thread isLiving => ?_, fun thread gives => ?_,
    fun thread dead kept => ?_⟩
  · exact after.living thread (before.living thread isLiving)
  · rcases (splits thread).mp gives with sooner | later
    · obtain ⟨isFree, isLiving⟩ := before.given thread sooner
      exact ⟨isFree, after.living thread isLiving⟩
    · obtain ⟨isFree, isLiving⟩ := after.given thread later
      refine ⟨?_, isLiving⟩
      -- the address is free before, for it is neither given to a thread nor freed
      by_cases sooner : world.Gives world' thread
      · exact (before.given thread sooner).1
      · by_cases alive : world.life thread = .living
        · rw [before.living thread alive] at isFree
          cases isFree
        · exact (before.spent thread alive sooner).1.symm.trans isFree
  · obtain ⟨notSooner, notLater⟩ := not_or.mp fun either => kept ((splits thread).mpr either)
    obtain ⟨sameLife, same⟩ := before.spent thread dead notSooner
    obtain ⟨sameLife', same'⟩ := after.spent thread (sameLife ▸ dead) notLater
    exact ⟨sameLife'.trans sameLife, same'.trans same⟩

theorem Thread.remains_of {sched sched' : Sched} (data : SameData sched sched')
    (state : (sched'.threads thread).state = (sched.threads thread).state) :
    (sched'.threads thread).remains = (sched.threads thread).remains := by
  have same := data thread
  unfold Thread.remains
  rw [same, state]

end Relation

section Steps

theorem World.leaveActive_supply : world.leaveActive.supply = world.supply ∧
    world.leaveActive.supplied = world.supplied := by
  unfold World.leaveActive World.kschedDeactivateThread World.rrThreadDeactivate
  dsimp only
  split_ifs <;> exact ⟨rfl, rfl⟩

/-- The thread that gets the processor is alive. -/
theorem Threads.enterActive_dead (threads : Threads idle waits world members all)
    (idleNow : Sound.Idle world.kernel.sched world.alive)
    (entered : world.enterActive level = .ok world') (dead : thread ∉ world.alive) :
    (world'.thread thread).state = (world.thread thread).state := by
  unfold World.enterActive at entered
  dsimp only at entered
  split_ifs at entered with none
  obtain rfl := Except.ok.inj entered
  cases place : members (.ready level) with
  | nil =>
      unfold Sched.kthreadqRemove at none
      rw [threads.sound.linked.listRemove_empty place] at none
      exact absurd rfl none
  | cons next rest =>
      obtain ⟨removed, -, stored⟩ := threads.sound.becomeActive idleNow place
      have mem : next ∈ world.alive := threads.sound.mem_alive _ next (by rw [place]; simp)
      have different : thread ≠ next := fun same => dead (same ▸ mem)
      unfold World.thread World.onSched World.onKernel Kernel.thread
      dsimp only
      rw [removed, stored, Function.update_of_ne different]

/-- Another thread gets the processor. -/
theorem Threads.switch_grows (threads : Threads idle waits world members all)
    (poised : Poised world) (switched : world.leaveActive.enterActive level = .ok world') :
    world.Grows world' := by
  obtain ⟨between, leaves, idleNow, -⟩ := threads.leaveActive poised
  obtain ⟨members', -, -, same, -⟩ := leaves.threads.enterActive idleNow switched
  have holdings : world.SameHoldings world' :=
    leaveActive_holdings.trans (enterActive_holdings switched)
  have supply : world'.supply = world.supply ∧ world'.supplied = world.supplied := by
    have left := @World.leaveActive_supply world
    unfold World.enterActive at switched
    dsimp only at switched
    split_ifs at switched
    obtain rfl := Except.ok.inj switched
    exact left
  apply World.Grows.of_same supply.1 supply.2 _ holdings.life
  · intro thread dead
    apply Thread.remains_of (leaves.moves.data.trans same.data)
    have notMem : thread ∉ world.leaveActive.alive := leaves.moves.alive ▸ dead
    refine (leaves.threads.enterActive_dead idleNow switched notMem).trans ?_
    by_cases isCurr : thread = world.activeThread
    · subst isCurr
      rcases leaves.state with same | ⟨active, -⟩
      · exact same
      · exact absurd (poised.current active) dead
    · exact congrArg Thread.state (leaves.moves.others thread isCurr)
  · rw [holdings.kernel]

theorem World.Grows.setThread {change : Thread → Thread}
    (same : (change (world.thread thread)).remains = (world.thread thread).remains) :
    world.Grows (world.onKernel fun kernel => kernel.setThread thread change) :=
  .of_same rfl rfl rfl rfl fun _ _ => Kernel.setThread_field Thread.remains same

/-- The thread that an alarm creates is at a free address. -/
theorem Holds.createThread_grows {kalarm : KAlarm} (holds : Holds setting alarms)
    (owner : kalarm.thread ∈ alarms.world.alive)
    (created : (World.host threshold).createThread kalarm alarms.world = .ok world') :
    alarms.world.Grows world' := by
  obtain ⟨members, all, kept, -⟩ := holds
  have supplied : Kept setting
      { alarms with world := { alarms.world with supplied := alarms.world.supplied + 1 } }
      members all := by
    apply Kept.frame kept <;> rfl
  obtain ⟨members', spawned⟩ := supplied.threads.kthreadCreate ⟨_, owner, rfl⟩ created
  obtain ⟨fresh, -, -, isWorld⟩ := Threads.kthreadCreate_cases
    supplied.threads.ledger.toRoster supplied.threads.listed created
  have isFree : alarms.world.life (alarms.world.supply alarms.world.supplied).2 = .free := by
    by_contra used
    exact fresh ((supplied.threads.listed _).mpr used)
  have counted : world'.supply = alarms.world.supply ∧
      world'.supplied = alarms.world.supplied + 1 ∧
      world'.kernel.kfreed = alarms.world.kernel.kfreed := by
    subst isWorld
    exact ⟨rfl, rfl, rfl⟩
  obtain ⟨sameSupply, isSupplied, kfreed⟩ := counted
  have life : world'.life = Function.update alarms.world.life
      (alarms.world.supply alarms.world.supplied).2 .living := spawned.life
  refine ⟨sameSupply, by omega, kfreed, fun thread isLiving => ?_, fun thread gives => ?_,
    fun thread dead kept => ?_⟩
  · rw [life]
    by_cases same : thread = (alarms.world.supply alarms.world.supplied).2
    · rw [same, Function.update_self]
    · rw [Function.update_of_ne same, isLiving]
  · obtain ⟨n, least, less, rfl⟩ := gives
    have isNext : n = alarms.world.supplied := by omega
    rw [life, isNext, Function.update_self]
    exact ⟨isFree, rfl⟩
  · have different : thread ≠ (alarms.world.supply alarms.world.supplied).2 := fun same =>
      kept ⟨alarms.world.supplied, le_rfl, by omega, same.symm⟩
    rw [life, Function.update_of_ne different, spawned.others thread different]
    exact ⟨rfl, rfl⟩

theorem Holds.releaseAll_grows (holds : Holds setting alarms) (threshold : Time) (id : Ptr) :
    alarms.world.Grows ((World.host threshold).releaseAll id alarms.world).2 := by
  obtain ⟨members, all, kept, -⟩ := holds
  have isWait : (QueueId.alarm id).state = .wait := rfl
  obtain ⟨members', freed, -⟩ := kept.threads.kthreadqReleaseAll isWait
  have life : ((World.host threshold).releaseAll id alarms.world).2.life = alarms.world.life :=
    freed.same.life
  refine World.Grows.of_same rfl rfl rfl life fun thread dead => ?_
  have free : thread ∉ members (.alarm id) := fun inQueue =>
    dead (kept.threads.sound.mem_alive _ thread inQueue)
  exact congrArg Thread.remains (freed.others thread free)

end Steps

section Programs

variable {alarm : Alarm} {param : Ptr} {result : Nat × Alarms World} {id : Ptr}

/-- A nested call of `k_alarm_set` by `rr_thread_activate` only creates threads. -/
def CallGrows (call : AlarmCall World) : Prop :=
  ∀ (setting : Setting) (alarms alarms' : Alarms World),
    Holds { setting with armed := False } alarms → alarms.world.ForSlice →
    call setting.rr alarms.world.rrParams alarms = .ok alarms' →
    alarms.world.Grows alarms'.world

theorem World.Grows.trans' (one two three : World) (before : one.Grows two)
    (after : two.Grows three) : one.Grows three := before.trans after

/-- `thread_activate` for the thread that has got the processor. -/
theorem threadActivate_grows (grows : CallGrows call) (thread : Ptr) (policy : SchedPolicy) :
    Relates World.Grows call (Entering setting thread) (World.threadActivate policy thread) := by
  cases policy with
  | fifo => exact Relates.pure .refl
  | rr =>
      have starts : Relates World.Grows call (Entering setting thread)
          (Prog.modify fun world => (world.replenish thread).startSlice thread) := by
        apply Relates.modify
        intro alarms _
        unfold World.replenish
        split_ifs <;> exact .of_kernel rfl rfl rfl rfl
      apply Relates.bind World.Grows.trans' starts (startSlice_spec thread)
      intro _
      apply Relates.bind World.Grows.trans' (Relates.read .refl) Ensures.read
      intro world
      apply Relates.setAlarm
      rintro alarms alarms' ⟨rfl, entering, forSlice⟩ called
      have rrAlarm : alarms.world.rrAlarm = setting.rr := by
        obtain ⟨members, all, kept, -⟩ := entering.holds
        exact kept.table.rr_eq
      rw [rrAlarm] at called
      exact grows { setting with marked := False } alarms alarms' entering.holds forSlice called

/-- `ksched_activate_thread` of the thread that has got the processor. -/
theorem kschedActivateThread_grows (grows : CallGrows call) (thread : Ptr) :
    Relates World.Grows call
      (fun alarms => Fresh setting alarms ∧ alarms.world.activeThread = thread)
      (World.kschedActivateThread thread) := by
  apply Relates.bind World.Grows.trans' (Relates.read .refl) Ensures.read
  intro world
  apply Relates.ite
  · exact fun _ => Relates.pure .refl
  · intro _
    have anywhere : Ensures call
        (fun alarms => world = alarms.world ∧ Fresh setting alarms ∧
          alarms.world.activeThread = thread)
        (World.threadActivate (world.tsched thread).policy thread) fun _ _ => True :=
      fun _ _ _ _ => trivial
    apply Relates.bind World.Grows.trans' _ anywhere
    · exact fun _ => Relates.modify fun alarms _ => .setThread rfl
    · apply (threadActivate_grows grows thread _).mono
      rintro alarms ⟨-, fresh, isActive⟩
      exact ⟨fresh.holds, isActive, fresh.topmost⟩

/-- Another thread gets the processor, and its slice begins. -/
theorem switch_grows (grows : CallGrows call) (level : Nat) :
    Relates World.Grows call (fun alarms => Ready setting alarms ∧ alarms.world.Below level)
      (do
        Prog.attempt fun world => world.leaveActive.enterActive level
        let world ← Prog.get
        World.kschedActivateThread world.activeThread) := by
  have enters : Relates World.Grows call
      (fun alarms => Ready setting alarms ∧ alarms.world.Below level)
      (Prog.attempt fun world => world.leaveActive.enterActive level) := by
    apply Relates.attempt
    rintro alarms world ⟨⟨members, all, kept, poised⟩, -⟩ switched
    exact kept.threads.switch_grows poised switched
  apply Relates.bind World.Grows.trans' enters (enterActive_spec level)
  intro _
  apply Relates.bind World.Grows.trans' (Relates.read .refl) Ensures.read
  intro entered
  apply (kschedActivateThread_grows grows entered.activeThread).mono
  rintro alarms ⟨rfl, fresh⟩
  exact ⟨fresh, rfl⟩

/-- `kthreads_schedule`. -/
theorem kthreadsSchedule_grows (grows : CallGrows call) :
    Relates World.Grows call (Ready setting) World.kthreadsSchedule := by
  apply Relates.bind World.Grows.trans' (Relates.read .refl) Ensures.read
  intro world
  apply Relates.ite
  · intro _
    apply Relates.attempt
    intro alarms world' _ never
    cases never
  intro _
  apply Relates.ite
  · intro changes
    apply (switch_grows grows _).mono
    rintro alarms ⟨rfl, ready⟩
    have ⟨members, all, kept, _⟩ := ready
    exact ⟨ready, kept.below changes⟩
  · exact fun _ => Relates.pure .refl

/-- `rr_timer` puts the active thread in a ready list. -/
theorem rrTimer_grows (grows : CallGrows call) (param : Ptr) :
    Relates World.Grows call (Holds { setting with armed := False }) (World.rrTimer param) := by
  apply Relates.bind World.Grows.trans' (Relates.read .refl) Ensures.read
  intro world
  apply Relates.ite
  · exact fun _ => Relates.pure .refl
  intro isActive
  have expires : Relates World.Grows call
      (fun alarms => world = alarms.world ∧ Holds { setting with armed := False } alarms)
      (Prog.modify fun world => world.expire param) := by
    apply Relates.modify
    rintro alarms ⟨rfl, members, all, kept, running⟩
    refine World.Grows.of_same rfl rfl rfl rfl fun thread dead => ?_
    have different : thread ≠ param := by
      rintro rfl
      have mem : alarms.world.activeThread ∈ alarms.world.alive := running.mem_alive
      rw [not_not.mp isActive] at mem
      exact dead mem
    have stored : (alarms.world.expire param).thread thread = alarms.world.thread thread := by
      unfold World.expire
      rw [World.kthreadMoveToReady_thread, Function.update_of_ne different]
      rfl
    rw [stored]
  have reaches : Ensures call
      (fun alarms => world = alarms.world ∧ Holds { setting with armed := False } alarms)
      (Prog.modify fun world => world.expire param) fun _ => Ready setting := by
    refine Ensures.modify.mono ?_ fun _ _ post => post
    rintro alarms ⟨rfl, holds⟩
    exact holds.expire (not_not.mp isActive)
  exact Relates.bind World.Grows.trans' expires reaches fun _ => kthreadsSchedule_grows grows

/-- The action of an alarm. -/
theorem Holds.runAction_grows (holds : Holds { setting with armed := False } alarms)
    (grows : CallGrows call)
    (owned : first ≠ setting.rr → (alarms.kalarm first).thread ≠ 0)
    (owner : first ≠ setting.rr → (alarms.kalarm first).thread ∈ alarms.world.alive)
    (runs : alarms.runAction (World.host threshold) call first = .ok result) :
    alarms.world.Grows result.2.world := by
  unfold Alarms.runAction at runs
  dsimp only at runs
  by_cases isRr : first = setting.rr
  · subst isRr
    have ⟨members, all, kept, _⟩ := holds
    have isTimer : (World.host threshold).action (alarms.kalarm setting.rr).alarm.action
        (alarms.kalarm setting.rr).alarm.param =
          World.rrTimer (alarms.kalarm setting.rr).alarm.param := if_pos kept.table.rr_action
    have isOwner := kept.table.rr_owner
    rw [isTimer] at runs
    split_ifs at runs with acts owns
    · exact absurd isOwner owns
    · obtain ⟨ran, ranOk, rfl⟩ := map_ok runs
      exact rrTimer_grows grows _ alarms ran holds ranOk
    · obtain rfl := Except.ok.inj runs
      exact .refl _
  · rw [if_pos (owned isRr)] at runs
    split_ifs at runs
    · obtain ⟨world, created, rfl⟩ := map_ok runs
      exact holds.createThread_grows (owner isRr) created
    · obtain rfl := Except.ok.inj runs
      exact .refl _

/-- `k_schedule_alarms` fires the first alarm of the list. -/
theorem Holds.fire_grows (nested : Nested call) (grows : CallGrows call)
    (holds : Holds setting alarms) (hasFirst : alarms.kalarms.listGet () FIRST ≠ 0)
    (fires : alarms.fire (World.host threshold) call = .ok result) :
    alarms.world.Grows result.2.world := by
  obtain ⟨members, all, kept, running⟩ := holds
  obtain ⟨removed, memLive, active, list⟩ := kept.table.list.takeFirst hasFirst
  unfold Alarms.fire at fires
  dsimp only at fires
  rw [removed] at fires
  obtain ⟨acted, runs, rfl⟩ := map_ok fires
  generalize alarms.kalarms.listGet () FIRST = first at active memLive list runs
  have take : Taken first alarms (alarms.takeFirst first) := takeFirst_taken first alarms
  generalize alarms.takeFirst first = taken at list runs take
  let loose : Setting := { setting with attend := setting.attend \ {first}, armed := False }
  have unarmed : Holds loose taken :=
    ⟨members, all, kept.takeFirst False take list memLive active False.elim,
      take.world ▸ running⟩
  have owned : first ≠ setting.rr → (taken.kalarm first).thread ≠ 0 := by
    intro notRr
    rw [take.same.thread]
    exact kept.table.owned first memLive notRr
  have owner : first ≠ setting.rr → (taken.kalarm first).thread ∈ taken.world.alive := by
    intro notRr
    rw [take.same.thread, take.world]
    exact kept.users.owners first memLive notRr (.inr active)
  have acts : taken.world.Grows acted.2.world :=
    @Holds.runAction_grows loose taken call threshold first acted unarmed grows owned owner runs
  have after : Holds loose acted.2 := by
    by_cases isRr : first = setting.rr
    · subst isRr
      exact (@Holds.runTimer loose taken call threshold acted nested unarmed (fun _ => unarmed)
        runs).1
    · exact (unarmed.runThread (owned isRr) (owner isRr) runs).1
  rw [take.world] at acts
  exact acts.trans (after.releaseAll_grows threshold first)

/-- The loop of `k_schedule_alarms`. -/
theorem Holds.fireLoop_grows (nested : Nested call) (grows : CallGrows call)
    (holds : Holds setting alarms)
    (loops : alarms.fireLoop (World.host threshold) call refTime fuel count = .ok result) :
    alarms.world.Grows result.2.world := by
  induction fuel generalizing alarms count with
  | zero => cases loops
  | succ fuel ih =>
      unfold Alarms.fireLoop at loops
      dsimp only at loops
      split_ifs at loops with expired
      · obtain ⟨fired, fires, loops⟩ := bind_ok loops
        have fireGrows := holds.fire_grows nested grows expired.1 fires
        exact fireGrows.trans (ih (holds.fire nested rfl expired.1 fires).2.1 loops)
      · obtain rfl := Except.ok.inj loops
        exact .refl _

/-- `k_schedule_alarms`. -/
theorem Holds.kScheduleAlarms_grows (nested : Nested call) (grows : CallGrows call)
    (holds : Holds setting alarms)
    (runs : alarms.kScheduleAlarms (World.host threshold) call fuel = .ok result) :
    alarms.world.Grows result.2.world := by
  obtain ⟨looped, loops, rfl⟩ := map_ok runs
  obtain ⟨members, all, kept, running⟩ := holds
  have read : Holds setting { alarms with world := alarms.world.getTime.2 } := by
    refine ⟨members, all, ?_, running⟩
    apply Kept.frame kept <;> rfl
  have reads : alarms.world.Grows alarms.world.getTime.2 := .of_kernel rfl rfl rfl rfl
  have loopGrows := reads.trans (read.fireLoop_grows nested grows loops)
  unfold Alarms.setTimer
  dsimp only
  split_ifs
  · exact loopGrows.trans (.of_kernel rfl rfl rfl rfl)
  · exact loopGrows

/-- The end of `k_alarm_add` for the alarm of the kernel. -/
theorem Holds.finishAdd_grows {reschedule : Nat} (grows : CallGrows call)
    (holds : Holds setting alarms)
    (finishes : alarms.finishAdd (World.host threshold) call setting.rr reschedule =
      .ok alarms') : alarms.world.Grows alarms'.world := by
  have noted : Holds setting (alarms.onWorld ((World.host threshold).setErrno 0)) :=
    holds.setErrno 0
  have notes : alarms.world.Grows (alarms.onWorld ((World.host threshold).setErrno 0)).world :=
    .setThread rfl
  have owner : (alarms.kalarm setting.rr).thread = 0 := by
    obtain ⟨members, all, kept, -⟩ := holds
    exact kept.table.rr_owner
  have notWaits : ¬ Alarms.Waits (alarms.kalarm setting.rr) := fun waits => waits.1 owner
  unfold Alarms.finishAdd Alarms.scheduleIf at finishes
  dsimp only at finishes
  rw [Alarms.onWorld_kalarm, if_neg notWaits] at finishes
  split_ifs at finishes
  · obtain ⟨ran, ranOk, rfl⟩ := map_ok finishes
    exact notes.trans (kthreadsSchedule_grows grows _ ran noted.ready ranOk)
  · obtain rfl := Except.ok.inj finishes
    exact notes

/-- `k_alarm_set` for the slice of the active thread, however deep it is nested. -/
theorem kAlarmSet_grows (threshold : Time) (fuel : Nat) :
    CallGrows (Alarms.kAlarmSet (World.host threshold) fuel) := by
  induction fuel with
  | zero =>
      intro setting alarms alarms' _ _ called
      cases called
  | succ fuel ih =>
      intro setting alarms alarms' holds forSlice called
      have nested := kAlarmSet_nested threshold fuel
      unfold Alarms.kAlarmSet at called
      split_ifs at called
      dsimp only at called
      let noted := alarms.noted threshold setting.rr alarms.world.rrParams
      have notes : alarms.world.Grows noted.world := .setThread rfl
      split_ifs at called
      · obtain ⟨scheduled, ran, finished⟩ := bind_ok called
        have armed : Holds { setting with armed := True }
            (noted.armAlarm setting.rr noted.world.rrParams) := holds.armSlice forSlice
        have world : (noted.armAlarm setting.rr noted.world.rrParams).world = noted.world :=
          (armAlarm_spec setting.rr noted.world.rrParams noted).2.1
        have runs : (noted.armAlarm setting.rr noted.world.rrParams).kScheduleAlarms
            (World.host threshold) (Alarms.kAlarmSet (World.host threshold) fuel) fuel =
              .ok scheduled := ran
        have fires := armed.kScheduleAlarms_grows nested ih runs
        rw [world] at fires
        have scheduledHolds := (armed.kScheduleAlarms nested runs).1
        exact (notes.trans fires).trans (scheduledHolds.finishAdd_grows ih finished)
      · obtain rfl := Except.ok.inj called
        exact notes

end Programs

end Oseer
