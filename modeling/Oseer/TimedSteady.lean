import Oseer.TimedAlarms

/-!
# Alarms that leave the active thread

While the alarm for the end of a slice is set, other alarms may be due.  If none of
them makes a thread ready that has a higher priority than the active thread, the
active thread keeps the processor.  By induction on the depth, a nested call of
`k_alarm_set` keeps the invariant.
-/

namespace Oseer

open LinkedRing Results Prog

variable {setting : Setting} {alarms alarms' : Alarms World} {members members' : Members}
  {all : List Ptr} {id first thread : Ptr} {world world' world'' : World} {call : AlarmCall World}
  {threshold refTime : Time} {kalarm kalarm' : KAlarm} {idle : Ptr} {waits : Set Ptr}

section Eases

/-- The threads that were alive keep their priorities, and none begins to wait. -/
structure Eases (world world' : World) : Prop where
  activeThread : world'.activeThread = world.activeThread
  alive : world.alive ⊆ world'.alive
  prio : ∀ thread ∈ world.alive, (world'.thread thread).prio = (world.thread thread).prio
  waits : ∀ thread ∈ world'.alive, (world'.thread thread).state = .wait →
    thread ∈ world.alive ∧ (world.thread thread).state = .wait ∧
      (world'.thread thread).queue = (world.thread thread).queue

theorem Eases.trans (first : Eases world world') (second : Eases world' world'') :
    Eases world world'' where
  activeThread := second.activeThread.trans first.activeThread
  alive := first.alive.trans second.alive
  prio := fun thread mem =>
    (second.prio thread (first.alive mem)).trans (first.prio thread mem)
  waits := fun thread mem isWaiting => by
    obtain ⟨mem', waited', same'⟩ := second.waits thread mem isWaiting
    obtain ⟨mem, waited, same⟩ := first.waits thread mem' waited'
    exact ⟨mem, waited, same'.trans same⟩

theorem Mild.eases (mild : Mild id kalarm world) (eases : Eases world world')
    (active : world.activeThread ∈ world.alive) (owner : kalarm.thread ∈ world.alive)
    (thread : kalarm'.thread = kalarm.thread)
    (action : kalarm'.alarm.action = kalarm.alarm.action) : Mild id kalarm' world' where
  creates := fun acts => by
    rw [eases.activeThread, eases.prio _ active, thread, eases.prio _ owner]
    exact mild.creates (action ▸ acts)
  releases := fun thread mem isWaiting inQueue => by
    obtain ⟨mem, waited, same⟩ := eases.waits thread mem isWaiting
    rw [eases.activeThread, eases.prio _ active, eases.prio thread mem]
    exact mild.releases thread mem waited (same.symm.trans inQueue)

/-- The active thread keeps the highest priority if the threads that get ready have none
that is higher. -/
theorem World.Topmost.eases (topmost : world.Topmost) (eases : Eases world world')
    (active : world.activeThread ∈ world.alive)
    (rises : ∀ thread ∈ world'.alive, (world'.thread thread).state = .ready →
      thread ∈ world.alive ∧ (world.thread thread).state = .ready ∨
        (world'.thread thread).prio ≤ (world.thread world.activeThread).prio) :
    world'.Topmost := by
  intro thread mem isReady
  rw [eases.activeThread, eases.prio _ active]
  rcases rises thread mem isReady with ⟨wasAlive, wasReady⟩ | below
  · rw [eases.prio thread wasAlive]
    exact topmost thread wasAlive wasReady
  · exact below

/-- The creation of a thread. -/
theorem Spawned.eases {kthread proc : Ptr} (threads : Threads idle waits world members all)
    (spawned : Spawned idle waits world world' members members' all kthread proc) :
    Eases world world' := by
  have different : ∀ thread ∈ world.alive, thread ≠ kthread := by
    rintro thread mem rfl
    exact spawned.fresh (threads.ledger.alive_listed thread mem)
  refine ⟨spawned.activeThread, ?_, fun thread mem => ?_, fun thread mem isWaiting => ?_⟩
  · rw [spawned.alive]
    exact Set.subset_insert ..
  · rw [spawned.others thread (different thread mem)]
  · rw [spawned.alive] at mem
    rcases mem with rfl | mem
    · rw [spawned.state] at isWaiting
      cases isWaiting
    · have same := spawned.others thread (different thread mem)
      exact ⟨mem, same ▸ isWaiting, by rw [same]⟩

theorem Threads.kthreadCreate_prio {policy : SchedPolicy} {prio : Int} {stack kthread proc : Ptr}
    (threads : Threads idle waits world members all)
    (created : world.kthreadCreate policy prio stack kthread proc = .ok world') :
    (world'.thread kthread).prio = Kernel.clampPrio prio := by
  obtain ⟨-, -, -, rfl⟩ :=
    Threads.kthreadCreate_cases threads.ledger.toRoster threads.listed created
  have spec : Created world.kernel (world.kernel.numbered.created stack kthread prio proc) kthread
      stack (Kernel.clampPrio prio) proc := Kernel.created_spec prio
  unfold World.thread
  rw [World.kschedThreadAdd_same.1]
  exact spec.prio_eq

/-- All the threads in a queue are released. -/
theorem Freed.eases {queue : QueueId} (threads : Threads idle waits world members all)
    (freed : Freed idle waits world world' members members' all queue)
    (empty : members' queue = []) : Eases world world' := by
  have alive : world'.alive = world.alive := freed.same.alive
  refine ⟨freed.activeThread, alive.symm.subset, fun thread _ => ?_, fun thread mem isWaiting => ?_⟩
  · exact congrArg ThreadData.prio (freed.same.data thread)
  · obtain ⟨other, isWait, inOther⟩ := (freed.threads.wait_iff mem).mp isWaiting
    have different : other ≠ queue := by
      rintro rfl
      rw [empty] at inOther
      cases inOther
    rw [freed.waiting other isWait different] at inOther
    have same : world'.thread thread = world.thread thread := freed.others thread fun inQueue => by
      have names := (threads.sound.placed queue thread inQueue).names
      have names' := (threads.sound.placed other thread inOther).names
      exact different (Option.some.inj (names'.symm.trans names))
    exact ⟨alive ▸ mem, same ▸ isWaiting, by rw [same]⟩

end Eases

section Steady

/-- The alarm of the kernel is not due, and the alarms that are due leave the active
thread, which has the highest priority. -/
structure Steady (rr : Ptr) (live : Set Ptr) (refTime : Time) (alarms : Alarms World) :
    Prop where
  later : 0 < Time.timeCmp (alarms.kalarm rr).alarm.expTime refTime
  topmost : alarms.world.Topmost
  mild : ∀ id ∈ live, id ≠ rr → (alarms.kalarm id).active = true →
    Time.timeCmp (alarms.kalarm id).alarm.expTime refTime ≤ 0 →
      Mild id (alarms.kalarm id) alarms.world

/-- A change that eases the queues, and that leaves the active thread topmost. -/
structure Soothes (world world' : World) : Prop extends Eases world world' where
  topmost : world.Topmost → world'.Topmost

theorem Soothes.trans (first : Soothes world world') (second : Soothes world' world'') :
    Soothes world world'' :=
  ⟨first.toEases.trans second.toEases, fun topmost => second.topmost (first.topmost topmost)⟩

theorem World.setErrno_soothes (errnum : Int) (active : world.activeThread ∈ world.alive) :
    Soothes world (world.onKernel (Kernel.setErrno errnum)) := by
  have state : ∀ thread, ((world.onKernel (Kernel.setErrno errnum)).thread thread).state =
      (world.thread thread).state := fun _ => Kernel.setThread_field Thread.state rfl
  have eases : Eases world (world.onKernel (Kernel.setErrno errnum)) :=
    { activeThread := rfl
      alive := Set.Subset.refl _
      prio := fun _ _ => Kernel.setThread_field (fun descriptor => descriptor.prio) rfl
      waits := fun thread mem isWaiting => ⟨mem, (state thread).symm.trans isWaiting,
        Kernel.setThread_field Thread.queue rfl⟩ }
  exact ⟨eases, fun topmost => topmost.eases eases active fun thread mem isReady =>
    .inl ⟨mem, (state thread).symm.trans isReady⟩⟩

/-- The thread that an alarm creates. -/
theorem Holds.createThread_soothes (holds : Holds setting alarms)
    (owner : kalarm.thread ∈ alarms.world.alive) (mild : Mild id kalarm alarms.world)
    (acts : kalarm.alarm.action ≠ 0)
    (created : (World.host threshold).createThread kalarm alarms.world = .ok world') :
    Soothes alarms.world world' := by
  obtain ⟨members, all, kept, running⟩ := holds
  have supplied : Kept setting
      { alarms with world := { alarms.world with supplied := alarms.world.supplied + 1 } }
      members all := by
    apply Kept.frame kept <;> rfl
  obtain ⟨members', spawned⟩ := supplied.threads.kthreadCreate ⟨_, owner, rfl⟩ created
  have prio := supplied.threads.kthreadCreate_prio created
  have eases : Eases alarms.world world' := by
    have after := spawned.eases supplied.threads
    exact { after with }
  refine ⟨eases, fun topmost => topmost.eases eases running.mem_alive ?_⟩
  intro thread mem isReady
  rw [spawned.alive] at mem
  rcases mem with rfl | old
  · rw [prio]
    exact .inr (mild.creates acts)
  · have different : thread ≠ (alarms.world.supply alarms.world.supplied).2 := by
      rintro rfl
      exact spawned.fresh (kept.threads.ledger.alive_listed _ old)
    rw [spawned.others thread different] at isReady
    exact .inl ⟨old, isReady⟩

/-- The threads that wait for an alarm are released. -/
theorem Freed.soothes (threads : Threads idle waits world members all)
    (freed : Freed idle waits world world' members members' all (.alarm id))
    (empty : members' (.alarm id) = []) (active : world.activeThread ∈ world.alive)
    (mild : Mild id kalarm world) : Soothes world world' := by
  have eases := freed.eases threads empty
  refine ⟨eases, fun topmost => topmost.eases eases active fun thread mem isReady => ?_⟩
  have wasAlive : thread ∈ world.alive := freed.same.alive ▸ mem
  by_cases inQueue : thread ∈ members (.alarm id)
  · have placed := threads.sound.placed (.alarm id) thread inQueue
    rw [eases.prio thread wasAlive]
    exact .inr (mild.releases thread wasAlive placed.inState placed.names)
  · rw [freed.others thread inQueue] at isReady
    exact .inl ⟨wasAlive, isReady⟩

theorem Holds.releaseAll_soothes (holds : Holds setting alarms)
    (mild : Mild id kalarm alarms.world) :
    Soothes alarms.world ((World.host threshold).releaseAll id alarms.world).2 := by
  obtain ⟨members, all, kept, running⟩ := holds
  have isWait : (QueueId.alarm id).state = .wait := rfl
  obtain ⟨members', freed, empty⟩ := kept.threads.kthreadqReleaseAll isWait
  exact freed.soothes kept.threads empty running.mem_alive mild

variable {result : Nat × Alarms World} {fuel count : Nat} {taken : Alarms World}

/-- The action of an alarm of a thread. -/
theorem Holds.runThread_soothes (holds : Holds setting alarms)
    (owned : (alarms.kalarm first).thread ≠ 0)
    (owner : (alarms.kalarm first).thread ∈ alarms.world.alive)
    (mild : Mild first (alarms.kalarm first) alarms.world)
    (runs : alarms.runAction (World.host threshold) call first = .ok result) :
    Soothes alarms.world result.2.world := by
  unfold Alarms.runAction at runs
  dsimp only at runs
  split_ifs at runs with acts
  · obtain ⟨world, created, rfl⟩ := map_ok runs
    exact holds.createThread_soothes owner mild acts created
  · obtain rfl := Except.ok.inj runs
    exact ⟨⟨rfl, Set.Subset.refl _, fun _ _ => rfl, fun _ mem isWaiting => ⟨mem, isWaiting, rfl⟩⟩,
      fun topmost => topmost⟩

/-- Firing an alarm of a thread that leaves the active thread. -/
theorem Holds.fire_soothes (holds : Holds setting alarms)
    (isFirst : alarms.kalarms.listGet () FIRST = first) (hasFirst : first ≠ 0)
    (notRr : first ≠ setting.rr) (mild : Mild first (alarms.kalarm first) alarms.world)
    (fires : alarms.fire (World.host threshold) call = .ok result) :
    Soothes alarms.world result.2.world := by
  have ⟨members, all, kept, running⟩ := holds
  subst isFirst
  obtain ⟨removed, memLive, active, list⟩ := kept.table.list.takeFirst hasFirst
  unfold Alarms.fire at fires
  dsimp only at fires
  rw [removed] at fires
  obtain ⟨acted, runs, rfl⟩ := map_ok fires
  generalize alarms.kalarms.listGet () FIRST = first at active memLive list runs notRr mild
  have take : Taken first alarms (alarms.takeFirst first) := takeFirst_taken first alarms
  generalize alarms.takeFirst first = taken at list runs take
  obtain ⟨loose, owned, owner⟩ := holds.takeThread take list memLive active notRr
  have taking : Mild first (taken.kalarm first) taken.world := by
    rw [take.world]
    refine ⟨fun acts => ?_, mild.releases⟩
    rw [take.same.thread]
    rw [take.action] at acts
    exact mild.creates acts
  have acting := loose.runThread_soothes owned owner taking runs
  have ran := (loose.runThread owned owner runs).1
  have mem : taken.world.activeThread ∈ taken.world.alive := take.world ▸ running.mem_alive
  have releasing : Soothes acted.2.world
      ((World.host threshold).releaseAll first acted.2.world).2 :=
    ran.releaseAll_soothes (taking.eases acting.toEases mem owner rfl rfl)
  rw [← take.world]
  exact acting.trans releasing

/-- Firing an alarm that is due keeps the active thread topmost. -/
theorem Steady.fire (steady : Steady setting.rr setting.live refTime alarms)
    (holds : Holds setting alarms)
    (isFirst : alarms.kalarms.listGet () FIRST = first) (hasFirst : first ≠ 0)
    (due : Time.timeCmp (alarms.kalarm first).alarm.expTime refTime ≤ 0)
    (nested : Nested call) (fires : alarms.fire (World.host threshold) call = .ok result) :
    Holds setting result.2 ∧ Steady setting.rr setting.live refTime result.2 ∧
      result.2.world.activeThread = alarms.world.activeThread := by
  have notRr : first ≠ setting.rr := by
    rintro rfl
    have later := steady.later
    omega
  obtain ⟨active, holds', quiet⟩ := holds.fire nested isFirst hasFirst fires
  obtain ⟨stays, taken, take, kalarm⟩ := quiet fun isRr => absurd isRr notRr
  obtain ⟨members, all, kept, running⟩ := holds
  have memLive : first ∈ setting.live := by
    rw [← isFirst] at hasFirst ⊢
    exact (kept.table.list.takeFirst hasFirst).2.1
  have mild := steady.mild first memLive notRr active due
  have whole : Holds setting alarms := ⟨members, all, kept, running⟩
  have soothes := whole.fire_soothes isFirst hasFirst notRr mild fires
  have owner : ∀ id ∈ setting.live, id ≠ setting.rr → (alarms.kalarm id).active = true →
      (alarms.kalarm id).thread ∈ alarms.world.alive :=
    fun id mem notRr active => kept.users.owners id mem notRr (.inr active)
  refine ⟨holds', ⟨?_, soothes.topmost steady.topmost, fun id mem idNotRr isActive isDue => ?_⟩,
    stays⟩
  · rw [kalarm, take.others _ notRr.symm]
    exact steady.later
  · rw [kalarm] at isActive isDue ⊢
    by_cases same : id = first
    · subst same
      exact mild.eases soothes.toEases running.mem_alive (owner id mem idNotRr active)
        take.same.thread take.action
    · rw [take.others id same] at isActive isDue ⊢
      exact (steady.mild id mem idNotRr isActive isDue).eases soothes.toEases running.mem_alive
        (owner id mem idNotRr isActive) rfl rfl

/-- The loop of `k_schedule_alarms` leaves the active thread topmost. -/
theorem Steady.fireLoop (steady : Steady setting.rr setting.live refTime alarms)
    (holds : Holds setting alarms) (nested : Nested call)
    (loops : alarms.fireLoop (World.host threshold) call refTime fuel count = .ok result) :
    result.2.world.Topmost ∧ result.2.world.activeThread = alarms.world.activeThread := by
  induction fuel generalizing alarms count with
  | zero => cases loops
  | succ fuel ih =>
      unfold Alarms.fireLoop at loops
      dsimp only at loops
      split_ifs at loops with expired
      · obtain ⟨fired, fires, loops⟩ := bind_ok loops
        obtain ⟨holds', steady', stays⟩ := steady.fire holds rfl expired.1 expired.2 nested fires
        obtain ⟨topmost, stays'⟩ := ih steady' holds' loops
        exact ⟨topmost, stays'.trans stays⟩
      · obtain rfl := Except.ok.inj loops
        exact ⟨steady.topmost, rfl⟩

/-- `k_schedule_alarms` leaves the active thread topmost. -/
theorem Holds.kScheduleAlarms_topmost (holds : Holds setting alarms)
    (steady : Steady setting.rr setting.live (refTimeOf threshold alarms.world) alarms)
    (nested : Nested call)
    (runs : alarms.kScheduleAlarms (World.host threshold) call fuel = .ok result) :
    result.2.world.Topmost ∧ result.2.world.activeThread = alarms.world.activeThread := by
  obtain ⟨looped, loops, rfl⟩ := map_ok runs
  obtain ⟨members, all, kept, running⟩ := holds
  have read : Holds setting { alarms with world := alarms.world.getTime.2 } := by
    refine ⟨members, all, ?_, running⟩
    apply Kept.frame kept <;> rfl
  have reading : Steady setting.rr setting.live (refTimeOf threshold alarms.world)
      { alarms with world := alarms.world.getTime.2 } :=
    ⟨steady.later, steady.topmost, fun id mem notRr isActive isDue =>
      have mild := steady.mild id mem notRr isActive isDue
      ⟨mild.creates, mild.releases⟩⟩
  have reaches : Alarms.fireLoop (World.host threshold) call (refTimeOf threshold alarms.world)
      fuel 0 { alarms with world := alarms.world.getTime.2 } = .ok looped := loops
  obtain ⟨topmost, stays⟩ := reading.fireLoop read nested reaches
  unfold Alarms.setTimer
  dsimp only
  split_ifs
  · exact ⟨topmost, stays⟩
  · exact ⟨topmost, stays⟩

end Steady

section Schedule

/-- `kthreads_schedule` leaves an active thread that is topmost. -/
theorem Holds.kthreadsSchedule_topmost {ran : Unit × Alarms World} (holds : Holds setting alarms)
    (topmost : alarms.world.Topmost) (runs : World.kthreadsSchedule.run call alarms = .ok ran) :
    ran.2 = alarms := by
  obtain ⟨members, all, kept, running⟩ := holds
  have isThread : alarms.world.kernel.sched.activeThread ≠ 0 :=
    kept.threads.sound.ne_zero running.mem_alive
  have isActive := running.active
  have highest : ¬ ((alarms.world.kernel.sched.threads
      alarms.world.kernel.sched.activeThread).prio : Int) <
        ReadyMask.kthreadReadyListHighest alarms.world.kernel.sched.rdyMask := by
    rcases kept.threads.sound.mask.highest with ⟨none, -⟩ | ⟨level, -, isHighest, notEmpty, -⟩
    · rw [none]
      omega
    · obtain ⟨thread, inQueue⟩ := List.exists_mem_of_ne_nil _ notEmpty
      have placed := kept.threads.sound.placed (.ready level) thread inQueue
      have mem := kept.threads.sound.mem_alive (.ready level) thread inQueue
      have bound := topmost thread mem placed.inState
      have isLevel : (alarms.world.thread thread).prio = level := placed.level level rfl
      rw [isLevel] at bound
      rw [isHighest]
      exact not_lt.mpr (Int.ofNat_le.mpr bound)
  unfold World.kthreadsSchedule at runs
  rw [run_bind] at runs
  obtain ⟨read, isRead, runs⟩ := bind_ok runs
  obtain rfl := Except.ok.inj isRead
  dsimp only at runs
  rw [if_neg (not_not.mpr (.inl ⟨isThread, isActive⟩)), if_neg] at runs
  · obtain rfl := Except.ok.inj runs
    rfl
  · rintro (isNull | inactive | lower)
    · exact isThread isNull
    · exact inactive isActive
    · exact highest lower

end Schedule

section Nested

variable {reschedule fuel : Nat}

/-- The end of `k_alarm_add` for the alarm of the kernel leaves an active thread that is
topmost. -/
theorem Holds.finishAdd_topmost (holds : Holds setting alarms) (topmost : alarms.world.Topmost)
    (finishes : alarms.finishAdd (World.host threshold) call setting.rr reschedule = .ok alarms') :
    alarms'.world.activeThread = alarms.world.activeThread := by
  have holds' : Holds setting (alarms.onWorld ((World.host threshold).setErrno 0)) :=
    holds.setErrno 0
  have topmost' : (alarms.onWorld ((World.host threshold).setErrno 0)).world.Topmost := by
    obtain ⟨members, all, -, running⟩ := holds
    exact (World.setErrno_soothes 0 running.mem_alive).topmost topmost
  have owner : (alarms.kalarm setting.rr).thread = 0 := by
    obtain ⟨members, all, kept, -⟩ := holds
    exact kept.table.rr_owner
  unfold Alarms.finishAdd Alarms.scheduleIf at finishes
  dsimp only at finishes
  have notWaits : ¬ Alarms.Waits (alarms.kalarm setting.rr) := fun waits => waits.1 owner
  rw [Alarms.onWorld_kalarm, if_neg notWaits] at finishes
  split_ifs at finishes
  · obtain ⟨ran, ranOk, rfl⟩ := map_ok finishes
    rw [holds'.kthreadsSchedule_topmost topmost' ranOk]
    rfl
  · obtain rfl := Except.ok.inj finishes
    rfl

/-- The alarm of the kernel is set for the end of a slice: the alarms that are due leave the
active thread. -/
theorem Holds.steady {alarm : Alarm} {stored : Alarms World} (holds : Holds setting alarms)
    (calm : Calm setting.rr alarm ⟨threshold, alarms.kalarms, alarms.kalarm, alarms.world⟩)
    (topmost : alarms.world.Topmost)
    (stores : stored.kalarm = Function.update alarms.kalarm setting.rr kalarm)
    (expTime : kalarm.alarm.expTime = alarm.expTime)
    (world : stored.world = alarms.world.onKernel (Kernel.setErrno 0)) :
    Steady setting.rr setting.live (refTimeOf threshold stored.world) stored := by
  obtain ⟨members, all, kept, running⟩ := holds
  obtain ⟨entries, listed⟩ := kept.table.list
  have soothes := World.setErrno_soothes 0 running.mem_alive
  have refTime : refTimeOf threshold stored.world = refTimeOf threshold alarms.world := by
    rw [world]
    rfl
  rw [refTime]
  refine ⟨?_, ?_, fun id mem notRr isActive isDue => ?_⟩
  · rw [stores, Function.update_self, expTime]
    exact calm.later
  · rw [world]
    exact soothes.topmost topmost
  · rw [stores, Function.update_of_ne notRr] at isActive isDue ⊢
    have mild := calm.mild entries listed.linked id ((listed.mem_iff id).mpr ⟨mem, isActive⟩) notRr
      isDue
    rw [world]
    exact mild.eases soothes.toEases running.mem_alive
      (kept.users.owners id mem notRr (.inr isActive)) rfl rfl

/-- `k_alarm_set` has recorded its call and cleared the error number. -/
def Alarms.noted (threshold : Time) (id : Ptr) (alarm : Alarm) (alarms : Alarms World) :
    Alarms World :=
  (alarms.noteSet (World.host threshold) id alarm).onWorld ((World.host threshold).setErrno 0)

theorem Holds.storeRr_listed (holds : Holds setting alarms) : ∃ entries, Alarms.Listed
    ((alarms.noted threshold setting.rr alarms.world.rrParams).storeAlarm setting.rr
      alarms.world.rrParams) setting.live entries := by
  obtain ⟨members, all, kept, running⟩ := holds
  obtain ⟨entries, listed⟩ := kept.table.list
  have stored : Alarms.Listed (((alarms.noteSet (World.host threshold) setting.rr
      alarms.world.rrParams).storeAlarm setting.rr alarms.world.rrParams).onWorld
        ((World.host threshold).setErrno 0)) setting.live entries :=
    (listed.world alarms.world _).storeAlarm
  exact ⟨entries, stored⟩

/-- The alarm of the kernel is set for the slice of the active thread, before alarms are
fired. -/
theorem Holds.armSlice (holds : Holds { setting with armed := False } alarms)
    (forSlice : alarms.world.ForSlice) :
    Holds { setting with armed := True }
      ((alarms.noted threshold setting.rr alarms.world.rrParams).armAlarm setting.rr
        alarms.world.rrParams) := by
  have entered : Holds { setting with armed := False }
      (alarms.noted threshold setting.rr alarms.world.rrParams) :=
    (holds.noteSet setting.rr alarms.world.rrParams).setErrno 0
  have mem : setting.rr ∈ setting.live := by
    obtain ⟨members, all, kept, running⟩ := holds
    exact kept.table.rr_live
  obtain ⟨entries, listed⟩ := @Holds.storeRr_listed _ _ threshold holds
  apply entered.armRr forSlice (listed.changeTime mem).activate
  exact fun isClean => (isClean.calm _ _ List.mem_cons_self).timed

/-- A nested call of `k_alarm_set` by `rr_thread_activate` keeps the invariant, however deep
it is nested. -/
theorem kAlarmSet_nested (threshold : Time) (fuel : Nat) :
    Nested (Alarms.kAlarmSet (World.host threshold) fuel) := by
  induction fuel with
  | zero =>
      intro setting alarms alarms' _ _ called
      cases called
  | succ fuel ih =>
      intro setting alarms alarms' holds forSlice called
      have calm : Clean setting.rr setting.timed alarms'.events →
          Calm setting.rr alarms.world.rrParams
            ⟨threshold, alarms.kalarms, alarms.kalarm, alarms.world⟩ :=
        fun isClean => isClean.calm _ _ (Alarms.mem_events_of_kAlarmSet called)
      unfold Alarms.kAlarmSet at called
      split_ifs at called with noAlarm
      dsimp only at called
      -- the call is recorded and the error number cleared before the alarm changes
      let noted := alarms.noted threshold setting.rr alarms.world.rrParams
      have entered : Holds { setting with armed := False } noted :=
        (holds.noteSet setting.rr alarms.world.rrParams).setErrno 0
      have recorded : Clean setting.rr setting.timed noted.events →
          Calm setting.rr alarms.world.rrParams
            ⟨threshold, alarms.kalarms, alarms.kalarm, alarms.world⟩ :=
        fun isClean => isClean.calm _ _ List.mem_cons_self
      obtain ⟨entries, listed⟩ := @Holds.storeRr_listed _ _ threshold holds
      split_ifs at called with differs
      · obtain ⟨scheduled, ran, finished⟩ := bind_ok called
        have armed : Holds { setting with armed := True }
            (noted.armAlarm setting.rr noted.world.rrParams) := holds.armSlice forSlice
        have runs : (noted.armAlarm setting.rr noted.world.rrParams).kScheduleAlarms
            (World.host threshold) (Alarms.kAlarmSet (World.host threshold) fuel) fuel =
              .ok scheduled := ran
        have scheduledHolds := (armed.kScheduleAlarms ih runs).1
        refine ⟨scheduledHolds.finishAdd_rr ih finished, fun topmost isClean => ?_⟩
        obtain ⟨kalarm, world, -⟩ := armAlarm_spec setting.rr noted.world.rrParams noted
        have steady := holds.steady (calm isClean) topmost kalarm rfl world
        obtain ⟨topmost', stays⟩ := armed.kScheduleAlarms_topmost steady ih runs
        have activeThread : (noted.armAlarm setting.rr noted.world.rrParams).world.activeThread =
            alarms.world.activeThread := by
          rw [world]
          rfl
        exact (scheduledHolds.finishAdd_topmost topmost' finished).trans (stays.trans activeThread)
      · obtain rfl := Except.ok.inj called
        obtain ⟨expTime, active⟩ := storeAlarm_same setting.rr alarms.world.rrParams alarms
        have same : Time.timeCmp (alarms.kalarm setting.rr).alarm.expTime
            alarms.world.rrParams.expTime = 0 := by
          rw [← expTime]
          exact not_not.mp differs
        have isOn : Clean setting.rr setting.timed noted.events →
            (noted.kalarm setting.rr).active = true :=
          fun isClean => (recorded isClean).changed.resolve_right (not_not.mpr same)
        exact ⟨entered.unchangedRr forSlice ⟨entries, listed⟩ same isOn, fun _ _ => rfl⟩

end Nested

end Oseer
