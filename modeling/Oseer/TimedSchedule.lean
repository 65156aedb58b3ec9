import Oseer.TimedInvariant

/-!
# A change of the active thread

`kthreads_schedule` restores the invariant, if a nested call of `k_alarm_set`
does: the alarm for the end of a slice is set while the new thread has the
processor already.  When an alarm that fires meanwhile takes it away again, the
store after the call marks a thread that is not active; in a run whose record is
`Clean` this does not happen.
-/

namespace Oseer

open LinkedRing Prog

/-- The alarm of the kernel is about to be set for the slice of the active thread. -/
def World.ForSlice (world : World) : Prop :=
  (world.tsched world.activeThread).policy = .rr →
    world.rrParams.param = world.activeThread ∧
      world.rrParams.expTime = (world.tsched world.activeThread).sliceEnd

/-- No thread that is ready has a higher priority than the active thread. -/
def World.Topmost (world : World) : Prop :=
  ∀ thread ∈ world.alive, (world.thread thread).state = .ready →
    (world.thread thread).prio ≤ (world.thread world.activeThread).prio

/-- A nested call of `k_alarm_set` by `rr_thread_activate` keeps the invariant, and the active
thread if the record stays clean. -/
def Nested (call : AlarmCall World) : Prop :=
  ∀ (setting : Setting) (alarms alarms' : Alarms World),
    Holds { setting with armed := False } alarms → alarms.world.ForSlice →
    call setting.rr alarms.world.rrParams alarms = .ok alarms' →
    Holds { setting with armed := True } alarms' ∧
      (alarms.world.Topmost → Clean setting.rr setting.timed alarms'.events →
        alarms'.world.activeThread = alarms.world.activeThread)

variable {setting : Setting} {alarms alarms' : Alarms World} {members members' : Members}
  {all : List Ptr} {thread : Ptr} {world' : World} {call : AlarmCall World}

section Flags

theorem Kept.reflag (kept : Kept setting alarms members all) {armed marked : Prop}
    (isArmed : armed → Clean setting.rr setting.timed alarms.events →
      (alarms.world.thread alarms.world.activeThread).state = .active →
      (alarms.world.tsched alarms.world.activeThread).policy = .rr → Armed setting.rr alarms)
    (isMarked : marked → Clean setting.rr setting.timed alarms.events →
      (alarms.world.thread alarms.world.activeThread).activated = true) :
    Kept { setting with armed := armed, marked := marked } alarms members all :=
  ⟨kept.threads, { kept.table with }, { kept.users with },
    ⟨kept.slices.only, isArmed, isMarked⟩, kept.events⟩

theorem Holds.weaken (holds : Holds { setting with armed := True, marked := True } alarms) :
    Holds setting alarms := by
  obtain ⟨members, all, kept, running⟩ := holds
  exact ⟨members, all, kept.reflag (fun _ => kept.slices.armed trivial)
    fun _ => kept.slices.marked trivial, running⟩

theorem Holds.unarmed (holds : Holds setting alarms) :
    Holds { setting with armed := False } alarms := by
  obtain ⟨members, all, kept, running⟩ := holds
  exact ⟨members, all, kept.reflag False.elim kept.slices.marked, running⟩

/-- The scheduling data may change where no slice has to be timed. -/
theorem Kept.tsched (kept : Kept setting alarms members all) (unarmed : ¬ setting.armed)
    (kernel : world'.kernel = alarms.world.kernel) (life : world'.life = alarms.world.life)
    (rrAlarm : world'.rrAlarm = alarms.world.rrAlarm)
    (rrParams : world'.rrParams.action = alarms.world.rrParams.action) :
    Kept setting { alarms with world := world' } members all := by
  have alive : world'.alive = alarms.world.alive := by
    unfold World.alive
    rw [life]
  have descriptor : world'.thread = alarms.world.thread := by
    unfold World.thread
    rw [kernel]
  have activeThread : world'.activeThread = alarms.world.activeThread :=
    congrArg Kernel.activeThread kernel
  refine
    { threads := kept.threads.congr kernel life
      table := kept.table.world rrAlarm rrParams alarms.events
      users := kept.users.world (by rw [alive]) (fun _ => .refl _) alarms.events
      slices := ⟨fun isClean thread mem activated => ?_, fun armed => absurd armed unarmed,
        fun isMarked isClean => ?_⟩
      events := kept.events }
  · rw [activeThread]
    exact kept.slices.only isClean thread (alive ▸ mem) (descriptor ▸ activated)
  · rw [activeThread, descriptor]
    exact kept.slices.marked isMarked isClean

end Flags

section Activate

/-- A thread has got the processor, and its slice has not begun. -/
structure Fresh (setting : Setting) (alarms : Alarms World) : Prop where
  holds : Holds { setting with armed := False, marked := False } alarms
  none : Clean setting.rr setting.timed alarms.events → ∀ thread ∈ alarms.world.alive,
    (alarms.world.thread thread).activated = false
  topmost : alarms.world.Topmost

/-- A thread has the processor, and its slice may begin. -/
structure Entering (setting : Setting) (thread : Ptr) (alarms : Alarms World) : Prop where
  holds : Holds { setting with armed := False, marked := False } alarms
  isActive : alarms.world.activeThread = thread
  topmost : alarms.world.Topmost

/-- The slice of a thread has begun, and it still has the processor if the record is clean. -/
structure Entered (setting : Setting) (thread : Ptr) (alarms : Alarms World) : Prop where
  holds : Holds { setting with armed := True, marked := False } alarms
  isActive : Clean setting.rr setting.timed alarms.events → alarms.world.activeThread = thread

/-- The beginning of a slice. -/
theorem startSlice_spec (thread : Ptr) :
    Ensures call (Entering setting thread)
      (Prog.modify fun world => (world.replenish thread).startSlice thread)
      (fun _ alarms => Entering setting thread alarms ∧ alarms.world.ForSlice) := by
  refine Ensures.modify.mono ?_ fun _ _ post => post
  rintro alarms ⟨⟨members, all, kept, running⟩, isActive, topmost⟩
  generalize startedIs : (alarms.world.replenish thread).startSlice thread = started
  have same : started.kernel = alarms.world.kernel ∧ started.life = alarms.world.life ∧
      started.rrAlarm = alarms.world.rrAlarm ∧
      started.rrParams.action = alarms.world.rrParams.action := by
    rw [← startedIs]
    unfold World.replenish
    split <;> exact ⟨rfl, rfl, rfl, rfl⟩
  have forSlice : started.rrParams.param = thread ∧
      started.rrParams.expTime = (started.tsched thread).sliceEnd := by
    rw [← startedIs]
    unfold World.startSlice World.setSched
    simp
  have activeThread : started.activeThread = thread :=
    (congrArg Kernel.activeThread same.1).trans isActive
  have kept' := kept.tsched not_false same.1 same.2.1 same.2.2.1 same.2.2.2
  have alive : started.alive = alarms.world.alive := by
    unfold World.alive
    rw [same.2.1]
  refine ⟨⟨⟨members, all, kept', ?_⟩, activeThread, ?_⟩, fun _ => ?_⟩
  · rw [same.1, alive]
    exact running
  · have descriptor : started.thread = alarms.world.thread := by
      unfold World.thread
      rw [same.1]
    change started.Topmost
    unfold World.Topmost
    rw [alive, descriptor, activeThread, ← isActive]
    exact topmost
  · change started.rrParams.param = started.activeThread ∧ _
    rw [activeThread]
    exact forSlice

/-- The store of `ksched_activate_thread`. -/
theorem storeActivated_spec (thread : Ptr) :
    Ensures call (Entered setting thread)
      (Prog.modify fun world => world.storeActivated thread)
      (fun _ alarms => Holds { setting with armed := True, marked := True } alarms) := by
  refine Ensures.modify.mono ?_ fun _ _ post => post
  rintro alarms ⟨⟨members, all, kept, running⟩, stays⟩
  generalize storedIs : alarms.world.storeActivated thread = stored
  have kernel : stored.kernel = alarms.world.kernel.setThread thread
      fun descriptor => { descriptor with activated := true } := storedIs ▸ rfl
  have life : stored.life = alarms.world.life := storedIs ▸ rfl
  have tsched : stored.tsched = alarms.world.tsched := storedIs ▸ rfl
  have activeThread : stored.activeThread = alarms.world.activeThread := storedIs ▸ rfl
  have state : ∀ other, (stored.thread other).state = (alarms.world.thread other).state := by
    intro other
    unfold World.thread
    rw [kernel]
    exact Kernel.setThread_field Thread.state rfl
  have activated : ∀ other, other ≠ thread →
      stored.thread other = alarms.world.thread other := by
    intro other different
    unfold World.thread
    rw [kernel]
    exact Kernel.setThread_other different
  have alive : stored.alive = alarms.world.alive := by
    unfold World.alive
    rw [life]
  have set : Threads setting.idle setting.waits (alarms.world.onKernel (Kernel.setThread thread
      fun descriptor => { descriptor with activated := true })) members all :=
    kept.threads.setThread rfl rfl rfl rfl rfl le_rfl
  have threads : Threads setting.idle setting.waits stored members all := set.congr kernel life
  have rrAlarm : stored.rrAlarm = alarms.world.rrAlarm := storedIs ▸ rfl
  have rrParams : stored.rrParams.action = alarms.world.rrParams.action := storedIs ▸ rfl
  refine ⟨members, all, ⟨threads, ?_, ?_, ⟨?_, ?_, ?_⟩, kept.events⟩, ?_⟩
  · have table := kept.table.world rrAlarm rrParams alarms.events
    exact { table with }
  · have users := kept.users.world (by rw [alive]) (fun _ => .refl _) alarms.events
    exact { users with }
  · intro isClean other mem isActivated
    rw [activeThread]
    by_cases same : other = thread
    · exact same.trans (stays isClean).symm
    · rw [activated other same] at isActivated
      exact kept.slices.only isClean other (alive ▸ mem) isActivated
  · intro _ isClean isActive policy
    rw [activeThread, state] at isActive
    rw [activeThread, tsched] at policy
    obtain ⟨isOn, param, expTime⟩ := kept.slices.armed trivial isClean isActive policy
    refine ⟨isOn, param.trans activeThread.symm, ?_⟩
    rw [activeThread, tsched]
    exact expTime
  · intro _ isClean
    rw [activeThread, stays isClean]
    unfold World.thread
    rw [kernel, Kernel.setThread_same]
  · have isActive : stored.kernel.sched.activeThread = alarms.world.activeThread := activeThread
    refine ⟨?_, ?_⟩
    · rw [isActive, alive]
      exact running.mem_alive
    · rw [isActive]
      exact (state _).trans running.active

/-- `thread_activate` for the thread that has got the processor. -/
theorem threadActivate_spec (nested : Nested call) (thread : Ptr) (policy : SchedPolicy) :
    Ensures call
      (fun alarms => Entering setting thread alarms ∧
        (alarms.world.tsched thread).policy = policy)
      (World.threadActivate policy thread) fun _ => Entered setting thread := by
  cases policy with
  | fifo =>
      change Ensures call _ (pure ()) _
      refine Ensures.pure.mono ?_ fun _ _ post => post
      rintro alarms ⟨⟨⟨members, all, kept, running⟩, rfl, -⟩, isFifo⟩
      have notRr : (alarms.world.tsched alarms.world.activeThread).policy ≠ .rr := by
        rw [isFifo]
        decide
      exact ⟨⟨members, all, kept.reflag (fun _ _ _ policy => absurd policy notRr) False.elim,
        running⟩, fun _ => rfl⟩
  | rr =>
      change Ensures call _ (World.rrThreadActivate thread) _
      unfold World.rrThreadActivate
      have started : Ensures call
          (fun alarms => Entering setting thread alarms ∧
            (alarms.world.tsched thread).policy = .rr)
          (Prog.modify fun world => (world.replenish thread).startSlice thread)
          (fun _ alarms => Entering setting thread alarms ∧ alarms.world.ForSlice) :=
        (startSlice_spec thread).mono (fun _ pre => pre.1) fun _ _ post => post
      refine Ensures.bind started fun _ => ?_
      refine Ensures.bind Ensures.read fun world => ?_
      refine Ensures.setAlarm.mono ?_ fun _ _ post => post
      rintro alarms ⟨rfl, ⟨holds, isActive, topmost⟩, forSlice⟩ alarms' called
      have rrAlarm : alarms.world.rrAlarm = setting.rr := by
        obtain ⟨members, all, kept, -⟩ := holds
        exact kept.table.rr_eq
      rw [rrAlarm] at called
      obtain ⟨after, stays⟩ :=
        nested { setting with marked := False } alarms alarms' holds forSlice called
      exact ⟨after, fun isClean => (stays topmost isClean).trans isActive⟩

/-- `ksched_activate_thread` of the thread that has got the processor. -/
theorem kschedActivateThread_spec (nested : Nested call) (thread : Ptr) :
    Ensures call (fun alarms => Fresh setting alarms ∧ alarms.world.activeThread = thread)
      (World.kschedActivateThread thread)
      (fun _ alarms => Holds { setting with armed := True, marked := True } alarms) := by
  unfold World.kschedActivateThread
  refine Ensures.bind Ensures.read fun world => ?_
  apply Ensures.ite
  · intro isActivated
    refine Ensures.pure.mono ?_ fun _ _ post => post
    rintro alarms ⟨rfl, fresh, rfl⟩
    -- a thread is marked before its slice begins only if the record is not clean
    obtain ⟨members, all, kept, running⟩ := fresh.holds
    have unclean : ¬ Clean setting.rr setting.timed alarms.events := fun clean => by
      have none : (alarms.world.thread alarms.world.activeThread).activated = false :=
        fresh.none clean _ running.mem_alive
      rw [isActivated] at none
      cases none
    exact ⟨members, all, kept.reflag (fun _ clean => absurd clean unclean)
      fun _ clean => absurd clean unclean, running⟩
  · intro _
    refine Ensures.bind ?_ fun _ => storeActivated_spec thread
    refine (threadActivate_spec nested thread (world.tsched thread).policy).mono ?_
      fun _ _ post => post
    rintro alarms ⟨rfl, fresh, isActive⟩
    exact ⟨⟨fresh.holds, isActive, fresh.topmost⟩, rfl⟩

end Activate

section Schedule

/-- No thread that is ready, or has the processor, has a priority above the level. -/
def World.Below (world : World) (level : Nat) : Prop :=
  ∀ thread ∈ world.alive, (world.thread thread).state = .ready ∨
    thread = world.activeThread ∧ (world.thread thread).state = .active →
      (world.thread thread).prio ≤ level

/-- The priority of a ready thread is not above the highest that `kthreads_schedule` finds. -/
theorem Sound.le_highest {sched : Sched} {alive : Set Ptr} (sound : Sound sched alive members)
    (mem : thread ∈ alive) (isReady : (sched.threads thread).state = .ready) :
    ((sched.threads thread).prio : Int) ≤ ReadyMask.kthreadReadyListHighest sched.rdyMask := by
  rcases sound.located thread mem with ⟨active, -⟩ | ⟨queue, inQueue⟩
  · exact absurd (active.symm.trans isReady) (by decide)
  · have placed := sound.placed queue thread inQueue
    have queueReady : queue.state = .ready := placed.inState.symm.trans isReady
    cases queue with
    | ready level =>
        have isLevel : (sched.threads thread).prio = level := placed.level level rfl
        have bound : level < PRIO_LEVELS := isLevel ▸ sound.prio thread mem
        have notEmpty : members (.ready level) ≠ [] := List.ne_nil_of_mem inQueue
        rw [isLevel]
        rcases sound.mask.highest with ⟨-, noLevel⟩ | ⟨highest, -, isHighest, -, greatest⟩
        · exact absurd notEmpty (noLevel level bound)
        · rw [isHighest]
          by_contra above
          exact greatest level bound (by omega) notEmpty
    | _ => cases queueReady

/-- When `kthreads_schedule` changes the active thread, no thread has a priority above the
highest that it finds. -/
theorem Kept.below (kept : Kept setting alarms members all)
    (changes : alarms.world.activeThread = 0 ∨
      (alarms.world.thread alarms.world.activeThread).state ≠ .active ∨
        ((alarms.world.thread alarms.world.activeThread).prio : Int) <
          ReadyMask.kthreadReadyListHighest alarms.world.kernel.sched.rdyMask) :
    alarms.world.Below
      (ReadyMask.kthreadReadyListHighest alarms.world.kernel.sched.rdyMask).toNat := by
  rintro thread mem (ready | ⟨rfl, active⟩)
  · have bound := kept.threads.sound.le_highest mem ready
    exact Int.toNat_le_toNat bound
  · rcases changes with isNull | inactive | lower
    · exact absurd isNull (kept.threads.sound.ne_zero mem)
    · exact absurd active inactive
    · exact Int.toNat_le_toNat lower.le

/-- The change of the active thread in `kthreads_schedule`. -/
theorem Ready.switched {level : Nat} (ready : Ready setting alarms)
    (below : alarms.world.Below level)
    (switched : alarms.world.leaveActive.enterActive level = .ok world') :
    Fresh setting { alarms with world := world' } := by
  obtain ⟨members, all, kept, poised⟩ := ready
  obtain ⟨members', change⟩ := kept.threads.switch poised switched
  have alive : world'.alive = alarms.world.alive := change.same.alive
  have none : Clean setting.rr setting.timed alarms.events →
      ∀ thread ∈ world'.alive, (world'.thread thread).activated = false := by
    intro isClean thread mem
    rw [alive] at mem
    by_contra isActivated
    obtain ⟨was, different⟩ := change.activated thread mem (by simpa using isActivated)
    exact different (kept.slices.only isClean thread mem was)
  have topmost : world'.Topmost := by
    intro thread mem isReady
    have samePrio : (world'.thread thread).prio = (alarms.world.thread thread).prio :=
      change.same.data.prio thread
    rw [change.prio, samePrio]
    exact below thread (alive ▸ mem) (change.ready thread isReady)
  refine ⟨⟨members', all, ⟨change.threads, ?_, ?_, ?_, kept.events⟩, change.running⟩, none,
    topmost⟩
  · have rrParams := congrArg Alarm.action change.same.rrParams
    have table := kept.table.world change.same.rrAlarm rrParams alarms.events
    exact { table with }
  · have fewer : ∀ id, (members' (.alarm id)).Sublist (members (.alarm id)) := by
      intro id
      rw [change.waiting (.alarm id) rfl not_false]
    have users := kept.users.world (by rw [alive]) fewer alarms.events
    exact { users with }
  · exact
      { only := fun isClean thread mem isActivated => by
          have notSet := none isClean thread mem
          rw [isActivated] at notSet
          cases notSet
        armed := False.elim
        marked := False.elim }

theorem enterActive_spec (level : Nat) :
    Ensures call (fun alarms => Ready setting alarms ∧ alarms.world.Below level)
      (Prog.attempt fun world => world.leaveActive.enterActive level)
      fun _ => Fresh setting := by
  refine Ensures.attempt.mono ?_ fun _ _ post => post
  rintro alarms ⟨ready, below⟩ world' result
  exact ready.switched below result

theorem switch_spec (nested : Nested call) (level : Nat) :
    Ensures call (fun alarms => Ready setting alarms ∧ alarms.world.Below level)
      (do
        Prog.attempt fun world => world.leaveActive.enterActive level
        let world ← Prog.get
        World.kschedActivateThread world.activeThread)
      (fun _ alarms => Holds { setting with armed := True, marked := True } alarms) := by
  refine Ensures.bind (enterActive_spec level) fun _ => ?_
  refine Ensures.bind Ensures.read fun entered => ?_
  refine (kschedActivateThread_spec nested entered.activeThread).mono ?_ fun _ _ holds => holds
  rintro alarms ⟨rfl, fresh⟩
  exact ⟨fresh, rfl⟩

/-- `kthreads_schedule`. -/
theorem kthreadsSchedule_spec (nested : Nested call) :
    Ensures call (Ready setting) World.kthreadsSchedule fun _ => Holds setting := by
  unfold World.kthreadsSchedule
  refine Ensures.bind Ensures.read fun world => ?_
  apply Ensures.ite
  · intro _
    refine Ensures.attempt.mono ?_ fun _ _ post => post
    intro alarms _ world' failed
    cases failed
  · intro someThread
    apply Ensures.ite
    · intro changes
      refine (switch_spec nested _).mono ?_ fun _ _ holds => holds.weaken
      rintro alarms ⟨rfl, ready⟩
      have ⟨members, all, kept, _⟩ := ready
      exact ⟨ready, kept.below changes⟩
    · intro stays
      refine Ensures.pure.mono ?_ fun _ _ post => post
      rintro alarms ⟨rfl, members, all, kept, poised⟩
      obtain ⟨-, rest⟩ := not_or.mp stays
      obtain ⟨notInactive, -⟩ := not_or.mp rest
      have isActive : (alarms.world.thread alarms.world.activeThread).state = .active :=
        not_not.mp notInactive
      exact ⟨members, all, kept, poised.current isActive, isActive⟩

/-- `kthreads_schedule` where no thread has the processor. -/
theorem kthreadsSchedule_first (nested : Nested call) :
    Ensures call (fun alarms => Ready setting alarms ∧ alarms.world.activeThread = 0)
      World.kthreadsSchedule
      (fun _ alarms => Holds { setting with armed := True, marked := True } alarms) := by
  unfold World.kthreadsSchedule
  refine Ensures.bind Ensures.read fun world => ?_
  apply Ensures.ite
  · intro _
    refine Ensures.attempt.mono ?_ fun _ _ post => post
    intro alarms _ world' failed
    cases failed
  · intro _
    apply Ensures.ite
    · intro changes
      refine (switch_spec nested _).mono ?_ fun _ _ holds => holds
      rintro alarms ⟨rfl, ready, -⟩
      have ⟨members, all, kept, _⟩ := ready
      exact ⟨ready, kept.below changes⟩
    · intro stays alarms ran pre _
      obtain ⟨rfl, -, isNull⟩ := pre
      exact absurd (.inl isNull) stays

/-- The active thread is put in a ready list. -/
theorem Kept.parked {place : Nat} (kept : Kept { setting with armed := False } alarms members all)
    (running : Running alarms.world.kernel.sched alarms.world.alive)
    (isActive : alarms.world.activeThread = thread) (isPlace : place = FIRST ∨ place = LAST) :
    ∃ members', Kept setting { alarms with
        world := alarms.world.kthreadMoveToReady thread place } members' all ∧
      ((alarms.world.kthreadMoveToReady thread place).thread thread).state = .ready := by
  have mem : alarms.world.activeThread ∈ alarms.world.alive := running.mem_alive
  have active : (alarms.world.thread alarms.world.activeThread).state = .active := running.active
  rw [isActive] at mem active
  obtain ⟨members', leaves, ready, flag⟩ := kept.threads.leaves_ready mem active isPlace
  generalize movedIs : alarms.world.kthreadMoveToReady thread place = moved at leaves ready flag ⊢
  have alive : moved.alive = alarms.world.alive := leaves.moves.alive
  have sameFlag : ∀ thread, (moved.thread thread).activated =
      (alarms.world.thread thread).activated := by
    intro other
    by_cases same : other = thread
    · rw [same, flag]
    · rw [leaves.moves.others other same]
  refine ⟨members', ⟨leaves.threads, ?_, ?_, ?_, kept.events⟩, ready⟩
  · have rrParams := congrArg Alarm.action leaves.moves.rrParams
    have table := kept.table.world leaves.moves.rrAlarm rrParams alarms.events
    exact { table with }
  · have fewer : ∀ id, (members' (.alarm id)).Sublist (members (.alarm id)) := by
      intro id
      rw [leaves.waiting (.alarm id) rfl not_false]
    have users := kept.users.world (by rw [alive]) fewer alarms.events
    exact { users with }
  · refine ⟨fun isClean thread mem activated => ?_, fun _ _ isActive => ?_, fun isMarked isClean => ?_⟩
    · rw [leaves.moves.activeThread]
      exact kept.slices.only isClean thread (alive ▸ mem) ((sameFlag thread) ▸ activated)
    · rw [leaves.moves.activeThread, ‹alarms.world.activeThread = thread›, ready] at isActive
      cases isActive
    · rw [leaves.moves.activeThread, sameFlag]
      exact kept.slices.marked isMarked isClean

/-- The time slice of the active thread has ended. -/
theorem Holds.expire (holds : Holds { setting with armed := False } alarms)
    (isActive : alarms.world.activeThread = thread) :
    Ready setting (alarms.onWorld fun world => world.expire thread) := by
  obtain ⟨members, all, kept, running⟩ := holds
  generalize spentIs : alarms.world.setSched thread
    (fun data => { data with remainder := ⟨0, 0⟩ }) = spent
  have kernel : spent.kernel = alarms.world.kernel := spentIs ▸ rfl
  have life : spent.life = alarms.world.life := spentIs ▸ rfl
  have stillActive : spent.activeThread = thread :=
    (congrArg Kernel.activeThread kernel).trans isActive
  have usedUp : spent.UsedUp thread := by
    rw [← spentIs]
    unfold World.UsedUp World.setSched
    simp
  have spentKept : Kept { setting with armed := False } { alarms with world := spent } members
      all := by
    apply kept.tsched not_false kernel life <;> rw [← spentIs] <;> rfl
  have stillRuns : Running spent.kernel.sched spent.alive := by
    unfold World.alive
    rw [kernel, life]
    exact running
  obtain ⟨members', parked, ready⟩ := spentKept.parked stillRuns stillActive (.inr rfl)
  have moved : spent.kthreadMoveToReady thread LAST = alarms.world.expire thread := by
    rw [← spentIs]
    rfl
  have movedActive : (spent.kthreadMoveToReady thread LAST).activeThread = thread :=
    World.kthreadMoveToReady_activeThread.trans stillActive
  refine ⟨members', all, ?_, ?_⟩
  · rw [moved] at parked
    exact parked
  · change Poised (alarms.world.expire thread)
    rw [← moved]
    refine ⟨fun active => ?_, fun _ _ _ => ?_⟩
    · rw [movedActive, ready] at active
      cases active
    · rw [movedActive]
      exact usedUp

/-- `rr_timer`: an event for a thread that is not active any more does nothing. -/
theorem rrTimer_spec (nested : Nested call) (param : Ptr) :
    Ensures call
      (fun alarms => Holds { setting with armed := False } alarms ∧
        (param ≠ alarms.world.activeThread → Holds setting alarms))
      (World.rrTimer param) fun _ => Holds setting := by
  unfold World.rrTimer
  refine Ensures.bind Ensures.read fun world => ?_
  apply Ensures.ite
  · intro different
    refine Ensures.pure.mono ?_ fun _ _ post => post
    rintro alarms ⟨rfl, -, holds⟩
    exact holds (Ne.symm different)
  · intro isActive
    refine Ensures.bind ?_ fun _ => kthreadsSchedule_spec nested
    refine Ensures.modify.mono ?_ fun _ _ post => post
    rintro alarms ⟨rfl, holds, -⟩
    exact holds.expire (not_not.mp isActive)

end Schedule

end Oseer
