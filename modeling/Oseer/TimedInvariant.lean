import Oseer.AlarmList
import Oseer.ProgramRules
import Oseer.TimedKernel

/-!
# The invariant of the kernel with alarms

`Kept` is what holds whenever `k_alarm_set` is entered or left, at any depth: the
threads are sound, the list of alarms is, the owners of active alarms and the
threads that wait for alarms are alive, and the slice of the active thread is
timed.  The last part is about runs whose record is `Clean`.
-/

namespace Oseer

open LinkedRing Results

/-- What all the parts of the kernel that run in one entry have in common.  `kalarm`
gives the alarms as they were, `waits` the threads that may wait, `attend` the
alarms that must be active if a thread waits for them; `timed` says that slices are
looked at, `lasting` that threads outlast all their alarms, `armed` that the slice of
the active thread is timed, and `marked` that its flag is set. -/
structure Setting where
  idle : Ptr
  rr : Ptr
  live : Set Ptr
  kalarm : Ptr → KAlarm
  waits : Set Ptr
  caller : Ptr
  attend : Set Ptr
  timed : Prop
  lasting : Prop
  armed : Prop
  marked : Prop

/-- What firing an alarm keeps. -/
structure SameAlarm (kalarm kalarm' : KAlarm) : Prop where
  thread : kalarm'.thread = kalarm.thread
  flags : kalarm'.alarm.flags = kalarm.alarm.flags
  active : kalarm'.active = true → kalarm.active = true
  expTime : kalarm.alarm.flags &&& ALARM_PERIODIC = 0 →
    kalarm'.alarm.expTime = kalarm.alarm.expTime

/-- The alarms: the one of the kernel, at `rr`, and those of threads. -/
structure Table (setting : Setting) (alarms : Alarms World) : Prop where
  list : Alarms.ListSound setting.live alarms
  rr_live : setting.rr ∈ setting.live
  rr_eq : alarms.world.rrAlarm = setting.rr
  rr_owner : (alarms.kalarm setting.rr).thread = 0
  rr_action : (alarms.kalarm setting.rr).alarm.action = rrTimerAddress
  params_action : alarms.world.rrParams.action = rrTimerAddress
  owned : ∀ id ∈ setting.live, id ≠ setting.rr → (alarms.kalarm id).thread ≠ 0
  same : ∀ id, id ≠ setting.rr → SameAlarm (setting.kalarm id) (alarms.kalarm id)

/-- The threads that alarms have to do with. -/
structure Users (setting : Setting) (alarms : Alarms World) (members : Members) : Prop where
  owners : ∀ id ∈ setting.live, id ≠ setting.rr →
    (setting.lasting ∨ (alarms.kalarm id).active = true) →
      (alarms.kalarm id).thread ∈ alarms.world.alive
  queues : ∀ id, members (.alarm id) ≠ [] → id ∈ setting.live ∧ id ≠ setting.rr
  attended : ∀ id ∈ setting.attend, members (.alarm id) ≠ [] → (alarms.kalarm id).active = true

/-- The time up to which `k_schedule_alarms` fires alarms. -/
def refTimeOf (threshold : Time) (world : World) : Time :=
  Time.timeAdd world.getTime.1 threshold

/-- `k_alarm_add` takes the expiration time for one at which the alarm can expire. -/
def Alarm.Timed (alarm : Alarm) : Prop := 0 < alarm.expTime.sec + alarm.expTime.nsec

instance (alarm : Alarm) : Decidable alarm.Timed := inferInstanceAs (Decidable (_ < _))

/-- No thread that an alarm makes ready, when it expires, takes the processor away from the
active thread: neither the one that it creates nor one that waits for it. -/
structure Mild (id : Ptr) (kalarm : KAlarm) (world : World) : Prop where
  creates : kalarm.alarm.action ≠ 0 →
    Kernel.clampPrio ((world.thread kalarm.thread).prio + 1) ≤
      (world.thread world.activeThread).prio
  releases : ∀ thread ∈ world.alive, (world.thread thread).state = .wait →
    (world.thread thread).queue = some (.alarm id) →
      (world.thread thread).prio ≤ (world.thread world.activeThread).prio

/-- The alarm at `rr` is set for the end of a slice: the time lies ahead and is not one that
`k_alarm_set` or `k_alarm_add` ignores, and no alarm that is due takes the processor away
from the active thread. -/
structure Calm (rr : Ptr) (alarm : Alarm) (memory : AlarmMemory World) : Prop where
  timed : alarm.Timed
  later : 0 < Time.timeCmp alarm.expTime (refTimeOf memory.threshold memory.world)
  changed : (memory.kalarm rr).active = true ∨
    Time.timeCmp (memory.kalarm rr).alarm.expTime alarm.expTime ≠ 0
  mild : ∀ entries, memory.kalarms.Linked (fun _ => entries) → ∀ id ∈ entries, id ≠ rr →
    Time.timeCmp (memory.kalarm id).alarm.expTime
        (refTimeOf memory.threshold memory.world) ≤ 0 →
      Mild id (memory.kalarm id) memory.world

/-- Each time that the alarm at `rr` was set was calm. -/
structure Clean (rr : Ptr) (timed : Prop) (events : List (AlarmEvent World)) : Prop where
  timed : timed
  calm : ∀ alarm memory, .set rr alarm memory ∈ events → Calm rr alarm memory

theorem Clean.of_subset {rr : Ptr} {timed : Prop} {events events' : List (AlarmEvent World)}
    (clean : Clean rr timed events') (subset : events ⊆ events') : Clean rr timed events :=
  ⟨clean.timed, fun alarm memory mem => clean.calm alarm memory (subset mem)⟩

/-- The alarm at `rr` is set for the end of the slice of the active thread. -/
structure Armed (rr : Ptr) (alarms : Alarms World) : Prop where
  active : (alarms.kalarm rr).active = true
  param : (alarms.kalarm rr).alarm.param = alarms.world.activeThread
  expTime : (alarms.kalarm rr).alarm.expTime =
    (alarms.world.tsched alarms.world.activeThread).sliceEnd

/-- The flags `activated`, and the slice of the active thread. -/
structure Slices (setting : Setting) (alarms : Alarms World) : Prop where
  only : Clean setting.rr setting.timed alarms.events → ∀ thread ∈ alarms.world.alive,
    (alarms.world.thread thread).activated = true → thread = alarms.world.activeThread
  armed : setting.armed → Clean setting.rr setting.timed alarms.events →
    (alarms.world.thread alarms.world.activeThread).state = .active →
    (alarms.world.tsched alarms.world.activeThread).policy = .rr → Armed setting.rr alarms
  marked : setting.marked → Clean setting.rr setting.timed alarms.events →
    (alarms.world.thread alarms.world.activeThread).activated = true

/-- The descriptor of the thread is not freed, nor its process; `home` is the process
that is never freed. -/
def World.Exists (world : World) (home thread : Ptr) : Prop :=
  ∃ all procs, world.kernel.allThreads.Linked (fun _ => all) ∧ thread ∈ all ∧
    world.kernel.procs.Linked (fun _ => procs) ∧
    ((world.thread thread).proc = home ∨ (world.thread thread).proc ∈ procs)

/-- The thread is linked in no queue. -/
def World.Unlinked (world : World) (thread : Ptr) : Prop :=
  ∃ members, world.kernel.sched.queues.Linked members ∧ ∀ queue, thread ∉ members queue

/-- An alarm that fires has an owner that exists, and a thread that is put in the
queue of an alarm is the caller and is in no queue. -/
def ProperEvent (idle caller : Ptr) : AlarmEvent World → Prop
  | .fired _ kalarm world => kalarm.thread ≠ 0 →
      world.Exists (world.thread idle).proc kalarm.thread
  | .enqueued thread _ world => thread = caller ∧ world.Unlinked thread
  | .set .. => True

/-- The invariant wherever an alarm may be set or fired. -/
structure Kept (setting : Setting) (alarms : Alarms World) (members : Members)
    (all : List Ptr) : Prop where
  threads : Threads setting.idle setting.waits alarms.world members all
  table : Table setting alarms
  users : Users setting alarms members
  slices : Slices setting alarms
  events : ∀ event ∈ alarms.events, ProperEvent setting.idle setting.caller event

/-- The invariant while the active thread has the processor. -/
def Holds (setting : Setting) (alarms : Alarms World) : Prop :=
  ∃ members all, Kept setting alarms members all ∧
    Running alarms.world.kernel.sched alarms.world.alive

/-- The invariant before a call of `kthreads_schedule`. -/
def Ready (setting : Setting) (alarms : Alarms World) : Prop :=
  ∃ members all, Kept setting alarms members all ∧ Poised alarms.world

variable {setting setting' : Setting} {alarms alarms' : Alarms World} {members members' : Members}
  {all : List Ptr} {id thread : Ptr} {world' : World}

theorem Running.poised {world : World} (running : Running world.kernel.sched world.alive) :
    Poised world where
  current := fun _ => running.mem_alive
  parked := fun ready => by
    have active : (world.thread world.activeThread).state = .active := running.active
    rw [active] at ready
    cases ready

theorem Holds.ready (holds : Holds setting alarms) : Ready setting alarms := by
  obtain ⟨members, all, kept, running⟩ := holds
  exact ⟨members, all, kept, running.poised⟩

section Frame

theorem Table.world (table : Table setting alarms) (rrAlarm : world'.rrAlarm = alarms.world.rrAlarm)
    (rrParams : world'.rrParams.action = alarms.world.rrParams.action)
    (events : List (AlarmEvent World)) :
    Table setting { alarms with world := world', events := events } where
  list := table.list.world world' events
  rr_live := table.rr_live
  rr_eq := rrAlarm.trans table.rr_eq
  rr_owner := table.rr_owner
  rr_action := table.rr_action
  params_action := rrParams.trans table.params_action
  owned := table.owned
  same := table.same

/-- The threads of alarms stay alive, and no queue of an alarm grows. -/
theorem Users.world (users : Users setting alarms members)
    (alive : alarms.world.alive ⊆ world'.alive)
    (fewer : ∀ id, (members' (.alarm id)).Sublist (members (.alarm id)))
    (events : List (AlarmEvent World)) :
    Users setting { alarms with world := world', events := events } members' := by
  have kept : ∀ id, members' (.alarm id) ≠ [] → members (.alarm id) ≠ [] := by
    intro id notEmpty empty
    have none := fewer id
    rw [empty] at none
    exact notEmpty (List.sublist_nil.mp none)
  exact
    { owners := fun id mem notRr active => alive (users.owners id mem notRr active)
      queues := fun id notEmpty => users.queues id (kept id notEmpty)
      attended := fun id mem notEmpty => users.attended id mem (kept id notEmpty) }

/-- The slices depend on the flags, on the active thread, and on the alarm at `rr`. -/
theorem Slices.congr (slices : Slices setting alarms)
    (events : alarms.events ⊆ alarms'.events)
    (activated : ∀ thread ∈ alarms'.world.alive,
      (alarms'.world.thread thread).activated = true →
        thread ∈ alarms.world.alive ∧ (alarms.world.thread thread).activated = true)
    (activeThread : alarms'.world.activeThread = alarms.world.activeThread)
    (active : (alarms'.world.thread alarms.world.activeThread).state = .active →
      (alarms.world.thread alarms.world.activeThread).state = .active)
    (flag : (alarms'.world.thread alarms.world.activeThread).activated =
      (alarms.world.thread alarms.world.activeThread).activated)
    (tsched : alarms'.world.tsched alarms.world.activeThread =
      alarms.world.tsched alarms.world.activeThread)
    (kalarm : alarms'.kalarm setting.rr = alarms.kalarm setting.rr) :
    Slices setting alarms' where
  only := fun isClean thread mem isActivated => by
    obtain ⟨mem, isActivated⟩ := activated thread mem isActivated
    exact (slices.only (isClean.of_subset events) thread mem isActivated).trans activeThread.symm
  armed := fun isArmed isClean isActive policy => by
    rw [activeThread] at isActive
    rw [activeThread, tsched] at policy
    obtain ⟨isOn, param, expTime⟩ :=
      slices.armed isArmed (isClean.of_subset events) (active isActive) policy
    refine ⟨?_, ?_, ?_⟩
    · rw [kalarm]
      exact isOn
    · rw [kalarm, activeThread]
      exact param
    · rw [kalarm, activeThread, tsched]
      exact expTime
  marked := fun isMarked isClean => by
    rw [activeThread, flag]
    exact slices.marked isMarked (isClean.of_subset events)

/-- Changes that only add to the record, and to the parts of the memory that the
invariant does not look at. -/
theorem Kept.frame (kept : Kept setting alarms members all)
    (kernel : world'.kernel = alarms.world.kernel) (life : world'.life = alarms.world.life)
    (tsched : world'.tsched alarms.world.activeThread =
      alarms.world.tsched alarms.world.activeThread)
    (rrAlarm : world'.rrAlarm = alarms.world.rrAlarm)
    (rrParams : world'.rrParams.action = alarms.world.rrParams.action) :
    Kept setting { alarms with world := world' } members all := by
  have alive : world'.alive = alarms.world.alive := by
    unfold World.alive
    rw [life]
  have descriptor : world'.thread = alarms.world.thread := by
    unfold World.thread
    rw [kernel]
  have activeThread : world'.activeThread = alarms.world.activeThread :=
    congrArg Kernel.activeThread kernel
  refine
    { threads := kept.threads.congr kernel life
      table := kept.table.world rrAlarm rrParams alarms.events
      users := kept.users.world (by rw [alive]) (fun _ => .refl _) alarms.events
      slices := kept.slices.congr (List.Subset.refl _) ?_ activeThread ?_ ?_ ?_ rfl
      events := kept.events }
  · intro thread mem activated
    exact ⟨alive ▸ mem, descriptor ▸ activated⟩
  · exact fun isActive => descriptor ▸ isActive
  · rw [descriptor]
  · exact tsched

theorem Kept.event (kept : Kept setting alarms members all) {event : AlarmEvent World}
    (proper : ProperEvent setting.idle setting.caller event) :
    Kept setting { alarms with events := event :: alarms.events } members all where
  threads := kept.threads
  table := kept.table.world rfl rfl _
  users := kept.users.world (Set.Subset.refl _) (fun _ => .refl _) _
  slices := kept.slices.congr (List.subset_cons_self ..) (fun _ mem activated => ⟨mem, activated⟩)
    rfl id rfl rfl rfl
  events := fun other mem => by
    rcases List.mem_cons.mp mem with rfl | old
    · exact proper
    · exact kept.events other old

/-- The kernel changes where the invariant of the threads does not look. -/
theorem Kept.kernel (kept : Kept setting alarms members all) {kernel' : Kernel}
    (threads : Threads setting.idle setting.waits { alarms.world with kernel := kernel' }
      members all)
    (activeThread : kernel'.activeThread = alarms.world.activeThread)
    (state : ∀ thread, (kernel'.thread thread).state = (alarms.world.thread thread).state)
    (activated : ∀ thread,
      (kernel'.thread thread).activated = (alarms.world.thread thread).activated) :
    Kept setting { alarms with world := { alarms.world with kernel := kernel' } } members all where
  threads := threads
  table := kept.table.world (by rfl) (by rfl) _
  users := kept.users.world (by rfl) (fun _ => .refl _) _
  slices := by
    refine kept.slices.congr (List.Subset.refl _) ?_ activeThread (fun isActive => (state _).symm.trans isActive) (activated _) rfl rfl
    intro thread mem isActivated
    exact ⟨mem, (activated thread).symm.trans isActivated⟩
  events := kept.events

end Frame

section World

variable {threshold : Time} {kalarm : KAlarm}

theorem Kept.setErrno (kept : Kept setting alarms members all) (errnum : Int) :
    Kept setting (alarms.onWorld (World.onKernel (Kernel.setErrno errnum))) members all := by
  have threads : Threads setting.idle setting.waits { alarms.world with
      kernel := alarms.world.kernel.setErrno errnum } members all :=
    kept.threads.setThread rfl rfl rfl rfl rfl le_rfl
  refine kept.kernel threads rfl (fun thread => ?_) fun thread => ?_
  · exact Kernel.setThread_field Thread.state rfl
  · exact Kernel.setThread_field Thread.activated rfl

theorem Kept.kfree (kept : Kept setting alarms members all) (block : Ptr) :
    Kept setting (alarms.onWorld ((World.host threshold).kfree block)) members all :=
  kept.kernel (kept.threads.kfree block) rfl (fun _ => rfl) fun _ => rfl

/-- A new thread changes nothing for the other threads. -/
theorem Kept.spawned (kept : Kept setting alarms members all)
    (running : Running alarms.world.kernel.sched alarms.world.alive) {proc : Ptr}
    (spawned : Spawned setting.idle setting.waits alarms.world world' members members' all thread
      proc) :
    Kept setting { alarms with world := world' } members' (all ++ [thread]) ∧
      Running world'.kernel.sched world'.alive := by
  have dead : thread ∉ alarms.world.alive := fun mem =>
    spawned.fresh (kept.threads.ledger.alive_listed thread mem)
  have activeMem : alarms.world.activeThread ∈ alarms.world.alive := running.mem_alive
  have different : alarms.world.activeThread ≠ thread := fun same => dead (same ▸ activeMem)
  have sameActive : world'.thread alarms.world.activeThread =
      alarms.world.thread alarms.world.activeThread := spawned.others _ different
  have subset : alarms.world.alive ⊆ world'.alive := by
    rw [spawned.alive]
    exact Set.subset_insert ..
  refine ⟨⟨spawned.threads, ?_, ?_, ?_, kept.events⟩, ?_, ?_⟩
  · exact kept.table.world spawned.rrAlarm (by rw [spawned.rrParams]) _
  · refine kept.users.world subset (fun id => ?_) _
    rw [spawned.waiting (.alarm id) rfl not_false]
  · refine kept.slices.congr (List.Subset.refl _) ?_ spawned.activeThread ?_ ?_
      (spawned.tsched _ different) rfl
    · intro other mem activated
      rw [spawned.alive] at mem
      rcases mem with isNew | old
      · rw [isNew, spawned.activated] at activated
        cases activated
      · rw [spawned.others other fun same => dead (same ▸ old)] at activated
        exact ⟨old, activated⟩
    · exact fun isActive => sameActive ▸ isActive
    · rw [sameActive]
  · have isActive : world'.kernel.sched.activeThread = alarms.world.activeThread :=
      spawned.activeThread
    rw [isActive]
    exact subset activeMem
  · have isActive : world'.kernel.sched.activeThread = alarms.world.activeThread :=
      spawned.activeThread
    rw [isActive]
    exact (congrArg Thread.state sameActive).trans running.active

/-- The thread that an alarm creates. -/
theorem Holds.createThread (holds : Holds setting alarms)
    (owner : kalarm.thread ∈ alarms.world.alive)
    (created : (World.host threshold).createThread kalarm alarms.world = .ok world') :
    Holds setting { alarms with world := world' } ∧
      world'.activeThread = alarms.world.activeThread := by
  obtain ⟨members, all, kept, running⟩ := holds
  have supplied : Kept setting
      { alarms with world := { alarms.world with supplied := alarms.world.supplied + 1 } }
      members all := by
    apply Kept.frame kept <;> rfl
  obtain ⟨members', spawned⟩ := supplied.threads.kthreadCreate ⟨_, owner, rfl⟩ created
  obtain ⟨kept', running'⟩ := supplied.spawned running spawned
  exact ⟨⟨members', _, kept', running'⟩, spawned.activeThread⟩

/-- Threads move between queues, and none to that of an alarm, or end. -/
theorem Kept.regroup {all' : List Ptr} (kept : Kept setting alarms members all)
    (threads : Threads setting.idle setting.waits world' members' all')
    (alive : world'.alive ⊆ alarms.world.alive)
    (owners : ∀ id ∈ setting.live, id ≠ setting.rr →
      (setting.lasting ∨ (alarms.kalarm id).active = true) →
        (alarms.kalarm id).thread ∈ world'.alive)
    (rrAlarm : world'.rrAlarm = alarms.world.rrAlarm)
    (rrParams : world'.rrParams = alarms.world.rrParams)
    (tsched : world'.tsched = alarms.world.tsched)
    (fewer : ∀ id, (members' (.alarm id)).Sublist (members (.alarm id)))
    (activeThread : world'.activeThread = alarms.world.activeThread)
    (active : (world'.thread alarms.world.activeThread).state = .active →
      (alarms.world.thread alarms.world.activeThread).state = .active)
    (activated : ∀ thread,
      (world'.thread thread).activated = (alarms.world.thread thread).activated) :
    Kept setting { alarms with world := world' } members' all' := by
  have kept' : ∀ id, members' (.alarm id) ≠ [] → members (.alarm id) ≠ [] := by
    intro id notEmpty empty
    have none := fewer id
    rw [empty] at none
    exact notEmpty (List.sublist_nil.mp none)
  refine ⟨threads, ?_, ?_, ?_, kept.events⟩
  · exact kept.table.world rrAlarm (by rw [rrParams]) alarms.events
  · exact
      { owners := owners
        queues := fun id notEmpty => kept.users.queues id (kept' id notEmpty)
        attended := fun id mem notEmpty => kept.users.attended id mem (kept' id notEmpty) }
  · refine kept.slices.congr (List.Subset.refl _) ?_ activeThread active (activated _) ?_ rfl
    · intro other mem isActivated
      exact ⟨alive mem, (activated other).symm.trans isActivated⟩
    · rw [tsched]

/-- Threads are released from a queue. -/
theorem Kept.released {queue : QueueId} (kept : Kept setting alarms members all)
    (running : Running alarms.world.kernel.sched alarms.world.alive)
    (freed : Freed setting.idle setting.waits alarms.world world' members members' all queue) :
    Kept setting { alarms with world := world' } members' all := by
  have free : alarms.world.activeThread ∉ members queue :=
    kept.threads.sound.active_free running.active
  have fewer : ∀ id, (members' (.alarm id)).Sublist (members (.alarm id)) := by
    intro id
    by_cases isQueue : .alarm id = queue
    · rw [isQueue]
      exact freed.fewer
    · rw [freed.waiting (.alarm id) rfl isQueue]
  have alive : world'.alive = alarms.world.alive := freed.same.alive
  apply kept.regroup freed.threads alive.subset _ freed.same.rrAlarm freed.same.rrParams
    freed.tsched fewer freed.activeThread _ freed.activated
  · exact fun id mem notRr active => alive ▸ kept.users.owners id mem notRr active
  · exact fun isActive => freed.others _ free ▸ isActive

theorem Kept.attend (kept : Kept { setting with attend := setting.attend \ {id} } alarms members all)
    (empty : members (.alarm id) = []) : Kept setting alarms members all := by
  refine ⟨kept.threads, { kept.table with }, ⟨kept.users.owners, kept.users.queues, ?_⟩,
    { kept.slices with }, kept.events⟩
  intro other mem notEmpty
  by_cases same : other = id
  · exact absurd empty (same ▸ notEmpty)
  · exact kept.users.attended other ⟨mem, same⟩ notEmpty

theorem Holds.releaseAll (holds : Holds { setting with attend := setting.attend \ {id} } alarms) :
    Holds setting
        { alarms with world := ((World.host threshold).releaseAll id alarms.world).2 } ∧
      ((World.host threshold).releaseAll id alarms.world).2.activeThread =
        alarms.world.activeThread := by
  obtain ⟨members, all, kept, running⟩ := holds
  have isWait : (QueueId.alarm id).state = .wait := rfl
  obtain ⟨members', freed, empty⟩ := kept.threads.kthreadqReleaseAll isWait
  have released := kept.released running freed
  exact ⟨⟨members', all, released.attend empty, freed.running kept.threads running⟩,
    freed.activeThread⟩

end World

end Oseer
