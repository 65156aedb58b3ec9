import Oseer.TimedEntries

/-!
# The system calls on alarms keep the invariant

`k_alarm_add` puts the owner of an alarm in its queue: the invariant is kept if the
owner is the caller, and still has the processor after the alarms were fired.
-/

namespace Oseer

open LinkedRing Results Prog Alarms

variable {setting : Setting} {alarms alarms' : Alarms World} {members members' : Members}
  {all : List Ptr} {id thread : Ptr} {world' : World} {call : AlarmCall World}
  {threshold : Time} {alarm : Alarm} {kalarm : KAlarm} {stored : Alarms World} {fuel : Nat}
  {live : Set Ptr}

section Store

theorem SameAlarm.refl (kalarm : KAlarm) : SameAlarm kalarm kalarm :=
  ⟨rfl, rfl, fun active => active, fun _ => rfl⟩

/-- The table depends on the alarms that exist. -/
theorem Table.restored (table : Table setting alarms) (list : ListSound live stored)
    (rr_live : setting.rr ∈ live)
    (rrSame : stored.kalarm setting.rr = alarms.kalarm setting.rr)
    (world : stored.world = alarms.world)
    (owned : ∀ id ∈ live, id ≠ setting.rr → (stored.kalarm id).thread ≠ 0) :
    Table { setting with live := live, kalarm := stored.kalarm } stored where
  list := list
  rr_live := rr_live
  rr_eq := by
    rw [world]
    exact table.rr_eq
  rr_owner := by
    rw [rrSame]
    exact table.rr_owner
  rr_action := by
    rw [rrSame]
    exact table.rr_action
  params_action := by
    rw [world]
    exact table.params_action
  owned := owned
  same := fun _ _ => .refl _

/-- The slices depend on the alarm of the kernel only. -/
theorem Slices.restored (slices : Slices setting alarms)
    (events : stored.events = alarms.events)
    (world : stored.world = alarms.world)
    (rrSame : stored.kalarm setting.rr = alarms.kalarm setting.rr) : Slices setting stored := by
  apply slices.congr (events ▸ List.Subset.refl _)
  · rw [world]
    exact fun _ mem activated => ⟨mem, activated⟩
  · rw [world]
  · rw [world]
    exact fun active => active
  · rw [world]
  · rw [world]
  · exact rrSame

/-- The alarm `id` of a thread is stored, or is new. -/
theorem Kept.storeAlarm (kept : Kept setting alarms members all) (notRr : id ≠ setting.rr)
    (isLive : live = insert id setting.live) (list : ListSound live stored)
    (isStored : stored.kalarm = Function.update alarms.kalarm id kalarm)
    (world : stored.world = alarms.world)
    (events : stored.events = alarms.events)
    (owned : kalarm.thread ≠ 0)
    (owner : setting.lasting ∨ kalarm.active = true → kalarm.thread ∈ alarms.world.alive)
    (attended : id ∈ setting.attend → members (.alarm id) ≠ [] → kalarm.active = true) :
    Kept { setting with live := live, kalarm := stored.kalarm } stored members all := by
  have here : stored.kalarm id = kalarm := by
    rw [isStored, Function.update_self]
  have others : ∀ other, other ≠ id → stored.kalarm other = alarms.kalarm other := by
    intro other different
    rw [isStored, Function.update_of_ne different]
  have rrSame : stored.kalarm setting.rr = alarms.kalarm setting.rr := others _ notRr.symm
  have threads : Threads setting.idle setting.waits stored.world members all := by
    rw [world]
    exact kept.threads
  have wasLive : ∀ other ∈ live, other ≠ id → other ∈ setting.live := by
    intro other mem different
    rw [isLive] at mem
    exact mem.resolve_left different
  refine ⟨threads, ?_, ⟨fun other mem otherRr active => ?_, fun other notEmpty => ?_,
    fun other mem notEmpty => ?_⟩, ?_, events ▸ kept.events⟩
  · apply kept.table.restored list (isLive ▸ .inr kept.table.rr_live) rrSame world
    intro other mem otherRr
    by_cases same : other = id
    · rw [same, here]
      exact owned
    · rw [others other same]
      exact kept.table.owned other (wasLive other mem same) otherRr
  · rw [world]
    by_cases same : other = id
    · rw [same, here] at active ⊢
      exact owner active
    · rw [others other same] at active ⊢
      exact kept.users.owners other (wasLive other mem same) otherRr active
  · obtain ⟨mem, otherRr⟩ := kept.users.queues other notEmpty
    exact ⟨isLive ▸ .inr mem, otherRr⟩
  · by_cases same : other = id
    · rw [same, here]
      exact attended (same ▸ mem) (same ▸ notEmpty)
    · rw [others other same]
      exact kept.users.attended other mem notEmpty
  · have slices := kept.slices.restored events world rrSame
    exact { slices with }

/-- An alarm that nobody waits for is no more. -/
theorem Kept.dropAlarm (kept : Kept setting alarms members all) (notRr : id ≠ setting.rr)
    (list : ListSound (setting.live \ {id}) stored)
    (others : ∀ other, other ≠ id → stored.kalarm other = alarms.kalarm other)
    (world : stored.world = alarms.world) (events : stored.events = alarms.events)
    (empty : members (.alarm id) = []) :
    Kept { setting with live := setting.live \ {id}, kalarm := stored.kalarm } stored members
      all := by
  have rrSame : stored.kalarm setting.rr = alarms.kalarm setting.rr := others _ notRr.symm
  have threads : Threads setting.idle setting.waits stored.world members all := by
    rw [world]
    exact kept.threads
  refine ⟨threads, ?_, ⟨fun other mem otherRr active => ?_, fun other notEmpty => ?_,
    fun other mem notEmpty => ?_⟩, ?_, events ▸ kept.events⟩
  · apply kept.table.restored list ⟨kept.table.rr_live, notRr.symm⟩ rrSame world
    intro other mem otherRr
    rw [others other mem.2]
    exact kept.table.owned other mem.1 otherRr
  · rw [others other mem.2] at active ⊢
    rw [world]
    exact kept.users.owners other mem.1 otherRr active
  · obtain ⟨mem, otherRr⟩ := kept.users.queues other notEmpty
    exact ⟨⟨mem, fun same => notEmpty (same ▸ empty)⟩, otherRr⟩
  · have different : other ≠ id := fun same => notEmpty (same ▸ empty)
    rw [others other different]
    exact kept.users.attended other mem notEmpty
  · have slices := kept.slices.restored events world rrSame
    exact { slices with }

end Store

section Add

/-- `kthread_enqueue` in `k_alarm_add` of an owner that is the caller and has the
processor. -/
theorem Holds.block (holds : Holds setting alarms) (mem : id ∈ setting.live)
    (notRr : id ≠ setting.rr) (active : (alarms.kalarm id).active = true)
    (isOwner : (alarms.kalarm id).thread = setting.caller)
    (isCaller : alarms.world.activeThread = setting.caller) :
    Ready setting.afterWait (alarms.block (World.host threshold) id) := by
  obtain ⟨members, all, kept, running⟩ := holds
  have isActive : (alarms.world.thread alarms.world.activeThread).state = .active := running.active
  have unlinked : alarms.world.Unlinked alarms.world.activeThread :=
    ⟨members, kept.threads.sound.linked, fun queue => kept.threads.sound.active_free isActive⟩
  have event : Kept setting { alarms with
      events := .enqueued alarms.world.activeThread id alarms.world :: alarms.events } members
      all := kept.event ⟨isCaller, unlinked⟩
  have may : MayWait setting { alarms with
      events := .enqueued alarms.world.activeThread id alarms.world :: alarms.events } members all
      (.alarm id) := by
    refine ⟨rfl, fun thread isJoin => ?_, fun thread isOwn => ?_, fun other isAlarm => ?_⟩
    · cases isJoin
    · cases isOwn
    · obtain rfl := QueueId.alarm.inj isAlarm
      exact ⟨mem, notRr, active⟩
  have ready := event.waits running may
  unfold Alarms.block
  dsimp only
  rw [isOwner]
  dsimp only at ready
  rw [isCaller] at ready
  exact ready

/-- The end of `k_alarm_add` for the alarm of a thread. -/
theorem Holds.finishAdd {reschedule : Nat} (nested : Nested call) (holds : Holds setting alarms)
    (mem : id ∈ setting.live) (notRr : id ≠ setting.rr)
    (owner : Waits (alarms.kalarm id) → (alarms.kalarm id).thread = setting.caller ∧
      alarms.world.activeThread = setting.caller)
    (finishes : alarms.finishAdd (World.host threshold) call id reschedule = .ok alarms') :
    Holds setting.afterWait alarms' := by
  have noted : Holds setting (alarms.onWorld ((World.host threshold).setErrno 0)) :=
    holds.setErrno 0
  unfold Alarms.finishAdd at finishes
  dsimp only at finishes
  rw [Alarms.onWorld_kalarm] at finishes
  split_ifs at finishes with waits
  · obtain ⟨isOwner, isCaller⟩ := owner waits
    have ready := @Holds.block setting _ id threshold noted mem notRr waits.2.1 isOwner isCaller
    exact ready.scheduleIf nested (fun never => absurd trivial never) finishes
  · exact (noted.ready.scheduleIf nested (fun _ => noted) finishes).mayWait

/-- `k_alarm_add` is going to put the owner of the alarm in its queue: the alarm does not
expire at once, or is periodic. -/
def WillWait (threshold : Time) (kalarm : KAlarm) (world : World) : Prop :=
  Waits kalarm ∧ (kalarm.alarm.flags &&& ALARM_PERIODIC ≠ 0 ∨
    0 < Time.timeCmp kalarm.alarm.expTime (refTimeOf threshold world))

instance (threshold : Time) (kalarm : KAlarm) (world : World) :
    Decidable (WillWait threshold kalarm world) := inferInstanceAs (Decidable (_ ∧ _))

/-- `k_alarm_add` of an alarm that is in the list. -/
theorem Holds.addAlarm {result : Nat × Alarms World} (holds : Holds setting alarms)
    (base : setting.kalarm = alarms.kalarm) (mem : id ∈ setting.live) (notRr : id ≠ setting.rr)
    (isCaller : alarms.world.activeThread = setting.caller)
    (calls : WillWait threshold (alarms.kalarm id) alarms.world →
      (alarms.kalarm id).thread = setting.caller ∧
        NotDue setting.rr setting.caller (refTimeOf threshold alarms.world) alarms)
    (runs : alarms.kScheduleAlarms (World.host threshold) (kAlarmSet (World.host threshold) fuel)
      fuel = .ok result)
    (finishes : result.2.finishAdd (World.host threshold)
      (kAlarmSet (World.host threshold) fuel) id result.1 = .ok alarms') :
    Holds setting.afterWait alarms' := by
  have nested := kAlarmSet_nested threshold fuel
  obtain ⟨scheduled, quiet⟩ := holds.kScheduleAlarms nested runs
  refine scheduled.finishAdd nested mem notRr (fun waits => ?_) finishes
  have list : ListSound setting.live alarms := by
    obtain ⟨members, all, kept, -⟩ := holds
    exact kept.table.list
  have same : SameAlarm (alarms.kalarm id) (result.2.kalarm id) := by
    obtain ⟨members, all, kept, -⟩ := scheduled
    rw [← base]
    exact kept.table.same id notRr
  have later := list.kScheduleAlarms_done (kAlarmSet_keeps fuel) runs mem waits.2.1
  have wills : WillWait threshold (alarms.kalarm id) alarms.world := by
    obtain ⟨owned, active, flags⟩ := waits
    rw [same.thread] at owned
    rw [same.flags] at flags
    refine ⟨⟨owned, same.active active, flags⟩, ?_⟩
    by_cases once : (alarms.kalarm id).alarm.flags &&& ALARM_PERIODIC = 0
    · rw [same.expTime once] at later
      exact .inr later
    · exact .inl once
  obtain ⟨isOwner, notDue⟩ := calls wills
  rw [← isCaller] at notDue
  exact ⟨same.thread.trans isOwner, (quiet notDue).trans isCaller⟩

end Add

section Set

theorem Sound.empty_of_kthreadqGet {sched : Sched} {alive : Set Ptr} {queue : QueueId}
    (sound : Sound sched alive members) (none : sched.kthreadqGet queue = 0) :
    members queue = [] :=
  sound.linked.eq_nil none

/-- The alarm that `k_alarm_set` stores. -/
def KAlarm.set (alarm : Alarm) (kalarm : KAlarm) : KAlarm :=
  { kalarm with alarm := alarm, active := decide alarm.Timed }

/-- `k_alarm_set` gives the alarm another time. -/
def SetsTime (id : Ptr) (alarm : Alarm) (alarms : Alarms World) : Prop :=
  alarms.Marked id ∧ Time.timeCmp (alarms.kalarm id).alarm.expTime alarm.expTime ≠ 0

/-- An alarm that is set again has an owner that has not ended. -/
def OwnerLives (id : Ptr) (alarm : Alarm) (alarms : Alarms World) : Prop :=
  SetsTime id alarm alarms → alarm.Timed → (alarms.kalarm id).thread ∈ alarms.world.alive

/-- An alarm that is waited for is not disarmed. -/
def KeepsArmed (id : Ptr) (alarm : Alarm) (alarms : Alarms World) : Prop :=
  SetsTime id alarm alarms → alarms.world.kernel.sched.kthreadqGet (.alarm id) ≠ 0 → alarm.Timed

/-- An owner that is to wait for its alarm is the caller, and the end of its time slice is
not due. -/
def OwnerCalls (threshold : Time) (kalarm : KAlarm) (alarms : Alarms World) : Prop :=
  WillWait threshold kalarm alarms.world → kalarm.thread = alarms.world.activeThread ∧
    NotDue alarms.world.rrAlarm alarms.world.activeThread (refTimeOf threshold alarms.world) alarms

/-- The alarm of a thread gets a new time. -/
theorem Kept.armAlarm (kept : Kept setting alarms members all) (notRr : id ≠ setting.rr)
    (mem : id ∈ setting.live) (list : ListSound setting.live (alarms.armAlarm id alarm))
    (owner : ¬ setting.lasting → alarm.Timed → (alarms.kalarm id).thread ∈ alarms.world.alive)
    (attended : id ∈ setting.attend → members (.alarm id) ≠ [] → alarm.Timed) :
    Kept { setting with kalarm := (alarms.armAlarm id alarm).kalarm }
      (alarms.armAlarm id alarm) members all := by
  obtain ⟨kalarm, world, events⟩ := armAlarm_spec id alarm alarms
  generalize alarms.armAlarm id alarm = stored at *
  apply kept.storeAlarm notRr (Set.insert_eq_of_mem mem).symm list kalarm world events
  · exact kept.table.owned id mem notRr
  · intro owned
    by_cases lasting : setting.lasting
    · exact kept.users.owners id mem notRr (.inl lasting)
    · exact owner lasting (of_decide_eq_true (owned.resolve_left lasting))
  · exact fun isAttended notEmpty => decide_eq_true (attended isAttended notEmpty)

/-- The alarm of a thread keeps its time. -/
theorem Kept.keepTime (kept : Kept setting alarms members all) (notRr : id ≠ setting.rr)
    (mem : id ∈ setting.live) (list : ListSound setting.live (alarms.storeAlarm id alarm)) :
    Kept { setting with kalarm := (alarms.storeAlarm id alarm).kalarm }
      (alarms.storeAlarm id alarm) members all := by
  obtain ⟨-, active⟩ := storeAlarm_same id alarm alarms
  generalize storedIs : alarms.storeAlarm id alarm = stored at *
  have isStored : stored.kalarm = Function.update alarms.kalarm id (stored.kalarm id) := by
    rw [← storedIs]
    unfold Alarms.storeAlarm Alarms.setKalarm
    dsimp only
    rw [Function.update_self]
  have thread : (stored.kalarm id).thread = (alarms.kalarm id).thread := by
    rw [← storedIs]
    unfold Alarms.storeAlarm
    rw [setKalarm_same]
  have world : stored.world = alarms.world := storedIs ▸ rfl
  apply kept.storeAlarm notRr (Set.insert_eq_of_mem mem).symm list isStored world
    (storedIs ▸ rfl)
  · rw [thread]
    exact kept.table.owned id mem notRr
  · rw [thread, active]
    exact kept.users.owners id mem notRr
  · rw [active]
    exact kept.users.attended id

/-- `k_alarm_set` of the alarm of a thread, after its call is recorded. -/
theorem Holds.setAlarm (holds : Holds setting alarms)
    (isCaller : alarms.world.activeThread = setting.caller) (notRr : id ≠ setting.rr)
    (isMarked : alarms.Marked id) (owner : ¬ setting.lasting → OwnerLives id alarm alarms)
    (armed : id ∈ setting.attend → KeepsArmed id alarm alarms)
    (calls : SetsTime id alarm alarms →
      OwnerCalls threshold ((alarms.kalarm id).set alarm) alarms)
    (result : (if Time.timeCmp (alarms.kalarm id).alarm.expTime alarm.expTime ≠ 0 then
      (((alarms.storeAlarm id alarm).onWorld ((World.host threshold).setErrno 0)).changeTime id
        alarm.expTime).kAlarmAdd (World.host threshold)
          (Alarms.kAlarmSet (World.host threshold) fuel) fuel id
      else .ok ((alarms.storeAlarm id alarm).onWorld ((World.host threshold).setErrno 0))) =
        .ok alarms') :
    ∃ kalarm, Holds { setting.afterWait with kalarm := kalarm } alarms' := by
  have rrIs : alarms.world.rrAlarm = setting.rr := by
    obtain ⟨members, all, kept, -⟩ := holds
    exact kept.table.rr_eq
  obtain ⟨entries, listed⟩ : ListSound setting.live alarms := by
    obtain ⟨members, all, kept, running⟩ := holds
    exact kept.table.list
  have noted : Holds setting (alarms.onWorld ((World.host threshold).setErrno 0)) :=
    holds.setErrno 0
  have mem : id ∈ setting.live := (listed.marked_iff id).mp isMarked
  have listed' : Listed ((alarms.storeAlarm id alarm).onWorld
      ((World.host threshold).setErrno 0)) setting.live entries := listed.storeAlarm
  split_ifs at result with differs
  · obtain ⟨scheduled, ran, finished⟩ := bind_ok result
    have sets : SetsTime id alarm alarms := ⟨isMarked, differs⟩
    obtain ⟨members, all, kept, running⟩ := noted
    have stored : Kept { setting with kalarm := _ } _ members all :=
      @Kept.armAlarm setting _ members all id alarm kept notRr mem
        (listed'.changeTime mem).activate (fun ends => owner ends sets) fun isAttended notEmpty =>
          armed isAttended sets fun none => notEmpty
            (kept.threads.sound.empty_of_kthreadqGet none)
    obtain ⟨kalarm, world, -⟩ :=
      armAlarm_spec id alarm (alarms.onWorld ((World.host threshold).setErrno 0))
    have reaches : Alarms.kScheduleAlarms (World.host threshold)
        (Alarms.kAlarmSet (World.host threshold) fuel) fuel
        ((alarms.onWorld ((World.host threshold).setErrno 0)).armAlarm id alarm) =
          .ok scheduled := ran
    generalize (alarms.onWorld ((World.host threshold).setErrno 0)).armAlarm id alarm = after
      at *
    have here : after.kalarm id = (alarms.kalarm id).set alarm := by
      rw [kalarm, Function.update_self]
      rfl
    have rrSame : after.kalarm setting.rr = alarms.kalarm setting.rr := by
      rw [kalarm, Function.update_of_ne notRr.symm]
      rfl
    have refTime : refTimeOf threshold after.world = refTimeOf threshold alarms.world := by
      rw [world]
      rfl
    have sameActive : after.world.activeThread = setting.caller := by
      rw [world]
      exact isCaller
    have holds' : Holds { setting with kalarm := after.kalarm } after :=
      ⟨members, all, stored, world ▸ running⟩
    refine ⟨after.kalarm, holds'.addAlarm rfl mem notRr sameActive (fun wills => ?_) reaches
      finished⟩
    have wills' : WillWait threshold ((alarms.kalarm id).set alarm) alarms.world := by
      rw [here] at wills
      unfold WillWait at wills ⊢
      rwa [refTime] at wills
    obtain ⟨isOwner, notDue⟩ := calls sets wills'
    rw [here, refTime]
    refine ⟨isOwner.trans isCaller, ?_⟩
    rw [rrIs, isCaller] at notDue
    unfold NotDue at notDue ⊢
    dsimp only
    rwa [rrSame]
  · obtain rfl := Except.ok.inj result
    obtain ⟨members, all, kept, running⟩ := noted
    have stored := kept.keepTime notRr mem ⟨entries, listed'⟩
    have after : Holds { setting with kalarm := _ } _ := ⟨members, all, stored, running⟩
    exact ⟨_, after.mayWait⟩

/-- `k_alarm_set` of the alarm of a thread. -/
theorem Holds.kAlarmSet (holds : Holds setting alarms)
    (isCaller : alarms.world.activeThread = setting.caller) (notRr : id ≠ alarms.world.rrAlarm)
    (owner : ¬ setting.lasting → OwnerLives id alarm alarms)
    (armed : id ∈ setting.attend → KeepsArmed id alarm alarms)
    (calls : SetsTime id alarm alarms →
      OwnerCalls threshold ((alarms.kalarm id).set alarm) alarms)
    (result : Alarms.kAlarmSet (World.host threshold) fuel id alarm alarms = .ok alarms') :
    ∃ kalarm, Holds { setting.afterWait with kalarm := kalarm } alarms' := by
  cases fuel with
  | zero => cases result
  | succ fuel =>
      have rrIs : alarms.world.rrAlarm = setting.rr := by
        obtain ⟨members, all, kept, -⟩ := holds
        exact kept.table.rr_eq
      rw [rrIs] at notRr
      unfold Alarms.kAlarmSet at result
      split_ifs at result with noAlarm
      have isMarked : alarms.Marked id := not_not.mp (not_or.mp noAlarm).2
      obtain ⟨expTime, -⟩ :=
        storeAlarm_same id alarm (alarms.noteSet (World.host threshold) id alarm)
      dsimp only at result
      rw [Alarms.onWorld_kalarm, expTime] at result
      have noted : Holds setting (alarms.noteSet (World.host threshold) id alarm) :=
        holds.noteSet id alarm
      exact noted.setAlarm isCaller notRr isMarked owner armed calls result

end Set

section New

/-- The new alarm of a thread. -/
def KAlarm.new (alarm : Alarm) (thread : Ptr) : KAlarm :=
  ⟨alarm, decide alarm.Timed, thread, ALARM_MAGIC⟩

theorem Kept.initQueue (kept : Kept setting alarms members all) (unused : id ∉ setting.live) :
    (World.host threshold).initQueue id alarms.world = alarms.world := by
  have empty : members (.alarm id) = [] := by
    by_contra notEmpty
    exact unused (kept.users.queues id notEmpty).1
  have same := kept.threads.sound.linked.listInit_eq empty
  change (alarms.world.onSched fun sched =>
    { sched with queues := sched.queues.listInit (.alarm id) }) = alarms.world
  unfold World.onSched World.onKernel
  dsimp only
  rw [same]

/-- The stores of `k_alarm_new` before it fires alarms. -/
theorem newAlarm_spec {created : Alarms World}
    (isCreated : created.kalarm = Function.update alarms.kalarm id { alarms.kalarm id with
      alarm := alarm
      magic := ALARM_MAGIC
      thread := thread })
    (sameWorld : created.world = alarms.world) (sameEvents : created.events = alarms.events) :
    (created.activate id).kalarm = Function.update alarms.kalarm id (.new alarm thread) ∧
      (created.activate id).world = alarms.world ∧
      (created.activate id).events = alarms.events := by
  obtain ⟨kalarm, world⟩ := activate_spec id created
  have here : (created.kalarm id).alarm = alarm := by
    rw [isCreated, Function.update_self]
  refine ⟨?_, world.trans sameWorld, (Alarms.activate_events id created).trans sameEvents⟩
  rw [kalarm, here, isCreated, Function.update_idem, Function.update_self]
  rfl

/-- `k_alarm_new` in a system call. -/
theorem Holds.kAlarmNew (holds : Holds setting alarms)
    (isCaller : alarms.world.activeThread = setting.caller) (unused : ¬ alarms.Marked id)
    (pointer : 0 < id ∧ id < addressCount)
    (calls : OwnerCalls threshold (.new alarm alarms.world.activeThread) alarms)
    (result : alarms.kAlarmNew (World.host threshold) fuel id alarm true = .ok alarms') :
    ∃ kalarm, Holds { setting.afterWait with
      live := insert id setting.live
      kalarm := kalarm } alarms' := by
  obtain ⟨members, all, kept, running⟩ := holds
  obtain ⟨entries, listed⟩ := kept.table.list
  have notMem : id ∉ setting.live := fun mem => unused ((listed.marked_iff id).mpr mem)
  have notRr : id ≠ setting.rr := fun isRr => notMem (isRr ▸ kept.table.rr_live)
  have rrIs : alarms.world.rrAlarm = setting.rr := kept.table.rr_eq
  have activeMem : alarms.world.activeThread ∈ alarms.world.alive := running.mem_alive
  have isCreated : Loose (alarms.setKalarm id fun kalarm => { kalarm with
      alarm := alarm
      magic := ALARM_MAGIC
      thread := alarms.world.activeThread }) (insert id setting.live) entries id :=
    listed.create notMem pointer rfl
  have list := (isCreated.world ((World.host threshold).initQueue id)).activate
  have queue : (World.host threshold).initQueue id alarms.world = alarms.world :=
    kept.initQueue notMem
  obtain ⟨kalarm, world, events⟩ := @newAlarm_spec alarms id alarms.world.activeThread alarm
    ((alarms.setKalarm id fun kalarm => { kalarm with
      alarm := alarm
      magic := ALARM_MAGIC
      thread := alarms.world.activeThread }).onWorld ((World.host threshold).initQueue id))
    rfl queue rfl
  unfold Alarms.kAlarmNew at result
  rw [if_neg pointer.1.ne'] at result
  obtain ⟨scheduled, ran, finished⟩ := bind_ok result
  have reaches : Alarms.kScheduleAlarms (World.host threshold)
      (Alarms.kAlarmSet (World.host threshold) fuel) fuel
      (((alarms.setKalarm id fun kalarm => { kalarm with
        alarm := alarm
        magic := ALARM_MAGIC
        thread := alarms.world.activeThread }).onWorld
          ((World.host threshold).initQueue id)).activate id) = .ok scheduled := ran
  generalize ((alarms.setKalarm id fun kalarm => { kalarm with
    alarm := alarm
    magic := ALARM_MAGIC
    thread := alarms.world.activeThread }).onWorld
      ((World.host threshold).initQueue id)).activate id = after at *
  have here : after.kalarm id = .new alarm alarms.world.activeThread := by
    rw [kalarm, Function.update_self]
  have rrSame : after.kalarm setting.rr = alarms.kalarm setting.rr := by
    rw [kalarm, Function.update_of_ne notRr.symm]
  have stored : Kept { setting with live := insert id setting.live, kalarm := after.kalarm }
      after members all := by
    apply kept.storeAlarm notRr rfl list kalarm world events
    · exact kept.threads.sound.ne_zero activeMem
    · exact fun _ => activeMem
    · exact fun _ notEmpty => absurd (kept.users.queues id notEmpty).1 notMem
  have holds' : Holds { setting with live := insert id setting.live, kalarm := after.kalarm }
      after := ⟨members, all, stored, world ▸ running⟩
  have sameActive : after.world.activeThread = setting.caller := by
    rw [world]
    exact isCaller
  refine ⟨after.kalarm, holds'.addAlarm rfl (Set.mem_insert ..) notRr sameActive (fun wills => ?_)
    reaches finished⟩
  rw [here, world] at wills ⊢
  obtain ⟨isOwner, notDue⟩ := calls wills
  refine ⟨isCaller, ?_⟩
  rw [rrIs, isCaller] at notDue
  unfold NotDue at notDue ⊢
  dsimp only
  rwa [rrSame]

end New

section Remove

/-- What `k_alarm_remove` changes. -/
theorem discard_spec (id : Ptr) (alarms : Alarms World) :
    (∀ other, other ≠ id →
        (alarms.discard (World.host threshold) id).2.kalarm other = alarms.kalarm other) ∧
      (alarms.discard (World.host threshold) id).2.world =
        (World.host threshold).kfree id ((World.host threshold).releaseAll id
          ((World.host threshold).setErrno 0 alarms.world)).2 ∧
      (alarms.discard (World.host threshold) id).2.events = alarms.events := by
  unfold Alarms.discard
  dsimp only
  split
  all_goals
    refine ⟨fun other different => ?_, rfl, rfl⟩
    rw [Alarms.onWorld_kalarm, setKalarm_other different]
  rfl

/-- The part of `k_alarm_remove` that ends the alarm. -/
theorem Holds.discard (holds : Holds setting alarms) (mem : id ∈ setting.live)
    (notRr : id ≠ setting.rr) :
    Holds { setting with
      live := setting.live \ {id}
      kalarm := (alarms.discard (World.host threshold) id).2.kalarm }
        (alarms.discard (World.host threshold) id).2 := by
  obtain ⟨entries, listed⟩ : ListSound setting.live alarms := by
    obtain ⟨members, all, kept, -⟩ := holds
    exact kept.table.list
  have list : Listed (alarms.discard (World.host threshold) id).2 (setting.live \ {id})
      (entries.erase id) := listed.discard mem
  obtain ⟨others, world, events⟩ := @discard_spec threshold id alarms
  generalize (alarms.discard (World.host threshold) id).2 = stored at *
  obtain ⟨members, all, kept, running⟩ := holds.setErrno 0
  have isWait : (QueueId.alarm id).state = .wait := rfl
  obtain ⟨members', freed, empty⟩ := kept.threads.kthreadqReleaseAll isWait
  have released := @Kept.kfree setting _ members' all threshold (kept.released running freed) id
  have running' := freed.running kept.threads running
  exact ⟨members', all, released.dropAlarm notRr ⟨_, list⟩ others world events empty,
    world ▸ running'⟩

/-- `k_alarm_remove` of the alarm of a thread. -/
theorem Holds.kAlarmRemove (holds : Holds setting alarms) (notRr : id ≠ alarms.world.rrAlarm)
    (result : alarms.kAlarmRemove (World.host threshold) fuel id = .ok alarms') :
    ∃ kalarm, Holds { setting with live := setting.live \ {id}, kalarm := kalarm } alarms' := by
  have nested := kAlarmSet_nested threshold fuel
  have known : alarms.world.rrAlarm = setting.rr ∧ ListSound setting.live alarms := by
    obtain ⟨members, all, kept, -⟩ := holds
    exact ⟨kept.table.rr_eq, kept.table.list⟩
  obtain ⟨rrIs, entries, listed⟩ := known
  unfold Alarms.kAlarmRemove at result
  split_ifs at result with noAlarm
  obtain ⟨scheduled, ran, finished⟩ := bind_ok result
  have mem : id ∈ setting.live :=
    (listed.marked_iff id).mp (not_not.mp (not_or.mp noAlarm).2)
  have discarded := (@Holds.discard setting alarms id threshold holds mem (rrIs ▸ notRr))
  obtain ⟨fired, -⟩ := discarded.kScheduleAlarms nested ran
  exact ⟨_, fired.ready.scheduleIf nested (fun _ => fired) finished⟩

theorem Holds.kTimerInterrupt (holds : Holds setting alarms)
    (result : alarms.kTimerInterrupt (World.host threshold) fuel = .ok alarms') :
    Holds setting alarms' := by
  have nested := kAlarmSet_nested threshold fuel
  obtain ⟨scheduled, ran, finished⟩ := bind_ok result
  obtain ⟨fired, -⟩ := holds.kScheduleAlarms nested ran
  exact fired.ready.scheduleIf nested (fun _ => fired) finished

theorem Holds.perform {prog : Prog World Unit} {P : Alarms World → Prop}
    (spec : ∀ call, Nested call → Ensures call P prog fun _ => Holds setting) (pre : P alarms)
    (result : World.perform threshold fuel prog alarms = .ok alarms') : Holds setting alarms' := by
  obtain ⟨ran, ranOk, rfl⟩ := map_ok result
  exact spec _ (kAlarmSet_nested threshold fuel) alarms ran pre ranOk

/-- `sys__wait_for_alarm`. -/
theorem Holds.sysWaitForAlarm {wait : Nat} (holds : Holds setting alarms)
    (isCaller : alarms.world.activeThread = setting.caller) (notRr : id ≠ alarms.world.rrAlarm)
    (result : World.sysWaitForAlarm threshold fuel id wait alarms = .ok alarms') :
    Holds setting.afterWait alarms' := by
  have noted : ∀ errnum, World.perform threshold fuel (World.setErrno errnum) alarms =
      .ok alarms' → Holds setting.afterWait alarms' := fun errnum performed =>
    (Holds.perform (fun _ _ => setErrno_spec errnum) holds performed).mayWait
  unfold World.sysWaitForAlarm at result
  split_ifs at result with noAlarm active waits
  · exact noted _ result
  · have waiter : Waiter setting (.alarm id) alarms := by
      obtain ⟨members, all, kept, running⟩ := holds
      obtain ⟨entries, listed⟩ := kept.table.list
      have mem : id ∈ setting.live :=
        (listed.marked_iff id).mp (not_not.mp (not_or.mp noAlarm).2)
      have rrIs : alarms.world.rrAlarm = setting.rr := kept.table.rr_eq
      refine ⟨members, all, kept, running, isCaller, rfl, fun thread isJoin => ?_,
        fun thread isOwn => ?_, fun other isAlarm => ?_⟩
      · cases isJoin
      · cases isOwn
      · obtain rfl := QueueId.alarm.inj isAlarm
        exact ⟨mem, rrIs ▸ notRr, active⟩
    refine Holds.perform (fun call nested => ?_) waiter result
    refine Ensures.bind ?_ fun _ => blockActive_spec nested (.alarm id)
    exact Ensures.modify.mono (fun _ waiter => waiter.setErrno SUCCESS) fun _ _ post => post
  · exact noted _ result
  · exact noted _ result

end Remove

end Oseer
