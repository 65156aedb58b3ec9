import Oseer.AlarmRecord
import Oseer.TimedSchedule

/-!
# The alarm functions keep the invariant

`k_schedule_alarms` fires the alarm of the kernel, which may take the processor
away from its thread, and the alarms of threads, which make other threads ready.
-/

namespace Oseer

open LinkedRing Results Prog

variable {setting : Setting} {alarms alarms' : Alarms World} {members members' : Members}
  {all : List Ptr} {id first thread : Ptr} {world' : World} {call : AlarmCall World}
  {threshold : Time}

section Take

theorem SameAlarm.trans {one two three : KAlarm} (first : SameAlarm one two)
    (second : SameAlarm two three) : SameAlarm one three where
  thread := second.thread.trans first.thread
  flags := second.flags.trans first.flags
  active := fun active => first.active (second.active active)
  expTime := fun once => (second.expTime (first.flags ▸ once)).trans (first.expTime once)

/-- What `k_schedule_alarms` changes when it takes an alarm that has expired out of the
list and rearms it. -/
structure Taken (first : Ptr) (alarms taken : Alarms World) : Prop where
  others : ∀ other, other ≠ first → taken.kalarm other = alarms.kalarm other
  same : SameAlarm (alarms.kalarm first) (taken.kalarm first)
  action : (taken.kalarm first).alarm.action = (alarms.kalarm first).alarm.action
  param : (taken.kalarm first).alarm.param = (alarms.kalarm first).alarm.param
  once : (alarms.kalarm first).alarm.flags &&& ALARM_PERIODIC = 0 →
    (taken.kalarm first).active = false
  world : taken.world = alarms.world
  events : taken.events = .fired first (alarms.kalarm first) alarms.world :: alarms.events

theorem takeFirst_taken (first : Ptr) (alarms : Alarms World) :
    Taken first alarms (alarms.takeFirst first) := by
  unfold Alarms.takeFirst Alarms.rearm
  split_ifs with periodic
  · generalize changeIs : (fun kalarm : KAlarm => { kalarm with alarm := { kalarm.alarm with
      expTime := Time.timeAdd kalarm.alarm.expTime kalarm.alarm.period } }) = change
    have stored : ∀ alarms : Alarms World, ((alarms.setKalarm first change).sortAdd first).kalarm =
        (alarms.setKalarm first change).kalarm := fun _ => rfl
    refine ⟨fun other different => ?_, ?_, ?_, ?_, fun once => absurd once periodic, rfl, rfl⟩
    · rw [stored, Alarms.setKalarm_other different]
    all_goals rw [stored, Alarms.setKalarm_same, ← changeIs]
    exact ⟨rfl, rfl, fun active => active, fun once => absurd once periodic⟩
  · refine ⟨fun other different => ?_, ?_, ?_, ?_, fun _ => ?_, rfl, rfl⟩
    · rw [Alarms.setKalarm_other different]
    all_goals rw [Alarms.setKalarm_same]
    refine ⟨rfl, rfl, fun active => ?_, fun _ => rfl⟩
    cases active

variable {taken : Alarms World}

/-- An alarm that has expired keeps its owner, its flags and, unless it is periodic, its
time. -/
theorem Taken.sameAlarm (take : Taken first alarms taken) (id : Ptr) :
    SameAlarm (alarms.kalarm id) (taken.kalarm id) := by
  by_cases isFirst : id = first
  · subst isFirst
    exact take.same
  · rw [take.others id isFirst]
    exact ⟨rfl, rfl, fun active => active, fun _ => rfl⟩

theorem Taken.clean {rr : Ptr} {timed : Prop} (take : Taken first alarms taken)
    (isClean : Clean rr timed taken.events) : Clean rr timed alarms.events :=
  isClean.of_subset (take.events ▸ List.subset_cons_self ..)

theorem Threads.alive_exists {world : World} {idle : Ptr} {waits : Set Ptr}
    (threads : Threads idle waits world members all) (mem : thread ∈ world.alive) :
    world.Exists (world.thread idle).proc thread := by
  obtain ⟨procs, accounted⟩ := threads.ledger.accounted
  exact ⟨all, procs, threads.ledger.listed, threads.ledger.alive_listed thread mem,
    accounted.linked, accounted.member thread mem⟩

/-- The alarms after one has expired. -/
theorem Table.takeFirst (table : Table setting alarms) (take : Taken first alarms taken)
    (list : Alarms.ListSound setting.live taken) : Table setting taken where
  list := list
  rr_live := table.rr_live
  rr_eq := by
    rw [take.world]
    exact table.rr_eq
  rr_owner := (take.sameAlarm setting.rr).thread.trans table.rr_owner
  rr_action := by
    by_cases isFirst : setting.rr = first
    · rw [isFirst, take.action, ← isFirst]
      exact table.rr_action
    · rw [take.others _ isFirst]
      exact table.rr_action
  params_action := by
    rw [take.world]
    exact table.params_action
  owned := fun id mem notRr => by
    rw [(take.sameAlarm id).thread]
    exact table.owned id mem notRr
  same := fun id notRr => (table.same id notRr).trans (take.sameAlarm id)

/-- The first alarm of the list expires: threads may wait for it although it is not active
any more, and if it is the kernel's alarm, the active thread may have no alarm. -/
theorem Kept.takeFirst (kept : Kept setting alarms members all) (armed : Prop)
    (take : Taken first alarms taken) (list : Alarms.ListSound setting.live taken)
    (memLive : first ∈ setting.live) (active : (alarms.kalarm first).active = true)
    (isArmed : armed → setting.armed ∧ (first = setting.rr →
      (alarms.kalarm first).alarm.param ≠ alarms.world.activeThread)) :
    Kept { setting with attend := setting.attend \ {first}, armed := armed } taken members all := by
  have table := kept.table.takeFirst take list
  have owner : ∀ id ∈ setting.live, id ≠ setting.rr →
      (setting.lasting ∨ (taken.kalarm id).active = true) →
        (alarms.kalarm id).thread ∈ alarms.world.alive := by
    intro id mem notRr isActive
    by_cases isFirst : id = first
    · subst isFirst
      exact kept.users.owners id mem notRr (.inr active)
    · rw [take.others id isFirst] at isActive
      exact kept.users.owners id mem notRr isActive
  have threads : Threads setting.idle setting.waits taken.world members all := by
    rw [take.world]
    exact kept.threads
  refine ⟨threads, { table with }, ⟨?_, kept.users.queues, ?_⟩, ⟨?_, ?_, ?_⟩, ?_⟩
  · intro id mem notRr isActive
    rw [(take.sameAlarm id).thread, take.world]
    exact owner id mem notRr isActive
  · rintro id ⟨mem, notFirst⟩ notEmpty
    rw [take.others id notFirst]
    exact kept.users.attended id mem notEmpty
  · rw [take.world]
    exact fun isClean => kept.slices.only (take.clean isClean)
  · rw [take.world]
    intro given isClean isActive policy
    obtain ⟨wasArmed, notItsAlarm⟩ := isArmed given
    obtain ⟨isOn, param, expTime⟩ := kept.slices.armed wasArmed (take.clean isClean) isActive policy
    have notFirst : setting.rr ≠ first := fun isFirst =>
      notItsAlarm isFirst.symm (isFirst ▸ param)
    refine ⟨?_, ?_, ?_⟩
    all_goals rw [take.others _ notFirst]
    · exact isOn
    · rw [take.world]
      exact param
    · rw [take.world]
      exact expTime
  · rw [take.world]
    exact fun isMarked isClean => kept.slices.marked isMarked (take.clean isClean)
  · rw [take.events]
    intro event mem
    rcases List.mem_cons.mp mem with rfl | old
    · intro owned
      have notRr : first ≠ setting.rr := fun isRr => owned (isRr ▸ kept.table.rr_owner)
      exact kept.threads.alive_exists (kept.users.owners first memLive notRr (.inr active))
    · exact kept.events event old

/-- An alarm of a thread expires: its owner is alive. -/
theorem Holds.takeThread (holds : Holds setting alarms) (take : Taken first alarms taken)
    (list : Alarms.ListSound setting.live taken) (memLive : first ∈ setting.live)
    (active : (alarms.kalarm first).active = true) (notRr : first ≠ setting.rr) :
    Holds { setting with attend := setting.attend \ {first} } taken ∧
      (taken.kalarm first).thread ≠ 0 ∧ (taken.kalarm first).thread ∈ taken.world.alive := by
  obtain ⟨members, all, kept, running⟩ := holds
  have loose := kept.takeFirst setting.armed take list memLive active
    fun given => ⟨given, fun same => absurd same notRr⟩
  refine ⟨⟨members, all, loose, take.world ▸ running⟩, ?_, ?_⟩
  · rw [take.same.thread]
    exact kept.table.owned first memLive notRr
  · rw [take.same.thread, take.world]
    exact kept.users.owners first memLive notRr (.inr active)

end Take

section Fire

variable {result : Nat × Alarms World} {refTime : Time} {fuel count : Nat}

/-- The alarm of the kernel is not due for its thread. -/
def NotDue (rr caller : Ptr) (refTime : Time) (alarms : Alarms World) : Prop :=
  (alarms.kalarm rr).active = true → (alarms.kalarm rr).alarm.param = caller →
    0 < Time.timeCmp (alarms.kalarm rr).alarm.expTime refTime

/-- The action of an alarm of a thread creates a thread. -/
theorem Holds.runThread (holds : Holds setting alarms)
    (owned : (alarms.kalarm first).thread ≠ 0)
    (owner : (alarms.kalarm first).thread ∈ alarms.world.alive)
    (runs : alarms.runAction (World.host threshold) call first = .ok result) :
    Holds setting result.2 ∧ result.2.kalarm = alarms.kalarm ∧
      result.2.world.activeThread = alarms.world.activeThread := by
  unfold Alarms.runAction at runs
  dsimp only at runs
  split_ifs at runs
  · obtain ⟨world, created, rfl⟩ := map_ok runs
    obtain ⟨holds', activeThread⟩ := holds.createThread owner created
    exact ⟨holds', rfl, activeThread⟩
  · obtain rfl := Except.ok.inj runs
    exact ⟨holds, rfl, rfl⟩

/-- The action of the alarm of the kernel is `rr_timer`. -/
theorem Holds.runTimer (nested : Nested call)
    (holds : Holds { setting with armed := False } alarms)
    (elsewhere : (alarms.kalarm setting.rr).alarm.param ≠ alarms.world.activeThread →
      Holds setting alarms)
    (runs : alarms.runAction (World.host threshold) call setting.rr = .ok result) :
    Holds setting result.2 ∧
      ((alarms.kalarm setting.rr).alarm.param ≠ alarms.world.activeThread →
        result.2 = alarms) := by
  have ⟨members, all, kept, _⟩ := holds
  have table := kept.table
  unfold Alarms.runAction at runs
  dsimp only at runs
  have isAction : (alarms.kalarm setting.rr).alarm.action ≠ 0 := by
    rw [table.rr_action]
    decide
  have program : (World.host threshold).action (alarms.kalarm setting.rr).alarm.action
      (alarms.kalarm setting.rr).alarm.param =
        World.rrTimer (alarms.kalarm setting.rr).alarm.param := if_pos table.rr_action
  rw [if_pos isAction, if_neg (not_not.mpr table.rr_owner), program] at runs
  obtain ⟨ran, ranOk, rfl⟩ := map_ok runs
  refine ⟨rrTimer_spec nested _ alarms ran ⟨holds, elsewhere⟩ ranOk, fun different => ?_⟩
  unfold World.rrTimer at ranOk
  rw [run_bind] at ranOk
  obtain ⟨read, isRead, ranOk⟩ := bind_ok ranOk
  obtain rfl := Except.ok.inj isRead
  dsimp only at ranOk
  rw [if_pos different.symm] at ranOk
  obtain rfl := Except.ok.inj ranOk
  rfl

/-- Firing the first alarm of the list keeps the invariant, and the active thread unless it
is the alarm for the end of its slice. -/
theorem Holds.fire (nested : Nested call) (holds : Holds setting alarms)
    (isFirst : alarms.kalarms.listGet () FIRST = first) (hasFirst : first ≠ 0)
    (fires : alarms.fire (World.host threshold) call = .ok result) :
    (alarms.kalarm first).active = true ∧ Holds setting result.2 ∧
      ((first = setting.rr →
          (alarms.kalarm setting.rr).alarm.param ≠ alarms.world.activeThread) →
        result.2.world.activeThread = alarms.world.activeThread ∧
        ∃ taken, Taken first alarms taken ∧ result.2.kalarm = taken.kalarm) := by
  obtain ⟨members, all, kept, running⟩ := holds
  subst isFirst
  obtain ⟨removed, memLive, active, list⟩ := kept.table.list.takeFirst hasFirst
  unfold Alarms.fire at fires
  dsimp only at fires
  rw [removed] at fires
  obtain ⟨acted, runs, rfl⟩ := map_ok fires
  generalize alarms.kalarms.listGet () FIRST = first at active memLive list runs
  have take : Taken first alarms (alarms.takeFirst first) := takeFirst_taken first alarms
  generalize alarms.takeFirst first = taken at list runs take
  have stillRuns : Running taken.world.kernel.sched taken.world.alive := take.world ▸ running
  have sameActive : taken.world.activeThread = alarms.world.activeThread := by rw [take.world]
  by_cases isRr : first = setting.rr
  · subst isRr
    have unarmed : Holds { setting with attend := setting.attend \ {setting.rr}, armed := False }
        taken :=
      ⟨members, all, kept.takeFirst False take list memLive active False.elim, stillRuns⟩
    have elsewhere : (taken.kalarm setting.rr).alarm.param ≠ taken.world.activeThread →
        Holds { setting with attend := setting.attend \ {setting.rr} } taken := by
      rw [take.param, sameActive]
      intro different
      exact ⟨members, all, kept.takeFirst setting.armed take list memLive active
        fun given => ⟨given, fun _ => different⟩, stillRuns⟩
    have ran : Holds { setting with attend := setting.attend \ {setting.rr} } acted.2 ∧
        ((taken.kalarm setting.rr).alarm.param ≠ taken.world.activeThread → acted.2 = taken) :=
      Holds.runTimer nested unarmed elsewhere runs
    obtain ⟨ran, same⟩ := ran
    obtain ⟨released, stays⟩ := ran.releaseAll
    refine ⟨active, released, fun different => ?_⟩
    have unchanged : acted.2 = taken := same (by rw [take.param, sameActive]; exact different rfl)
    have kalarm : acted.2.kalarm = taken.kalarm := by rw [unchanged]
    have world : acted.2.world.activeThread = taken.world.activeThread := by rw [unchanged]
    exact ⟨(stays.trans world).trans sameActive, taken, take, kalarm⟩
  · have whole : Holds setting alarms := ⟨members, all, kept, running⟩
    obtain ⟨loose, owned, owner⟩ := whole.takeThread take list memLive active isRr
    obtain ⟨ran, kalarm, activeThread⟩ := loose.runThread owned owner runs
    obtain ⟨released, stays⟩ := ran.releaseAll
    exact ⟨active, released, fun _ => ⟨(stays.trans activeThread).trans sameActive, taken, take,
      kalarm⟩⟩

/-- The loop of `k_schedule_alarms` keeps the invariant. -/
theorem Holds.fireLoop (nested : Nested call) (holds : Holds setting alarms)
    (loops : alarms.fireLoop (World.host threshold) call refTime fuel count = .ok result) :
    Holds setting result.2 := by
  induction fuel generalizing alarms count with
  | zero => cases loops
  | succ fuel ih =>
      unfold Alarms.fireLoop at loops
      dsimp only at loops
      split_ifs at loops with expired
      · obtain ⟨fired, fires, loops⟩ := bind_ok loops
        exact ih (holds.fire nested rfl expired.1 fires).2.1 loops
      · obtain rfl := Except.ok.inj loops
        exact holds

/-- The loop of `k_schedule_alarms` leaves the active thread, if the alarm of the kernel is
not due for it. -/
theorem Holds.fireLoop_quiet (nested : Nested call) (holds : Holds setting alarms)
    (notDue : NotDue setting.rr alarms.world.activeThread refTime alarms)
    (loops : alarms.fireLoop (World.host threshold) call refTime fuel count = .ok result) :
    result.2.world.activeThread = alarms.world.activeThread := by
  induction fuel generalizing alarms count with
  | zero => cases loops
  | succ fuel ih =>
      unfold Alarms.fireLoop at loops
      dsimp only at loops
      split_ifs at loops with expired
      · obtain ⟨fired, fires, loops⟩ := bind_ok loops
        obtain ⟨active, holds', quiet⟩ := holds.fire nested rfl expired.1 fires
        generalize alarms.kalarms.listGet () FIRST = first at expired active quiet
        have elsewhere : first = setting.rr →
            (alarms.kalarm setting.rr).alarm.param ≠ alarms.world.activeThread := by
          rintro rfl isParam
          have later := notDue active isParam
          omega
        obtain ⟨stays, taken, take, kalarm⟩ := quiet elsewhere
        refine (ih holds' ?_ loops).trans stays
        rw [stays]
        intro isOn isParam
        rw [kalarm] at isOn isParam ⊢
        by_cases isFirst : setting.rr = first
        · rw [isFirst, take.param, ← isFirst] at isParam
          exact absurd isParam (elsewhere isFirst.symm)
        · rw [take.others _ isFirst] at isOn isParam ⊢
          exact notDue isOn isParam
      · obtain rfl := Except.ok.inj loops
        rfl

theorem Holds.setTimer (holds : Holds setting alarms) (time : Time) :
    Holds setting (alarms.setTimer (World.host threshold) time) ∧
      (alarms.setTimer (World.host threshold) time).kalarm = alarms.kalarm ∧
      (alarms.setTimer (World.host threshold) time).world.activeThread =
        alarms.world.activeThread := by
  unfold Alarms.setTimer
  dsimp only
  split
  · obtain ⟨members, all, kept, running⟩ := holds
    refine ⟨⟨members, all, ?_, running⟩, rfl, rfl⟩
    apply Kept.frame kept <;> rfl
  · exact ⟨holds, rfl, rfl⟩

/-- `k_schedule_alarms` keeps the invariant. -/
theorem Holds.kScheduleAlarms (nested : Nested call) (holds : Holds setting alarms)
    (runs : alarms.kScheduleAlarms (World.host threshold) call fuel = .ok result) :
    Holds setting result.2 ∧
      (NotDue setting.rr alarms.world.activeThread (refTimeOf threshold alarms.world) alarms →
        result.2.world.activeThread = alarms.world.activeThread) := by
  obtain ⟨looped, loops, rfl⟩ := map_ok runs
  obtain ⟨members, all, kept, running⟩ := holds
  have read : Holds setting { alarms with world := alarms.world.getTime.2 } := by
    refine ⟨members, all, ?_, running⟩
    apply Kept.frame kept <;> rfl
  have reaches : Alarms.fireLoop (World.host threshold) call (refTimeOf threshold alarms.world)
      fuel 0 { alarms with world := alarms.world.getTime.2 } = .ok looped := loops
  obtain ⟨holds', -, activeThread⟩ :=
    @Holds.setTimer _ _ threshold (read.fireLoop nested reaches) alarms.world.getTime.1
  refine ⟨holds', fun notDue => activeThread.trans ?_⟩
  apply read.fireLoop_quiet nested _ reaches
  exact notDue

theorem Ready.scheduleIf {reschedule : Prop} [Decidable reschedule] (nested : Nested call)
    (ready : Ready setting alarms) (stays : ¬ reschedule → Holds setting alarms)
    (runs : alarms.scheduleIf (World.host threshold) call reschedule = .ok alarms') :
    Holds setting alarms' := by
  unfold Alarms.scheduleIf at runs
  split_ifs at runs with asked
  · obtain ⟨ran, ranOk, rfl⟩ := map_ok runs
    exact kthreadsSchedule_spec nested alarms ran ready ranOk
  · obtain rfl := Except.ok.inj runs
    exact stays asked

end Fire

section Set

variable {alarm : Alarm} {kalarm : KAlarm} {stored : Alarms World} {fuel : Nat}

/-- `k_alarm_add` stores whether the alarm can expire. -/
theorem activate_spec (id : Ptr) (alarms : Alarms World) :
    (alarms.activate id).kalarm = Function.update alarms.kalarm id { alarms.kalarm id with
        active := decide (alarms.kalarm id).alarm.Timed } ∧
      (alarms.activate id).world = alarms.world := by
  by_cases timed : (alarms.kalarm id).alarm.Timed
  · have result : alarms.activate id =
        (alarms.setKalarm id fun kalarm => { kalarm with active := true }).sortAdd id :=
      if_pos timed
    rw [result, decide_eq_true timed]
    exact ⟨rfl, rfl⟩
  · have result : alarms.activate id =
        alarms.setKalarm id fun kalarm => { kalarm with active := false } := if_neg timed
    rw [result, decide_eq_false timed]
    exact ⟨rfl, rfl⟩

theorem changeTime_spec (id : Ptr) (alarm : Alarm) (alarms : Alarms World) :
    ((alarms.storeAlarm id alarm).changeTime id alarm.expTime).kalarm =
        Function.update alarms.kalarm id { alarms.kalarm id with alarm := alarm } ∧
      ((alarms.storeAlarm id alarm).changeTime id alarm.expTime).world = alarms.world := by
  unfold Alarms.changeTime Alarms.storeAlarm
  dsimp only
  split
  · refine ⟨?_, rfl⟩
    simp [Alarms.setKalarm, Alarms.listRemove]
  · refine ⟨?_, rfl⟩
    simp [Alarms.setKalarm]

theorem storeAlarm_same (id : Ptr) (alarm : Alarm) (alarms : Alarms World) :
    ((alarms.storeAlarm id alarm).kalarm id).alarm.expTime = (alarms.kalarm id).alarm.expTime ∧
      ((alarms.storeAlarm id alarm).kalarm id).active = (alarms.kalarm id).active := by
  unfold Alarms.storeAlarm
  rw [Alarms.setKalarm_same]
  exact ⟨rfl, rfl⟩

/-- The stores of `k_alarm_set` before it fires alarms. -/
def Alarms.armAlarm (id : Ptr) (alarm : Alarm) (alarms : Alarms World) : Alarms World :=
  ((alarms.storeAlarm id alarm).changeTime id alarm.expTime).activate id

theorem armAlarm_spec (id : Ptr) (alarm : Alarm) (alarms : Alarms World) :
    (alarms.armAlarm id alarm).kalarm = Function.update alarms.kalarm id
        { alarms.kalarm id with alarm := alarm, active := decide alarm.Timed } ∧
      (alarms.armAlarm id alarm).world = alarms.world ∧
      (alarms.armAlarm id alarm).events = alarms.events := by
  unfold Alarms.armAlarm
  obtain ⟨kalarm, world⟩ := changeTime_spec id alarm alarms
  have events := Alarms.changeTime_events id alarm.expTime (alarms.storeAlarm id alarm)
  generalize (alarms.storeAlarm id alarm).changeTime id alarm.expTime = changed at *
  obtain ⟨kalarm', world'⟩ := activate_spec id changed
  have same : changed.kalarm id = { alarms.kalarm id with alarm := alarm } := by
    rw [kalarm, Function.update_self]
  rw [same] at kalarm'
  refine ⟨?_, world'.trans world, (Alarms.activate_events id changed).trans events⟩
  rw [kalarm', kalarm, Function.update_idem]

/-- The alarm of the kernel is set for the slice of the active thread. -/
theorem Kept.storeRr (kept : Kept { setting with armed := False } alarms members all)
    (list : Alarms.ListSound setting.live stored)
    (isStored : stored.kalarm = Function.update alarms.kalarm setting.rr kalarm)
    (owner : kalarm.thread = (alarms.kalarm setting.rr).thread)
    (action : kalarm.alarm.action = rrTimerAddress) (world : stored.world = alarms.world)
    (events : stored.events = alarms.events)
    (active : Clean setting.rr setting.timed alarms.events → kalarm.active = true)
    (forSlice : (alarms.world.tsched alarms.world.activeThread).policy = .rr →
      kalarm.alarm.param = alarms.world.activeThread ∧
        kalarm.alarm.expTime = (alarms.world.tsched alarms.world.activeThread).sliceEnd) :
    Kept { setting with armed := True } stored members all := by
  have same : stored.kalarm setting.rr = kalarm := by
    rw [isStored, Function.update_self]
  have others : ∀ other, other ≠ setting.rr → stored.kalarm other = alarms.kalarm other := by
    intro other different
    rw [isStored, Function.update_of_ne different]
  have threads : Threads setting.idle setting.waits stored.world members all := by
    rw [world]
    exact kept.threads
  refine ⟨threads, ?_, ⟨fun id mem notRr owns => ?_, kept.users.queues, fun id mem notEmpty => ?_⟩,
    ⟨?_, ?_, ?_⟩, events ▸ kept.events⟩
  · exact
      { list := list
        rr_live := kept.table.rr_live
        rr_eq := by
          rw [world]
          exact kept.table.rr_eq
        rr_owner := by
          rw [same, owner]
          exact kept.table.rr_owner
        rr_action := by
          rw [same]
          exact action
        params_action := by
          rw [world]
          exact kept.table.params_action
        owned := fun id mem notRr => by
          rw [others id notRr]
          exact kept.table.owned id mem notRr
        same := fun id notRr => by
          rw [others id notRr]
          exact kept.table.same id notRr }
  · rw [others id notRr] at owns ⊢
    rw [world]
    exact kept.users.owners id mem notRr owns
  · rw [others id (kept.users.queues id notEmpty).2]
    exact kept.users.attended id mem notEmpty
  · rw [world, events]
    exact kept.slices.only
  · rw [world, events]
    intro _ isClean _ policy
    obtain ⟨param, expTime⟩ := forSlice policy
    refine ⟨?_, ?_, ?_⟩
    · rw [same]
      exact active isClean
    · rw [same, world]
      exact param
    · rw [same, world]
      exact expTime
  · rw [world, events]
    exact kept.slices.marked

/-- The alarm of the kernel gets a new time. -/
theorem Holds.armRr (holds : Holds { setting with armed := False } alarms)
    (forSlice : alarms.world.ForSlice)
    (list : Alarms.ListSound setting.live
      (alarms.armAlarm setting.rr alarms.world.rrParams))
    (timed : Clean setting.rr setting.timed alarms.events → alarms.world.rrParams.Timed) :
    Holds { setting with armed := True } (alarms.armAlarm setting.rr alarms.world.rrParams) := by
  obtain ⟨members, all, kept, running⟩ := holds
  obtain ⟨kalarm, world, events⟩ := armAlarm_spec setting.rr alarms.world.rrParams alarms
  generalize alarms.armAlarm setting.rr alarms.world.rrParams = stored at *
  have stillRuns : Running stored.world.kernel.sched stored.world.alive := world ▸ running
  refine ⟨members, all, ?_, stillRuns⟩
  apply kept.storeRr list kalarm rfl kept.table.params_action world events _ forSlice
  exact fun isClean => decide_eq_true (timed isClean)

/-- The alarm of the kernel keeps the time that it is set to. -/
theorem Holds.unchangedRr (holds : Holds { setting with armed := False } alarms)
    (forSlice : alarms.world.ForSlice)
    (list : Alarms.ListSound setting.live
      (alarms.storeAlarm setting.rr alarms.world.rrParams))
    (same : Time.timeCmp (alarms.kalarm setting.rr).alarm.expTime
      alarms.world.rrParams.expTime = 0)
    (active : Clean setting.rr setting.timed alarms.events →
      (alarms.kalarm setting.rr).active = true) :
    Holds { setting with armed := True }
      (alarms.storeAlarm setting.rr alarms.world.rrParams) := by
  obtain ⟨members, all, kept, running⟩ := holds
  have sameTime : (alarms.kalarm setting.rr).alarm.expTime = alarms.world.rrParams.expTime :=
    Time.timeCmp_eq_zero.mp same
  refine ⟨members, all, ?_, running⟩
  apply kept.storeRr list rfl rfl kept.table.params_action rfl rfl active
  intro policy
  obtain ⟨param, expTime⟩ := forSlice policy
  exact ⟨param, sameTime.trans expTime⟩

theorem Holds.setErrno (holds : Holds setting alarms) (errnum : Int) :
    Holds setting (alarms.onWorld (World.onKernel (Kernel.setErrno errnum))) := by
  obtain ⟨members, all, kept, running⟩ := holds
  refine ⟨members, all, kept.setErrno errnum, running.mem_alive, ?_⟩
  have state : ((alarms.world.kernel.setErrno errnum).thread alarms.world.activeThread).state =
      (alarms.world.thread alarms.world.activeThread).state :=
    Kernel.setThread_field Thread.state rfl
  exact state.trans running.active

/-- The end of `k_alarm_add` for the alarm of the kernel. -/
theorem Holds.finishAdd_rr {reschedule : Nat} (nested : Nested call) (holds : Holds setting alarms)
    (finishes : alarms.finishAdd (World.host threshold) call setting.rr reschedule = .ok alarms') :
    Holds setting alarms' := by
  have holds' : Holds setting (alarms.onWorld ((World.host threshold).setErrno 0)) :=
    holds.setErrno 0
  have owner : (alarms.kalarm setting.rr).thread = 0 := by
    obtain ⟨members, all, kept, -⟩ := holds
    exact kept.table.rr_owner
  unfold Alarms.finishAdd at finishes
  dsimp only at finishes
  have notWaits : ¬ Alarms.Waits (alarms.kalarm setting.rr) := fun waits => waits.1 owner
  rw [Alarms.onWorld_kalarm, if_neg notWaits] at finishes
  exact holds'.ready.scheduleIf nested (fun _ => holds') finishes

theorem Holds.noteSet (holds : Holds setting alarms) (id : Ptr) (alarm : Alarm) :
    Holds setting (alarms.noteSet (World.host threshold) id alarm) := by
  obtain ⟨members, all, kept, running⟩ := holds
  exact ⟨members, all, kept.event trivial, running⟩

end Set

end Oseer
