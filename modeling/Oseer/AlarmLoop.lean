import Oseer.DueAlarms

/-!
# The loop of `k_schedule_alarms` ends

`k_alarm_new` and `k_alarm_set` take the flags and the period of an alarm as they are.  As long
as all periods of periodic alarms are positive, every call of `k_schedule_alarms` ends, whatever
the clock shows; a periodic alarm whose period is zero keeps the loop going forever.
-/

namespace Oseer

open LinkedRing Results

variable {W α β : Type} {J : W → Prop}

section Parameters

/-- A periodic alarm has a positive period. -/
def Alarm.Forward (alarm : Alarm) : Prop :=
  alarm.flags &&& ALARM_PERIODIC ≠ 0 → Time.Positive alarm.period

instance (alarm : Alarm) : Decidable alarm.Forward := inferInstanceAs (Decidable (_ → _))

namespace Prog

/-- The program keeps the property of the memory, and the periodic alarms that it sets have
positive periods. -/
def Sets (J : W → Prop) : Prog W α → Prop
  | .done _ => True
  | .work change next =>
      ∀ world world', J world → change world = .ok world' → J world' ∧ (next world').Sets J
  | .alarmSet _ alarm next => alarm.Forward ∧ next.Sets J

theorem Sets.bind {first : Prog W α} {next : α → Prog W β} (sets : first.Sets J)
    (rest : ∀ value, (next value).Sets J) : (first >>= next).Sets J := by
  change (first.bind next).Sets J
  induction first with
  | done value => exact rest value
  | work change more ih =>
      intro world world' memory changed
      obtain ⟨kept, sets⟩ := sets world world' memory changed
      exact ⟨kept, ih world' sets⟩
  | alarmSet id alarm more ih => exact ⟨sets.1, ih sets.2⟩

theorem Sets.read {next : W → Prog W α} (rest : ∀ world, J world → (next world).Sets J) :
    (Prog.get >>= next).Sets J := by
  intro world world' memory reads
  obtain rfl := Except.ok.inj reads
  exact ⟨memory, rest world memory⟩

theorem Sets.attempt {change : W → Except Fault W}
    (kept : ∀ world world', J world → change world = .ok world' → J world') :
    (Prog.attempt change).Sets J :=
  fun world world' memory changed => ⟨kept world world' memory changed, trivial⟩

theorem Sets.modify {change : W → W} (kept : ∀ world, J world → J (change world)) :
    (Prog.modify change).Sets J := by
  apply Sets.attempt
  intro world world' memory changed
  obtain rfl := Except.ok.inj changed
  exact kept world memory

end Prog

/-- The rest of the kernel keeps a property of its memory, and the periodic alarms that it sets
itself have positive periods. -/
structure Host.Steady (host : Host W) (J : W → Prop) : Prop extends host.Calm J where
  timerSet : ∀ delay world, J world → J (host.timerSet delay world)
  initQueue : ∀ id world, J world → J (host.initQueue id world)
  enqueue : ∀ thread id world, J world → J (host.enqueue thread id world)
  setErrno : ∀ errnum world, J world → J (host.setErrno errnum world)
  kfree : ∀ id world, J world → J (host.kfree id world)
  action : ∀ action param, (host.action action param).Sets J
  schedule : host.schedule.Sets J

/-- An alarm that exists, if it is periodic, has a positive period. -/
def KAlarm.Sane (kalarm : KAlarm) : Prop := kalarm.magic = ALARM_MAGIC → kalarm.alarm.Forward

theorem KAlarm.Sane.forward {kalarm : KAlarm} (sane : kalarm.Sane) : kalarm.Forward := by
  intro dated periodic
  obtain ⟨t, isDate⟩ := Option.ne_none_iff_exists'.mp dated
  exact sane (KAlarm.mem_date.mp isDate).1.1 periodic

theorem KAlarm.Sane.rearmed {kalarm : KAlarm} (sane : kalarm.Sane) : kalarm.rearmed.Sane := by
  unfold KAlarm.rearmed
  split_ifs
  · exact sane
  · exact sane

end Parameters

namespace Alarms

variable {host : Host W} {call : AlarmCall W} {alarms alarms' : Alarms W} {id first : Ptr}
  {alarm : Alarm} {refTime : Time} {fuel count : Nat} {result : Nat × Alarms W}

/-- All alarms have the periods they need, and the memory its property. -/
structure Tame (J : W → Prop) (alarms : Alarms W) : Prop where
  memory : J alarms.world
  sane : ∀ id, (alarms.kalarm id).Sane

/-- A nested call for an alarm with a period that it needs keeps it so. -/
def Tames (J : W → Prop) (call : AlarmCall W) : Prop :=
  ∀ id alarm alarms alarms', alarm.Forward → Tame J alarms → call id alarm alarms = .ok alarms' →
    Tame J alarms'

section Operations

theorem Tame.onWorld (tame : Tame J alarms) {change : W → W}
    (kept : ∀ world, J world → J (change world)) : Tame J (alarms.onWorld change) :=
  ⟨kept _ tame.memory, tame.sane⟩

theorem Tame.setKalarm (tame : Tame J alarms) {change : KAlarm → KAlarm}
    (sane : (change (alarms.kalarm id)).Sane) : Tame J (alarms.setKalarm id change) := by
  refine ⟨tame.memory, fun other => ?_⟩
  by_cases same : other = id
  · subst same
    rw [setKalarm_same]
    exact sane
  · rw [setKalarm_other same]
    exact tame.sane other

theorem Tame.run {prog : Prog W α} {ran : α × Alarms W} (tames : Tames J call)
    (tame : Tame J alarms) (sets : prog.Sets J) (runs : prog.run call alarms = .ok ran) :
    Tame J ran.2 := by
  induction prog generalizing alarms with
  | done value =>
      obtain rfl := Except.ok.inj runs
      exact tame
  | work change next ih =>
      obtain ⟨world, changed, runs⟩ := bind_ok runs
      obtain ⟨kept, rest⟩ := sets alarms.world world tame.memory changed
      have tame' : Tame J { alarms with world := world } := ⟨kept, tame.sane⟩
      exact ih world tame' rest runs
  | alarmSet id alarm next ih =>
      obtain ⟨alarms', called, runs⟩ := bind_ok runs
      exact ih (tames id alarm alarms alarms' sets.1 tame called) sets.2 runs

theorem Tame.takeFirst (tame : Tame J alarms) (first : Ptr) : Tame J (alarms.takeFirst first) := by
  refine ⟨(takeFirst_world first alarms).symm ▸ tame.memory, fun id => ?_⟩
  rw [takeFirst_kalarm]
  by_cases same : id = first
  · subst same
    rw [Function.update_self]
    exact (tame.sane id).rearmed
  · rw [Function.update_of_ne same]
    exact tame.sane id

theorem Tame.runAction (steady : host.Steady J) (tames : Tames J call) (tame : Tame J alarms)
    (runs : alarms.runAction host call first = .ok result) : Tame J result.2 := by
  unfold Alarms.runAction at runs
  dsimp only at runs
  split_ifs at runs
  · obtain ⟨world, creates, rfl⟩ := map_ok runs
    rcases steady.createThread _ _ tame.memory with ⟨fault, -, fails⟩ | ⟨world', kept, created⟩
    · exact nomatch fails.symm.trans creates
    · obtain rfl := Except.ok.inj (created.symm.trans creates)
      exact ⟨kept, tame.sane⟩
  · obtain ⟨ran, ranOk, rfl⟩ := map_ok runs
    have kept := Tame.run tames tame (steady.action _ _) ranOk
    exact kept
  · obtain rfl := Except.ok.inj runs
    exact tame

theorem Tame.fire (steady : host.Steady J) (tames : Tames J call) (tame : Tame J alarms)
    (fires : alarms.fire host call = .ok result) : Tame J result.2 := by
  obtain ⟨acted, runs, rfl⟩ := map_ok fires
  have taken := tame.takeFirst (alarms.kalarms.listRemove () FIRST 0).1
  have kept := taken.runAction steady tames runs
  exact ⟨steady.releaseAll _ _ kept.memory, kept.sane⟩

theorem Tame.fireLoop (steady : host.Steady J) (tames : Tames J call) (tame : Tame J alarms)
    (loops : alarms.fireLoop host call refTime fuel count = .ok result) : Tame J result.2 := by
  induction fuel generalizing alarms count with
  | zero => cases loops
  | succ fuel ih =>
      unfold Alarms.fireLoop at loops
      dsimp only at loops
      split_ifs at loops
      · obtain ⟨fired, fires, loops⟩ := bind_ok loops
        exact ih (tame.fire steady tames fires) loops
      · obtain rfl := Except.ok.inj loops
        exact tame

theorem Tame.kScheduleAlarms (steady : host.Steady J) (tames : Tames J call)
    (tame : Tame J alarms) (runs : alarms.kScheduleAlarms host call fuel = .ok result) :
    Tame J result.2 := by
  obtain ⟨looped, loops, rfl⟩ := map_ok runs
  have reading : Tame J { alarms with world := (host.getTime alarms.world).2 } :=
    ⟨steady.getTime _ tame.memory, tame.sane⟩
  have kept := reading.fireLoop steady tames loops
  unfold Alarms.setTimer
  dsimp only
  split_ifs
  · exact kept.onWorld (steady.timerSet _)
  · exact kept

theorem Tame.scheduleIf {asked : Prop} [Decidable asked] (steady : host.Steady J)
    (tames : Tames J call) (tame : Tame J alarms)
    (runs : alarms.scheduleIf host call asked = .ok alarms') : Tame J alarms' := by
  unfold Alarms.scheduleIf at runs
  split_ifs at runs
  · obtain ⟨ran, ranOk, rfl⟩ := map_ok runs
    exact tame.run tames steady.schedule ranOk
  · obtain rfl := Except.ok.inj runs
    exact tame

theorem Tame.activate (tame : Tame J alarms) (id : Ptr) : Tame J (alarms.activate id) := by
  have sane := tame.sane id
  unfold Alarms.activate
  dsimp only
  split_ifs
  · have active : Tame J (alarms.setKalarm id fun kalarm => { kalarm with active := true }) :=
      tame.setKalarm sane
    exact ⟨active.memory, active.sane⟩
  · exact tame.setKalarm sane

theorem Tame.kAlarmAdd (steady : host.Steady J) (tames : Tames J call) (tame : Tame J alarms)
    (runs : alarms.kAlarmAdd host call fuel id = .ok alarms') : Tame J alarms' := by
  obtain ⟨scheduled, ran, finished⟩ := bind_ok runs
  have kept := (tame.activate id).kScheduleAlarms steady tames ran
  have noted := kept.onWorld (steady.setErrno 0)
  unfold Alarms.finishAdd at finished
  dsimp only at finished
  split_ifs at finished
  · have blocked : Tame J ((scheduled.2.onWorld (host.setErrno 0)).block host id) :=
      ⟨steady.enqueue _ _ _ noted.memory, noted.sane⟩
    exact blocked.scheduleIf steady tames finished
  · exact noted.scheduleIf steady tames finished

theorem Tame.storeAlarm (steady : host.Steady J) (tame : Tame J alarms) (forward : alarm.Forward) :
    Tame J (((alarms.noteSet host id alarm).storeAlarm id alarm).onWorld (host.setErrno 0)) := by
  have noted : Tame J (alarms.noteSet host id alarm) := ⟨tame.memory, tame.sane⟩
  have stored : Tame J ((alarms.noteSet host id alarm).storeAlarm id alarm) :=
    noted.setKalarm fun _ => forward
  exact stored.onWorld (steady.setErrno 0)

theorem Tame.changeTime {expTime : Time} (tame : Tame J alarms) :
    Tame J (alarms.changeTime id expTime) := by
  have removed : Tame J (if (alarms.kalarm id).active then alarms.listRemove id else alarms) := by
    split
    · exact ⟨tame.memory, tame.sane⟩
    · exact tame
  unfold Alarms.changeTime
  exact removed.setKalarm (removed.sane id)

/-- `k_alarm_set` keeps it so, however deep it is nested. -/
theorem kAlarmSet_tames (steady : host.Steady J) (fuel : Nat) : Tames J (kAlarmSet host fuel) := by
  induction fuel with
  | zero =>
      intro id alarm alarms alarms' _ _ result
      cases result
  | succ fuel ih =>
      intro id alarm alarms alarms' forward tame result
      unfold kAlarmSet at result
      split_ifs at result
      dsimp only at result
      have stored : Tame J (((alarms.noteSet host id alarm).storeAlarm id alarm).onWorld
          (host.setErrno 0)) := tame.storeAlarm steady forward
      split_ifs at result
      · exact stored.changeTime.kAlarmAdd steady ih result
      · obtain rfl := Except.ok.inj result
        exact stored

theorem Tame.kAlarmNew {syscall : Bool} (steady : host.Steady J) (tame : Tame J alarms)
    (forward : alarm.Forward)
    (result : alarms.kAlarmNew host fuel id alarm syscall = .ok alarms') : Tame J alarms' := by
  unfold Alarms.kAlarmNew at result
  by_cases null : id = 0
  · rw [if_pos null] at result
    cases result
  · rw [if_neg null] at result
    have created : Tame J (alarms.setKalarm id fun kalarm => { kalarm with
        alarm := alarm
        magic := ALARM_MAGIC
        thread := if syscall then host.activeThread alarms.world else 0 }) :=
      tame.setKalarm fun _ => forward
    have queued := created.onWorld (steady.initQueue id)
    exact queued.kAlarmAdd steady (kAlarmSet_tames steady fuel) result

theorem Tame.discard (steady : host.Steady J) (tame : Tame J alarms) :
    Tame J (alarms.discard host id).2 := by
  have removed : Tame J (if (alarms.kalarm id).active then alarms.listRemove id else alarms) := by
    split
    · exact ⟨tame.memory, tame.sane⟩
    · exact tame
  have ended : Tame J (Alarms.setKalarm id (fun kalarm => { kalarm with magic := 0 })
      (if (alarms.kalarm id).active then alarms.listRemove id else alarms)) :=
    removed.setKalarm fun marked => absurd marked (by simp [ALARM_MAGIC])
  have noted := ended.onWorld (steady.setErrno 0)
  exact ⟨steady.kfree id _ (steady.releaseAll id _ noted.memory), noted.sane⟩

theorem Tame.kAlarmRemove (steady : host.Steady J) (tame : Tame J alarms)
    (result : alarms.kAlarmRemove host fuel id = .ok alarms') : Tame J alarms' := by
  unfold Alarms.kAlarmRemove at result
  split_ifs at result
  obtain ⟨scheduled, ran, result⟩ := bind_ok result
  have kept := (tame.discard steady).kScheduleAlarms steady (kAlarmSet_tames steady fuel) ran
  exact kept.scheduleIf steady (kAlarmSet_tames steady fuel) result

theorem Tame.kTimerInterrupt (steady : host.Steady J) (tame : Tame J alarms)
    (result : alarms.kTimerInterrupt host fuel = .ok alarms') : Tame J alarms' := by
  obtain ⟨scheduled, ran, result⟩ := bind_ok result
  have kept := tame.kScheduleAlarms steady (kAlarmSet_tames steady fuel) ran
  exact kept.scheduleIf steady (kAlarmSet_tames steady fuel) result

end Operations

section Runs

/-- The operations of the alarms: `sys__alarm_new`, or its counterpart in the kernel, and the
others. -/
inductive AlarmOp
  | new (id : Ptr) (alarm : Alarm) (syscall : Bool)
  | set (id : Ptr) (alarm : Alarm)
  | remove (id : Ptr)
  | interrupt

namespace AlarmOp

/-- An operation. -/
def run (host : Host W) (fuel : Nat) : AlarmOp → Alarms W → Except Fault (Alarms W)
  | .new id alarm syscall => kAlarmNew host fuel id alarm syscall
  | .set id alarm => kAlarmSet host (fuel + 1) id alarm
  | .remove id => kAlarmRemove host fuel id
  | .interrupt => kTimerInterrupt host fuel

/-- The memory for which the operation calls `k_schedule_alarms`. -/
def called (host : Host W) : AlarmOp → Alarms W → Alarms W
  | .new id alarm syscall, alarms =>
      ((alarms.setKalarm id fun kalarm => { kalarm with
        alarm := alarm
        magic := ALARM_MAGIC
        thread := if syscall then host.activeThread alarms.world else 0 }).onWorld
          (host.initQueue id)).activate id
  | .set id alarm, alarms =>
      ((((alarms.noteSet host id alarm).storeAlarm id alarm).onWorld
        (host.setErrno 0)).changeTime id alarm.expTime).activate id
  | .remove id, alarms => (alarms.discard host id).2
  | .interrupt, alarms => alarms

/-- The address is that of free memory, or of an alarm. -/
def Fits (live : Set Ptr) : AlarmOp → Prop
  | .new id _ _ => id ∉ live ∧ 0 < id ∧ id < addressCount
  | .set id _ => id ∈ live
  | .remove id => id ∈ live
  | .interrupt => True

/-- An alarm that the operation is given has the period that it needs. -/
def Forward : AlarmOp → Prop
  | .new _ alarm _ => alarm.Forward
  | .set _ alarm => alarm.Forward
  | _ => True

/-- The alarms that exist after the operation. -/
def liveAfter (live : Set Ptr) : AlarmOp → Set Ptr
  | .new id _ _ => insert id live
  | .remove id => live \ {id}
  | _ => live

variable {op : AlarmOp} {live : Set Ptr}

/-- Each operation calls `k_schedule_alarms` first, unless it sets an alarm for the time that it
has already. -/
theorem run_eq (sound : ListSound live alarms) (fits : op.Fits live) (fuel : Nat) :
    (∃ id alarm, op = .set id alarm ∧
      Time.timeCmp (alarms.kalarm id).alarm.expTime alarm.expTime = 0) ∨
      ∃ rest : Nat × Alarms W → Except Fault (Alarms W), op.run host fuel alarms =
        ((op.called host alarms).kScheduleAlarms host (kAlarmSet host fuel) fuel).bind rest := by
  obtain ⟨entries, listed⟩ := sound
  have known : ∀ id ∈ live, ¬ (id = 0 ∨ (alarms.kalarm id).magic ≠ ALARM_MAGIC) := by
    intro id mem
    rw [not_or, not_not]
    exact ⟨(listed.pointer id mem).1.ne', (listed.marked_iff id).mpr mem⟩
  cases op with
  | new id alarm syscall => exact .inr ⟨_, if_neg fits.2.1.ne'⟩
  | remove id => exact .inr ⟨_, if_neg (known id fits)⟩
  | interrupt => exact .inr ⟨_, rfl⟩
  | set id alarm =>
      by_cases same : Time.timeCmp (alarms.kalarm id).alarm.expTime alarm.expTime = 0
      · exact .inl ⟨id, alarm, rfl, same⟩
      · refine .inr ⟨_, (if_neg (known id fits)).trans (if_pos ?_)⟩
        have stored : ((((alarms.noteSet host id alarm).storeAlarm id alarm).onWorld
            (host.setErrno 0)).kalarm id).alarm.expTime = (alarms.kalarm id).alarm.expTime := by
          simp [storeAlarm, noteSet]
        rw [stored]
        exact same

/-- The operation calls `k_schedule_alarms` for a sound list. -/
theorem called_sound (sound : ListSound live alarms) (fits : op.Fits live) :
    ListSound (op.liveAfter live) (op.called host alarms) := by
  obtain ⟨entries, listed⟩ := sound
  cases op with
  | new id alarm syscall =>
      have created : Loose (alarms.setKalarm id fun kalarm => { kalarm with
          alarm := alarm
          magic := ALARM_MAGIC
          thread := if syscall then host.activeThread alarms.world else 0 })
          (insert id live) entries id := listed.create fits.1 fits.2 rfl
      exact (created.world (host.initQueue id)).activate
  | set id alarm =>
      have noted : Listed (alarms.noteSet host id alarm) live entries := listed.world _ _
      exact (noted.storeAlarm.changeTime fits).activate
  | remove id => exact ⟨_, listed.discard fits⟩
  | interrupt => exact ⟨entries, listed⟩

theorem called_tame (steady : host.Steady J) (tame : Tame J alarms) (forward : op.Forward) :
    Tame J (op.called host alarms) := by
  cases op with
  | new id alarm syscall =>
      have created : Tame J (alarms.setKalarm id fun kalarm => { kalarm with
          alarm := alarm
          magic := ALARM_MAGIC
          thread := if syscall then host.activeThread alarms.world else 0 }) :=
        tame.setKalarm fun _ => forward
      exact (created.onWorld (steady.initQueue id)).activate id
  | set id alarm => exact (tame.storeAlarm steady forward).changeTime.activate id
  | remove id => exact tame.discard steady
  | interrupt => exact tame

theorem run_sound (sound : ListSound live alarms) (fits : op.Fits live)
    (result : op.run host fuel alarms = .ok alarms') : ListSound (op.liveAfter live) alarms' := by
  cases op with
  | new id alarm syscall => exact sound.kAlarmNew fits.1 fits.2 result
  | set id alarm => exact kAlarmSet_keeps _ _ _ _ _ sound result
  | remove id => exact (sound.kAlarmRemove result).2
  | interrupt => exact sound.kTimerInterrupt result

theorem run_tame (steady : host.Steady J) (tame : Tame J alarms) (forward : op.Forward)
    (result : op.run host fuel alarms = .ok alarms') : Tame J alarms' := by
  cases op with
  | new id alarm syscall => exact tame.kAlarmNew steady forward result
  | set id alarm => exact kAlarmSet_tames steady _ _ _ _ _ forward tame result
  | remove id => exact tame.kAlarmRemove steady result
  | interrupt => exact tame.kTimerInterrupt steady result

end AlarmOp

/-- An operation whose alarm has the period that it needs, or other work of the kernel. -/
inductive ForwardStep (host : Host W) (J : W → Prop) : AlarmState W → AlarmState W → Prop where
  | operation {fuel : Nat} {state : AlarmState W} {alarms : Alarms W} (op : AlarmOp)
      (fits : op.Fits state.live) (forward : op.Forward)
      (result : op.run host fuel state.alarms = .ok alarms) :
      ForwardStep host J state ⟨alarms, op.liveAfter state.live⟩
  | work {fuel : Nat} {prog : Prog W Unit} {state : AlarmState W} {ran : Unit × Alarms W}
      (sets : prog.Sets J) (result : prog.run (kAlarmSet host fuel) state.alarms = .ok ran) :
      ForwardStep host J state ⟨ran.2, state.live⟩

variable {state state' : AlarmState W}

theorem ForwardStep.keeps (steady : host.Steady J) (step : ForwardStep host J state state')
    (sound : ListSound state.live state.alarms) (tame : Tame J state.alarms) :
    ListSound state'.live state'.alarms ∧ Tame J state'.alarms := by
  cases step with
  | operation op fits forward result =>
      exact ⟨op.run_sound sound fits result, op.run_tame steady tame forward result⟩
  | work sets result =>
      exact ⟨ListSound.run (kAlarmSet_keeps _) sound result,
        tame.run (kAlarmSet_tames steady _) sets result⟩

theorem ForwardStep.steps (steady : host.Steady J)
    (run : Relation.ReflTransGen (ForwardStep host J) state state')
    (sound : ListSound state.live state.alarms) (tame : Tame J state.alarms) :
    ListSound state'.live state'.alarms ∧ Tame J state'.alarms := by
  induction run with
  | refl => exact ⟨sound, tame⟩
  | tail _ step ih => exact step.keeps steady ih.1 ih.2

theorem Host.Leaves.of_owned {P : W → Prop} {kalarm : KAlarm} (owned : kalarm.thread ≠ 0) :
    host.Leaves P refTime kalarm :=
  fun _ unowned => absurd unowned owned

end Runs

section Endless

variable {host : Host W} {call : AlarmCall W} {alarms : Alarms W} {id : Ptr} {refTime : Time}
  {live : Set Ptr}

/-- A periodic alarm that is due, and stays at its time, is served forever. -/
theorem Listed.fireLoop_endless (listed : Listed alarms live [id])
    (stays : (alarms.kalarm id).rearmed = alarms.kalarm id)
    (noAction : (alarms.kalarm id).alarm.action = 0)
    (due : Time.timeCmp (alarms.kalarm id).alarm.expTime refTime ≤ 0) (fuel count : Nat) :
    alarms.fireLoop host call refTime fuel count = .error .endless := by
  induction fuel generalizing alarms count with
  | zero => rfl
  | succ fuel ih =>
      have isFirst : alarms.kalarms.listGet () FIRST = id := listed.linked.listGet_first ()
      obtain ⟨mem, active⟩ := (listed.mem_iff id).mp List.mem_cons_self
      have nonzero : id ≠ 0 := (listed.pointer id mem).1.ne'
      obtain ⟨removed, -, -, entries, taken⟩ :=
        (ListSound.takeFirst ⟨[id], listed⟩ (isFirst.symm ▸ nonzero))
      rw [isFirst] at removed taken
      have same : (alarms.takeFirst id).kalarm = alarms.kalarm := by
        rw [takeFirst_kalarm, stays, Function.update_eq_self]
      have acts : (alarms.takeFirst id).runAction host call id = .ok (0, alarms.takeFirst id) := by
        unfold Alarms.runAction
        dsimp only
        rw [same]
        exact if_neg (not_not.mpr noAction)
      have fires : alarms.fire host call = .ok ((host.releaseAll id alarms.world).1,
          { alarms.takeFirst id with world := (host.releaseAll id alarms.world).2 }) := by
        unfold Alarms.fire
        dsimp only
        rw [removed, acts]
        simp [Except.map, takeFirst_world]
      -- the alarm is the only one that is active, as before
      have only : entries = [id] := by
        have perm : entries.Perm [id] := by
          apply (List.perm_ext_iff_of_nodup taken.nodup (List.nodup_singleton id)).mpr
          intro other
          rw [taken.mem_iff, same, ← listed.mem_iff]
        exact List.perm_singleton.mp perm
      have listed' : Listed { alarms.takeFirst id with
          world := (host.releaseAll id alarms.world).2 } live [id] := only ▸ taken.world _ _
      unfold Alarms.fireLoop
      dsimp only
      rw [isFirst, if_pos ⟨nonzero, due⟩, fires]
      apply ih listed'
      · rw [same, stays]
      · rw [same, noAction]
      · rw [same]
        exact due

/-- An alarm that is due, and would stay at its time, is accepted. -/
theorem Listed.kAlarmNew_endless {alarm : Alarm} {syscall : Bool}
    (listed : Listed alarms live []) (unused : id ∉ live) (pointer : 0 < id ∧ id < addressCount)
    (timed : 0 < alarm.expTime.sec + alarm.expTime.nsec)
    (stays : Time.timeAdd alarm.expTime alarm.period = alarm.expTime)
    (noAction : alarm.action = 0)
    (due : Time.timeCmp alarm.expTime (Time.timeAdd
      (host.getTime (host.initQueue id alarms.world)).1 host.threshold) ≤ 0)
    (periodic : alarm.flags &&& ALARM_PERIODIC ≠ 0) (fuel : Nat) :
    alarms.kAlarmNew host fuel id alarm syscall = .error .endless := by
  generalize createdIs : (alarms.setKalarm id fun kalarm => { kalarm with
      alarm := alarm
      magic := ALARM_MAGIC
      thread := if syscall then host.activeThread alarms.world else 0 }).onWorld
        (host.initQueue id) = created
  have isAlarm : (created.kalarm id).alarm = alarm := by
    rw [← createdIs]
    simp [onWorld, setKalarm]
  have world : created.world = host.initQueue id alarms.world := by
    rw [← createdIs]
    rfl
  have loose : Loose created (insert id live) [] id := by
    rw [← createdIs]
    exact (listed.create unused pointer rfl).world (host.initQueue id)
  have armed : Loose (created.setKalarm id fun kalarm => { kalarm with active := true })
      (insert id live) [] id := loose.setKalarm loose.magic
  obtain ⟨earlier, later, place, listed'⟩ := armed.sortAdd (by rw [setKalarm_same])
  obtain ⟨rfl, rfl⟩ := List.append_eq_nil_iff.mp place.symm
  have activates : created.activate id =
      (created.setKalarm id fun kalarm => { kalarm with active := true }).sortAdd id := by
    unfold Alarms.activate
    rw [isAlarm]
    exact if_pos timed
  have becomes : ((created.activate id).kalarm id).alarm = alarm := by
    rw [activates]
    simp [sortAdd, isAlarm]
  have sameWorld : (created.activate id).world = host.initQueue id alarms.world := by
    rw [activates, ← world]
    rfl
  rw [← activates] at listed'
  have stays' : ((created.activate id).kalarm id).rearmed = (created.activate id).kalarm id := by
    rw [KAlarm.rearmed_periodic (by unfold KAlarm.Periodic; rw [becomes]; exact periodic), becomes,
      stays, ← becomes]
  unfold Alarms.kAlarmNew
  rw [if_neg pointer.1.ne']
  dsimp only
  rw [createdIs]
  unfold Alarms.kAlarmAdd Alarms.kScheduleAlarms
  have reading : Listed { created.activate id with
      world := (host.getTime (created.activate id).world).2 } (insert id live) [id] :=
    listed'.world _ _
  have endless := @Listed.fireLoop_endless W host (kAlarmSet host fuel) _ id
    (Time.timeAdd (host.getTime (created.activate id).world).1 host.threshold) _ reading stays'
    (by rw [becomes]; exact noAction) (by rw [becomes, sameWorld]; exact due) fuel 0
  dsimp only at endless ⊢
  rw [endless]
  rfl

end Endless

end Alarms

section Kernel

variable {world world' : World} {threshold : Time} {thread kthread stack proc : Ptr}
  {policy : SchedPolicy} {prio : Int} {place : Nat}

/-- The alarm of the scheduler has the period that it needs. -/
def World.Paced (world : World) : Prop := world.rrParams.Forward

theorem World.Paced.congr (paced : world.Paced) (same : world'.rrParams = world.rrParams) :
    world'.Paced := by
  unfold World.Paced
  rw [same]
  exact paced

theorem World.rrThreadDeactivate_rrParams :
    (world.rrThreadDeactivate thread).rrParams = world.rrParams := by
  unfold World.rrThreadDeactivate
  dsimp only
  split_ifs <;> rfl

theorem World.leaveActive_rrParams : world.leaveActive.rrParams = world.rrParams := by
  unfold World.leaveActive World.kschedDeactivateThread
  dsimp only
  split_ifs
  all_goals first | rfl | exact World.rrThreadDeactivate_rrParams

theorem World.replenish_rrParams : (world.replenish thread).rrParams = world.rrParams := by
  unfold World.replenish
  split_ifs <;> rfl

theorem World.enterActive_rrParams {highest : Nat}
    (entered : world.enterActive highest = .ok world') : world'.rrParams = world.rrParams := by
  unfold World.enterActive at entered
  dsimp only at entered
  split_ifs at entered
  obtain rfl := Except.ok.inj entered
  rfl

theorem World.rrThreadActivate_sets : (rrThreadActivate thread).Sets World.Paced := by
  apply Prog.Sets.bind
  · apply Prog.Sets.modify
    intro world paced
    have replenished : (world.replenish thread).Paced := paced.congr replenish_rrParams
    exact replenished
  · intro _
    apply Prog.Sets.read
    intro world paced
    exact ⟨paced, trivial⟩

theorem World.kschedActivateThread_sets : (kschedActivateThread thread).Sets World.Paced := by
  apply Prog.Sets.read
  intro world _
  split_ifs
  · trivial
  · apply Prog.Sets.bind
    · cases (world.tsched thread).policy with
      | fifo => trivial
      | rr => exact rrThreadActivate_sets
    · intro _
      exact Prog.Sets.modify fun _ paced => paced

/-- `kthreads_schedule`. -/
theorem World.kthreadsSchedule_sets : kthreadsSchedule.Sets World.Paced := by
  apply Prog.Sets.read
  intro world _
  dsimp only
  split_ifs
  · apply Prog.Sets.bind
    · apply Prog.Sets.attempt
      intro world world' paced entered
      have left : world.leaveActive.Paced := paced.congr leaveActive_rrParams
      exact left.congr (enterActive_rrParams entered)
    · intro _
      apply Prog.Sets.read
      exact fun _ _ => kschedActivateThread_sets
  · trivial
  · apply Prog.Sets.attempt
    intro _ _ _ stops
    cases stops

theorem World.rrTimer_sets : (rrTimer thread).Sets World.Paced := by
  apply Prog.Sets.read
  intro world _
  split_ifs
  · trivial
  · apply Prog.Sets.bind
    · exact Prog.Sets.modify fun _ paced => paced
    · exact fun _ => kthreadsSchedule_sets

theorem World.kthreadCreate_rrParams
    (created : world.kthreadCreate policy prio stack kthread proc = .ok world') :
    world'.rrParams = world.rrParams := by
  unfold World.kthreadCreate at created
  split_ifs at created
  obtain ⟨kernel, -, rfl⟩ := map_ok created
  obtain ⟨-, -, -, rrParams, -⟩ := @World.kschedThreadAdd_same { world with
    kernel := kernel
    life := Function.update world.life kthread .living } policy kthread
  exact rrParams

/-- The kernel itself sets no periodic alarm whose period is zero. -/
theorem World.host_steady : (World.host threshold).Steady World.Paced where
  getTime := fun _ paced => paced
  createThread := by
    intro kalarm world paced
    cases created : (World.host threshold).createThread kalarm world with
    | error fault =>
        refine .inl ⟨fault, ?_, rfl⟩
        rintro rfl
        exact World.kthreadCreate_ends created
    | ok world' =>
        have supplied : ({ world with supplied := world.supplied + 1 } : World).Paced := paced
        exact .inr ⟨world', supplied.congr (World.kthreadCreate_rrParams created), rfl⟩
  releaseAll := fun _ _ paced => paced
  timerSet := fun _ _ paced => paced
  initQueue := fun _ _ paced => paced
  enqueue := fun _ _ _ paced => paced
  setErrno := fun _ _ paced => paced
  kfree := fun _ _ paced => paced
  action := by
    intro action param
    change (if action = rrTimerAddress then rrTimer param else pure ()).Sets Paced
    split_ifs
    · exact rrTimer_sets
    · trivial
  schedule := kthreadsSchedule_sets

end Kernel

section Claim

namespace Alarms

variable {host : Host W} {alarms : Alarms W} {state : AlarmState W}

/-- An alarm with a period of zero that is due. -/
def stuckAlarm : Alarm := ⟨⟨0, 100⟩, 0, 0, ALARM_PERIODIC, ⟨0, 0⟩⟩

end Alarms

end Claim

end Oseer
