import Oseer.Alarm
import Oseer.Library.Results

/-!
# The record of the alarm functions

The record of what was done only grows: what is in it at one time is in it at any later
time of the same entry to the kernel, however deep the calls of `k_alarm_set` are nested.
-/

namespace Oseer

namespace Alarms

open Results

variable {W : Type} {host : Host W} {call : AlarmCall W} {alarms alarms' : Alarms W}
  {id first : Ptr} {refTime : Time} {fuel count : Nat} {result : Nat × Alarms W}

/-- A nested call leaves what is in the record. -/
def Records (call : AlarmCall W) : Prop :=
  ∀ id alarm alarms alarms', call id alarm alarms = .ok alarms' → alarms.events ⊆ alarms'.events

/-- A program records through its calls only. -/
theorem Records.run {α : Type} {prog : Prog W α} {ran : α × Alarms W} (records : Records call)
    (runs : prog.run call alarms = .ok ran) : alarms.events ⊆ ran.2.events := by
  induction prog generalizing alarms with
  | done value =>
      obtain rfl := Except.ok.inj runs
      exact List.Subset.refl _
  | work change next ih =>
      obtain ⟨world, -, runs⟩ := bind_ok runs
      have kept := ih world runs
      exact kept
  | alarmSet id alarm next ih =>
      obtain ⟨alarms', called, runs⟩ := bind_ok runs
      exact List.Subset.trans (records id alarm alarms alarms' called) (ih runs)

theorem Records.runAction (records : Records call)
    (runs : alarms.runAction host call first = .ok result) :
    alarms.events ⊆ result.2.events := by
  unfold Alarms.runAction at runs
  dsimp only at runs
  split_ifs at runs
  · obtain ⟨world, -, rfl⟩ := map_ok runs
    exact List.Subset.refl _
  · obtain ⟨ran, ranOk, rfl⟩ := map_ok runs
    have kept := records.run ranOk
    exact kept
  · obtain rfl := Except.ok.inj runs
    exact List.Subset.refl _

theorem takeFirst_events (first : Ptr) (alarms : Alarms W) :
    (alarms.takeFirst first).events =
      .fired first (alarms.kalarm first) alarms.world :: alarms.events := by
  unfold takeFirst rearm
  split_ifs <;> rfl

theorem Records.fire (records : Records call) (fires : alarms.fire host call = .ok result) :
    alarms.events ⊆ result.2.events := by
  obtain ⟨acted, runs, rfl⟩ := map_ok fires
  have taken : alarms.events ⊆
      (alarms.takeFirst (alarms.kalarms.listRemove () FIRST 0).1).events := by
    rw [takeFirst_events]
    exact List.subset_cons_self ..
  have acts := records.runAction runs
  exact List.Subset.trans taken acts

theorem Records.fireLoop (records : Records call)
    (loops : alarms.fireLoop host call refTime fuel count = .ok result) :
    alarms.events ⊆ result.2.events := by
  induction fuel generalizing alarms count with
  | zero => cases loops
  | succ fuel ih =>
      unfold Alarms.fireLoop at loops
      dsimp only at loops
      split_ifs at loops
      · obtain ⟨fired, fires, loops⟩ := bind_ok loops
        exact List.Subset.trans (records.fire fires) (ih loops)
      · obtain rfl := Except.ok.inj loops
        exact List.Subset.refl _

theorem Records.kScheduleAlarms (records : Records call)
    (runs : alarms.kScheduleAlarms host call fuel = .ok result) :
    alarms.events ⊆ result.2.events := by
  obtain ⟨looped, loops, rfl⟩ := map_ok runs
  have kept := records.fireLoop loops
  unfold setTimer
  dsimp only
  split_ifs
  · exact kept
  · exact kept

theorem Records.finishAdd {reschedule : Nat} (records : Records call)
    (finishes : alarms.finishAdd host call id reschedule = .ok alarms') :
    alarms.events ⊆ alarms'.events := by
  have scheduled : ∀ {alarms : Alarms W} {asked : Prop} [Decidable asked],
      alarms.scheduleIf host call asked = .ok alarms' → alarms.events ⊆ alarms'.events := by
    intro alarms asked _ runs
    unfold scheduleIf at runs
    split_ifs at runs
    · obtain ⟨ran, ranOk, rfl⟩ := map_ok runs
      have kept := records.run ranOk
      exact kept
    · obtain rfl := Except.ok.inj runs
      exact List.Subset.refl _
  unfold Alarms.finishAdd at finishes
  dsimp only at finishes
  split_ifs at finishes
  · have blocked : alarms.events ⊆ ((alarms.onWorld (host.setErrno 0)).block host id).events :=
      List.subset_cons_self ..
    exact List.Subset.trans blocked (scheduled finishes)
  · have kept := scheduled finishes
    exact kept

theorem activate_events (id : Ptr) (alarms : Alarms W) :
    (alarms.activate id).events = alarms.events := by
  unfold activate
  dsimp only
  split_ifs <;> rfl

theorem changeTime_events (id : Ptr) (expTime : Time) (alarms : Alarms W) :
    (alarms.changeTime id expTime).events = alarms.events := by
  unfold changeTime
  dsimp only
  split_ifs <;> rfl

/-- `k_alarm_set` leaves what is in the record, and its call is in it. -/
theorem kAlarmSet_records (fuel : Nat) : Records (kAlarmSet host fuel) := by
  induction fuel with
  | zero =>
      intro id alarm alarms alarms' called
      cases called
  | succ fuel ih =>
      intro id alarm alarms alarms' called
      unfold kAlarmSet at called
      split_ifs at called
      dsimp only at called
      have noted : alarms.events ⊆ (alarms.noteSet host id alarm).events :=
        List.subset_cons_self ..
      split_ifs at called
      · obtain ⟨scheduled, ran, finished⟩ := bind_ok called
        have armed := ih.kScheduleAlarms ran
        rw [activate_events, changeTime_events] at armed
        exact List.Subset.trans (List.Subset.trans noted armed) (ih.finishAdd finished)
      · obtain rfl := Except.ok.inj called
        exact noted

/-- A call of `k_alarm_set` for an alarm that exists is recorded. -/
theorem mem_events_of_kAlarmSet {alarm : Alarm}
    (called : kAlarmSet host fuel id alarm alarms = .ok alarms') :
    .set id alarm ⟨host.threshold, alarms.kalarms, alarms.kalarm, alarms.world⟩ ∈
      alarms'.events := by
  cases fuel with
  | zero => cases called
  | succ fuel =>
      unfold kAlarmSet at called
      split_ifs at called
      dsimp only at called
      split_ifs at called
      · obtain ⟨scheduled, ran, finished⟩ := bind_ok called
        have armed := (kAlarmSet_records fuel).kScheduleAlarms ran
        rw [activate_events, changeTime_events] at armed
        exact (kAlarmSet_records fuel).finishAdd finished (armed List.mem_cons_self)
      · obtain rfl := Except.ok.inj called
        exact List.mem_cons_self

end Alarms

end Oseer
