import Oseer.AlarmRuns

/-!
# Time slices in runs

In every state outside the kernel only the active thread is marked as activated, and
the alarm for the end of its slice is set, as long as each time that this alarm is set no
other alarm is due that takes the processor away from the thread.
-/

namespace Oseer

open LinkedRing Results Alarms

variable {alarms alarms' first last : Alarms World} {idle rrAlarm : Ptr} {attend : Set Ptr}
  {lasting : Prop} {threshold : Time} {fuel : Nat} {entry : Entry}

section Slices

/-- The flag `activated` is set for the active thread only, and if that is scheduled by
`SCHED_RR`, the alarm at `rrAlarm` is set for the end of its slice. -/
structure Sliced (rrAlarm : Ptr) (alarms : Alarms World) : Prop where
  marked : (alarms.world.thread alarms.world.activeThread).activated = true
  others : ∀ thread ∈ alarms.world.alive, thread ≠ alarms.world.activeThread →
    (alarms.world.thread thread).activated = false
  armed : (alarms.world.tsched alarms.world.activeThread).policy = .rr → Armed rrAlarm alarms

theorem Outside.sliced (outside : Outside idle rrAlarm attend True lasting alarms) :
    Sliced rrAlarm alarms := by
  obtain ⟨live, members, all, kept, running⟩ := outside
  have clean : Clean rrAlarm True (World.clearRecord alarms).events :=
    ⟨trivial, fun _ _ mem => by cases mem⟩
  refine ⟨kept.slices.marked trivial clean, fun thread mem inactive => ?_, fun policy => ?_⟩
  · have only := kept.slices.only clean thread mem
    exact Bool.eq_false_iff.mpr fun isActivated => inactive (only isActivated)
  · obtain ⟨isOn, param, expTime⟩ := kept.slices.armed trivial clean running.active policy
    exact ⟨isOn, param, expTime⟩

/-- Each time that the alarm at `rrAlarm` is set in the entry, its time lies ahead, and no
alarm that is due takes the processor away from the active thread. -/
def Entry.SlicesCalm (threshold : Time) (rrAlarm : Ptr) (alarms : Alarms World) (fuel : Nat)
    (entry : Entry) : Prop :=
  ∀ alarms', World.enter threshold fuel entry alarms = .ok alarms' →
    ∀ alarm memory, .set rrAlarm alarm memory ∈ alarms'.events → Calm rrAlarm alarm memory

theorem Calm.of_empty {alarm : Alarm} {memory : AlarmMemory World} (timed : alarm.Timed)
    (later : 0 < Time.timeCmp alarm.expTime (refTimeOf memory.threshold memory.world))
    (changed : Time.timeCmp (memory.kalarm rrAlarm).alarm.expTime alarm.expTime ≠ 0)
    (empty : memory.kalarms.listGet () FIRST = 0) : Calm rrAlarm alarm memory := by
  refine ⟨timed, later, .inr changed, fun entries linked id mem => ?_⟩
  have none : entries = [] := linked.eq_nil empty
  rw [none] at mem
  cases mem

/-- The event is no call of `k_alarm_set`, or the slice lies ahead and no other alarm is in the
list. -/
def AlarmEvent.Alone (rrAlarm : Ptr) : AlarmEvent World → Prop
  | .set _ alarm memory => alarm.Timed ∧
      0 < Time.timeCmp alarm.expTime (refTimeOf memory.threshold memory.world) ∧
      Time.timeCmp (memory.kalarm rrAlarm).alarm.expTime alarm.expTime ≠ 0 ∧
      memory.kalarms.listGet () FIRST = 0
  | _ => True

instance (event : AlarmEvent World) : Decidable (event.Alone rrAlarm) := by
  cases event <;> unfold AlarmEvent.Alone <;> infer_instance

theorem slicesCalm_of_alone (enters : World.enter threshold fuel entry alarms = .ok alarms')
    (alone : ∀ event ∈ alarms'.events, event.Alone rrAlarm) :
    entry.SlicesCalm threshold rrAlarm alarms fuel := by
  intro after result alarm memory mem
  obtain rfl := Except.ok.inj (enters.symm.trans result)
  obtain ⟨timed, later, changed, empty⟩ := alone _ mem
  exact .of_empty timed later changed empty

end Slices

end Oseer
