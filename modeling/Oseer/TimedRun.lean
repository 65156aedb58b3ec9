import Oseer.TimedCalls
import Oseer.TimedEnd
import Oseer.TimedParams
import Mathlib.Logic.Relation

/-!
# Runs of the kernel

Between two entries to the kernel the invariant is `Outside`.  Every entry keeps it
whose arguments are such as the kernel hands out, and that takes none of the ways in
which the kernel loses track of a thread or of an alarm.
-/

namespace Oseer

open LinkedRing Results Prog Alarms

variable {setting : Setting} {alarms alarms' : Alarms World} {members : Members} {all : List Ptr}
  {idle rr : Ptr} {live attend : Set Ptr} {timed lasting : Prop} {threshold : Time} {fuel : Nat}

section Outside

/-- What the parts of the kernel have in common in an entry from the given state. -/
def settingOf (idle rr : Ptr) (live attend : Set Ptr) (timed lasting : Prop)
    (alarms : Alarms World) : Setting where
  idle := idle
  rr := rr
  live := live
  kalarm := alarms.kalarm
  waits := {thread | thread ∈ alarms.world.alive ∧ (alarms.world.thread thread).state = .wait}
  caller := alarms.world.activeThread
  attend := attend
  timed := timed
  lasting := lasting
  armed := True
  marked := True

/-- The invariant outside the kernel. -/
def Outside (idle rr : Ptr) (attend : Set Ptr) (timed lasting : Prop) (alarms : Alarms World) :
    Prop :=
  ∃ live, Holds (settingOf idle rr live attend timed lasting alarms) (World.clearRecord alarms)

/-- The invariant inside the kernel holds for the next entry, too. -/
theorem Kept.outside (kept : Kept setting alarms members all) (armed : setting.armed)
    (marked : setting.marked) (clean : setting.timed → Clean setting.rr setting.timed alarms.events) :
    Kept (settingOf setting.idle setting.rr setting.live setting.attend setting.timed
      setting.lasting alarms) (World.clearRecord alarms) members all where
  threads := { kept.threads with waiting := fun _ mem waits => ⟨mem, waits⟩ }
  table :=
    { list := kept.table.list.world _ _
      rr_live := kept.table.rr_live
      rr_eq := kept.table.rr_eq
      rr_owner := kept.table.rr_owner
      rr_action := kept.table.rr_action
      params_action := kept.table.params_action
      owned := kept.table.owned
      same := fun _ _ => .refl _ }
  users := { kept.users with }
  slices :=
    { only := fun isClean => kept.slices.only (clean isClean.timed)
      armed := fun _ isClean isActive policy => by
        obtain ⟨isOn, param, expTime⟩ :=
          kept.slices.armed armed (clean isClean.timed) isActive policy
        exact ⟨isOn, param, expTime⟩
      marked := fun _ isClean => kept.slices.marked marked (clean isClean.timed) }
  events := fun event mem => by cases mem

theorem Holds.outside (holds : Holds setting alarms) (armed : setting.armed)
    (marked : setting.marked) (clean : setting.timed → Clean setting.rr setting.timed alarms.events) :
    Outside setting.idle setting.rr setting.attend setting.timed setting.lasting alarms := by
  obtain ⟨members, all, kept, running⟩ := holds
  exact ⟨setting.live, members, all, kept.outside armed marked clean, running⟩

end Outside

section Conditions

/-- The arguments of an entry are such as the kernel hands out: new objects are at free
addresses, handles are of objects that exist, threads wait in queues of the kernel, and the
idle thread does not end. -/
def Entry.Valid (idle : Ptr) (alarms : Alarms World) : Entry → Prop
  | .startProgram proc pi _ _ _ _ => alarms.world.NewProcess proc pi
  | .threadExit _ => alarms.world.activeThread ≠ idle
  | .kthreadCancel kthread _ =>
      (alarms.world.thread kthread).state = .passive ∨
        kthread ∈ alarms.world.alive ∧ kthread ≠ idle
  | .waitForThread handle _ => alarms.world.Known handle
  | .block queue => queue.state = .wait ∧ (∀ thread, queue ≠ .join thread) ∧
      (∀ id, queue ≠ .alarm id) ∧
      ∀ thread, queue = .thrq (.thread thread) → alarms.world.activeThread = thread
  | .release queue => queue.state = .wait
  | .releaseAll queue => queue.state = .wait
  | .setThreadSchedParams handle policy prio _ =>
      World.ValidParams handle policy prio alarms.world →
        handle.thread ∈ alarms.world.alive ∨ (alarms.world.thread handle.thread).state = .passive
  | .alarmNew id _ => ¬ alarms.Marked id ∧ 0 < id ∧ id < addressCount
  | .alarmSet id _ => id ≠ alarms.world.rrAlarm
  | .alarmRemove id => id ≠ alarms.world.rrAlarm
  | .waitForAlarm id _ => id ≠ alarms.world.rrAlarm
  | _ => True

/-- `sys__set_thread_sched_params` is not called for the active thread while its slice runs,
unless new slices are empty. -/
def Entry.SparesActive (alarms : Alarms World) : Entry → Prop
  | .setThreadSchedParams handle policy prio _ =>
      World.ValidParams handle policy prio alarms.world →
        handle.thread = alarms.world.activeThread →
        (alarms.world.thread handle.thread).activated = true →
        alarms.world.timeSlice.sec + alarms.world.timeSlice.nsec = 0
  | _ => True

/-- An alarm whose owner is to wait for it belongs to the caller, and the end of the
caller's time slice is not due. -/
def Entry.OwnerCalls (threshold : Time) (alarms : Alarms World) : Entry → Prop
  | .alarmNew _ alarm =>
      Oseer.OwnerCalls threshold (.new alarm alarms.world.activeThread) alarms
  | .alarmSet id alarm => SetsTime id alarm alarms →
      Oseer.OwnerCalls threshold ((alarms.kalarm id).set alarm) alarms
  | _ => True

/-- No thread ends while an alarm belongs to it that can expire, or any alarm if threads are to
outlast all their alarms, and no alarm of a thread that has ended is armed. -/
def Entry.OwnersLive (lasting : Prop) (alarms : Alarms World) : Entry → Prop
  | .threadExit _ => Unowned lasting alarms.world.activeThread alarms
  | .kthreadCancel kthread _ => kthread ∈ alarms.world.alive → Unowned lasting kthread alarms
  | .alarmSet id alarm => ¬ lasting → OwnerLives id alarm alarms
  | _ => True

/-- No thread that is ready or waits is cancelled by `sys__cancel_thread`, which would do so
twice. -/
def Entry.CancelsOnce (alarms : Alarms World) : Entry → Prop
  | .cancelThread handle =>
      handle.thread = 0 ∨ (alarms.world.thread handle.thread).id ≠ handle.thrId ∨
        (alarms.world.thread handle.thread).state = .passive ∨
        (alarms.world.thread handle.thread).state = .active
  | _ => True

/-- No alarm that is waited for is disarmed. -/
def Entry.KeepsArmed (alarms : Alarms World) : Entry → Prop
  | .alarmSet id alarm => Oseer.KeepsArmed id alarm alarms
  | _ => True

/-- The conditions under which an entry keeps the invariant. -/
structure Entry.Careful (threshold : Time) (idle : Ptr) (attend : Set Ptr) (lasting : Prop)
    (alarms : Alarms World) (entry : Entry) : Prop where
  valid : entry.Valid idle alarms
  sparesActive : entry.SparesActive alarms
  ownerCalls : entry.OwnerCalls threshold alarms
  ownersLive : entry.OwnersLive lasting alarms
  cancelsOnce : entry.CancelsOnce alarms
  keepsArmed : attend ≠ ∅ → entry.KeepsArmed alarms

end Conditions

section Enter

/-- An entry keeps the invariant; only the caller may wait that did not before. -/
theorem Holds.enter {entry : Entry} (holds : Holds setting (World.clearRecord alarms))
    (isCaller : alarms.world.activeThread = setting.caller)
    (careful : entry.Careful threshold setting.idle setting.attend setting.lasting alarms)
    (enters : World.enter threshold fuel entry alarms = .ok alarms') :
    ∃ live kalarm, Holds { setting.afterWait with live := live, kalarm := kalarm } alarms' := by
  have marked : ∀ id, (World.clearRecord alarms).Marked id ↔ alarms.Marked id := fun _ => .rfl
  have performs : ∀ {prog : Prog World Unit} {P : Alarms World → Prop},
      (∀ call, Nested call → Ensures call P prog fun _ => Holds setting.afterWait) →
      P (World.clearRecord alarms) →
      World.perform threshold fuel prog (World.clearRecord alarms) = .ok alarms' →
      ∃ live kalarm, Holds { setting.afterWait with live := live, kalarm := kalarm } alarms' :=
    fun spec pre result => ⟨setting.live, setting.kalarm, Holds.perform spec pre result⟩
  obtain ⟨valid, sparesActive, ownerCalls, ownersLive, cancelsOnce, keepsArmed⟩ := careful
  cases entry with
  | createThread sched prio stack kthread =>
      exact performs (fun call nested => (sysCreateThread_spec nested sched prio stack
        kthread).mono (fun _ pre => pre) fun _ _ holds => holds.mayWait) holds enters
  | startProgram proc pi stackPool stack kthread prio =>
      obtain ⟨nonzero, loaded, unused⟩ : alarms.world.NewProcess proc pi := valid
      exact performs (fun call nested => (sysStartProgram_spec nested proc pi stackPool stack
        kthread prio).mono (fun _ pre => pre) fun _ _ holds => holds.mayWait)
        ⟨holds, nonzero, loaded, unused⟩ enters
  | threadExit status =>
      have may : MayEnd setting.idle setting.lasting alarms.world.activeThread
          (World.clearRecord alarms) := by
        obtain ⟨members, all, kept, running⟩ := holds
        exact .inr ⟨running.mem_alive, valid, ownersLive⟩
      exact performs (fun call nested => (sysThreadExit_spec nested status).mono (fun _ pre => pre)
        fun _ _ holds => holds.mayWait) ⟨holds, may⟩ enters
  | kthreadCancel kthread status =>
      have may : MayEnd setting.idle setting.lasting kthread (World.clearRecord alarms) := by
        rcases valid with passive | ⟨mem, notIdle⟩
        · exact .inl passive
        · exact .inr ⟨mem, notIdle, ownersLive mem⟩
      exact performs (fun call nested => (kthreadCancel_spec nested kthread status).mono
        (fun _ pre => pre) fun _ _ holds => holds.mayWait) ⟨holds, may⟩ enters
  | cancelThread handle =>
      exact performs (fun call nested => (sysCancelThread_spec handle).mono (fun _ pre => pre)
        fun _ _ holds => holds.mayWait) ⟨holds, cancelsOnce⟩ enters
  | waitForThread handle wait =>
      exact performs (fun call nested => sysWaitForThread_spec nested handle wait)
        ⟨holds, isCaller, valid⟩ enters
  | block queue =>
      obtain ⟨isWait, notJoin, notAlarm, own⟩ := valid
      have waiter : Waiter setting queue (World.clearRecord alarms) := by
        obtain ⟨members, all, kept, running⟩ := holds
        exact ⟨members, all, kept, running, isCaller, isWait,
          fun thread isJoin => absurd isJoin (notJoin thread), own,
          fun id isAlarm => absurd isAlarm (notAlarm id)⟩
      exact performs (fun call nested => blockActive_spec nested queue) waiter enters
  | release queue =>
      exact performs (fun call nested => (releaseOne_spec nested valid).mono (fun _ pre => pre)
        fun _ _ holds => holds.mayWait) holds enters
  | releaseAll queue =>
      exact performs (fun call nested => (releaseAll_spec nested valid).mono (fun _ pre => pre)
        fun _ _ holds => holds.mayWait) holds enters
  | moveWaiting queue monitor =>
      exact performs (fun call nested => (moveWaiting_spec queue monitor).mono (fun _ pre => pre)
        fun _ _ holds => holds.mayWait) holds enters
  | setThreadSchedParams handle policy prio params =>
      exact performs (fun call nested => (sysSetThreadSchedParams_spec nested handle policy prio
        params).mono (fun _ pre => pre) fun _ _ holds => holds.mayWait)
        ⟨holds, fun isValid => ⟨valid isValid, sparesActive isValid⟩⟩ enters
  | setSchedParams policy params =>
      exact performs (fun call nested => (sysSetSchedParams_spec policy params).mono
        (fun _ pre => pre) fun _ _ holds => holds.mayWait) holds enters
  | alarmNew id alarm =>
      obtain ⟨kalarm, after⟩ := holds.kAlarmNew isCaller valid.1 valid.2 ownerCalls enters
      exact ⟨_, kalarm, after⟩
  | alarmSet id alarm =>
      change World.sysAlarmSet threshold fuel id alarm (World.clearRecord alarms) = _ at enters
      unfold World.sysAlarmSet at enters
      split_ifs at enters
      · exact performs (fun call nested => (setErrno_spec _).mono (fun _ pre => pre)
          fun _ _ holds => holds.mayWait) holds enters
      · have armed : id ∈ setting.attend → Oseer.KeepsArmed id alarm (World.clearRecord alarms) :=
          fun mem => keepsArmed (Set.nonempty_of_mem mem).ne_empty
        obtain ⟨kalarm, after⟩ :=
          holds.kAlarmSet isCaller valid ownersLive armed ownerCalls enters
        exact ⟨_, kalarm, after⟩
  | alarmRemove id =>
      change World.sysAlarmRemove threshold fuel id (World.clearRecord alarms) = _ at enters
      unfold World.sysAlarmRemove at enters
      split_ifs at enters
      · exact performs (fun call nested => (setErrno_spec _).mono (fun _ pre => pre)
          fun _ _ holds => holds.mayWait) holds enters
      · obtain ⟨kalarm, after⟩ := holds.kAlarmRemove valid enters
        exact ⟨_, kalarm, after.mayWait⟩
  | waitForAlarm id wait =>
      exact ⟨setting.live, setting.kalarm, holds.sysWaitForAlarm isCaller valid enters⟩
  | timerInterrupt =>
      exact ⟨setting.live, setting.kalarm, (holds.kTimerInterrupt enters).mayWait⟩

theorem Outside.enter {entry : Entry} (outside : Outside idle rr attend timed lasting alarms)
    (careful : entry.Careful threshold idle attend lasting alarms)
    (clean : timed → Clean rr True alarms'.events)
    (enters : World.enter threshold fuel entry alarms = .ok alarms') :
    Outside idle rr attend timed lasting alarms' := by
  obtain ⟨live, holds⟩ := outside
  obtain ⟨live', kalarm, after⟩ := holds.enter rfl careful enters
  refine after.outside trivial trivial fun isTimed => ?_
  exact ⟨isTimed, (clean isTimed).calm⟩

/-- One entry to the kernel that meets a condition. -/
def Step (threshold : Time) (meets : Alarms World → Nat → Entry → Prop)
    (alarms alarms' : Alarms World) : Prop :=
  ∃ fuel entry, meets alarms fuel entry ∧ World.enter threshold fuel entry alarms = .ok alarms'

theorem Step.mono {meets meets' : Alarms World → Nat → Entry → Prop} {first last : Alarms World}
    (weaker : ∀ alarms fuel entry, meets alarms fuel entry → meets' alarms fuel entry)
    (run : Relation.ReflTransGen (Step threshold meets) first last) :
    Relation.ReflTransGen (Step threshold meets') first last := by
  apply Relation.ReflTransGen.mono _ _ _ run
  rintro alarms alarms' ⟨fuel, entry, condition, enters⟩
  exact ⟨fuel, entry, weaker _ _ _ condition, enters⟩

/-- Runs of the kernel keep the invariant. -/
theorem Outside.steps {meets : Alarms World → Nat → Entry → Prop} {first last : Alarms World}
    (outside : Outside idle rr attend timed lasting first)
    (careful : ∀ alarms fuel entry, meets alarms fuel entry →
      entry.Careful threshold idle attend lasting alarms)
    (clean : ∀ alarms fuel entry alarms', meets alarms fuel entry →
      World.enter threshold fuel entry alarms = .ok alarms' → timed → Clean rr True alarms'.events)
    (run : Relation.ReflTransGen (Step threshold meets) first last) :
    Outside idle rr attend timed lasting last := by
  induction run with
  | refl => exact outside
  | tail _ step ih =>
      obtain ⟨fuel, entry, condition, enters⟩ := step
      exact ih.enter (careful _ fuel entry condition)
        (clean _ fuel entry _ condition enters) enters

end Enter

end Oseer
