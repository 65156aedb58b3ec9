import Oseer.Sched
import Oseer.SortedList
import Oseer.Time

/-!
# Alarms

The functions of `kernel/time.c`.  An alarm that expires may run a function of
the kernel, which may set alarms in turn, and the scheduler may do so as well:
`k_alarm_set` is entered again while it fires alarms.  The rest of the kernel
is given here by the operations that the alarm functions use, and a part of it
that may call `k_alarm_set` is a program of such calls.
-/

namespace Oseer

/-- The flag `ALARM_PERIODIC`. -/
def ALARM_PERIODIC : Nat := 4

/-- The flag `IPC_WAIT`. -/
def IPC_WAIT : Nat := 1

/-- The mark of an alarm that exists. -/
def ALARM_MAGIC : Nat := 0xD7422F8

/-- `alarm_t`. -/
structure Alarm where
  expTime : Time
  action : Ptr
  param : Ptr
  flags : Nat
  period : Time
deriving DecidableEq, Repr

/-- `kalarm_t`, apart from its queue and its list header. -/
structure KAlarm where
  alarm : Alarm
  active : Bool
  thread : Ptr
  magic : Nat
deriving DecidableEq, Repr

/-- A part of the kernel that works on the rest `W` of the kernel's memory and may
call `k_alarm_set`. -/
inductive Prog (W α : Type) where
  | done (value : α)
  | work (change : W → Except Fault W) (next : W → Prog W α)
  | alarmSet (id : Ptr) (alarm : Alarm) (next : Prog W α)

/-- The operations of the kernel that the alarm functions use. -/
structure Host (W : Type) where
  /-- `arch_get_time`. -/
  getTime : W → Time × W
  /-- `arch_timer_set`. -/
  timerSet : Time → W → W
  /-- `kthread_create` of a thread that runs the action of an alarm. -/
  createThread : KAlarm → W → Except Fault W
  /-- `kthreadq_init` of the queue of an alarm. -/
  initQueue : Ptr → W → W
  /-- `kthreadq_release_all` of the queue of an alarm. -/
  releaseAll : Ptr → W → Nat × W
  /-- `kthread_enqueue` of a thread in the queue of an alarm. -/
  enqueue : Ptr → Ptr → W → W
  /-- The functions of the kernel that alarms call. -/
  action : Ptr → Ptr → Prog W Unit
  /-- `kthreads_schedule`. -/
  schedule : Prog W Unit
  /-- `SET_ERRNO`. -/
  setErrno : Int → W → W
  /-- `kthread_get_active`. -/
  activeThread : W → Ptr
  /-- `kfree`. -/
  kfree : Ptr → W → W
  /-- The static variable `threshold`. -/
  threshold : Time

/-- The memory that `k_alarm_set` works on. -/
structure AlarmMemory (W : Type) where
  threshold : Time
  kalarms : Lists Unit
  kalarm : Ptr → KAlarm
  world : W

/-- What the alarm functions did, with the memory of the kernel just before. -/
inductive AlarmEvent (W : Type) where
  /-- `k_schedule_alarms` fires an alarm. -/
  | fired (id : Ptr) (kalarm : KAlarm) (world : W)
  /-- `k_alarm_add` calls `kthread_enqueue`. -/
  | enqueued (thread id : Ptr) (world : W)
  /-- `k_alarm_set` is called for an alarm that exists. -/
  | set (id : Ptr) (alarm : Alarm) (memory : AlarmMemory W)

/-- The alarms, their list `kalarms`, the rest of the kernel's memory, and a record
of what was done. -/
structure Alarms (W : Type) where
  kalarms : Lists Unit
  kalarm : Ptr → KAlarm
  world : W
  events : List (AlarmEvent W)

/-- How a nested call of `k_alarm_set` runs. -/
abbrev AlarmCall (W : Type) := Ptr → Alarm → Alarms W → Except Fault (Alarms W)

namespace Prog

variable {W α β : Type}

def bind (first : Prog W α) (second : α → Prog W β) : Prog W β :=
  match first with
  | .done value => second value
  | .work change next => .work change fun world => (next world).bind second
  | .alarmSet id alarm next => .alarmSet id alarm (next.bind second)

instance : Monad (Prog W) where
  pure := done
  bind := bind

/-- Read the memory. -/
def get : Prog W W := .work .ok .done

/-- Change the memory. -/
def modify (change : W → W) : Prog W Unit :=
  .work (fun world => .ok (change world)) fun _ => .done ()

/-- Change the memory, or stop. -/
def attempt (change : W → Except Fault W) : Prog W Unit := .work change fun _ => .done ()

/-- Call `k_alarm_set`. -/
def setAlarm (id : Ptr) (alarm : Alarm) : Prog W Unit := .alarmSet id alarm (.done ())

/-- Run a program. -/
def run (call : AlarmCall W) : Prog W α → Alarms W → Except Fault (α × Alarms W)
  | .done value, alarms => .ok (value, alarms)
  | .work change next, alarms =>
      (change alarms.world).bind fun world =>
        run call (next world) { alarms with world := world }
  | .alarmSet id alarm next, alarms =>
      (call id alarm alarms).bind fun alarms => run call next alarms

end Prog

namespace Alarms

variable {W : Type}

/-- `alarm_cmp`. -/
def alarmCmp (kalarm : Ptr → KAlarm) (a b : Ptr) : Int :=
  Time.timeCmp (kalarm a).alarm.expTime (kalarm b).alarm.expTime

/-- Change one alarm. -/
def setKalarm (id : Ptr) (change : KAlarm → KAlarm) (alarms : Alarms W) : Alarms W :=
  { alarms with kalarm := Function.update alarms.kalarm id (change (alarms.kalarm id)) }

/-- `list_sort_add` of an alarm. -/
def sortAdd (id : Ptr) (alarms : Alarms W) : Alarms W :=
  { alarms with kalarms := alarms.kalarms.listSortAdd () id (alarmCmp alarms.kalarm) }

/-- `list_remove` of an alarm. -/
def listRemove (id : Ptr) (alarms : Alarms W) : Alarms W :=
  { alarms with kalarms := (alarms.kalarms.listRemove () FIRST id).2 }

/-- Change the rest of the kernel's memory. -/
def onWorld (change : W → W) (alarms : Alarms W) : Alarms W :=
  { alarms with world := change alarms.world }

variable (host : Host W) (call : AlarmCall W)

/-- An expired alarm, out of the list, is put back if it is periodic. -/
def rearm (first : Ptr) (alarms : Alarms W) : Alarms W :=
  if (alarms.kalarm first).alarm.flags &&& ALARM_PERIODIC ≠ 0 then
    (alarms.setKalarm first fun kalarm => { kalarm with alarm := { kalarm.alarm with
      expTime := Time.timeAdd kalarm.alarm.expTime kalarm.alarm.period } }).sortAdd first
  else alarms.setKalarm first fun kalarm => { kalarm with active := false }

/-- The action of an expired alarm: the number of threads created for it. -/
def runAction (first : Ptr) (alarms : Alarms W) : Except Fault (Nat × Alarms W) :=
  let kalarm := alarms.kalarm first
  if kalarm.alarm.action ≠ 0 then
    if kalarm.thread ≠ 0 then
      (host.createThread kalarm alarms.world).map fun world =>
        (1, { alarms with world := world })
    else
      ((host.action kalarm.alarm.action kalarm.alarm.param).run call alarms).map fun result =>
        (0, result.2)
  else .ok (0, alarms)

/-- `k_schedule_alarms` takes the alarm `first` out of the list, as the first one, and
puts it back if it is periodic. -/
def takeFirst (first : Ptr) (alarms : Alarms W) : Alarms W :=
  rearm first { alarms with
    kalarms := (alarms.kalarms.listRemove () FIRST 0).2
    events := .fired first (alarms.kalarm first) alarms.world :: alarms.events }

/-- What `k_schedule_alarms` does with the first alarm of the list when it has
expired: the number of threads made ready. -/
def fire (alarms : Alarms W) : Except Fault (Nat × Alarms W) :=
  let first := (alarms.kalarms.listRemove () FIRST 0).1
  ((alarms.takeFirst first).runAction host call first).map fun result =>
    let released := host.releaseAll first result.2.world
    (result.1 + released.1, { result.2 with world := released.2 })

/-- The loop of `k_schedule_alarms`, for at most `fuel` rounds. -/
def fireLoop (refTime : Time) : Nat → Nat → Alarms W → Except Fault (Nat × Alarms W)
  | 0, _, _ => .error .endless
  | fuel + 1, count, alarms =>
      let first := alarms.kalarms.listGet () FIRST
      if first ≠ 0 ∧ Time.timeCmp (alarms.kalarm first).alarm.expTime refTime ≤ 0 then
        (alarms.fire host call).bind fun result =>
          fireLoop refTime fuel (count + result.1) result.2
      else .ok (count, alarms)

/-- The end of `k_schedule_alarms`: the timer is set for the first alarm. -/
def setTimer (time : Time) (alarms : Alarms W) : Alarms W :=
  let first := alarms.kalarms.listGet () FIRST
  if first ≠ 0 then
    alarms.onWorld (host.timerSet (Time.timeSub (alarms.kalarm first).alarm.expTime time))
  else alarms

/-- `k_schedule_alarms`. -/
def kScheduleAlarms (fuel : Nat) (alarms : Alarms W) : Except Fault (Nat × Alarms W) :=
  let reading := host.getTime alarms.world
  let refTime := Time.timeAdd reading.1 host.threshold
  (({ alarms with world := reading.2 } : Alarms W).fireLoop host call refTime fuel 0).map
    fun result => (result.1, result.2.setTimer host reading.1)

/-- The first part of `k_alarm_add`: an alarm with an expiration time enters the
list. -/
def activate (id : Ptr) (alarms : Alarms W) : Alarms W :=
  let expTime := (alarms.kalarm id).alarm.expTime
  if 0 < expTime.sec + expTime.nsec then
    (alarms.setKalarm id fun kalarm => { kalarm with active := true }).sortAdd id
  else alarms.setKalarm id fun kalarm => { kalarm with active := false }

/-- The test in `k_alarm_add` whether the owner of the alarm is to wait for it. -/
def Waits (kalarm : KAlarm) : Prop :=
  kalarm.thread ≠ 0 ∧ kalarm.active = true ∧ kalarm.alarm.flags &&& IPC_WAIT ≠ 0

instance (kalarm : KAlarm) : Decidable (Waits kalarm) := inferInstanceAs (Decidable (_ ∧ _))

/-- `kthread_enqueue` in `k_alarm_add`. -/
def block (id : Ptr) (alarms : Alarms W) : Alarms W :=
  let thread := (alarms.kalarm id).thread
  { alarms with
    world := host.enqueue thread id alarms.world
    events := .enqueued thread id alarms.world :: alarms.events }

/-- `kthreads_schedule`, if it is asked for. -/
def scheduleIf (reschedule : Prop) [Decidable reschedule] (alarms : Alarms W) :
    Except Fault (Alarms W) :=
  if reschedule then (host.schedule.run call alarms).map Prod.snd else .ok alarms

/-- The end of `k_alarm_add`: the owner of the alarm blocks, if it is to wait. -/
def finishAdd (id : Ptr) (reschedule : Nat) (alarms : Alarms W) : Except Fault (Alarms W) :=
  let alarms := alarms.onWorld (host.setErrno 0)
  if Waits (alarms.kalarm id) then (alarms.block host id).scheduleIf host call True
  else alarms.scheduleIf host call (reschedule ≠ 0)

/-- `k_alarm_add`. -/
def kAlarmAdd (fuel : Nat) (id : Ptr) (alarms : Alarms W) : Except Fault (Alarms W) :=
  ((alarms.activate id).kScheduleAlarms host call fuel).bind fun result =>
    result.2.finishAdd host call id result.1

/-- A call of `k_alarm_set` is recorded. -/
def noteSet (id : Ptr) (alarm : Alarm) (alarms : Alarms W) : Alarms W :=
  { alarms with
    events := .set id alarm ⟨host.threshold, alarms.kalarms, alarms.kalarm, alarms.world⟩ ::
      alarms.events }

/-- The stores of `k_alarm_set` before the expiration time. -/
def storeAlarm (id : Ptr) (alarm : Alarm) (alarms : Alarms W) : Alarms W :=
  alarms.setKalarm id fun kalarm => { kalarm with alarm := { kalarm.alarm with
    action := alarm.action
    param := alarm.param
    flags := alarm.flags
    period := alarm.period } }

/-- The part of `k_alarm_set` that takes the alarm out of the list and gives it its
new expiration time. -/
def changeTime (id : Ptr) (expTime : Time) (alarms : Alarms W) : Alarms W :=
  let alarms := if (alarms.kalarm id).active then alarms.listRemove id else alarms
  alarms.setKalarm id fun kalarm =>
    { kalarm with alarm := { kalarm.alarm with expTime := expTime } }

/-- `k_alarm_set`, with at most `fuel` nested calls. -/
def kAlarmSet (host : Host W) : Nat → AlarmCall W
  | 0, _, _, _ => .error .endless
  | fuel + 1, id, alarm, alarms =>
      if id = 0 ∨ (alarms.kalarm id).magic ≠ ALARM_MAGIC then .error .noAlarm
      else
        let alarms := ((alarms.noteSet host id alarm).storeAlarm id alarm).onWorld
          (host.setErrno 0)
        if Time.timeCmp (alarms.kalarm id).alarm.expTime alarm.expTime ≠ 0 then
          (alarms.changeTime id alarm.expTime).kAlarmAdd host (kAlarmSet host fuel) fuel id
        else .ok alarms

/-- `k_alarm_new` at the address `id`; `thread` is the owner, or null for the
kernel. -/
def kAlarmNew (fuel : Nat) (id : Ptr) (alarm : Alarm) (syscall : Bool) (alarms : Alarms W) :
    Except Fault (Alarms W) :=
  if id = 0 then .error .noMemory
  else
    let thread := if syscall then host.activeThread alarms.world else 0
    let alarms := alarms.setKalarm id fun kalarm =>
      { kalarm with alarm := alarm, magic := ALARM_MAGIC, thread := thread }
    (alarms.onWorld (host.initQueue id)).kAlarmAdd host (kAlarmSet host fuel) fuel id

/-- The part of `k_alarm_remove` that ends the alarm: the number of threads made
ready. -/
def discard (id : Ptr) (alarms : Alarms W) : Nat × Alarms W :=
  let alarms := if (alarms.kalarm id).active then alarms.listRemove id else alarms
  let alarms := alarms.setKalarm id fun kalarm => { kalarm with magic := 0 }
  let alarms := alarms.onWorld (host.setErrno 0)
  let released := host.releaseAll id alarms.world
  (released.1, { alarms with world := host.kfree id released.2 })

/-- `k_alarm_remove`. -/
def kAlarmRemove (fuel : Nat) (id : Ptr) (alarms : Alarms W) : Except Fault (Alarms W) :=
  if id = 0 ∨ (alarms.kalarm id).magic ≠ ALARM_MAGIC then .error .noAlarm
  else
    let discarded := alarms.discard host id
    (discarded.2.kScheduleAlarms host (kAlarmSet host fuel) fuel).bind fun result =>
      result.2.scheduleIf host (kAlarmSet host fuel) (discarded.1 + result.1 ≠ 0)

/-- `k_timer_interrupt`. -/
def kTimerInterrupt (fuel : Nat) (alarms : Alarms W) : Except Fault (Alarms W) :=
  (alarms.kScheduleAlarms host (kAlarmSet host fuel) fuel).bind fun result =>
    result.2.scheduleIf host (kAlarmSet host fuel) (result.1 ≠ 0)

/-- `k_time_init`, as far as the alarms go. -/
def kTimeInit (alarms : Alarms W) : Alarms W :=
  { alarms with kalarms := alarms.kalarms.listInit () }

end Alarms

end Oseer
