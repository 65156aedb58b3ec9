import Oseer.AlarmList
import Oseer.ProgramRules

/-!
# What the alarm functions change

Where no alarm has an owner, none creates a thread when it expires.  If then all the
operations of the kernel that the alarm functions use change the memory within a relation,
so do the alarm functions, however deep the calls of `k_alarm_set` are nested.
-/

namespace Oseer

open Results

variable {W α β : Type} {R : W → W → Prop}

namespace Prog

/-- Each change of the memory in the program is within the relation. -/
def Within (R : W → W → Prop) : Prog W α → Prop
  | .done _ => True
  | .work change next =>
      ∀ world world', change world = .ok world' → R world world' ∧ (next world').Within R
  | .alarmSet _ _ next => next.Within R

theorem Within.bind {first : Prog W α} {second : α → Prog W β} (before : first.Within R)
    (after : ∀ value, (second value).Within R) : (first >>= second).Within R := by
  change (first.bind second).Within R
  induction first with
  | done value => exact after value
  | work change next ih =>
      intro world world' changed
      obtain ⟨within, rest⟩ := before world world' changed
      exact ⟨within, ih world' rest⟩
  | alarmSet id alarm next ih => exact ih before

theorem Within.read (refl : ∀ world, R world world) : (Prog.get : Prog W W).Within R := by
  intro world world' result
  obtain rfl := Except.ok.inj result
  exact ⟨refl world, trivial⟩

theorem Within.modify {change : W → W} (within : ∀ world, R world (change world)) :
    (Prog.modify change).Within R := by
  intro world world' result
  obtain rfl := Except.ok.inj result
  exact ⟨within world, trivial⟩

theorem Within.attempt {change : W → Except Fault W}
    (within : ∀ world world', change world = .ok world' → R world world') :
    (Prog.attempt change).Within R :=
  fun world world' changed => ⟨within world world' changed, trivial⟩

theorem Within.always (prog : Prog W α) : prog.Within fun _ _ => True := by
  induction prog with
  | done value => trivial
  | work change next ih => exact fun _ world' _ => ⟨trivial, ih world'⟩
  | alarmSet id alarm next ih => exact ih

theorem Within.ite {condition : Prop} [Decidable condition] {yes no : Prog W α}
    (whenTrue : yes.Within R) (whenFalse : no.Within R) :
    (if condition then yes else no).Within R := by
  split
  · exact whenTrue
  · exact whenFalse

end Prog

/-- The operations that alarms without owners use are within the relation. -/
structure Host.Within (host : Host W) (R : W → W → Prop) : Prop where
  refl : ∀ world, R world world
  trans : ∀ first second third, R first second → R second third → R first third
  getTime : ∀ world, R world (host.getTime world).2
  timerSet : ∀ delay world, R world (host.timerSet delay world)
  releaseAll : ∀ id world, R world (host.releaseAll id world).2
  enqueue : ∀ thread id world, R world (host.enqueue thread id world)
  setErrno : ∀ errnum world, R world (host.setErrno errnum world)
  action : ∀ action param, (host.action action param).Within R
  schedule : host.schedule.Within R

theorem Host.Within.always (host : Host W) : host.Within fun _ _ => True where
  refl := fun _ => trivial
  trans := fun _ _ _ _ _ => trivial
  getTime := fun _ => trivial
  timerSet := fun _ _ => trivial
  releaseAll := fun _ _ => trivial
  enqueue := fun _ _ _ => trivial
  setErrno := fun _ _ => trivial
  action := fun _ _ => .always _
  schedule := .always _

namespace Alarms

/-- No alarm has an owner. -/
def Ownerless (alarms : Alarms W) : Prop := ∀ id, (alarms.kalarm id).thread = 0

/-- A nested call is within the relation. -/
def CallWithin (R : W → W → Prop) (call : AlarmCall W) : Prop :=
  ∀ id alarm alarms alarms', alarms.Ownerless → call id alarm alarms = .ok alarms' →
    alarms'.Ownerless ∧ R alarms.world alarms'.world

variable {host : Host W} {call : AlarmCall W} {alarms alarms' : Alarms W} {id first : Ptr}
  {refTime : Time} {fuel count : Nat} {result : Nat × Alarms W}

theorem Ownerless.setKalarm (ownerless : alarms.Ownerless) {change : KAlarm → KAlarm}
    (same : (change (alarms.kalarm id)).thread = (alarms.kalarm id).thread) :
    (alarms.setKalarm id change).Ownerless :=
  fun other => (setKalarm_field KAlarm.thread same other).trans (ownerless other)

theorem Ownerless.sortAdd (ownerless : alarms.Ownerless) : (alarms.sortAdd id).Ownerless :=
  ownerless

theorem Ownerless.onWorld (ownerless : alarms.Ownerless) {change : W → W} :
    (alarms.onWorld change).Ownerless :=
  ownerless

theorem Ownerless.takeFirst (ownerless : alarms.Ownerless) (first : Ptr) :
    (alarms.takeFirst first).Ownerless ∧ (alarms.takeFirst first).world = alarms.world := by
  have taken : ({ alarms with
      kalarms := (alarms.kalarms.listRemove () FIRST 0).2
      events := .fired first (alarms.kalarm first) alarms.world :: alarms.events } :
        Alarms W).Ownerless := ownerless
  unfold Alarms.takeFirst rearm
  split_ifs
  · exact ⟨Ownerless.sortAdd (taken.setKalarm rfl), rfl⟩
  · exact ⟨taken.setKalarm rfl, rfl⟩

theorem Ownerless.activate (ownerless : alarms.Ownerless) (id : Ptr) :
    (alarms.activate id).Ownerless ∧ (alarms.activate id).world = alarms.world := by
  unfold Alarms.activate
  dsimp only
  split_ifs
  · exact ⟨Ownerless.sortAdd (ownerless.setKalarm rfl), rfl⟩
  · exact ⟨ownerless.setKalarm rfl, rfl⟩

theorem Ownerless.changeTime (ownerless : alarms.Ownerless) (id : Ptr) (expTime : Time) :
    (alarms.changeTime id expTime).Ownerless ∧
      (alarms.changeTime id expTime).world = alarms.world := by
  unfold Alarms.changeTime
  dsimp only
  split_ifs
  · have removed : (alarms.listRemove id).Ownerless := ownerless
    exact ⟨removed.setKalarm rfl, rfl⟩
  · exact ⟨ownerless.setKalarm rfl, rfl⟩

end Alarms

namespace Host.Within

open Alarms

variable {host : Host W} {call : AlarmCall W} {alarms alarms' : Alarms W} {id first : Ptr}
  {refTime : Time} {fuel count : Nat} {result : Nat × Alarms W}

/-- A program changes the memory itself, and through its calls. -/
theorem run {prog : Prog W α} {ran : α × Alarms W} (within : host.Within R)
    (calls : CallWithin R call) (program : prog.Within R) (ownerless : alarms.Ownerless)
    (runs : prog.run call alarms = .ok ran) :
    ran.2.Ownerless ∧ R alarms.world ran.2.world := by
  induction prog generalizing alarms with
  | done value =>
      obtain rfl := Except.ok.inj runs
      exact ⟨ownerless, within.refl _⟩
  | work change next ih =>
      obtain ⟨world, changed, runs⟩ := bind_ok runs
      obtain ⟨changes, rest⟩ := program _ _ changed
      have unowned : ({ alarms with world := world } : Alarms W).Ownerless := ownerless
      obtain ⟨after, changes'⟩ := ih world rest unowned runs
      exact ⟨after, within.trans _ _ _ changes changes'⟩
  | alarmSet id alarm next ih =>
      obtain ⟨middle, called, runs⟩ := bind_ok runs
      obtain ⟨unowned, changes⟩ := calls id alarm alarms middle ownerless called
      obtain ⟨after, changes'⟩ := ih program unowned runs
      exact ⟨after, within.trans _ _ _ changes changes'⟩

theorem runAction (within : host.Within R) (calls : CallWithin R call)
    (ownerless : alarms.Ownerless) (runs : alarms.runAction host call first = .ok result) :
    result.2.Ownerless ∧ R alarms.world result.2.world := by
  unfold Alarms.runAction at runs
  dsimp only at runs
  rw [if_neg (not_not.mpr (ownerless first))] at runs
  split_ifs at runs
  · obtain ⟨ran, ranOk, rfl⟩ := map_ok runs
    have acted := within.run calls (within.action _ _) ownerless ranOk
    exact acted
  · obtain rfl := Except.ok.inj runs
    exact ⟨ownerless, within.refl _⟩

theorem fire (within : host.Within R) (calls : CallWithin R call) (ownerless : alarms.Ownerless)
    (fires : alarms.fire host call = .ok result) :
    result.2.Ownerless ∧ R alarms.world result.2.world := by
  obtain ⟨acted, runs, rfl⟩ := map_ok fires
  obtain ⟨unowned, same⟩ := ownerless.takeFirst (alarms.kalarms.listRemove () FIRST 0).1
  obtain ⟨after, changes⟩ := within.runAction calls unowned runs
  rw [same] at changes
  exact ⟨after, within.trans _ _ _ changes (within.releaseAll _ _)⟩

theorem fireLoop (within : host.Within R) (calls : CallWithin R call)
    (ownerless : alarms.Ownerless)
    (loops : alarms.fireLoop host call refTime fuel count = .ok result) :
    result.2.Ownerless ∧ R alarms.world result.2.world := by
  induction fuel generalizing alarms count with
  | zero => cases loops
  | succ fuel ih =>
      unfold Alarms.fireLoop at loops
      dsimp only at loops
      split_ifs at loops
      · obtain ⟨fired, fires, loops⟩ := bind_ok loops
        obtain ⟨unowned, changes⟩ := within.fire calls ownerless fires
        obtain ⟨after, changes'⟩ := ih unowned loops
        exact ⟨after, within.trans _ _ _ changes changes'⟩
      · obtain rfl := Except.ok.inj loops
        exact ⟨ownerless, within.refl _⟩

theorem kScheduleAlarms (within : host.Within R) (calls : CallWithin R call)
    (ownerless : alarms.Ownerless) (runs : alarms.kScheduleAlarms host call fuel = .ok result) :
    result.2.Ownerless ∧ R alarms.world result.2.world := by
  obtain ⟨looped, loops, rfl⟩ := map_ok runs
  have reads : R alarms.world (host.getTime alarms.world).2 := within.getTime alarms.world
  have unowned : ({ alarms with world := (host.getTime alarms.world).2 } : Alarms W).Ownerless :=
    ownerless
  obtain ⟨after, changes⟩ := within.fireLoop calls unowned loops
  have reached := within.trans _ _ _ reads changes
  unfold setTimer
  dsimp only
  split_ifs
  · exact ⟨after, within.trans _ _ _ reached (within.timerSet _ _)⟩
  · exact ⟨after, reached⟩

theorem scheduleIf {asked : Prop} [Decidable asked] (within : host.Within R)
    (calls : CallWithin R call) (ownerless : alarms.Ownerless)
    (runs : alarms.scheduleIf host call asked = .ok alarms') :
    alarms'.Ownerless ∧ R alarms.world alarms'.world := by
  unfold Alarms.scheduleIf at runs
  split_ifs at runs
  · obtain ⟨ran, ranOk, rfl⟩ := map_ok runs
    exact within.run calls within.schedule ownerless ranOk
  · obtain rfl := Except.ok.inj runs
    exact ⟨ownerless, within.refl _⟩

theorem finishAdd {reschedule : Nat} (within : host.Within R) (calls : CallWithin R call)
    (ownerless : alarms.Ownerless)
    (finishes : alarms.finishAdd host call id reschedule = .ok alarms') :
    alarms'.Ownerless ∧ R alarms.world alarms'.world := by
  have notes : R alarms.world (alarms.onWorld (host.setErrno 0)).world := within.setErrno _ _
  have unowned : (alarms.onWorld (host.setErrno 0)).Ownerless := ownerless
  unfold Alarms.finishAdd at finishes
  dsimp only at finishes
  split_ifs at finishes with waits
  · exact absurd (unowned id) waits.1
  · obtain ⟨after, changes⟩ := within.scheduleIf calls unowned finishes
    exact ⟨after, within.trans _ _ _ notes changes⟩

/-- `k_alarm_set` is within the relation. -/
theorem kAlarmSet (within : host.Within R) (fuel : Nat) :
    CallWithin R (Alarms.kAlarmSet host fuel) := by
  induction fuel with
  | zero =>
      intro id alarm alarms alarms' _ called
      cases called
  | succ fuel ih =>
      intro id alarm alarms alarms' ownerless called
      unfold Alarms.kAlarmSet at called
      split_ifs at called
      dsimp only at called
      have unowned : (((alarms.noteSet host id alarm).storeAlarm id alarm).onWorld
          (host.setErrno 0)).Ownerless := by
        have noted : (alarms.noteSet host id alarm).Ownerless := ownerless
        exact Ownerless.onWorld (noted.setKalarm rfl)
      have notes : R alarms.world (((alarms.noteSet host id alarm).storeAlarm id alarm).onWorld
          (host.setErrno 0)).world := within.setErrno _ _
      split_ifs at called
      · obtain ⟨scheduled, ran, finished⟩ := bind_ok called
        obtain ⟨changed, sameChanged⟩ := unowned.changeTime id alarm.expTime
        obtain ⟨active, sameActive⟩ := changed.activate id
        obtain ⟨fired, fires⟩ := within.kScheduleAlarms ih active ran
        rw [sameActive, sameChanged] at fires
        obtain ⟨after, finishes⟩ := within.finishAdd ih fired finished
        exact ⟨after, within.trans _ _ _ notes (within.trans _ _ _ fires finishes)⟩
      · obtain rfl := Except.ok.inj called
        exact ⟨unowned, notes⟩

theorem kTimerInterrupt (within : host.Within R) (ownerless : alarms.Ownerless)
    (interrupts : alarms.kTimerInterrupt host fuel = .ok alarms') :
    alarms'.Ownerless ∧ R alarms.world alarms'.world := by
  obtain ⟨fired, ran, finished⟩ := bind_ok interrupts
  obtain ⟨unowned, fires⟩ := within.kScheduleAlarms (within.kAlarmSet fuel) ownerless ran
  obtain ⟨after, changes⟩ := within.scheduleIf (within.kAlarmSet fuel) unowned finished
  exact ⟨after, within.trans _ _ _ fires changes⟩

end Host.Within

end Oseer
