import Oseer.ArchTimer

/-!
# System time

The timer together with its counter.  The counter is loaded by `set_interval`,
reports what remains of its interval, and when it expires it starts its
interval again and raises an interrupt.  The kernel runs with interrupts
disabled, so that the interrupt may be handled later; between the two, the
clock does not know of the interval that has passed.
-/

namespace Oseer

open Time

/-- The timer and its counter; `pending` is an interrupt that is not handled yet. -/
structure Machine where
  timer : ArchTimer
  remainder : Time
  pending : Bool
deriving DecidableEq, Repr

namespace Machine

/-- What happens to the counter, and the calls of the kernel. -/
inductive Event
  /-- The counter counts down to `remainder`. -/
  | tick (remainder : Time)
  /-- The counter expires. -/
  | expire
  /-- The interrupt is handled. -/
  | handler
  | set (time : Time) (alarmFunc : Ptr)
  | get
deriving DecidableEq, Repr

/-- A call that loads the counter. -/
def loads (timer : Option ArchTimer) (pending : Bool) : Option (Machine × List Time) :=
  timer.map fun timer => (⟨timer, timer.loaded, pending⟩, [])

/-- One event, with the time that `arch_get_time` returns. -/
def step : Event → Machine → Option (Machine × List Time)
  | .tick remainder, machine =>
      if remainder.sec = 0 ∧ 0 ≤ remainder.nsec ∧ remainder.nsec ≤ machine.remainder.nsec then
        some ({ machine with remainder := remainder }, [])
      else none
  | .expire, machine =>
      some ({ machine with remainder := machine.timer.loaded, pending := true }, [])
  | .handler, machine =>
      if machine.pending then loads (machine.timer.archTimerHandler.map Prod.snd) false
      else none
  | .set time alarmFunc, machine =>
      loads (machine.timer.archTimerSet time alarmFunc machine.remainder) machine.pending
  | .get, machine => some (machine, [machine.timer.archGetTime machine.remainder])

/-- A sequence of events, with all times that are returned. -/
def run : List Event → Machine → Option (Machine × List Time)
  | [], machine => some (machine, [])
  | first :: rest, machine =>
      (machine.step first).bind fun result =>
        (run rest result.1).map fun results => (results.1, result.2 ++ results.2)

/-- After `arch_timer_init`. -/
def start (timer : ArchTimer) : Option Machine :=
  timer.archTimerInit.map fun timer => ⟨timer, timer.loaded, false⟩

/-- The calls that read the counter. -/
def Event.reads : Event → Bool
  | .get => true
  | .set _ _ => true
  | _ => false

/-- No time is read, and no delay is set, while an interrupt is pending. -/
def handled : List Event → Machine → Bool
  | [], _ => true
  | first :: rest, machine =>
      !(machine.pending && first.reads) &&
        match machine.step first with
        | some result => handled rest result.1
        | none => true

/-- Times that do not decrease. -/
def Increasing (times : List Time) : Prop :=
  times.IsChain fun first second => timeCmp first second ≤ 0

/-- The form of the times that `time_add` makes: a full second may be written as
nanoseconds, but then it always is. -/
structure Written (time : Time) : Prop where
  sec : 0 ≤ time.sec
  nsec : time.sec = 0 ∧ time.nsec = 0 ∨ 0 < time.nsec ∧ time.nsec ≤ N1E9

/-- Below one second, and not negative. -/
structure Small (time : Time) : Prop where
  sec : time.sec = 0
  nonneg : 0 ≤ time.nsec
  below : time.nsec < N1E9

/-- The invariant, for the time that was read last. -/
structure Ticking (machine : Machine) (last : Time) : Prop where
  ranged : ArchTimer.Ranged machine.timer
  loaded : machine.timer.loaded = machine.timer.lastLoad
  lastLoad : Small machine.timer.lastLoad
  remainder : Small machine.remainder
  less : machine.remainder.nsec ≤ machine.timer.lastLoad.nsec
  clockWritten : Written machine.timer.clock
  lastWritten : Written last
  passed : last.value ≤ machine.timer.clock.value + machine.timer.lastLoad.nsec
  known : machine.pending = false → last.value ≤
    machine.timer.clock.value + (machine.timer.lastLoad.nsec - machine.remainder.nsec)

variable {machine machine' : Machine} {timer timer' : ArchTimer} {time last : Time}
  {alarmFunc : Ptr}

theorem Written.timeCmp_le {other : Time} (written : Written time) (written' : Written other) :
    timeCmp time other ≤ 0 ↔ time.value ≤ other.value := by
  have nonneg := written.sec
  have form := written.nsec
  have nonneg' := written'.sec
  have form' := written'.nsec
  rw [timeCmp_le_zero]
  unfold value
  simp only [N1E9] at *
  omega

theorem Written.add {small : Time} (written : Written time) (isSmall : Small small) :
    Written (timeAdd small time) ∧ Written (timeAdd time small) := by
  have nonneg := written.sec
  have form := written.nsec
  have sec := isSmall.sec
  have least := isSmall.nonneg
  have below := isSmall.below
  unfold timeAdd
  constructor <;> split_ifs <;> constructor <;> simp only [N1E9] at * <;> omega

theorem Small.sub {small : Time} (isSmall : Small time) (isSmall' : Small small)
    (less : small.nsec ≤ time.nsec) :
    Small (timeSub time small) ∧ (timeSub time small).nsec = time.nsec - small.nsec := by
  have sec := isSmall.sec
  have below := isSmall.below
  have sec' := isSmall'.sec
  have least := isSmall'.nonneg
  unfold timeSub
  rw [if_pos less]
  exact ⟨⟨by simp only; omega, by simp only; omega, by simp only; omega⟩, rfl⟩

theorem Small.value (isSmall : Small time) : time.value = time.nsec := by
  unfold Time.value
  rw [isSmall.sec, Int.zero_mul, Int.zero_add]

theorem small_of_accepts (ranged : ArchTimer.Ranged timer) (accepts : timer.Accepts time) :
    Small time := by
  obtain ⟨sec, most, least⟩ := accepts
  have nonneg := ranged.minNsec
  have below := ranged.maxNsec
  exact ⟨sec, by omega, by omega⟩

theorem setInterval_some (result : timer.setInterval time = some timer') :
    timer.Accepts time ∧ timer' = { timer with loaded := time } := by
  unfold ArchTimer.setInterval at result
  split_ifs at result with accepts
  exact ⟨accepts, (Option.some.inj result).symm⟩

/-- A call that loads the counter starts an interval at the time that the clock
has been set to. -/
theorem Ticking.loads (ranged : ArchTimer.Ranged timer)
    (result : timer.setInterval timer.lastLoad = some timer') (clock : Written timer.clock)
    (isLast : Written last) (passed : last.value ≤ timer.clock.value) (pending : Bool) :
    Ticking ⟨timer', timer'.loaded, pending⟩ last := by
  obtain ⟨accepts, rfl⟩ := setInterval_some result
  have isSmall := small_of_accepts ranged accepts
  have nonneg := isSmall.nonneg
  refine ⟨⟨ranged.minSec, ranged.maxSec, ranged.minNsec, ranged.less, ranged.maxNsec⟩, rfl,
    isSmall, isSmall, le_rfl, clock, isLast, ?_, fun _ => ?_⟩
  · change last.value ≤ timer.clock.value + timer.lastLoad.nsec
    omega
  · change last.value ≤ timer.clock.value + (timer.lastLoad.nsec - timer.lastLoad.nsec)
    omega

theorem archTimerHandler_some (result : timer.archTimerHandler.map Prod.snd = some timer') :
    ∃ loading : ArchTimer, loading.setInterval loading.lastLoad = some timer' ∧
      loading.clock = timeAdd timer.clock timer.lastLoad ∧
      loading.minInterval = timer.minInterval ∧ loading.maxInterval = timer.maxInterval := by
  unfold ArchTimer.archTimerHandler at result
  dsimp only at result
  split_ifs at result
  all_goals
    rw [Option.map_map] at result
    refine ⟨_, (Option.map_id' ..).symm.trans result, rfl, rfl, rfl⟩

theorem ranged_same {loading : ArchTimer} (ranged : ArchTimer.Ranged timer)
    (minInterval : loading.minInterval = timer.minInterval)
    (maxInterval : loading.maxInterval = timer.maxInterval) : ArchTimer.Ranged loading := by
  constructor
  · rw [minInterval]; exact ranged.minSec
  · rw [maxInterval]; exact ranged.maxSec
  · rw [minInterval]; exact ranged.minNsec
  · rw [minInterval, maxInterval]; exact ranged.less
  · rw [maxInterval]; exact ranged.maxNsec

theorem Ticking.read (ticking : Ticking machine last) :
    Written (machine.timer.archGetTime machine.remainder) ∧
      (machine.timer.archGetTime machine.remainder).value = machine.timer.clock.value +
        (machine.timer.lastLoad.nsec - machine.remainder.nsec) := by
  obtain ⟨isSmall, nsec⟩ := ticking.lastLoad.sub ticking.remainder ticking.less
  unfold ArchTimer.archGetTime
  refine ⟨(ticking.clockWritten.add isSmall).1, ?_⟩
  rw [timeAdd_value, isSmall.value, nsec]
  omega

/-- One event: the times that it returns are not before the last one. -/
theorem Ticking.step (ticking : Ticking machine last) {event : Event} {times : List Time}
    (handled : (machine.pending && event.reads) = false)
    (result : machine.step event = some (machine', times)) :
    Ticking machine' ((last :: times).getLast (by simp)) ∧ Increasing (last :: times) := by
  have ranged := ticking.ranged
  have single : Increasing [last] := List.isChain_singleton _
  cases event with
  | tick remainder =>
      simp only [Machine.step] at result
      split_ifs at result with less
      obtain ⟨rfl, rfl⟩ := Prod.mk.inj (Option.some.inj result)
      obtain ⟨sec, nonneg, less⟩ := less
      have below := ticking.remainder.below
      have lessLoad := ticking.less
      refine ⟨{ ticking with remainder := ⟨sec, nonneg, less.trans_lt below⟩, less := ?_, known := ?_ },
        single⟩
      · exact less.trans lessLoad
      · intro notPending
        have known := ticking.known notPending
        change last.value ≤ machine.timer.clock.value +
          (machine.timer.lastLoad.nsec - remainder.nsec)
        omega
  | expire =>
      obtain ⟨rfl, rfl⟩ := Prod.mk.inj (Option.some.inj result)
      refine ⟨{ ticking with remainder := ?_, less := ?_, known := ?_ }, single⟩
      · exact ticking.loaded ▸ ticking.lastLoad
      · exact (congrArg Time.nsec ticking.loaded).le
      · exact fun notPending => absurd notPending (by simp)
  | handler =>
      simp only [Machine.step] at result
      split_ifs at result
      unfold Machine.loads at result
      obtain ⟨timer', handledBy, isResult⟩ := Option.map_eq_some_iff.mp result
      obtain ⟨rfl, rfl⟩ := Prod.mk.inj isResult
      obtain ⟨loading, loaded, clock, sameMin, sameMax⟩ := archTimerHandler_some handledBy
      refine ⟨Ticking.loads (ranged_same ranged sameMin sameMax) loaded ?_
        ticking.lastWritten ?_ false, single⟩
      · exact clock ▸ (ticking.clockWritten.add ticking.lastLoad).2
      · rw [clock, timeAdd_value, ticking.lastLoad.value]
        exact ticking.passed
  | set time alarmFunc =>
      have notPending : machine.pending = false := by simpa [Event.reads] using handled
      simp only [Machine.step, Machine.loads] at result
      obtain ⟨timer', set, isResult⟩ := Option.map_eq_some_iff.mp result
      obtain ⟨rfl, rfl⟩ := Prod.mk.inj isResult
      obtain ⟨isSmall, nsec⟩ := ticking.lastLoad.sub ticking.remainder ticking.less
      refine ⟨Ticking.loads ?_ set ?_ ticking.lastWritten ?_ machine.pending, single⟩
      · exact ranged_same ranged rfl rfl
      · exact (ticking.clockWritten.add isSmall).2
      · change last.value ≤ (timeAdd machine.timer.clock
          (timeSub machine.timer.lastLoad machine.remainder)).value
        rw [timeAdd_value, isSmall.value, nsec]
        exact ticking.known notPending
  | get =>
      have notPending : machine.pending = false := by simpa [Event.reads] using handled
      obtain ⟨rfl, rfl⟩ := Prod.mk.inj (Option.some.inj result)
      obtain ⟨written, value⟩ := ticking.read
      have remainderNonneg := ticking.remainder.nonneg
      refine ⟨{ ticking with lastWritten := written, passed := ?_, known := fun _ => ?_ }, ?_⟩
      · change (machine.timer.archGetTime machine.remainder).value ≤ _
        omega
      · change (machine.timer.archGetTime machine.remainder).value ≤ _
        omega
      · unfold Increasing
        rw [List.isChain_pair, ticking.lastWritten.timeCmp_le written, value]
        exact ticking.known notPending

theorem Increasing.join {first : Time} {times more : List Time}
    (increasing : Increasing (first :: times))
    (next : Increasing ((first :: times).getLast (by simp) :: more)) :
    Increasing (first :: (times ++ more)) := by
  unfold Increasing at *
  induction times generalizing first with
  | nil => exact next
  | cons second times ih =>
      rw [List.isChain_cons_cons] at increasing
      rw [List.cons_append, List.isChain_cons_cons]
      exact ⟨increasing.1, ih increasing.2 next⟩

/-- A sequence of events: the times that it returns do not decrease. -/
theorem Ticking.run (ticking : Ticking machine last) {events : List Event} {times : List Time}
    (handled : machine.handled events = true)
    (result : machine.run events = some (machine', times)) : Increasing (last :: times) := by
  induction events generalizing machine last times with
  | nil =>
      obtain ⟨-, rfl⟩ := Prod.mk.inj (Option.some.inj result)
      exact List.isChain_singleton _
  | cons first rest ih =>
      simp only [Machine.handled, Bool.and_eq_true, Bool.not_eq_true'] at handled
      obtain ⟨now, later⟩ := handled
      obtain ⟨⟨middle, returned⟩, stepped, continued⟩ := Option.bind_eq_some_iff.mp result
      obtain ⟨⟨final, more⟩, ran, isResult⟩ := Option.map_eq_some_iff.mp continued
      obtain ⟨rfl, rfl⟩ := Prod.mk.inj isResult
      obtain ⟨ticking', increasing⟩ := ticking.step now stepped
      rw [stepped] at later
      exact increasing.join (ih ticking' later ran)

/-- `arch_timer_init` starts the clock at zero. -/
theorem Ticking.start (ranged : ArchTimer.Ranged timer)
    (result : start timer = some machine) : Ticking machine ⟨0, 0⟩ := by
  obtain ⟨started, initialised, rfl⟩ := Option.map_eq_some_iff.mp result
  unfold ArchTimer.archTimerInit at initialised
  obtain ⟨loaded, isLoaded, rfl⟩ := Option.map_eq_some_iff.mp initialised
  obtain ⟨-, rfl⟩ := setInterval_some isLoaded
  have isSmall := small_of_accepts ranged ranged.accepts_max
  have nonneg := isSmall.nonneg
  have zero : Written ⟨0, 0⟩ := ⟨le_rfl, .inl ⟨rfl, rfl⟩⟩
  refine ⟨ranged_same ranged rfl rfl, rfl, isSmall, isSmall, le_rfl, zero, zero, ?_, fun _ => ?_⟩
  · change (0 : Int) ≤ 0 + timer.maxInterval.nsec
    omega
  · change (0 : Int) ≤ 0 + (timer.maxInterval.nsec - timer.maxInterval.nsec)
    omega

/-- The times that `arch_get_time` returns do not decrease in any run in which
nothing is read or set between an expiry of the counter and the handling of its
interrupt. -/
theorem system_time (timer : ArchTimer) (ranged : ArchTimer.Ranged timer)
    (events : List Event) (machine machine' : Machine) (times : List Time)
    (started : start timer = some machine) (handled : machine.handled events = true)
    (result : machine.run events = some (machine', times)) : Increasing times := by
  have increasing := (Ticking.start ranged started).run handled result
  exact increasing.tail

/-- The state of the i8253 after `arch_timer_init`. -/
def i8253Started : Machine where
  timer := { ArchTimer.i8253 with
    delay := ⟨0, 54924655⟩
    lastLoad := ⟨0, 54924655⟩
    threshold := ⟨0, 26400⟩
    loaded := ⟨0, 54924655⟩ }
  remainder := ⟨0, 54924655⟩
  pending := false

theorem system_time_i8253 : Increasing [⟨0, 54923655⟩, ⟨0, 54924655⟩] := by
  refine system_time ArchTimer.i8253 ArchTimer.i8253_ranged
    [.tick ⟨0, 1000⟩, .get, .expire, .handler, .get] i8253Started
    ⟨{ i8253Started.timer with clock := ⟨0, 54924655⟩ }, ⟨0, 54924655⟩, false⟩
    [⟨0, 54923655⟩, ⟨0, 54924655⟩] ?_ ?_ ?_ <;> decide

/-- The counter expires, and the time is read before the interrupt is handled: it
is earlier than the time that was read before. -/
theorem system_time_backwards :
    ((start ArchTimer.i8253).bind (run [.tick ⟨0, 1000⟩, .get, .expire, .get])).map Prod.snd =
        some [⟨0, 54923655⟩, ⟨0, 0⟩] ∧
      ¬ Increasing [⟨0, 54923655⟩, ⟨0, 0⟩] := by
  unfold Increasing
  decide

end Machine

end Oseer
