import Mathlib.Data.Int.ModEq
import Mathlib.Order.Basic
import Oseer.LinkedList
import Oseer.Time

/-!
# The timer of the `arch` layer

The functions of `arch/i386/arch/time.c` over a device that counts down an
interval.  A delay that is longer than the greatest interval is counted in
pieces.  The device accepts an interval between its least and its greatest one
only, and halts the system otherwise, by the assertion of
`i8253_set_time_to_counter`.
-/

namespace Oseer

/-- The variables of the timer, and the interval that the device was loaded
with last. -/
structure ArchTimer where
  minInterval : Time
  maxInterval : Time
  clock : Time
  delay : Time
  lastLoad : Time
  threshold : Time
  alarmHandler : Ptr
  loaded : Time
deriving DecidableEq, Repr

namespace ArchTimer

open Time

/-- The assertion of `i8253_set_time_to_counter`. -/
def Accepts (timer : ArchTimer) (time : Time) : Prop :=
  time.sec = 0 ∧ time.nsec ≤ timer.maxInterval.nsec ∧ timer.minInterval.nsec ≤ time.nsec

instance (timer : ArchTimer) (time : Time) : Decidable (timer.Accepts time) :=
  inferInstanceAs (Decidable (_ ∧ _ ∧ _))

/-- `timer->set_interval`; there is no state after the system is halted. -/
def setInterval (time : Time) (timer : ArchTimer) : Option ArchTimer :=
  if timer.Accepts time then some { timer with loaded := time } else none

/-- `arch_timer_init`. -/
def archTimerInit (timer : ArchTimer) : Option ArchTimer :=
  let threshold : Time :=
    ⟨timer.minInterval.sec / 2,
      timer.minInterval.nsec / 2 + if timer.minInterval.sec % 2 ≠ 0 then N1E9 / 2 else 0⟩
  (setInterval timer.maxInterval { timer with
    clock := ⟨0, 0⟩
    lastLoad := timer.maxInterval
    delay := timer.maxInterval }).map fun timer => { timer with threshold := threshold }

/-- `arch_timer_set`, with what the device reports as the remainder of its
interval. -/
def archTimerSet (time : Time) (alarmFunc : Ptr) (remainder : Time) (timer : ArchTimer) :
    Option ArchTimer :=
  let delay := if timeCmp time timer.minInterval < 0 then timer.minInterval else time
  let lastLoad := if 0 < timeCmp delay timer.maxInterval then timer.maxInterval else delay
  setInterval lastLoad { timer with
    clock := timeAdd timer.clock (timeSub timer.lastLoad remainder)
    delay := delay
    alarmHandler := alarmFunc
    lastLoad := lastLoad }

/-- `arch_get_time`. -/
def archGetTime (remainder : Time) (timer : ArchTimer) : Time :=
  timeAdd (timeSub timer.lastLoad remainder) timer.clock

/-- `arch_timer_handler`, with the function of the kernel that it calls in the
end. -/
def archTimerHandler (timer : ArchTimer) : Option (Ptr × ArchTimer) :=
  let clock := timeAdd timer.clock timer.lastLoad
  let delay := timeSub timer.delay timer.lastLoad
  if timeCmp delay timer.threshold ≤ 0 then
    (setInterval timer.maxInterval { timer with
      clock := clock
      delay := timer.maxInterval
      lastLoad := timer.maxInterval
      alarmHandler := 0 }).map fun after => (timer.alarmHandler, after)
  else
    let lastLoad := if timeCmp delay timer.maxInterval < 0 then delay else timer.maxInterval
    (setInterval lastLoad { timer with
      clock := clock
      delay := delay
      lastLoad := lastLoad }).map fun after => (0, after)

/-- The calls of the functions that load the device. -/
inductive Call
  | init
  | set (time : Time) (alarmFunc : Ptr) (remainder : Time)
  | handler
deriving DecidableEq, Repr

/-- One call. -/
def call : Call → ArchTimer → Option ArchTimer
  | .init, timer => timer.archTimerInit
  | .set time alarmFunc remainder, timer => timer.archTimerSet time alarmFunc remainder
  | .handler, timer => timer.archTimerHandler.map Prod.snd

/-- A sequence of calls, up to the first one that halts the system. -/
def calls : List Call → ArchTimer → Option ArchTimer
  | [], timer => some timer
  | first :: rest, timer => (timer.call first).bind (calls rest)

/-- The intervals of a device: the least one is shorter than the greatest one, and
both are below one second. -/
structure Ranged (timer : ArchTimer) : Prop where
  minSec : timer.minInterval.sec = 0
  maxSec : timer.maxInterval.sec = 0
  minNsec : 0 ≤ timer.minInterval.nsec
  less : timer.minInterval.nsec < timer.maxInterval.nsec
  maxNsec : timer.maxInterval.nsec < N1E9

/-- A delay that can be counted in pieces that the device accepts: what is left
after the greatest intervals is taken as expired, or it is long enough. -/
def Fits (timer : ArchTimer) (delay : Int) : Prop :=
  delay ≤ timer.maxInterval.nsec ∨
    delay % timer.maxInterval.nsec ≤ timer.minInterval.nsec / 2 ∨
    timer.minInterval.nsec ≤ delay % timer.maxInterval.nsec

/-- What holds between the calls: the piece that is loaded is all of the delay or
the greatest interval. -/
structure Counting (timer : ArchTimer) : Prop where
  ranged : Ranged timer
  threshold : timer.threshold = ⟨0, timer.minInterval.nsec / 2⟩
  delaySec : 0 ≤ timer.delay.sec
  delayNsec : 0 ≤ timer.delay.nsec
  delayMin : timer.minInterval.nsec ≤ timer.delay.value
  lastLoad : timer.lastLoad =
    if timer.maxInterval.nsec < timer.delay.value then timer.maxInterval else timer.delay
  loaded : timer.loaded = timer.lastLoad
  accepts : timer.Accepts timer.loaded

variable {timer timer' : ArchTimer} {time : Time}

theorem timeCmp_small {small : Time} (sec : 0 ≤ time.sec) (nsec : 0 ≤ time.nsec)
    (smallSec : small.sec = 0) (below : small.nsec < N1E9) :
    (timeCmp time small < 0 ↔ time.value < small.nsec) ∧
      (0 < timeCmp time small ↔ small.nsec < time.value) ∧
      (timeCmp time small ≤ 0 ↔ time.value ≤ small.nsec) := by
  rw [timeCmp_pos, timeCmp_neg, timeCmp_neg, timeCmp_le_zero]
  unfold value
  simp only [N1E9] at *
  omega

theorem timeSub_nonneg {small : Time} (sec : 0 ≤ time.sec) (nsec : 0 ≤ time.nsec)
    (smallSec : small.sec = 0) (smallNsec : 0 ≤ small.nsec) (below : small.nsec < N1E9)
    (less : small.nsec ≤ time.value) :
    0 ≤ (timeSub time small).sec ∧ 0 ≤ (timeSub time small).nsec := by
  unfold value at less
  unfold timeSub
  split_ifs <;> simp only [N1E9] at * <;> omega

theorem Ranged.maxValue (ranged : Ranged timer) :
    timer.maxInterval.value = timer.maxInterval.nsec := by
  unfold value
  rw [ranged.maxSec, Int.zero_mul, Int.zero_add]

theorem Ranged.short (ranged : Ranged timer) (sec : 0 ≤ time.sec) (nsec : 0 ≤ time.nsec)
    (short : time.value ≤ timer.maxInterval.nsec) : time.sec = 0 ∧ time.nsec = time.value := by
  have below := ranged.maxNsec
  unfold value at short ⊢
  simp only [N1E9] at *
  omega

theorem Ranged.eq_max (ranged : Ranged timer) (sec : 0 ≤ time.sec) (nsec : 0 ≤ time.nsec)
    (same : time.value = timer.maxInterval.nsec) : time = timer.maxInterval := by
  obtain ⟨isZero, isValue⟩ := ranged.short sec nsec same.le
  rcases time with ⟨timeSec, timeNsec⟩
  have maxSec := ranged.maxSec
  rcases h : timer.maxInterval with ⟨otherSec, otherNsec⟩
  rw [h] at maxSec same
  simp only at *
  rw [isZero, maxSec, isValue, same]

theorem setInterval_eq {loading : ArchTimer} (accepts : timer.Accepts time)
    (minInterval : loading.minInterval = timer.minInterval)
    (maxInterval : loading.maxInterval = timer.maxInterval) :
    loading.setInterval time = some { loading with loaded := time } := by
  refine if_pos ?_
  unfold Accepts
  rw [minInterval, maxInterval]
  exact accepts

theorem Ranged.accepts_max (ranged : Ranged timer) : timer.Accepts timer.maxInterval :=
  ⟨ranged.maxSec, le_rfl, ranged.less.le⟩

/-- The piece of a delay that is loaded. -/
def piece (timer : ArchTimer) (delay : Time) : Time :=
  if timer.maxInterval.nsec < delay.value then timer.maxInterval else delay

theorem Ranged.accepts_piece (ranged : Ranged timer) (sec : 0 ≤ time.sec) (nsec : 0 ≤ time.nsec)
    (long : timer.minInterval.nsec ≤ time.value) : timer.Accepts (timer.piece time) := by
  unfold piece
  split_ifs with longer
  · exact ranged.accepts_max
  · have short := not_lt.mp longer
    obtain ⟨isZero, isValue⟩ := ranged.short sec nsec short
    exact ⟨isZero, isValue ▸ short, isValue ▸ long⟩

theorem piece_max : timer.piece timer.maxInterval = timer.maxInterval := by
  unfold piece
  rw [ite_self]

theorem Ranged.max_nonneg (ranged : Ranged timer) :
    0 ≤ timer.maxInterval.sec ∧ 0 ≤ timer.maxInterval.nsec ∧
      timer.minInterval.nsec ≤ timer.maxInterval.value := by
  have nonneg := ranged.minNsec
  have less := ranged.less
  rw [ranged.maxSec, ranged.maxValue]
  omega

/-- `arch_timer_init` loads the greatest interval. -/
theorem archTimerInit_counting (ranged : Ranged timer) :
    ∃ timer', timer.archTimerInit = some timer' ∧ Counting timer' ∧
      timer'.delay = timer.maxInterval ∧ timer'.minInterval = timer.minInterval ∧
      timer'.maxInterval = timer.maxInterval := by
  have even : ¬ (timer.minInterval.sec % 2 ≠ 0) := by
    rw [ranged.minSec]
    decide
  have threshold : (⟨timer.minInterval.sec / 2, timer.minInterval.nsec / 2 +
      if timer.minInterval.sec % 2 ≠ 0 then N1E9 / 2 else 0⟩ : Time) =
      ⟨0, timer.minInterval.nsec / 2⟩ := by
    rw [if_neg even, ranged.minSec, Int.zero_ediv, Int.add_zero]
  obtain ⟨sec, nsec, long⟩ := ranged.max_nonneg
  have result : timer.archTimerInit = some { timer with
      clock := ⟨0, 0⟩
      lastLoad := timer.maxInterval
      delay := timer.maxInterval
      loaded := timer.maxInterval
      threshold := ⟨0, timer.minInterval.nsec / 2⟩ } := by
    unfold archTimerInit
    simp only [threshold]
    rw [setInterval_eq ranged.accepts_max] <;> rfl
  exact ⟨_, result, ⟨⟨ranged.minSec, ranged.maxSec, ranged.minNsec, ranged.less,
    ranged.maxNsec⟩, rfl, sec, nsec, long, piece_max.symm, rfl, ranged.accepts_max⟩, rfl, rfl,
    rfl⟩

/-- `arch_timer_set` loads the delay or the greatest interval. -/
theorem archTimerSet_counting (alarmFunc : Ptr) (remainder : Time) (counting : Counting timer)
    (sec : 0 ≤ time.sec) (nsec : 0 ≤ time.nsec) :
    ∃ timer', timer.archTimerSet time alarmFunc remainder = some timer' ∧ Counting timer' ∧
      (timer'.delay = time ∨ time.value < timer.minInterval.nsec ∧
        timer'.delay.value ≤ timer.maxInterval.nsec) ∧
      timer'.minInterval = timer.minInterval ∧ timer'.maxInterval = timer.maxInterval := by
  have ranged := counting.ranged
  have nonneg := ranged.minNsec
  have less := ranged.less
  have below := ranged.maxNsec
  have minValue : timer.minInterval.value = timer.minInterval.nsec := by
    unfold value
    rw [ranged.minSec, Int.zero_mul, Int.zero_add]
  have small := timeCmp_small sec nsec ranged.minSec (lt_trans less below)
  generalize delayIs : (if timeCmp time timer.minInterval < 0 then timer.minInterval else time) =
    delay
  have facts : 0 ≤ delay.sec ∧ 0 ≤ delay.nsec ∧ timer.minInterval.nsec ≤ delay.value ∧
      (delay = time ∨ time.value < timer.minInterval.nsec ∧
        delay.value ≤ timer.maxInterval.nsec) := by
    rw [← delayIs]
    split_ifs with short
    · rw [small.1] at short
      rw [minValue, ranged.minSec]
      exact ⟨le_rfl, nonneg, le_rfl, .inr ⟨short, less.le⟩⟩
    · rw [small.1] at short
      exact ⟨sec, nsec, not_lt.mp short, .inl rfl⟩
  obtain ⟨delaySec, delayNsec, long, orShort⟩ := facts
  have pieceIs : (if 0 < timeCmp delay timer.maxInterval then timer.maxInterval else delay) =
      timer.piece delay := by
    unfold piece
    simp only [(timeCmp_small delaySec delayNsec ranged.maxSec below).2.1]
  have accepts := ranged.accepts_piece delaySec delayNsec long
  have result : timer.archTimerSet time alarmFunc remainder = some { timer with
      clock := timeAdd timer.clock (timeSub timer.lastLoad remainder)
      delay := delay
      alarmHandler := alarmFunc
      lastLoad := timer.piece delay
      loaded := timer.piece delay } := by
    unfold archTimerSet
    simp only [delayIs, pieceIs]
    rw [setInterval_eq accepts] <;> rfl
  exact ⟨_, result, ⟨⟨ranged.minSec, ranged.maxSec, nonneg, less, below⟩, counting.threshold,
    delaySec, delayNsec, long, rfl, rfl, accepts⟩, orShort, rfl, rfl⟩

/-- What is left of the delay when the device has counted down. -/
theorem Counting.rest (counting : Counting timer) :
    (timeSub timer.delay timer.lastLoad).value = timer.delay.value - timer.lastLoad.nsec ∧
      0 ≤ (timeSub timer.delay timer.lastLoad).sec ∧
      0 ≤ (timeSub timer.delay timer.lastLoad).nsec := by
  have nonneg := counting.ranged.minNsec
  have below := counting.ranged.maxNsec
  obtain ⟨lastSec, lastMax, lastMin⟩ := counting.loaded ▸ counting.accepts
  have lastLe : timer.lastLoad.nsec ≤ timer.delay.value := by
    rw [counting.lastLoad]
    split_ifs with longer
    · exact longer.le
    · exact (counting.ranged.short counting.delaySec counting.delayNsec
        (not_lt.mp longer)).2.le
  refine ⟨?_, timeSub_nonneg counting.delaySec counting.delayNsec lastSec (by omega) (by omega)
    lastLe⟩
  rw [timeSub_value]
  unfold value
  rw [lastSec, Int.zero_mul, Int.zero_add]

theorem Counting.ended_iff (counting : Counting timer) :
    timeCmp (timeSub timer.delay timer.lastLoad) timer.threshold ≤ 0 ↔
      timer.delay.value - timer.lastLoad.nsec ≤ timer.minInterval.nsec / 2 := by
  have less := counting.ranged.less
  have below := counting.ranged.maxNsec
  have nonneg := counting.ranged.minNsec
  obtain ⟨restValue, restSec, restNsec⟩ := counting.rest
  have thresholdSec : timer.threshold.sec = 0 := by rw [counting.threshold]
  have thresholdNsec : timer.threshold.nsec = timer.minInterval.nsec / 2 := by
    rw [counting.threshold]
  rw [(timeCmp_small restSec restNsec thresholdSec (by simp only [N1E9] at *; omega)).2.2,
    restValue, thresholdNsec]

/-- At the end of the delay, `arch_timer_handler` loads the greatest interval. -/
theorem archTimerHandler_ended (counting : Counting timer)
    (ended : timer.delay.value - timer.lastLoad.nsec ≤ timer.minInterval.nsec / 2) :
    ∃ timer', timer.call .handler = some timer' ∧ Counting timer' ∧
      timer'.delay = timer.maxInterval ∧
      timer'.minInterval = timer.minInterval ∧ timer'.maxInterval = timer.maxInterval := by
  have ranged := counting.ranged
  have result : timer.archTimerHandler = some (timer.alarmHandler, { timer with
      clock := timeAdd timer.clock timer.lastLoad
      delay := timer.maxInterval
      lastLoad := timer.maxInterval
      alarmHandler := 0
      loaded := timer.maxInterval }) := by
    unfold archTimerHandler
    rw [if_pos (counting.ended_iff.mpr ended), setInterval_eq ranged.accepts_max] <;> rfl
  obtain ⟨sec, nsec, long⟩ := ranged.max_nonneg
  exact ⟨_, congrArg (Option.map Prod.snd) result,
    ⟨⟨ranged.minSec, ranged.maxSec, ranged.minNsec, ranged.less, ranged.maxNsec⟩,
      counting.threshold, sec, nsec, long, piece_max.symm, rfl, ranged.accepts_max⟩, rfl, rfl,
    rfl⟩

theorem Counting.longer (counting : Counting timer)
    (goesOn : timer.minInterval.nsec / 2 < timer.delay.value - timer.lastLoad.nsec) :
    timer.maxInterval.nsec < timer.delay.value ∧ timer.lastLoad = timer.maxInterval := by
  have nonneg := counting.ranged.minNsec
  have lastIs := counting.lastLoad
  split_ifs at lastIs with longer
  · exact ⟨longer, lastIs⟩
  · have short := counting.ranged.short counting.delaySec counting.delayNsec
      (not_lt.mp longer)
    rw [lastIs, short.2] at goesOn
    omega

/-- What `arch_timer_handler` does while the delay goes on. -/
theorem archTimerHandler_goesOn (counting : Counting timer)
    (goesOn : timer.minInterval.nsec / 2 < timer.delay.value - timer.lastLoad.nsec) :
    timer.call .handler = ({ timer with
      clock := timeAdd timer.clock timer.lastLoad
      delay := timeSub timer.delay timer.lastLoad
      lastLoad := timer.piece (timeSub timer.delay timer.lastLoad) } : ArchTimer).setInterval
        (timer.piece (timeSub timer.delay timer.lastLoad)) := by
  have ranged := counting.ranged
  obtain ⟨restValue, restSec, restNsec⟩ := counting.rest
  have shorter := (timeCmp_small restSec restNsec ranged.maxSec ranged.maxNsec).1
  have pieceIs : (if timeCmp (timeSub timer.delay timer.lastLoad) timer.maxInterval < 0
      then timeSub timer.delay timer.lastLoad else timer.maxInterval) =
      timer.piece (timeSub timer.delay timer.lastLoad) := by
    unfold piece
    rcases lt_trichotomy (timeSub timer.delay timer.lastLoad).value timer.maxInterval.nsec with
      before | same | after
    · rw [if_pos (shorter.mpr before), if_neg (by omega)]
    · rw [ranged.eq_max restSec restNsec same, ite_self, ite_self]
    · rw [if_neg (by rw [shorter]; omega), if_pos after]
  have notEnded : ¬ timeCmp (timeSub timer.delay timer.lastLoad) timer.threshold ≤ 0 := by
    rw [counting.ended_iff]
    omega
  simp only [call, archTimerHandler, if_neg notEnded, pieceIs, Option.map_map]
  exact Option.map_id' ..

/-- A rest of the delay that is long enough is counted down next. -/
theorem archTimerHandler_counts (counting : Counting timer)
    (goesOn : timer.minInterval.nsec / 2 < timer.delay.value - timer.lastLoad.nsec)
    (long : timer.minInterval.nsec ≤ timer.delay.value - timer.lastLoad.nsec) :
    ∃ timer', timer.call .handler = some timer' ∧ Counting timer' ∧
      timer'.delay.value = timer.delay.value - timer.maxInterval.nsec ∧
      timer'.minInterval = timer.minInterval ∧ timer'.maxInterval = timer.maxInterval := by
  have ranged := counting.ranged
  obtain ⟨restValue, restSec, restNsec⟩ := counting.rest
  rw [← restValue] at long
  have accepts := ranged.accepts_piece restSec restNsec long
  have result := archTimerHandler_goesOn counting goesOn
  rw [setInterval_eq accepts] at result <;> try rfl
  refine ⟨_, result, ⟨⟨ranged.minSec, ranged.maxSec, ranged.minNsec, ranged.less,
    ranged.maxNsec⟩, counting.threshold, restSec, restNsec, long, rfl, rfl, accepts⟩, ?_, rfl,
    rfl⟩
  rw [← (counting.longer goesOn).2]
  exact restValue

/-- A rest of the delay that is too short halts the system. -/
theorem archTimerHandler_halts (counting : Counting timer)
    (goesOn : timer.minInterval.nsec / 2 < timer.delay.value - timer.lastLoad.nsec)
    (short : timer.delay.value - timer.lastLoad.nsec < timer.minInterval.nsec) :
    timer.call .handler = none := by
  have ranged := counting.ranged
  have less := ranged.less
  obtain ⟨restValue, restSec, restNsec⟩ := counting.rest
  have noMore : (timeSub timer.delay timer.lastLoad).value ≤ timer.maxInterval.nsec := by omega
  have isShort := ranged.short restSec restNsec noMore
  have pieceIs : timer.piece (timeSub timer.delay timer.lastLoad) =
      timeSub timer.delay timer.lastLoad := if_neg (not_lt.mpr noMore)
  rw [archTimerHandler_goesOn counting goesOn, pieceIs]
  refine if_neg ?_
  rintro ⟨-, -, least⟩
  change timer.minInterval.nsec ≤ (timeSub timer.delay timer.lastLoad).nsec at least
  omega

section Runs

/-- Every call of `arch_timer_set` in a sequence asks for a time that is not
negative, and that can be counted in pieces that the device accepts. -/
def Call.Fitting (timer : ArchTimer) : Call → Prop
  | .set time _ _ => 0 ≤ time.sec ∧ 0 ≤ time.nsec ∧ timer.Fits time.value
  | _ => True

/-- What the calls keep when all delays fit. -/
structure Fit (timer : ArchTimer) : Prop where
  counting : Counting timer
  fits : timer.Fits timer.delay.value

theorem fits_same {other : ArchTimer} (minInterval : other.minInterval = timer.minInterval)
    (maxInterval : other.maxInterval = timer.maxInterval) :
    other.Fits = timer.Fits := by
  unfold Fits
  rw [minInterval, maxInterval]

theorem calls_cons {first : Call} {rest : List Call} (result : timer.call first = some timer') :
    timer.calls (first :: rest) = timer'.calls rest := by
  change (timer.call first).bind (ArchTimer.calls rest) = _
  rw [result]
  rfl

/-- One call keeps the invariant, and halts nothing. -/
theorem Fit.call (fit : Fit timer) {next : Call} (fitting : next.Fitting timer) :
    ∃ timer', timer.call next = some timer' ∧ Fit timer' ∧
      timer'.minInterval = timer.minInterval ∧ timer'.maxInterval = timer.maxInterval := by
  have ranged := fit.counting.ranged
  cases next with
  | init =>
      obtain ⟨timer', result, counting, delay, sameMin, sameMax⟩ := archTimerInit_counting ranged
      refine ⟨timer', result, ⟨counting, ?_⟩, sameMin, sameMax⟩
      rw [fits_same sameMin sameMax, delay, ranged.maxValue]
      exact .inl le_rfl
  | set time alarmFunc remainder =>
      obtain ⟨sec, nsec, fits⟩ := fitting
      obtain ⟨timer', result, counting, delay, sameMin, sameMax⟩ :=
        archTimerSet_counting alarmFunc remainder fit.counting sec nsec
      refine ⟨timer', result, ⟨counting, ?_⟩, sameMin, sameMax⟩
      rw [fits_same sameMin sameMax]
      rcases delay with isTime | ⟨-, isShort⟩
      · rwa [isTime]
      · exact .inl isShort
  | handler =>
      by_cases ended :
          timer.delay.value - timer.lastLoad.nsec ≤ timer.minInterval.nsec / 2
      · obtain ⟨timer', result, counting, delay, sameMin, sameMax⟩ :=
          archTimerHandler_ended fit.counting ended
        refine ⟨timer', result, ⟨counting, ?_⟩, sameMin, sameMax⟩
        rw [fits_same sameMin sameMax, delay, ranged.maxValue]
        exact .inl le_rfl
      · have goesOn := not_le.mp ended
        obtain ⟨longer, lastIs⟩ := fit.counting.longer goesOn
        have sameMod : (timer.delay.value - timer.maxInterval.nsec) % timer.maxInterval.nsec =
            timer.delay.value % timer.maxInterval.nsec := Int.sub_emod_right ..
        have fits := fit.fits.resolve_left (not_le.mpr longer)
        rw [← sameMod] at fits
        have long : timer.minInterval.nsec ≤ timer.delay.value - timer.lastLoad.nsec := by
          have less := ranged.less
          rw [lastIs] at goesOn ⊢
          by_cases small : timer.delay.value - timer.maxInterval.nsec < timer.maxInterval.nsec
          · rw [Int.emod_eq_of_lt (by omega) small] at fits
            omega
          · omega
        obtain ⟨timer', result, counting, delay, sameMin, sameMax⟩ :=
          archTimerHandler_counts fit.counting goesOn long
        refine ⟨timer', result, ⟨counting, ?_⟩, sameMin, sameMax⟩
        rw [fits_same sameMin sameMax, delay]
        exact .inr fits

/-- A sequence of calls keeps the invariant. -/
theorem Fit.calls (fit : Fit timer) {sequence : List Call}
    (fitting : ∀ next ∈ sequence, next.Fitting timer) :
    ∃ timer', timer.calls sequence = some timer' ∧ Fit timer' := by
  induction sequence generalizing timer with
  | nil => exact ⟨timer, rfl, fit⟩
  | cons first rest ih =>
      obtain ⟨middle, result, fit', sameMin, sameMax⟩ := fit.call (fitting first (by simp))
      have fitting' : ∀ next ∈ rest, next.Fitting middle := by
        intro next mem
        have old := fitting next (List.mem_cons_of_mem _ mem)
        cases next with
        | set time alarmFunc remainder =>
            unfold Call.Fitting at old ⊢
            rwa [fits_same sameMin sameMax]
        | init => trivial
        | handler => trivial
      obtain ⟨timer', results, fit''⟩ := ih fit' fitting'
      exact ⟨timer', (calls_cons result).trans results, fit''⟩

/-- A delay whose last piece is too short halts the system when it comes to it. -/
theorem Counting.halts (counting : Counting timer) (pieces : Nat) (rest : Int)
    (delay : timer.delay.value = (pieces + 1) * timer.maxInterval.nsec + rest)
    (goesOn : timer.minInterval.nsec / 2 < rest) (short : rest < timer.minInterval.nsec) :
    timer.calls (List.replicate (pieces + 1) .handler) = none := by
  have nonneg := counting.ranged.minNsec
  have less := counting.ranged.less
  induction pieces generalizing timer with
  | zero =>
      have whole : timer.delay.value = timer.maxInterval.nsec + rest := by
        rw [delay]
        simp
      have lastIs : timer.lastLoad = timer.maxInterval := by
        rw [counting.lastLoad, if_pos (by omega)]
      have halted := archTimerHandler_halts counting (by rw [lastIs]; omega)
        (by rw [lastIs]; omega)
      unfold ArchTimer.calls
      simp only [List.replicate]
      rw [halted]
      rfl
  | succ pieces ih =>
      have whole : timer.delay.value =
          timer.maxInterval.nsec + ((pieces + 1) * timer.maxInterval.nsec + rest) := by
        rw [delay]
        push_cast
        rw [Int.add_mul (pieces + 1 : Int) 1, Int.one_mul]
        omega
      have more : 0 ≤ (pieces : Int) * timer.maxInterval.nsec :=
        Int.mul_nonneg (Int.natCast_nonneg _) (by omega)
      rw [Int.add_mul, Int.one_mul] at whole
      have lastIs : timer.lastLoad = timer.maxInterval := by
        rw [counting.lastLoad, if_pos (by omega)]
      obtain ⟨timer', result, counting', delay', sameMin, sameMax⟩ :=
        archTimerHandler_counts counting (by rw [lastIs]; omega) (by rw [lastIs]; omega)
      have halted := ih counting' (by rw [delay', sameMax, Int.add_mul, Int.one_mul]; omega)
        (by rwa [sameMin]) (by rwa [sameMin]) (by rwa [sameMin]) (by rwa [sameMin, sameMax])
      rw [List.replicate_succ]
      exact (calls_cons result).trans halted

/-- The device is only loaded with intervals that it accepts, in every sequence of
calls whose delays fit; and a delay that does not fit halts the system when it is
counted down. -/
theorem interval_accepted (timer : ArchTimer) (ranged : Ranged timer) :
    (∀ sequence : List Call, (∀ next ∈ sequence, next.Fitting timer) →
      ∃ timer', timer.calls (.init :: sequence) = some timer' ∧
        timer'.Accepts timer'.loaded) ∧
    ∀ (time remainder : Time) (alarmFunc : Ptr), 0 ≤ time.sec → 0 ≤ time.nsec →
      ¬ timer.Fits time.value → ∃ pieces, timer.calls
        (.init :: .set time alarmFunc remainder :: List.replicate pieces .handler) = none := by
  obtain ⟨started, result, counting, delay, sameMin, sameMax⟩ := archTimerInit_counting ranged
  constructor
  · intro sequence fitting
    have fits : started.Fits started.delay.value := by
      rw [fits_same sameMin sameMax, delay, ranged.maxValue]
      exact .inl le_rfl
    have fitting' : ∀ next ∈ sequence, next.Fitting started := by
      intro next mem
      have old := fitting next mem
      cases next with
      | set time alarmFunc remainder =>
          unfold Call.Fitting at old ⊢
          rwa [fits_same sameMin sameMax]
      | init => trivial
      | handler => trivial
    obtain ⟨timer', results, fit⟩ := Fit.calls ⟨counting, fits⟩ fitting'
    have begun : timer.call .init = some started := result
    exact ⟨timer', (calls_cons begun).trans results, fit.counting.accepts⟩
  · intro time remainder alarmFunc sec nsec notFits
    have nonneg := ranged.minNsec
    have less := ranged.less
    rw [← fits_same sameMin sameMax] at notFits
    obtain ⟨longer, goesOn, short⟩ :
        started.maxInterval.nsec < time.value ∧
          started.minInterval.nsec / 2 < time.value % started.maxInterval.nsec ∧
          time.value % started.maxInterval.nsec < started.minInterval.nsec := by
      unfold Fits at notFits
      omega
    have atLeast := counting.ranged.minNsec
    have notLess := counting.ranged.less
    obtain ⟨waiting, set, counting', delay', sameMin', sameMax'⟩ :=
      archTimerSet_counting alarmFunc remainder counting sec nsec
    have isTime : waiting.delay = time := by
      refine delay'.resolve_right fun tooShort => ?_
      omega
    have whole : 1 ≤ time.value / started.maxInterval.nsec :=
      Int.le_ediv_of_mul_le (by omega) (by omega)
    have division := Int.mul_ediv_add_emod time.value started.maxInterval.nsec
    generalize piecesIs : time.value / started.maxInterval.nsec = count at whole division
    refine ⟨(count - 1).toNat + 1, ?_⟩
    have begun : timer.call .init = some started := result
    have then_set : started.call (.set time alarmFunc remainder) = some waiting := set
    have halted := counting'.halts (count - 1).toNat (time.value % started.maxInterval.nsec)
      (by
        have back : (((count - 1).toNat : Nat) : Int) + 1 = count := by omega
        rw [isTime, sameMax', back, Int.mul_comm]
        exact division.symm)
      (by rwa [sameMin']) (by rwa [sameMin'])
    exact (calls_cons begun).trans ((calls_cons then_set).trans halted)

/-- The device i8253 at its frequency of 1193180 Hz, with its least and greatest
interval of 63 and of 65535 counts. -/
def i8253 : ArchTimer where
  minInterval := ⟨0, 52800⟩
  maxInterval := ⟨0, 54924655⟩
  clock := ⟨0, 0⟩
  delay := ⟨0, 0⟩
  lastLoad := ⟨0, 0⟩
  threshold := ⟨0, 0⟩
  alarmHandler := 0
  loaded := ⟨0, 0⟩

theorem i8253_ranged : Ranged i8253 := ⟨rfl, rfl, by decide, by decide, by decide⟩

/-- A delay of the greatest interval and twice the least one is counted down. -/
theorem interval_accepted_i8253 :
    ∃ timer', i8253.calls
      [.init, .set ⟨0, 54924655 + 105600⟩ 0 ⟨0, 0⟩, .handler, .handler] = some timer' ∧
        timer'.Accepts timer'.loaded := by
  refine (interval_accepted i8253 i8253_ranged).1
    [.set ⟨0, 54924655 + 105600⟩ 0 ⟨0, 0⟩, .handler, .handler] ?_
  intro next mem
  simp only [List.mem_cons, List.not_mem_nil, or_false] at mem
  rcases mem with rfl | rfl | rfl
  · exact ⟨by decide, by decide, .inr (.inr (by decide))⟩
  · trivial
  · trivial

/-- A delay of the greatest interval and forty microseconds halts the system at the
first interrupt. -/
theorem interval_not_accepted :
    i8253.calls [.init, .set ⟨0, 54924655 + 40000⟩ 0 ⟨0, 0⟩, .handler] = none := by
  decide

end Runs

end ArchTimer

end Oseer
