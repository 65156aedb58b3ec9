import Oseer.ArchTimer

/-!
# Counting down a delay

A call of `arch_timer_set`, and then `arch_timer_handler` at the end of each
interval that the device was loaded with.  The rest of the delay is less by one
interval each time, which is what the induction is on.
-/

namespace Oseer

namespace ArchTimer

open Time

/-- The sum of the intervals that the device was loaded with, in the first states. -/
def loadedSum (states : Nat → ArchTimer) : Nat → Int
  | 0 => 0
  | n + 1 => loadedSum states n + (states n).loaded.value

/-- The delay that `arch_timer_set` takes for a time. -/
def delayFor (timer : ArchTimer) (time : Time) : Time :=
  if timeCmp time timer.minInterval < 0 then timer.minInterval else time

/-- The states in which interrupts find the timer, what they call, and the number of the
interrupt that ends the delay: it is the first one after which no more than the threshold is
left, and the only one that calls the function of the kernel. -/
structure CountsDown (timer : ArchTimer) (delay : Int) (alarmFunc : Ptr)
    (states : Nat → ArchTimer) (called : Nat → Ptr) (last : Nat) : Prop where
  start : states 0 = timer
  runs : ∀ i, (states i).archTimerHandler = some (called i, states (i + 1))
  once : ∀ i, called i = if i = last then alarmFunc else 0
  waits : ∀ i, 0 < i → i ≤ last → timer.threshold.value < delay - loadedSum states i
  expired : delay - loadedSum states (last + 1) ≤ timer.threshold.value
  within : ∀ i ≤ last + 1, loadedSum states i ≤ delay
  delay_nonneg : ∀ i, 0 ≤ (states i).delay.value
  lastLoad_le : ∀ i, (states i).lastLoad.value ≤ (states i).delay.value
  clock : ∀ i, (states i).clock.value = timer.clock.value + loadedSum states i

/-- The delay is not less than its seconds times the greatest interval: so it is for each time
with nanoseconds that are not negative. -/
def Steady (timer : ArchTimer) (time : Time) : Prop :=
  time.sec * timer.maxInterval.nsec ≤ time.value

/-- The intervals of the device and the threshold are set. -/
structure Tuned (timer : ArchTimer) : Prop where
  ranged : Ranged timer
  threshold : timer.threshold = ⟨0, timer.minInterval.nsec / 2⟩

/-- What `arch_timer_set` leaves, and each interrupt that does not end the delay. -/
structure Loading (timer : ArchTimer) : Prop extends Tuned timer where
  long : 0 < timer.delay.sec ∨ timer.delay.sec = 0 ∧ timer.minInterval.nsec ≤ timer.delay.nsec
  lastLoad : timer.lastLoad =
    if 0 < timeCmp timer.delay timer.maxInterval then timer.maxInterval else timer.delay
  loaded : timer.loaded = timer.lastLoad

/-- The rest of the delay after the interval. -/
def rest (timer : ArchTimer) : Time := timeSub timer.delay timer.lastLoad

/-- The state after an interrupt that ends the delay. -/
def ended (timer : ArchTimer) : ArchTimer :=
  { timer with
    clock := timeAdd timer.clock timer.lastLoad
    delay := timer.maxInterval
    lastLoad := timer.maxInterval
    alarmHandler := 0
    loaded := timer.maxInterval }

/-- The interval that is loaded for the rest of the delay. -/
def nextLoad (timer : ArchTimer) : Time :=
  if timeCmp timer.rest timer.maxInterval < 0 then timer.rest else timer.maxInterval

/-- The state after an interrupt that does not end the delay. -/
def goneOn (timer : ArchTimer) : ArchTimer :=
  { timer with
    clock := timeAdd timer.clock timer.lastLoad
    delay := timer.rest
    lastLoad := timer.nextLoad
    loaded := timer.nextLoad }

variable {timer timer' device : ArchTimer} {time remainder : Time} {alarmFunc : Ptr}
  {delay : Int}

section Steps

theorem setInterval_refused {loading : ArchTimer} (refused : ¬ timer.Accepts time)
    (minInterval : loading.minInterval = timer.minInterval)
    (maxInterval : loading.maxInterval = timer.maxInterval) :
    loading.setInterval time = none := by
  refine if_neg ?_
  unfold Accepts
  rw [minInterval, maxInterval]
  exact refused

/-- What `arch_timer_handler` does. -/
theorem archTimerHandler_eq (ranged : Ranged timer) :
    timer.archTimerHandler =
      if timeCmp timer.rest timer.threshold ≤ 0 then some (timer.alarmHandler, timer.ended)
      else if timer.Accepts timer.nextLoad then some (0, timer.goneOn) else none := by
  unfold archTimerHandler
  change (if timeCmp timer.rest timer.threshold ≤ 0 then _ else _) = _
  by_cases isEnd : timeCmp timer.rest timer.threshold ≤ 0
  · rw [if_pos isEnd, if_pos isEnd, setInterval_eq ranged.accepts_max] <;> rfl
  · rw [if_neg isEnd, if_neg isEnd]
    by_cases accepts : timer.Accepts timer.nextLoad
    · rw [if_pos accepts]
      change (ArchTimer.setInterval timer.nextLoad _).map _ = _
      rw [setInterval_eq accepts] <;> rfl
    · rw [if_neg accepts]
      change (ArchTimer.setInterval timer.nextLoad _).map _ = _
      rw [setInterval_refused accepts] <;> rfl

/-- The interval that is loaded, by cases of the delay. -/
theorem Loading.cases (loading : Loading timer) :
    0 < timer.delay.sec ∧ timer.lastLoad = timer.maxInterval ∨
      timer.delay.sec = 0 ∧ timer.maxInterval.nsec < timer.delay.nsec ∧
        timer.lastLoad = timer.maxInterval ∨
      timer.delay.sec = 0 ∧ timer.delay.nsec ≤ timer.maxInterval.nsec ∧
        timer.lastLoad = timer.delay := by
  have long := loading.long
  have maxSec := loading.ranged.maxSec
  have isLoad := loading.lastLoad
  by_cases longer : 0 < timeCmp timer.delay timer.maxInterval
  · rw [if_pos longer] at isLoad
    rw [timeCmp_pos, timeCmp_neg] at longer
    rcases long with sec | sec
    · exact .inl ⟨sec, isLoad⟩
    · exact .inr (.inl ⟨sec.1, by omega, isLoad⟩)
  · rw [if_neg longer] at isLoad
    rw [timeCmp_pos, timeCmp_neg] at longer
    exact .inr (.inr ⟨by omega, by omega, isLoad⟩)

theorem Tuned.threshold_value (tuned : Tuned timer) :
    timer.threshold.value = timer.minInterval.nsec / 2 := by
  rw [tuned.threshold]
  unfold value
  dsimp only
  omega

theorem Loading.lastLoad_value (loading : Loading timer) :
    timer.lastLoad = timer.maxInterval ∧ timer.lastLoad.value = timer.maxInterval.nsec ∨
      timer.lastLoad = timer.delay ∧ timer.delay.value ≤ timer.maxInterval.nsec := by
  have maxValue := loading.ranged.maxValue
  rcases loading.cases with ⟨-, isMax⟩ | ⟨-, -, isMax⟩ | ⟨sec, short, isDelay⟩
  · exact .inl ⟨isMax, isMax ▸ maxValue⟩
  · exact .inl ⟨isMax, isMax ▸ maxValue⟩
  · refine .inr ⟨isDelay, ?_⟩
    unfold value
    rw [sec]
    omega

theorem value_of_sec (sec : time.sec = 0) : time.value = time.nsec := by
  unfold value
  rw [sec, Int.zero_mul, Int.zero_add]

theorem Steady.max_le (steady : timer.Steady time) (sec : 0 < time.sec)
    (positive : 0 ≤ timer.maxInterval.nsec) : timer.maxInterval.nsec ≤ time.value := by
  have one : 1 * timer.maxInterval.nsec ≤ time.sec * timer.maxInterval.nsec :=
    Int.mul_le_mul_of_nonneg_right sec positive
  rw [Int.one_mul] at one
  exact one.trans steady

theorem Ranged.steady (ranged : Ranged timer) (sec : 0 ≤ time.sec) (nsec : 0 ≤ time.nsec) :
    timer.Steady time := by
  have less : time.sec * timer.maxInterval.nsec ≤ time.sec * N1E9 :=
    Int.mul_le_mul_of_nonneg_left ranged.maxNsec.le sec
  unfold Steady value
  omega

/-- The rest of a steady delay after the greatest interval. -/
theorem Ranged.rest_steady (ranged : Ranged timer) (steady : timer.Steady time)
    (long : 0 < time.sec ∨ time.sec = 0 ∧ timer.maxInterval.nsec ≤ time.nsec) :
    0 ≤ (timeSub time timer.maxInterval).sec ∧
      0 ≤ (timeSub time timer.maxInterval).value ∧
      timer.Steady (timeSub time timer.maxInterval) := by
  have minNsec := ranged.minNsec
  have less := ranged.less
  have maxValue := ranged.maxValue
  have difference : (timeSub time timer.maxInterval).value =
      time.value - timer.maxInterval.nsec := by rw [timeSub_value, maxValue]
  rw [difference]
  by_cases carry : timer.maxInterval.nsec ≤ time.nsec
  · have isRest : timeSub time timer.maxInterval =
        ⟨time.sec, time.nsec - timer.maxInterval.nsec⟩ := by
      unfold timeSub
      rw [if_pos carry, ranged.maxSec, Int.sub_zero]
    have sec : 0 ≤ time.sec := by omega
    have scaled := Int.mul_nonneg sec (by decide : 0 ≤ N1E9)
    rw [isRest]
    refine ⟨sec, ?_, ranged.steady sec (Int.sub_nonneg_of_le carry)⟩
    unfold value
    omega
  · have sec : 0 < time.sec := by omega
    have isRest : timeSub time timer.maxInterval =
        ⟨time.sec - 1, time.nsec + (N1E9 - timer.maxInterval.nsec)⟩ := by
      unfold timeSub
      rw [if_neg carry, ranged.maxSec, Int.zero_add]
    have atLeast := steady.max_le sec (by omega)
    refine ⟨?_, by omega, ?_⟩
    · rw [isRest]
      exact Int.sub_nonneg_of_le sec
    · unfold Steady at steady ⊢
      rw [difference, isRest, Int.sub_mul, Int.one_mul]
      exact Int.sub_le_sub_right steady _

/-- The rest of a steady delay. -/
theorem Loading.rest_facts (loading : Loading timer) (steady : timer.Steady timer.delay) :
    timer.rest.value = timer.delay.value - timer.lastLoad.value ∧ 0 ≤ timer.rest.sec ∧
      0 ≤ timer.rest.value ∧ timer.Steady timer.rest := by
  refine ⟨timeSub_value, ?_⟩
  unfold rest
  rcases loading.cases with ⟨sec, isMax⟩ | ⟨sec, longer, isMax⟩ | ⟨sec, short, isDelay⟩
  · rw [isMax]
    exact loading.ranged.rest_steady steady (.inl sec)
  · rw [isMax]
    exact loading.ranged.rest_steady steady (.inr ⟨sec, longer.le⟩)
  · have none : timeSub timer.delay timer.delay = ⟨0, 0⟩ := by
      unfold timeSub
      rw [if_pos le_rfl, Int.sub_self, Int.sub_self]
    rw [isDelay, none]
    exact ⟨le_rfl, le_rfl, loading.ranged.steady le_rfl le_rfl⟩

theorem Loading.ended_iff (loading : Loading timer) (steady : timer.Steady timer.delay) :
    timeCmp timer.rest timer.threshold ≤ 0 ↔ timer.rest.value ≤ timer.threshold.value := by
  obtain ⟨-, sec, -, steadyRest⟩ := loading.rest_facts steady
  have minNsec := loading.ranged.minNsec
  have less := loading.ranged.less
  rw [timeCmp_le_zero, loading.threshold_value, loading.threshold]
  dsimp only
  by_cases below : timer.rest.sec = 0
  · rw [value_of_sec below]
    omega
  · have long := steadyRest.max_le (by omega) (by omega)
    omega

/-- An interrupt that does not end the delay leaves a state of the same kind. -/
theorem Tuned.loading_goneOn (tuned : Tuned timer) (accepts : timer.Accepts timer.nextLoad) :
    Loading timer.goneOn := by
  have less := tuned.ranged.less
  have maxSec := tuned.ranged.maxSec
  refine ⟨⟨⟨tuned.ranged.minSec, maxSec, tuned.ranged.minNsec, less, tuned.ranged.maxNsec⟩,
    tuned.threshold⟩, ?_, ?_, rfl⟩
  · unfold goneOn
    dsimp only
    unfold nextLoad at accepts
    split_ifs at accepts with shorter
    · exact .inr ⟨accepts.1, accepts.2.2⟩
    · rw [timeCmp_neg] at shorter
      omega
  · unfold goneOn nextLoad
    dsimp only
    split_ifs with shorter longer longer
    · rw [timeCmp_pos, timeCmp_neg] at longer
      rw [timeCmp_neg] at shorter
      omega
    · rfl
    · rfl
    · exact (timeCmp_eq_zero.mp (by omega)).symm

/-- The device accepts what is loaded for the rest of a delay that fits. -/
theorem Loading.accepts_nextLoad (loading : Loading timer) (steady : timer.Steady timer.delay)
    (fits : timer.Fits timer.delay.value)
    (goesOn : timer.threshold.value < timer.rest.value) :
    timer.Accepts timer.nextLoad ∧ timer.Fits timer.rest.value := by
  obtain ⟨restValue, sec, nonneg, steadyRest⟩ := loading.rest_facts steady
  have minNsec := loading.ranged.minNsec
  have less := loading.ranged.less
  have maxSec := loading.ranged.maxSec
  rw [loading.threshold_value] at goesOn
  have isMax : timer.lastLoad.value = timer.maxInterval.nsec := by
    rcases loading.lastLoad_value with ⟨-, isMax⟩ | ⟨isDelay, -⟩
    · exact isMax
    · rw [isDelay] at restValue
      omega
  rw [isMax] at restValue
  have sameMod : timer.rest.value % timer.maxInterval.nsec =
      timer.delay.value % timer.maxInterval.nsec := by
    rw [restValue]
    exact Int.sub_emod_right ..
  have mods := fits.resolve_left (by omega)
  rw [← sameMod] at mods
  refine ⟨?_, .inr mods⟩
  unfold nextLoad
  split_ifs with shorter
  · rw [timeCmp_neg] at shorter
    have noSec : timer.rest.sec = 0 := by omega
    have isNsec := value_of_sec noSec
    rw [Int.emod_eq_of_lt nonneg (by omega)] at mods
    exact ⟨noSec, by omega, by omega⟩
  · exact loading.ranged.accepts_max

end Steps

section Chains

/-- A sequence with another first term. -/
def cons {α : Type} (first : α) (rest : Nat → α) : Nat → α
  | 0 => first
  | n + 1 => rest n

theorem loadedSum_cons (timer : ArchTimer) (states : Nat → ArchTimer) (n : Nat) :
    loadedSum (cons timer states) (n + 1) = timer.loaded.value + loadedSum states n := by
  induction n with
  | zero => exact Int.add_comm ..
  | succ n ih =>
      unfold loadedSum
      rw [ih, Int.add_assoc]
      rfl

/-- The timer when it counts no delay of the kernel. -/
structure Spare (timer : ArchTimer) : Prop extends Tuned timer where
  delay : timer.delay = timer.maxInterval
  lastLoad : timer.lastLoad = timer.maxInterval
  loaded : timer.loaded = timer.maxInterval
  alarmHandler : timer.alarmHandler = 0

theorem Tuned.spare_ended (tuned : Tuned timer) : Spare timer.ended :=
  ⟨⟨⟨tuned.ranged.minSec, tuned.ranged.maxSec, tuned.ranged.minNsec, tuned.ranged.less,
    tuned.ranged.maxNsec⟩, tuned.threshold⟩, rfl, rfl, rfl, rfl⟩

theorem Spare.handler (spare : Spare timer) :
    timer.archTimerHandler = some (0, timer.ended) := by
  have minNsec := spare.ranged.minNsec
  have none : timer.rest = ⟨0, 0⟩ := by
    unfold rest timeSub
    rw [spare.delay, spare.lastLoad, if_pos le_rfl, Int.sub_self, Int.sub_self]
  rw [archTimerHandler_eq spare.ranged, spare.alarmHandler, none, if_pos]
  rw [timeCmp_le_zero, spare.threshold]
  dsimp only
  omega

theorem Tuned.spare_iterate (tuned : Tuned timer) (n : Nat) : Spare (ended^[n + 1] timer) := by
  induction n with
  | zero => exact tuned.spare_ended
  | succ n ih =>
      rw [Function.iterate_succ_apply']
      exact ih.toTuned.spare_ended

theorem Loading.lastLoad_nonneg (loading : Loading timer) : 0 ≤ timer.lastLoad.value := by
  have minNsec := loading.ranged.minNsec
  have less := loading.ranged.less
  have maxValue := loading.ranged.maxValue
  rcases loading.cases with ⟨-, isMax⟩ | ⟨-, -, isMax⟩ | ⟨sec, -, isDelay⟩
  · rw [isMax]
    omega
  · rw [isMax]
    omega
  · have long := loading.long
    rw [isDelay, value_of_sec sec]
    omega

/-- The interrupt that ends the delay, and those after it. -/
theorem Loading.countsDown_ended (loading : Loading timer)
    (steady : timer.Steady timer.delay)
    (expired : timer.rest.value ≤ timer.threshold.value) :
    CountsDown timer timer.delay.value timer.alarmHandler (fun n => ended^[n] timer)
      (fun n => if n = 0 then timer.alarmHandler else 0) 0 := by
  obtain ⟨restValue, -, restNonneg, -⟩ := loading.rest_facts steady
  have loadNonneg := loading.lastLoad_nonneg
  have minNsec := loading.ranged.minNsec
  have less := loading.ranged.less
  have spare := loading.toTuned.spare_iterate
  have maxValue (n : Nat) : 0 ≤ (ended^[n + 1] timer).maxInterval.value := by
    have minNsec' := (spare n).ranged.minNsec
    have less' := (spare n).ranged.less
    rw [(spare n).ranged.maxValue]
    omega
  have firstSum : loadedSum (fun n => ended^[n] timer) 1 = timer.lastLoad.value := by
    unfold loadedSum loadedSum
    rw [Int.zero_add, ← loading.loaded]
    rfl
  constructor
  · rfl
  · rintro (_ | n)
    · change timer.archTimerHandler = some (timer.alarmHandler, timer.ended)
      rw [archTimerHandler_eq loading.ranged, if_pos ((loading.ended_iff steady).mpr expired)]
    · change (ended^[n + 1] timer).archTimerHandler = some (0, ended^[n + 1 + 1] timer)
      rw [(spare n).handler, ← Function.iterate_succ_apply' ended]
  · intro n
    rfl
  · intro n positive atMost
    omega
  · rw [Nat.zero_add, firstSum]
    omega
  · intro n atMost
    have isFirst : n = 0 ∨ n = 1 := by omega
    rcases isFirst with rfl | rfl
    · change (0 : Int) ≤ _
      omega
    · rw [firstSum]
      omega
  · rintro (_ | n)
    · change 0 ≤ timer.delay.value
      omega
    · rw [(spare n).delay]
      exact maxValue n
  · rintro (_ | n)
    · change timer.lastLoad.value ≤ timer.delay.value
      omega
    · rw [(spare n).delay, (spare n).lastLoad]
  · intro n
    induction n with
    | zero => exact (Int.add_zero _).symm
    | succ n ih =>
        have isLoaded : (ended^[n] timer).loaded = (ended^[n] timer).lastLoad := by
          rcases n with _ | n
          · exact loading.loaded
          · rw [(spare n).loaded, (spare n).lastLoad]
        change (ended^[n] timer).clock.value = _ at ih
        change (ended^[n + 1] timer).clock.value = _
        rw [Function.iterate_succ_apply']
        unfold loadedSum
        rw [← Int.add_assoc, ← ih, isLoaded]
        exact timeAdd_value

/-- An interrupt that does not end the delay, and those after it. -/
theorem Loading.countsDown_goneOn (loading : Loading timer)
    (steady : timer.Steady timer.delay) (accepts : timer.Accepts timer.nextLoad)
    (goesOn : timer.threshold.value < timer.rest.value) {states : Nat → ArchTimer}
    {called : Nat → Ptr} {last : Nat}
    (after : CountsDown timer.goneOn timer.rest.value timer.alarmHandler states called last) :
    CountsDown timer timer.delay.value timer.alarmHandler (cons timer states) (cons 0 called)
      (last + 1) := by
  obtain ⟨restValue, -, restNonneg, -⟩ := loading.rest_facts steady
  have loadNonneg := loading.lastLoad_nonneg
  have isLoaded : timer.loaded.value = timer.lastLoad.value := congrArg value loading.loaded
  constructor
  · rfl
  · rintro (_ | n)
    · change timer.archTimerHandler = some (0, states 0)
      rw [after.start, archTimerHandler_eq loading.ranged, if_neg, if_pos accepts]
      rw [loading.ended_iff steady]
      omega
    · exact after.runs n
  · rintro (_ | n)
    · rfl
    · change called n = _
      rw [after.once n]
      simp
  · rintro (_ | _ | n) positive atMost
    · omega
    · rw [loadedSum_cons]
      unfold loadedSum
      omega
    · have waits := after.waits (n + 1) (Nat.succ_pos n) (by omega)
      rw [loadedSum_cons]
      change timer.threshold.value < _ at waits
      omega
  · have expired := after.expired
    change _ ≤ timer.threshold.value at expired
    rw [loadedSum_cons]
    omega
  · rintro (_ | n) atMost
    · change (0 : Int) ≤ _
      omega
    · have within := after.within n (by omega)
      rw [loadedSum_cons]
      omega
  · rintro (_ | n)
    · change 0 ≤ timer.delay.value
      omega
    · exact after.delay_nonneg n
  · rintro (_ | n)
    · change timer.lastLoad.value ≤ timer.delay.value
      omega
    · exact after.lastLoad_le n
  · rintro (_ | n)
    · exact (Int.add_zero _).symm
    · have clock := after.clock n
      unfold goneOn at clock
      dsimp only at clock
      rw [timeAdd_value] at clock
      change (states n).clock.value = _
      rw [loadedSum_cons]
      omega

/-- A steady delay that fits is counted down. -/
theorem Loading.countsDown (loading : Loading timer) (steady : timer.Steady timer.delay)
    (fits : timer.Fits timer.delay.value) :
    ∃ states called last,
      CountsDown timer timer.delay.value timer.alarmHandler states called last := by
  induction isLength : timer.delay.value.toNat using Nat.strong_induction_on
    generalizing timer with
  | h length ih =>
      obtain ⟨restValue, -, restNonneg, steadyRest⟩ := loading.rest_facts steady
      have minNsec := loading.ranged.minNsec
      have less := loading.ranged.less
      by_cases expired : timer.rest.value ≤ timer.threshold.value
      · exact ⟨_, _, _, loading.countsDown_ended steady expired⟩
      · have goesOn := not_le.mp expired
        obtain ⟨accepts, fitsRest⟩ := loading.accepts_nextLoad steady fits goesOn
        have threshold := loading.threshold_value
        have isMax : timer.lastLoad.value = timer.maxInterval.nsec := by
          rcases loading.lastLoad_value with ⟨-, isMax⟩ | ⟨isDelay, -⟩
          · exact isMax
          · rw [isDelay] at restValue
            omega
        have shorter : timer.goneOn.delay.value.toNat < length := by
          change timer.rest.value.toNat < length
          omega
        obtain ⟨states, called, last, after⟩ :=
          ih _ shorter (loading.toTuned.loading_goneOn accepts) steadyRest fitsRest rfl
        exact ⟨_, _, _, loading.countsDown_goneOn steady accepts goesOn after⟩

theorem goneOn_of_runs (ranged : Ranged timer) {calledFunc : Ptr}
    (result : timer.archTimerHandler = some (calledFunc, timer'))
    (goesOn : ¬ timeCmp timer.rest timer.threshold ≤ 0) :
    timer.Accepts timer.nextLoad ∧ timer' = timer.goneOn := by
  rw [archTimerHandler_eq ranged, if_neg goesOn] at result
  split_ifs at result with accepts
  exact ⟨accepts, (Prod.mk.inj (Option.some.inj result)).2.symm⟩

/-- A delay that is never less than what is loaded for it is steady. -/
theorem Loading.steady_of_runs (loading : Loading timer) (states : Nat → ArchTimer)
    (called : Nat → Ptr) (start : states 0 = timer)
    (runs : ∀ i, (states i).archTimerHandler = some (called i, states (i + 1)))
    (lastLoad_le : ∀ i, (states i).lastLoad.value ≤ (states i).delay.value) :
    timer.Steady timer.delay := by
  induction isSec : timer.delay.sec.toNat generalizing timer states called with
  | zero =>
      have sec : timer.delay.sec = 0 := by
        have long := loading.long
        omega
      have minNsec := loading.ranged.minNsec
      have long := loading.long
      apply loading.ranged.steady <;> omega
  | succ sec ih =>
      have positive : 0 < timer.delay.sec := by omega
      have isMax : timer.lastLoad = timer.maxInterval := by
        rcases loading.cases with ⟨-, isMax⟩ | ⟨noSec, -⟩ | ⟨noSec, -⟩
        · exact isMax
        · omega
        · omega
      have maxValue := loading.ranged.maxValue
      have enough := lastLoad_le 0
      rw [start, isMax, maxValue] at enough
      by_cases carry : timer.maxInterval.nsec ≤ timer.delay.nsec
      · have minNsec := loading.ranged.minNsec
        have less := loading.ranged.less
        apply loading.ranged.steady <;> omega
      · have isRest : timer.rest = ⟨timer.delay.sec - 1,
            timer.delay.nsec + (N1E9 - timer.maxInterval.nsec)⟩ := by
          unfold rest timeSub
          rw [isMax, if_neg carry, loading.ranged.maxSec, Int.zero_add]
        have restValue : timer.rest.value = timer.delay.value - timer.maxInterval.nsec := by
          unfold rest
          rw [timeSub_value, isMax, maxValue]
        suffices steadyRest : timer.Steady timer.rest by
          unfold Steady at steadyRest ⊢
          rw [restValue, isRest] at steadyRest
          dsimp only at steadyRest
          rw [Int.sub_mul, Int.one_mul] at steadyRest
          omega
        by_cases last : timer.delay.sec = 1
        · unfold Steady
          rw [restValue, isRest, last, Int.sub_self, Int.zero_mul]
          omega
        · have goesOn : ¬ timeCmp timer.rest timer.threshold ≤ 0 := by
            rw [timeCmp_le_zero, loading.threshold, isRest]
            dsimp only
            omega
          have first := runs 0
          rw [start] at first
          obtain ⟨accepts, isNext⟩ := goneOn_of_runs loading.ranged first goesOn
          have isSec' : timer.goneOn.delay.sec.toNat = sec := by
            change timer.rest.sec.toNat = sec
            rw [isRest]
            dsimp only
            omega
          exact ih (loading.toTuned.loading_goneOn accepts) (fun i => states (i + 1))
            (fun i => called (i + 1)) isNext (fun i => runs (i + 1))
            (fun i => lastLoad_le (i + 1)) isSec'

/-- A steady delay that is counted down fits. -/
theorem Loading.fits_of_runs (loading : Loading timer) (states : Nat → ArchTimer)
    (called : Nat → Ptr) (start : states 0 = timer)
    (runs : ∀ i, (states i).archTimerHandler = some (called i, states (i + 1)))
    (steady : timer.Steady timer.delay) : timer.Fits timer.delay.value := by
  induction isLength : timer.delay.value.toNat using Nat.strong_induction_on
    generalizing timer states called with
  | h length ih =>
      obtain ⟨restValue, restSec, restNonneg, steadyRest⟩ := loading.rest_facts steady
      have minNsec := loading.ranged.minNsec
      have less := loading.ranged.less
      have threshold := loading.threshold_value
      rcases loading.lastLoad_value with ⟨-, isMax⟩ | ⟨-, short⟩
      · rw [isMax] at restValue
        have sameMod : timer.rest.value % timer.maxInterval.nsec =
            timer.delay.value % timer.maxInterval.nsec := by
          rw [restValue]
          exact Int.sub_emod_right ..
        unfold Fits
        rw [← sameMod]
        by_cases expired : timer.rest.value ≤ timer.threshold.value
        · rw [Int.emod_eq_of_lt restNonneg (by omega)]
          omega
        · have first := runs 0
          rw [start] at first
          obtain ⟨accepts, isNext⟩ := goneOn_of_runs loading.ranged first
            (by rwa [loading.ended_iff steady])
          have fits := ih timer.rest.value.toNat (by omega)
            (loading.toTuned.loading_goneOn accepts) (fun i => states (i + 1))
            (fun i => called (i + 1)) isNext (fun i => runs (i + 1)) steadyRest rfl
          rcases fits with isShort | fits
          · change timer.rest.value ≤ timer.maxInterval.nsec at isShort
            rcases Int.lt_or_eq_of_le isShort with shorter | same
            · have noSec : timer.rest.sec = 0 := by
                by_contra some
                have atLeast := steadyRest.max_le (by omega) (by omega)
                omega
              have isNsec := value_of_sec noSec
              unfold nextLoad at accepts
              rw [if_pos (timeCmp_neg.mpr (by have := loading.ranged.maxSec; omega))] at accepts
              have least := accepts.2.2
              rw [Int.emod_eq_of_lt restNonneg shorter]
              omega
            · rw [same, Int.emod_self]
              omega
          · exact .inr fits
      · exact .inl short

end Chains

section Sets

theorem Tuned.same (tuned : Tuned timer) (minInterval : timer'.minInterval = timer.minInterval)
    (maxInterval : timer'.maxInterval = timer.maxInterval)
    (threshold : timer'.threshold = timer.threshold) : Tuned timer' := by
  obtain ⟨⟨minSec, maxSec, minNsec, less, maxNsec⟩, isThreshold⟩ := tuned
  rw [← minInterval] at minSec minNsec less isThreshold
  rw [← maxInterval] at maxSec less maxNsec
  rw [← threshold] at isThreshold
  exact ⟨⟨minSec, maxSec, minNsec, less, maxNsec⟩, isThreshold⟩

theorem eq_of_setInterval {loading : ArchTimer}
    (result : loading.setInterval time = some timer') :
    timer' = { loading with loaded := time } := by
  unfold setInterval at result
  split_ifs at result
  exact (Option.some.inj result).symm

theorem archTimerInit_tuned (ranged : Ranged timer)
    (result : timer.archTimerInit = some timer') : Tuned timer' := by
  obtain ⟨started, isStarted, counting, -⟩ := archTimerInit_counting ranged
  rw [isStarted] at result
  rw [← Option.some.inj result]
  exact ⟨counting.ranged, counting.threshold⟩

/-- Each call keeps the intervals and the threshold. -/
theorem Tuned.call (tuned : Tuned timer) {next : Call}
    (result : timer.call next = some timer') : Tuned timer' := by
  cases next with
  | init => exact archTimerInit_tuned tuned.ranged result
  | set time alarmFunc remainder =>
      rw [eq_of_setInterval result]
      exact tuned.same rfl rfl rfl
  | handler =>
      change timer.archTimerHandler.map Prod.snd = some timer' at result
      rw [archTimerHandler_eq tuned.ranged] at result
      split_ifs at result
      · rw [← Option.some.inj result]
        exact tuned.same rfl rfl rfl
      · rw [← Option.some.inj result]
        exact tuned.same rfl rfl rfl
      · cases result

theorem Tuned.calls (tuned : Tuned timer) {sequence : List Call}
    (result : timer.calls sequence = some timer') : Tuned timer' := by
  induction sequence generalizing timer with
  | nil => exact Option.some.inj result ▸ tuned
  | cons first others ih =>
      obtain ⟨middle, isMiddle, results⟩ := Option.bind_eq_some_iff.mp result
      exact ih (tuned.call isMiddle) results

theorem tuned_of_calls (ranged : Ranged device) {sequence : List Call}
    (reached : device.calls (.init :: sequence) = some timer) : Tuned timer := by
  obtain ⟨started, isStarted, results⟩ := Option.bind_eq_some_iff.mp reached
  exact (archTimerInit_tuned ranged isStarted).calls results

/-- `arch_timer_set` never halts the system, and leaves the delay to count down. -/
theorem Tuned.archTimerSet (tuned : Tuned timer) (time : Time) (alarmFunc : Ptr)
    (remainder : Time) :
    ∃ waiting, timer.archTimerSet time alarmFunc remainder = some waiting ∧ Loading waiting ∧
      waiting.delay = timer.delayFor time ∧ waiting.alarmHandler = alarmFunc ∧
      waiting.minInterval = timer.minInterval ∧ waiting.maxInterval = timer.maxInterval := by
  have minSec := tuned.ranged.minSec
  have maxSec := tuned.ranged.maxSec
  have long : ¬ timeCmp (timer.delayFor time) timer.minInterval < 0 := by
    unfold delayFor
    split_ifs with short
    · rw [timeCmp_neg]
      omega
    · exact short
  rw [timeCmp_neg] at long
  have accepts : timer.Accepts (if 0 < timeCmp (timer.delayFor time) timer.maxInterval
      then timer.maxInterval else timer.delayFor time) := by
    split_ifs with longer
    · exact tuned.ranged.accepts_max
    · rw [timeCmp_pos, timeCmp_neg] at longer
      exact ⟨by omega, by omega, by omega⟩
  refine ⟨_, setInterval_eq accepts rfl rfl, ⟨tuned.same rfl rfl rfl, ?_, rfl, rfl⟩, rfl, rfl,
    rfl, rfl⟩
  change 0 < (timer.delayFor time).sec ∨ (timer.delayFor time).sec = 0 ∧
    timer.minInterval.nsec ≤ (timer.delayFor time).nsec
  omega

/-- A delay is counted down, whether `arch_timer_set` was given it or takes the least interval
for it, if and only if it is steady and fits. -/
theorem Loading.countsDown_iff (loading : Loading timer) :
    (∃ states called last,
        CountsDown timer timer.delay.value timer.alarmHandler states called last) ↔
      timer.Steady timer.delay ∧ timer.Fits timer.delay.value := by
  constructor
  · rintro ⟨states, called, last, counts⟩
    have steady := loading.steady_of_runs states called counts.start counts.runs
      counts.lastLoad_le
    exact ⟨steady, loading.fits_of_runs states called counts.start counts.runs steady⟩
  · rintro ⟨steady, fits⟩
    exact loading.countsDown steady fits

/-- The delay that is set is counted down, in pieces that the device accepts and with one call
of the function, if and only if it is below the least interval, or it is steady and fits. -/
theorem delay_counted_down (device timer : ArchTimer) (ranged : Ranged device)
    (sequence : List Call) (reached : device.calls (.init :: sequence) = some timer)
    (time remainder : Time) (alarmFunc : Ptr) :
    (∃ waiting states called last,
        timer.archTimerSet time alarmFunc remainder = some waiting ∧
          CountsDown waiting (timer.delayFor time).value alarmFunc states called last) ↔
      timeCmp time timer.minInterval < 0 ∨ timer.Steady time ∧ timer.Fits time.value := by
  have tuned := tuned_of_calls ranged reached
  obtain ⟨waiting, isSet, loading, delay, isFunc, sameMin, sameMax⟩ :=
    tuned.archTimerSet time alarmFunc remainder
  have counted : (∃ waiting states called last,
      timer.archTimerSet time alarmFunc remainder = some waiting ∧
        CountsDown waiting (timer.delayFor time).value alarmFunc states called last) ↔
      timer.Steady (timer.delayFor time) ∧ timer.Fits (timer.delayFor time).value := by
    have sameSteady : waiting.Steady = timer.Steady := by
      unfold Steady
      rw [sameMax]
    rw [← sameSteady, ← fits_same sameMin sameMax, ← delay, ← isFunc,
      ← loading.countsDown_iff]
    constructor
    · rintro ⟨other, states, called, last, isOther, counts⟩
      rw [isFunc, isSet] at isOther
      exact ⟨states, called, last, Option.some.inj isOther ▸ counts⟩
    · rintro ⟨states, called, last, counts⟩
      exact ⟨waiting, states, called, last, isFunc ▸ isSet, counts⟩
  rw [counted]
  unfold delayFor
  by_cases short : timeCmp time timer.minInterval < 0
  · rw [if_pos short]
    have minNsec := tuned.ranged.minNsec
    have less := tuned.ranged.less
    have minSec := tuned.ranged.minSec
    have steady := tuned.ranged.steady (minSec ▸ le_rfl) minNsec
    refine iff_of_true ⟨steady, .inl ?_⟩ (.inl short)
    rw [value_of_sec minSec]
    exact less.le
  · rw [if_neg short]
    exact (or_iff_right short).symm

/-- A delay of the greatest interval and twice the least one is counted down. -/
theorem delay_counted_down_i8253 :
    ∃ timer, i8253.calls [.init] = some timer ∧
      ∃ waiting states called last,
        timer.archTimerSet ⟨0, 54924655 + 105600⟩ 7 ⟨0, 0⟩ = some waiting ∧
          CountsDown waiting (timer.delayFor ⟨0, 54924655 + 105600⟩).value 7 states called
            last := by
  obtain ⟨timer, isTimer, -, -, sameMin, sameMax⟩ := archTimerInit_counting i8253_ranged
  have reached : i8253.calls [.init] = some timer := calls_cons isTimer
  refine ⟨timer, reached, (delay_counted_down i8253 timer i8253_ranged [] reached _ _ _).mpr
    (.inr ⟨?_, ?_⟩)⟩
  · unfold Steady
    rw [sameMax]
    decide
  · rw [fits_same sameMin sameMax]
    exact .inr (.inr (by decide))

/-- A delay of the greatest interval and forty microseconds is not counted down: the device does
not accept the rest of it. -/
theorem delay_not_counted_down :
    ¬ ∀ (device timer : ArchTimer), Ranged device → ∀ sequence : List Call,
      device.calls (.init :: sequence) = some timer →
        ∀ (time remainder : Time) (alarmFunc : Ptr), ∃ waiting states called last,
          timer.archTimerSet time alarmFunc remainder = some waiting ∧
            CountsDown waiting (timer.delayFor time).value alarmFunc states called last := by
  intro all
  obtain ⟨timer, isTimer, -⟩ := archTimerInit_counting i8253_ranged
  have isStarted : i8253.calls [.init] = some timer := calls_cons isTimer
  obtain ⟨waiting, states, called, last, isSet, counts⟩ :=
    all i8253 timer i8253_ranged [] isStarted ⟨0, 54924655 + 40000⟩ ⟨0, 0⟩ 7
  have halts : i8253.calls [.init, .set ⟨0, 54924655 + 40000⟩ 7 ⟨0, 0⟩, .handler] = none := by
    decide
  have begun : i8253.call .init = some timer := isTimer
  have wasSet : timer.call (.set ⟨0, 54924655 + 40000⟩ 7 ⟨0, 0⟩) = some waiting := isSet
  have first := counts.runs 0
  rw [counts.start] at first
  have next : waiting.call .handler = some (states 1) := congrArg (Option.map Prod.snd) first
  rw [calls_cons begun, calls_cons wasSet, calls_cons next] at halts
  cases halts

end Sets

end ArchTimer

end Oseer
