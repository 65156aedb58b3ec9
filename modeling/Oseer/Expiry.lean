import Oseer.AlarmList
import Oseer.AlarmRecord
import Oseer.Library.Agenda
import Oseer.ProgramRules

/-!
# The expiration of alarms

The loop of `k_schedule_alarms` serves an agenda: the active alarms are its items, the
expiration times their dates, and a periodic alarm comes again one period later.  Where the
functions that alarms call leave the alarms alone and all periods are positive, the loop ends,
after a number of rounds that does not depend on these functions.
-/

namespace Oseer

open LinkedRing Results

variable {W : Type}

section Items

/-- The flag `ALARM_PERIODIC` is set. -/
def KAlarm.Periodic (kalarm : KAlarm) : Prop := kalarm.alarm.flags &&& ALARM_PERIODIC ≠ 0

instance (kalarm : KAlarm) : Decidable kalarm.Periodic := inferInstanceAs (Decidable (_ ≠ _))

/-- What `k_schedule_alarms` makes of an alarm that expires. -/
def KAlarm.rearmed (kalarm : KAlarm) : KAlarm :=
  if kalarm.Periodic then { kalarm with alarm := { kalarm.alarm with
    expTime := Time.timeAdd kalarm.alarm.expTime kalarm.alarm.period } }
  else { kalarm with active := false }

/-- The time at which an alarm expires, if it exists and is active. -/
def KAlarm.date (kalarm : KAlarm) : Option Time :=
  if kalarm.magic = ALARM_MAGIC ∧ kalarm.active = true then some kalarm.alarm.expTime else none

/-- `exp_time + k * period`. -/
def KAlarm.expiry (kalarm : KAlarm) (k : Nat) : Time :=
  (fun time => Time.timeAdd time kalarm.alarm.period)^[k] kalarm.alarm.expTime

/-- A bound on how often an alarm can expire until the time. -/
def KAlarm.rank (refTime : Time) (kalarm : KAlarm) : Nat :=
  if kalarm.Periodic then Time.rank kalarm.alarm.period refTime kalarm.alarm.expTime
  else if kalarm.active then 1 else 0

variable {kalarm : KAlarm} {time refTime : Time}

theorem KAlarm.mem_date : time ∈ kalarm.date ↔
    (kalarm.magic = ALARM_MAGIC ∧ kalarm.active = true) ∧ kalarm.alarm.expTime = time := by
  unfold KAlarm.date
  split_ifs with armed <;> simp [armed]

theorem KAlarm.rearmed_periodic (periodic : kalarm.Periodic) :
    kalarm.rearmed = { kalarm with alarm := { kalarm.alarm with
      expTime := Time.timeAdd kalarm.alarm.expTime kalarm.alarm.period } } :=
  if_pos periodic

theorem KAlarm.rearmed_once (once : ¬ kalarm.Periodic) :
    kalarm.rearmed = { kalarm with active := false } :=
  if_neg once

theorem KAlarm.rearmed_iterate (periodic : kalarm.Periodic) (k : Nat) :
    KAlarm.rearmed^[k] kalarm =
      { kalarm with alarm := { kalarm.alarm with expTime := kalarm.expiry k } } := by
  induction k with
  | zero => rfl
  | succ k ih =>
      have still : ({ kalarm with alarm := { kalarm.alarm with
          expTime := kalarm.expiry k } } : KAlarm).Periodic := periodic
      rw [Function.iterate_succ_apply', ih, KAlarm.rearmed_periodic still]
      unfold KAlarm.expiry
      rw [Function.iterate_succ_apply']

theorem KAlarm.rearmed_date_once (once : ¬ kalarm.Periodic) : kalarm.rearmed.date = none := by
  rw [KAlarm.rearmed_once once]
  simp [KAlarm.date]

/-- An alarm that is active and periodic has a positive period. -/
def KAlarm.Forward (kalarm : KAlarm) : Prop :=
  kalarm.date ≠ none → kalarm.Periodic → Time.Positive kalarm.alarm.period

theorem KAlarm.advances : Agenda.Advances KAlarm.Forward KAlarm.date KAlarm.rearmed where
  good_next := by
    intro kalarm forward
    by_cases periodic : kalarm.Periodic
    · rw [KAlarm.rearmed_periodic periodic]
      intro dated
      apply forward
      unfold KAlarm.date at dated ⊢
      split_ifs at dated ⊢ <;> simp_all
    · intro dated
      exact absurd (KAlarm.rearmed_date_once periodic) dated
  later := by
    intro kalarm forward t isDate u isNext
    by_cases periodic : kalarm.Periodic
    · have dated : kalarm.date ≠ none := by
        rw [Option.mem_def.mp isDate]
        exact Option.some_ne_none t
      rw [KAlarm.rearmed_periodic periodic, KAlarm.mem_date] at isNext
      obtain ⟨-, rfl⟩ := KAlarm.mem_date.mp isDate
      rw [← isNext.2]
      exact (Time.lt_timeAdd (forward dated periodic) kalarm.alarm.expTime).le
    · rw [KAlarm.rearmed_date_once periodic] at isNext
      cases isNext

/-- An alarm that expires has less often to expire. -/
theorem KAlarm.rank_lt (forward : kalarm.Forward)
    (due : Agenda.IsDue KAlarm.date refTime kalarm) :
    kalarm.rearmed.rank refTime < kalarm.rank refTime := by
  obtain ⟨t, isDate, reached⟩ := due
  obtain ⟨armed, rfl⟩ := KAlarm.mem_date.mp isDate
  by_cases periodic : kalarm.Periodic
  · have dated : kalarm.date ≠ none := by
      rw [Option.mem_def.mp isDate]
      exact Option.some_ne_none _
    have still : kalarm.rearmed.Periodic := by
      rw [KAlarm.rearmed_periodic periodic]
      exact periodic
    unfold KAlarm.rank
    rw [if_pos still, if_pos periodic, KAlarm.rearmed_periodic periodic]
    exact Time.rank_lt (forward dated periodic) reached
  · have still : ¬ kalarm.rearmed.Periodic := by
      rw [KAlarm.rearmed_once periodic]
      exact periodic
    unfold KAlarm.rank
    rw [if_neg still, if_neg periodic, if_pos armed.2, KAlarm.rearmed_once periodic]
    exact Nat.one_pos

end Items

section Actions

/-- The program ends, whatever the alarms are and whatever `k_alarm_set` does, and leaves the
alarms alone. -/
def Prog.Quiet (P : W → Prop) (prog : Prog W Unit) : Prop :=
  ∀ world, P world →
    (∃ fault, fault ≠ .endless ∧ ∀ (call : AlarmCall W) (alarms : Alarms W),
      alarms.world = world → prog.run call alarms = .error fault) ∨
    ∃ world', P world' ∧ ∀ (call : AlarmCall W) (alarms : Alarms W),
      alarms.world = world → prog.run call alarms = .ok ((), { alarms with world := world' })

/-- The operations that `k_schedule_alarms` uses end and keep a property of the memory. -/
structure Host.Calm (host : Host W) (P : W → Prop) : Prop where
  getTime : ∀ world, P world → P (host.getTime world).2
  createThread : ∀ kalarm world, P world →
    (∃ fault, fault ≠ .endless ∧ host.createThread kalarm world = .error fault) ∨
      ∃ world', P world' ∧ host.createThread kalarm world = .ok world'
  releaseAll : ∀ id world, P world → P (host.releaseAll id world).2

/-- The kernel is stopped by the creation of a thread for an alarm, or by a function that an
alarm calls. -/
structure Host.Stops (host : Host W) (fault : Fault) : Prop where
  ends : fault ≠ .endless
  cause : (∃ kalarm world, host.createThread kalarm world = .error fault) ∨
    ∃ action param call alarms, (host.action action param).run call alarms = .error fault

/-- The action of an alarm that is due, if the kernel is to call it, is quiet. -/
def Host.Leaves (host : Host W) (P : W → Prop) (refTime : Time) (kalarm : KAlarm) : Prop :=
  Agenda.IsDue KAlarm.date refTime kalarm → kalarm.thread = 0 → kalarm.alarm.action ≠ 0 →
    (host.action kalarm.alarm.action kalarm.alarm.param).Quiet P

/-- What the action of an alarm does with the rest of the memory. -/
def Host.Acts (host : Host W) (kalarm : KAlarm) (world world' : W) : Prop :=
  if kalarm.alarm.action = 0 then world' = world
  else if kalarm.thread ≠ 0 then host.createThread kalarm world = .ok world'
  else ∀ (call : AlarmCall W) (alarms : Alarms W), alarms.world = world →
    (host.action kalarm.alarm.action kalarm.alarm.param).run call alarms =
      .ok ((), { alarms with world := world' })

variable {host : Host W} {P : W → Prop} {alarms after : Alarms W} {kalarm : KAlarm}
  {first id : Ptr} {live : Set Ptr} {entries rest : List Ptr} {refTime : Time}

/-- An alarm that has been served is quiet still. -/
theorem Host.Leaves.rearmed (leaves : host.Leaves P refTime kalarm) (forward : kalarm.Forward) :
    host.Leaves P refTime kalarm.rearmed := by
  rintro ⟨t, isDate, reached⟩
  by_cases periodic : kalarm.Periodic
  · have same := KAlarm.rearmed_periodic periodic
    have armed := isDate
    rw [same, KAlarm.mem_date] at armed
    have isNow : kalarm.alarm.expTime ∈ kalarm.date := KAlarm.mem_date.mpr ⟨armed.1, rfl⟩
    have later := KAlarm.advances.later kalarm forward _ isNow t isDate
    rw [same]
    exact leaves ⟨_, isNow, later.trans reached⟩
  · rw [KAlarm.rearmed_date_once periodic] at isDate
    cases isDate

/-- The action of an alarm stops the kernel, or changes the rest of the memory only. -/
theorem Host.Calm.runAction (calm : host.Calm P) (memory : P alarms.world)
    (quiet : (alarms.kalarm first).thread = 0 → (alarms.kalarm first).alarm.action ≠ 0 →
      (host.action (alarms.kalarm first).alarm.action
        (alarms.kalarm first).alarm.param).Quiet P) :
    (∃ fault, host.Stops fault ∧ ∀ call, alarms.runAction host call first = .error fault) ∨
      ∃ count world, P world ∧ host.Acts (alarms.kalarm first) alarms.world world ∧
        ∀ call, alarms.runAction host call first =
          .ok (count, { alarms with world := world }) := by
  by_cases hasAction : (alarms.kalarm first).alarm.action ≠ 0
  · by_cases owned : (alarms.kalarm first).thread ≠ 0
    · have runs : ∀ call, alarms.runAction host call first =
          (host.createThread (alarms.kalarm first) alarms.world).map fun world =>
            (1, { alarms with world := world }) :=
        fun _ => (if_pos hasAction).trans (if_pos owned)
      rcases calm.createThread (alarms.kalarm first) alarms.world memory with
        ⟨fault, ends, fails⟩ | ⟨world, kept, creates⟩
      · refine .inl ⟨fault, ⟨ends, .inl ⟨_, _, fails⟩⟩, fun call => ?_⟩
        rw [runs, fails]
        rfl
      · refine .inr ⟨1, world, kept, ?_, fun call => ?_⟩
        · unfold Host.Acts
          rw [if_neg hasAction, if_pos owned]
          exact creates
        · rw [runs, creates]
          rfl
    · have runs : ∀ call, alarms.runAction host call first =
          ((host.action (alarms.kalarm first).alarm.action
            (alarms.kalarm first).alarm.param).run call alarms).map fun result =>
              (0, result.2) :=
        fun _ => (if_pos hasAction).trans (if_neg owned)
      rcases quiet (not_not.mp owned) hasAction alarms.world memory with
        ⟨fault, ends, fails⟩ | ⟨world, kept, acts⟩
      · refine .inl ⟨fault, ⟨ends, .inr ⟨_, _, fun _ _ _ => .error .endless, alarms,
          fails _ alarms rfl⟩⟩, fun call => ?_⟩
        rw [runs, fails call alarms rfl]
        rfl
      · refine .inr ⟨0, world, kept, ?_, fun call => ?_⟩
        · unfold Host.Acts
          rw [if_neg hasAction, if_neg owned]
          exact acts
        · rw [runs, acts call alarms rfl]
          rfl
  · refine .inr ⟨0, alarms.world, memory, ?_, fun _ => if_neg hasAction⟩
    unfold Host.Acts
    rw [if_pos (not_not.mp hasAction)]

end Actions

section Rounds

/-- An alarm that `k_schedule_alarms` serves, with the memory just before. -/
structure Firing (W : Type) where
  id : Ptr
  kalarm : KAlarm
  world : W

/-- What is recorded of it. -/
def Firing.event (firing : Firing W) : AlarmEvent W :=
  .fired firing.id firing.kalarm firing.world

/-- What is served of the agenda. -/
def Firing.entry (firing : Firing W) : Ptr × KAlarm := (firing.id, firing.kalarm)

/-- An alarm acts, and the threads in its queue are released. -/
def Host.Serves (host : Host W) (id : Ptr) (kalarm : KAlarm) (world world' : W) : Prop :=
  ∃ acted, host.Acts kalarm.rearmed world acted ∧ world' = (host.releaseAll id acted).2

/-- The alarms are served one after the other. -/
def Firing.Chain (serves : Ptr → KAlarm → W → W → Prop) : W → List (Firing W) → W → Prop
  | world, [], last => last = world
  | world, firing :: firings, last => firing.world = world ∧
      ∃ served, serves firing.id firing.kalarm world served ∧
        Firing.Chain serves served firings last

/-- What the loop of `k_schedule_alarms` does. -/
structure Alarms.Expires (host : Host W) (refTime : Time) (alarms after : Alarms W)
    (firings : List (Firing W)) : Prop where
  agenda : Agenda.Run KAlarm.date KAlarm.rearmed refTime alarms.kalarm
    (firings.map Firing.entry) after.kalarm
  record : after.events = (firings.map Firing.event).reverse ++ alarms.events
  serves : Firing.Chain host.Serves alarms.world firings after.world

variable {host : Host W} {P : W → Prop} {alarms after : Alarms W} {kalarm : KAlarm}
  {first id : Ptr} {live : Set Ptr} {entries rest : List Ptr} {refTime : Time}
  {firings : List (Firing W)}

theorem KAlarm.rearmed_same (kalarm : KAlarm) : kalarm.rearmed.thread = kalarm.thread ∧
    kalarm.rearmed.alarm.action = kalarm.alarm.action ∧
    kalarm.rearmed.alarm.param = kalarm.alarm.param := by
  unfold KAlarm.rearmed
  split_ifs <;> exact ⟨rfl, rfl, rfl⟩

namespace Alarms

/-- The first alarm is rearmed, the others are not changed. -/
theorem takeFirst_kalarm (first : Ptr) (alarms : Alarms W) :
    (alarms.takeFirst first).kalarm =
      Function.update alarms.kalarm first (alarms.kalarm first).rearmed := by
  unfold takeFirst rearm
  by_cases periodic : (alarms.kalarm first).Periodic
  · rw [KAlarm.rearmed_periodic periodic]
    unfold KAlarm.Periodic at periodic
    rw [if_pos periodic]
    rfl
  · rw [KAlarm.rearmed_once periodic]
    unfold KAlarm.Periodic at periodic
    rw [if_neg periodic]
    rfl

theorem takeFirst_world (first : Ptr) (alarms : Alarms W) :
    (alarms.takeFirst first).world = alarms.world := by
  unfold takeFirst rearm
  split_ifs <;> rfl

/-- One round of the loop of `k_schedule_alarms`. -/
structure Fires (host : Host W) (first : Ptr) (alarms after : Alarms W) : Prop where
  kalarm : after.kalarm = Function.update alarms.kalarm first (alarms.kalarm first).rearmed
  record : after.events = .fired first (alarms.kalarm first) alarms.world :: alarms.events
  serves : host.Serves first (alarms.kalarm first) alarms.world after.world

/-- A round stops the kernel, or serves the first alarm. -/
theorem ListSound.fires (sound : ListSound live alarms) (calm : host.Calm P)
    (memory : P alarms.world) (isFirst : alarms.kalarms.listGet () FIRST = first)
    (nonzero : first ≠ 0) (due : Agenda.IsDue KAlarm.date refTime (alarms.kalarm first))
    (leaves : host.Leaves P refTime (alarms.kalarm first)) :
    (∃ fault, host.Stops fault ∧ ∀ call, alarms.fire host call = .error fault) ∨
      ∃ count after, (∀ call, alarms.fire host call = .ok (count, after)) ∧
        P after.world ∧ ListSound live after ∧ Fires host first alarms after := by
  obtain ⟨removed, -, -, taken⟩ := sound.takeFirst (isFirst ▸ nonzero)
  rw [isFirst] at removed taken
  have becomes : (alarms.takeFirst first).kalarm first = (alarms.kalarm first).rearmed := by
    rw [takeFirst_kalarm, Function.update_self]
  obtain ⟨sameThread, sameAction, sameParam⟩ := (alarms.kalarm first).rearmed_same
  have memory' : P (alarms.takeFirst first).world := (takeFirst_world first alarms).symm ▸ memory
  have acts := calm.runAction memory' (by
    rw [becomes, sameThread, sameAction, sameParam]
    exact leaves due)
  rw [becomes, takeFirst_world] at acts
  have result : ∀ call, alarms.fire host call =
      ((alarms.takeFirst first).runAction host call first).map fun result =>
        (result.1 + (host.releaseAll first result.2.world).1,
          { result.2 with world := (host.releaseAll first result.2.world).2 }) := by
    intro call
    unfold Alarms.fire
    dsimp only
    rw [removed]
  rcases acts with ⟨fault, stops, fails⟩ | ⟨count, world, kept, acts, runs⟩
  · refine .inl ⟨fault, stops, fun call => ?_⟩
    rw [result, fails]
    rfl
  · refine .inr ⟨count + (host.releaseAll first world).1,
      { alarms.takeFirst first with world := (host.releaseAll first world).2 }, fun call => ?_,
      calm.releaseAll first world kept, taken.world _ _, ?_⟩
    · rw [result, runs]
      rfl
    · exact ⟨takeFirst_kalarm first alarms, takeFirst_events first alarms, world, acts, rfl⟩

end Alarms

end Rounds

section Loop

namespace Alarms

variable {host : Host W} {P : W → Prop} {alarms after : Alarms W} {first id : Ptr}
  {live : Set Ptr} {items : Finset Ptr} {entries rest : List Ptr} {refTime : Time}
  {firings : List (Firing W)}

theorem Listed.mem_iff_date (listed : Listed alarms live entries) (id : Ptr) :
    id ∈ entries ↔ (alarms.kalarm id).date = some (alarms.kalarm id).alarm.expTime := by
  rw [listed.mem_iff, ← listed.marked_iff, ← Option.mem_def, KAlarm.mem_date,
    and_iff_left rfl]
  rfl

theorem Listed.mem_of_date {time : Time} (listed : Listed alarms live entries)
    (isDate : time ∈ (alarms.kalarm id).date) :
    id ∈ entries ∧ (alarms.kalarm id).alarm.expTime = time := by
  obtain ⟨armed, isTime⟩ := KAlarm.mem_date.mp isDate
  exact ⟨(listed.mem_iff id).mpr ⟨(listed.marked_iff id).mp armed.1, armed.2⟩, isTime⟩

theorem Listed.earliest (listed : Listed alarms live (first :: rest)) (other : Ptr) :
    ∀ time ∈ (alarms.kalarm other).date, (alarms.kalarm first).alarm.expTime ≤ time := by
  intro time isDate
  obtain ⟨mem, rfl⟩ := listed.mem_of_date isDate
  rcases List.mem_cons.mp mem with rfl | inRest
  · exact le_rfl
  · exact (List.pairwise_cons.mp listed.sorted).1 other inRest

/-- The active alarms are among the items, their periods are positive, and their actions
leave the alarms alone. -/
structure Timely (host : Host W) (P : W → Prop) (refTime : Time) (live : Set Ptr)
    (items : Finset Ptr) (alarms : Alarms W) : Prop where
  sound : ListSound live alarms
  memory : P alarms.world
  forward : ∀ id, (alarms.kalarm id).Forward
  leaves : ∀ id, host.Leaves P refTime (alarms.kalarm id)
  dated : ∀ id, (alarms.kalarm id).date ≠ none → id ∈ items

/-- It stays so when an alarm is served. -/
theorem Timely.fires (timely : Timely host P refTime live items alarms) (mem : first ∈ items)
    (sound : ListSound live after) (memory : P after.world)
    (fires : Fires host first alarms after) : Timely host P refTime live items after := by
  refine ⟨sound, memory, ?_, ?_, ?_⟩
  · rw [fires.kalarm]
    exact KAlarm.advances.update timely.forward first
  · intro id
    rw [fires.kalarm]
    by_cases same : id = first
    · subst same
      rw [Function.update_self]
      exact (timely.leaves id).rearmed (timely.forward id)
    · rw [Function.update_of_ne same]
      exact timely.leaves id
  · intro id dated
    by_cases same : id = first
    · exact same ▸ mem
    · rw [fires.kalarm, Function.update_of_ne same] at dated
      exact timely.dated id dated

/-- The loop of `k_schedule_alarms` ends when it may have as many rounds as are left for the
alarms: a fault stops it, or all alarms have been served. -/
theorem Timely.fireLoop (calm : host.Calm P) (timely : Timely host P refTime live items alarms) :
    (∃ fault, host.Stops fault ∧ ∀ call fuel count,
      Agenda.total (KAlarm.rank refTime) items alarms.kalarm < fuel →
        alarms.fireLoop host call refTime fuel count = .error fault) ∨
      ∃ added after firings, (∀ call fuel count,
        Agenda.total (KAlarm.rank refTime) items alarms.kalarm < fuel →
          alarms.fireLoop host call refTime fuel count = .ok (count + added, after)) ∧
        Timely host P refTime live items after ∧ Expires host refTime alarms after firings := by
  induction left : Agenda.total (KAlarm.rank refTime) items alarms.kalarm using
    Nat.strong_induction_on generalizing alarms with
  | _ left' ih =>
  subst left
  obtain ⟨entries, listed⟩ := timely.sound
  have get := listed.linked.listGet_first ()
  by_cases expired : alarms.kalarms.listGet () FIRST ≠ 0 ∧
      Time.timeCmp (alarms.kalarm (alarms.kalarms.listGet () FIRST)).alarm.expTime refTime ≤ 0
  · cases entries with
    | nil => exact absurd get expired.1
    | cons first rest =>
        rw [headOf_cons] at get
        rw [get] at expired
        have isDate := (listed.mem_iff_date first).mp List.mem_cons_self
        have isDue : Agenda.IsDue KAlarm.date refTime (alarms.kalarm first) :=
          ⟨_, isDate, expired.2⟩
        have mem : first ∈ items := timely.dated first (isDate ▸ Option.some_ne_none _)
        have less : Agenda.total (KAlarm.rank refTime) items
            (Function.update alarms.kalarm first (alarms.kalarm first).rearmed) <
              Agenda.total (KAlarm.rank refTime) items alarms.kalarm :=
          Agenda.total_lt mem (KAlarm.rank_lt (timely.forward first) isDue)
        have loops : ∀ call fuel count, alarms.fireLoop host call refTime (fuel + 1) count =
            (alarms.fire host call).bind fun result =>
              result.2.fireLoop host call refTime fuel (count + result.1) := by
          intro call fuel count
          have holds := expired
          rw [← get] at holds
          exact if_pos holds
        rcases timely.sound.fires calm timely.memory get expired.1 isDue (timely.leaves first) with
          ⟨fault, stops, fails⟩ | ⟨released, middle, fires, kept, sound, served⟩
        · refine .inl ⟨fault, stops, fun call fuel count enough => ?_⟩
          obtain ⟨fuel, rfl⟩ := Nat.exists_eq_add_of_lt enough
          rw [loops, fails]
          rfl
        · have timely' := timely.fires mem sound kept served
          rw [← served.kalarm] at less
          have rounds : ∀ {call fuel count}, Agenda.total (KAlarm.rank refTime) items
              alarms.kalarm < fuel + 1 → alarms.fireLoop host call refTime (fuel + 1) count =
                middle.fireLoop host call refTime fuel (count + released) := by
            intro call fuel count _
            rw [loops, fires]
            rfl
          rcases ih _ less timely' rfl with ⟨fault, stops, fails⟩ | ⟨added, last, firings, runs,
            timely'', expires⟩
          · refine .inl ⟨fault, stops, fun call fuel count enough => ?_⟩
            cases fuel with
            | zero => exact absurd enough (Nat.not_lt_zero _)
            | succ fuel =>
                rw [rounds enough]
                exact fails call fuel _ (by omega)
          · refine .inr ⟨released + added, last, ⟨first, alarms.kalarm first, alarms.world⟩ ::
              firings, fun call fuel count enough => ?_, timely'', ?_⟩
            · cases fuel with
              | zero => exact absurd enough (Nat.not_lt_zero _)
              | succ fuel =>
                  rw [rounds enough, runs call fuel _ (by omega), Nat.add_assoc]
            · refine ⟨?_, ?_, rfl, middle.world, served.serves, expires.serves⟩
              · apply Agenda.Run.serve first _ isDate expired.2 listed.earliest
                rw [← served.kalarm]
                exact expires.agenda
              · rw [expires.record, served.record, List.map_cons, List.reverse_cons,
                  List.append_assoc]
                rfl
  · refine .inr ⟨0, alarms, [], fun call fuel count enough => ?_, timely, ?_, rfl, rfl⟩
    · cases fuel with
      | zero => exact absurd enough (Nat.not_lt_zero _)
      | succ fuel => exact if_neg expired
    · apply Agenda.Run.done
      rintro id ⟨time, isDate, reached⟩
      cases entries with
      | nil => exact absurd (listed.mem_of_date isDate).1 List.not_mem_nil
      | cons first rest =>
          rw [headOf_cons] at get
          have memLive := ((listed.mem_iff first).mp List.mem_cons_self).1
          rw [get] at expired
          exact expired ⟨(listed.pointer first memLive).1.ne',
            (listed.earliest id time isDate).trans reached⟩

/-- The active alarms of a list are its items. -/
theorem Listed.timely (listed : Listed alarms live entries) (memory : P alarms.world)
    (forward : ∀ id ∈ entries, (alarms.kalarm id).Periodic →
      Time.Positive (alarms.kalarm id).alarm.period)
    (leaves : ∀ id ∈ entries, host.Leaves P refTime (alarms.kalarm id)) :
    Timely host P refTime live entries.toFinset alarms := by
  have mem : ∀ {id}, (alarms.kalarm id).date ≠ none → id ∈ entries := by
    intro id dated
    obtain ⟨time, isDate⟩ := Option.ne_none_iff_exists'.mp dated
    exact (listed.mem_of_date isDate).1
  refine ⟨⟨entries, listed⟩, memory, ?_, ?_, ?_⟩
  · exact fun id dated periodic => forward id (mem dated) periodic
  · rintro id ⟨t, isDate, reached⟩
    exact leaves id (listed.mem_of_date isDate).1 ⟨t, isDate, reached⟩
  · exact fun id dated => List.mem_toFinset.mpr (mem dated)

/-- `k_schedule_alarms` ends when it may have as many rounds as are left for the alarms. -/
theorem Timely.kScheduleAlarms (calm : host.Calm P)
    (isRef : Time.timeAdd (host.getTime alarms.world).1 host.threshold = refTime)
    (timely : Timely host P refTime live items alarms) :
    ∃ enough, (∃ fault, host.Stops fault ∧ ∀ call fuel, enough < fuel →
        alarms.kScheduleAlarms host call fuel = .error fault) ∨
      ∃ count looped firings, (∀ call fuel, enough < fuel →
        alarms.kScheduleAlarms host call fuel =
          .ok (count, looped.setTimer host (host.getTime alarms.world).1)) ∧
        Timely host P refTime live items looped ∧
        Expires host refTime { alarms with world := (host.getTime alarms.world).2 } looped
          firings := by
  have timely' : Timely host P refTime live items
      { alarms with world := (host.getTime alarms.world).2 } :=
    ⟨timely.sound.world _ _, calm.getTime _ timely.memory, timely.forward, timely.leaves,
      timely.dated⟩
  refine ⟨Agenda.total (KAlarm.rank refTime) items alarms.kalarm, ?_⟩
  rcases timely'.fireLoop calm with ⟨fault, stops, fails⟩ | ⟨added, looped, firings, loops,
    kept, expires⟩
  · refine .inl ⟨fault, stops, fun call fuel enough => ?_⟩
    unfold Alarms.kScheduleAlarms
    dsimp only
    rw [isRef, fails call fuel 0 enough]
    rfl
  · refine .inr ⟨0 + added, looped, firings, fun call fuel enough => ?_, kept, expires⟩
    unfold Alarms.kScheduleAlarms
    dsimp only
    rw [isRef, loops call fuel 0 enough]
    rfl

end Alarms

end Loop

section Outcome

/-- The times at which an alarm is served. -/
def Firing.times (id : Ptr) (firings : List (Firing W)) : List Time :=
  (firings.filter fun firing => firing.id = id).map fun firing => firing.kalarm.alarm.expTime

variable {host : Host W} {alarms after : Alarms W} {id : Ptr} {refTime : Time}
  {firings : List (Firing W)} {kalarm : KAlarm}

theorem Firing.times_eq (id : Ptr) (firings : List (Firing W)) :
    Firing.times id firings =
      (((firings.map Firing.entry).filter fun entry => entry.1 = id).map Prod.snd).map
        fun kalarm => kalarm.alarm.expTime := by
  rw [List.filter_map, List.map_map, List.map_map]
  rfl

theorem Firing.times_eq_nil : Firing.times id firings = [] ↔
    ∀ firing ∈ firings, id ≠ firing.id := by
  unfold Firing.times
  rw [List.map_eq_nil_iff, List.filter_eq_nil_iff]
  simp [eq_comm]

theorem KAlarm.expiry_mono (positive : Time.Positive kalarm.alarm.period) :
    Monotone kalarm.expiry := by
  apply monotone_nat_of_le_succ
  intro k
  unfold KAlarm.expiry
  rw [Function.iterate_succ_apply']
  exact (Time.lt_timeAdd positive _).le

namespace Alarms

theorem Expires.of_not_due (expires : Expires host refTime alarms after firings)
    (notDue : ¬ Agenda.IsDue KAlarm.date refTime (alarms.kalarm id)) :
    Firing.times id firings = [] ∧ after.kalarm id = alarms.kalarm id := by
  obtain ⟨n, states, last, isDue, -⟩ := expires.agenda.of_item id
  have none : n = 0 := by
    by_contra some
    exact notDue (isDue 0 (Nat.pos_of_ne_zero some))
  subst none
  rw [Firing.times_eq, states]
  exact ⟨rfl, last⟩

/-- An alarm that has expired and is not periodic is served once. -/
theorem Expires.of_once (expires : Expires host refTime alarms after firings)
    (due : Agenda.IsDue KAlarm.date refTime (alarms.kalarm id))
    (once : ¬ (alarms.kalarm id).Periodic) :
    Firing.times id firings = [(alarms.kalarm id).alarm.expTime] ∧
      after.kalarm id = { alarms.kalarm id with active := false } := by
  obtain ⟨n, states, last, isDue, notDue⟩ := expires.agenda.of_item id
  have served : n ≠ 0 := by
    rintro rfl
    exact notDue (last ▸ due)
  have single : ¬ 1 < n := by
    intro again
    obtain ⟨t, isDate, -⟩ := isDue 1 again
    rw [Function.iterate_one, KAlarm.rearmed_date_once once] at isDate
    cases isDate
  obtain rfl : n = 1 := by omega
  rw [Firing.times_eq, states]
  exact ⟨rfl, last.trans (KAlarm.rearmed_once once)⟩

/-- A periodic alarm is served as often as it expires, and left at its next time. -/
theorem Expires.of_periodic (expires : Expires host refTime alarms after firings)
    (armed : (alarms.kalarm id).date ≠ none) (periodic : (alarms.kalarm id).Periodic)
    (positive : Time.Positive (alarms.kalarm id).alarm.period) :
    ∃ n, (∀ k, k < n ↔ Time.timeCmp ((alarms.kalarm id).expiry k) refTime ≤ 0) ∧
      Firing.times id firings = (List.range n).map (alarms.kalarm id).expiry ∧
      after.kalarm id = { alarms.kalarm id with alarm := { (alarms.kalarm id).alarm with
        expTime := (alarms.kalarm id).expiry n } } := by
  obtain ⟨n, states, last, isDue, notDue⟩ := expires.agenda.of_item id
  have marked : (alarms.kalarm id).magic = ALARM_MAGIC ∧ (alarms.kalarm id).active = true := by
    by_contra unarmed
    exact armed (if_neg unarmed)
  have dates : ∀ k, (alarms.kalarm id).expiry k ∈
      (KAlarm.rearmed^[k] (alarms.kalarm id)).date := by
    intro k
    rw [KAlarm.rearmed_iterate periodic, KAlarm.mem_date]
    exact ⟨marked, rfl⟩
  rw [KAlarm.rearmed_iterate periodic] at last
  refine ⟨n, fun k => ⟨fun less => ?_, fun reached => ?_⟩, ?_, last⟩
  · obtain ⟨t, isDate, due⟩ := isDue k less
    obtain rfl := Option.some.inj ((dates k).symm.trans isDate)
    exact due
  · by_contra notLess
    have later : (alarms.kalarm id).expiry n ≤ (alarms.kalarm id).expiry k :=
      KAlarm.expiry_mono positive (Nat.le_of_not_lt notLess)
    apply notDue
    have isDate := dates n
    rw [KAlarm.rearmed_iterate periodic, ← last] at isDate
    exact ⟨_, isDate, later.trans reached⟩
  · rw [Firing.times_eq, states, List.map_map]
    apply List.map_congr_left
    intro k _
    rw [Function.comp_apply, KAlarm.rearmed_iterate periodic]

/-- The alarms are served in the order of their times. -/
theorem Expires.ordered (expires : Expires host refTime alarms after firings)
    (forward : ∀ id, (alarms.kalarm id).Forward) :
    (firings.map fun firing => firing.kalarm.alarm.expTime).Pairwise
      fun first second => Time.timeCmp first second ≤ 0 := by
  have sorted := expires.agenda.sorted KAlarm.advances forward
  have dated := expires.agenda.forall_served (fun _ => True)
    (fun _ _ => trivial) fun _ => trivial
  rw [List.pairwise_map] at sorted ⊢
  refine List.Pairwise.imp_of_mem (fun {first second} inFirst inSecond order => ?_) sorted
  obtain ⟨-, t, isFirst, -⟩ := dated first.entry (List.mem_map_of_mem inFirst)
  obtain ⟨-, u, isSecond, -⟩ := dated second.entry (List.mem_map_of_mem inSecond)
  obtain ⟨-, rfl⟩ := KAlarm.mem_date.mp isFirst
  obtain ⟨-, rfl⟩ := KAlarm.mem_date.mp isSecond
  exact order _ isFirst _ isSecond

end Alarms

end Outcome

end Oseer
