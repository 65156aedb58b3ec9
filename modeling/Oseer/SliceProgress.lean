import Oseer.AlarmLoop
import Oseer.Library.Fuel
import Oseer.TimedRun

/-!
# The beginning of a slice

`rr_thread_activate` sets the alarm for the end of a slice, and `k_alarm_set` fires alarms
before it returns.  The slice begins with progress if its end is later than the times at which
alarms are fired: then `k_alarm_set` does not fire the alarm that it sets, and the functions
that call each other here return, since each change of the active thread is to a higher
priority.
-/

namespace Oseer

open LinkedRing Results Prog Alarms

namespace Time

variable {start share next threshold : Time}

/-- At most a full second of nanoseconds, as `time_add` leaves it. -/
def Carried (time : Time) : Prop := 0 ≤ time.nsec ∧ time.nsec ≤ N1E9

/-- From `start` on the time `share` lasts until `next + threshold` has passed, in nanoseconds.
If the nanoseconds of `start` and `share` are more than two seconds, of which `time_add` carries
one, the seconds do so alone. -/
def Outlasts (threshold start next share : Time) : Prop :=
  threshold.value + (next.value - start.value) < share.value ∧
    (2 * N1E9 < start.nsec + share.nsec →
      (timeAdd next threshold).sec ≤ start.sec + share.sec + 1)

instance (time : Time) : Decidable time.Carried := inferInstanceAs (Decidable (_ ∧ _))

instance : Decidable (Outlasts threshold start next share) :=
  inferInstanceAs (Decidable (_ ∧ (_ → _)))

theorem Carried.timeAdd (first : next.Carried) (second : threshold.Carried) :
    (timeAdd next threshold).Carried := by
  unfold Carried at *
  unfold Time.timeAdd
  split_ifs <;> simp only [N1E9] at * <;> omega

/-- The end of the slice is later, in nanoseconds and for `time_cmp`. -/
theorem outlasts_iff (isNext : next.Carried) (isThreshold : threshold.Carried) :
    (timeAdd next threshold).value < (timeAdd start share).value ∧
        0 < timeCmp (timeAdd start share) (timeAdd next threshold) ↔
      Outlasts threshold start next share := by
  have limit : (timeAdd next threshold).Carried := isNext.timeAdd isThreshold
  have later : (timeAdd next threshold).value < (timeAdd start share).value ↔
      threshold.value + (next.value - start.value) < share.value := by
    rw [timeAdd_value, timeAdd_value]
    omega
  unfold Outlasts
  rw [later, timeCmp_pos, timeCmp_neg]
  apply and_congr_right
  intro isLater
  rw [← later] at isLater
  generalize timeAdd next threshold = bound at *
  unfold Carried at limit
  unfold Time.timeAdd value at *
  split_ifs at * <;> simp only [N1E9] at * <;> omega

end Time

variable {setting : Setting} {alarms after : Alarms World} {world world' base : World}
  {idle rr thread : Ptr} {threshold : Time} {level : Nat} {members : Members} {all : List Ptr}

section Share

/-- What the thread has left of its slice, and a new one if that is not more than the threshold
of round-robin scheduling. -/
def World.share (thread : Ptr) (world : World) : Time :=
  if Time.timeCmp (world.tsched thread).remainder rrThreshold ≤ 0 then
    Time.timeAdd (world.tsched thread).remainder world.timeSlice
  else (world.tsched thread).remainder

/-- A slice of the thread that begins with the given reading of the clock is not over, nor about
to be, at the next one. -/
def World.LastsAt (threshold : Time) (thread : Ptr) (reading : Nat) (world : World) : Prop :=
  Time.Outlasts threshold (world.clock reading) (world.clock (reading + 1)) (world.share thread)

instance (thread : Ptr) (reading : Nat) : Decidable (world.LastsAt threshold thread reading) :=
  inferInstanceAs (Decidable (Time.Outlasts ..))

/-- The slices of the threads above the level last, whenever they begin. -/
def World.HigherLast (threshold : Time) (level : Nat) (world : World) : Prop :=
  ∀ thread ∈ world.alive, (world.tsched thread).policy = .rr →
    level < (world.thread thread).prio → ∀ reading, world.readings ≤ reading →
      (world.clock (reading + 1)).Carried ∧ world.LastsAt threshold thread reading

/-- The slices of the threads above the level are those that they have in `base`. -/
structure World.KeepsHigher (level : Nat) (base world : World) : Prop where
  clock : world.clock = base.clock
  readings : base.readings ≤ world.readings
  timeSlice : world.timeSlice = base.timeSlice
  slices : ∀ thread ∈ world.alive, (world.tsched thread).policy = .rr →
    level < (world.thread thread).prio → thread ∈ base.alive ∧
      world.tsched thread = base.tsched thread ∧
      (world.thread thread).prio = (base.thread thread).prio

theorem World.KeepsHigher.refl (level : Nat) (world : World) : world.KeepsHigher level world :=
  ⟨rfl, le_rfl, rfl, fun _ mem _ _ => ⟨mem, rfl, rfl⟩⟩

theorem World.KeepsHigher.trans (before : base.KeepsHigher level world)
    (after : world.KeepsHigher level world') : base.KeepsHigher level world' where
  clock := after.clock.trans before.clock
  readings := before.readings.trans after.readings
  timeSlice := after.timeSlice.trans before.timeSlice
  slices := by
    intro thread mem policy above
    obtain ⟨mem', tsched, prio⟩ := after.slices thread mem policy above
    rw [tsched] at policy
    rw [prio] at above
    obtain ⟨mem'', tsched', prio'⟩ := before.slices thread mem' policy above
    exact ⟨mem'', tsched.trans tsched', prio.trans prio'⟩

theorem World.KeepsHigher.higherLast (keeps : base.KeepsHigher level world)
    (last : base.HigherLast threshold level) : world.HigherLast threshold level := by
  intro thread mem policy above reading later
  obtain ⟨mem', tsched, prio⟩ := keeps.slices thread mem policy above
  rw [tsched] at policy
  rw [prio] at above
  have lasts := last thread mem' policy above reading (keeps.readings.trans later)
  unfold World.LastsAt World.share at *
  rw [keeps.clock, keeps.timeSlice, tsched]
  exact lasts

theorem World.HigherLast.mono {level' : Nat} (last : world.HigherLast threshold level)
    (higher : level ≤ level') : world.HigherLast threshold level' :=
  fun thread mem policy above => last thread mem policy (higher.trans_lt above)

/-- What `rr_thread_activate` stores before it sets the alarm. -/
structure World.Starts (thread : Ptr) (world world' : World) : Prop where
  kernel : world'.kernel = world.kernel
  life : world'.life = world.life
  clock : world'.clock = world.clock
  readings : world'.readings = world.readings + 1
  timeSlice : world'.timeSlice = world.timeSlice
  tsched : ∀ other, other ≠ thread → world'.tsched other = world.tsched other
  rrAlarm : world'.rrAlarm = world.rrAlarm
  rrParams : world'.rrParams = { world.rrParams with
    expTime := Time.timeAdd (world.clock world.readings) (world.share thread)
    param := thread }

theorem World.startSlice_starts (thread : Ptr) (world : World) :
    world.Starts thread ((world.replenish thread).startSlice thread) := by
  have share : ((world.replenish thread).tsched thread).remainder = world.share thread := by
    unfold World.replenish World.share World.setSched
    split_ifs
    · dsimp only
      rw [Function.update_self]
    · rfl
  have others : ∀ other, other ≠ thread →
      (world.replenish thread).tsched other = world.tsched other := by
    intro other different
    unfold World.replenish World.setSched
    split_ifs
    · exact Function.update_of_ne different ..
    · rfl
  have same : (world.replenish thread).kernel = world.kernel ∧
      (world.replenish thread).life = world.life ∧
      (world.replenish thread).clock = world.clock ∧
      (world.replenish thread).readings = world.readings ∧
      (world.replenish thread).timeSlice = world.timeSlice ∧
      (world.replenish thread).rrAlarm = world.rrAlarm ∧
      (world.replenish thread).rrParams = world.rrParams := by
    unfold World.replenish
    split_ifs <;> exact ⟨rfl, rfl, rfl, rfl, rfl, rfl, rfl⟩
  obtain ⟨kernel, life, clock, readings, timeSlice, rrAlarm, rrParams⟩ := same
  refine ⟨kernel, life, clock, congrArg (· + 1) readings, timeSlice, fun other different => ?_,
    rrAlarm, ?_⟩
  · change Function.update (world.replenish thread).tsched thread _ other = _
    rw [Function.update_of_ne different, others other different]
  · unfold World.startSlice World.getTime World.setSched
    dsimp only
    rw [share, clock, readings, rrParams]

/-- The end of the slice is later than the times at which alarms are fired. -/
structure World.Later (threshold : Time) (world : World) : Prop where
  value : (refTimeOf threshold world).value < world.rrParams.expTime.value
  timeCmp : 0 < Time.timeCmp world.rrParams.expTime (refTimeOf threshold world)

theorem World.Starts.later_iff (starts : world.Starts thread world')
    (clock : (world.clock (world.readings + 1)).Carried) (isThreshold : threshold.Carried) :
    world'.Later threshold ↔ world.LastsAt threshold thread world.readings := by
  have refTime : refTimeOf threshold world' =
      Time.timeAdd (world.clock (world.readings + 1)) threshold := by
    unfold refTimeOf World.getTime
    rw [starts.clock, starts.readings]
  unfold World.LastsAt
  rw [← Time.outlasts_iff clock isThreshold, ← refTime]
  have expTime : world'.rrParams.expTime =
      Time.timeAdd (world.clock world.readings) (world.share thread) :=
    congrArg Alarm.expTime starts.rrParams
  rw [← expTime]
  exact ⟨fun later => ⟨later.value, later.timeCmp⟩, fun later => ⟨later.1, later.2⟩⟩

/-- The other threads keep their slices. -/
theorem World.Starts.keepsHigher (starts : world.Starts thread world')
    (prio : (world.thread thread).prio ≤ level) : world.KeepsHigher level world' := by
  have descriptor : world'.thread = world.thread := by
    unfold World.thread
    rw [starts.kernel]
  refine ⟨starts.clock, by rw [starts.readings]; omega, starts.timeSlice, ?_⟩
  intro other mem policy above
  rw [descriptor] at above
  have different : other ≠ thread := by
    rintro rfl
    omega
  refine ⟨?_, starts.tsched other different, by rw [descriptor]⟩
  unfold World.alive at *
  rw [starts.life] at mem
  exact mem

end Share

section Frame

/-- The queues are in order, the slices of the threads above the level are those of `base`, and
the thread has a priority of the level. -/
structure World.Undisturbed (idle : Ptr) (level : Nat) (thread : Ptr) (base world : World) :
    Prop where
  orderly : world.Orderly idle
  keeps : base.KeepsHigher level world
  paced : world.Paced
  alive : thread ∈ world.alive
  prio : (world.thread thread).prio = level

/-- A new thread of an alarm gets no slices. -/
theorem World.Undisturbed.createThread {kalarm : KAlarm}
    (undisturbed : base.Undisturbed idle level thread world)
    (created : (World.host threshold).createThread kalarm world = .ok world') :
    base.Undisturbed idle level thread world' := by
  obtain ⟨members, all, inOrder⟩ := undisturbed.orderly
  have supplied : InOrder idle { world with supplied := world.supplied + 1 } members all :=
    inOrder.congr rfl rfl
  have orderly := (supplied.kthreadCreate created).1
  have rrParams := World.kthreadCreate_rrParams created
  obtain ⟨fresh, -, -, createdIs⟩ :=
    Threads.kthreadCreate_cases supplied.roster supplied.listed created
  generalize (world.supply world.supplied).2 = kthread at *
  generalize (world.supply world.supplied).1 = stack at *
  have spec : Created world.kernel (world.kernel.numbered.created stack kthread
      ((world.thread kalarm.thread).prio + 1) (world.thread kalarm.thread).proc) kthread stack
      (Kernel.clampPrio ((world.thread kalarm.thread).prio + 1))
      (world.thread kalarm.thread).proc := Kernel.created_spec _
  have others : ∀ other, other ≠ kthread → world'.thread other = world.thread other := by
    intro other different
    rw [createdIs]
    exact spec.others other different
  have stored : world'.tsched = Function.update world.tsched kthread
      { world.tsched kthread with policy := .fifo } := by
    rw [createdIs]
    rfl
  have alive : ∀ other, other ≠ kthread → (other ∈ world'.alive ↔ other ∈ world.alive) := by
    intro other different
    rw [createdIs]
    exact Iff.of_eq (congrArg (· = Life.living) (Function.update_of_ne different ..))
  have isOther : thread ≠ kthread := fun same =>
    fresh (same ▸ inOrder.roster.alive_listed thread undisturbed.alive)
  have keeps : world.KeepsHigher level world' := by
    refine ⟨createdIs ▸ rfl, by rw [createdIs]; exact le_rfl, createdIs ▸ rfl, ?_⟩
    intro other mem policy _
    have different : other ≠ kthread := by
      rintro rfl
      rw [stored, Function.update_self] at policy
      cases policy
    refine ⟨(alive other different).mp mem, ?_, by rw [others other different]⟩
    rw [stored, Function.update_of_ne different]
  exact ⟨orderly, undisturbed.keeps.trans keeps, undisturbed.paced.congr rrParams,
    (alive thread isOther).mpr undisturbed.alive, by rw [others thread isOther, undisturbed.prio]⟩

theorem World.host_undisturbed (threshold : Time) (idle : Ptr) (level : Nat) (thread : Ptr)
    (base : World) : (World.host threshold).Calm (base.Undisturbed idle level thread) where
  getTime := by
    intro world undisturbed
    have reading : world.getTime.2.Holding idle world.WaitsFor :=
      undisturbed.orderly.congr rfl rfl
    have keeps : world.KeepsHigher level world.getTime.2 :=
      ⟨rfl, Nat.le_succ _, rfl, fun _ mem _ _ => ⟨mem, rfl, rfl⟩⟩
    exact ⟨reading.1, undisturbed.keeps.trans keeps, undisturbed.paced, undisturbed.alive,
      undisturbed.prio⟩
  createThread := by
    intro kalarm world undisturbed
    cases created : (World.host threshold).createThread kalarm world with
    | error fault =>
        refine .inl ⟨fault, ?_, rfl⟩
        rintro rfl
        exact World.kthreadCreate_ends created
    | ok world' => exact .inr ⟨world', undisturbed.createThread created, rfl⟩
  releaseAll := by
    intro id world undisturbed
    obtain ⟨members, all, inOrder⟩ := undisturbed.orderly
    have isWait : (QueueId.alarm id).state = .wait := rfl
    obtain ⟨members', -, -, -, releases⟩ := inOrder.sound.kthreadqReleaseAll isWait
    have prio : ∀ other, (((World.host threshold).releaseAll id world).2.thread other).prio =
        (world.thread other).prio := fun other => congrArg ThreadData.prio (releases.data other)
    have keeps : world.KeepsHigher level ((World.host threshold).releaseAll id world).2 :=
      ⟨rfl, le_rfl, rfl, fun other mem _ _ => ⟨mem, rfl, prio other⟩⟩
    exact ⟨(inOrder.releaseAll threshold id).1, undisturbed.keeps.trans keeps, undisturbed.paced,
      undisturbed.alive, (prio thread).trans undisturbed.prio⟩

end Frame

section Settles

/-- Between the two records the alarm `rr` is not fired. -/
def Unfired (rr : Ptr) (events events' : List (AlarmEvent World)) : Prop :=
  ∃ new, events' = new ++ events ∧ ∀ kalarm world, .fired rr kalarm world ∉ new

theorem Unfired.refl (rr : Ptr) (events : List (AlarmEvent World)) : Unfired rr events events :=
  ⟨[], rfl, fun _ _ => List.not_mem_nil⟩

theorem Unfired.trans {events events' events'' : List (AlarmEvent World)}
    (before : Unfired rr events events') (after : Unfired rr events' events'') :
    Unfired rr events events'' := by
  obtain ⟨new, rfl, unfired⟩ := before
  obtain ⟨newer, rfl, unfired'⟩ := after
  refine ⟨newer ++ new, (List.append_assoc ..).symm, fun kalarm world mem => ?_⟩
  rcases List.mem_append.mp mem with later | earlier
  · exact unfired' kalarm world later
  · exact unfired kalarm world earlier

/-- `k_alarm_set` of the alarm `rr`, or a program that calls it, ends after so many nested calls,
and does not fire the alarm. -/
def Ends (rr : Ptr) (events : List (AlarmEvent World))
    (runs : Nat → Except Fault (Alarms World)) : Prop :=
  Fuel.Settles .endless (fun after => Unfired rr events after.events) runs

variable {prog first : Prog World Unit} {second : Unit → Prog World Unit}

theorem World.perform_bind (alarms : Alarms World) :
    (fun fuel => World.perform threshold fuel (first >>= second) alarms) = fun fuel =>
      (World.perform threshold fuel first alarms).bind fun after =>
        World.perform threshold fuel (second ()) after := by
  funext fuel
  unfold World.perform
  rw [run_bind]
  cases first.run (kAlarmSet (World.host threshold) fuel) alarms <;> rfl

theorem Ends.bind
    (ends : Ends rr alarms.events fun fuel => World.perform threshold fuel first alarms)
    (after : ∀ middle, Unfired rr alarms.events middle.events →
      Ends rr middle.events fun fuel => World.perform threshold fuel (second ()) middle) :
    Ends rr alarms.events fun fuel => World.perform threshold fuel (first >>= second) alarms := by
  unfold Ends
  rw [World.perform_bind]
  apply Fuel.Settles.bind ends
  intro middle unfired
  apply (after middle unfired).mono
  exact fun last later => unfired.trans later

end Settles

section Alarms

/-- The priority of the active thread. -/
def World.activePrio (world : World) : Nat := (world.thread world.activeThread).prio

/-- The active thread has the processor, no alarm has a period of zero, and the slices of the
threads of higher priorities last. -/
structure Advancing (setting : Setting) (threshold : Time) (alarms : Alarms World) : Prop where
  holds : Holds setting alarms
  forward : ∀ id, (alarms.kalarm id).Forward
  paced : alarms.world.Paced
  higher : alarms.world.HigherLast threshold alarms.world.activePrio

/-- The alarm for the end of the slice is not due. -/
def RrLater (setting : Setting) (threshold : Time) (alarms : Alarms World) : Prop :=
  (alarms.kalarm setting.rr).active = true →
    0 < Time.timeCmp (alarms.kalarm setting.rr).alarm.expTime (refTimeOf threshold alarms.world)

theorem RrLater.not_due (later : RrLater setting threshold alarms) :
    ¬ Agenda.IsDue KAlarm.date (refTimeOf threshold alarms.world) (alarms.kalarm setting.rr) := by
  rintro ⟨time, isDate, reached⟩
  obtain ⟨⟨-, active⟩, rfl⟩ := KAlarm.mem_date.mp isDate
  exact absurd reached (Int.not_le.mpr (later active))

theorem Holds.undisturbed (holds : Holds setting alarms) (paced : alarms.world.Paced) :
    alarms.world.Undisturbed setting.idle alarms.world.activePrio alarms.world.activeThread
      alarms.world := by
  obtain ⟨members, all, kept, running⟩ := holds
  have orderly : alarms.world.Orderly setting.idle :=
    ⟨members, all, kept.threads.sound, kept.threads.ledger.toRoster, kept.threads.listed⟩
  exact ⟨orderly, .refl .., paced, running.mem_alive, rfl⟩

theorem Alarms.Expires.unfired {refTime : Time} {firings : List (Firing World)} {id : Ptr}
    (expires : Expires (World.host threshold) refTime alarms after firings)
    (notDue : ¬ Agenda.IsDue KAlarm.date refTime (alarms.kalarm id)) :
    Unfired id alarms.events after.events := by
  have others := Firing.times_eq_nil.mp (expires.of_not_due notDue).1
  refine ⟨_, expires.record, fun kalarm world mem => ?_⟩
  obtain ⟨firing, isFiring, isEvent⟩ := List.mem_map.mp (List.mem_reverse.mp mem)
  exact others firing isFiring (AlarmEvent.fired.inj isEvent).1.symm

theorem Advancing.leaves {entries : List Ptr} {P : World → Prop}
    (advancing : Advancing setting threshold alarms) (later : RrLater setting threshold alarms)
    (listed : Listed alarms setting.live entries) {id : Ptr} (mem : id ∈ entries) :
    (World.host threshold).Leaves P (refTimeOf threshold alarms.world) (alarms.kalarm id) := by
  obtain ⟨members, all, kept, -⟩ := advancing.holds
  intro due unowned
  by_cases isRr : id = setting.rr
  · exact absurd (isRr ▸ due) later.not_due
  · exact absurd unowned (kept.table.owned id ((listed.mem_iff id).mp mem).1 isRr)

/-- `k_schedule_alarms` ends, and does not fire the alarm of the kernel. -/
theorem Advancing.kScheduleAlarms (advancing : Advancing setting threshold alarms)
    (later : RrLater setting threshold alarms) :
    ∃ enough, (∃ fault, fault ≠ .endless ∧ ∀ fuel, enough < fuel →
        alarms.kScheduleAlarms (World.host threshold) (kAlarmSet (World.host threshold) fuel) fuel =
          .error fault) ∨
      ∃ count after, (∀ fuel, enough < fuel →
        alarms.kScheduleAlarms (World.host threshold) (kAlarmSet (World.host threshold) fuel) fuel =
          .ok (count, after)) ∧
        Unfired setting.rr alarms.events after.events ∧ Advancing setting threshold after ∧
        after.world.activePrio = alarms.world.activePrio := by
  have list : ListSound setting.live alarms := by
    obtain ⟨members, all, kept, -⟩ := advancing.holds
    exact kept.table.list
  obtain ⟨entries, listed⟩ := list
  have timely := listed.timely (advancing.holds.undisturbed advancing.paced)
    (fun id mem periodic => advancing.forward id (by
      rw [(listed.mem_iff_date id).mp mem]
      exact Option.some_ne_none _) periodic)
    fun id mem => advancing.leaves later listed mem
  have calm := World.host_undisturbed threshold setting.idle alarms.world.activePrio
    alarms.world.activeThread alarms.world
  obtain ⟨enough, ⟨fault, stops, fails⟩ | ⟨count, looped, firings, runs, kept, expires⟩⟩ :=
    timely.kScheduleAlarms calm rfl
  · exact ⟨enough, .inl ⟨fault, stops.ends, fun fuel => fails _ fuel⟩⟩
  · generalize afterIs : looped.setTimer (World.host threshold)
      ((World.host threshold).getTime alarms.world).1 = after at runs
    have same : after.kalarm = looped.kalarm ∧ after.events = looped.events ∧
        after.world = { looped.world with delay := after.world.delay } := by
      obtain ⟨⟨-, same⟩, -⟩ := setTimer_spec threshold (World.host threshold).action
        ((World.host threshold).getTime alarms.world).1 looped
      exact afterIs ▸ same
    obtain ⟨kalarm, events, memory⟩ := same
    have ran := runs (kAlarmSet (World.host threshold) (enough + 1)) (enough + 1) (by omega)
    obtain ⟨holds, stays⟩ :=
      advancing.holds.kScheduleAlarms (kAlarmSet_nested threshold (enough + 1)) ran
    have isActive : after.world.activeThread = alarms.world.activeThread :=
      stays fun active _ => later active
    have unfired : Unfired setting.rr alarms.events looped.events :=
      expires.unfired later.not_due
    have prio : after.world.activePrio = alarms.world.activePrio := by
      unfold World.activePrio
      rw [isActive, memory]
      exact kept.memory.prio
    have higher : after.world.HigherLast threshold after.world.activePrio := by
      rw [prio, memory]
      exact kept.memory.keeps.higherLast advancing.higher
    have paced : after.world.Paced := by
      rw [memory]
      exact kept.memory.paced
    exact ⟨enough, .inr ⟨count, after, fun fuel => runs _ fuel, events ▸ unfired,
      ⟨holds, kalarm ▸ kept.forward, paced, higher⟩, prio⟩⟩

/-- `SET_ERRNO`. -/
theorem Advancing.setErrno (advancing : Advancing setting threshold alarms) :
    Advancing setting threshold (alarms.onWorld ((World.host threshold).setErrno 0)) ∧
      (alarms.onWorld ((World.host threshold).setErrno 0)).world.activePrio =
        alarms.world.activePrio := by
  have sameField : ∀ other, ((alarms.world.kernel.setErrno 0).thread other).prio =
      (alarms.world.kernel.thread other).prio := fun other =>
    Kernel.setThread_field (fun descriptor : Thread => descriptor.prio) rfl
  have prio : (alarms.onWorld ((World.host threshold).setErrno 0)).world.activePrio =
      alarms.world.activePrio := sameField _
  have keeps : alarms.world.KeepsHigher alarms.world.activePrio
      (alarms.onWorld ((World.host threshold).setErrno 0)).world :=
    ⟨rfl, le_rfl, rfl, fun other mem _ _ => ⟨mem, rfl, sameField other⟩⟩
  refine ⟨⟨advancing.holds.setErrno 0, advancing.forward, advancing.paced, ?_⟩, prio⟩
  rw [prio]
  exact keeps.higherLast advancing.higher

/-- Every change of the active thread from states in which a thread of the priority has the
processor ends. -/
def ScheduleEnds (setting : Setting) (threshold : Time) (prio : Nat) : Prop :=
  ∀ alarms, Advancing setting threshold alarms → alarms.world.activePrio = prio →
    Ends setting.rr alarms.events fun fuel =>
      World.perform threshold fuel World.kthreadsSchedule alarms

/-- The end of `k_alarm_add` for the alarm of the kernel. -/
theorem Advancing.finishAdd (advancing : Advancing setting threshold alarms)
    (schedules : ScheduleEnds setting threshold alarms.world.activePrio) (reschedule : Nat) :
    Ends setting.rr alarms.events fun fuel => alarms.finishAdd (World.host threshold)
      (kAlarmSet (World.host threshold) fuel) setting.rr reschedule := by
  have owner : (alarms.kalarm setting.rr).thread = 0 := by
    obtain ⟨members, all, kept, -⟩ := advancing.holds
    exact kept.table.rr_owner
  have notWaits : ¬ Alarms.Waits (alarms.kalarm setting.rr) := fun waits => waits.1 owner
  obtain ⟨noted, prio⟩ := advancing.setErrno
  unfold Alarms.finishAdd Alarms.scheduleIf
  dsimp only
  rw [Alarms.onWorld_kalarm]
  simp only [if_neg notWaits]
  by_cases asked : reschedule ≠ 0
  · simp only [if_pos asked]
    exact schedules _ noted prio
  · simp only [if_neg asked]
    exact Fuel.Settles.ok (.refl ..)

/-- `k_alarm_add` of the alarm of the kernel, after it is put in the list. -/
theorem Advancing.add (advancing : Advancing setting threshold alarms)
    (later : RrLater setting threshold alarms)
    (schedules : ScheduleEnds setting threshold alarms.world.activePrio) :
    Ends setting.rr alarms.events fun fuel =>
      (alarms.kScheduleAlarms (World.host threshold) (kAlarmSet (World.host threshold) fuel)
        fuel).bind fun result => result.2.finishAdd (World.host threshold)
          (kAlarmSet (World.host threshold) fuel) setting.rr result.1 := by
  obtain ⟨enough, ⟨fault, ends, fails⟩ | ⟨count, after, runs, unfired, advancing', prio⟩⟩ :=
    advancing.kScheduleAlarms later
  · have fails' : Ends setting.rr alarms.events fun _ => .error fault := .error ends
    apply fails'.of_eventually enough
    intro fuel less
    rw [fails fuel less]
    rfl
  · rw [← prio] at schedules
    have finishes := (advancing'.finishAdd schedules count).mono
      fun last (unfired' : Unfired ..) => unfired.trans unfired'
    apply finishes.of_eventually enough
    intro fuel less
    rw [runs fuel less]
    rfl

/-- The alarm of the kernel is put in the list for the end of a slice that is later than the
times at which alarms are fired. -/
theorem Advancing.armRr (advancing : Advancing { setting with armed := False } threshold alarms)
    (forSlice : alarms.world.ForSlice)
    (later : 0 < Time.timeCmp alarms.world.rrParams.expTime (refTimeOf threshold alarms.world)) :
    let armed := (alarms.noted threshold setting.rr alarms.world.rrParams).armAlarm setting.rr
      alarms.world.rrParams
    Advancing { setting with armed := True } threshold armed ∧
      RrLater { setting with armed := True } threshold armed ∧
      armed.world.activePrio = alarms.world.activePrio ∧
      Unfired setting.rr alarms.events armed.events := by
  intro armed
  have holds : Holds { setting with armed := True } armed := advancing.holds.armSlice forSlice
  obtain ⟨kalarm, world, events⟩ := armAlarm_spec setting.rr alarms.world.rrParams
    (alarms.noted threshold setting.rr alarms.world.rrParams)
  change armed.kalarm = _ at kalarm
  change armed.world = alarms.world.onKernel (Kernel.setErrno 0) at world
  change armed.events = .set .. :: alarms.events at events
  obtain ⟨noted, prio⟩ := advancing.setErrno
  refine ⟨⟨holds, fun id => ?_, ?_, ?_⟩, fun _ => ?_, ?_, ?_⟩
  · rw [kalarm]
    by_cases same : id = setting.rr
    · subst same
      rw [Function.update_self]
      exact fun _ => advancing.paced
    · rw [Function.update_of_ne same]
      exact advancing.forward id
  · rw [world]
    exact noted.paced
  · rw [world]
    exact noted.higher
  · rw [kalarm, world, Function.update_self]
    exact later
  · rw [world]
    exact prio
  · rw [events]
    refine ⟨[_], rfl, fun kalarm world mem => ?_⟩
    cases List.mem_singleton.mp mem

/-- `k_alarm_set` of the alarm of the kernel for the end of such a slice. -/
theorem Advancing.kAlarmSet (advancing : Advancing { setting with armed := False } threshold alarms)
    (forSlice : alarms.world.ForSlice)
    (later : 0 < Time.timeCmp alarms.world.rrParams.expTime (refTimeOf threshold alarms.world))
    (schedules : ScheduleEnds { setting with armed := True } threshold alarms.world.activePrio) :
    Ends setting.rr alarms.events fun fuel => Alarms.kAlarmSet (World.host threshold) fuel
      setting.rr alarms.world.rrParams alarms := by
  apply Fuel.Settles.succ
  unfold Alarms.kAlarmSet
  split_ifs with noAlarm
  · exact .error (by decide)
  · dsimp only
    split_ifs with differs
    · obtain ⟨armed, rrLater, prio, unfired⟩ := advancing.armRr forSlice later
      rw [← prio] at schedules
      apply (armed.add rrLater schedules).mono
      exact fun last unfired' => unfired.trans unfired'
    · apply Fuel.Settles.ok
      refine ⟨[_], rfl, fun kalarm world mem => ?_⟩
      cases List.mem_singleton.mp mem

end Alarms

section Schedule

theorem World.perform_get {next : World → Prog World Unit} (fuel : Nat) (alarms : Alarms World) :
    World.perform threshold fuel (Prog.get >>= next) alarms =
      World.perform threshold fuel (next alarms.world) alarms := rfl

theorem World.perform_attempt {change : World → Except Fault World} {next : Unit → Prog World Unit}
    (fuel : Nat) (alarms : Alarms World) :
    World.perform threshold fuel (Prog.attempt change >>= next) alarms =
      (change alarms.world).bind fun world =>
        World.perform threshold fuel (next ()) { alarms with world := world } := by
  unfold World.perform
  rw [run_attempt]
  cases change alarms.world <;> rfl

theorem World.perform_rrThreadActivate (fuel : Nat) (alarms : Alarms World) :
    World.perform threshold fuel (World.rrThreadActivate thread) alarms =
      Alarms.kAlarmSet (World.host threshold) fuel
        ((alarms.world.replenish thread).startSlice thread).rrAlarm
        ((alarms.world.replenish thread).startSlice thread).rrParams
        { alarms with world := (alarms.world.replenish thread).startSlice thread } := by
  unfold World.perform World.rrThreadActivate
  rw [run_modify, run_get]
  unfold Prog.setAlarm
  rw [run_alarmSet]
  dsimp only
  cases Alarms.kAlarmSet (World.host threshold) fuel _ _ _ <;> rfl

/-- `rr_thread_activate` of a thread whose slice ends later than the times at which alarms are
fired. -/
theorem Entering.rrThreadActivate (entering : Entering setting thread alarms)
    (forward : ∀ id, (alarms.kalarm id).Forward) (paced : alarms.world.Paced)
    (higher : alarms.world.HigherLast threshold alarms.world.activePrio)
    (later : ((alarms.world.replenish thread).startSlice thread).Later threshold)
    (schedules : ScheduleEnds { setting with armed := True, marked := False } threshold
      alarms.world.activePrio) :
    Ends setting.rr alarms.events fun fuel =>
      World.perform threshold fuel (World.rrThreadActivate thread) alarms := by
  simp only [World.perform_rrThreadActivate]
  have starts := alarms.world.startSlice_starts thread
  have begun : Entering setting thread
        { alarms with world := (alarms.world.replenish thread).startSlice thread } ∧
      ((alarms.world.replenish thread).startSlice thread).ForSlice :=
    @startSlice_spec setting (fun _ _ _ => .error .endless) thread alarms _ entering rfl
  generalize (alarms.world.replenish thread).startSlice thread = started at *
  obtain ⟨⟨holds, isActive, -⟩, forSlice⟩ := begun
  have sameThread : started.thread = alarms.world.thread := by
    unfold World.thread
    rw [starts.kernel]
  have prio : started.activePrio = alarms.world.activePrio := by
    unfold World.activePrio
    rw [sameThread, show started.activeThread = thread from isActive, entering.isActive]
  have rrAlarm : started.rrAlarm = setting.rr := by
    obtain ⟨members, all, kept, -⟩ := holds
    exact kept.table.rr_eq
  have startedPaced : started.Paced := by
    unfold World.Paced
    rw [starts.rrParams]
    exact paced
  have startedHigher : started.HigherLast threshold started.activePrio := by
    have keeps : alarms.world.KeepsHigher alarms.world.activePrio started :=
      starts.keepsHigher (by rw [← entering.isActive]; exact le_rfl)
    rw [prio]
    exact keeps.higherLast higher
  have advancing : Advancing { setting with armed := False, marked := False } threshold
      { alarms with world := started } :=
    ⟨holds, forward, startedPaced, startedHigher⟩
  rw [← prio] at schedules
  rw [rrAlarm]
  exact @Advancing.kAlarmSet { setting with marked := False } _ threshold advancing forSlice
    later.timeCmp schedules

/-- The slice of the active thread, if it gets one, lasts when it begins. -/
def World.ActiveLasts (threshold : Time) (world : World) : Prop :=
  (world.tsched world.activeThread).policy = .rr →
    (world.clock (world.readings + 1)).Carried ∧
      world.LastsAt threshold world.activeThread world.readings

/-- `ksched_activate_thread` of the thread that has got the processor. -/
theorem Fresh.kschedActivateThread (fresh : Fresh setting alarms)
    (forward : ∀ id, (alarms.kalarm id).Forward) (paced : alarms.world.Paced)
    (isThreshold : threshold.Carried)
    (higher : alarms.world.HigherLast threshold alarms.world.activePrio)
    (lasts : alarms.world.ActiveLasts threshold)
    (schedules : ScheduleEnds { setting with armed := True, marked := False } threshold
      alarms.world.activePrio) :
    Ends setting.rr alarms.events fun fuel => World.perform threshold fuel
      (World.kschedActivateThread alarms.world.activeThread) alarms := by
  have entering : Entering setting alarms.world.activeThread alarms :=
    ⟨fresh.holds, rfl, fresh.topmost⟩
  have activates : Ends setting.rr alarms.events fun fuel => World.perform threshold fuel
      (World.threadActivate (alarms.world.tsched alarms.world.activeThread).policy
        alarms.world.activeThread) alarms := by
    cases policy : (alarms.world.tsched alarms.world.activeThread).policy with
    | fifo => exact Fuel.Settles.ok (.refl ..)
    | rr =>
        obtain ⟨clock, lasts⟩ := lasts policy
        have later := ((alarms.world.startSlice_starts alarms.world.activeThread).later_iff clock
          isThreshold).mpr lasts
        exact entering.rrThreadActivate forward paced higher later schedules
  unfold World.kschedActivateThread
  simp only [World.perform_get]
  split_ifs
  · exact Fuel.Settles.ok (.refl ..)
  · exact activates.bind fun after _ => Fuel.Settles.ok (.refl ..)

/-- The slices of the threads but one are the same. -/
structure World.KeepsOthers (thread : Ptr) (world world' : World) : Prop where
  life : world'.life = world.life
  clock : world'.clock = world.clock
  readings : world.readings ≤ world'.readings
  timeSlice : world'.timeSlice = world.timeSlice
  tsched : ∀ other, other ≠ thread → world'.tsched other = world.tsched other

theorem World.leaveActive_keeps (world : World) :
    world.KeepsOthers world.activeThread world.leaveActive := by
  have rr : world.KeepsOthers world.activeThread (world.rrThreadDeactivate world.activeThread) := by
    unfold World.rrThreadDeactivate
    dsimp only
    split_ifs
    all_goals first
      | exact ⟨rfl, rfl, le_rfl, rfl, fun _ _ => rfl⟩
      | exact ⟨rfl, rfl, Nat.le_succ _, rfl, fun _ different => Function.update_of_ne different ..⟩
  unfold World.leaveActive World.kschedDeactivateThread
  dsimp only
  split_ifs
  all_goals first
    | exact ⟨rr.life, rr.clock, rr.readings, rr.timeSlice, rr.tsched⟩
    | exact ⟨rfl, rfl, le_rfl, rfl, fun _ _ => rfl⟩

theorem World.enterActive_same (entered : world.enterActive level = .ok world') :
    ∃ change, world' = world.onSched change := by
  unfold World.enterActive at entered
  dsimp only at entered
  split_ifs at entered
  exact ⟨_, (Except.ok.inj entered).symm⟩

/-- A change of the active thread keeps the slices of the threads of higher priorities. -/
theorem Switched.keepsHigher {waits : Set Ptr} {members' : Members}
    (change : Switched idle waits world world' members members' all level)
    (switched : world.leaveActive.enterActive level = .ok world') :
    world.KeepsHigher world.activePrio world' := by
  obtain ⟨-, clock, readings, timeSlice, tsched⟩ := world.leaveActive_keeps
  obtain ⟨_, isWorld⟩ := World.enterActive_same switched
  refine ⟨isWorld ▸ clock, isWorld ▸ readings, isWorld ▸ timeSlice, ?_⟩
  intro other mem policy above
  have prio : (world'.thread other).prio = (world.thread other).prio :=
    congrArg ThreadData.prio (change.same.data other)
  have different : other ≠ world.activeThread := by
    rintro rfl
    rw [prio] at above
    exact lt_irrefl _ above
  exact ⟨change.same.alive ▸ mem, isWorld ▸ tsched other different, prio⟩

/-- When `kthreads_schedule` changes the active thread, the new one and those above it have
slices that last, and the changes that may follow end. -/
structure SwitchEnds (setting : Setting) (threshold : Time) (world : World) : Prop where
  paced : world.Paced
  higher : world.HigherLast threshold world.activePrio
  active : world.ActiveLasts threshold
  schedules : ScheduleEnds { setting with armed := True, marked := False } threshold
    world.activePrio

/-- `kthreads_schedule` ends if it does after each change of the active thread. -/
theorem Ready.kthreadsSchedule (ready : Ready setting alarms)
    (forward : ∀ id, (alarms.kalarm id).Forward) (isThreshold : threshold.Carried)
    (switches : ∀ level world', alarms.world.leaveActive.enterActive level = .ok world' →
      (alarms.world.activeThread = 0 ∨
        (alarms.world.thread alarms.world.activeThread).state ≠ .active ∨
          alarms.world.activePrio < level) →
        SwitchEnds setting threshold world') :
    Ends setting.rr alarms.events fun fuel =>
      World.perform threshold fuel World.kthreadsSchedule alarms := by
  have fails : Fault.noThreadToRun ≠ .endless := by decide
  unfold World.kthreadsSchedule
  simp only [World.perform_get]
  split_ifs with someThread changes
  · generalize levelIs :
      (ReadyMask.kthreadReadyListHighest alarms.world.kernel.sched.rdyMask).toNat = level
    have below : alarms.world.Below level := by
      obtain ⟨members, all, kept, -⟩ := ready
      exact levelIs ▸ kept.below changes
    have changes' : alarms.world.activeThread = 0 ∨
        (alarms.world.thread alarms.world.activeThread).state ≠ .active ∨
          alarms.world.activePrio < level :=
      changes.imp id fun changes => changes.imp id fun lower =>
        levelIs ▸ Int.lt_toNat.mpr lower
    simp only [World.perform_attempt]
    cases switched : alarms.world.leaveActive.enterActive level with
    | error fault =>
        have isFault : fault = .noThreadToRun := by
          unfold World.enterActive at switched
          dsimp only at switched
          split_ifs at switched
          exact (Except.error.inj switched).symm
        exact isFault ▸ Fuel.Settles.error fails
    | ok world' =>
        obtain ⟨paced, higher, active, schedules⟩ := switches level world' switched changes'
        have fresh : Fresh setting { alarms with world := world' } :=
          ready.switched below switched
        exact fresh.kschedActivateThread forward paced isThreshold higher active schedules
  · exact Fuel.Settles.ok (Unfired.refl ..)
  · exact Fuel.Settles.error fails

/-- `kthreads_schedule` ends where a thread has the processor: each change of the active thread
on the way is to a higher priority. -/
theorem scheduleEnds (isThreshold : threshold.Carried) (setting : Setting) (prio : Nat) :
    ScheduleEnds setting threshold prio := by
  induction left : PRIO_LEVELS - prio using Nat.strong_induction_on generalizing setting prio with
  | _ left' ih =>
  subst left
  intro alarms advancing isPrio
  obtain ⟨members, all, kept, running⟩ := advancing.holds
  apply advancing.holds.ready.kthreadsSchedule advancing.forward isThreshold
  intro level world' switched changes
  have above : alarms.world.activePrio < level := by
    rcases changes with isNull | inactive | lower
    · exact absurd isNull (kept.threads.sound.ne_zero running.mem_alive)
    · exact absurd running.active inactive
    · exact lower
  have bound : alarms.world.activePrio < PRIO_LEVELS :=
    kept.threads.sound.prio _ running.mem_alive
  obtain ⟨members', change⟩ := kept.threads.switch running.poised switched
  have isLevel : world'.activePrio = level := change.prio
  have keeps : alarms.world.KeepsHigher alarms.world.activePrio world' :=
    change.keepsHigher switched
  have last : world'.HigherLast threshold alarms.world.activePrio :=
    keeps.higherLast advancing.higher
  constructor
  case paced => exact advancing.paced.congr change.same.rrParams
  case higher => exact last.mono (by omega)
  case active =>
    intro policy
    exact last world'.activeThread change.running.mem_alive policy
      (lt_of_lt_of_eq above isLevel.symm) world'.readings le_rfl
  case schedules => exact ih (PRIO_LEVELS - world'.activePrio) (by omega) _ _ rfl

end Schedule

section Progress

/-- All slices last, whenever they begin. -/
def World.AllLast (threshold : Time) (world : World) : Prop :=
  ∀ thread ∈ world.alive, (world.tsched thread).policy = .rr → ∀ reading,
    world.readings ≤ reading →
      (world.clock (reading + 1)).Carried ∧ world.LastsAt threshold thread reading

/-- `kthreads_schedule` ends where all slices last after the active thread has left. -/
theorem Ready.kthreadsSchedule_ends (ready : Ready setting alarms)
    (forward : ∀ id, (alarms.kalarm id).Forward) (paced : alarms.world.Paced)
    (isThreshold : threshold.Carried) (last : alarms.world.leaveActive.AllLast threshold) :
    Ends setting.rr alarms.events fun fuel =>
      World.perform threshold fuel World.kthreadsSchedule alarms := by
  obtain ⟨members, all, kept, poised⟩ := ready
  apply Ready.kthreadsSchedule ⟨members, all, kept, poised⟩ forward isThreshold
  intro level world' switched _
  obtain ⟨members', change⟩ := kept.threads.switch poised switched
  obtain ⟨_, isWorld⟩ := World.enterActive_same switched
  have last' : world'.AllLast threshold := isWorld ▸ last
  constructor
  case paced => exact paced.congr change.same.rrParams
  case higher => exact fun thread mem policy _ => last' thread mem policy
  case active =>
    exact fun policy => last' _ change.running.mem_alive policy world'.readings le_rfl
  case schedules => exact scheduleEnds isThreshold _ _

/-- `rr_thread_activate` sets the alarm for a time later than those at which alarms are fired,
and returns, without the alarm being fired on the way. -/
structure Progresses (threshold : Time) (thread : Ptr) (alarms : Alarms World) : Prop where
  later : ((alarms.world.replenish thread).startSlice thread).Later threshold
  ends : Ends alarms.world.rrAlarm alarms.events fun fuel =>
    World.perform threshold fuel (World.rrThreadActivate thread) alarms

/-- The first program sets the time slice, and creates a thread that gets slices and the
processor. -/
structure SampleSlice (timeSlice : Time) (asked : Alarms World) (created entered : World) :
    Prop where
  asks : ∃ middle, sampleProgram = .ok middle ∧
    World.enter ⟨0, 500⟩ 20 (.setSchedParams 1 (some timeSlice)) middle = .ok asked
  creates : asked.world.kthreadCreate .rr 63 11000 21000
    (asked.world.thread asked.world.activeThread).proc = .ok created
  enters : created.leaveActive.enterActive 63 = .ok entered

/-- The slice of the new thread may begin. -/
theorem SampleSlice.entering {timeSlice : Time} {asked : Alarms World} {created entered : World}
    (sample : SampleSlice timeSlice asked created entered)
    (highest : ReadyMask.kthreadReadyListHighest created.kernel.sched.rdyMask = 63)
    (lower : created.activePrio < 63) : ∃ setting,
      Entering setting entered.activeThread { World.clearRecord asked with world := entered } := by
  obtain ⟨middle, starts, asks⟩ := sample.asks
  obtain ⟨first, isStarted, isNew, starts⟩ := sample_program starts
  have careful : (Entry.setSchedParams 1 (some timeSlice)).Careful ⟨0, 500⟩ 6000 ∅ False middle :=
    ⟨trivial, trivial, trivial, trivial, trivial, fun _ => trivial⟩
  have run : Relation.ReflTransGen (Step ⟨0, 500⟩ fun alarms _ entry =>
      entry.Careful ⟨0, 500⟩ 6000 ∅ False alarms) first asked := by
    apply Relation.ReflTransGen.tail (b := middle)
    · exact .single ⟨20, _, careful_start isNew, starts⟩
    · exact ⟨20, _, careful, asks⟩
  have outside : Outside 6000 4096 ∅ False False first := isStarted.outside
  obtain ⟨live, members, all, kept, running⟩ : Outside 6000 4096 ∅ False False asked :=
    outside.steps (fun _ _ _ careful => careful) (fun _ _ _ _ _ _ => False.elim) run
  obtain ⟨members', spawned⟩ :=
    kept.threads.kthreadCreate ⟨_, running.mem_alive, rfl⟩ sample.creates
  obtain ⟨kept', running'⟩ := kept.spawned running spawned
  have higher : (created.activePrio : Int) <
      ReadyMask.kthreadReadyListHighest created.kernel.sched.rdyMask := by
    rw [highest]
    exact Int.ofNat_lt.mpr lower
  have below := kept'.below (.inr (.inr higher))
  dsimp only at below
  rw [highest] at below
  have ready : Ready _ { World.clearRecord asked with world := created } :=
    ⟨members', _, kept', running'.poised⟩
  have fresh := ready.switched below sample.enters
  exact ⟨_, fresh.holds, rfl, fresh.topmost⟩

end Progress

end Oseer
