import Oseer.TimedStart

/-!
# Alarms in runs

Threads that wait for an alarm, calls that make the owner of an alarm wait, and the
owners of the alarms that expire.  An alarm can be disarmed while threads wait for it, it
can make its owner wait when another thread sets it, and it can expire after its owner
has ended; each result is about the runs in which this does not happen.
-/

namespace Oseer

open LinkedRing Results Alarms

variable {alarms alarms' first last : Alarms World} {members : Members} {entries : List Ptr}
  {idle rrAlarm : Ptr} {attend : Set Ptr} {timed lasting : Prop} {threshold : Time} {fuel : Nat}
  {entry : Entry}

section Waiting

/-- The threads in the queue of an alarm wait for an alarm that exists and is in the list
of active alarms. -/
structure Attended (alarms : Alarms World) (members : Members) (entries : List Ptr) : Prop where
  linked : alarms.world.kernel.sched.queues.Linked members
  listed : alarms.kalarms.Linked fun _ => entries
  waiting : ∀ thread ∈ alarms.world.alive, ∀ id, (alarms.world.thread thread).state = .wait →
    (alarms.world.thread thread).queue = some (.alarm id) → thread ∈ members (.alarm id)
  armed : ∀ id, ∀ thread ∈ members (.alarm id),
    alarms.Marked id ∧ (alarms.kalarm id).active = true ∧ id ∈ entries

/-- The invariant says so, if all alarms are looked at. -/
theorem Outside.attended (outside : Outside idle rrAlarm Set.univ timed lasting alarms) :
    ∃ members entries, Attended alarms members entries := by
  obtain ⟨live, members, all, kept, -⟩ := outside
  have sound : Sound alarms.world.kernel.sched alarms.world.alive members := kept.threads.sound
  obtain ⟨entries, listed⟩ := kept.table.list
  refine ⟨members, entries, sound.linked, listed.linked, ?_, ?_⟩
  · intro thread mem id waits inAlarm
    rcases sound.located thread mem with ⟨active, -⟩ | ⟨queue, inQueue⟩
    · exact absurd (active.symm.trans waits) (by decide)
    · have names := (sound.placed queue thread inQueue).names
      rw [← Option.some.inj (names.symm.trans inAlarm)]
      exact inQueue
  · intro id thread mem
    have notEmpty : members (.alarm id) ≠ [] := List.ne_nil_of_mem mem
    have isLive : id ∈ live := (kept.users.queues id notEmpty).1
    have active : (alarms.kalarm id).active = true :=
      kept.users.attended id (Set.mem_univ id) notEmpty
    exact ⟨(listed.marked_iff id).mpr isLive, active, (listed.mem_iff id).mpr ⟨isLive, active⟩⟩

/-- The entries in which no thread ends, and no thread gets other parameters. -/
def Entry.EndsNone : Entry → Prop
  | .threadExit _ => False
  | .kthreadCancel .. => False
  | .cancelThread _ => False
  | .setThreadSchedParams .. => False
  | _ => True

theorem Entry.EndsNone.careful (endsNone : entry.EndsNone) (valid : entry.Valid idle alarms)
    (ownerCalls : entry.OwnerCalls threshold alarms) (keepsArmed : entry.KeepsArmed alarms) :
    entry.Careful threshold idle attend True alarms where
  valid := valid
  sparesActive := by
    cases entry <;> trivial
  ownerCalls := ownerCalls
  ownersLive := by
    cases entry <;> first | trivial | exact fun never => absurd trivial never
  cancelsOnce := by
    cases entry <;> trivial
  keepsArmed := fun _ => keepsArmed

theorem ownerCalls_of_no_wait {id : Ptr} {alarm : Alarm} (noWait : alarm.flags &&& IPC_WAIT = 0) :
    (Entry.alarmNew id alarm).OwnerCalls threshold alarms := by
  rintro ⟨⟨-, -, waits⟩, -⟩
  exact absurd noWait waits

/-- The first program creates a thread, which creates an alarm and waits for it. -/
theorem sample_waiting {middle second created : Alarms World}
    (starts : sampleProgram = .ok middle)
    (creates : World.enter ⟨0, 500⟩ 20 (.createThread 0 6 11000 21000) middle = .ok second)
    (arms : World.enter ⟨0, 500⟩ 20 (.alarmNew 30000 ⟨⟨100, 0⟩, 0, 0, 0, ⟨0, 0⟩⟩) second =
      .ok created)
    (waits : World.enter ⟨0, 500⟩ 20 (.waitForAlarm 30000 IPC_WAIT) created = .ok last)
    (unmarked : (second.kalarm 30000).magic = 0) (rrIs : created.world.rrAlarm = 4096) :
    ∃ first, Started ⟨0, 500⟩ 6000 4096 first ∧
      Relation.ReflTransGen (Step ⟨0, 500⟩ fun alarms _ entry =>
        entry.EndsNone ∧ entry.Valid 6000 alarms ∧ entry.OwnerCalls ⟨0, 500⟩ alarms ∧
          entry.KeepsArmed alarms) first last := by
  obtain ⟨first, isStarted, isNew, starts⟩ := sample_program starts
  refine ⟨first, isStarted, ?_⟩
  apply Relation.ReflTransGen.tail (b := created)
  · apply Relation.ReflTransGen.tail (b := second)
    · apply Relation.ReflTransGen.tail (b := middle)
      · exact .single ⟨20, .startProgram 10000 10004 10008 10012 20000 5,
          ⟨trivial, isNew, trivial, trivial⟩, starts⟩
      · exact ⟨20, .createThread 0 6 11000 21000, ⟨trivial, trivial, trivial, trivial⟩, creates⟩
    · refine ⟨20, .alarmNew 30000 ⟨⟨100, 0⟩, 0, 0, 0, ⟨0, 0⟩⟩, ⟨trivial, ?_,
        ownerCalls_of_no_wait rfl, trivial⟩, arms⟩
      exact ⟨fun marked => absurd (unmarked.symm.trans marked) (by decide), by decide, by decide⟩
  · refine ⟨20, .waitForAlarm 30000 IPC_WAIT, ⟨trivial, ?_, trivial, trivial⟩, waits⟩
    exact fun isRr => absurd (isRr.trans rrIs) (by decide)

end Waiting

section Blocking

/-- Only the caller of an entry waits that did not before, and a thread that is put in the
queue of an alarm is the caller and in no other queue. -/
structure BlocksCaller (alarms alarms' : Alarms World) : Prop where
  waits : ∀ thread ∈ alarms'.world.alive, (alarms'.world.thread thread).state = .wait →
    thread = alarms.world.activeThread ∨
      thread ∈ alarms.world.alive ∧ (alarms.world.thread thread).state = .wait
  enqueued : ∀ thread id world, .enqueued thread id world ∈ alarms'.events →
    thread = alarms.world.activeThread ∧ world.Unlinked thread

/-- An entry in a run blocks its caller only, if an alarm that it makes somebody wait for is
the caller's own. -/
theorem entries_block_caller (started : Started threshold idle rrAlarm first)
    (run : Relation.ReflTransGen (Step threshold fun alarms _ entry =>
      entry.Careful threshold idle ∅ False alarms) first alarms)
    (careful : entry.Careful threshold idle ∅ False alarms)
    (enters : World.enter threshold fuel entry alarms = .ok alarms') :
    BlocksCaller alarms alarms' := by
  have outside : Outside idle rrAlarm ∅ False False first := started.outside
  have here : Outside idle rrAlarm ∅ False False alarms :=
    outside.steps (fun _ _ _ meets => meets) (fun _ _ _ _ _ _ never => never.elim) run
  obtain ⟨live, holds⟩ := here
  obtain ⟨live', kalarm, members, all, kept, -⟩ := holds.enter rfl careful enters
  refine ⟨fun thread mem waits => ?_, fun thread id world mem => kept.events _ mem⟩
  exact kept.threads.waiting thread mem waits

/-- A thread creates an alarm and waits for it at once. -/
theorem entries_block_caller_sample : ∃ first alarms alarms',
    Started ⟨0, 500⟩ 6000 4096 first ∧
    Relation.ReflTransGen (Step ⟨0, 500⟩ fun alarms _ entry =>
      entry.Careful ⟨0, 500⟩ 6000 ∅ False alarms) first alarms ∧
    World.enter ⟨0, 500⟩ 20 (.alarmNew 30000 ⟨⟨100, 0⟩, 0, 0, IPC_WAIT, ⟨0, 0⟩⟩) alarms =
      .ok alarms' ∧
    (alarms'.world.thread 20000).state = .wait ∧ BlocksCaller alarms alarms' := by
  have evaluated : (do
      let middle ← sampleProgram
      let last ← World.enter ⟨0, 500⟩ 20
        (.alarmNew 30000 ⟨⟨100, 0⟩, 0, 0, IPC_WAIT, ⟨0, 0⟩⟩) middle
      return decide ((middle.kalarm 30000).magic = 0 ∧
        (middle.kalarm middle.world.rrAlarm).active = false ∧
        (last.world.thread 20000).state = .wait)) = Except.ok true := by
    decide +kernel
  obtain ⟨middle, starts, evaluated⟩ := bind_ok evaluated
  obtain ⟨last, creates, evaluated⟩ := bind_ok evaluated
  obtain ⟨unmarked, inactive, waits⟩ := of_decide_eq_true (Except.ok.inj evaluated)
  obtain ⟨first, isStarted, isNew, starts⟩ := sample_program starts
  have run : Relation.ReflTransGen (Step ⟨0, 500⟩ fun alarms _ entry =>
      entry.Careful ⟨0, 500⟩ 6000 ∅ False alarms) first middle :=
    .single ⟨20, _, careful_start isNew, starts⟩
  have careful : (Entry.alarmNew 30000 ⟨⟨100, 0⟩, 0, 0, IPC_WAIT, ⟨0, 0⟩⟩).Careful ⟨0, 500⟩ 6000 ∅
      False middle := careful_alarmNew unmarked (by decide) inactive
  exact ⟨first, middle, last, isStarted, run, creates, waits,
    entries_block_caller isStarted run careful creates⟩

/-- A thread lets a ready thread wait that has created an alarm. -/
theorem entries_block_caller_fail : ∃ first alarms alarms',
    Started ⟨0, 500⟩ 6000 4096 first ∧
    Relation.ReflTransGen (Step ⟨0, 500⟩ fun alarms _ entry =>
      entry.Careful ⟨0, 500⟩ 6000 ∅ False alarms) first alarms ∧
    (Entry.alarmSet 30000 ⟨⟨200, 0⟩, 0, 0, IPC_WAIT, ⟨0, 0⟩⟩).Valid 6000 alarms ∧
    World.enter ⟨0, 500⟩ 20 (.alarmSet 30000 ⟨⟨200, 0⟩, 0, 0, IPC_WAIT, ⟨0, 0⟩⟩) alarms =
      .ok alarms' ∧ ¬ BlocksCaller alarms alarms' := by
  have evaluated : (do
      let middle ← sampleProgram
      let second ← World.enter ⟨0, 500⟩ 20 (.createThread 0 6 11000 21000) middle
      let created ← World.enter ⟨0, 500⟩ 20
        (.alarmNew 30000 ⟨⟨100, 0⟩, 0, 0, 0, ⟨0, 0⟩⟩) second
      let third ← World.enter ⟨0, 500⟩ 20 (.createThread 0 7 12000 22000) created
      let last ← World.enter ⟨0, 500⟩ 20
        (.alarmSet 30000 ⟨⟨200, 0⟩, 0, 0, IPC_WAIT, ⟨0, 0⟩⟩) third
      return decide ((second.kalarm 30000).magic = 0 ∧ third.world.rrAlarm = 4096 ∧
        third.world.activeThread = 22000 ∧ (third.world.thread 21000).state = .ready ∧
        last.world.life 21000 = .living ∧ (last.world.thread 21000).state = .wait)) =
          Except.ok true := by
    decide +kernel
  obtain ⟨middle, starts, evaluated⟩ := bind_ok evaluated
  obtain ⟨second, creates, evaluated⟩ := bind_ok evaluated
  obtain ⟨created, arms, evaluated⟩ := bind_ok evaluated
  obtain ⟨third, creates', evaluated⟩ := bind_ok evaluated
  obtain ⟨last, sets, evaluated⟩ := bind_ok evaluated
  obtain ⟨unmarked, rrIs, active, ready, alive, waits⟩ :=
    of_decide_eq_true (Except.ok.inj evaluated)
  obtain ⟨first, isStarted, isNew, starts⟩ := sample_program starts
  refine ⟨first, third, last, isStarted, ?_, ?_, sets, fun blocks => ?_⟩
  · apply Relation.ReflTransGen.tail (b := created)
    · apply Relation.ReflTransGen.tail (b := second)
      · apply Relation.ReflTransGen.tail (b := middle)
        · exact .single ⟨20, _, careful_start isNew, starts⟩
        · exact ⟨20, .createThread 0 6 11000 21000,
            ⟨trivial, trivial, trivial, trivial, trivial, fun _ => trivial⟩, creates⟩
      · refine ⟨20, .alarmNew 30000 ⟨⟨100, 0⟩, 0, 0, 0, ⟨0, 0⟩⟩,
          ⟨⟨fun marked => ?_, by decide, by decide⟩, trivial, ownerCalls_of_no_wait rfl, trivial,
            trivial, fun _ => trivial⟩, arms⟩
        exact absurd (unmarked.symm.trans marked) (by decide)
    · exact ⟨20, .createThread 0 7 12000 22000,
        ⟨trivial, trivial, trivial, trivial, trivial, fun _ => trivial⟩, creates'⟩
  · exact fun isRr => absurd (isRr.trans rrIs) (by decide)
  · rcases blocks.waits 21000 alive waits with isCaller | ⟨-, waited⟩
    · exact absurd (isCaller.trans active) (by decide)
    · exact absurd (ready.symm.trans waited) (by decide)

end Blocking

section Owners

/-- The entries in which no thread gets other parameters. -/
def Entry.KeepsParams : Entry → Prop
  | .setThreadSchedParams .. => False
  | _ => True

/-- The conditions under which the owners of alarms that can expire are alive. -/
structure Entry.KeepsOwners (threshold : Time) (idle : Ptr) (alarms : Alarms World)
    (entry : Entry) : Prop where
  keepsParams : entry.KeepsParams
  valid : entry.Valid idle alarms
  ownerCalls : entry.OwnerCalls threshold alarms
  cancelsOnce : entry.CancelsOnce alarms
  ownersLive : entry.OwnersLive False alarms

theorem Entry.KeepsOwners.careful (keeps : entry.KeepsOwners threshold idle alarms) :
    entry.Careful threshold idle ∅ False alarms where
  valid := keeps.valid
  sparesActive := by
    have keepsParams := keeps.keepsParams
    cases entry <;> trivial
  ownerCalls := keeps.ownerCalls
  ownersLive := keeps.ownersLive
  cancelsOnce := keeps.cancelsOnce
  keepsArmed := fun notEmpty => absurd rfl notEmpty

/-- The owner of an alarm that expires exists, and so does its process, in every run in which
no thread ends while one of its alarms can expire. -/
theorem fired_owner_exists (started : Started threshold idle rrAlarm first)
    (run : Relation.ReflTransGen (Step threshold fun alarms _ entry =>
      entry.KeepsOwners threshold idle alarms) first alarms)
    (step : Step threshold (fun alarms _ entry => entry.KeepsOwners threshold idle alarms) alarms
      alarms') :
    ∀ id kalarm world, .fired id kalarm world ∈ alarms'.events → kalarm.thread ≠ 0 →
      world.Exists (world.thread idle).proc kalarm.thread := by
  have outside : Outside idle rrAlarm ∅ False False first := started.outside
  have here : Outside idle rrAlarm ∅ False False alarms :=
    outside.steps (fun _ _ _ keeps => keeps.careful) (fun _ _ _ _ _ _ never => never.elim) run
  obtain ⟨live, holds⟩ := here
  obtain ⟨fuel, entry, keeps, enters⟩ := step
  obtain ⟨live', kalarm, members, all, kept, -⟩ := holds.enter rfl keeps.careful enters
  exact fun id kalarm world mem => kept.events _ mem

/-- The alarm of the first program expires. -/
theorem fired_owner_exists_sample : ∃ first alarms alarms',
    Started ⟨0, 500⟩ 6000 4096 first ∧
    Relation.ReflTransGen (Step ⟨0, 500⟩ fun alarms _ entry =>
      entry.KeepsOwners ⟨0, 500⟩ 6000 alarms) first alarms ∧
    Step ⟨0, 500⟩ (fun alarms _ entry => entry.KeepsOwners ⟨0, 500⟩ 6000 alarms) alarms alarms' ∧
    ∃ id kalarm world, .fired id kalarm world ∈ alarms'.events ∧ kalarm.thread = 20000 ∧
      world.Exists (world.thread 6000).proc kalarm.thread := by
  have evaluated : (do
      let middle ← sampleProgram
      let created ← World.enter ⟨0, 500⟩ 20
        (.alarmNew 30000 ⟨⟨0, 2000000⟩, 0, 0, 0, ⟨0, 0⟩⟩) middle
      let last ← World.enter ⟨0, 500⟩ 20 .timerInterrupt created
      return (match last.events with
        | [.fired _ kalarm _] => decide ((middle.kalarm 30000).magic = 0 ∧ kalarm.thread = 20000)
        | _ => false)) = Except.ok true := by
    decide +kernel
  obtain ⟨middle, starts, evaluated⟩ := bind_ok evaluated
  obtain ⟨created, creates, evaluated⟩ := bind_ok evaluated
  obtain ⟨last, expires, evaluated⟩ := bind_ok evaluated
  have recorded := Except.ok.inj evaluated
  split at recorded
  · rename_i id kalarm world events
    obtain ⟨unmarked, owner⟩ := of_decide_eq_true recorded
    obtain ⟨first, isStarted, isNew, starts⟩ := sample_program starts
    have mem : .fired id kalarm world ∈ last.events := by
      rw [events]
      exact List.mem_singleton_self _
    have run : Relation.ReflTransGen (Step ⟨0, 500⟩ fun alarms _ entry =>
        entry.KeepsOwners ⟨0, 500⟩ 6000 alarms) first created := by
      apply Relation.ReflTransGen.tail (b := middle)
      · exact .single ⟨20, .startProgram 10000 10004 10008 10012 20000 5,
          ⟨trivial, isNew, trivial, trivial, trivial⟩, starts⟩
      · refine ⟨20, .alarmNew 30000 ⟨⟨0, 2000000⟩, 0, 0, 0, ⟨0, 0⟩⟩,
          ⟨trivial, ⟨fun marked => ?_, by decide, by decide⟩, ownerCalls_of_no_wait rfl, trivial,
            trivial⟩, creates⟩
        exact absurd (unmarked.symm.trans marked) (by decide)
    have step : Step ⟨0, 500⟩ (fun alarms _ entry => entry.KeepsOwners ⟨0, 500⟩ 6000 alarms)
        created last :=
      ⟨20, .timerInterrupt, ⟨trivial, trivial, trivial, trivial, trivial⟩, expires⟩
    refine ⟨first, created, last, isStarted, run, step, id, kalarm, world, mem, owner, ?_⟩
    exact fired_owner_exists isStarted run step id kalarm world mem (by rw [owner]; decide)
  · cases recorded

/-- The alarm of the first program expires after its thread has ended. -/
theorem fired_owner_exists_fail : ∃ first alarms alarms',
    Started ⟨0, 500⟩ 6000 4096 first ∧
    Relation.ReflTransGen (Step ⟨0, 500⟩ fun alarms _ entry =>
      entry.KeepsParams ∧ entry.Valid 6000 alarms ∧ entry.OwnerCalls ⟨0, 500⟩ alarms ∧
        entry.CancelsOnce alarms) first alarms ∧
    World.enter ⟨0, 500⟩ 20 .timerInterrupt alarms = .ok alarms' ∧
    ¬ ∀ id kalarm world, .fired id kalarm world ∈ alarms'.events → kalarm.thread ≠ 0 →
      world.Exists (world.thread 6000).proc kalarm.thread := by
  have evaluated : (do
      let middle ← sampleProgram
      let created ← World.enter ⟨0, 500⟩ 20
        (.alarmNew 30000 ⟨⟨0, 2000000⟩, 0, 0, 0, ⟨0, 0⟩⟩) middle
      let ended ← World.enter ⟨0, 500⟩ 20 (.threadExit 0) created
      let last ← World.enter ⟨0, 500⟩ 20 .timerInterrupt ended
      return (match last.events with
        | [.fired _ kalarm world] => decide ((middle.kalarm 30000).magic = 0 ∧
            created.world.activeThread = 20000 ∧ kalarm.thread = 20000 ∧
            world.kernel.procs.first () = 0 ∧ (world.thread 20000).proc = 10000 ∧
            (world.thread 6000).proc = 7000)
        | _ => false)) = Except.ok true := by
    decide +kernel
  obtain ⟨middle, starts, evaluated⟩ := bind_ok evaluated
  obtain ⟨created, creates, evaluated⟩ := bind_ok evaluated
  obtain ⟨ended, ends, evaluated⟩ := bind_ok evaluated
  obtain ⟨last, expires, evaluated⟩ := bind_ok evaluated
  have recorded := Except.ok.inj evaluated
  split at recorded
  · rename_i id kalarm world events
    obtain ⟨unmarked, active, owner, noProcess, proc, home⟩ := of_decide_eq_true recorded
    obtain ⟨first, isStarted, isNew, starts⟩ := sample_program starts
    refine ⟨first, ended, last, isStarted, ?_, expires, fun exist => ?_⟩
    · apply Relation.ReflTransGen.tail (b := created)
      · apply Relation.ReflTransGen.tail (b := middle)
        · exact .single ⟨20, .startProgram 10000 10004 10008 10012 20000 5,
            ⟨trivial, isNew, trivial, trivial⟩, starts⟩
        · refine ⟨20, .alarmNew 30000 ⟨⟨0, 2000000⟩, 0, 0, 0, ⟨0, 0⟩⟩,
            ⟨trivial, ⟨fun marked => ?_, by decide, by decide⟩, ownerCalls_of_no_wait rfl,
              trivial⟩, creates⟩
          exact absurd (unmarked.symm.trans marked) (by decide)
      · refine ⟨20, .threadExit 0, ⟨trivial, ?_, trivial, trivial⟩, ends⟩
        exact fun isIdle => absurd (active.symm.trans isIdle) (by decide)
    · have mem : .fired id kalarm world ∈ last.events := by
        rw [events]
        exact List.mem_singleton_self _
      obtain ⟨all, procs, -, -, linked, listed⟩ :=
        exist id kalarm world mem (by rw [owner]; decide)
      rw [owner, proc, home] at listed
      have isFirst : world.kernel.procs.first () = headOf 0 procs := linked.first_eq
      have none : procs = [] := by
        cases procs with
        | nil => rfl
        | cons first rest =>
            rw [noProcess, headOf_cons] at isFirst
            exact absurd isFirst.symm (@Lists.Linked.ne_zero _ _ () _ _ linked List.mem_cons_self)
      rw [none] at listed
      simp at listed
  · cases recorded

end Owners

end Oseer
