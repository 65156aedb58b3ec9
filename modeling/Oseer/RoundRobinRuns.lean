import Oseer.TimedStart

/-!
# The queues in runs with round-robin scheduling

In every state outside the kernel the threads are linked as their states say, as
long as `sys__set_thread_sched_params` is not called for the active thread while its
slice runs: `ksched_deactivate_thread` would put it in a ready list a second time.
-/

namespace Oseer

open LinkedRing Results Alarms

variable {alarms first last : Alarms World} {idle rrAlarm : Ptr} {attend : Set Ptr}
  {timed lasting : Prop} {threshold : Time}

section Queues

/-- Each thread is linked at most once in all queues, a ready thread in the list of its
priority, and the active thread in none. -/
structure World.LinkedOnce (world : World) (members : Members) : Prop where
  linked : world.kernel.sched.queues.Linked members
  once : ∀ queue, (members queue).Nodup
  apart : ∀ queue queue', ∀ thread ∈ members queue, thread ∈ members queue' → queue = queue'
  ready : ∀ thread ∈ world.alive, (world.thread thread).state = .ready →
    thread ∈ members (.ready (world.thread thread).prio)
  active : ∀ thread ∈ world.alive, (world.thread thread).state = .active →
    ∀ queue, thread ∉ members queue

/-- The invariant says how the threads are linked. -/
theorem Outside.linkedOnce (outside : Outside idle rrAlarm attend timed lasting alarms) :
    ∃ members, alarms.world.LinkedOnce members := by
  obtain ⟨live, members, all, kept, -⟩ := outside
  have sound : Sound alarms.world.kernel.sched alarms.world.alive members := kept.threads.sound
  refine ⟨members, sound.linked, fun queue => sound.linked.nodup_members, ?_, ?_, ?_⟩
  · exact fun queue queue' thread mem mem' => sound.mem_unique mem mem'
  · intro thread mem isReady
    rcases sound.located thread mem with ⟨active, -⟩ | ⟨queue, inQueue⟩
    · exact absurd (active.symm.trans isReady) (by decide)
    · have placed := sound.placed queue thread inQueue
      have queueReady : queue.state = .ready := placed.inState.symm.trans isReady
      cases queue with
      | ready level =>
          have isLevel : (alarms.world.thread thread).prio = level := placed.level level rfl
          rw [isLevel]
          exact inQueue
      | _ => cases queueReady
  · exact fun thread _ active queue => sound.active_free active

/-- The entries of runs with round-robin scheduling: threads are created, wait, are released
and get other parameters, and slices end. -/
def Entry.RoundRobin : Entry → Prop
  | .createThread .. => True
  | .startProgram .. => True
  | .waitForThread .. => True
  | .block _ => True
  | .release _ => True
  | .releaseAll _ => True
  | .moveWaiting .. => True
  | .setThreadSchedParams .. => True
  | .setSchedParams .. => True
  | .timerInterrupt => True
  | _ => False

theorem Entry.RoundRobin.careful {entry : Entry} (roundRobin : entry.RoundRobin)
    (valid : entry.Valid idle alarms) (spares : entry.SparesActive alarms) :
    entry.Careful threshold idle ∅ False alarms where
  valid := valid
  sparesActive := spares
  ownerCalls := by
    cases entry <;> trivial
  ownersLive := by
    cases entry <;> trivial
  cancelsOnce := by
    cases entry <;> trivial
  keepsArmed := fun notEmpty => absurd rfl notEmpty

/-- The queues are sound in every run with round-robin scheduling. -/
theorem round_robin_queues (started : Started threshold idle rrAlarm first)
    (run : Relation.ReflTransGen (Step threshold fun alarms _ entry =>
      entry.RoundRobin ∧ entry.Valid idle alarms ∧ entry.SparesActive alarms) first last) :
    ∃ members, last.world.LinkedOnce members := by
  have outside : Outside idle rrAlarm ∅ False False first := started.outside
  have after : Outside idle rrAlarm ∅ False False last := by
    refine outside.steps (fun alarms _ entry meets => ?_) (fun _ _ _ _ _ _ never => ?_) run
    · obtain ⟨roundRobin, valid, spares⟩ := meets
      exact roundRobin.careful valid spares
    · cases never
  exact after.linkedOnce

/-- The first program creates a thread with another policy, and the timer expires. -/
theorem round_robin_queues_sample : ∃ first last, Started ⟨0, 500⟩ 6000 4096 first ∧
    Relation.ReflTransGen (Step ⟨0, 500⟩ fun alarms _ entry =>
      entry.RoundRobin ∧ entry.Valid 6000 alarms ∧ entry.SparesActive alarms) first last ∧
    ∃ members, last.world.LinkedOnce members := by
  have evaluated : (do
      let middle ← sampleProgram
      let second ← World.enter ⟨0, 500⟩ 20 (.createThread 1 6 11000 21000) middle
      let last ← World.enter ⟨0, 500⟩ 20 .timerInterrupt second
      return decide (last.world.activeThread = 21000)) = Except.ok true := by
    decide +kernel
  obtain ⟨middle, starts, evaluated⟩ := bind_ok evaluated
  obtain ⟨second, creates, evaluated⟩ := bind_ok evaluated
  obtain ⟨last, expires, -⟩ := bind_ok evaluated
  obtain ⟨first, isStarted, isNew, starts⟩ := sample_program starts
  have run : Relation.ReflTransGen (Step ⟨0, 500⟩ fun alarms _ entry =>
      entry.RoundRobin ∧ entry.Valid 6000 alarms ∧ entry.SparesActive alarms) first last := by
    apply Relation.ReflTransGen.tail (b := second)
    · apply Relation.ReflTransGen.tail (b := middle)
      · exact .single ⟨20, .startProgram 10000 10004 10008 10012 20000 5,
          ⟨trivial, isNew, trivial⟩, starts⟩
      · exact ⟨20, .createThread 1 6 11000 21000, ⟨trivial, trivial, trivial⟩, creates⟩
    · exact ⟨20, .timerInterrupt, ⟨trivial, trivial, trivial⟩, expires⟩
  exact ⟨first, last, isStarted, run, round_robin_queues isStarted run⟩

/-- The active thread is linked in a ready list after it has set its own parameters. -/
theorem round_robin_queues_fail : ∃ first last, Started ⟨0, 500⟩ 6000 4096 first ∧
    Relation.ReflTransGen (Step ⟨0, 500⟩ fun alarms _ entry =>
      entry.RoundRobin ∧ entry.Valid 6000 alarms) first last ∧
    ¬ ∃ members, last.world.LinkedOnce members := by
  have evaluated : (do
      let middle ← sampleProgram
      let last ← World.enter ⟨0, 500⟩ 20 (.setThreadSchedParams ⟨20000, 2⟩ 1 5 none) middle
      return decide (middle.world.life 20000 = .living ∧
        last.world.kernel.sched.queues.first (.ready 5) = 20000 ∧
        last.world.life 20000 = .living ∧ (last.world.thread 20000).state = .active)) =
          Except.ok true := by
    decide +kernel
  obtain ⟨middle, starts, evaluated⟩ := bind_ok evaluated
  obtain ⟨last, sets, evaluated⟩ := bind_ok evaluated
  obtain ⟨living, linked, alive, active⟩ := of_decide_eq_true (Except.ok.inj evaluated)
  obtain ⟨first, isStarted, isNew, starts⟩ := sample_program starts
  refine ⟨first, last, isStarted, ?_, ?_⟩
  · apply Relation.ReflTransGen.tail (b := middle)
    · exact .single ⟨20, .startProgram 10000 10004 10008 10012 20000 5, ⟨trivial, isNew⟩, starts⟩
    · exact ⟨20, .setThreadSchedParams ⟨20000, 2⟩ 1 5 none,
        ⟨trivial, fun _ => Or.inl living⟩, sets⟩
  · rintro ⟨members, once⟩
    have isFirst : last.world.kernel.sched.queues.first (.ready 5) =
        headOf 0 (members (.ready 5)) := once.linked.first_eq
    have inRing : headOf 0 (members (.ready 5)) ∈ 0 :: members (.ready 5) := headOf_mem
    rw [← isFirst, linked] at inRing
    rcases List.mem_cons.mp inRing with isNull | mem
    · exact absurd isNull (by decide)
    · exact once.active 20000 alive active (.ready 5) mem

end Queues

end Oseer
