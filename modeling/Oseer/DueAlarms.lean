import Oseer.Expiry
import Oseer.TimedStart

/-!
# Alarms that are due

`k_schedule_alarms` of the kernel, with any functions for its alarms that leave alarms and their
queues alone: every alarm acts as often as it is due, in the order of time, and the threads
that wait for it are released each time.
-/

namespace Oseer

open LinkedRing Results Alarms

variable {world world' : World} {idle thread id : Ptr} {members : Members} {all : List Ptr}
  {kalarm : KAlarm} {threshold : Time}

/-- The thread waits in the queue of the alarm. -/
def World.WaitsFor (world : World) (thread id : Ptr) : Prop :=
  thread ∈ world.alive ∧ (world.thread thread).state = .wait ∧
    (world.thread thread).queue = some (.alarm id)

/-- The queues and the list of the threads are in order. -/
structure InOrder (idle : Ptr) (world : World) (members : Members) (all : List Ptr) : Prop where
  sound : Sound world.kernel.sched world.alive members
  roster : Roster world.kernel idle world.alive members all
  listed : ∀ thread, thread ∈ all ↔ world.life thread ≠ .free

/-- The queues and the list of the threads are in order, for some members. -/
def World.Orderly (idle : Ptr) (world : World) : Prop :=
  ∃ members all, InOrder idle world members all

/-- The threads are in order, and these wait for alarms. -/
def World.Holding (idle : Ptr) (waiting : Ptr → Ptr → Prop) (world : World) : Prop :=
  world.Orderly idle ∧ ∀ thread id, world.WaitsFor thread id ↔ waiting thread id

/-- The program changes neither the alarms nor their queues. -/
def LeavesAlarms (idle : Ptr) (prog : Prog World Unit) : Prop :=
  ∀ waiting, prog.Quiet (World.Holding idle waiting)

section Waiting

theorem InOrder.waitsFor_iff (inOrder : InOrder idle world members all) (thread id : Ptr) :
    world.WaitsFor thread id ↔ thread ∈ members (.alarm id) := by
  constructor
  · rintro ⟨mem, waits, isQueue⟩
    rcases inOrder.sound.located thread mem with ⟨active, -⟩ | ⟨queue, inQueue⟩
    · exact absurd (active.symm.trans waits) (by decide)
    · have names := (inOrder.sound.placed queue thread inQueue).names
      obtain rfl : queue = .alarm id := Option.some.inj (names.symm.trans isQueue)
      exact inQueue
  · intro inQueue
    have placed := inOrder.sound.placed (.alarm id) thread inQueue
    exact ⟨inOrder.sound.mem_alive _ thread inQueue, placed.inState, placed.names⟩

theorem InOrder.holding {members' : Members} {all' : List Ptr}
    (inOrder : InOrder idle world members all) (inOrder' : InOrder idle world' members' all')
    (same : ∀ id, members' (.alarm id) = members (.alarm id)) :
    world'.Holding idle world.WaitsFor := by
  refine ⟨⟨members', all', inOrder'⟩, fun thread id => ?_⟩
  rw [inOrder'.waitsFor_iff, inOrder.waitsFor_iff, same]

theorem InOrder.congr (inOrder : InOrder idle world members all)
    (kernel : world'.kernel = world.kernel) (life : world'.life = world.life) :
    InOrder idle world' members all := by
  have alive : world'.alive = world.alive := by
    unfold World.alive
    rw [life]
  exact ⟨kernel ▸ alive ▸ inOrder.sound, kernel ▸ alive ▸ inOrder.roster,
    life ▸ inOrder.listed⟩

theorem World.Orderly.congr (orderly : world.Orderly idle)
    (kernel : world'.kernel = world.kernel) (life : world'.life = world.life) :
    world'.Holding idle world.WaitsFor := by
  obtain ⟨members, all, inOrder⟩ := orderly
  exact inOrder.holding (inOrder.congr kernel life) fun _ => rfl

end Waiting

section Operations

theorem Kernel.newIdLoop_ends {idmask : Nat → Bool} {starting fuel lastId : Nat} :
    Kernel.newIdLoop idmask starting fuel lastId ≠ .error .endless := by
  induction fuel generalizing lastId with
  | zero => simp [Kernel.newIdLoop]
  | succ fuel ih =>
      unfold Kernel.newIdLoop
      dsimp only
      split_ifs
      · simp
      · simp
      · exact ih
      · simp

theorem World.kthreadCreate_ends {policy : SchedPolicy} {prio : Int} {stack kthread proc : Ptr} :
    world.kthreadCreate policy prio stack kthread proc ≠ .error .endless := by
  intro ends
  unfold World.kthreadCreate Kernel.kthreadCreate at ends
  split_ifs at ends
  · cases ends
  · cases ends
  · exact Kernel.newIdLoop_ends (map_error (map_error (map_error ends)))
  · exact absurd rfl ‹¬ true = true›

/-- The threads after one is created. -/
theorem InOrder.kthreadCreate {policy : SchedPolicy} {prio : Int} {stack kthread proc : Ptr}
    (inOrder : InOrder idle world members all)
    (created : world.kthreadCreate policy prio stack kthread proc = .ok world') :
    world'.Holding idle world.WaitsFor := by
  obtain ⟨fresh, pointer, below, rfl⟩ :=
    Threads.kthreadCreate_cases inOrder.roster inOrder.listed created
  have dead : kthread ∉ world.alive := fun mem =>
    fresh (inOrder.roster.alive_listed kthread mem)
  obtain ⟨noJoin, noThrq⟩ := inOrder.roster.empty_queues inOrder.sound fresh
  have numbered : Sound world.kernel.numbered.sched world.alive members := inOrder.sound
  obtain ⟨kernel, life, -⟩ := @World.kschedThreadAdd_same { world with
    kernel := world.kernel.numbered.created stack kthread prio proc
    life := Function.update world.life kthread .living } policy kthread
  have alive : ({ world with
      kernel := world.kernel.numbered.created stack kthread prio proc
      life := Function.update world.life kthread .living } : World).alive =
        insert kthread world.alive := by
    ext thread
    unfold World.alive
    by_cases same : thread = kthread
    · simp [same]
    · simp [same]
  have inOrder' : InOrder idle { world with
      kernel := world.kernel.numbered.created stack kthread prio proc
      life := Function.update world.life kthread .living }
      (enqueued members (.ready (Kernel.clampPrio prio)) kthread) (all ++ [kthread]) := by
    refine ⟨alive ▸ numbered.created dead noJoin noThrq pointer prio proc,
      alive ▸ inOrder.roster.created fresh pointer below (Kernel.created_spec prio),
      fun thread => ?_⟩
    rw [List.mem_append, List.mem_singleton, inOrder.listed]
    by_cases same : thread = kthread
    · simp [same]
    · simp [same]
  have unchanged : SameWaiting (fun _ => False) members
      (enqueued members (.ready (Kernel.clampPrio prio)) kthread) := sameWaiting_ready
  exact inOrder.holding (inOrder'.congr kernel life) fun id => unchanged (.alarm id) rfl not_false

/-- `kthreadq_release_all` of the queue of an alarm. -/
theorem InOrder.releaseAll (inOrder : InOrder idle world members all) (threshold : Time)
    (id : Ptr) :
    let released := ((World.host threshold).releaseAll id world).2
    released.Orderly idle ∧
      (∀ thread other, released.WaitsFor thread other ↔
        world.WaitsFor thread other ∧ other ≠ id) ∧
      ∀ thread, world.WaitsFor thread id → (released.thread thread).state = .ready := by
  have isWait : (QueueId.alarm id).state = .wait := rfl
  obtain ⟨members', -, sound, empty, releases⟩ := inOrder.sound.kthreadqReleaseAll isWait
  have fewer : ∀ queue : QueueId, queue.state = .wait →
      (members' queue).Sublist (members queue) := by
    intro queue waits
    by_cases same : queue = .alarm id
    · rw [same, empty]
      exact List.nil_sublist _
    · rw [releases.waiting queue waits same]
  have inOrder' : InOrder idle ((World.host threshold).releaseAll id world).2 members' all :=
    ⟨sound, inOrder.roster.reschedule releases.data fewer, inOrder.listed⟩
  refine ⟨⟨members', all, inOrder'⟩, fun thread other => ?_, fun thread waits => ?_⟩
  · rw [inOrder'.waitsFor_iff, inOrder.waitsFor_iff]
    by_cases same : other = id
    · subst same
      simp [empty]
    · have kept : members' (.alarm other) = members (.alarm other) :=
        releases.waiting (.alarm other) rfl (by simpa using same)
      simp [kept, same]
  · exact inOrder.sound.kthreadqReleaseAll_ready isWait ((inOrder.waitsFor_iff thread id).mp waits)

end Operations

section Service

variable {action : Ptr → Ptr → Prog World Unit} {host : Host World} {acted : World}
  {before after : Alarms World} {firings : List (Firing World)}

/-- The kernel, with these functions for its alarms. -/
def World.hostCalling (threshold : Time) (action : Ptr → Ptr → Prog World Unit) : Host World :=
  { World.host threshold with action := action }

/-- The action of an alarm that is active, if the kernel is to call it, changes neither the
alarms nor their queues. -/
def KAlarm.Spares (idle : Ptr) (host : Host World) (refTime : Time) (kalarm : KAlarm) : Prop :=
  ∀ waiting, host.Leaves (World.Holding idle waiting) refTime kalarm

theorem KAlarm.Spares.leaves {refTime : Time} (spares : kalarm.Spares idle host refTime) :
    host.Leaves (World.Orderly idle) refTime kalarm := by
  intro due unowned hasAction world orderly
  rcases spares world.WaitsFor due unowned hasAction world ⟨orderly, fun _ _ => .rfl⟩ with
    stops | ⟨world', holding, runs⟩
  · exact .inl stops
  · exact .inr ⟨world', holding.1, runs⟩

theorem World.hostCalling_calm (threshold : Time) (action : Ptr → Ptr → Prog World Unit) :
    (World.hostCalling threshold action).Calm (World.Orderly idle) where
  getTime := by
    intro world orderly
    have reading : world.getTime.2.Holding idle world.WaitsFor := orderly.congr rfl rfl
    exact reading.1
  createThread := by
    rintro kalarm world ⟨members, all, inOrder⟩
    have supplied : InOrder idle { world with supplied := world.supplied + 1 } members all :=
      inOrder.congr rfl rfl
    cases created : (World.hostCalling threshold action).createThread kalarm world with
    | error fault =>
        refine .inl ⟨fault, ?_, rfl⟩
        rintro rfl
        exact World.kthreadCreate_ends created
    | ok world' => exact .inr ⟨world', (supplied.kthreadCreate created).1, rfl⟩
  releaseAll := by
    rintro id world ⟨members, all, inOrder⟩
    exact (inOrder.releaseAll threshold id).1

/-- The action of an alarm leaves the threads that wait for alarms. -/
theorem InOrder.acts (inOrder : InOrder idle world members all) (memory : Alarms World)
    (leaves : kalarm.thread = 0 → kalarm.alarm.action ≠ 0 →
      LeavesAlarms idle (action kalarm.alarm.action kalarm.alarm.param))
    (acts : (World.hostCalling threshold action).Acts kalarm world acted) :
    acted.Holding idle world.WaitsFor := by
  unfold Host.Acts at acts
  split_ifs at acts with noAction owned
  · rw [acts]
    exact ⟨⟨members, all, inOrder⟩, fun _ _ => .rfl⟩
  · have supplied : InOrder idle { world with supplied := world.supplied + 1 } members all :=
      inOrder.congr rfl rfl
    have holding := supplied.kthreadCreate acts
    exact holding
  · have runs := acts (fun _ _ _ => .error .endless) { memory with world := world } rfl
    rcases leaves (not_not.mp owned) noAction world.WaitsFor world
        ⟨⟨members, all, inOrder⟩, fun _ _ => .rfl⟩ with ⟨fault, -, stops⟩ | ⟨world', holding, ends⟩
    · exact nomatch (stops _ _ rfl).symm.trans runs
    · have same := Except.ok.inj ((ends _ _ rfl).symm.trans runs)
      have isActed : world' = acted := congrArg (fun ran => ran.2.world) same
      exact isActed ▸ holding

/-- An alarm is served: it acts, and the threads that wait for it are released. -/
structure World.Served (host : Host World) (id : Ptr) (kalarm : KAlarm) (world world' : World) :
    Prop where
  serves : host.Serves id kalarm world world'
  ready : ∀ thread, world.WaitsFor thread id → (world'.thread thread).state = .ready
  waiting : ∀ thread other, world'.WaitsFor thread other ↔
    world.WaitsFor thread other ∧ other ≠ id

theorem InOrder.served (inOrder : InOrder idle world members all) (memory : Alarms World)
    (leaves : kalarm.thread = 0 → kalarm.alarm.action ≠ 0 →
      LeavesAlarms idle (action kalarm.alarm.action kalarm.alarm.param))
    (serves : (World.hostCalling threshold action).Serves id kalarm world world') :
    world'.Orderly idle ∧
      World.Served (World.hostCalling threshold action) id kalarm world world' := by
  obtain ⟨acted, acts, isReleased⟩ := serves
  obtain ⟨sameThread, sameAction, sameParam⟩ := kalarm.rearmed_same
  obtain ⟨⟨members', all', inOrder'⟩, same⟩ := inOrder.acts memory
    (by rw [sameThread, sameAction, sameParam]; exact leaves) acts
  obtain ⟨orderly, waiting, ready⟩ := inOrder'.releaseAll threshold id
  rw [isReleased]
  refine ⟨orderly, ⟨acted, acts, rfl⟩, fun thread waits => ?_, fun thread other => ?_⟩
  · exact ready thread ((same thread id).mpr waits)
  · rw [← same]
    exact waiting thread other

/-- All alarms are served that way, one after the other. -/
theorem World.Orderly.chain (orderly : world.Orderly idle) (memory : Alarms World)
    (leaves : ∀ firing ∈ firings, firing.kalarm.thread = 0 → firing.kalarm.alarm.action ≠ 0 →
      LeavesAlarms idle (action firing.kalarm.alarm.action firing.kalarm.alarm.param))
    (chain : Firing.Chain (World.hostCalling threshold action).Serves world firings world') :
    Firing.Chain (World.Served (World.hostCalling threshold action)) world firings world' ∧
      ∀ thread id, world'.WaitsFor thread id ↔
        world.WaitsFor thread id ∧ ∀ firing ∈ firings, id ≠ firing.id := by
  induction firings generalizing world with
  | nil =>
      obtain rfl := chain
      exact ⟨rfl, by simp⟩
  | cons firing firings ih =>
      obtain ⟨isWorld, middle, serves, rest⟩ := chain
      obtain ⟨members, all, inOrder⟩ := orderly
      obtain ⟨orderly', served⟩ := inOrder.served memory (leaves firing List.mem_cons_self) serves
      obtain ⟨chain', waiting⟩ := ih orderly'
        (fun other mem => leaves other (List.mem_cons_of_mem firing mem)) rest
      refine ⟨⟨isWorld, middle, served, chain'⟩, fun thread id => ?_⟩
      rw [waiting, served.waiting, List.forall_mem_cons, and_assoc]

end Service

section Processing

variable {action : Ptr → Ptr → Prog World Unit} {before after looped : Alarms World}
  {firings : List (Firing World)} {live : Set Ptr} {entries : List Ptr} {time : Time}

/-- What `k_schedule_alarms` is to do with the active alarms `entries` at a time. -/
structure Processed (host : Host World) (live : Set Ptr) (entries : List Ptr) (time : Time)
    (before after : Alarms World) (firings : List (Firing World)) : Prop where
  /-- The alarms that are served are recorded. -/
  record : after.events = (firings.map Firing.event).reverse ++ before.events
  ordered : (firings.map fun firing => firing.kalarm.alarm.expTime).Pairwise
    fun first second => Time.timeCmp first second ≤ 0
  once : ∀ id ∈ entries, ¬ (before.kalarm id).Periodic →
    Time.timeCmp (before.kalarm id).alarm.expTime (Time.timeAdd time host.threshold) ≤ 0 →
      Firing.times id firings = [(before.kalarm id).alarm.expTime] ∧
        after.kalarm id = { before.kalarm id with active := false }
  periodic : ∀ id ∈ entries, (before.kalarm id).Periodic →
    ∃ n, (∀ k, k < n ↔ Time.timeCmp ((before.kalarm id).expiry k)
        (Time.timeAdd time host.threshold) ≤ 0) ∧
      Firing.times id firings = (List.range n).map (before.kalarm id).expiry ∧
      after.kalarm id = { before.kalarm id with alarm := { (before.kalarm id).alarm with
        expTime := (before.kalarm id).expiry n } }
  notDue : ∀ id, (id ∈ entries →
      0 < Time.timeCmp (before.kalarm id).alarm.expTime (Time.timeAdd time host.threshold)) →
    Firing.times id firings = [] ∧ after.kalarm id = before.kalarm id
  list : ∃ rest, Listed after live rest ∧ ∀ id, id ∈ rest ↔ id ∈ entries ∧
    ((before.kalarm id).Periodic ∨
      0 < Time.timeCmp (before.kalarm id).alarm.expTime (Time.timeAdd time host.threshold))
  /-- Each alarm acts when it is served, and the threads that wait for it are released. -/
  served : ∃ last : World, after.world = { last with delay := after.world.delay } ∧
    Firing.Chain (World.Served host) (host.getTime before.world).2 firings last
  released : ∀ thread id, after.world.WaitsFor thread id ↔
    before.world.WaitsFor thread id ∧ Firing.times id firings = []
  timer : after.kalarms.listGet () FIRST ≠ 0 → after.world.delay =
    Time.timeSub (after.kalarm (after.kalarms.listGet () FIRST)).alarm.expTime time

/-- The timer is set for the first alarm, and nothing else is changed. -/
theorem setTimer_spec (threshold : Time) (action : Ptr → Ptr → Prog World Unit) (time : Time)
    (looped : Alarms World) :
    let after := looped.setTimer (World.hostCalling threshold action) time
    (after.kalarms = looped.kalarms ∧ after.kalarm = looped.kalarm ∧
      after.events = looped.events ∧
      after.world = { looped.world with delay := after.world.delay }) ∧
      (after.kalarms.listGet () FIRST ≠ 0 → after.world.delay =
        Time.timeSub (after.kalarm (after.kalarms.listGet () FIRST)).alarm.expTime time) := by
  unfold Alarms.setTimer
  dsimp only
  split_ifs with hasFirst
  · exact ⟨⟨rfl, rfl, rfl, rfl⟩, fun _ => rfl⟩
  · exact ⟨⟨rfl, rfl, rfl, rfl⟩, fun nonzero => absurd nonzero hasFirst⟩

/-- The rounds of the loop and the timer together do what is to be done. -/
theorem Alarms.Listed.processed (listed : Listed before live entries)
    (orderly : before.world.Orderly idle)
    (forward : ∀ id ∈ entries, (before.kalarm id).Periodic →
      Time.Positive (before.kalarm id).alarm.period)
    (leaves : ∀ id ∈ entries, (before.kalarm id).thread = 0 →
      (before.kalarm id).alarm.action ≠ 0 → LeavesAlarms idle
        (action (before.kalarm id).alarm.action (before.kalarm id).alarm.param))
    (sound : ListSound live looped)
    (expires : Expires (World.hostCalling threshold action)
      (Time.timeAdd before.world.getTime.1 threshold)
      { before with world := before.world.getTime.2 } looped firings) :
    Processed (World.hostCalling threshold action) live entries before.world.getTime.1 before
      (looped.setTimer (World.hostCalling threshold action) before.world.getTime.1) firings := by
  obtain ⟨⟨list, kalarm, events, memory⟩, timer⟩ :=
    setTimer_spec threshold action before.world.getTime.1 looped
  have dated : ∀ id ∈ entries, (before.kalarm id).date =
      some (before.kalarm id).alarm.expTime := fun id mem => (listed.mem_iff_date id).mp mem
  have due : ∀ id ∈ entries, Time.timeCmp (before.kalarm id).alarm.expTime
      (Time.timeAdd before.world.getTime.1 threshold) ≤ 0 →
        Agenda.IsDue KAlarm.date (Time.timeAdd before.world.getTime.1 threshold)
          (before.kalarm id) := fun id mem reached => ⟨_, dated id mem, reached⟩
  have once : ∀ id ∈ entries, ¬ (before.kalarm id).Periodic →
      Time.timeCmp (before.kalarm id).alarm.expTime
        (Time.timeAdd before.world.getTime.1 threshold) ≤ 0 →
      Firing.times id firings = [(before.kalarm id).alarm.expTime] ∧
        looped.kalarm id = { before.kalarm id with active := false } :=
    fun id mem notPeriodic reached => expires.of_once (due id mem reached) notPeriodic
  have armed : ∀ id ∈ entries, (before.kalarm id).date ≠ none := fun id mem => by
    rw [dated id mem]
    exact Option.some_ne_none _
  have periodic : ∀ id ∈ entries, (before.kalarm id).Periodic → _ := fun id mem isPeriodic =>
    expires.of_periodic (armed id mem) isPeriodic (forward id mem isPeriodic)
  have notDue : ∀ id, (id ∈ entries → 0 < Time.timeCmp (before.kalarm id).alarm.expTime
      (Time.timeAdd before.world.getTime.1 threshold)) →
        Firing.times id firings = [] ∧ looped.kalarm id = before.kalarm id := by
    intro id later
    apply expires.of_not_due
    rintro ⟨t, isDate, reached⟩
    obtain ⟨mem, rfl⟩ := listed.mem_of_date isDate
    exact Int.not_le.mpr (later mem) reached
  have isForward : ∀ id, (before.kalarm id).Forward := by
    intro id isDated isPeriodic
    obtain ⟨t, isDate⟩ := Option.ne_none_iff_exists'.mp isDated
    exact forward id (listed.mem_of_date isDate).1 isPeriodic
  have chain : Firing.Chain (World.Served (World.hostCalling threshold action))
      before.world.getTime.2 firings looped.world ∧ ∀ thread id, looped.world.WaitsFor thread id ↔
        before.world.getTime.2.WaitsFor thread id ∧ ∀ firing ∈ firings, id ≠ firing.id := by
    have goods : ∀ id, (before.kalarm id).Forward ∧ (before.kalarm id).Spares idle
        (World.hostCalling threshold action)
        (Time.timeAdd before.world.getTime.1 threshold) := by
      intro id
      refine ⟨isForward id, ?_⟩
      rintro waiting ⟨t, isDate, -⟩ unowned hasAction
      exact leaves id (listed.mem_of_date isDate).1 unowned hasAction waiting
    have served := expires.agenda.forall_served
      (fun kalarm => kalarm.Forward ∧ kalarm.Spares idle (World.hostCalling threshold action)
        (Time.timeAdd before.world.getTime.1 threshold))
      (fun kalarm good => ⟨KAlarm.advances.good_next kalarm good.1,
        fun waiting => (good.2 waiting).rearmed good.1⟩) goods
    have reading : before.world.getTime.2.Holding idle before.world.WaitsFor :=
      orderly.congr rfl rfl
    apply reading.1.chain before _ expires.serves
    intro firing mem unowned hasAction waiting
    obtain ⟨⟨-, spares⟩, due⟩ := served firing.entry (List.mem_map_of_mem mem)
    exact spares waiting due unowned hasAction
  constructor
  case record => exact events.trans expires.record
  case ordered => exact expires.ordered isForward
  case once => exact kalarm ▸ once
  case periodic => exact kalarm ▸ periodic
  case notDue => exact kalarm ▸ notDue
  case timer => exact timer
  case list =>
    obtain ⟨rest, listed'⟩ := sound
    refine ⟨rest, listed'.congr list (fun id => by rw [kalarm]) (fun id => by rw [kalarm])
      (fun id => by rw [kalarm]), fun id => ?_⟩
    by_cases mem : id ∈ entries
    · obtain ⟨memLive, active⟩ := (listed.mem_iff id).mp mem
      rw [listed'.mem_iff, and_iff_right memLive, and_iff_right mem]
      by_cases isPeriodic : (before.kalarm id).Periodic
      · obtain ⟨n, -, -, becomes⟩ := periodic id mem isPeriodic
        rw [becomes]
        simp [active, isPeriodic]
      · rw [or_iff_right isPeriodic]
        rcases Int.lt_or_le 0 (Time.timeCmp (before.kalarm id).alarm.expTime
          (Time.timeAdd before.world.getTime.1 threshold)) with later | reached
        · rw [(notDue id fun _ => later).2]
          exact iff_of_true active later
        · rw [(once id mem isPeriodic reached).2]
          exact iff_of_false Bool.false_ne_true (Int.not_lt.mpr reached)
    · rw [listed'.mem_iff, (notDue id fun inEntries => absurd inEntries mem).2, ← listed.mem_iff]
      exact iff_of_false mem fun inEntries => mem inEntries.1
  case served => exact ⟨looped.world, memory, chain.1⟩
  case released =>
    intro thread id
    have same : (looped.setTimer (World.hostCalling threshold action)
        before.world.getTime.1).world.WaitsFor thread id ↔ looped.world.WaitsFor thread id := by
      rw [memory]
      rfl
    rw [same, chain.2, Firing.times_eq_nil]
    rfl

/-- A periodic alarm of the kernel. -/
def sampleAlarm : KAlarm :=
  ⟨⟨⟨0, 100⟩, 5, 0, ALARM_PERIODIC, ⟨0, 50⟩⟩, true, 0, ALARM_MAGIC⟩

end Processing

end Oseer
