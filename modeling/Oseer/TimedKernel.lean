import Oseer.Library.Results
import Oseer.Lifecycle
import Oseer.RoundRobin

/-!
# Threads under round-robin scheduling

`Threads` is the invariant of the threads and their queues, for a kernel where
`ksched_deactivate_thread` may put the active thread in a ready list before
`kthreads_schedule` does.  What a change of the active thread needs to know is
`Poised`: a thread that is ready again already is not put in a second time.
-/

namespace Oseer

open LinkedRing Results

/-- The threads that are created and have not ended. -/
def World.alive (world : World) : Set Ptr := {thread | world.life thread = .living}

/-- The invariant of the threads; only those in `waits` may wait, and nobody waits for a
thread that has ended by itself. -/
structure Threads (idle : Ptr) (waits : Set Ptr) (world : World) (members : Members)
    (all : List Ptr) : Prop where
  sound : Sound world.kernel.sched world.alive members
  ledger : Ledger world.kernel idle world.alive members all
  listed : ∀ thread, thread ∈ all ↔ world.life thread ≠ .free
  waiting : ∀ thread ∈ world.alive, (world.thread thread).state = .wait → thread ∈ waits
  finished : ∀ thread ∉ world.alive, (world.thread thread).state = .passive →
    members (.join thread) = []

/-- The thread has no remainder of its time slice. -/
def World.UsedUp (world : World) (thread : Ptr) : Prop :=
  (world.tsched thread).remainder.sec + (world.tsched thread).remainder.nsec = 0

/-- The active thread before a call of `kthreads_schedule`. -/
structure Poised (world : World) : Prop where
  current : (world.thread world.activeThread).state = .active →
    world.activeThread ∈ world.alive
  parked : (world.thread world.activeThread).state = .ready →
    (world.thread world.activeThread).activated = true →
    (world.tsched world.activeThread).policy = .rr → world.UsedUp world.activeThread

variable {world world' world'' : World} {idle thread other curr : Ptr} {waits : Set Ptr}
  {members members' : Members} {all : List Ptr} {place level : Nat}

section Moves

/-- The invariant depends on the kernel and on the threads alive only. -/
theorem Threads.congr (threads : Threads idle waits world members all)
    (kernel : world'.kernel = world.kernel) (life : world'.life = world.life) :
    Threads idle waits world' members all := by
  have alive : world'.alive = world.alive := by
    unfold World.alive
    rw [life]
  have descriptor : world'.thread = world.thread := by
    unfold World.thread
    rw [kernel]
  exact
    { sound := kernel ▸ alive ▸ threads.sound
      ledger := kernel ▸ alive ▸ threads.ledger
      listed := life ▸ threads.listed
      waiting := alive ▸ descriptor ▸ threads.waiting
      finished := alive ▸ descriptor ▸ threads.finished }

theorem Threads.wait_iff (threads : Threads idle waits world members all)
    (mem : thread ∈ world.alive) : (world.thread thread).state = .wait ↔
      ∃ queue : QueueId, queue.state = .wait ∧ thread ∈ members queue := by
  constructor
  · intro isWaiting
    rcases threads.sound.located thread mem with ⟨active, -⟩ | ⟨queue, inQueue⟩
    · exact absurd (active.symm.trans isWaiting) (by decide)
    · have inState := (threads.sound.placed queue thread inQueue).inState
      exact ⟨queue, inState.symm.trans isWaiting, inQueue⟩
  · rintro ⟨queue, waits, inQueue⟩
    exact (threads.sound.placed queue thread inQueue).inState.trans waits

/-- Threads are moved, and none to a queue for waiting. -/
theorem Threads.regroup (threads : Threads idle waits world members all)
    (tables : SameTables world.kernel world'.kernel)
    (refCnt : ∀ thread, (world'.thread thread).refCnt = (world.thread thread).refCnt)
    (life : world'.life = world.life) (sound : Sound world'.kernel.sched world.alive members')
    (fewer : ∀ queue : QueueId, queue.state = .wait →
      (members' queue).Sublist (members queue))
    (dead : ∀ thread ∉ world.alive,
      (world'.thread thread).state = (world.thread thread).state) :
    Threads idle waits world' members' all := by
  have alive : world'.alive = world.alive := by
    unfold World.alive
    rw [life]
  have ledger : Ledger world'.kernel idle world.alive members' all := by
    refine threads.ledger.congr tables (fun thread mem => ?_) (fun thread notMem => ?_)
      fun thread other mem => ?_
    · have shorter : (members' (.join thread)).length ≤ (members (.join thread)).length :=
        (fewer (.join thread) rfl).length_le
      have counted : ((members (.join thread)).length : Int) < (world.thread thread).refCnt :=
        threads.ledger.counted thread mem
      have bound : ((members' (.join thread)).length : Int) < (world'.thread thread).refCnt := by
        rw [refCnt]
        omega
      exact bound
    · have none := fewer (.join thread) rfl
      rw [threads.ledger.unlisted thread notMem] at none
      exact List.sublist_nil.mp none
    · exact threads.ledger.own thread other ((fewer _ rfl).subset mem)
  refine ⟨alive ▸ sound, alive ▸ ledger, life ▸ threads.listed, ?_, ?_⟩
  · rw [alive]
    intro thread mem isWaiting
    rcases sound.located thread mem with ⟨active, -⟩ | ⟨queue, inQueue⟩
    · exact absurd (active.symm.trans isWaiting) (by decide)
    · have inState := (sound.placed queue thread inQueue).inState
      have queueWaits : queue.state = .wait := inState.symm.trans isWaiting
      refine threads.waiting thread mem ((threads.wait_iff mem).mpr ⟨queue, queueWaits, ?_⟩)
      exact (fewer queue queueWaits).subset inQueue
  · rw [alive]
    intro thread notMem passive
    have none := threads.finished thread notMem ((dead thread notMem).symm.trans passive)
    have shorter := fewer (.join thread) rfl
    rwa [none, List.sublist_nil] at shorter

theorem Threads.reschedule (threads : Threads idle waits world members all)
    (tables : SameTables world.kernel world'.kernel)
    (data : SameData world.kernel.sched world'.kernel.sched)
    (life : world'.life = world.life) (sound : Sound world'.kernel.sched world.alive members')
    (fewer : ∀ queue : QueueId, queue.state = .wait →
      (members' queue).Sublist (members queue))
    (dead : ∀ thread ∉ world.alive,
      (world'.thread thread).state = (world.thread thread).state) :
    Threads idle waits world' members' all :=
  threads.regroup tables (fun thread => congrArg ThreadData.refCnt (data thread)) life sound fewer
    dead

/-- What a change of the scheduler keeps. -/
structure SameWorld (world world' : World) : Prop where
  tables : SameTables world.kernel world'.kernel
  data : SameData world.kernel.sched world'.kernel.sched
  life : world'.life = world.life
  rrAlarm : world'.rrAlarm = world.rrAlarm
  rrParams : world'.rrParams = world.rrParams
  policy : ∀ thread, (world'.tsched thread).policy = (world.tsched thread).policy

theorem SameWorld.refl (world : World) : SameWorld world world :=
  ⟨⟨rfl, rfl, rfl, rfl, rfl, fun _ => rfl, fun _ => rfl⟩, .refl _, rfl, rfl, rfl, fun _ => rfl⟩

theorem SameWorld.trans (first : SameWorld world world') (second : SameWorld world' world'') :
    SameWorld world world'' where
  tables := first.tables.trans second.tables
  data := first.data.trans second.data
  life := second.life.trans first.life
  rrAlarm := second.rrAlarm.trans first.rrAlarm
  rrParams := second.rrParams.trans first.rrParams
  policy := fun thread => (second.policy thread).trans (first.policy thread)

theorem SameWorld.sched {change : Sched → Sched}
    (data : SameData world.kernel.sched (change world.kernel.sched)) :
    SameWorld world (world.onSched change) :=
  ⟨SameTables.sched data, data, rfl, rfl, rfl, fun _ => rfl⟩

theorem SameWorld.alive (same : SameWorld world world') : world'.alive = world.alive := by
  unfold World.alive
  rw [same.life]

theorem World.kthreadMoveToReady_thread :
    (world.kthreadMoveToReady thread place).thread =
      Function.update world.thread thread { world.thread thread with
        state := .ready, queue := some (.ready (world.thread thread).prio) } :=
  world.kernel.sched.kthreadMoveToReady_threads thread place

theorem World.kthreadMoveToReady_same :
    SameWorld world (world.kthreadMoveToReady thread place) :=
  SameWorld.sched (sameData_update (world.kernel.sched.kthreadMoveToReady_threads thread place) rfl)

theorem World.kthreadMoveToReady_activeThread :
    (world.kthreadMoveToReady thread place).activeThread = world.activeThread := by
  unfold World.kthreadMoveToReady World.onSched World.onKernel World.activeThread
    Kernel.activeThread Sched.kthreadMoveToReady
  dsimp only
  split <;> rfl

/-- The active thread is put in a ready list. -/
theorem Threads.kthreadMoveToReady (threads : Threads idle waits world members all)
    (mem : thread ∈ world.alive) (active : (world.thread thread).state = .active)
    (isPlace : place = FIRST ∨ place = LAST) :
    ∃ members', Threads idle waits (world.kthreadMoveToReady thread place) members' all ∧
      SameWaiting (fun _ => False) members members' := by
  have free : ∀ queue, thread ∉ members queue := fun queue => threads.sound.active_free active
  have pointer := threads.sound.pointer thread mem
  have bound := threads.sound.prio thread mem
  have dropped := threads.sound.drop free
  have outside : thread ∉ world.alive \ {thread} := by simp
  have same : SameWorld world (world.kthreadMoveToReady thread place) :=
    World.kthreadMoveToReady_same
  have kept : ∀ list, SameWaiting (fun _ => False) members
      (Function.update members (.ready (world.thread thread).prio) list) :=
    fun list => sameWaiting_ready
  have fewer : ∀ list (queue : QueueId), queue.state = .wait →
      (Function.update members (.ready (world.thread thread).prio) list queue).Sublist
        (members queue) := by
    intro list queue waits
    rw [kept list queue waits not_false]
  have dead : ∀ other ∉ world.alive, ((world.kthreadMoveToReady thread place).thread other).state =
      (world.thread other).state := by
    intro other notMem
    have different : other ≠ thread := fun same => notMem (same ▸ mem)
    rw [World.kthreadMoveToReady_thread, Function.update_of_ne different]
  rcases isPlace with rfl | rfl
  · have moved := dropped.kthreadMoveToReady_first outside pointer rfl bound
    rw [Set.insert_sdiff_singleton, Set.insert_eq_of_mem mem] at moved
    exact ⟨_, threads.reschedule same.tables same.data same.life moved (fewer _) dead, kept _⟩
  · have moved := dropped.kthreadMoveToReady outside pointer rfl bound
    rw [Set.insert_sdiff_singleton, Set.insert_eq_of_mem mem] at moved
    exact ⟨_, threads.reschedule same.tables same.data same.life moved (fewer _) dead, kept _⟩

end Moves

section Leave

/-- A change in which no descriptor but one changes. -/
structure Moves (world world' : World) (curr : Ptr) : Prop extends SameWorld world world' where
  activeThread : world'.activeThread = world.activeThread
  others : ∀ thread, thread ≠ curr → world'.thread thread = world.thread thread

theorem Moves.refl (world : World) (curr : Ptr) : Moves world world curr :=
  { SameWorld.refl world with
    activeThread := rfl
    others := fun _ _ => rfl }

theorem Moves.trans (first : Moves world world' curr) (second : Moves world' world'' curr) :
    Moves world world'' curr :=
  { first.toSameWorld.trans second.toSameWorld with
    activeThread := second.activeThread.trans first.activeThread
    others := fun thread different =>
      (second.others thread different).trans (first.others thread different) }

theorem World.kthreadMoveToReady_moves :
    Moves world (world.kthreadMoveToReady curr place) curr :=
  { World.kthreadMoveToReady_same with
    activeThread := World.kthreadMoveToReady_activeThread
    others := fun thread different => by
      rw [World.kthreadMoveToReady_thread, Function.update_of_ne different] }

/-- The clock and the scheduling data of a thread change, but not its policy. -/
theorem Moves.setSched {data : SchedData}
    (kernel : world'.kernel = world.kernel) (life : world'.life = world.life)
    (rrAlarm : world'.rrAlarm = world.rrAlarm) (rrParams : world'.rrParams = world.rrParams)
    (tsched : world'.tsched = Function.update world.tsched curr data)
    (policy : data.policy = (world.tsched curr).policy) :
    Moves world world' curr where
  tables := kernel ▸ ⟨rfl, rfl, rfl, rfl, rfl, fun _ => rfl, fun _ => rfl⟩
  data := kernel ▸ .refl _
  life := life
  rrAlarm := rrAlarm
  rrParams := rrParams
  policy := fun thread => by
    rw [tsched]
    by_cases same : thread = curr
    · subst same
      rw [Function.update_self, policy]
    · rw [Function.update_of_ne same]
  activeThread := congrArg Kernel.activeThread kernel
  others := fun thread _ => by
    unfold World.thread
    rw [kernel]

/-- A thread leaves the processor: it may be put in a ready list. -/
structure Leaves (idle : Ptr) (waits : Set Ptr) (world world' : World) (members members' : Members)
    (all : List Ptr) (curr : Ptr) : Prop where
  threads : Threads idle waits world' members' all
  moves : Moves world world' curr
  waiting : SameWaiting (fun _ => False) members members'
  state : (world'.thread curr).state = (world.thread curr).state ∨
    (world.thread curr).state = .active ∧ (world'.thread curr).state = .ready

variable {members'' : Members}

theorem Leaves.trans (first : Leaves idle waits world world' members members' all curr)
    (second : Leaves idle waits world' world'' members' members'' all curr) :
    Leaves idle waits world world'' members members'' all curr where
  threads := second.threads
  moves := first.moves.trans second.moves
  waiting := first.waiting.trans second.waiting
  state := by
    rcases second.state with same | ⟨active, ready⟩
    · rw [same]
      exact first.state
    · rcases first.state with same | ⟨wasActive, -⟩
      · exact .inr ⟨same.symm.trans active, ready⟩
      · exact .inr ⟨wasActive, ready⟩

/-- `kthread_move_to_ready` of the active thread. -/
theorem Threads.leaves_ready (threads : Threads idle waits world members all)
    (mem : curr ∈ world.alive) (active : (world.thread curr).state = .active)
    (isPlace : place = FIRST ∨ place = LAST) :
    ∃ members', Leaves idle waits world (world.kthreadMoveToReady curr place) members members'
      all curr ∧ ((world.kthreadMoveToReady curr place).thread curr).state = .ready ∧
      ((world.kthreadMoveToReady curr place).thread curr).activated =
        (world.thread curr).activated := by
  obtain ⟨members', moved, waiting⟩ := threads.kthreadMoveToReady mem active isPlace
  have state : ((world.kthreadMoveToReady curr place).thread curr).state = .ready := by
    rw [World.kthreadMoveToReady_thread, Function.update_self]
  refine ⟨members', ⟨moved, World.kthreadMoveToReady_moves, waiting, .inr ⟨active, state⟩⟩,
    state, ?_⟩
  rw [World.kthreadMoveToReady_thread, Function.update_self]

/-- `rr_thread_deactivate` puts a thread that is active in a ready list. -/
theorem Threads.rrThreadDeactivate (threads : Threads idle waits world members all)
    (current : (world.thread curr).state = .active → curr ∈ world.alive)
    (parked : (world.thread curr).state = .ready → world.UsedUp curr) :
    ∃ members', Leaves idle waits world (world.rrThreadDeactivate curr) members members' all
      curr := by
  by_cases usedUp : (world.tsched curr).remainder.sec + (world.tsched curr).remainder.nsec = 0
  · have result : world.rrThreadDeactivate curr = world := by
      unfold World.rrThreadDeactivate
      exact if_neg (not_not.mpr usedUp)
    rw [result]
    exact ⟨members, threads, .refl .., fun _ _ _ => rfl, .inl rfl⟩
  · generalize restIs : Time.timeSub (world.tsched curr).sliceEnd world.getTime.1 = rest
    generalize laterIs : (world.getTime.2.setSched curr fun data =>
      { data with sliceEnd := rest, remainder := rest }) = later
    have moves : Moves world later curr := by
      rw [← laterIs]
      exact Moves.setSched rfl rfl rfl rfl rfl rfl
    have descriptor : later.thread curr = world.thread curr := by
      rw [← laterIs]
      rfl
    have kept : Threads idle waits later members all := by
      refine threads.congr ?_ moves.life
      rw [← laterIs]
      rfl
    have stays : Leaves idle waits world later members members all curr :=
      ⟨kept, moves, fun _ _ _ => rfl, .inl (congrArg Thread.state descriptor)⟩
    have result : world.rrThreadDeactivate curr =
        if (later.thread curr).state = .active ∨ (later.thread curr).state = .ready then
          if Time.timeCmp rest rrThreshold ≤ 0 then later.kthreadMoveToReady curr LAST
          else later.kthreadMoveToReady curr FIRST
        else later := by
      unfold World.rrThreadDeactivate
      dsimp only
      rw [if_pos usedUp, restIs, laterIs]
    rw [result]
    by_cases active : (world.thread curr).state = .active
    · have mem : curr ∈ later.alive := moves.alive ▸ current active
      have stillActive : (later.thread curr).state = .active := descriptor ▸ active
      rw [if_pos (.inl stillActive)]
      split
      · obtain ⟨members', leaves, -⟩ := kept.leaves_ready mem stillActive (.inr rfl)
        exact ⟨members', stays.trans leaves⟩
      · obtain ⟨members', leaves, -⟩ := kept.leaves_ready mem stillActive (.inl rfl)
        exact ⟨members', stays.trans leaves⟩
    · have notReady : (world.thread curr).state ≠ .ready := fun ready => usedUp (parked ready)
      rw [if_neg (by rw [descriptor]; simp [active, notReady])]
      exact ⟨members, stays⟩

/-- The flag `activated` of a thread is cleared. -/
theorem Threads.leaves_flag (threads : Threads idle waits world members all) (curr : Ptr) :
    Leaves idle waits world (world.onSched fun sched => sched.kschedDeactivateThread curr)
        members members all curr ∧
      ((world.onSched fun sched => sched.kschedDeactivateThread curr).thread curr).activated =
        false := by
  have data : SameData world.kernel.sched (world.kernel.sched.kschedDeactivateThread curr) :=
    sameData_update rfl rfl
  have same : SameWorld world (world.onSched fun sched => sched.kschedDeactivateThread curr) :=
    SameWorld.sched data
  have stored : (world.onSched fun sched => sched.kschedDeactivateThread curr).thread =
      Function.update world.thread curr { world.thread curr with activated := false } := rfl
  have sound : Sound (world.kernel.sched.kschedDeactivateThread curr) world.alive members := by
    apply Sound.setThread_data threads.sound <;> rfl
  have sameState : ∀ thread, ((world.onSched fun sched =>
      sched.kschedDeactivateThread curr).thread thread).state = (world.thread thread).state := by
    intro thread
    rw [stored]
    by_cases isCurr : thread = curr
    · subst isCurr
      rw [Function.update_self]
    · rw [Function.update_of_ne isCurr]
  refine ⟨⟨threads.reschedule same.tables same.data same.life sound
      (fun _ _ => List.Sublist.refl _) fun thread _ => sameState thread,
    { same with activeThread := rfl, others := fun thread different => ?_ }, fun _ _ _ => rfl,
    .inl (sameState curr)⟩, ?_⟩
  · rw [stored, Function.update_of_ne different]
  · rw [stored, Function.update_self]

/-- `ksched_deactivate_thread` of a thread. -/
theorem Threads.kschedDeactivateThread (threads : Threads idle waits world members all)
    (current : (world.thread curr).state = .active → curr ∈ world.alive)
    (parked : (world.thread curr).state = .ready → (world.thread curr).activated = true →
      (world.tsched curr).policy = .rr → world.UsedUp curr) :
    ∃ members', Leaves idle waits world (world.kschedDeactivateThread curr) members members' all
        curr ∧ ((world.kschedDeactivateThread curr).thread curr).activated = false := by
  unfold World.kschedDeactivateThread
  split
  · rename_i isActivated
    have secondary : ∃ members', Leaves idle waits world
        (if (world.tsched curr).policy = .rr then world.rrThreadDeactivate curr else world)
        members members' all curr := by
      split
      · exact threads.rrThreadDeactivate current fun ready => parked ready isActivated ‹_›
      · exact ⟨members, threads, .refl .., fun _ _ _ => rfl, .inl rfl⟩
    obtain ⟨members', leaves⟩ := secondary
    obtain ⟨cleared, flag⟩ := leaves.threads.leaves_flag curr
    exact ⟨members', leaves.trans cleared, flag⟩
  · rename_i inactive
    exact ⟨members, ⟨threads, .refl .., fun _ _ _ => rfl, .inl rfl⟩, by simpa using inactive⟩

/-- After the active thread has left the processor no thread has it. -/
theorem Threads.leaveActive (threads : Threads idle waits world members all)
    (poised : Poised world) :
    ∃ members', Leaves idle waits world world.leaveActive members members' all
        world.activeThread ∧ Sound.Idle world.leaveActive.kernel.sched world.leaveActive.alive ∧
      (world.activeThread ≠ 0 →
        (world.leaveActive.thread world.activeThread).activated = false) := by
  generalize currIs : world.activeThread = curr
  have current := currIs ▸ poised.current
  have parked := currIs ▸ poised.parked
  have only : ∀ other ∈ world.alive, (world.thread other).state = .active → other = curr := by
    intro other mem active
    rcases threads.sound.located other mem with ⟨-, isActive⟩ | ⟨queue, inQueue⟩
    · exact isActive.trans currIs
    · exact absurd inQueue (threads.sound.active_free active)
  -- nobody has the processor once `curr` has left it
  have idleAfter : ∀ {after : World}, Moves world after curr →
      (curr ∈ after.alive → (after.thread curr).state ≠ .active) →
      Sound.Idle after.kernel.sched after.alive := by
    intro after moves left other mem active
    by_cases same : other = curr
    · subst same
      exact left mem active
    · have kept : after.thread other = world.thread other := moves.others other same
      have wasActive : (world.thread other).state = .active := kept ▸ active
      exact same (only other (moves.alive ▸ mem) wasActive)
  by_cases isNull : curr = 0
  · have result : world.leaveActive = world := by
      unfold World.leaveActive
      rw [currIs]
      exact if_neg (not_not.mpr isNull)
    rw [result]
    refine ⟨members, ⟨threads, .refl .., fun _ _ _ => rfl, .inl rfl⟩, idleAfter (.refl ..) ?_,
      fun nonzero => absurd isNull nonzero⟩
    exact fun mem => absurd isNull (threads.sound.ne_zero mem)
  · obtain ⟨between, leaves, flag⟩ := threads.kschedDeactivateThread current parked
    generalize afterIs : world.kschedDeactivateThread curr = after at leaves flag
    have result : world.leaveActive =
        if (after.thread curr).state = .active then after.kthreadMoveToReady curr LAST
        else after := by
      unfold World.leaveActive
      dsimp only
      rw [currIs, if_pos isNull, afterIs]
    rw [result]
    split
    · rename_i active
      have wasActive : (world.thread curr).state = .active := by
        rcases leaves.state with same | ⟨-, ready⟩
        · exact same.symm.trans active
        · exact absurd (ready.symm.trans active) (by decide)
      have mem : curr ∈ after.alive := leaves.moves.alive ▸ current wasActive
      obtain ⟨members', moved, ready, sameFlag⟩ := leaves.threads.leaves_ready mem active (.inr rfl)
      have both := leaves.trans moved
      refine ⟨members', both, idleAfter both.moves fun _ active => ?_,
        fun _ => sameFlag.trans flag⟩
      exact absurd (ready.symm.trans active) (by decide)
    · rename_i inactive
      exact ⟨between, leaves, idleAfter leaves.moves fun _ => inactive, fun _ => flag⟩

end Leave

section Switch

/-- A change of the active thread: the first thread of a level gets the processor. -/
structure Switched (idle : Ptr) (waits : Set Ptr) (world world' : World)
    (members members' : Members) (all : List Ptr) (level : Nat) : Prop where
  threads : Threads idle waits world' members' all
  running : Running world'.kernel.sched world'.alive
  same : SameWorld world world'
  waiting : SameWaiting (fun _ => False) members members'
  activated : ∀ thread ∈ world.alive, (world'.thread thread).activated = true →
    (world.thread thread).activated = true ∧ thread ≠ world.activeThread
  prio : (world'.thread world'.activeThread).prio = level
  ready : ∀ thread, (world'.thread thread).state = .ready →
    (world.thread thread).state = .ready ∨
      thread = world.activeThread ∧ (world.thread thread).state = .active

/-- The first thread of a level is made the active one. -/
theorem Threads.enterActive (threads : Threads idle waits world members all)
    (idleNow : Sound.Idle world.kernel.sched world.alive)
    (entered : world.enterActive level = .ok world') :
    ∃ members', Threads idle waits world' members' all ∧
      Running world'.kernel.sched world'.alive ∧ SameWorld world world' ∧
      SameWaiting (fun _ => False) members members' ∧
      (∀ thread, (world'.thread thread).activated = (world.thread thread).activated) ∧
      (world'.thread world'.activeThread).prio = level ∧
      ∀ thread, (world'.thread thread).state = .ready → (world.thread thread).state = .ready := by
  unfold World.enterActive at entered
  dsimp only at entered
  cases place : members (.ready level) with
  | nil =>
      have none : (world.kernel.sched.kthreadqRemove (.ready level) 0).1 = 0 := by
        unfold Sched.kthreadqRemove
        rw [threads.sound.linked.listRemove_empty place]
      rw [if_pos none] at entered
      cases entered
  | cons next rest =>
      obtain ⟨removed, sound, stored⟩ := threads.sound.becomeActive idleNow place
      have mem : next ∈ world.alive := threads.sound.mem_alive _ next (by rw [place]; simp)
      rw [if_neg (by rw [removed]; exact threads.sound.ne_zero mem), removed] at entered
      obtain rfl := Except.ok.inj entered
      generalize afterIs : ((world.kernel.sched.kthreadqRemove (.ready level) 0).2.markIfEmpty
        level).becomeActive next = after at sound stored ⊢
      have activeIs : after.activeThread = next := by
        rw [← afterIs]
        rfl
      have data : SameData world.kernel.sched after := sameData_update stored rfl
      have same : SameWorld world (world.onSched fun _ => after) := SameWorld.sched data
      have kept : SameWaiting (fun _ => False) members
          (Function.update members (.ready level) rest) := sameWaiting_ready
      have running : Running after world.alive := by
        refine ⟨activeIs.symm ▸ mem, ?_⟩
        rw [activeIs, stored, Function.update_self]
      have descriptor : (world.onSched fun _ => after).thread = Function.update world.thread next
          { world.thread next with state := .active, queue := none } := stored
      have isNext : (world.onSched fun _ => after).activeThread = next := activeIs
      have isLevel : (world.thread next).prio = level :=
        (threads.sound.placed (.ready level) next (by rw [place]; simp)).level level rfl
      refine ⟨_, threads.reschedule same.tables same.data same.life sound ?_ ?_, running, same, kept,
        fun thread => ?_, ?_, fun thread ready => ?_⟩
      · intro queue waits
        rw [kept queue waits not_false]
      · intro thread notMem
        have different : thread ≠ next := fun same => notMem (same ▸ mem)
        rw [descriptor, Function.update_of_ne different]
      · rw [descriptor]
        by_cases isNext : thread = next
        · subst isNext
          rw [Function.update_self]
        · rw [Function.update_of_ne isNext]
      · rw [isNext, descriptor, Function.update_self]
        exact isLevel
      · rw [descriptor] at ready
        by_cases isNext : thread = next
        · subst isNext
          rw [Function.update_self] at ready
          cases ready
        · rwa [Function.update_of_ne isNext] at ready

/-- `kthreads_schedule` changes the active thread. -/
theorem Threads.switch (threads : Threads idle waits world members all) (poised : Poised world)
    (switched : world.leaveActive.enterActive level = .ok world') :
    ∃ members', Switched idle waits world world' members members' all level := by
  obtain ⟨between, leaves, idleNow, flag⟩ := threads.leaveActive poised
  obtain ⟨members', threads', running, same, waiting, activated, prio, ready⟩ :=
    leaves.threads.enterActive idleNow switched
  refine ⟨members', threads', running, leaves.moves.toSameWorld.trans same,
    leaves.waiting.trans waiting, fun thread mem isActivated => ?_, prio, fun thread isReady => ?_⟩
  · rw [activated] at isActivated
    by_cases isCurr : thread = world.activeThread
    · have cleared := flag fun isNull => threads.sound.ne_zero mem (isCurr.trans isNull)
      rw [isCurr, cleared] at isActivated
      cases isActivated
    · rw [leaves.moves.others thread isCurr] at isActivated
      exact ⟨isActivated, isCurr⟩
  · have left : (world.leaveActive.thread thread).state = .ready := ready thread isReady
    by_cases isCurr : thread = world.activeThread
    · subst isCurr
      rcases leaves.state with same | ⟨active, -⟩
      · exact .inl (same.symm.trans left)
      · exact .inr ⟨rfl, active⟩
    · rw [leaves.moves.others thread isCurr] at left
      exact .inl left

end Switch

section Create

variable {policy : SchedPolicy} {prio : Int} {stack kthread proc : Ptr}

/-- What the creation of a thread keeps, and how the thread starts. -/
structure Spawned (idle : Ptr) (waits : Set Ptr) (world world' : World)
    (members members' : Members) (all : List Ptr) (kthread proc : Ptr) : Prop where
  threads : Threads idle waits world' members' (all ++ [kthread])
  alive : world'.alive = insert kthread world.alive
  fresh : kthread ∉ all
  others : ∀ thread, thread ≠ kthread → world'.thread thread = world.thread thread
  state : (world'.thread kthread).state = .ready
  activated : (world'.thread kthread).activated = false
  proc_eq : (world'.thread kthread).proc = proc
  tsched : ∀ thread, thread ≠ kthread → world'.tsched thread = world.tsched thread
  waiting : SameWaiting (fun _ => False) members members'
  activeThread : world'.activeThread = world.activeThread
  rrAlarm : world'.rrAlarm = world.rrAlarm
  rrParams : world'.rrParams = world.rrParams
  life : world'.life = Function.update world.life kthread .living

/-- `ksched_thread_add` changes the scheduling data of one thread. -/
theorem World.kschedThreadAdd_same :
    (world.kschedThreadAdd kthread policy).kernel = world.kernel ∧
      (world.kschedThreadAdd kthread policy).life = world.life ∧
      (world.kschedThreadAdd kthread policy).rrAlarm = world.rrAlarm ∧
      (world.kschedThreadAdd kthread policy).rrParams = world.rrParams ∧
      ∀ thread, thread ≠ kthread →
        (world.kschedThreadAdd kthread policy).tsched thread = world.tsched thread := by
  unfold World.kschedThreadAdd World.threadAdd World.rrThreadAdd World.setSched
  cases policy with
  | fifo => exact ⟨rfl, rfl, rfl, rfl, fun thread different => Function.update_of_ne different ..⟩
  | rr =>
      refine ⟨rfl, rfl, rfl, rfl, fun thread different => ?_⟩
      dsimp only
      rw [Function.update_of_ne different, Function.update_of_ne different]

/-- The stores of `kthread_create` that the invariant looks at. -/
theorem Threads.created (threads : Threads idle waits world members all)
    (fresh : kthread ∉ all) (pointer : 0 < kthread ∧ kthread < addressCount)
    {lists : Lists Unit}
    (ledger : Ledger { world.kernel.numbered.created stack kthread prio proc with procs := lists }
      idle (insert kthread world.alive)
      (enqueued members (.ready (Kernel.clampPrio prio)) kthread) (all ++ [kthread]))
    (kernel : world'.kernel =
      { world.kernel.numbered.created stack kthread prio proc with procs := lists })
    (life : world'.life = Function.update world.life kthread .living)
    (tsched : ∀ thread, thread ≠ kthread → world'.tsched thread = world.tsched thread)
    (rrAlarm : world'.rrAlarm = world.rrAlarm) (rrParams : world'.rrParams = world.rrParams) :
    Spawned idle waits world world' members
      (enqueued members (.ready (Kernel.clampPrio prio)) kthread) all kthread proc := by
  have spec : Created world.kernel (world.kernel.numbered.created stack kthread prio proc) kthread
      stack (Kernel.clampPrio prio) proc := Kernel.created_spec prio
  have dead : kthread ∉ world.alive := fun mem =>
    fresh (threads.ledger.alive_listed kthread mem)
  have alive : world'.alive = insert kthread world.alive := by
    ext thread
    unfold World.alive
    rw [life]
    by_cases same : thread = kthread
    · subst same
      simp
    · simp [same]
  have descriptor : ∀ thread, world'.thread thread =
      (world.kernel.numbered.created stack kthread prio proc).thread thread := by
    intro thread
    unfold World.thread Kernel.thread
    rw [kernel]
  have others : ∀ thread, thread ≠ kthread → world'.thread thread = world.thread thread :=
    fun thread different => (descriptor thread).trans (spec.others thread different)
  have state : (world'.thread kthread).state = .ready := by
    rw [descriptor]
    exact spec.state
  obtain ⟨noJoin, noThrq⟩ := threads.ledger.toRoster.empty_queues threads.sound fresh
  have numbered : Sound world.kernel.numbered.sched world.alive members := threads.sound
  have sound : Sound world'.kernel.sched world'.alive
      (enqueued members (.ready (Kernel.clampPrio prio)) kthread) := by
    rw [kernel, alive]
    exact numbered.created dead noJoin noThrq pointer prio proc
  have waiting : SameWaiting (fun _ => False) members
      (enqueued members (.ready (Kernel.clampPrio prio)) kthread) := sameWaiting_ready
  refine
    { threads := ⟨sound, kernel ▸ alive ▸ ledger, fun thread => ?_, ?_, ?_⟩
      alive := alive
      fresh := fresh
      others := others
      state := state
      activated := ?_
      proc_eq := ?_
      tsched := tsched
      waiting := waiting
      activeThread := ?_
      rrAlarm := rrAlarm
      rrParams := rrParams
      life := life }
  · rw [life, List.mem_append, List.mem_singleton, threads.listed]
    by_cases same : thread = kthread
    · subst same
      simp
    · simp [same]
  · rw [alive]
    rintro thread (isNew | mem) waits
    · rw [isNew, state] at waits
      cases waits
    · rw [others thread fun same => dead (same ▸ mem)] at waits
      exact threads.waiting thread mem waits
  · rw [alive]
    intro thread notMem passive
    rw [waiting (.join thread) rfl not_false]
    rw [others thread fun same => notMem (.inl same)] at passive
    exact threads.finished thread (fun mem => notMem (.inr mem)) passive
  · rw [descriptor]
    have stored : (world.kernel.numbered.created stack kthread prio proc).thread kthread = _ :=
      congrFun (Kernel.created_threads prio) kthread
    rw [stored, Function.update_self]
  · rw [descriptor]
    exact spec.proc_eq
  · unfold World.activeThread Kernel.activeThread
    rw [kernel]
    exact spec.active

/-- What `kthread_create` does when it succeeds. -/
theorem Threads.kthreadCreate_cases (roster : Roster world.kernel idle world.alive members all)
    (listed : ∀ thread, thread ∈ all ↔ world.life thread ≠ .free)
    (created : world.kthreadCreate policy prio stack kthread proc = .ok world') :
    kthread ∉ all ∧ (0 < kthread ∧ kthread < addressCount) ∧
      (world.kernel.lastId + 1) / WBITS < MAX_RESOURCES / WBITS ∧
      world' = ({ world with
        kernel := world.kernel.numbered.created stack kthread prio proc
        life := Function.update world.life kthread .living } : World).kschedThreadAdd kthread
          policy := by
  unfold World.kthreadCreate at created
  split_ifs at created with inUse
  obtain ⟨kernel, result, rfl⟩ := map_ok created
  have isFree : world.life kthread = .free := not_not.mp fun used => inUse (.inl used)
  have fresh : kthread ∉ all := fun mem => (listed kthread).mp mem isFree
  have bound : kthread < addressCount := Nat.lt_of_not_le fun beyond => inUse (.inr beyond)
  by_cases null : stack = 0 ∨ kthread = 0
  · unfold Kernel.kthreadCreate at result
    rw [if_pos null] at result
    cases result
  · have nonzero := not_or.mp null
    rw [roster.kthreadCreate_eq nonzero.2 nonzero.1] at result
    split_ifs at result with full
    obtain rfl := Except.ok.inj result
    exact ⟨fresh, ⟨Nat.pos_of_ne_zero nonzero.2, bound⟩, Nat.lt_of_not_le full, rfl⟩

/-- `kthread_create` of a thread in a process that has threads. -/
theorem Threads.kthreadCreate (threads : Threads idle waits world members all)
    (known : ∃ mate ∈ world.alive, (world.thread mate).proc = proc)
    (created : world.kthreadCreate policy prio stack kthread proc = .ok world') :
    ∃ members', Spawned idle waits world world' members members' all kthread proc := by
  obtain ⟨fresh, pointer, below, rfl⟩ :=
    Threads.kthreadCreate_cases threads.ledger.toRoster threads.listed created
  have ledger : Ledger (world.kernel.numbered.created stack kthread prio proc) idle
      (insert kthread world.alive) (enqueued members (.ready (Kernel.clampPrio prio)) kthread)
      (all ++ [kthread]) := threads.ledger.created fresh pointer below prio known
  obtain ⟨kernel, life, rrAlarm, rrParams, tsched⟩ :=
    @World.kschedThreadAdd_same { world with
      kernel := world.kernel.numbered.created stack kthread prio proc
      life := Function.update world.life kthread .living } policy kthread
  exact ⟨_, threads.created fresh pointer ledger kernel life tsched rrAlarm rrParams⟩

end Create

section Queues

variable {queue : QueueId}

/-- Threads are released from a queue. -/
structure Freed (idle : Ptr) (waits : Set Ptr) (world world' : World)
    (members members' : Members) (all : List Ptr) (queue : QueueId) : Prop where
  threads : Threads idle waits world' members' all
  same : SameWorld world world'
  tsched : world'.tsched = world.tsched
  waiting : SameWaiting (· = queue) members members'
  fewer : (members' queue).Sublist (members queue)
  activeThread : world'.activeThread = world.activeThread
  others : ∀ thread, thread ∉ members queue → world'.thread thread = world.thread thread
  activated : ∀ thread, (world'.thread thread).activated = (world.thread thread).activated

/-- The active thread still has the processor. -/
theorem Freed.running (freed : Freed idle waits world world' members members' all queue)
    (threads : Threads idle waits world members all)
    (running : Running world.kernel.sched world.alive) :
    Running world'.kernel.sched world'.alive := by
  have free : world.activeThread ∉ members queue := threads.sound.active_free running.active
  have kept : world'.thread world.activeThread = world.thread world.activeThread :=
    freed.others world.activeThread free
  have isActive : world'.kernel.sched.activeThread = world.activeThread := freed.activeThread
  refine ⟨?_, ?_⟩
  · rw [freed.same.alive, isActive]
    exact running.mem_alive
  · rw [isActive]
    exact (congrArg Thread.state kept).trans running.active

/-- `kthreadq_release_all`. -/
theorem Threads.kthreadqReleaseAll (threads : Threads idle waits world members all)
    (isWait : queue.state = .wait) :
    ∃ members', Freed idle waits world
        (world.onKernel fun kernel => (kernel.kthreadqReleaseAll queue).2) members members' all
        queue ∧ members' queue = [] := by
  obtain ⟨members', -, sound, empty, releases⟩ := threads.sound.kthreadqReleaseAll isWait
  have fewer : ∀ other : QueueId, other.state = .wait →
      (members' other).Sublist (members other) := by
    intro other waits
    by_cases same : other = queue
    · rw [same, empty]
      exact List.nil_sublist _
    · rw [releases.waiting other waits same]
  have same : SameWorld world (world.onKernel fun kernel => (kernel.kthreadqReleaseAll queue).2) :=
    ⟨SameTables.sched releases.data, releases.data, rfl, rfl, rfl, fun _ => rfl⟩
  have dead : ∀ thread ∉ world.alive,
      ((world.onKernel fun kernel => (kernel.kthreadqReleaseAll queue).2).thread thread).state =
        (world.thread thread).state := by
    intro thread notMem
    have free : thread ∉ members queue := fun inQueue =>
      notMem (threads.sound.mem_alive queue thread inQueue)
    exact congrArg Thread.state (releases.others thread free)
  exact ⟨members', ⟨threads.reschedule same.tables same.data rfl sound fewer dead, same, rfl,
    releases.waiting, fewer queue isWait, releases.active, releases.others, releases.activated⟩,
    empty⟩

/-- `kthreadq_release`. -/
theorem Threads.kthreadqRelease (threads : Threads idle waits world members all)
    (isWait : queue.state = .wait) :
    ∃ members', Freed idle waits world
      (world.onKernel fun kernel => (kernel.kthreadqRelease queue).2) members members' all
      queue := by
  cases place : members queue with
  | nil =>
      have result : (world.onKernel fun kernel => (kernel.kthreadqRelease queue).2) = world := by
        unfold World.onKernel Kernel.kthreadqRelease
        dsimp only
        rw [threads.sound.kthreadqRelease_empty place]
      rw [result]
      exact ⟨members, threads, .refl _, rfl, fun _ _ _ => rfl, .refl _, rfl, fun _ _ => rfl,
        fun _ => rfl⟩
  | cons thread rest =>
      obtain ⟨-, sound, stored, active⟩ := threads.sound.kthreadqRelease place isWait
      have notReady : ∀ level, QueueId.ready level ≠ queue := by
        rintro level rfl
        simp [QueueId.state] at isWait
      have waiting : SameWaiting (· = queue) members
          (Sound.released members queue thread rest (world.thread thread).prio) :=
        SameWaiting.trans (sameWaiting_update rfl) sameWaiting_ready
      have shorter : Sound.released members queue thread rest (world.thread thread).prio queue =
          rest := by
        unfold Sound.released
        rw [Function.update_of_ne (notReady _).symm, Function.update_self]
      have fewer : ∀ other : QueueId, other.state = .wait →
          (Sound.released members queue thread rest (world.thread thread).prio other).Sublist
            (members other) := by
        intro other waits
        by_cases same : other = queue
        · rw [same, shorter, place]
          exact List.sublist_cons_self thread rest
        · rw [waiting other waits same]
      have data : SameData world.kernel.sched (world.kernel.sched.kthreadqRelease queue).2 :=
        sameData_update stored rfl
      have same : SameWorld world
          (world.onKernel fun kernel => (kernel.kthreadqRelease queue).2) :=
        ⟨SameTables.sched data, data, rfl, rfl, rfl, fun _ => rfl⟩
      have descriptor : (world.onKernel fun kernel => (kernel.kthreadqRelease queue).2).thread =
          Function.update world.thread thread { world.thread thread with
            state := .ready, queue := some (.ready (world.thread thread).prio) } := stored
      have mem : thread ∈ world.alive :=
        threads.sound.mem_alive queue thread (place ▸ List.mem_cons_self)
      refine ⟨_, threads.reschedule same.tables same.data rfl sound fewer ?_, same, rfl, waiting,
        fewer queue isWait, active, fun other notMem => ?_, fun other => ?_⟩
      · intro other notMem
        have different : other ≠ thread := fun same => notMem (same ▸ mem)
        rw [descriptor, Function.update_of_ne different]
      · rw [descriptor, Function.update_of_ne]
        rintro rfl
        exact notMem (place ▸ List.mem_cons_self)
      · rw [descriptor]
        by_cases isThread : other = thread
        · subst isThread
          rw [Function.update_self]
        · rw [Function.update_of_ne isThread]

theorem enqueued_length (members : Members) (queue : QueueId) (thread : Ptr) :
    ((enqueued members queue thread queue).length : Int) = (members queue).length + 1 := by
  unfold enqueued
  rw [Function.update_self, List.length_append]
  rfl

/-- The active thread waits in a queue; who waits for the end of a thread is counted. -/
theorem Threads.kthreadEnqueue (threads : Threads idle waits world members all)
    (running : Running world.kernel.sched world.alive) (isWait : queue.state = .wait)
    (join : ∀ thread, queue = .join thread → thread ∈ all ∧
      ((members queue).length : Int) + 1 < (world.thread thread).refCnt ∧
      (world.thread thread).state ≠ .passive)
    (own : ∀ thread, queue = .thrq (.thread thread) → world.activeThread = thread) :
    Threads idle (insert world.activeThread waits)
        (world.onSched fun sched => sched.kthreadEnqueue world.activeThread queue)
        (enqueued members queue world.activeThread) all ∧
      SameWorld world (world.onSched fun sched => sched.kthreadEnqueue world.activeThread queue) ∧
      (world.onSched fun sched => sched.kthreadEnqueue world.activeThread queue).thread =
        Function.update world.thread world.activeThread
          { world.thread world.activeThread with state := .wait, queue := some queue } ∧
      (world.onSched fun sched => sched.kthreadEnqueue world.activeThread queue).activeThread =
        world.activeThread := by
  have mem : world.activeThread ∈ world.alive := running.mem_alive
  have free : ∀ queue, world.activeThread ∉ members queue :=
    fun queue => threads.sound.active_free running.active
  have pointer := threads.sound.pointer _ mem
  have stored := world.kernel.sched.kthreadEnqueue_threads queue pointer.1.ne'
  have data : SameData world.kernel.sched
      (world.kernel.sched.kthreadEnqueue world.activeThread queue) := sameData_update stored rfl
  have same : SameWorld world
      (world.onSched fun sched => sched.kthreadEnqueue world.activeThread queue) :=
    SameWorld.sched data
  have entered := (threads.sound.drop free).kthreadEnqueue (by simp) pointer
    (threads.sound.prio _ mem) isWait
  rw [Set.insert_sdiff_singleton, Set.insert_eq_of_mem mem] at entered
  have others : ∀ other, other ≠ queue →
      enqueued members queue world.activeThread other = members other :=
    fun other different => Function.update_of_ne different ..
  have descriptor : (world.onSched fun sched =>
      sched.kthreadEnqueue world.activeThread queue).thread =
        Function.update world.thread world.activeThread
          { world.thread world.activeThread with state := .wait, queue := some queue } := stored
  have active : (world.onSched fun sched =>
      sched.kthreadEnqueue world.activeThread queue).activeThread = world.activeThread := by
    have eq := world.kernel.sched.kthreadEnqueue_eq queue pointer.1.ne'
    have sameActive : (world.kernel.sched.kthreadEnqueue world.activeThread queue).activeThread =
        world.kernel.sched.activeThread := by
      rw [eq]
      rfl
    exact sameActive
  have ledger : Ledger (world.onSched fun sched =>
      sched.kthreadEnqueue world.activeThread queue).kernel idle world.alive
      (enqueued members queue world.activeThread) all := by
    refine threads.ledger.congr same.tables (fun thread memAll => ?_) (fun thread notMem => ?_)
      fun thread other inQueue => ?_
    · have refCnt : ((world.onSched fun sched =>
          sched.kthreadEnqueue world.activeThread queue).thread thread).refCnt =
          (world.thread thread).refCnt := congrArg ThreadData.refCnt (data thread)
      refine lt_of_lt_of_eq ?_ refCnt.symm
      by_cases isJoin : queue = .join thread
      · have counted := (join thread isJoin).2.1
        rw [← isJoin, enqueued_length]
        exact counted
      · rw [others _ (Ne.symm isJoin)]
        exact threads.ledger.counted thread memAll
    · have notJoin : queue ≠ .join thread := fun isJoin => notMem (join thread isJoin).1
      rw [others _ notJoin.symm]
      exact threads.ledger.unlisted thread notMem
    · by_cases isOwn : queue = .thrq (.thread thread)
      · subst isOwn
        unfold enqueued at inQueue
        rw [Function.update_self, List.mem_append, List.mem_singleton] at inQueue
        rcases inQueue with old | isActive
        · exact threads.ledger.own thread other old
        · exact isActive.trans (own thread rfl)
      · rw [others _ (Ne.symm isOwn)] at inQueue
        exact threads.ledger.own thread other inQueue
  refine ⟨⟨entered, ledger, threads.listed, fun thread inAlive isWaiting => ?_,
    fun thread notMem passive => ?_⟩, same, descriptor, active⟩
  · by_cases isActive : thread = world.activeThread
    · exact .inl isActive
    · rw [descriptor, Function.update_of_ne isActive] at isWaiting
      exact .inr (threads.waiting thread inAlive isWaiting)
  · have inactive : thread ≠ world.activeThread := fun same => notMem (same ▸ mem)
    rw [descriptor, Function.update_of_ne inactive] at passive
    have notJoin : queue ≠ .join thread := fun isJoin => (join thread isJoin).2.2 passive
    rw [others _ notJoin.symm]
    exact threads.finished thread notMem passive

end Queues

section Data

variable {change : Thread → Thread}

/-- The data of a thread may change where the kernel does not keep accounts. -/
theorem Threads.setThread (threads : Threads idle waits world members all)
    (state : (change (world.thread thread)).state = (world.thread thread).state)
    (inQueue : (change (world.thread thread)).queue = (world.thread thread).queue)
    (prio : (change (world.thread thread)).prio = (world.thread thread).prio)
    (id : (change (world.thread thread)).id = (world.thread thread).id)
    (proc : (change (world.thread thread)).proc = (world.thread thread).proc)
    (refCnt : (world.thread thread).refCnt ≤ (change (world.thread thread)).refCnt) :
    Threads idle waits (world.onKernel (Kernel.setThread thread change)) members all where
  sound := threads.sound.setThread_data state inQueue prio
  ledger := by
    refine threads.ledger.congr ⟨rfl, rfl, rfl, rfl, rfl, fun other => ?_, fun other => ?_⟩
      (fun other mem => ?_) threads.ledger.unlisted threads.ledger.own
    · exact Kernel.setThread_field (fun descriptor => descriptor.id) id
    · exact Kernel.setThread_field (fun descriptor => descriptor.proc) proc
    · have counted := threads.ledger.counted other mem
      by_cases same : other = thread
      · subst same
        have stored : ((world.onKernel (Kernel.setThread other change)).kernel.thread other) =
            change (world.thread other) := Kernel.setThread_same
        rw [stored]
        exact counted.trans_le refCnt
      · have stored : ((world.onKernel (Kernel.setThread thread change)).kernel.thread other) =
            world.thread other := Kernel.setThread_other same
        rw [stored]
        exact counted
  listed := threads.listed
  waiting := fun other mem isWaiting => by
    refine threads.waiting other mem ?_
    have kept : ((world.kernel.setThread thread change).thread other).state =
        (world.kernel.thread other).state := Kernel.setThread_field Thread.state state
    exact kept.symm.trans isWaiting
  finished := fun other notMem passive => by
    have kept : ((world.kernel.setThread thread change).thread other).state =
        (world.kernel.thread other).state := Kernel.setThread_field Thread.state state
    exact threads.finished other notMem (kept.symm.trans passive)

theorem Threads.kfree (threads : Threads idle waits world members all) (block : Ptr) :
    Threads idle waits (world.onKernel (Kernel.kfree block)) members all where
  sound := threads.sound
  ledger := threads.ledger.congr ⟨rfl, rfl, rfl, rfl, rfl, fun _ => rfl, fun _ => rfl⟩
    threads.ledger.counted threads.ledger.unlisted threads.ledger.own
  listed := threads.listed
  waiting := threads.waiting
  finished := threads.finished

end Data

end Oseer
