import Oseer.SchedSound

/-!
# What the scheduling routines do

One theorem for each of `kthreadq_release`, `kthreadq_release_all`,
`kthreads_schedule` and `kthread_set_prio`: it keeps the invariant, and it
says what becomes of the queues.  No routine changes the data of a thread, and
apart from the queue it is called for, no queue of waiting threads.
-/

namespace Oseer

open LinkedRing

/-- The queues of waiting threads are the same, apart from those that satisfy
`touched`. -/
def SameWaiting (touched : QueueId → Prop) (members members' : Members) : Prop :=
  ∀ queue : QueueId, queue.state = .wait → ¬ touched queue → members' queue = members queue

/-- No data of any thread is different. -/
def SameData (sched sched' : Sched) : Prop :=
  ∀ thread, (sched'.threads thread).toThreadData = (sched.threads thread).toThreadData

variable {sched sched' sched'' : Sched} {alive : Set Ptr} {members members' members'' : Members}
  {thread other : Ptr} {queue : QueueId} {rest : List Ptr} {touched : QueueId → Prop}

theorem SameWaiting.trans (first : SameWaiting touched members members')
    (second : SameWaiting touched members' members'') : SameWaiting touched members members'' :=
  fun queue waits untouched =>
    (second queue waits untouched).trans (first queue waits untouched)

theorem SameWaiting.mono {touched' : QueueId → Prop} (same : SameWaiting touched members members')
    (sub : ∀ queue, touched queue → touched' queue) : SameWaiting touched' members members' :=
  fun queue waits untouched => same queue waits (mt (sub queue) untouched)

theorem SameData.refl (sched : Sched) : SameData sched sched := fun _ => rfl

theorem SameData.trans (first : SameData sched sched') (second : SameData sched' sched'') :
    SameData sched sched'' :=
  fun thread => (second thread).trans (first thread)

theorem SameData.prio (same : SameData sched sched') (thread : Ptr) :
    (sched'.threads thread).prio = (sched.threads thread).prio :=
  congrArg ThreadData.prio (same thread)

/-- A change of the state, the queue or the flag of a thread leaves its
data. -/
theorem sameData_update {descriptor : Thread}
    (threads : sched'.threads = Function.update sched.threads thread descriptor)
    (data : descriptor.toThreadData = (sched.threads thread).toThreadData) :
    SameData sched sched' := by
  intro other
  rw [threads]
  by_cases same : other = thread
  · subst same
    rw [Function.update_self, data]
  · rw [Function.update_of_ne same]

theorem sameWaiting_ready {level : Nat} {list : List Ptr} :
    SameWaiting touched members (Function.update members (.ready level) list) := by
  intro queue waits _
  refine Function.update_of_ne ?_ ..
  rintro rfl
  simp [QueueId.state] at waits

theorem sameWaiting_update {list : List Ptr} (sub : touched queue) :
    SameWaiting touched members (Function.update members queue list) := by
  intro queue' _ untouched
  refine Function.update_of_ne ?_ ..
  rintro rfl
  exact untouched sub

namespace Sound

section Release

/-- The members of the queues after the first thread of a queue is released. -/
def released (members : Members) (queue : QueueId) (thread : Ptr) (rest : List Ptr)
    (level : Nat) : Members :=
  Function.update (Function.update members queue rest) (.ready level)
    (members (.ready level) ++ [thread])

/-- `kthreadq_release` moves the first thread of the queue to the ready
threads. -/
theorem kthreadqRelease (sound : Sound sched alive members)
    (place : members queue = thread :: rest) (waits : queue.state = .wait) :
    (sched.kthreadqRelease queue).1 = 1 ∧
      Sound (sched.kthreadqRelease queue).2 alive
        (released members queue thread rest (sched.threads thread).prio) ∧
      (sched.kthreadqRelease queue).2.threads =
        Function.update sched.threads thread { sched.threads thread with
          state := .ready, queue := some (.ready (sched.threads thread).prio) } ∧
      (sched.kthreadqRelease queue).2.activeThread = sched.activeThread := by
  have mem : thread ∈ members queue := by simp [place]
  have inAlive := sound.mem_alive queue thread mem
  have nonzero := sound.ne_zero inAlive
  have first : sched.kthreadqRemove queue 0 = sched.kthreadqRemove queue thread := by
    unfold Sched.kthreadqRemove
    rw [sound.linked.listRemove_first place]
  have place' : members queue = [] ++ thread :: rest := place
  obtain ⟨removed, taken⟩ := sound.kthreadqRemove place' waits
  have result : sched.kthreadqRelease queue =
      (1, (sched.kthreadqRemove queue thread).2.kthreadMoveToReady thread LAST) := by
    simp only [Sched.kthreadqRelease, first, removed]
    exact if_pos nonzero
  have moved := taken.kthreadMoveToReady (by simp) (sound.pointer thread inAlive) rfl
    (sound.prio thread inAlive)
  have notReady : ∀ prio, QueueId.ready prio ≠ queue := by
    rintro prio rfl
    simp [QueueId.state] at waits
  rw [Set.insert_sdiff_singleton, Set.insert_eq_of_mem inAlive,
    Function.update_of_ne (notReady _)] at moved
  rw [result]
  exact ⟨rfl, moved, rfl, rfl⟩

theorem kthreadqRelease_empty (sound : Sound sched alive members)
    (empty : members queue = []) : sched.kthreadqRelease queue = (0, sched) := by
  unfold Sched.kthreadqRelease Sched.kthreadqRemove
  rw [sound.linked.listRemove_empty empty]
  rfl

/-- What a routine that releases threads of one queue keeps. -/
structure Releases (sched sched' : Sched) (members members' : Members)
    (queue : QueueId) : Prop where
  active : sched'.activeThread = sched.activeThread
  data : SameData sched sched'
  waiting : SameWaiting (· = queue) members members'
  others : ∀ thread, thread ∉ members queue → sched'.threads thread = sched.threads thread
  activated : ∀ thread, (sched'.threads thread).activated = (sched.threads thread).activated
  ready : ∀ level, ∃ moved, members' (.ready level) = members (.ready level) ++ moved

/-- The loop of `kthreadq_release_all` empties the queue. -/
theorem releaseLoop (sound : Sound sched alive members) (waits : queue.state = .wait)
    {fuel : Nat} (enough : (members queue).length < fuel) :
    ∃ members', (sched.releaseLoop queue fuel).1 = (members queue).length ∧
      Sound (sched.releaseLoop queue fuel).2 alive members' ∧ members' queue = [] ∧
      Releases sched (sched.releaseLoop queue fuel).2 members members' queue := by
  induction fuel generalizing sched members with
  | zero => exact absurd enough (Nat.not_lt_zero _)
  | succ fuel ih =>
      unfold Sched.releaseLoop
      cases place : members queue with
      | nil =>
          rw [sound.kthreadqRelease_empty place]
          exact ⟨members, rfl, sound, place, rfl, .refl _, fun _ _ _ => rfl, fun _ _ => rfl,
            fun _ => rfl, fun _ => ⟨[], by simp⟩⟩
      | cons thread rest =>
          obtain ⟨count, moved, threads, active⟩ := sound.kthreadqRelease place waits
          have notReady : queue ≠ .ready (sched.threads thread).prio := by
            rintro rfl
            simp [QueueId.state] at waits
          have restIs : released members queue thread rest (sched.threads thread).prio queue =
              rest := by
            unfold released
            rw [Function.update_of_ne notReady, Function.update_self]
          have shorter : rest.length < fuel := by
            rw [place, List.length_cons] at enough
            omega
          obtain ⟨members', total, sound', empty, releases⟩ :=
            ih moved (by rw [restIs]; exact shorter)
          rw [restIs] at total
          have notOne : (sched.kthreadqRelease queue).1 ≠ 0 := by
            rw [count]
            decide
          simp only [if_neg notOne]
          refine ⟨members', by rw [total, List.length_cons], sound', empty, ?_⟩
          refine ⟨releases.active.trans active, ?_, ?_, ?_, fun other => ?_, ?_⟩
          · exact (sameData_update threads rfl).trans releases.data
          · have here : SameWaiting (· = queue) members
                (released members queue thread rest (sched.threads thread).prio) :=
              SameWaiting.trans (sameWaiting_update (rfl : queue = queue)) sameWaiting_ready
            exact here.trans releases.waiting
          · intro other notMem
            have notIn : other ∉
                released members queue thread rest (sched.threads thread).prio queue := by
              rw [restIs]
              exact fun inRest => notMem (place ▸ List.mem_cons_of_mem _ inRest)
            rw [releases.others other notIn, threads, Function.update_of_ne]
            rintro rfl
            exact notMem (place ▸ List.mem_cons_self)
          · rw [releases.activated other, threads]
            by_cases same : other = thread
            · subst same
              rw [Function.update_self]
            · rw [Function.update_of_ne same]
          · intro level
            obtain ⟨more, shape⟩ := releases.ready level
            unfold released at shape
            by_cases same : level = (sched.threads thread).prio
            · subst same
              rw [Function.update_self] at shape
              exact ⟨[thread] ++ more, by rw [shape, List.append_assoc]⟩
            · have other : QueueId.ready level ≠ queue := by
                rintro rfl
                simp [QueueId.state] at waits
              rw [Function.update_of_ne (by simpa using same),
                Function.update_of_ne other] at shape
              exact ⟨more, shape⟩

/-- The loop of `kthreadq_release_all` makes the threads ready. -/
theorem releaseLoop_ready (sound : Sound sched alive members) (waits : queue.state = .wait)
    {fuel : Nat} (enough : (members queue).length < fuel) (mem : thread ∈ members queue) :
    ((sched.releaseLoop queue fuel).2.threads thread).state = .ready := by
  induction fuel generalizing sched members with
  | zero => exact absurd enough (Nat.not_lt_zero _)
  | succ fuel ih =>
      unfold Sched.releaseLoop
      cases place : members queue with
      | nil =>
          rw [place] at mem
          cases mem
      | cons first rest =>
          obtain ⟨count, moved, threads, -⟩ := sound.kthreadqRelease place waits
          have notReady : queue ≠ .ready (sched.threads first).prio := by
            rintro rfl
            simp [QueueId.state] at waits
          have restIs : released members queue first rest (sched.threads first).prio queue =
              rest := by
            unfold released
            rw [Function.update_of_ne notReady, Function.update_self]
          have shorter : (released members queue first rest (sched.threads first).prio
              queue).length < fuel := by
            rw [restIs]
            rw [place, List.length_cons] at enough
            omega
          have notOne : (sched.kthreadqRelease queue).1 ≠ 0 := by
            rw [count]
            decide
          simp only [if_neg notOne]
          by_cases inRest : thread ∈ rest
          · exact ih moved shorter (restIs.symm ▸ inRest)
          · obtain ⟨_, -, -, -, releases⟩ := moved.releaseLoop waits shorter
            have isFirst : thread = first := by
              rw [place, List.mem_cons] at mem
              exact mem.resolve_right inRest
            rw [releases.others thread (restIs.symm ▸ inRest), threads, isFirst,
              Function.update_self]

theorem length_lt (sound : Sound sched alive members) :
    (members queue).length < addressCount := by
  apply length_lt_addressCount (sound.linked.nodup queue)
  intro thread inQueue
  exact (sound.pointer thread (sound.mem_alive queue thread inQueue)).2

theorem kthreadqReleaseAll (sound : Sound sched alive members) (waits : queue.state = .wait) :
    ∃ members', (sched.kthreadqReleaseAll queue).1 = (members queue).length ∧
      Sound (sched.kthreadqReleaseAll queue).2 alive members' ∧ members' queue = [] ∧
      Releases sched (sched.kthreadqReleaseAll queue).2 members members' queue :=
  sound.releaseLoop waits sound.length_lt

theorem kthreadqReleaseAll_ready (sound : Sound sched alive members)
    (waits : queue.state = .wait) (mem : thread ∈ members queue) :
    ((sched.kthreadqReleaseAll queue).2.threads thread).state = .ready :=
  sound.releaseLoop_ready waits sound.length_lt mem

end Release

section Switch

/-- No thread alive has the state `THR_STATE_ACTIVE`. -/
def Idle (sched : Sched) (alive : Set Ptr) : Prop :=
  ∀ thread ∈ alive, (sched.threads thread).state ≠ .active

/-- A thread in transit becomes the active thread. -/
theorem enter (sound : Sound sched alive members) (idle : Idle sched alive)
    (dead : thread ∉ alive) (pointer : 0 < thread ∧ thread < addressCount)
    (queues : sched'.queues = sched.queues) (mask : sched'.rdyMask = sched.rdyMask)
    (active : sched'.activeThread = thread)
    (threads : ∀ other, other ≠ thread → sched'.threads other = sched.threads other)
    (state : (sched'.threads thread).state = .active)
    (prio : (sched'.threads thread).prio < PRIO_LEVELS) :
    Sound sched' (insert thread alive) members := by
  have old : ∀ other ∈ alive, sched'.threads other = sched.threads other :=
    fun other mem => threads other fun same => dead (same ▸ mem)
  exact
    { linked := queues ▸ sound.linked
      mem_alive := fun queue other mem => .inr (sound.mem_alive queue other mem)
      placed := fun queue other mem =>
        old other (sound.mem_alive queue other mem) ▸ sound.placed queue other mem
      located := by
        rintro other (isThread | mem)
        · exact .inl (isThread ▸ ⟨state, active.symm⟩)
        · rcases sound.located other mem with ⟨isActive, -⟩ | inQueue
          · exact absurd isActive (idle other mem)
          · exact .inr inQueue
      mask := mask ▸ sound.mask
      prio := by
        rintro other (isThread | mem)
        · exact isThread ▸ prio
        · exact old other mem ▸ sound.prio other mem
      pointer := by
        rintro other (isThread | mem)
        · exact isThread ▸ pointer
        · exact sound.pointer other mem }

/-- What `kthreads_schedule` keeps. -/
structure Switches (sched sched' : Sched) (alive : Set Ptr) (members members' : Members) :
    Prop where
  data : SameData sched sched'
  waiting : SameWaiting (fun _ => False) members members'
  dead : ∀ thread ∉ alive, (sched'.threads thread).state = (sched.threads thread).state ∧
    (sched'.threads thread).queue = (sched.threads thread).queue

theorem Switches.refl (sched : Sched) (alive : Set Ptr) (members : Members) :
    Switches sched sched alive members members :=
  ⟨.refl _, fun _ _ _ => rfl, fun _ _ => ⟨rfl, rfl⟩⟩

/-- The first thread of a level leaves it and becomes the active thread. -/
theorem becomeActive (sound : Sound sched alive members) (idle : Idle sched alive)
    {level : Nat} (place : members (.ready level) = thread :: rest) :
    (sched.kthreadqRemove (.ready level) 0).1 = thread ∧
      Sound (((sched.kthreadqRemove (.ready level) 0).2.markIfEmpty level).becomeActive thread)
        alive (Function.update members (.ready level) rest) ∧
      (((sched.kthreadqRemove (.ready level) 0).2.markIfEmpty level).becomeActive
        thread).threads = Function.update sched.threads thread
          { sched.threads thread with state := .active, queue := none } := by
  have mem : thread ∈ members (.ready level) := by simp [place]
  have inAlive := sound.mem_alive _ thread mem
  have first : sched.kthreadqRemove (.ready level) 0 =
      sched.kthreadqRemove (.ready level) thread := by
    unfold Sched.kthreadqRemove
    rw [sound.linked.listRemove_first place]
  have place' : members (.ready level) = [] ++ thread :: rest := place
  obtain ⟨removed, taken⟩ := sound.takeReady place'
  rw [first]
  generalize takenIs : (sched.kthreadqRemove (.ready level) thread).2.markIfEmpty level =
    after at taken ⊢
  have threads : after.threads = sched.threads := by
    rw [← takenIs]
    unfold Sched.markIfEmpty
    split <;> rfl
  have changed : (after.becomeActive thread).threads =
      Function.update sched.threads thread
        { sched.threads thread with state := .active, queue := none } := by
    unfold Sched.becomeActive Sched.setThread
    simp only [threads]
  have idle' : Idle after (alive \ {thread}) := fun other memOther =>
    threads ▸ idle other memOther.1
  have entered : Sound (after.becomeActive thread) (insert thread (alive \ {thread}))
      (Function.update members (.ready level) rest) := by
    refine taken.enter idle' (by simp) (sound.pointer thread inAlive) rfl rfl rfl ?_ ?_ ?_
    · intro other different
      rw [changed, Function.update_of_ne different, threads]
    · rw [changed, Function.update_self]
    · rw [changed, Function.update_self]
      exact sound.prio thread inAlive
  rw [Set.insert_sdiff_singleton, Set.insert_eq_of_mem inAlive] at entered
  exact ⟨removed, entered, changed⟩

/-- The second part of a change of the active thread. -/
theorem enterActive (sound : Sound sched alive members) (idle : Idle sched alive)
    {level : Nat} (place : members (.ready level) = thread :: rest) :
    ∃ sched', sched.enterActive level = .ok sched' ∧
      Sound sched' alive (Function.update members (.ready level) rest) ∧
      Running sched' alive ∧ sched'.activeThread = thread ∧ SameData sched sched' ∧
      ∀ other, other ≠ thread → sched'.threads other = sched.threads other := by
  have mem : thread ∈ members (.ready level) := by simp [place]
  have inAlive := sound.mem_alive _ thread mem
  obtain ⟨removed, entered, stored⟩ := sound.becomeActive idle place
  generalize afterIs : ((sched.kthreadqRemove (.ready level) 0).2.markIfEmpty
    level).becomeActive thread = after at entered stored
  have result : sched.enterActive level = .ok (after.kschedActivateThread thread) := by
    simp only [Sched.enterActive, removed, if_neg (sound.ne_zero inAlive), Sched.makeActive,
      afterIs]
  have changed : (after.kschedActivateThread thread).threads =
      Function.update sched.threads thread { sched.threads thread with
        state := .active, queue := none, activated := true } := by
    unfold Sched.kschedActivateThread Sched.setThread
    simp [stored]
  have flagged : Sound (after.kschedActivateThread thread) alive
      (Function.update members (.ready level) rest) := by
    apply Sound.setThread_data entered <;> rfl
  have active : (after.kschedActivateThread thread).activeThread = thread := by
    rw [← afterIs]
    rfl
  refine ⟨_, result, flagged, ⟨active.symm ▸ inAlive, ?_⟩, active, sameData_update changed rfl,
    fun other different => by rw [changed, Function.update_of_ne different]⟩
  rw [active, changed, Function.update_self]

/-- The first part of a change of the active thread: nobody is active then. -/
theorem leaveActive (sound : Sound sched alive members)
    (current : (sched.threads sched.activeThread).state = .active →
      sched.activeThread ∈ alive) :
    ∃ members', Sound sched.leaveActive alive members' ∧ Idle sched.leaveActive alive ∧
      Switches sched sched.leaveActive alive members members' ∧
      ∀ level, level ≠ (sched.threads sched.activeThread).prio ∨
          (sched.threads sched.activeThread).state ≠ .active →
        members' (.ready level) = members (.ready level) := by
  generalize currIs : sched.activeThread = curr at current ⊢
  have others : ∀ other ∈ alive, (sched.threads other).state = .active → other = curr := by
    intro other mem active
    rcases sound.located other mem with ⟨-, isActive⟩ | ⟨queue, inQueue⟩
    · exact isActive.trans currIs
    · exact absurd inQueue (sound.active_free active)
  by_cases none : curr = 0
  · have same : sched.leaveActive = sched := by
      unfold Sched.leaveActive
      rw [currIs]
      exact if_neg (by simp [none])
    rw [same]
    refine ⟨members, sound, fun other mem active => ?_, .refl .., fun _ _ => rfl⟩
    exact sound.ne_zero mem ((others other mem active).trans none)
  · have flag : ∀ other, ((sched.kschedDeactivateThread curr).threads other).state =
        (sched.threads other).state ∧
        ((sched.kschedDeactivateThread curr).threads other).queue =
          (sched.threads other).queue ∧
        ((sched.kschedDeactivateThread curr).threads other).toThreadData =
          (sched.threads other).toThreadData := by
      intro other
      unfold Sched.kschedDeactivateThread
      by_cases same : other = curr
      · subst same
        rw [Sched.setThread_same]
        exact ⟨rfl, rfl, rfl⟩
      · rw [Sched.setThread_other same]
        exact ⟨rfl, rfl, rfl⟩
    have deactivated : Sound (sched.kschedDeactivateThread curr) alive members :=
      sound.congr rfl rfl rfl fun other _ =>
        ⟨(flag other).1, (flag other).2.1, .inl (congrArg ThreadData.prio (flag other).2.2)⟩
    by_cases active : (sched.threads curr).state = .active
    · have inAlive := current active
      have result : sched.leaveActive =
          (sched.kschedDeactivateThread curr).kthreadMoveToReady curr LAST := by
        unfold Sched.leaveActive
        simp only [currIs]
        rw [if_pos none, if_pos ((flag curr).1.trans active)]
      have free : ∀ queue, curr ∉ members queue := fun queue => sound.active_free active
      have prioIs : ((sched.kschedDeactivateThread curr).threads curr).prio =
          (sched.threads curr).prio := congrArg ThreadData.prio (flag curr).2.2
      have moved := (deactivated.drop free).kthreadMoveToReady (by simp)
        (sound.pointer curr inAlive) prioIs (sound.prio curr inAlive)
      rw [Set.insert_sdiff_singleton, Set.insert_eq_of_mem inAlive, ← result] at moved
      have threads := (sched.kschedDeactivateThread curr).kthreadMoveToReady_threads curr LAST
      rw [← result] at threads
      refine ⟨_, moved, fun other mem isActive => ?_, ⟨?_, sameWaiting_ready, ?_⟩, ?_⟩
      · rw [threads] at isActive
        by_cases same : other = curr
        · subst same
          rw [Function.update_self] at isActive
          cases isActive
        · rw [Function.update_of_ne same, (flag other).1] at isActive
          exact same (others other mem isActive)
      · exact SameData.trans (fun other => (flag other).2.2) (sameData_update threads rfl)
      · intro other dead
        have different : other ≠ curr := fun same => dead (same ▸ inAlive)
        rw [threads, Function.update_of_ne different]
        exact ⟨(flag other).1, (flag other).2.1⟩
      · intro level different
        have notLevel := different.resolve_right (by simpa using active)
        exact Function.update_of_ne (by simpa using notLevel) ..
    · have result : sched.leaveActive = sched.kschedDeactivateThread curr := by
        unfold Sched.leaveActive
        simp only [currIs]
        rw [if_pos none, if_neg (by rw [(flag curr).1]; exact active)]
      rw [result]
      refine ⟨members, deactivated, fun other mem isActive => ?_,
        ⟨fun other => (flag other).2.2, fun _ _ _ => rfl,
          fun other _ => ⟨(flag other).1, (flag other).2.1⟩⟩, fun _ _ => rfl⟩
      rw [(flag other).1] at isActive
      exact active (others other mem isActive ▸ isActive)

/-- Some thread can run: the active one, or a ready one. -/
def Runnable (sched : Sched) (alive : Set Ptr) (members : Members) : Prop :=
  Running sched alive ∨ ∃ level, members (.ready level) ≠ []

/-- No ready thread has a greater priority than the active thread. -/
def TopPriority (sched : Sched) (alive : Set Ptr) : Prop :=
  ∀ thread ∈ alive, (sched.threads thread).state = .ready →
    (sched.threads thread).prio ≤ (sched.threads sched.activeThread).prio

theorem mem_ready (sound : Sound sched alive members) (mem : thread ∈ alive)
    (ready : (sched.threads thread).state = .ready) :
    thread ∈ members (.ready (sched.threads thread).prio) := by
  rcases sound.located thread mem with ⟨active, -⟩ | ⟨queue, inQueue⟩
  · rw [ready] at active
    cases active
  · have placed := sound.placed queue thread inQueue
    cases queue with
    | ready level => rwa [placed.level level rfl]
    | _ => cases ready.symm.trans placed.inState

/-- The threads ready to run are of no greater priority than the active one when
no level above its own has members. -/
theorem topPriority (sound : Sound sched alive members)
    (above : ∀ level, (sched.threads sched.activeThread).prio < level → level < PRIO_LEVELS →
      members (.ready level) = []) : TopPriority sched alive := by
  intro thread mem ready
  by_contra greater
  have inLevel := sound.mem_ready mem ready
  rw [above _ (by omega) (sound.prio thread mem)] at inLevel
  exact List.not_mem_nil inLevel

/-- `kthreads_schedule` finds a thread to run, and one of the greatest
priority. -/
theorem kthreadsSchedule (sound : Sound sched alive members)
    (current : (sched.threads sched.activeThread).state = .active →
      sched.activeThread ∈ alive)
    (runnable : Runnable sched alive members) :
    ∃ sched' members', sched.kthreadsSchedule = .ok sched' ∧ Sound sched' alive members' ∧
      Running sched' alive ∧ TopPriority sched' alive ∧
      Switches sched sched' alive members members' := by
  generalize highestIs : ReadyMask.kthreadReadyListHighest sched.rdyMask = highest
  have result : sched.kthreadsSchedule =
      if ¬ ((sched.activeThread ≠ 0 ∧
          (sched.threads sched.activeThread).state = .active) ∨ 0 ≤ highest) then
        .error .noThreadToRun
      else if sched.activeThread = 0 ∨
          (sched.threads sched.activeThread).state ≠ .active ∨
          ((sched.threads sched.activeThread).prio : Int) < highest then
        sched.leaveActive.enterActive highest.toNat
      else .ok sched := by
    rw [← highestIs]
    rfl
  -- the active thread keeps the processor
  have stays : Running sched alive →
      highest ≤ ((sched.threads sched.activeThread).prio : Int) →
      (∀ level, (sched.threads sched.activeThread).prio < level → level < PRIO_LEVELS →
        members (.ready level) = []) →
      ∃ sched' members', sched.kthreadsSchedule = .ok sched' ∧ Sound sched' alive members' ∧
        Running sched' alive ∧ TopPriority sched' alive ∧
        Switches sched sched' alive members members' := by
    intro running notHigher above
    have nonzero := sound.ne_zero running.mem_alive
    rw [if_neg (by simp [nonzero, running.active]), if_neg (by
      rintro (isZero | notActive | higher)
      · exact nonzero isZero
      · exact notActive running.active
      · omega)] at result
    exact ⟨sched, members, result, sound, running, sound.topPriority above, .refl ..⟩
  rcases sound.mask.highest with ⟨isNone, noLevel⟩ | ⟨level, bound, isLevel, some, greatest⟩
  · rw [highestIs] at isNone
    have empty : ∀ level, members (.ready level) = [] := by
      intro level
      by_contra notEmpty
      obtain ⟨thread, rest, shape⟩ := List.exists_cons_of_ne_nil notEmpty
      have mem : thread ∈ members (.ready level) := by simp [shape]
      exact noLevel level (sound.ready_lt mem) notEmpty
    rcases runnable with running | ⟨level, notEmpty⟩
    · exact stays running (by omega) fun level _ _ => empty level
    · exact absurd (empty level) notEmpty
  · rw [highestIs] at isLevel
    have above : ∀ other, level < other → other < PRIO_LEVELS → members (.ready other) = [] :=
      fun other greater otherBound => not_not.mp (greatest other otherBound greater)
    by_cases keeps : Running sched alive ∧ level ≤ (sched.threads sched.activeThread).prio
    · exact stays keeps.1 (by rw [isLevel]; exact_mod_cast keeps.2)
        fun other greater => above other (by omega)
    · have higher : (sched.threads sched.activeThread).state = .active →
          (sched.threads sched.activeThread).prio < level := by
        intro active
        by_contra notHigher
        exact keeps ⟨⟨current active, active⟩, by omega⟩
      rw [if_neg (by rw [isLevel]; simp), if_pos (by
        by_cases active : (sched.threads sched.activeThread).state = .active
        · exact .inr (.inr (by rw [isLevel]; exact_mod_cast higher active))
        · exact .inr (.inl active)), isLevel, Int.toNat_natCast] at result
      obtain ⟨members', left, idle, switches, sameLevel⟩ := sound.leaveActive current
      have keptLevel : ∀ other, level ≤ other → members' (.ready other) =
          members (.ready other) := by
        intro other atLeast
        refine sameLevel other ?_
        by_cases active : (sched.threads sched.activeThread).state = .active
        · exact .inl (by have := higher active; omega)
        · exact .inr active
      obtain ⟨thread, rest, shape⟩ := List.exists_cons_of_ne_nil some
      have place : members' (.ready level) = thread :: rest := by
        rw [keptLevel level (Nat.le_refl level), shape]
      obtain ⟨sched', entered, sound', running, isThread, data, others⟩ :=
        left.enterActive idle place
      have newPrio : (sched'.threads sched'.activeThread).prio = level := by
        rw [isThread, data.prio]
        exact left.ready_level (by rw [place]; simp)
      refine ⟨sched', _, result.trans entered, sound', running, ?_,
        switches.data.trans data, ?_, ?_⟩
      · refine sound'.topPriority fun other greater otherBound => ?_
        rw [newPrio] at greater
        have different : QueueId.ready other ≠ .ready level := by
          simp only [ne_eq, QueueId.ready.injEq]
          omega
        rw [Function.update_of_ne different, keptLevel other (Nat.le_of_lt greater)]
        exact above other greater otherBound
      · exact switches.waiting.trans sameWaiting_ready
      · intro other dead
        have inAlive : thread ∈ alive := left.mem_alive (.ready level) thread (by simp [place])
        rw [others other fun same => dead (same ▸ inAlive)]
        exact switches.dead other dead

end Switch

section Priority

/-- Only the priority of one thread is different. -/
def DataPrio (thread : Ptr) (prio : Nat) (sched sched' : Sched) : Prop :=
  ∀ other, (sched'.threads other).toThreadData =
    if other = thread then { (sched.threads other).toThreadData with prio := prio }
    else (sched.threads other).toThreadData

theorem dataPrio_store {prio : Nat} :
    DataPrio thread prio sched (sched.storePrio thread prio) := by
  intro other
  unfold Sched.storePrio
  split_ifs with same
  · subst same
    rw [Sched.setThread_same]
  · rw [Sched.setThread_other same]

theorem DataPrio.after_same {prio : Nat} (same : SameData sched sched')
    (stored : DataPrio thread prio sched' sched'') : DataPrio thread prio sched sched'' := by
  intro other
  rw [stored other, same other]

theorem DataPrio.before_same {prio : Nat} (stored : DataPrio thread prio sched sched')
    (same : SameData sched' sched'') : DataPrio thread prio sched sched'' :=
  fun other => (same other).trans (stored other)

/-- A thread in transit becomes ready at a new priority, and the scheduler
runs. -/
theorem rescheduleAt (sound : Sound sched (alive \ {thread}) members) (mem : thread ∈ alive)
    (pointer : 0 < thread ∧ thread < addressCount) {prio : Nat} (bound : prio < PRIO_LEVELS)
    (current : (sched.threads sched.activeThread).state = .active →
      sched.activeThread ∈ alive) :
    ∃ sched' members', ((sched.storePrio thread prio).kthreadMoveToReady thread
        LAST).kthreadsSchedule = .ok sched' ∧
      Sound sched' alive members' ∧ Running sched' alive ∧ TopPriority sched' alive ∧
      SameWaiting (fun _ => False) members members' ∧
      DataPrio thread prio sched sched' := by
  have stored : Sound (sched.storePrio thread prio) (alive \ {thread}) members :=
    sound.setThread_dead (by simp)
  have prioIs : ((sched.storePrio thread prio).threads thread).prio = prio := by
    unfold Sched.storePrio
    rw [Sched.setThread_same]
  have moved := stored.kthreadMoveToReady (by simp) pointer prioIs bound
  rw [Set.insert_sdiff_singleton, Set.insert_eq_of_mem mem] at moved
  have threads := (sched.storePrio thread prio).kthreadMoveToReady_threads thread LAST
  have current' : (((sched.storePrio thread prio).kthreadMoveToReady thread LAST).threads
      sched.activeThread).state = .active → sched.activeThread ∈ alive := by
    intro active
    by_cases same : sched.activeThread = thread
    · exact same ▸ mem
    · refine current ?_
      rw [threads, Function.update_of_ne same] at active
      unfold Sched.storePrio at active
      rwa [Sched.setThread_other same] at active
  obtain ⟨sched', members', result, sound', running, top, switches⟩ :=
    moved.kthreadsSchedule current' (.inr ⟨prio, by simp⟩)
  refine ⟨sched', members', result, sound', running, top, ?_, ?_⟩
  · exact sameWaiting_ready.trans switches.waiting
  · exact (dataPrio_store.before_same (sameData_update threads rfl)).before_same
      switches.data

/-- `kthread_remove_from_ready` takes a thread out of its level. -/
theorem kthreadRemoveFromReady {level : Nat} {before after : List Ptr}
    (sound : Sound sched alive members)
    (place : members (.ready level) = before ++ thread :: after) :
    (sched.kthreadRemoveFromReady thread).1 = thread ∧
      Sound (sched.kthreadRemoveFromReady thread).2 (alive \ {thread})
        (Function.update members (.ready level) (before ++ after)) ∧
      (sched.kthreadRemoveFromReady thread).2.threads = sched.threads ∧
      (sched.kthreadRemoveFromReady thread).2.activeThread = sched.activeThread := by
  have inQueue : thread ∈ members (.ready level) := by
    rw [place]
    simp
  have nonzero := sound.ne_zero (sound.mem_alive _ thread inQueue)
  have placed := sound.placed _ thread inQueue
  have isLevel := placed.level level rfl
  -- the store of the queue that the thread is in changes nothing
  have stays : sched.setThread thread (fun descriptor =>
      { descriptor with queue := some (.ready level) }) = sched := by
    have same : { sched.threads thread with queue := some (.ready level) } =
        sched.threads thread := by
      rw [← placed.names]
    show { sched with
      threads := Function.update sched.threads thread
        ({ sched.threads thread with queue := some (.ready level) } : Thread) } = sched
    rw [same, Function.update_eq_self]
  obtain ⟨removed, taken⟩ := sound.takeReady place
  have result : sched.kthreadRemoveFromReady thread =
      (thread, (sched.kthreadqRemove (.ready level) thread).2.markIfEmpty level) := by
    simp only [Sched.kthreadRemoveFromReady, if_neg nonzero, isLevel, stays, removed]
    rw [if_neg (by simp)]
  rw [result]
  refine ⟨rfl, taken, ?_⟩
  unfold Sched.markIfEmpty
  split <;> exact ⟨rfl, rfl⟩

/-- `kthread_set_prio` of a thread that is alive. -/
theorem kthreadSetPrio (sound : Sound sched alive members) (running : Running sched alive)
    (mem : thread ∈ alive) {prio : Nat} (bound : prio < PRIO_LEVELS) :
    ∃ sched' members', sched.kthreadSetPrio thread prio =
        .ok ((sched.threads thread).prio, sched') ∧
      Sound sched' alive members' ∧ Running sched' alive ∧
      SameWaiting (fun _ => False) members members' ∧
      DataPrio thread prio sched sched' := by
  have nonzero := sound.ne_zero mem
  have pointer := sound.pointer thread mem
  have current : (sched.threads sched.activeThread).state = .active →
      sched.activeThread ∈ alive := fun _ => running.mem_alive
  rcases sound.located thread mem with ⟨active, -⟩ | ⟨queue, inQueue⟩
  · have free : ∀ queue, thread ∉ members queue := fun queue => sound.active_free active
    obtain ⟨sched', members', result, sound', running', -, waiting, data⟩ :=
      (sound.drop free).rescheduleAt mem pointer bound current
    refine ⟨sched', members', ?_, sound', running', waiting, data⟩
    simp only [Sched.kthreadSetPrio, if_neg nonzero, active, result]
    rfl
  · have placed := sound.placed queue thread inQueue
    cases queue with
    | ready level =>
        have isReady : (sched.threads thread).state = .ready := placed.inState
        obtain ⟨before, after, place⟩ := List.append_of_mem inQueue
        obtain ⟨-, taken, kept⟩ := sound.kthreadRemoveFromReady place
        obtain ⟨sched', members', result, sound', running', -, waiting, data⟩ :=
          taken.rescheduleAt mem pointer bound (by rw [kept.1, kept.2]; exact current)
        refine ⟨sched', members', ?_, sound', running', ?_, ?_⟩
        · simp only [Sched.kthreadSetPrio, if_neg nonzero, isReady, result]
          rfl
        · exact sameWaiting_ready.trans waiting
        · exact data.after_same fun other => by rw [kept.1]
    | _ =>
        have waits : (sched.threads thread).state = .wait := placed.inState
        have others : ∀ other, other ≠ thread →
            (sched.storePrio thread prio).threads other = sched.threads other :=
          fun other different => Sched.setThread_other different
        refine ⟨sched.storePrio thread prio, members, ?_, ?_, ?_, fun _ _ _ => rfl,
          dataPrio_store⟩
        · simp only [Sched.kthreadSetPrio, if_neg nonzero, waits]
        · refine sound.congr rfl rfl rfl fun other _ => ?_
          by_cases same : other = thread
          · subst same
            unfold Sched.storePrio
            rw [Sched.setThread_same]
            exact ⟨rfl, rfl, .inr ⟨waits, bound⟩⟩
          · rw [others other same]
            exact ⟨rfl, rfl, .inl rfl⟩
        · refine ⟨running.mem_alive, ?_⟩
          have different : sched.activeThread ≠ thread := by
            rintro same
            rw [← same, running.active] at waits
            cases waits
          have active : (sched.storePrio thread prio).activeThread = sched.activeThread := rfl
          rw [active, others _ different]
          exact running.active

end Priority

end Sound

end Oseer
