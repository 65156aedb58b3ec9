import Oseer.Library.PriorityQueues
import Oseer.SchedRuns

/-!
# The order in which threads are dispatched

The scheduler with its linked lists and its mask does what a scheduler on plain lists does: a level
for each priority, a queue for each cause to wait, and the first thread of the greatest level to run
next.  From the plain one it follows that threads of one priority are served in turn.
-/

namespace Oseer

open LinkedRing PriorityQueues Results

/-- The plain queues have the threads that the scheduler has linked, with their priorities, and
the same thread runs. -/
structure Mirrors (sched : Sched) (alive : Set Ptr) (plain : Dispatcher Ptr QueueId) : Prop where
  sound : Sound sched alive plain.queues
  prio : ∀ thread ∈ alive, plain.prio thread = (sched.threads thread).prio
  running : plain.running =
    if (sched.threads sched.activeThread).state = .active then some sched.activeThread else none

variable {sched sched' : Sched} {alive : Set Ptr} {plain : Dispatcher Ptr QueueId}
  {thread : Ptr} {queue : QueueId} {members : Members} {rest : List Ptr} {level : Nat}

section Schedule

theorem kthreadMoveToReady_last : (sched.kthreadMoveToReady thread LAST).queues =
    sched.queues.listAppend (.ready (sched.threads thread).prio) thread := rfl

/-- The thread that can still run goes to the end of its level. -/
theorem Mirrors.leaveActive (mirrors : Mirrors sched alive plain)
    (current : (sched.threads sched.activeThread).state = .active → sched.activeThread ∈ alive) :
    sched.leaveActive.queues.Linked (plain.preempt .ready).queues := by
  have linked := mirrors.sound.linked
  have deactivated : ∀ thread, ((sched.kschedDeactivateThread sched.activeThread).threads
      thread).state = (sched.threads thread).state ∧
      ((sched.kschedDeactivateThread sched.activeThread).threads thread).prio =
        (sched.threads thread).prio := by
    intro thread
    unfold Sched.kschedDeactivateThread
    by_cases same : thread = sched.activeThread
    · rw [same, Sched.setThread_same]
      exact ⟨rfl, rfl⟩
    · rw [Sched.setThread_other same]
      exact ⟨rfl, rfl⟩
  unfold Dispatcher.preempt
  rw [mirrors.running]
  by_cases active : (sched.threads sched.activeThread).state = .active
  · have mem := current active
    have nonzero := mirrors.sound.ne_zero mem
    have queues : sched.leaveActive.queues = sched.queues.listAppend
        (.ready (sched.threads sched.activeThread).prio) sched.activeThread := by
      unfold Sched.leaveActive
      dsimp only
      rw [if_pos nonzero, if_pos ((deactivated _).1.trans active), kthreadMoveToReady_last,
        (deactivated _).2]
      rfl
    rw [if_pos active, queues, ← mirrors.prio _ mem]
    exact linked.append nonzero fun queue => mirrors.sound.active_free active
  · rw [if_neg active]
    have queues : sched.leaveActive.queues = sched.queues := by
      unfold Sched.leaveActive
      dsimp only
      split
      · rw [if_neg (by rw [(deactivated _).1]; exact active)]
        rfl
      · rfl
    rw [queues]
    exact linked

/-- The first thread of a level becomes the active one. -/
theorem enterActive_first (linked : sched.queues.Linked members)
    (place : members (.ready level) = thread :: rest) (entered : sched.enterActive level = .ok sched') :
    sched'.activeThread = thread ∧
      sched'.queues.Linked (Function.update members (.ready level) rest) := by
  have place' : members (.ready level) = [] ++ thread :: rest := place
  have nonzero : thread ≠ 0 := linked.ne_zero (by rw [place]; simp)
  obtain ⟨isThread, removed⟩ := linked.remove FIRST place'
  have first : sched.kthreadqRemove (.ready level) 0 =
      sched.kthreadqRemove (.ready level) thread := by
    unfold Sched.kthreadqRemove
    rw [linked.listRemove_first place]
  have found : (sched.kthreadqRemove (.ready level) thread).1 = thread := isThread
  unfold Sched.enterActive at entered
  dsimp only at entered
  rw [first, found, if_neg nonzero] at entered
  obtain rfl := Except.ok.inj entered
  refine ⟨rfl, ?_⟩
  have queues : ((sched.kthreadqRemove (.ready level) thread).2.markIfEmpty level).queues =
      (sched.queues.listRemove (.ready level) FIRST thread).2 := by
    unfold Sched.markIfEmpty
    split <;> rfl
  change ((sched.kthreadqRemove (.ready level) thread).2.markIfEmpty level).queues.Linked _
  rw [queues]
  exact removed

/-- The mask finds the greatest level that has threads. -/
theorem Mirrors.highest (mirrors : Mirrors sched alive plain) :
    (ReadyMask.kthreadReadyListHighest sched.rdyMask = -1 ∧
        Dispatcher.highest .ready plain PRIO_LEVELS = none) ∨
      ∃ top : Nat, ReadyMask.kthreadReadyListHighest sched.rdyMask = top ∧
        Dispatcher.highest .ready plain PRIO_LEVELS = some top := by
  rcases mirrors.sound.mask.highest with ⟨isNone, empty⟩ | ⟨top, below, isTop, filled, greatest⟩
  · left
    refine ⟨isNone, Dispatcher.highest_none fun p below => ?_⟩
    exact not_not.mp (empty p below)
  · right
    refine ⟨top, isTop, Dispatcher.highest_some below filled fun p under greater => ?_⟩
    exact not_not.mp (greatest p under greater)

/-- `kthreads_schedule` makes the same choice. -/
theorem Mirrors.kthreadsSchedule_eq (mirrors : Mirrors sched alive plain)
    (current : (sched.threads sched.activeThread).state = .active → sched.activeThread ∈ alive)
    (result : sched.kthreadsSchedule = .ok sched')
    (runs : (sched'.threads sched'.activeThread).state = .active) :
    sched'.queues.Linked (plain.dispatch .ready PRIO_LEVELS).queues ∧
      (plain.dispatch .ready PRIO_LEVELS).running = some sched'.activeThread := by
  have stays : sched' = sched →
      sched'.queues.Linked plain.queues ∧ plain.running = some sched'.activeThread := by
    rintro rfl
    rw [mirrors.running, if_pos runs]
    exact ⟨mirrors.sound.linked, rfl⟩
  unfold Sched.kthreadsSchedule at result
  dsimp only at result
  split at result
  · cases result
  · rename_i runnable
    unfold Dispatcher.dispatch
    rcases mirrors.highest with ⟨isNone, plainNone⟩ | ⟨top, isTop, plainTop⟩
    · -- nobody is ready, and the active thread goes on
      rw [plainNone]
      apply stays
      rw [isNone] at result runnable
      have active := (not_not.mp runnable).resolve_right (by decide)
      rw [if_neg (by
        rintro (isZero | notActive | higher)
        · exact active.1 isZero
        · exact notActive active.2
        · omega)] at result
      exact (Except.ok.inj result).symm
    · rw [plainTop]
      dsimp only
      rw [isTop] at result
      split at result
      · rename_i switches
        -- the thread to run is in the greatest level
        have notKept : ¬ (plain.running.any fun entry => top ≤ plain.prio entry) = true := by
          rw [mirrors.running]
          split
          · rename_i active
            have mem := current active
            rcases switches with isZero | notActive | higher
            · exact absurd isZero (mirrors.sound.ne_zero mem)
            · exact absurd active notActive
            · rw [Option.any_some, mirrors.prio _ mem, decide_eq_true_eq]
              omega
          · simp
        rw [if_neg notKept]
        have linked := mirrors.leaveActive current
        have filled : (plain.preempt .ready).queues (.ready top) ≠ [] :=
          Dispatcher.preempt_filled (Dispatcher.highest_filled plainTop)
        obtain ⟨thread, rest, place⟩ := List.exists_cons_of_ne_nil filled
        obtain ⟨isThread, entered⟩ := enterActive_first linked place result
        unfold Dispatcher.start
        rw [place, isThread]
        exact ⟨entered, rfl⟩
      · rename_i keeps
        obtain ⟨nonzero, active, lower⟩ := by simpa [not_or] using keeps
        have mem := current active
        have kept : (plain.running.any fun entry => top ≤ plain.prio entry) = true := by
          rw [mirrors.running, if_pos active, Option.any_some, mirrors.prio _ mem]
          simpa using lower
        rw [if_pos kept]
        exact stays (Except.ok.inj result).symm

/-- The scheduler runs. -/
theorem Mirrors.kthreadsSchedule (mirrors : Mirrors sched alive plain)
    (current : (sched.threads sched.activeThread).state = .active → sched.activeThread ∈ alive)
    (runnable : Sound.Runnable sched alive plain.queues)
    (result : sched.kthreadsSchedule = .ok sched') :
    Mirrors sched' alive (plain.dispatch .ready PRIO_LEVELS) := by
  obtain ⟨after, members, isAfter, sound, running, top, switches⟩ :=
    mirrors.sound.kthreadsSchedule current runnable
  obtain rfl := Except.ok.inj (result.symm.trans isAfter)
  obtain ⟨linked, runs⟩ := mirrors.kthreadsSchedule_eq current result running.active
  have same : members = (plain.dispatch .ready PRIO_LEVELS).queues :=
    funext fun queue => sound.linked.unique linked queue
  refine ⟨same ▸ sound, fun thread mem => ?_, ?_⟩
  · rw [switches.data.prio, ← mirrors.prio thread mem, Dispatcher.dispatch_prio]
  · rw [runs, if_pos running.active]

end Schedule

section Moves

variable {prio : Nat} {fuel : Nat}

theorem wake_mirrors (mirrors : Mirrors sched alive plain) (waits : queue.state = .wait) :
    Mirrors (sched.kthreadqRelease queue).2 alive (plain.wake .ready queue) := by
  unfold Dispatcher.wake
  split
  · rename_i empty
    rw [mirrors.sound.kthreadqRelease_empty empty]
    exact mirrors
  · rename_i entry rest place
    have mem : entry ∈ plain.queues queue := by simp [place]
    have inAlive := mirrors.sound.mem_alive queue entry mem
    obtain ⟨-, moved, threads, active⟩ := mirrors.sound.kthreadqRelease place waits
    have notReady : ∀ level, QueueId.ready level ≠ queue := by
      rintro level rfl
      cases waits
    have queues : Sound.released plain.queues queue entry rest (sched.threads entry).prio =
        (Dispatcher.arrive .ready entry
          { plain with queues := Function.update plain.queues queue rest }).queues := by
      unfold Sound.released Dispatcher.arrive Dispatcher.append
      dsimp only
      rw [mirrors.prio entry inAlive, Function.update_of_ne (notReady _)]
    have inactive : (sched.threads sched.activeThread).state = .active →
        sched.activeThread ≠ entry := by
      rintro isActive rfl
      exact mirrors.sound.active_free isActive mem
    refine ⟨queues ▸ moved, fun thread inside => ?_, ?_⟩
    · rw [Dispatcher.arrive_prio]
      exact (mirrors.prio thread inside).trans ((sameData_update threads rfl).prio thread).symm
    · change plain.running = _
      rw [active, threads, mirrors.running]
      by_cases isActive : (sched.threads sched.activeThread).state = .active
      · rw [Function.update_of_ne (inactive isActive)]
      · by_cases same : sched.activeThread = entry
        · rw [if_neg isActive, same, Function.update_self, if_neg (by simp)]
        · rw [Function.update_of_ne same]

theorem releaseLoop_mirrors (mirrors : Mirrors sched alive plain) (waits : queue.state = .wait)
    (enough : (plain.queues queue).length < fuel) :
    Mirrors (sched.releaseLoop queue fuel).2 alive (plain.wakeAll .ready queue) := by
  induction fuel generalizing sched plain with
  | zero => exact absurd enough (Nat.not_lt_zero _)
  | succ fuel ih =>
      unfold Sched.releaseLoop Dispatcher.wakeAll
      have woken := wake_mirrors mirrors waits
      cases place : plain.queues queue with
      | nil =>
          rw [mirrors.sound.kthreadqRelease_empty place]
          exact mirrors
      | cons entry rest =>
          have one := (mirrors.sound.kthreadqRelease place waits).1
          have notOne : (sched.kthreadqRelease queue).1 ≠ 0 := by
            rw [one]
            decide
          have notReady : ∀ level, QueueId.ready level ≠ queue := by
            rintro level rfl
            cases waits
          have shorter := Dispatcher.wake_queue place notReady
          rw [place, List.length_cons] at enough
          have loop := ih woken (by rw [shorter]; omega)
          unfold Dispatcher.wakeAll at loop
          rw [shorter] at loop
          dsimp only
          rw [if_neg notOne, List.length_cons, Function.iterate_succ_apply]
          exact loop

theorem releaseAll_mirrors (mirrors : Mirrors sched alive plain) (waits : queue.state = .wait) :
    Mirrors (sched.kthreadqReleaseAll queue).2 alive (plain.wakeAll .ready queue) :=
  releaseLoop_mirrors mirrors waits mirrors.sound.length_lt

/-- The active thread goes to a queue. -/
theorem sleep_mirrors (mirrors : Mirrors sched alive plain) (running : Running sched alive)
    (waits : queue.state = .wait) :
    Mirrors (sched.kthreadEnqueue 0 queue) alive (plain.sleep queue) ∧
      (sched.kthreadEnqueue 0 queue).threads = Function.update sched.threads sched.activeThread
        { sched.threads sched.activeThread with state := .wait, queue := some queue } := by
  have mem := running.mem_alive
  have pointer := mirrors.sound.pointer _ mem
  have nonzero : sched.activeThread ≠ 0 := pointer.1.ne'
  have free : ∀ queue, sched.activeThread ∉ plain.queues queue :=
    fun queue => mirrors.sound.active_free running.active
  have entered := (mirrors.sound.drop free).kthreadEnqueue (by simp) pointer
    (mirrors.sound.prio _ mem) waits
  rw [Set.insert_sdiff_singleton, Set.insert_eq_of_mem mem] at entered
  have threads := sched.kthreadEnqueue_threads queue nonzero
  have runs : plain.running = some sched.activeThread := by
    rw [mirrors.running, if_pos running.active]
  rw [Sched.kthreadEnqueue_active queue nonzero]
  refine ⟨?_, threads⟩
  unfold Dispatcher.sleep
  rw [runs]
  refine ⟨entered, fun other inside => ?_, ?_⟩
  · exact (mirrors.prio other inside).trans ((sameData_update threads rfl).prio other).symm
  · rw [sched.kthreadEnqueue_activeThread queue nonzero, threads, Function.update_self,
      if_neg (by simp)]
    rfl

/-- A thread in transit gets a priority and goes to the end of its level. -/
theorem arrive_mirrors (sound : Sound sched (alive \ {thread}) plain.queues)
    (prios : ∀ other ∈ alive \ {thread}, plain.prio other = (sched.threads other).prio)
    (runs : plain.running = if sched.activeThread ≠ thread ∧
      (sched.threads sched.activeThread).state = .active then some sched.activeThread else none)
    (mem : thread ∈ alive) (pointer : 0 < thread ∧ thread < addressCount)
    (bound : prio < PRIO_LEVELS) :
    Mirrors ((sched.storePrio thread prio).kthreadMoveToReady thread LAST) alive
      ((plain.assign thread prio).arrive .ready thread) := by
  have stored : Sound (sched.storePrio thread prio) (alive \ {thread}) plain.queues :=
    sound.setThread_dead (by simp)
  have prioIs : ((sched.storePrio thread prio).threads thread).prio = prio := by
    unfold Sched.storePrio
    rw [Sched.setThread_same]
  have moved := stored.kthreadMoveToReady (by simp) pointer prioIs bound
  rw [Set.insert_sdiff_singleton, Set.insert_eq_of_mem mem] at moved
  have threads := (sched.storePrio thread prio).kthreadMoveToReady_threads thread LAST
  have queues : (Dispatcher.arrive .ready thread (plain.assign thread prio)).queues =
      Function.update plain.queues (.ready prio) (plain.queues (.ready prio) ++ [thread]) := by
    unfold Dispatcher.arrive Dispatcher.append Dispatcher.assign
    dsimp only
    rw [Function.update_self]
  have others : ∀ other, other ≠ thread →
      ((sched.storePrio thread prio).kthreadMoveToReady thread LAST).threads other =
        sched.threads other := by
    intro other different
    rw [threads, Function.update_of_ne different]
    exact Sched.setThread_other different
  refine ⟨queues ▸ moved, fun other inside => ?_, ?_⟩
  · rw [Dispatcher.arrive_prio]
    by_cases same : other = thread
    · rw [same, threads, Function.update_self]
      exact (Function.update_self ..).trans prioIs.symm
    · rw [others other same]
      exact (Function.update_of_ne same ..).trans (prios other ⟨inside, same⟩)
  · change plain.running = if (((sched.storePrio thread prio).kthreadMoveToReady thread
      LAST).threads sched.activeThread).state = .active then some sched.activeThread else none
    rw [runs]
    by_cases same : sched.activeThread = thread
    · rw [if_neg fun both => both.1 same, same, threads, Function.update_self, if_neg (by simp)]
    · rw [others _ same]
      simp [same]

/-- The stores in a descriptor of what the scheduler does not look at. -/
theorem Mirrors.setThread {change : Thread → Thread} (mirrors : Mirrors sched alive plain)
    (state : (change (sched.threads thread)).state = (sched.threads thread).state)
    (names : (change (sched.threads thread)).queue = (sched.threads thread).queue)
    (same : (change (sched.threads thread)).prio = (sched.threads thread).prio) :
    Mirrors (sched.setThread thread change) alive plain := by
  have field : ∀ {α : Type} (get : Thread → α),
      get (change (sched.threads thread)) = get (sched.threads thread) →
      ∀ other, get ((sched.setThread thread change).threads other) = get (sched.threads other) := by
    intro α get kept other
    by_cases here : other = thread
    · rw [here, Sched.setThread_same, kept]
    · rw [Sched.setThread_other here]
  refine ⟨mirrors.sound.setThread_data state names same, fun other mem => ?_, ?_⟩
  · rw [mirrors.prio other mem, field (fun descriptor => descriptor.prio) same]
  · rw [mirrors.running, Sched.setThread_activeThread, field Thread.state state]

end Moves

end Oseer
