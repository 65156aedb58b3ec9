import Mathlib.Order.BooleanAlgebra.Set
import Oseer.Sched

/-!
# The invariant of the scheduler

`Sound` relates the descriptors of the threads that are alive, the queues that
they are linked in and the mask of ready levels.  A thread in transit, that
has left one queue and not yet entered the next, is taken out of the set of
threads alive; every routine of the scheduler is a sequence of such moves.
-/

namespace Oseer

open LinkedRing

/-- The members of the thread queues. -/
abbrev Members := QueueId → List Ptr

/-- The state of the threads in a queue. -/
def QueueId.state : QueueId → ThreadState
  | .ready _ => .ready
  | _ => .wait

/-- What a queue asks of the threads in it. -/
structure Placed (queue : QueueId) (thread : Thread) : Prop where
  names : thread.queue = some queue
  inState : thread.state = queue.state
  level : ∀ prio, queue = .ready prio → thread.prio = prio

/-- The invariant of the scheduler, for the given threads alive and the given
members of the queues. -/
structure Sound (sched : Sched) (alive : Set Ptr) (members : Members) : Prop where
  linked : sched.queues.Linked members
  mem_alive : ∀ queue, ∀ thread ∈ members queue, thread ∈ alive
  placed : ∀ queue, ∀ thread ∈ members queue, Placed queue (sched.threads thread)
  located : ∀ thread ∈ alive,
    ((sched.threads thread).state = .active ∧ thread = sched.activeThread) ∨
      ∃ queue, thread ∈ members queue
  mask : ReadyMask.Shows sched.rdyMask fun prio => members (.ready prio) ≠ []
  prio : ∀ thread ∈ alive, (sched.threads thread).prio < PRIO_LEVELS
  pointer : ∀ thread ∈ alive, 0 < thread ∧ thread < addressCount

/-- The active thread is alive and has the state `THR_STATE_ACTIVE`. -/
structure Running (sched : Sched) (alive : Set Ptr) : Prop where
  mem_alive : sched.activeThread ∈ alive
  active : (sched.threads sched.activeThread).state = .active

namespace Sched

variable {sched : Sched} {thread other : Ptr} {queue : QueueId}
  {change : Thread → Thread}

@[simp]
theorem setThread_same :
    (sched.setThread thread change).threads thread = change (sched.threads thread) := by
  simp [setThread]

theorem setThread_other (different : other ≠ thread) :
    (sched.setThread thread change).threads other = sched.threads other := by
  simp [setThread, different]

@[simp]
theorem setThread_queues : (sched.setThread thread change).queues = sched.queues := rfl

@[simp]
theorem setThread_rdyMask : (sched.setThread thread change).rdyMask = sched.rdyMask := rfl

@[simp]
theorem setThread_activeThread :
    (sched.setThread thread change).activeThread = sched.activeThread := rfl

theorem kthreadMoveToReady_threads (sched : Sched) (thread : Ptr) (place : Nat) :
    (sched.kthreadMoveToReady thread place).threads =
      Function.update sched.threads thread { sched.threads thread with
        state := .ready, queue := some (.ready (sched.threads thread).prio) } := by
  unfold kthreadMoveToReady
  dsimp only
  split <;> rfl

theorem kthreadEnqueue_eq (sched : Sched) (queue : QueueId) (nonzero : thread ≠ 0) :
    sched.kthreadEnqueue thread queue =
      (sched.setThread thread fun descriptor =>
        { descriptor with state := .wait, queue := some queue }).kthreadqAppend queue thread := by
  unfold kthreadEnqueue
  rw [if_neg nonzero]

theorem kthreadEnqueue_active (queue : QueueId) (nonzero : sched.activeThread ≠ 0) :
    sched.kthreadEnqueue 0 queue = sched.kthreadEnqueue sched.activeThread queue := by
  rw [sched.kthreadEnqueue_eq queue nonzero]
  rfl

theorem kthreadEnqueue_activeThread (sched : Sched) (queue : QueueId) (nonzero : thread ≠ 0) :
    (sched.kthreadEnqueue thread queue).activeThread = sched.activeThread := by
  rw [sched.kthreadEnqueue_eq queue nonzero]
  rfl

theorem kthreadEnqueue_threads (sched : Sched) (queue : QueueId) (nonzero : thread ≠ 0) :
    (sched.kthreadEnqueue thread queue).threads =
      Function.update sched.threads thread { sched.threads thread with
        state := .wait, queue := some queue } := by
  rw [sched.kthreadEnqueue_eq queue nonzero]
  rfl

end Sched

variable {sched : Sched} {alive : Set Ptr} {members : Members} {thread other : Ptr}
  {queue : QueueId} {change : Thread → Thread} {before after rest : List Ptr}

namespace Sound

theorem ne_zero (sound : Sound sched alive members) (mem : thread ∈ alive) : thread ≠ 0 :=
  (sound.pointer thread mem).1.ne'

theorem mem_unique (sound : Sound sched alive members) {queue' : QueueId}
    (mem : thread ∈ members queue) (mem' : thread ∈ members queue') : queue = queue' :=
  sound.linked.apart queue queue' thread mem mem'

theorem ready_level (sound : Sound sched alive members) {prio : Nat}
    (mem : thread ∈ members (.ready prio)) : (sched.threads thread).prio = prio :=
  (sound.placed _ thread mem).level prio rfl

theorem ready_lt (sound : Sound sched alive members) {prio : Nat}
    (mem : thread ∈ members (.ready prio)) : prio < PRIO_LEVELS :=
  sound.ready_level mem ▸ sound.prio thread (sound.mem_alive _ thread mem)

/-- Descriptors may change where the invariant does not look: in their data, and
in the priority of a waiting thread. -/
theorem congr {sched' : Sched} (sound : Sound sched alive members)
    (queues : sched'.queues = sched.queues) (mask : sched'.rdyMask = sched.rdyMask)
    (active : sched'.activeThread = sched.activeThread)
    (same : ∀ thread ∈ alive,
      (sched'.threads thread).state = (sched.threads thread).state ∧
        (sched'.threads thread).queue = (sched.threads thread).queue ∧
        ((sched'.threads thread).prio = (sched.threads thread).prio ∨
          (sched.threads thread).state = .wait ∧
            (sched'.threads thread).prio < PRIO_LEVELS)) :
    Sound sched' alive members where
  linked := queues ▸ sound.linked
  mem_alive := sound.mem_alive
  placed := by
    intro queue thread mem
    obtain ⟨state, inQueue, prio⟩ := same thread (sound.mem_alive queue thread mem)
    obtain ⟨isQueue, isState, level⟩ := sound.placed queue thread mem
    refine ⟨inQueue.trans isQueue, state.trans isState, fun p isReady => ?_⟩
    rcases prio with samePrio | ⟨waits, -⟩
    · exact samePrio.trans (level p isReady)
    · subst isReady
      cases waits.symm.trans isState
  located := by
    intro thread mem
    rcases sound.located thread mem with ⟨state, isActive⟩ | inQueue
    · exact .inl ⟨(same thread mem).1.trans state, isActive.trans active.symm⟩
    · exact .inr inQueue
  mask := mask ▸ sound.mask
  prio := by
    intro thread mem
    rcases (same thread mem).2.2 with samePrio | ⟨-, bound⟩
    · exact samePrio ▸ sound.prio thread mem
    · exact bound
  pointer := sound.pointer

theorem setThread_dead (sound : Sound sched alive members) (dead : thread ∉ alive) :
    Sound (sched.setThread thread change) alive members := by
  refine sound.congr rfl rfl rfl fun other mem => ?_
  have different : other ≠ thread := fun same => dead (same ▸ mem)
  rw [Sched.setThread_other different]
  exact ⟨rfl, rfl, .inl rfl⟩

theorem setThread_data (sound : Sound sched alive members)
    (state : (change (sched.threads thread)).state = (sched.threads thread).state)
    (inQueue : (change (sched.threads thread)).queue = (sched.threads thread).queue)
    (prio : (change (sched.threads thread)).prio = (sched.threads thread).prio) :
    Sound (sched.setThread thread change) alive members := by
  refine sound.congr rfl rfl rfl fun other _ => ?_
  by_cases same : other = thread
  · subst same
    rw [Sched.setThread_same]
    exact ⟨state, inQueue, .inl prio⟩
  · rw [Sched.setThread_other same]
    exact ⟨rfl, rfl, .inl rfl⟩

theorem drop (sound : Sound sched alive members) (free : ∀ queue, thread ∉ members queue) :
    Sound sched (alive \ {thread}) members :=
  { sound with
    mem_alive := fun queue other mem =>
      ⟨sound.mem_alive queue other mem, fun same => free queue (same ▸ mem)⟩
    located := fun other mem => sound.located other mem.1
    prio := fun other mem => sound.prio other mem.1
    pointer := fun other mem => sound.pointer other mem.1 }

theorem active_free (sound : Sound sched alive members)
    (active : (sched.threads thread).state = .active) : thread ∉ members queue := by
  intro mem
  have placed := (sound.placed queue thread mem).inState
  rw [active] at placed
  cases queue <;> simp [QueueId.state] at placed

section Take

variable {sched' : Sched}

theorem notMem_rest (sound : Sound sched alive members)
    (place : members queue = before ++ thread :: after) : thread ∉ before ++ after := by
  have nodup : (before ++ thread :: after).Nodup := place ▸ sound.linked.nodup_members
  exact (List.nodup_cons.mp (List.nodup_middle.mp nodup)).1

/-- Taking a thread out of its queue puts it in transit. -/
theorem take (sound : Sound sched alive members)
    (place : members queue = before ++ thread :: after)
    (queues : sched'.queues = (sched.queues.listRemove queue FIRST thread).2)
    (threads : sched'.threads = sched.threads)
    (active : sched'.activeThread = sched.activeThread)
    (mask : ReadyMask.Shows sched'.rdyMask fun prio =>
      Function.update members queue (before ++ after) (.ready prio) ≠ []) :
    Sound sched' (alive \ {thread}) (Function.update members queue (before ++ after)) := by
  have rest : ∀ queue' other, other ∈ Function.update members queue (before ++ after) queue' →
      other ∈ members queue' ∧ other ≠ thread := by
    intro queue' other mem
    by_cases same : queue' = queue
    · subst same
      rw [Function.update_self] at mem
      refine ⟨?_, fun isThread => sound.notMem_rest place (isThread ▸ mem)⟩
      rw [place]
      simp only [List.mem_append, List.mem_cons] at mem ⊢
      tauto
    · rw [Function.update_of_ne same] at mem
      refine ⟨mem, fun isThread => same ?_⟩
      exact sound.mem_unique (isThread ▸ mem) (by rw [place]; simp)
  exact
    { linked := queues ▸ (sound.linked.remove FIRST place).2
      mem_alive := fun queue' other mem =>
        ⟨sound.mem_alive queue' other (rest queue' other mem).1, (rest queue' other mem).2⟩
      placed := fun queue' other mem =>
        threads ▸ sound.placed queue' other (rest queue' other mem).1
      located := by
        intro other mem
        rcases sound.located other mem.1 with ⟨state, isActive⟩ | ⟨queue', inQueue⟩
        · exact .inl ⟨threads ▸ state, isActive.trans active.symm⟩
        · refine .inr ⟨queue', ?_⟩
          by_cases same : queue' = queue
          · subst same
            have different : other ≠ thread := mem.2
            rw [place] at inQueue
            rw [Function.update_self]
            simpa [different] using inQueue
          · rwa [Function.update_of_ne same]
      mask := mask
      prio := fun other mem => threads ▸ sound.prio other mem.1
      pointer := fun other mem => sound.pointer other mem.1 }

theorem kthreadqRemove (sound : Sound sched alive members)
    (place : members queue = before ++ thread :: after) (waits : queue.state = .wait) :
    (sched.kthreadqRemove queue thread).1 = thread ∧
      Sound (sched.kthreadqRemove queue thread).2 (alive \ {thread})
        (Function.update members queue (before ++ after)) := by
  refine ⟨(sound.linked.remove FIRST place).1, sound.take place rfl rfl rfl ?_⟩
  refine sound.mask.congr fun prio _ => ?_
  have different : QueueId.ready prio ≠ queue := by
    rintro rfl
    simp [QueueId.state] at waits
  rw [Function.update_of_ne different]

/-- A ready thread leaves its level, which is marked empty if it was the
last one. -/
theorem takeReady (sound : Sound sched alive members) {level : Nat}
    (place : members (.ready level) = before ++ thread :: after) :
    (sched.kthreadqRemove (.ready level) thread).1 = thread ∧
      Sound ((sched.kthreadqRemove (.ready level) thread).2.markIfEmpty level)
        (alive \ {thread}) (Function.update members (.ready level) (before ++ after)) := by
  obtain ⟨removed, linked⟩ := sound.linked.remove FIRST place
  refine ⟨removed, ?_⟩
  have first : (sched.kthreadqRemove (.ready level) thread).2.kthreadqGet (.ready level) =
      headOf 0 (before ++ after) := by
    have get := linked.listGet_first (.ready level)
    rwa [Function.update_self] at get
  have others : ∀ prio, prio ≠ level →
      Function.update members (.ready level) (before ++ after) (.ready prio) =
        members (.ready prio) := by
    intro prio different
    refine Function.update_of_ne ?_ ..
    simpa using different
  unfold Sched.markIfEmpty
  by_cases empty : before ++ after = []
  · rw [if_pos (by rw [first, empty, headOf_nil])]
    refine sound.take place rfl rfl rfl ?_
    refine (sound.mask.setEmpty level).congr fun prio _ => ?_
    by_cases same : prio = level
    · subst same
      simp [empty]
    · rw [others prio same]
      simp [same]
  · have nonzero : headOf 0 (before ++ after) ≠ 0 := by
      obtain ⟨head, tail, shape⟩ := List.exists_cons_of_ne_nil empty
      have memHead : head ∈ Function.update members (.ready level) (before ++ after)
          (.ready level) := by
        rw [Function.update_self, shape]
        simp
      rw [shape, headOf_cons]
      exact linked.ne_zero memHead
    rw [if_neg (by rw [first]; exact nonzero)]
    refine sound.take place rfl rfl rfl ?_
    refine sound.mask.congr fun prio _ => ?_
    by_cases same : prio = level
    · subst same
      rw [Function.update_self, place]
      simpa using empty
    · rw [others prio same]

end Take

section Put

variable {sched' : Sched} {list : List Ptr}

/-- A thread in transit enters a queue. -/
theorem put (sound : Sound sched alive members) (dead : thread ∉ alive)
    (pointer : 0 < thread ∧ thread < addressCount)
    (entries : ∀ other, other ∈ list ↔ other ∈ members queue ∨ other = thread)
    (linked : sched'.queues.Linked (Function.update members queue list))
    (threads : ∀ other, other ≠ thread → sched'.threads other = sched.threads other)
    (placed : Placed queue (sched'.threads thread))
    (prio : (sched'.threads thread).prio < PRIO_LEVELS)
    (active : sched'.activeThread = sched.activeThread)
    (mask : ReadyMask.Shows sched'.rdyMask fun prio =>
      Function.update members queue list (.ready prio) ≠ []) :
    Sound sched' (insert thread alive) (Function.update members queue list) := by
  have old : ∀ other ∈ alive, other ≠ thread := fun other mem same => dead (same ▸ mem)
  have split : ∀ queue' other, other ∈ Function.update members queue list queue' →
      other ∈ members queue' ∨ (other = thread ∧ queue' = queue) := by
    intro queue' other mem
    by_cases same : queue' = queue
    · subst same
      rw [Function.update_self] at mem
      exact ((entries other).mp mem).imp id fun isThread => ⟨isThread, rfl⟩
    · rw [Function.update_of_ne same] at mem
      exact .inl mem
  have kept : ∀ queue' other, other ∈ members queue' →
      other ∈ Function.update members queue list queue' := by
    intro queue' other mem
    by_cases same : queue' = queue
    · subst same
      rw [Function.update_self]
      exact (entries other).mpr (.inl mem)
    · rwa [Function.update_of_ne same]
  exact
    { linked := linked
      mem_alive := by
        intro queue' other mem
        rcases split queue' other mem with inOld | ⟨isThread, -⟩
        · exact .inr (sound.mem_alive queue' other inOld)
        · exact .inl isThread
      placed := by
        intro queue' other mem
        rcases split queue' other mem with inOld | ⟨rfl, rfl⟩
        · rw [threads other (old other (sound.mem_alive queue' other inOld))]
          exact sound.placed queue' other inOld
        · exact placed
      located := by
        rintro other (isThread | mem)
        · refine .inr ⟨queue, ?_⟩
          rw [isThread, Function.update_self]
          exact (entries thread).mpr (.inr rfl)
        · rw [threads other (old other mem)]
          rcases sound.located other mem with ⟨state, isActive⟩ | ⟨queue', inQueue⟩
          · exact .inl ⟨state, isActive.trans active.symm⟩
          · exact .inr ⟨queue', kept queue' other inQueue⟩
      mask := mask
      prio := by
        rintro other (isThread | mem)
        · rw [isThread]
          exact prio
        · rw [threads other (old other mem)]
          exact sound.prio other mem
      pointer := by
        rintro other (isThread | mem)
        · rw [isThread]
          exact pointer
        · exact sound.pointer other mem }

theorem fresh (sound : Sound sched alive members) (dead : thread ∉ alive) (queue : QueueId) :
    thread ∉ members queue := fun mem => dead (sound.mem_alive queue thread mem)

theorem mask_setNotEmpty (sound : Sound sched alive members) {level : Nat}
    (notEmpty : list ≠ []) :
    ReadyMask.Shows (ReadyMask.kthreadReadyListSetNotEmpty level sched.rdyMask) fun prio =>
      Function.update members (.ready level) list (.ready prio) ≠ [] := by
  refine (sound.mask.setNotEmpty level).congr fun prio _ => ?_
  by_cases same : prio = level
  · subst same
    simp [notEmpty]
  · rw [Function.update_of_ne (by simpa using same)]
    simp [same]

/-- `kthread_move_to_ready` puts a thread at the end of its level. -/
theorem kthreadMoveToReady (sound : Sound sched alive members) (dead : thread ∉ alive)
    (pointer : 0 < thread ∧ thread < addressCount) {level : Nat}
    (isLevel : (sched.threads thread).prio = level) (bound : level < PRIO_LEVELS) :
    Sound (sched.kthreadMoveToReady thread LAST) (insert thread alive)
      (Function.update members (.ready level) (members (.ready level) ++ [thread])) := by
  subst isLevel
  have threads := sched.kthreadMoveToReady_threads thread LAST
  refine sound.put dead pointer (by simp)
    (sound.linked.append pointer.1.ne' (sound.fresh dead)) ?_ ?_ ?_ rfl
    (sound.mask_setNotEmpty (by simp))
  · intro other different
    rw [threads, Function.update_of_ne different]
  · rw [threads, Function.update_self]
    exact ⟨rfl, rfl, by simp⟩
  · rw [threads, Function.update_self]
    exact bound

/-- `kthread_move_to_ready` puts a thread at the front of its level. -/
theorem kthreadMoveToReady_first (sound : Sound sched alive members) (dead : thread ∉ alive)
    (pointer : 0 < thread ∧ thread < addressCount) {level : Nat}
    (isLevel : (sched.threads thread).prio = level) (bound : level < PRIO_LEVELS) :
    Sound (sched.kthreadMoveToReady thread FIRST) (insert thread alive)
      (Function.update members (.ready level) (thread :: members (.ready level))) := by
  subst isLevel
  have threads := sched.kthreadMoveToReady_threads thread FIRST
  refine sound.put dead pointer (by simp [or_comm])
    (sound.linked.prepend pointer.1.ne' (sound.fresh dead)) ?_ ?_ ?_ rfl
    (sound.mask_setNotEmpty (by simp))
  · intro other different
    rw [threads, Function.update_of_ne different]
  · rw [threads, Function.update_self]
    exact ⟨rfl, rfl, by simp⟩
  · rw [threads, Function.update_self]
    exact bound

/-- `kthread_enqueue` puts a thread at the end of a wait queue. -/
theorem kthreadEnqueue (sound : Sound sched alive members) (dead : thread ∉ alive)
    (pointer : 0 < thread ∧ thread < addressCount)
    (bound : (sched.threads thread).prio < PRIO_LEVELS) (waits : queue.state = .wait) :
    Sound (sched.kthreadEnqueue thread queue) (insert thread alive)
      (Function.update members queue (members queue ++ [thread])) := by
  have threads := sched.kthreadEnqueue_threads queue pointer.1.ne'
  have stored := sched.kthreadEnqueue_eq queue pointer.1.ne'
  have notReady : ∀ prio, QueueId.ready prio ≠ queue := by
    rintro prio rfl
    simp [QueueId.state] at waits
  have linked : (sched.kthreadEnqueue thread queue).queues.Linked
      (Function.update members queue (members queue ++ [thread])) := by
    rw [stored]
    exact sound.linked.append pointer.1.ne' (sound.fresh dead)
  refine sound.put dead pointer (by simp) linked ?_ ?_ ?_ (by rw [stored]; rfl) ?_
  · intro other different
    rw [threads, Function.update_of_ne different]
  · rw [threads, Function.update_self]
    exact ⟨rfl, waits.symm, fun prio isReady => absurd isReady.symm (notReady prio)⟩
  · rw [threads, Function.update_self]
    exact bound
  · rw [stored]
    refine sound.mask.congr fun prio _ => ?_
    rw [Function.update_of_ne (notReady prio)]

end Put

end Sound

end Oseer
