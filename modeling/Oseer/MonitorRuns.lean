import Oseer.Library.MonitorRooms
import Oseer.Waiting

/-!
# Monitors as rooms

The calls of `kernel/monitor.c` do to the monitors and their queues what threads do in rooms: the
owner of a monitor is the thread inside, the queue of the monitor is that of the threads that want
to enter, and the queue of a condition keeps in `qdata` where each thread comes back to.
-/

namespace Oseer

open LinkedRing Results MonitorRooms

variable {kernel kernel' : Kernel} {idle thread kmonitor kqueue : Ptr} {alive : Set Ptr}
  {members members' : Members} {all : List Ptr} {queue queue' : QueueId} {rest : List Ptr}

section Moves

/-- `kthreads_schedule` changes no data and no queue of threads that wait. -/
theorem Settled.scheduled (settled : Settled kernel idle alive members all) :
    ∃ kernel' members', kernel.kthreadsSchedule = .ok kernel' ∧
      Coherent kernel' idle alive members' all ∧ SameData kernel.sched kernel'.sched ∧
      kernel'.monitors = kernel.monitors ∧
      ∀ queue : QueueId, queue.state = .wait → members' queue = members queue := by
  obtain ⟨sched, members', schedules, coherent, -, switches⟩ := settled.kthreadsSchedule
  exact ⟨_, members', schedules, coherent, switches.data, rfl,
    fun queue waits => switches.waiting queue waits id⟩

/-- The active thread enters a queue where no other thread is waited for. -/
theorem Coherent.waitIn (coherent : Coherent kernel idle alive members all) (queue : QueueId)
    (waits : queue.state = .wait) (notIdle : kernel.activeThread ≠ idle)
    (noJoin : ∀ target, queue ≠ .join target) (noOwn : ∀ owner, queue ≠ .thrq (.thread owner)) :
    Settled (kernel.kthreadEnqueue queue) idle alive
        (enqueued members queue kernel.activeThread) all ∧
      SameData kernel.sched (kernel.kthreadEnqueue queue).sched := by
  obtain ⟨settled, data, -⟩ := coherent.kthreadEnqueue waits notIdle
    (fun target isJoin => absurd isJoin (noJoin target))
    (fun owner isOwn => absurd isOwn (noOwn owner))
  exact ⟨settled, data⟩

/-- A thread that runs keeps running while another one is moved. -/
theorem Coherent.of_settled (coherent : Coherent kernel idle alive members all)
    (settled : Settled kernel' idle alive members' all)
    (active : kernel'.activeThread = kernel.activeThread)
    (same : kernel'.thread kernel.activeThread = kernel.thread kernel.activeThread) :
    Coherent kernel' idle alive members' all := by
  refine ⟨settled, ?_, ?_⟩
  · change kernel'.activeThread ∈ alive
    rw [active]
    exact coherent.running.mem_alive
  · change (kernel'.thread kernel'.activeThread).state = .active
    rw [active, same]
    exact coherent.running.active

/-- The first thread of one queue goes to the end of another one. -/
theorem Settled.move (settled : Settled kernel idle alive members all) (queue' : QueueId)
    (place : members queue = thread :: rest) (waits : queue.state = .wait)
    (waits' : queue'.state = .wait) (different : queue' ≠ queue)
    (noJoin : ∀ target, queue' ≠ .join target) (noOwn : ∀ owner, queue' ≠ .thrq (.thread owner)) :
    (kernel.sched.kthreadqRemove queue 0).1 = thread ∧
      ∃ sched, ((kernel.sched.kthreadqRemove queue 0).2.kthreadEnqueue thread queue') = sched ∧
        Settled { kernel with sched := sched } idle alive
          (Function.update (Function.update members queue rest) queue'
            (members queue' ++ [thread])) all ∧
        SameData kernel.sched sched ∧ sched.activeThread = kernel.sched.activeThread ∧
        ∀ other, other ≠ thread → sched.threads other = kernel.sched.threads other := by
  have sound := settled.sound
  have mem : thread ∈ members queue := by simp [place]
  have inAlive := sound.mem_alive queue thread mem
  have nonzero := sound.ne_zero inAlive
  have waiting : (kernel.sched.threads thread).state = .wait :=
    (sound.placed queue thread mem).inState.trans waits
  have first : kernel.sched.kthreadqRemove queue 0 = kernel.sched.kthreadqRemove queue thread := by
    unfold Sched.kthreadqRemove
    rw [sound.linked.listRemove_first place]
  have place' : members queue = [] ++ thread :: rest := place
  obtain ⟨removed, taken⟩ := sound.kthreadqRemove place' waits
  rw [List.nil_append] at taken
  have dead : thread ∉ alive \ {thread} := by simp
  have entered := taken.kthreadEnqueue dead (sound.pointer thread inAlive)
    (sound.prio thread inAlive) waits'
  rw [Set.insert_sdiff_singleton, Set.insert_eq_of_mem inAlive, Function.update_of_ne different]
    at entered
  rw [first]
  refine ⟨removed, _, rfl, ?_⟩
  generalize isSched : (kernel.sched.kthreadqRemove queue thread).2.kthreadEnqueue thread queue' =
    sched at entered ⊢
  have threads : sched.threads = Function.update kernel.sched.threads thread
      { kernel.sched.threads thread with state := .wait, queue := some queue' } := by
    rw [← isSched, Sched.kthreadEnqueue_threads _ _ nonzero]
    rfl
  have active : sched.activeThread = kernel.sched.activeThread := by
    rw [← isSched, Sched.kthreadEnqueue_activeThread _ _ nonzero]
    rfl
  have data : SameData kernel.sched sched := sameData_update threads rfl
  have others : ∀ other, other ≠ thread →
      sched.threads other = kernel.sched.threads other := by
    intro other isOther
    rw [threads, Function.update_of_ne isOther]
  have states : ∀ other, (sched.threads other).state = (kernel.sched.threads other).state := by
    intro other
    by_cases same : other = thread
    · subst same
      rw [threads, Function.update_self, waiting]
    · rw [others other same]
  have fewer : ∀ other : QueueId, other ≠ queue' →
      (Function.update (Function.update members queue rest) queue' (members queue' ++ [thread])
        other).Sublist (members other) := by
    intro other isOther
    rw [Function.update_of_ne isOther]
    by_cases same : other = queue
    · subst same
      rw [Function.update_self, place]
      exact List.sublist_cons_self thread rest
    · rw [Function.update_of_ne same]
  refine ⟨⟨entered, ?_, ?_, ?_⟩, data, active, others⟩
  · apply settled.ledger.congr (SameTables.sched data)
    · intro other listed
      have refCnt : (sched.threads other).refCnt = (kernel.thread other).refCnt :=
        congrArg ThreadData.refCnt (data other)
      change _ < (sched.threads other).refCnt
      rw [refCnt]
      have shorter := (fewer (.join other) (noJoin other).symm).length_le
      have counted := settled.ledger.counted other listed
      omega
    · intro other unlisted
      have none := fewer (.join other) (noJoin other).symm
      rw [settled.ledger.unlisted other unlisted] at none
      exact List.sublist_nil.mp none
    · intro owner other inQueue
      exact settled.ledger.own owner other ((fewer _ (noOwn owner).symm).subset inQueue)
  · intro isActive
    change (sched.threads sched.activeThread).state = .active at isActive
    rw [states, active] at isActive
    change sched.activeThread ∈ alive
    rw [active]
    exact settled.current isActive
  · change (sched.threads idle).state ≠ .wait
    rw [states]
    exact settled.idle_runs

theorem released_self {level : Nat} (waits : queue.state = .wait) :
    Sound.released members queue thread rest level queue = rest := by
  have notReady : queue ≠ .ready level := by
    rintro rfl
    cases waits
  unfold Sound.released
  rw [Function.update_of_ne notReady, Function.update_self]

theorem released_other {level : Nat} (waits : queue'.state = .wait) (different : queue' ≠ queue) :
    Sound.released members queue thread rest level queue' = members queue' := by
  have notReady : queue' ≠ .ready level := by
    rintro rfl
    cases waits
  unfold Sound.released
  rw [Function.update_of_ne notReady, Function.update_of_ne different]

end Moves

/-- The monitors that exist and their queues are rooms, and the queues for conditions keep where
the threads come back to.  Nobody is where no object exists. -/
structure ShowsRooms (kernel : Kernel) (members : Members) (monitors conditions : Set Ptr)
    (rooms : Rooms Ptr Ptr Ptr) : Prop where
  lock : ∀ kmonitor ∈ monitors,
    (kernel.monitors kmonitor).lock = true ↔ rooms.inside kmonitor ≠ []
  owner : ∀ kmonitor ∈ monitors,
    (kernel.monitors kmonitor).owner = (rooms.inside kmonitor).headD 0
  entry : ∀ kmonitor ∈ monitors, rooms.queue (.entry kmonitor) = members (.monitor kmonitor)
  condition : ∀ kqueue ∈ conditions,
    rooms.queue (.condition kqueue) = members (.monitorQueue kqueue)
  back : ∀ kqueue ∈ conditions, ∀ thread ∈ members (.monitorQueue kqueue),
    rooms.back thread = (kernel.thread thread).qdata ∧ rooms.back thread ∈ monitors
  blank : ∀ kmonitor ∉ monitors,
    rooms.inside kmonitor = [] ∧ rooms.queue (.entry kmonitor) = []
  bare : ∀ kqueue ∉ conditions, rooms.queue (.condition kqueue) = []

namespace ShowsRooms

variable {monitors conditions : Set Ptr} {rooms : Rooms Ptr Ptr Ptr}

theorem congr (shows : ShowsRooms kernel members monitors conditions rooms)
    (same : ∀ kmonitor ∈ monitors, kernel'.monitors kmonitor = kernel.monitors kmonitor)
    (entry : ∀ kmonitor ∈ monitors, members' (.monitor kmonitor) = members (.monitor kmonitor))
    (condition : ∀ kqueue ∈ conditions,
      members' (.monitorQueue kqueue) = members (.monitorQueue kqueue))
    (qdata : ∀ kqueue ∈ conditions, ∀ thread ∈ members (.monitorQueue kqueue),
      (kernel'.thread thread).qdata = (kernel.thread thread).qdata) :
    ShowsRooms kernel' members' monitors conditions rooms where
  lock := fun kmonitor known => by rw [same kmonitor known, shows.lock kmonitor known]
  owner := fun kmonitor known => by rw [same kmonitor known, shows.owner kmonitor known]
  entry := fun kmonitor known => by rw [entry kmonitor known, shows.entry kmonitor known]
  condition := fun kqueue known => by rw [condition kqueue known, shows.condition kqueue known]
  back := fun kqueue known thread mem => by
    rw [condition kqueue known] at mem
    rw [qdata kqueue known thread mem]
    exact shows.back kqueue known thread mem
  blank := shows.blank
  bare := shows.bare

/-- A thread that is linked nowhere waits nowhere. -/
theorem free (shows : ShowsRooms kernel members monitors conditions rooms)
    (unlinked : ∀ queue, thread ∉ members queue) : ∀ place, thread ∉ rooms.queue place := by
  intro place
  cases place with
  | entry kmonitor =>
      by_cases known : kmonitor ∈ monitors
      · rw [shows.entry kmonitor known]
        exact unlinked _
      · rw [(shows.blank kmonitor known).2]
        exact List.not_mem_nil
  | condition kqueue =>
      by_cases known : kqueue ∈ conditions
      · rw [shows.condition kqueue known]
        exact unlinked _
      · rw [shows.bare kqueue known]
        exact List.not_mem_nil

/-- A thread becomes the owner of a monitor that is not locked. -/
theorem own (shows : ShowsRooms kernel members monitors conditions rooms)
    (known : kmonitor ∈ monitors) (empty : rooms.inside kmonitor = [])
    (owned : kernel'.monitors = Function.update kernel.monitors kmonitor ⟨true, thread⟩)
    (entry : ∀ other ∈ monitors, members' (.monitor other) = members (.monitor other))
    (condition : ∀ kqueue ∈ conditions,
      members' (.monitorQueue kqueue) = members (.monitorQueue kqueue))
    (data : SameData kernel.sched kernel'.sched) :
    ShowsRooms kernel' members' monitors conditions (rooms.enter kmonitor thread) := by
  unfold Rooms.enter
  rw [if_pos empty]
  constructor
  all_goals dsimp only
  · intro other inMonitors
    rw [owned]
    by_cases same : other = kmonitor
    · subst same
      simp
    · rw [Function.update_of_ne same, Function.update_of_ne same]
      exact shows.lock other inMonitors
  · intro other inMonitors
    rw [owned]
    by_cases same : other = kmonitor
    · subst same
      simp
    · rw [Function.update_of_ne same, Function.update_of_ne same]
      exact shows.owner other inMonitors
  · intro other inMonitors
    rw [entry other inMonitors, shows.entry other inMonitors]
  · intro kqueue inConditions
    rw [condition kqueue inConditions, shows.condition kqueue inConditions]
  · intro kqueue inConditions other mem
    rw [condition kqueue inConditions] at mem
    have qdata : (kernel'.thread other).qdata = (kernel.thread other).qdata :=
      congrArg ThreadData.qdata (data other)
    rw [qdata]
    exact shows.back kqueue inConditions other mem
  · intro other unknown
    have different : other ≠ kmonitor := fun same => unknown (same ▸ known)
    rw [Function.update_of_ne different]
    exact shows.blank other unknown
  · exact shows.bare

/-- A thread enters the queue of a monitor that is locked. -/
theorem queueUp (shows : ShowsRooms kernel members monitors conditions rooms)
    (known : kmonitor ∈ monitors) (locked : rooms.inside kmonitor ≠ [])
    (same : kernel'.monitors = kernel.monitors)
    (entered : members' (.monitor kmonitor) = members (.monitor kmonitor) ++ [thread])
    (entry : ∀ other ∈ monitors, other ≠ kmonitor →
      members' (.monitor other) = members (.monitor other))
    (condition : ∀ kqueue ∈ conditions,
      members' (.monitorQueue kqueue) = members (.monitorQueue kqueue))
    (data : SameData kernel.sched kernel'.sched) :
    ShowsRooms kernel' members' monitors conditions (rooms.enter kmonitor thread) := by
  unfold Rooms.enter
  rw [if_neg locked]
  constructor
  all_goals dsimp only
  · rw [same]
    exact shows.lock
  · rw [same]
    exact shows.owner
  · intro other inMonitors
    by_cases isMonitor : other = kmonitor
    · subst isMonitor
      rw [Function.update_self, entered, shows.entry other inMonitors]
    · rw [Function.update_of_ne (by simpa using isMonitor), entry other inMonitors isMonitor,
        shows.entry other inMonitors]
  · intro kqueue inConditions
    rw [Function.update_of_ne (by simp), condition kqueue inConditions,
      shows.condition kqueue inConditions]
  · intro kqueue inConditions other mem
    rw [condition kqueue inConditions] at mem
    have qdata : (kernel'.thread other).qdata = (kernel.thread other).qdata :=
      congrArg ThreadData.qdata (data other)
    rw [qdata]
    exact shows.back kqueue inConditions other mem
  · intro other unknown
    have different : other ≠ kmonitor := fun same => unknown (same ▸ known)
    rw [Function.update_of_ne (by simpa using different)]
    exact shows.blank other unknown
  · intro kqueue unknown
    rw [Function.update_of_ne (by simp)]
    exact shows.bare kqueue unknown

/-- The first thread that waits for a condition leaves the queue. -/
theorem depart (shows : ShowsRooms kernel members monitors conditions rooms)
    (known : kqueue ∈ conditions) (shape : members (.monitorQueue kqueue) = thread :: rest) :
    ShowsRooms kernel (Function.update members (.monitorQueue kqueue) rest) monitors conditions
      { rooms with queue := Function.update rooms.queue (.condition kqueue) rest } := by
  constructor
  all_goals dsimp only
  · exact shows.lock
  · exact shows.owner
  · intro kmonitor inMonitors
    rw [Function.update_of_ne (by simp), Function.update_of_ne (by simp)]
    exact shows.entry kmonitor inMonitors
  · intro other inConditions
    by_cases same : other = kqueue
    · subst same
      rw [Function.update_self, Function.update_self]
    · rw [Function.update_of_ne (by simpa using same), Function.update_of_ne (by simpa using same)]
      exact shows.condition other inConditions
  · intro other inConditions entry mem
    apply shows.back other inConditions entry
    by_cases same : other = kqueue
    · subst same
      rw [Function.update_self] at mem
      rw [shape]
      exact List.mem_cons_of_mem thread mem
    · rwa [Function.update_of_ne (by simpa using same)] at mem
  · intro kmonitor unknown
    rw [Function.update_of_ne (by simp)]
    exact shows.blank kmonitor unknown
  · intro other unknown
    have different : other ≠ kqueue := fun same => unknown (same ▸ known)
    rw [Function.update_of_ne (by simpa using different)]
    exact shows.bare other unknown

/-- The owner of a monitor passes it on to the first thread of its queue. -/
theorem leave (shows : ShowsRooms kernel members monitors conditions rooms)
    (known : kmonitor ∈ monitors) (inside : rooms.inside kmonitor = [thread])
    (passed : kernel'.monitors = Function.update kernel.monitors kmonitor
      ⟨(members (.monitor kmonitor)).take 1 ≠ [], headOf 0 (members (.monitor kmonitor))⟩)
    (shorter : members' (.monitor kmonitor) = (members (.monitor kmonitor)).drop 1)
    (entry : ∀ other ∈ monitors, other ≠ kmonitor →
      members' (.monitor other) = members (.monitor other))
    (condition : ∀ kqueue ∈ conditions,
      members' (.monitorQueue kqueue) = members (.monitorQueue kqueue))
    (data : SameData kernel.sched kernel'.sched) :
    ShowsRooms kernel' members' monitors conditions (rooms.leave kmonitor thread) := by
  unfold Rooms.leave
  rw [inside, List.erase_cons_head, List.nil_append, shows.entry kmonitor known]
  constructor
  all_goals dsimp only
  · intro other inMonitors
    rw [passed]
    by_cases same : other = kmonitor
    · subst same
      rw [Function.update_self, Function.update_self]
      exact decide_eq_true_iff
    · rw [Function.update_of_ne same, Function.update_of_ne same]
      exact shows.lock other inMonitors
  · intro other inMonitors
    rw [passed]
    by_cases same : other = kmonitor
    · subst same
      rw [Function.update_self, Function.update_self]
      cases members (.monitor other) <;> rfl
    · rw [Function.update_of_ne same, Function.update_of_ne same]
      exact shows.owner other inMonitors
  · intro other inMonitors
    by_cases same : other = kmonitor
    · subst same
      rw [Function.update_self, shorter]
    · rw [Function.update_of_ne (by simpa using same), entry other inMonitors same]
      exact shows.entry other inMonitors
  · intro kqueue inConditions
    rw [Function.update_of_ne (by simp), condition kqueue inConditions]
    exact shows.condition kqueue inConditions
  · intro kqueue inConditions other mem
    rw [condition kqueue inConditions] at mem
    have qdata : (kernel'.thread other).qdata = (kernel.thread other).qdata :=
      congrArg ThreadData.qdata (data other)
    rw [qdata]
    exact shows.back kqueue inConditions other mem
  · intro other unknown
    have different : other ≠ kmonitor := fun same => unknown (same ▸ known)
    rw [Function.update_of_ne different, Function.update_of_ne (by simpa using different)]
    exact shows.blank other unknown
  · intro kqueue unknown
    rw [Function.update_of_ne (by simp)]
    exact shows.bare kqueue unknown

/-- The active thread enters the queue for a condition, with the monitor as its data. -/
theorem await (shows : ShowsRooms kernel members monitors conditions rooms)
    (known : kqueue ∈ conditions) (back : kmonitor ∈ monitors)
    (unlinked : ∀ queue, thread ∉ members queue)
    (same : kernel'.monitors = kernel.monitors)
    (stored : (kernel'.thread thread).qdata = kmonitor)
    (qdata : ∀ other, other ≠ thread →
      (kernel'.thread other).qdata = (kernel.thread other).qdata) :
    ShowsRooms kernel' (enqueued members (.monitorQueue kqueue) thread) monitors conditions
      { rooms with
        queue := Function.update rooms.queue (.condition kqueue)
          (rooms.queue (.condition kqueue) ++ [thread])
        back := Function.update rooms.back thread kmonitor } := by
  unfold enqueued
  constructor
  all_goals dsimp only
  · rw [same]
    exact shows.lock
  · rw [same]
    exact shows.owner
  · intro other inMonitors
    rw [Function.update_of_ne (by simp), Function.update_of_ne (by simp)]
    exact shows.entry other inMonitors
  · intro other inConditions
    by_cases isQueue : other = kqueue
    · subst isQueue
      rw [Function.update_self, Function.update_self, shows.condition other inConditions]
    · rw [Function.update_of_ne (by simpa using isQueue),
        Function.update_of_ne (by simpa using isQueue)]
      exact shows.condition other inConditions
  · intro other inConditions entry mem
    by_cases isThread : entry = thread
    · subst isThread
      rw [Function.update_self, stored]
      exact ⟨rfl, back⟩
    · rw [Function.update_of_ne isThread, qdata entry isThread]
      apply shows.back other inConditions entry
      by_cases isQueue : other = kqueue
      · subst isQueue
        simpa [isThread] using mem
      · rwa [Function.update_of_ne (by simpa using isQueue)] at mem
  · intro other unknown
    rw [Function.update_of_ne (by simp)]
    exact shows.blank other unknown
  · intro other unknown
    have different : other ≠ kqueue := fun isQueue => unknown (isQueue ▸ known)
    rw [Function.update_of_ne (by simpa using different)]
    exact shows.bare other unknown

/-- A new monitor that nobody owns, at an address where no thread waits. -/
theorem create (shows : ShowsRooms kernel members monitors conditions rooms)
    (unused : kmonitor ∉ monitors) (empty : members (.monitor kmonitor) = [])
    (stored : kernel'.monitors = Function.update kernel.monitors kmonitor ⟨false, 0⟩)
    (same : kernel'.sched.threads = kernel.sched.threads) :
    ShowsRooms kernel' members (insert kmonitor monitors) conditions rooms := by
  obtain ⟨nobody, none⟩ := shows.blank kmonitor unused
  have old : ∀ other, other ∈ insert kmonitor monitors → other ≠ kmonitor → other ∈ monitors :=
    fun other known different => known.resolve_left different
  constructor
  · intro other known
    rw [stored]
    by_cases isNew : other = kmonitor
    · rw [isNew, Function.update_self, nobody]
      simp
    · rw [Function.update_of_ne isNew]
      exact shows.lock other (old other known isNew)
  · intro other known
    rw [stored]
    by_cases isNew : other = kmonitor
    · rw [isNew, Function.update_self, nobody]
      rfl
    · rw [Function.update_of_ne isNew]
      exact shows.owner other (old other known isNew)
  · intro other known
    by_cases isNew : other = kmonitor
    · rw [isNew, none, empty]
    · exact shows.entry other (old other known isNew)
  · exact shows.condition
  · intro kqueue known other mem
    obtain ⟨qdata, back⟩ := shows.back kqueue known other mem
    refine ⟨?_, .inr back⟩
    unfold Kernel.thread
    rw [same]
    exact qdata
  · exact fun other unknown => shows.blank other fun known => unknown (.inr known)
  · exact shows.bare

/-- A new queue for a condition, at an address where no thread waits. -/
theorem createQueue (shows : ShowsRooms kernel members monitors conditions rooms)
    (unused : kqueue ∉ conditions) (empty : members (.monitorQueue kqueue) = []) :
    ShowsRooms kernel members monitors (insert kqueue conditions) rooms := by
  have none := shows.bare kqueue unused
  have old : ∀ other, other ∈ insert kqueue conditions → other ≠ kqueue → other ∈ conditions :=
    fun other known different => known.resolve_left different
  refine ⟨shows.lock, shows.owner, shows.entry, ?_, ?_, shows.blank, ?_⟩
  · intro other known
    by_cases isNew : other = kqueue
    · rw [isNew, none, empty]
    · exact shows.condition other (old other known isNew)
  · intro other known entry mem
    by_cases isNew : other = kqueue
    · rw [isNew, empty] at mem
      cases mem
    · exact shows.back other (old other known isNew) entry mem
  · exact fun other unknown => shows.bare other fun known => unknown (.inr known)

/-- Monitors and queues are destroyed that nobody uses. -/
theorem fewer {monitors' conditions' : Set Ptr}
    (shows : ShowsRooms kernel members monitors conditions rooms) (sub : monitors' ⊆ monitors)
    (sub' : conditions' ⊆ conditions)
    (unused : ∀ kmonitor ∈ monitors, kmonitor ∉ monitors' → rooms.inside kmonitor = [] ∧
      ∀ thread, ¬ rooms.Blocked kmonitor thread)
    (unused' : ∀ kqueue ∈ conditions, kqueue ∉ conditions' →
      rooms.queue (.condition kqueue) = []) :
    ShowsRooms kernel members monitors' conditions' rooms where
  lock := fun kmonitor known => shows.lock kmonitor (sub known)
  owner := fun kmonitor known => shows.owner kmonitor (sub known)
  entry := fun kmonitor known => shows.entry kmonitor (sub known)
  condition := fun kqueue known => shows.condition kqueue (sub' known)
  back := by
    intro kqueue known other mem
    obtain ⟨qdata, back⟩ := shows.back kqueue (sub' known) other mem
    refine ⟨qdata, ?_⟩
    by_contra gone
    apply (unused _ back gone).2 other
    exact .inr ⟨kqueue, by rwa [shows.condition kqueue (sub' known)], rfl⟩
  blank := by
    intro kmonitor unknown
    by_cases existed : kmonitor ∈ monitors
    · obtain ⟨nobody, none⟩ := unused kmonitor existed unknown
      exact ⟨nobody, List.eq_nil_iff_forall_not_mem.mpr fun other mem => none other (.inl mem)⟩
    · exact shows.blank kmonitor existed
  bare := by
    intro kqueue unknown
    by_cases existed : kqueue ∈ conditions
    · exact unused' kqueue existed unknown
    · exact shows.bare kqueue existed

theorem setErrno (shows : ShowsRooms kernel members monitors conditions rooms) (errnum : Int) :
    ShowsRooms (kernel.setErrno errnum) members monitors conditions rooms := by
  refine shows.congr (fun _ _ => rfl) (fun _ _ => rfl) (fun _ _ => rfl) fun _ _ other _ => ?_
  exact Kernel.setThread_field (fun descriptor => descriptor.qdata) rfl

/-- The scheduler moves no thread that waits. -/
theorem scheduled (shows : ShowsRooms kernel members monitors conditions rooms)
    (same : kernel'.monitors = kernel.monitors)
    (waiting : ∀ queue : QueueId, queue.state = .wait → members' queue = members queue)
    (data : SameData kernel.sched kernel'.sched) :
    ShowsRooms kernel' members' monitors conditions rooms := by
  apply shows.congr (fun _ _ => by rw [same]) (fun _ _ => waiting _ rfl) (fun _ _ => waiting _ rfl)
  intro _ _ other _
  exact congrArg ThreadData.qdata (data other)

end ShowsRooms

namespace MonitorKernel

variable {state state' : MonitorKernel} {monitors conditions : Set Ptr}
  {rooms : Rooms Ptr Ptr Ptr}

theorem listInit_kernel (unchanged : kernel.sched.queues.listInit queue = kernel.sched.queues) :
    { kernel with sched := { kernel.sched with
      queues := kernel.sched.queues.listInit queue } } = kernel := by
  rw [unchanged]

theorem setLock_setOwner_monitors (state : MonitorKernel) (kmonitor owner : Ptr) (lock : Bool) :
    ((state.setLock kmonitor lock).setOwner kmonitor owner).kernel.monitors =
      Function.update state.kernel.monitors kmonitor ⟨lock, owner⟩ := by
  change Function.update (Function.update state.kernel.monitors kmonitor _) kmonitor _ = _
  rw [Function.update_idem]
  congr 1
  change Monitor.mk (Function.update state.kernel.monitors kmonitor _ kmonitor).lock owner = _
  rw [Function.update_self]

theorem setOwner_setLock_monitors (state : MonitorKernel) (kmonitor owner : Ptr) (lock : Bool) :
    ((state.setOwner kmonitor owner).setLock kmonitor lock).kernel.monitors =
      Function.update state.kernel.monitors kmonitor ⟨lock, owner⟩ := by
  change Function.update (Function.update state.kernel.monitors kmonitor _) kmonitor _ = _
  rw [Function.update_idem]
  congr 1
  change Monitor.mk lock (Function.update state.kernel.monitors kmonitor _ kmonitor).owner = _
  rw [Function.update_self]

/-- The owner of a monitor passes it on. -/
theorem passOn_leaves (state : MonitorKernel) (settled : Settled state.kernel idle alive members all)
    (shows : ShowsRooms state.kernel members monitors conditions rooms)
    (known : kmonitor ∈ monitors) (inside : rooms.inside kmonitor = [thread]) :
    ∃ state' members', state.passOn kmonitor =
        (((members (.monitor kmonitor)).take 1).length, state') ∧
      Settled state'.kernel idle alive members' all ∧
      ShowsRooms state'.kernel members' monitors conditions (rooms.leave kmonitor thread) ∧
      state'.kernel.activeThread = state.kernel.activeThread ∧
      ∀ other ∉ members (.monitor kmonitor),
        state'.kernel.thread other = state.kernel.thread other := by
  have locked : (state.kernel.monitors kmonitor).lock = true :=
    (shows.lock kmonitor known).mpr (by simp [inside])
  have first : state.kernel.sched.kthreadqGet (.monitor kmonitor) =
      headOf 0 (members (.monitor kmonitor)) := settled.sound.linked.listGet_first _
  have given : Settled (state.setOwner kmonitor (headOf 0 (members (.monitor kmonitor)))).kernel
      idle alive members all := settled.of_same rfl rfl rfl rfl rfl rfl
  unfold MonitorKernel.passOn
  dsimp only
  rw [first]
  cases place : members (.monitor kmonitor) with
  | nil =>
      rw [place] at given
      rw [given.kthreadqRelease_empty place]
      refine ⟨_, members, rfl, settled.of_same rfl rfl rfl rfl rfl rfl, ?_, rfl, fun _ _ => rfl⟩
      apply shows.leave known inside
      · rw [place]
        exact setOwner_setLock_monitors state kmonitor 0 false
      · rw [place]
        rfl
      · exact fun _ _ _ => rfl
      · exact fun _ _ => rfl
      · exact SameData.refl _
  | cons next rest =>
      rw [place, headOf_cons] at given
      obtain ⟨count, released, data, others⟩ := given.kthreadqRelease place rfl
      rw [headOf_cons, count]
      refine ⟨_, _, rfl, released, ?_, ?_, ?_⟩
      · apply shows.leave known inside
        · rw [place]
          change Function.update state.kernel.monitors kmonitor
            ⟨(state.kernel.monitors kmonitor).lock, next⟩ = _
          rw [locked]
          rfl
        · rw [released_self rfl, place]
          rfl
        · intro other _ different
          exact released_other rfl (by simpa using different)
        · intro kqueue _
          exact released_other rfl (by simp)
        · exact data
      · exact state.kernel.sched.kthreadqRelease_active
      · intro other notMem
        apply others
        rintro rfl
        exact notMem List.mem_cons_self

/-- One round of the loop of `k_monitor_release`. -/
theorem releaseLoop_round (coherent : Coherent state.kernel idle alive members all)
    (shows : ShowsRooms state.kernel members monitors conditions rooms)
    (known : kqueue ∈ conditions) (place : members (.monitorQueue kqueue) = thread :: rest) :
    ∃ state' members' woken, (∀ broadcast fuel reschedule,
        state.monitorReleaseLoop kqueue broadcast (fuel + 1) reschedule =
          if broadcast then
            state'.monitorReleaseLoop kqueue broadcast fuel (reschedule || woken)
          else (reschedule || woken, state')) ∧
      Coherent state'.kernel idle alive members' all ∧
      ShowsRooms state'.kernel members' monitors conditions (rooms.signal kqueue) ∧
      members' (.monitorQueue kqueue) = rest := by
  have mem : thread ∈ members (.monitorQueue kqueue) := by simp [place]
  have nonzero : thread ≠ 0 := coherent.sound.linked.ne_zero mem
  have inactive : state.kernel.activeThread ≠ thread := by
    rintro rfl
    exact coherent.active_free mem
  have first : state.kernel.sched.kthreadqGet (.monitorQueue kqueue) = thread := by
    have get := coherent.sound.linked.listGet_first (.monitorQueue kqueue)
    rwa [place, headOf_cons] at get
  obtain ⟨qdata, back⟩ := shows.back kqueue known thread mem
  have shape : rooms.queue (.condition kqueue) = thread :: rest := by
    rw [shows.condition kqueue known, place]
  have departed := shows.depart known place
  rw [Rooms.signal_cons shape]
  by_cases empty : rooms.inside (rooms.back thread) = []
  · -- the monitor is not locked, and the thread becomes its owner
    have free : (state.kernel.monitors (rooms.back thread)).lock = false := by
      rw [Bool.eq_false_iff]
      exact fun locked => (shows.lock _ back).mp locked empty
    have owned : Settled ((state.setLock (rooms.back thread) true).setOwner (rooms.back thread)
        thread).kernel idle alive members all :=
      coherent.toSettled.of_same rfl rfl rfl rfl rfl rfl
    obtain ⟨-, released, data, others⟩ := owned.kthreadqRelease place rfl
    refine ⟨((state.setLock (rooms.back thread) true).setOwner (rooms.back thread) thread).onKernel
      fun kernel => (kernel.kthreadqRelease (.monitorQueue kqueue)).2, _, true, ?_,
      coherent.of_settled released ?_ ?_, ?_, released_self rfl⟩
    · intro broadcast fuel reschedule
      rw [monitorReleaseLoop]
      dsimp only
      rw [first, if_neg nonzero, ← qdata, if_pos free, Bool.or_true]
    · exact state.kernel.sched.kthreadqRelease_active
    · exact others _ inactive
    · apply departed.own back empty
      · exact setLock_setOwner_monitors state (rooms.back thread) thread true
      · intro other _
        rw [released_other rfl (by simp), Function.update_of_ne (by simp)]
      · intro other _
        by_cases same : other = kqueue
        · subst same
          rw [released_self rfl, Function.update_self]
        · rw [released_other rfl (by simpa using same), Function.update_of_ne (by simpa using same)]
      · exact data
  · -- the thread goes to the queue of the monitor
    have locked : ¬ (state.kernel.monitors (rooms.back thread)).lock = false := by
      rw [Bool.not_eq_false]
      exact (shows.lock _ back).mpr empty
    obtain ⟨removed, sched, moves, settled, data, active, others⟩ :=
      coherent.toSettled.move (.monitor (rooms.back thread)) place rfl rfl (by simp) (by simp)
        (by simp)
    refine ⟨state.onKernel fun kernel => { kernel with sched := sched }, _, false, ?_,
      coherent.of_settled settled active (others _ inactive), ?_, ?_⟩
    · intro broadcast fuel reschedule
      rw [monitorReleaseLoop]
      dsimp only
      rw [first, if_neg nonzero, ← qdata, if_neg locked, removed, moves, Bool.or_false]
      cases broadcast <;> simp [nonzero]
    · apply departed.queueUp back empty
      · rfl
      · rw [Function.update_self, Function.update_of_ne (by simp)]
      · intro other _ different
        rw [Function.update_of_ne (by simpa using different)]
      · intro other _
        rw [Function.update_of_ne (by simp)]
      · exact data
    · rw [Function.update_of_ne (by simp), Function.update_self]

theorem releaseLoop_empty (coherent : Coherent state.kernel idle alive members all)
    (place : members (.monitorQueue kqueue) = []) (broadcast : Bool) (fuel : Nat)
    (reschedule : Bool) :
    state.monitorReleaseLoop kqueue broadcast fuel reschedule = (reschedule, state) := by
  have first : state.kernel.sched.kthreadqGet (.monitorQueue kqueue) = 0 := by
    have get := coherent.sound.linked.listGet_first (.monitorQueue kqueue)
    rwa [place, headOf_nil] at get
  cases fuel with
  | zero => rfl
  | succ fuel =>
      rw [monitorReleaseLoop]
      dsimp only
      rw [first, if_pos rfl]

/-- The loop of `k_monitor_release` for a broadcast ends with an empty queue. -/
theorem releaseLoop_all {fuel : Nat} (coherent : Coherent state.kernel idle alive members all)
    (shows : ShowsRooms state.kernel members monitors conditions rooms)
    (known : kqueue ∈ conditions) (enough : (members (.monitorQueue kqueue)).length < fuel)
    (reschedule : Bool) :
    ∃ state' members' woken,
      state.monitorReleaseLoop kqueue true fuel reschedule = (woken, state') ∧
      Coherent state'.kernel idle alive members' all ∧
      ShowsRooms state'.kernel members' monitors conditions
        (rooms.signals kqueue (members (.monitorQueue kqueue)).length) := by
  generalize queued : members (.monitorQueue kqueue) = entries at enough ⊢
  induction entries generalizing state members rooms fuel reschedule with
  | nil =>
      exact ⟨state, members, reschedule, releaseLoop_empty coherent queued true fuel reschedule,
        coherent, shows⟩
  | cons thread rest ih =>
      obtain ⟨fuel, rfl⟩ := Nat.exists_eq_add_one_of_ne_zero (Nat.ne_zero_of_lt enough)
      obtain ⟨middle, members', woken, round, coherent', shows', left⟩ :=
        releaseLoop_round coherent shows known queued
      obtain ⟨state', members'', woken', ends, coherent'', shows''⟩ :=
        ih coherent' shows' (reschedule || woken) left (Nat.lt_of_succ_lt_succ enough)
      exact ⟨state', members'', woken', by rw [round, if_pos rfl, ends], coherent'', shows''⟩

/-- `k_monitor_release` with the number of threads that it takes from the queue. -/
theorem kMonitorRelease_signals (coherent : Coherent state.kernel idle alive members all)
    (shows : ShowsRooms state.kernel members monitors conditions rooms)
    (known : kqueue ∈ conditions) (nonzero : kqueue ≠ 0) (broadcast : Bool) :
    ∃ state' members', state.kMonitorRelease (some kqueue) broadcast = .ok (-SUCCESS, state') ∧
      Coherent state'.kernel idle alive members' all ∧
      ShowsRooms state'.kernel members' monitors conditions
        (if broadcast then rooms.broadcast kqueue else rooms.signal kqueue) := by
  have loop : ∃ state' members' woken,
      state.monitorReleaseLoop kqueue broadcast addressCount false = (woken, state') ∧
      Coherent state'.kernel idle alive members' all ∧
      ShowsRooms state'.kernel members' monitors conditions
        (if broadcast then rooms.broadcast kqueue else rooms.signal kqueue) := by
    cases broadcast with
    | true =>
        have all := releaseLoop_all coherent shows known coherent.sound.length_lt false
        unfold Rooms.broadcast
        rwa [shows.condition kqueue known]
    | false =>
        cases place : members (.monitorQueue kqueue) with
        | nil =>
            refine ⟨state, members, false, releaseLoop_empty coherent place false _ false, coherent,
              ?_⟩
            rw [if_neg (by decide), Rooms.signal_nil (by rw [shows.condition kqueue known, place])]
            exact shows
        | cons thread rest =>
            obtain ⟨middle, members', woken, round, coherent', shows', -⟩ :=
              releaseLoop_round coherent shows known place
            refine ⟨middle, members', woken, ?_, coherent', shows'⟩
            have positive : addressCount = 0xffffffff + 1 := rfl
            rw [positive, round]
            rfl
  obtain ⟨middle, members', woken, ends, coherent', shows'⟩ := loop
  have noted := coherent'.setErrno SUCCESS
  have shown := shows'.setErrno SUCCESS
  unfold MonitorKernel.kMonitorRelease
  dsimp only
  rw [Option.getD_some, if_neg nonzero, ends]
  cases woken with
  | false => exact ⟨_, members', rfl, noted, shown⟩
  | true =>
      obtain ⟨kernel', members'', schedules, coherent'', data, same, waiting⟩ :=
        noted.toSettled.scheduled
      refine ⟨{ middle with kernel := kernel' }, members'', ?_, coherent'',
        shown.scheduled same waiting data⟩
      rw [if_pos rfl]
      change (((middle.kernel.setErrno SUCCESS).kthreadsSchedule.map _).map _) = _
      rw [schedules]
      rfl

/-- `sys__monitor_lock`. -/
theorem sysMonitorLock_enters (coherent : Coherent state.kernel idle alive members all)
    (shows : ShowsRooms state.kernel members monitors conditions rooms)
    (known : kmonitor ∈ monitors) (nonzero : kmonitor ≠ 0)
    (notIdle : state.kernel.activeThread ≠ idle) :
    ∃ state' members', state.sysMonitorLock (some kmonitor) = .ok (-SUCCESS, state') ∧
      Coherent state'.kernel idle alive members' all ∧
      ShowsRooms state'.kernel members' monitors conditions
        (rooms.enter kmonitor state.kernel.activeThread) := by
  have noted := coherent.setErrno SUCCESS
  have shown := shows.setErrno SUCCESS
  unfold MonitorKernel.sysMonitorLock
  dsimp only
  rw [Option.getD_some, if_neg nonzero]
  by_cases empty : rooms.inside kmonitor = []
  · have free : (state.kernel.monitors kmonitor).lock = false := by
      rw [Bool.eq_false_iff]
      exact fun locked => (shows.lock kmonitor known).mp locked empty
    refine ⟨_, members, if_pos free, noted.of_same rfl rfl rfl rfl rfl rfl, ?_⟩
    apply shown.own known empty
    · exact setLock_setOwner_monitors _ kmonitor _ true
    · exact fun _ _ => rfl
    · exact fun _ _ => rfl
    · exact SameData.refl _
  · have locked : ¬ (state.kernel.monitors kmonitor).lock = false := by
      rw [Bool.not_eq_false]
      exact (shows.lock kmonitor known).mpr empty
    obtain ⟨settled, data⟩ := noted.waitIn (.monitor kmonitor) rfl notIdle (by simp) (by simp)
    obtain ⟨kernel', members', schedules, coherent', data', same, waiting⟩ := settled.scheduled
    refine ⟨{ state with kernel := kernel' }, members', ?_, coherent', ?_⟩
    · rw [if_neg]
      · change ((((state.kernel.setErrno SUCCESS).kthreadEnqueue (.monitor kmonitor)).kthreadsSchedule.map
          _).map _) = _
        rw [schedules]
        rfl
      · exact locked
    · apply ShowsRooms.scheduled _ same waiting data'
      apply shown.queueUp known empty
      · rfl
      · exact Function.update_self ..
      · intro other _ different
        exact Function.update_of_ne (by simpa using different) ..
      · intro other _
        exact Function.update_of_ne (by simp) ..
      · exact data

/-- `sys__monitor_unlock` by the owner. -/
theorem sysMonitorUnlock_leaves (coherent : Coherent state.kernel idle alive members all)
    (shows : ShowsRooms state.kernel members monitors conditions rooms)
    (known : kmonitor ∈ monitors) (nonzero : kmonitor ≠ 0)
    (inside : rooms.inside kmonitor = [state.kernel.activeThread]) :
    ∃ state' members', state.sysMonitorUnlock (some kmonitor) = .ok (-SUCCESS, state') ∧
      Coherent state'.kernel idle alive members' all ∧
      ShowsRooms state'.kernel members' monitors conditions
        (rooms.leave kmonitor state.kernel.activeThread) := by
  have owner : (state.kernel.monitors kmonitor).owner = state.kernel.activeThread := by
    rw [shows.owner kmonitor known, inside, List.headD_cons]
  have noted := coherent.setErrno SUCCESS
  have shown := shows.setErrno SUCCESS
  obtain ⟨passed, members', passes, settled, left, active, others⟩ :=
    passOn_leaves (state.onKernel (Kernel.setErrno SUCCESS)) noted.toSettled shown known inside
  have runs := noted.of_settled settled active (others _ noted.active_free)
  unfold MonitorKernel.sysMonitorUnlock
  dsimp only
  rw [Option.getD_some, if_neg nonzero, if_neg (not_not_intro owner), passes]
  by_cases none : ((members (.monitor kmonitor)).take 1).length = 0
  · exact ⟨passed, members', if_pos none, runs, left⟩
  · obtain ⟨kernel', members'', schedules, coherent', data, same, waiting⟩ := settled.scheduled
    refine ⟨{ passed with kernel := kernel' }, members'', ?_, coherent',
      left.scheduled same waiting data⟩
    rw [if_neg none]
    change ((passed.kernel.kthreadsSchedule.map _).map _) = _
    rw [schedules]
    rfl

/-- `sys__monitor_wait` by the owner. -/
theorem sysMonitorWait_awaits (coherent : Coherent state.kernel idle alive members all)
    (shows : ShowsRooms state.kernel members monitors conditions rooms)
    (known : kmonitor ∈ monitors) (nonzero : kmonitor ≠ 0) (known' : kqueue ∈ conditions)
    (nonzero' : kqueue ≠ 0) (notIdle : state.kernel.activeThread ≠ idle)
    (inside : rooms.inside kmonitor = [state.kernel.activeThread]) :
    ∃ state' members',
      state.sysMonitorWait (some kmonitor) (some kqueue) = .ok (-SUCCESS, state') ∧
      Coherent state'.kernel idle alive members' all ∧
      ShowsRooms state'.kernel members' monitors conditions
        (rooms.await kqueue kmonitor state.kernel.activeThread) := by
  have owner : (state.kernel.monitors kmonitor).owner = state.kernel.activeThread := by
    rw [shows.owner kmonitor known, inside, List.headD_cons]
  have stored : Coherent ((state.kernel.setErrno SUCCESS).setThread state.kernel.activeThread
      fun descriptor => { descriptor with qdata := kmonitor }) idle alive members all :=
    (coherent.setErrno SUCCESS).setThread rfl rfl rfl rfl rfl le_rfl
  obtain ⟨settled, data⟩ := stored.waitIn (.monitorQueue kqueue) rfl notIdle (by simp) (by simp)
  have waits : ShowsRooms (((state.kernel.setErrno SUCCESS).setThread state.kernel.activeThread
      fun descriptor => { descriptor with qdata := kmonitor }).kthreadEnqueue (.monitorQueue kqueue))
      (enqueued members (.monitorQueue kqueue) state.kernel.activeThread) monitors conditions
      { rooms with
        queue := Function.update rooms.queue (.condition kqueue)
          (rooms.queue (.condition kqueue) ++ [state.kernel.activeThread])
        back := Function.update rooms.back state.kernel.activeThread kmonitor } := by
    apply shows.await known' known
    · exact fun queue => coherent.active_free
    · rfl
    · have kept := congrArg ThreadData.qdata (data state.kernel.activeThread)
      refine kept.trans ?_
      exact congrArg (fun descriptor : Thread => descriptor.qdata) Kernel.setThread_same
    · intro other different
      have kept := congrArg ThreadData.qdata (data other)
      refine kept.trans ?_
      change (((state.kernel.setErrno SUCCESS).setThread _ _).thread other).qdata = _
      rw [Kernel.setThread_other different]
      exact Kernel.setThread_field (fun descriptor => descriptor.qdata) rfl
  obtain ⟨passed, members', passes, settled', left, -, -⟩ :=
    passOn_leaves (state.onKernel fun kernel =>
      ((kernel.setErrno SUCCESS).setThread kernel.activeThread fun descriptor =>
        { descriptor with qdata := kmonitor }).kthreadEnqueue (.monitorQueue kqueue))
      settled waits known inside
  obtain ⟨kernel', members'', schedules, coherent', data', same, waiting⟩ := settled'.scheduled
  refine ⟨{ passed with kernel := kernel' }, members'', ?_, coherent',
    left.scheduled same waiting data'⟩
  unfold MonitorKernel.sysMonitorWait
  dsimp only
  rw [Option.getD_some, Option.getD_some, if_neg nonzero, if_neg nonzero',
    if_neg (not_not_intro owner), passes]
  change ((passed.kernel.kthreadsSchedule.map _).map _) = _
  rw [schedules]
  rfl

/-- `sys__monitor_unlock` and `sys__monitor_wait` by another thread. -/
theorem notOwner_fails (shows : ShowsRooms state.kernel members monitors conditions rooms)
    (known : kmonitor ∈ monitors) (nonzero : kmonitor ≠ 0) (nonzero' : kqueue ≠ 0)
    (running : state.kernel.activeThread ≠ 0)
    (outside : state.kernel.activeThread ∉ rooms.inside kmonitor) :
    state.sysMonitorUnlock (some kmonitor) = .ok (state.exit E_NOT_OWNER) ∧
      state.sysMonitorWait (some kmonitor) (some kqueue) = .ok (state.exit E_NOT_OWNER) := by
  have notOwner : (state.kernel.monitors kmonitor).owner ≠ state.kernel.activeThread := by
    rw [shows.owner kmonitor known]
    intro isOwner
    cases shape : rooms.inside kmonitor with
    | nil =>
        rw [shape, List.headD_nil] at isOwner
        exact running isOwner.symm
    | cons first rest =>
        rw [shape, List.headD_cons] at isOwner
        rw [shape, isOwner] at outside
        exact outside List.mem_cons_self
  constructor
  · unfold MonitorKernel.sysMonitorUnlock
    dsimp only
    rw [Option.getD_some, if_neg nonzero, if_pos notOwner]
  · unfold MonitorKernel.sysMonitorWait
    dsimp only
    rw [Option.getD_some, Option.getD_some, if_neg nonzero, if_neg nonzero', if_pos notOwner]

end MonitorKernel

end Oseer
