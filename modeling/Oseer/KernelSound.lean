import Mathlib.Data.Set.Card
import Oseer.Kernel
import Oseer.Schedule

/-!
# The invariant of the kernel

`Ledger` is what the kernel keeps about its threads apart from the queues: the
list of all threads, the reference counts, the identifiers, and the processes
with the number of their threads.  `Coherent` adds the invariant of the
scheduler, and a thread that is always able to run, the idle thread.  Each
routine on the queues has a theorem that says how it moves their members.
-/

namespace Oseer

open LinkedRing

/-- The threads of a process. -/
def Kernel.threadsOf (kernel : Kernel) (alive : Set Ptr) (proc : Ptr) : Set Ptr :=
  {thread ∈ alive | (kernel.thread thread).proc = proc}

/-- The processes: `home` is the one that is never removed. -/
structure Accounted (kernel : Kernel) (home : Ptr) (alive : Set Ptr) (procs : List Ptr) :
    Prop where
  linked : kernel.procs.Linked fun _ => procs
  count : ∀ proc, proc = home ∨ proc ∈ procs →
    (kernel.processes proc).thrCount = (kernel.threadsOf alive proc).ncard
  member : ∀ thread ∈ alive,
    (kernel.thread thread).proc = home ∨ (kernel.thread thread).proc ∈ procs
  inhabited : ∀ proc ∈ procs, ∃ thread ∈ alive, (kernel.thread thread).proc = proc
  pi_ne : ∀ proc ∈ procs, (kernel.processes proc).pi ≠ 0
  home_pi : (kernel.processes home).pi = 0

/-- The list of all threads, with those that have ended and whose status is not
collected yet, their counts and their identifiers. -/
structure Roster (kernel : Kernel) (idle : Ptr) (alive : Set Ptr) (members : Members)
    (all : List Ptr) : Prop where
  listed : kernel.allThreads.Linked fun _ => all
  alive_listed : ∀ thread ∈ alive, thread ∈ all
  pointer : ∀ thread ∈ all, 0 < thread ∧ thread < addressCount
  counted : ∀ thread ∈ all,
    ((members (.join thread)).length : Int) < (kernel.thread thread).refCnt
  unlisted : ∀ thread ∉ all, members (.join thread) = []
  own : ∀ thread, ∀ other ∈ members (.thrq (.thread thread)), other = thread
  known : ∀ thread ∈ all, 0 < (kernel.thread thread).id ∧
    (kernel.thread thread).id ≤ kernel.lastId ∧ kernel.idmask (kernel.thread thread).id = true
  distinct : ∀ thread ∈ all, ∀ other ∈ all,
    (kernel.thread thread).id = (kernel.thread other).id → thread = other
  fresh : ∀ id, kernel.lastId < id → kernel.idmask id = false
  last_lt : kernel.lastId / WBITS < MAX_RESOURCES / WBITS
  idle_mem : idle ∈ alive

/-- What the kernel keeps about its threads and its processes. -/
structure Ledger (kernel : Kernel) (idle : Ptr) (alive : Set Ptr) (members : Members)
    (all : List Ptr) : Prop extends Roster kernel idle alive members all where
  accounted : ∃ procs, Accounted kernel (kernel.thread idle).proc alive procs

/-- The invariant of the kernel before a call of `kthreads_schedule`: the thread
that is active need not be able to run any more. -/
structure Settled (kernel : Kernel) (idle : Ptr) (alive : Set Ptr) (members : Members)
    (all : List Ptr) : Prop where
  sound : Sound kernel.sched alive members
  ledger : Ledger kernel idle alive members all
  current : (kernel.thread kernel.activeThread).state = .active → kernel.activeThread ∈ alive
  idle_runs : (kernel.thread idle).state ≠ .wait

/-- The invariant of the kernel, at every entry to it and at every exit. -/
structure Coherent (kernel : Kernel) (idle : Ptr) (alive : Set Ptr) (members : Members)
    (all : List Ptr) : Prop extends Settled kernel idle alive members all where
  running : Running kernel.sched alive

/-- The tables of the kernel are the same. -/
structure SameTables (kernel kernel' : Kernel) : Prop where
  allThreads : kernel'.allThreads = kernel.allThreads
  procs : kernel'.procs = kernel.procs
  processes : kernel'.processes = kernel.processes
  idmask : kernel'.idmask = kernel.idmask
  lastId : kernel'.lastId = kernel.lastId
  id : ∀ thread, (kernel'.thread thread).id = (kernel.thread thread).id
  proc : ∀ thread, (kernel'.thread thread).proc = (kernel.thread thread).proc

variable {kernel kernel' : Kernel} {idle thread other proc : Ptr} {alive : Set Ptr}
  {members members' : Members} {all : List Ptr} {queue : QueueId} {sched' : Sched}
  {rest : List Ptr}

section Tables

theorem SameTables.trans {kernel'' : Kernel} (first : SameTables kernel kernel')
    (second : SameTables kernel' kernel'') : SameTables kernel kernel'' where
  allThreads := second.allThreads.trans first.allThreads
  procs := second.procs.trans first.procs
  processes := second.processes.trans first.processes
  idmask := second.idmask.trans first.idmask
  lastId := second.lastId.trans first.lastId
  id := fun thread => (second.id thread).trans (first.id thread)
  proc := fun thread => (second.proc thread).trans (first.proc thread)

theorem SameTables.sched (data : SameData kernel.sched sched') :
    SameTables kernel { kernel with sched := sched' } :=
  ⟨rfl, rfl, rfl, rfl, rfl, fun thread => congrArg ThreadData.id (data thread),
    fun thread => congrArg ThreadData.proc (data thread)⟩

/-- Processes that are accounted for depend on the threads alive only. -/
theorem Accounted.congr {home : Ptr} {procs : List Ptr}
    (accounted : Accounted kernel home alive procs) (lists : kernel'.procs = kernel.procs)
    (proc : ∀ thread ∈ alive, (kernel'.thread thread).proc = (kernel.thread thread).proc)
    (processes : ∀ proc, proc = home ∨ proc ∈ procs →
      kernel'.processes proc = kernel.processes proc) : Accounted kernel' home alive procs where
  linked := lists ▸ accounted.linked
  count := fun other known => by
    have threads : kernel'.threadsOf alive other = kernel.threadsOf alive other := by
      ext thread
      refine and_congr_right fun mem => ?_
      rw [proc thread mem]
    rw [processes other known, threads, accounted.count other known]
  member := fun thread mem => by
    rw [proc thread mem]
    exact accounted.member thread mem
  inhabited := fun other mem => by
    obtain ⟨thread, inAlive, isProc⟩ := accounted.inhabited other mem
    exact ⟨thread, inAlive, (proc thread inAlive).trans isProc⟩
  pi_ne := fun other mem => by
    rw [processes other (.inr mem)]
    exact accounted.pi_ne other mem
  home_pi := by
    rw [processes home (.inl rfl)]
    exact accounted.home_pi

theorem SameTables.accounted (same : SameTables kernel kernel') {home : Ptr}
    {procs : List Ptr} (accounted : Accounted kernel home alive procs) :
    Accounted kernel' home alive procs :=
  accounted.congr same.procs (fun thread _ => same.proc thread)
    fun proc _ => by rw [same.processes]

/-- The roster depends on the tables, and on the lengths of some queues. -/
theorem Roster.congr (roster : Roster kernel idle alive members all)
    (same : SameTables kernel kernel')
    (counted : ∀ thread ∈ all,
      ((members' (.join thread)).length : Int) < (kernel'.thread thread).refCnt)
    (unlisted : ∀ thread ∉ all, members' (.join thread) = [])
    (own : ∀ thread, ∀ other ∈ members' (.thrq (.thread thread)), other = thread) :
    Roster kernel' idle alive members' all where
  listed := same.allThreads ▸ roster.listed
  alive_listed := roster.alive_listed
  pointer := roster.pointer
  counted := counted
  unlisted := unlisted
  own := own
  known := fun thread mem => by
    rw [same.id, same.lastId, same.idmask]
    exact roster.known thread mem
  distinct := fun thread mem other memOther sameId => by
    rw [same.id, same.id] at sameId
    exact roster.distinct thread mem other memOther sameId
  fresh := same.idmask ▸ same.lastId ▸ roster.fresh
  last_lt := same.lastId ▸ roster.last_lt
  idle_mem := roster.idle_mem

theorem Ledger.congr (ledger : Ledger kernel idle alive members all)
    (same : SameTables kernel kernel')
    (counted : ∀ thread ∈ all,
      ((members' (.join thread)).length : Int) < (kernel'.thread thread).refCnt)
    (unlisted : ∀ thread ∉ all, members' (.join thread) = [])
    (own : ∀ thread, ∀ other ∈ members' (.thrq (.thread thread)), other = thread) :
    Ledger kernel' idle alive members' all := by
  obtain ⟨procs, accounted⟩ := ledger.accounted
  exact ⟨ledger.toRoster.congr same counted unlisted own, procs,
    same.proc idle ▸ same.accounted accounted⟩

/-- A change of the scheduler that leaves the data of the threads, and adds nobody
to a waiting queue, leaves the roster. -/
theorem Roster.reschedule (roster : Roster kernel idle alive members all)
    (data : SameData kernel.sched sched')
    (fewer : ∀ queue : QueueId, queue.state = .wait →
      (members' queue).Sublist (members queue)) :
    Roster { kernel with sched := sched' } idle alive members' all := by
  refine roster.congr (SameTables.sched data) ?_ ?_ ?_
  · intro thread mem
    have refCnt : (sched'.threads thread).refCnt = (kernel.thread thread).refCnt :=
      congrArg ThreadData.refCnt (data thread)
    have shorter : (members' (.join thread)).length ≤ (members (.join thread)).length :=
      (fewer (.join thread) rfl).length_le
    have counted := roster.counted thread mem
    have bound : ((members' (.join thread)).length : Int) < (sched'.threads thread).refCnt := by
      omega
    exact bound
  · intro thread notMem
    have none := fewer (.join thread) rfl
    rw [roster.unlisted thread notMem] at none
    exact List.sublist_nil.mp none
  · intro thread other mem
    exact roster.own thread other ((fewer _ rfl).subset mem)

theorem Ledger.reschedule (ledger : Ledger kernel idle alive members all)
    (data : SameData kernel.sched sched')
    (fewer : ∀ queue : QueueId, queue.state = .wait →
      (members' queue).Sublist (members queue)) :
    Ledger { kernel with sched := sched' } idle alive members' all := by
  obtain ⟨procs, accounted⟩ := ledger.accounted
  have same : SameTables kernel { kernel with sched := sched' } := SameTables.sched data
  exact ⟨ledger.toRoster.reschedule data fewer, procs,
    same.proc idle ▸ same.accounted accounted⟩

end Tables

section Schedule

theorem Sound.runnable {sched : Sched} (sound : Sound sched alive members)
    (mem : thread ∈ alive) (runs : (sched.threads thread).state ≠ .wait) :
    Sound.Runnable sched alive members := by
  rcases sound.located thread mem with ⟨active, isActive⟩ | ⟨queue, inQueue⟩
  · exact .inl ⟨isActive ▸ mem, isActive ▸ active⟩
  · have placed := sound.placed queue thread inQueue
    cases queue with
    | ready level => exact .inr ⟨level, List.ne_nil_of_mem inQueue⟩
    | _ => exact absurd placed.inState runs

/-- A thread that does not wait still does not when the waiting queues stay the
same. -/
theorem Sound.still_runs {sched : Sched} (sound : Sound sched alive members)
    (sound' : Sound sched' alive members') (mem : thread ∈ alive)
    (waiting : ∀ queue : QueueId, queue.state = .wait → thread ∈ members' queue →
      thread ∈ members queue)
    (runs : (sched.threads thread).state ≠ .wait) : (sched'.threads thread).state ≠ .wait := by
  intro waits
  rcases sound'.located thread mem with ⟨active, -⟩ | ⟨queue, inQueue⟩
  · rw [active] at waits
    cases waits
  · have queueWaits : queue.state = .wait := (sound'.placed queue thread inQueue).inState ▸ waits
    have placed := sound.placed queue thread (waiting queue queueWaits inQueue)
    exact runs (placed.inState.trans queueWaits)

/-- `kthreads_schedule` at the end of a handler restores the invariant. -/
theorem Settled.kthreadsSchedule (settled : Settled kernel idle alive members all) :
    ∃ sched' members', kernel.kthreadsSchedule = .ok { kernel with sched := sched' } ∧
      Coherent { kernel with sched := sched' } idle alive members' all ∧
      Sound.TopPriority sched' alive ∧
      Sound.Switches kernel.sched sched' alive members members' := by
  have idleMem := settled.ledger.idle_mem
  obtain ⟨sched', members', result, sound', running, top, switches⟩ :=
    settled.sound.kthreadsSchedule settled.current
      (settled.sound.runnable idleMem settled.idle_runs)
  refine ⟨sched', members', ?_, ⟨⟨sound', ?_, fun _ => running.mem_alive, ?_⟩, running⟩, top,
    switches⟩
  · unfold Kernel.kthreadsSchedule
    rw [result]
    rfl
  · refine settled.ledger.reschedule switches.data fun queue waits => ?_
    rw [switches.waiting queue waits not_false]
  · refine settled.sound.still_runs sound' idleMem (fun queue waits mem => ?_)
      settled.idle_runs
    rwa [switches.waiting queue waits not_false] at mem

end Schedule

section Data

variable {change : Thread → Thread}

@[simp]
theorem Kernel.setThread_same :
    (kernel.setThread thread change).thread thread = change (kernel.thread thread) :=
  Sched.setThread_same

theorem Kernel.setThread_other (different : other ≠ thread) :
    (kernel.setThread thread change).thread other = kernel.thread other :=
  Sched.setThread_other different

theorem Kernel.setThread_field {α : Type} (field : Thread → α)
    (kept : field (change (kernel.thread thread)) = field (kernel.thread thread)) :
    field ((kernel.setThread thread change).thread other) = field (kernel.thread other) := by
  by_cases same : other = thread
  · subst same
    rw [Kernel.setThread_same, kept]
  · rw [Kernel.setThread_other same]

/-- The data of a thread may change where the kernel does not keep accounts. -/
theorem Coherent.setThread (coherent : Coherent kernel idle alive members all)
    (state : (change (kernel.thread thread)).state = (kernel.thread thread).state)
    (inQueue : (change (kernel.thread thread)).queue = (kernel.thread thread).queue)
    (prio : (change (kernel.thread thread)).prio = (kernel.thread thread).prio)
    (id : (change (kernel.thread thread)).id = (kernel.thread thread).id)
    (proc : (change (kernel.thread thread)).proc = (kernel.thread thread).proc)
    (refCnt : (kernel.thread thread).refCnt ≤ (change (kernel.thread thread)).refCnt) :
    Coherent (kernel.setThread thread change) idle alive members all where
  sound := coherent.sound.setThread_data state inQueue prio
  current := fun _ => coherent.running.mem_alive
  running := ⟨coherent.running.mem_alive,
    (Kernel.setThread_field Thread.state state).trans coherent.running.active⟩
  ledger := by
    refine coherent.ledger.congr ⟨rfl, rfl, rfl, rfl, rfl, fun other => ?_, fun other => ?_⟩
      (fun other mem => ?_) coherent.ledger.unlisted coherent.ledger.own
    · exact Kernel.setThread_field (fun descriptor => descriptor.id) id
    · exact Kernel.setThread_field (fun descriptor => descriptor.proc) proc
    · have counted := coherent.ledger.counted other mem
      by_cases same : other = thread
      · subst same
        rw [Kernel.setThread_same]
        omega
      · rwa [Kernel.setThread_other same]
  idle_runs := by
    rw [Kernel.setThread_field Thread.state state]
    exact coherent.idle_runs

theorem Coherent.setErrno (coherent : Coherent kernel idle alive members all) (errnum : Int) :
    Coherent (kernel.setErrno errnum) idle alive members all :=
  coherent.setThread rfl rfl rfl rfl rfl le_rfl

end Data

section Queues

/-- The members of the queues after a thread is put at the end of one. -/
def enqueued (members : Members) (queue : QueueId) (thread : Ptr) : Members :=
  Function.update members queue (members queue ++ [thread])

/-- `kthread_enqueue` of the active thread.  A thread that waits for another one
must be counted, and a thread waits only in its own queue of messages. -/
theorem Coherent.kthreadEnqueue (coherent : Coherent kernel idle alive members all)
    (waits : queue.state = .wait) (notIdle : kernel.activeThread ≠ idle)
    (room : ∀ thread, queue = .join thread → thread ∈ all ∧
      ((members (.join thread)).length : Int) + 1 < (kernel.thread thread).refCnt)
    (own : ∀ thread, queue = .thrq (.thread thread) → kernel.activeThread = thread) :
    Settled (kernel.kthreadEnqueue queue) idle alive
        (enqueued members queue kernel.activeThread) all ∧
      SameData kernel.sched (kernel.kthreadEnqueue queue).sched ∧
      (kernel.kthreadEnqueue queue).sched.activeThread = kernel.activeThread := by
  have running := coherent.running
  have inAlive : kernel.activeThread ∈ alive := running.mem_alive
  have free : ∀ queue, kernel.activeThread ∉ members queue :=
    fun queue => coherent.sound.active_free running.active
  have pointer := coherent.sound.pointer _ inAlive
  have nonzero : kernel.sched.activeThread ≠ 0 := pointer.1.ne'
  have enter : kernel.kthreadEnqueue queue =
      { kernel with sched := kernel.sched.kthreadEnqueue kernel.activeThread queue } := by
    unfold Kernel.kthreadEnqueue
    rw [Sched.kthreadEnqueue_active queue nonzero]
    rfl
  have threads : (kernel.kthreadEnqueue queue).sched.threads =
      Function.update kernel.sched.threads kernel.activeThread
        { kernel.sched.threads kernel.activeThread with
          state := .wait, queue := some queue } := by
    rw [enter]
    exact kernel.sched.kthreadEnqueue_threads queue nonzero
  have data : SameData kernel.sched (kernel.kthreadEnqueue queue).sched :=
    sameData_update threads rfl
  have active : (kernel.kthreadEnqueue queue).sched.activeThread = kernel.activeThread := rfl
  have dead : kernel.activeThread ∉ alive \ {kernel.activeThread} := by simp
  have entered := (coherent.sound.drop free).kthreadEnqueue dead pointer
    (coherent.sound.prio _ inAlive) waits
  rw [Set.insert_sdiff_singleton, Set.insert_eq_of_mem inAlive] at entered
  have others : ∀ queue', queue' ≠ queue →
      enqueued members queue kernel.activeThread queue' = members queue' :=
    fun queue' different => Function.update_of_ne different ..
  refine ⟨⟨enter ▸ entered, ?_, ?_, ?_⟩, data, active⟩
  · refine coherent.ledger.congr ⟨rfl, rfl, rfl, rfl, rfl,
      fun thread => congrArg ThreadData.id (data thread),
      fun thread => congrArg ThreadData.proc (data thread)⟩ ?_ ?_ ?_
    · intro thread mem
      have refCnt : ((kernel.kthreadEnqueue queue).thread thread).refCnt =
          (kernel.thread thread).refCnt := congrArg ThreadData.refCnt (data thread)
      rw [refCnt]
      by_cases same : queue = .join thread
      · subst same
        unfold enqueued
        rw [Function.update_self, List.length_append, List.length_singleton]
        exact_mod_cast (room thread rfl).2
      · rw [others _ (Ne.symm same)]
        exact coherent.ledger.counted thread mem
    · intro thread notMem
      rw [others _ fun same => notMem (room thread same.symm).1]
      exact coherent.ledger.unlisted thread notMem
    · intro thread other mem
      by_cases same : queue = .thrq (.thread thread)
      · subst same
        unfold enqueued at mem
        rw [Function.update_self, List.mem_append, List.mem_singleton] at mem
        rcases mem with old | isActive
        · exact coherent.ledger.own thread other old
        · exact isActive.trans (own thread rfl)
      · rw [others _ (Ne.symm same)] at mem
        exact coherent.ledger.own thread other mem
  · intro stays
    have waiting : ((kernel.kthreadEnqueue queue).sched.threads kernel.activeThread).state =
        .wait := by
      rw [threads, Function.update_self]
    unfold Kernel.thread Kernel.activeThread at stays
    rw [active, waiting] at stays
    cases stays
  · have idleKept : (kernel.kthreadEnqueue queue).thread idle = kernel.thread idle := by
      unfold Kernel.thread
      rw [threads, Function.update_of_ne notIdle.symm]
    rw [idleKept]
    exact coherent.idle_runs

/-- `kthreadq_release` of a queue that is not empty. -/
theorem Settled.kthreadqRelease (settled : Settled kernel idle alive members all)
    (place : members queue = thread :: rest) (waits : queue.state = .wait) :
    (kernel.kthreadqRelease queue).1 = 1 ∧
      Settled (kernel.kthreadqRelease queue).2 idle alive
        (Sound.released members queue thread rest (kernel.thread thread).prio) all ∧
      SameData kernel.sched (kernel.kthreadqRelease queue).2.sched ∧
      ∀ other, other ≠ thread →
        (kernel.kthreadqRelease queue).2.thread other = kernel.thread other := by
  obtain ⟨count, sound', threads, active⟩ := settled.sound.kthreadqRelease place waits
  have data : SameData kernel.sched (kernel.kthreadqRelease queue).2.sched :=
    sameData_update threads rfl
  have changed : ((kernel.kthreadqRelease queue).2.thread thread).state = .ready := by
    unfold Kernel.thread Kernel.kthreadqRelease
    rw [threads, Function.update_self]
  have others : ∀ other, other ≠ thread →
      (kernel.kthreadqRelease queue).2.thread other = kernel.thread other := by
    intro other different
    unfold Kernel.thread Kernel.kthreadqRelease
    rw [threads, Function.update_of_ne different]
  have sameActive : (kernel.kthreadqRelease queue).2.activeThread = kernel.activeThread := active
  refine ⟨count, ⟨sound', ?_, ?_, ?_⟩, data, others⟩
  · refine settled.ledger.reschedule data fun queue' waits' => ?_
    have notReady : queue' ≠ .ready (kernel.thread thread).prio := by
      rintro rfl
      simp [QueueId.state] at waits'
    unfold Sound.released
    rw [Function.update_of_ne notReady]
    by_cases same : queue' = queue
    · subst same
      rw [Function.update_self, place]
      exact List.sublist_cons_self thread rest
    · rw [Function.update_of_ne same]
  · rw [sameActive]
    intro isActive
    by_cases same : kernel.activeThread = thread
    · rw [same, changed] at isActive
      cases isActive
    · rw [others _ same] at isActive
      exact settled.current isActive
  · by_cases same : idle = thread
    · rw [same, changed]
      decide
    · rw [others _ same]
      exact settled.idle_runs

theorem Settled.kthreadqRelease_empty (settled : Settled kernel idle alive members all)
    (empty : members queue = []) : kernel.kthreadqRelease queue = (0, kernel) := by
  unfold Kernel.kthreadqRelease
  rw [settled.sound.kthreadqRelease_empty empty]

/-- `kthreadq_release_all` empties the queue. -/
theorem Settled.kthreadqReleaseAll (settled : Settled kernel idle alive members all)
    (waits : queue.state = .wait) :
    ∃ members', (kernel.kthreadqReleaseAll queue).1 = (members queue).length ∧
      Settled (kernel.kthreadqReleaseAll queue).2 idle alive members' all ∧
      members' queue = [] ∧
      Sound.Releases kernel.sched (kernel.kthreadqReleaseAll queue).2.sched members members'
        queue := by
  obtain ⟨members', count, sound', empty, releases⟩ := settled.sound.kthreadqReleaseAll waits
  have sublist : ∀ queue' : QueueId, queue'.state = .wait →
      (members' queue').Sublist (members queue') := by
    intro queue' waits'
    by_cases same : queue' = queue
    · subst same
      rw [empty]
      exact List.nil_sublist _
    · rw [releases.waiting queue' waits' same]
  refine ⟨members', count, ⟨sound', ?_, ?_, ?_⟩, empty, releases⟩
  · exact settled.ledger.reschedule releases.data sublist
  · intro isActive
    have sameActive : (kernel.kthreadqReleaseAll queue).2.activeThread = kernel.activeThread :=
      releases.active
    rw [sameActive] at isActive ⊢
    by_cases mem : kernel.activeThread ∈ members queue
    · exact settled.sound.mem_alive queue _ mem
    · have kept : (kernel.kthreadqReleaseAll queue).2.thread kernel.activeThread =
          kernel.thread kernel.activeThread := releases.others _ mem
      exact settled.current (kept ▸ isActive)
  · refine settled.sound.still_runs sound' settled.ledger.idle_mem (fun queue' waits' mem => ?_)
      settled.idle_runs
    exact (sublist queue' waits').subset mem

theorem Coherent.still_running (coherent : Coherent kernel idle alive members all)
    (settled : Settled kernel' idle alive members' all)
    (active : kernel'.activeThread = kernel.activeThread)
    (kept : kernel'.thread kernel.activeThread = kernel.thread kernel.activeThread) :
    Coherent kernel' idle alive members' all := by
  have inAlive : kernel.activeThread ∈ alive := coherent.running.mem_alive
  have isActive : (kernel.thread kernel.activeThread).state = .active := coherent.running.active
  refine ⟨settled, ?_, ?_⟩
  · rwa [← active] at inAlive
  · rwa [← kept, ← active] at isActive

/-- `kthread_set_prio` of a thread that is alive. -/
theorem Coherent.kthreadSetPrio (coherent : Coherent kernel idle alive members all)
    (mem : thread ∈ alive) {prio : Nat} (bound : prio < PRIO_LEVELS) :
    ∃ sched' members', kernel.sched.kthreadSetPrio thread prio =
        .ok ((kernel.thread thread).prio, sched') ∧
      Coherent { kernel with sched := sched' } idle alive members' all ∧
      SameWaiting (fun _ => False) members members' ∧
      Sound.DataPrio thread prio kernel.sched sched' := by
  obtain ⟨sched', members', result, sound', running, waiting, data⟩ :=
    coherent.sound.kthreadSetPrio coherent.running mem bound
  have field : ∀ {α : Type} (get : ThreadData → α),
      (∀ data : ThreadData, get { data with prio := prio } = get data) →
      ∀ other, get (sched'.threads other).toThreadData =
        get (kernel.sched.threads other).toThreadData := by
    intro α get kept other
    rw [data other]
    split_ifs
    · exact kept _
    · rfl
  refine ⟨sched', members', result, ⟨⟨sound', ?_, fun _ => running.mem_alive, ?_⟩, running⟩,
    waiting, data⟩
  · refine coherent.ledger.congr ⟨rfl, rfl, rfl, rfl, rfl, field ThreadData.id fun _ => rfl,
      field ThreadData.proc fun _ => rfl⟩ (fun other memOther => ?_) (fun other notMem => ?_)
      (fun other => ?_)
    · have refCnt : (sched'.threads other).refCnt = (kernel.thread other).refCnt :=
        field ThreadData.refCnt (fun _ => rfl) other
      rw [waiting _ rfl not_false]
      exact (coherent.ledger.counted other memOther).trans_eq refCnt.symm
    · rw [waiting _ rfl not_false]
      exact coherent.ledger.unlisted other notMem
    · rw [waiting _ rfl not_false]
      exact coherent.ledger.own other
  · refine coherent.sound.still_runs sound' coherent.ledger.idle_mem
      (fun queue waits inQueue => ?_) coherent.idle_runs
    rwa [waiting queue waits not_false] at inQueue

end Queues

end Oseer
