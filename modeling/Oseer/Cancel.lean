import Oseer.Lifecycle

/-!
# The end of a thread

`kthread_cancel` of a thread that has left its queue: its resources are
released, its process is removed after the last thread, and its descriptor is
freed unless other threads are counted in it, which are released then.
-/

namespace Oseer

open LinkedRing

/-- Only the messages, the list of processes and the heaps are different. -/
structure SameCore (kernel kernel' : Kernel) : Prop where
  sched : kernel'.sched = kernel.sched
  allThreads : kernel'.allThreads = kernel.allThreads
  processes : kernel'.processes = kernel.processes
  idmask : kernel'.idmask = kernel.idmask
  lastId : kernel'.lastId = kernel.lastId
  semValue : kernel'.semValue = kernel.semValue
  monitors : kernel'.monitors = kernel.monitors
  kmsgs : kernel'.kmsgs = kernel.kmsgs
  minPrio : kernel'.minPrio = kernel.minPrio
  kgmsgqId : kernel'.kgmsgqId = kernel.kgmsgqId

variable {kernel kernel' kernel'' : Kernel} {idle thread other proc home : Ptr}
  {alive : Set Ptr} {members members' : Members} {all procs : List Ptr} {exitStatus : Int}

section Resources

theorem SameCore.refl (kernel : Kernel) : SameCore kernel kernel :=
  ⟨rfl, rfl, rfl, rfl, rfl, rfl, rfl, rfl, rfl, rfl⟩

theorem SameCore.trans (first : SameCore kernel kernel') (second : SameCore kernel' kernel'') :
    SameCore kernel kernel'' where
  sched := second.sched.trans first.sched
  allThreads := second.allThreads.trans first.allThreads
  processes := second.processes.trans first.processes
  idmask := second.idmask.trans first.idmask
  lastId := second.lastId.trans first.lastId
  semValue := second.semValue.trans first.semValue
  monitors := second.monitors.trans first.monitors
  kmsgs := second.kmsgs.trans first.kmsgs
  minPrio := second.minPrio.trans first.minPrio
  kgmsgqId := second.kgmsgqId.trans first.kgmsgqId

theorem msgqCleanLoop_core (msgq : MsgqId) (fuel : Nat) :
    SameCore kernel (kernel.msgqCleanLoop msgq fuel) ∧
      (kernel.msgqCleanLoop msgq fuel).procs = kernel.procs := by
  induction fuel generalizing kernel with
  | zero => exact ⟨.refl kernel, rfl⟩
  | succ fuel ih =>
      unfold Kernel.msgqCleanLoop
      dsimp only
      split
      · exact ⟨⟨rfl, rfl, rfl, rfl, rfl, rfl, rfl, rfl, rfl, rfl⟩, rfl⟩
      · obtain ⟨core, sameProcs⟩ := ih
        exact ⟨{ core with }, sameProcs⟩

theorem releaseStack_core : SameCore kernel (kernel.releaseStack thread) ∧
    (kernel.releaseStack thread).procs = kernel.procs ∧
    (kernel.releaseStack thread).msgs = kernel.msgs := by
  unfold Kernel.releaseStack
  dsimp only
  split
  · split <;> exact ⟨⟨rfl, rfl, rfl, rfl, rfl, rfl, rfl, rfl, rfl, rfl⟩, rfl, rfl⟩
  · exact ⟨.refl kernel, rfl, rfl⟩

theorem kthreadDeletePrivateStorage_core (block : Ptr) :
    SameCore kernel (kernel.kthreadDeletePrivateStorage thread block) ∧
      (kernel.kthreadDeletePrivateStorage thread block).procs = kernel.procs ∧
      (kernel.kthreadDeletePrivateStorage thread block).msgs = kernel.msgs := by
  unfold Kernel.kthreadDeletePrivateStorage
  split
  · exact ⟨⟨rfl, rfl, rfl, rfl, rfl, rfl, rfl, rfl, rfl, rfl⟩, rfl, rfl⟩
  · exact ⟨.refl kernel, rfl, rfl⟩

/-- The process of the thread has to be removed. -/
def Kernel.LastThread (kernel : Kernel) (proc : Ptr) : Prop :=
  (kernel.processes proc).thrCount = 0 ∧ (kernel.processes proc).pi ≠ 0

instance : Decidable (kernel.LastThread proc) := inferInstanceAs (Decidable (_ ∧ _))

/-- The processes that remain after a thread of one of them has ended. -/
def Kernel.remaining (kernel : Kernel) (proc : Ptr) (procs : List Ptr) : List Ptr :=
  if kernel.LastThread proc then procs.erase proc else procs

/-- The removal of a process finds it in the list of processes. -/
theorem Kernel.removeProcess_spec (linked : kernel.procs.Linked fun _ => procs)
    (listed : kernel.LastThread (kernel.thread thread).proc →
      (kernel.thread thread).proc ∈ procs) :
    ∃ kernel', kernel.removeProcess thread = .ok kernel' ∧ SameCore kernel kernel' ∧
      kernel'.msgs = kernel.msgs ∧
      kernel'.procs.Linked fun _ => kernel.remaining (kernel.thread thread).proc procs := by
  unfold Kernel.removeProcess Kernel.remaining
  by_cases last : kernel.LastThread (kernel.thread thread).proc
  · have mem := listed last
    obtain ⟨removed, linked'⟩ := linked.remove_single FIRST mem
    have nonzero : (kernel.thread thread).proc ≠ 0 := by
      intro isZero
      exact (List.nodup_cons.mp (linked.nodup ())).1 (isZero ▸ mem)
    have found : ((kernel.kfree (kernel.processes (kernel.thread thread).proc).pi).procs.listRemove
        () FIRST (kernel.thread thread).proc).1 ≠ 0 := by
      have same : ((kernel.kfree (kernel.processes (kernel.thread thread).proc).pi).procs.listRemove
          () FIRST (kernel.thread thread).proc).1 = (kernel.thread thread).proc := removed
      rwa [same]
    simp only [if_pos (show _ ∧ _ from last), if_neg found, if_pos last]
    exact ⟨_, rfl, ⟨rfl, rfl, rfl, rfl, rfl, rfl, rfl, rfl, rfl, rfl⟩, rfl, linked'⟩
  · simp only [if_neg (show ¬ (_ ∧ _) from last), if_neg last]
    exact ⟨kernel, rfl, .refl kernel, rfl, linked⟩

theorem Kernel.removeProcess_core (removed : kernel.removeProcess thread = .ok kernel') :
    SameCore kernel kernel' := by
  unfold Kernel.removeProcess at removed
  dsimp only at removed
  split_ifs at removed
  · obtain rfl := Except.ok.inj removed
    exact ⟨rfl, rfl, rfl, rfl, rfl, rfl, rfl, rfl, rfl, rfl⟩
  · obtain rfl := Except.ok.inj removed
    exact .refl kernel

theorem Kernel.releaseResources_core (released : kernel.releaseResources thread = .ok kernel') :
    SameCore kernel kernel' := by
  have cleaned : SameCore kernel (kernel.kMsgqClean (.thread thread)) :=
    (msgqCleanLoop_core (.thread thread) addressCount).1
  have freed := cleaned.trans (@releaseStack_core _ thread).1
  have deleted := freed.trans (@kthreadDeletePrivateStorage_core _ thread
    (((kernel.kMsgqClean (.thread thread)).releaseStack thread).thread thread).privateStorage).1
  exact deleted.trans (Kernel.removeProcess_core released)

/-- All the resources of a thread are released. -/
theorem Kernel.releaseResources_spec (linked : kernel.procs.Linked fun _ => procs)
    (listed : kernel.LastThread (kernel.thread thread).proc →
      (kernel.thread thread).proc ∈ procs) :
    ∃ kernel', kernel.releaseResources thread = .ok kernel' ∧ SameCore kernel kernel' ∧
      kernel'.msgs = (kernel.kMsgqClean (.thread thread)).msgs ∧
      kernel'.procs.Linked fun _ => kernel.remaining (kernel.thread thread).proc procs := by
  generalize cleanedIs : kernel.kMsgqClean (.thread thread) = cleaned
  have clean : SameCore kernel cleaned ∧ cleaned.procs = kernel.procs :=
    cleanedIs ▸ msgqCleanLoop_core (.thread thread) addressCount
  generalize freedIs : cleaned.releaseStack thread = freed
  have free : SameCore cleaned freed ∧ freed.procs = cleaned.procs ∧
      freed.msgs = cleaned.msgs := freedIs ▸ releaseStack_core
  generalize deletedIs :
    freed.kthreadDeletePrivateStorage thread (freed.thread thread).privateStorage = deleted
  have delete : SameCore freed deleted ∧ deleted.procs = freed.procs ∧
      deleted.msgs = freed.msgs := deletedIs ▸ kthreadDeletePrivateStorage_core _
  have core : SameCore kernel deleted := (clean.1.trans free.1).trans delete.1
  have sameProcs : deleted.procs = kernel.procs :=
    (delete.2.1.trans free.2.1).trans clean.2
  have sameMsgs : deleted.msgs = cleaned.msgs := delete.2.2.trans free.2.2
  have sameThread : deleted.thread thread = kernel.thread thread := by
    unfold Kernel.thread
    rw [core.sched]
  have sameLast : deleted.LastThread (kernel.thread thread).proc ↔
      kernel.LastThread (kernel.thread thread).proc := by
    unfold Kernel.LastThread
    rw [core.processes]
  have sameRest : deleted.remaining (kernel.thread thread).proc procs =
      kernel.remaining (kernel.thread thread).proc procs := by
    unfold Kernel.remaining
    simp only [sameLast]
  have linkedDeleted : deleted.procs.Linked fun _ => procs := sameProcs ▸ linked
  have listedDeleted : deleted.LastThread (deleted.thread thread).proc →
      (deleted.thread thread).proc ∈ procs := by
    rw [sameThread, sameLast]
    exact listed
  obtain ⟨kernel', result, core', msgs, linked'⟩ :=
    Kernel.removeProcess_spec linkedDeleted listedDeleted
  rw [sameThread, sameRest] at linked'
  refine ⟨kernel', ?_, core.trans core', msgs.trans sameMsgs, linked'⟩
  rw [← result]
  unfold Kernel.releaseResources
  simp only [cleanedIs, freedIs, deletedIs]

end Resources

section Processes

theorem Kernel.endThread_sched :
    (kernel.endThread thread exitStatus).sched = kernel.sched.setThread thread
      fun descriptor => { descriptor with
        refCnt := descriptor.refCnt - 1, exitStatus := exitStatus } := rfl

theorem Kernel.endThread_thread :
    (kernel.endThread thread exitStatus).thread thread = { kernel.thread thread with
      refCnt := (kernel.thread thread).refCnt - 1, exitStatus := exitStatus } := by
  unfold Kernel.thread
  rw [Kernel.endThread_sched, Sched.setThread_same]

theorem Kernel.endThread_other (different : other ≠ thread) :
    (kernel.endThread thread exitStatus).thread other = kernel.thread other := by
  unfold Kernel.thread
  rw [Kernel.endThread_sched, Sched.setThread_other different]

theorem Kernel.endThread_proc :
    ((kernel.endThread thread exitStatus).thread other).proc = (kernel.thread other).proc := by
  by_cases same : other = thread
  · rw [same, Kernel.endThread_thread]
  · rw [Kernel.endThread_other same]

theorem Kernel.endThread_processes :
    (kernel.endThread thread exitStatus).processes =
      Function.update kernel.processes (kernel.thread thread).proc
        { kernel.processes (kernel.thread thread).proc with
          thrCount := (kernel.processes (kernel.thread thread).proc).thrCount - 1 } := by
  have proc : (kernel.thread thread).proc =
      ((kernel.endThread thread exitStatus).thread thread).proc := Kernel.endThread_proc.symm
  rw [proc]
  rfl

theorem Kernel.endThread_pi :
    ((kernel.endThread thread exitStatus).processes other).pi = (kernel.processes other).pi := by
  rw [Kernel.endThread_processes]
  by_cases same : other = (kernel.thread thread).proc
  · rw [same, Function.update_self]
  · rw [Function.update_of_ne same]

/-- One thread less in the process of a thread that ends. -/
theorem Accounted.count_ended (accounted : Accounted kernel home alive procs)
    (finite : alive.Finite) (mem : thread ∈ alive) (known : other = home ∨ other ∈ procs) :
    ((kernel.endThread thread exitStatus).processes other).thrCount =
      (kernel.threadsOf (alive \ {thread}) other).ncard := by
  rw [Kernel.endThread_processes]
  by_cases same : other = (kernel.thread thread).proc
  · have shape : kernel.threadsOf (alive \ {thread}) other =
        kernel.threadsOf alive other \ {thread} := by
      ext mate
      constructor
      · exact fun inside => ⟨⟨inside.1.1, inside.2⟩, inside.1.2⟩
      · exact fun inside => ⟨⟨inside.1.1, inside.2⟩, inside.1.2⟩
    have here : thread ∈ kernel.threadsOf alive other := ⟨mem, same.symm⟩
    have less := Set.ncard_sdiff_singleton_add_one here
      (finite.subset fun _ inside => inside.1)
    have counted := accounted.count other known
    rw [same, Function.update_self, ← same, shape]
    change (kernel.processes other).thrCount - 1 = _
    omega
  · have shape : kernel.threadsOf (alive \ {thread}) other = kernel.threadsOf alive other := by
      ext mate
      constructor
      · exact fun inside => ⟨inside.1.1, inside.2⟩
      · rintro ⟨inAlive, isProc⟩
        refine ⟨⟨inAlive, ?_⟩, isProc⟩
        rintro rfl
        exact same isProc.symm
    rw [Function.update_of_ne same, shape, accounted.count other known]

theorem Accounted.last_listed (accounted : Accounted kernel home alive procs)
    (mem : thread ∈ alive)
    (last : (kernel.endThread thread exitStatus).LastThread (kernel.thread thread).proc) :
    (kernel.thread thread).proc ∈ procs := by
  refine (accounted.member thread mem).resolve_left fun isHome => last.2 ?_
  rw [Kernel.endThread_pi, isHome]
  exact accounted.home_pi

/-- The processes after a thread has ended. -/
theorem Accounted.ended (accounted : Accounted kernel home alive procs)
    (finite : alive.Finite) (mem : thread ∈ alive)
    (processes : kernel'.processes = (kernel.endThread thread exitStatus).processes)
    (proc : ∀ mate ∈ alive, (kernel'.thread mate).proc = (kernel.thread mate).proc)
    (linked : kernel'.procs.Linked fun _ =>
      (kernel.endThread thread exitStatus).remaining (kernel.thread thread).proc procs) :
    Accounted kernel' home (alive \ {thread})
      ((kernel.endThread thread exitStatus).remaining (kernel.thread thread).proc procs) := by
  have nodup : procs.Nodup := (List.nodup_cons.mp (accounted.linked.nodup ())).2
  -- a process that remains is one of those before
  have before : ∀ other ∈ (kernel.endThread thread exitStatus).remaining
      (kernel.thread thread).proc procs, other ∈ procs ∧
        ¬ ((kernel.endThread thread exitStatus).LastThread (kernel.thread thread).proc ∧
          other = (kernel.thread thread).proc) := by
    intro other inside
    unfold Kernel.remaining at inside
    split_ifs at inside with last
    · rw [nodup.mem_erase_iff] at inside
      exact ⟨inside.2, fun both => inside.1 both.2⟩
    · exact ⟨inside, fun both => last both.1⟩
  have after : ∀ other ∈ procs, other ≠ (kernel.thread thread).proc →
      other ∈ (kernel.endThread thread exitStatus).remaining (kernel.thread thread).proc
        procs := by
    intro other inside different
    unfold Kernel.remaining
    split_ifs
    · rw [nodup.mem_erase_iff]
      exact ⟨different, inside⟩
    · exact inside
  have threads : ∀ other, kernel'.threadsOf (alive \ {thread}) other =
      kernel.threadsOf (alive \ {thread}) other := by
    intro other
    ext mate
    refine and_congr_right fun inside => ?_
    rw [proc mate inside.1]
  have count : ∀ other, other = home ∨ other ∈ procs →
      (kernel'.processes other).thrCount =
        (kernel'.threadsOf (alive \ {thread}) other).ncard := by
    intro other known
    rw [processes, threads, accounted.count_ended finite mem known]
  have samePi : ∀ other, (kernel'.processes other).pi = (kernel.processes other).pi := by
    intro other
    rw [processes, Kernel.endThread_pi]
  refine ⟨linked, fun other known => ?_, fun mate inside => ?_, fun other inside => ?_,
    fun other inside => ?_, samePi home ▸ accounted.home_pi⟩
  · exact count other (known.imp id fun inside => (before other inside).1)
  · rw [proc mate inside.1]
    refine (accounted.member mate inside.1).imp id fun listed => ?_
    by_cases same : (kernel.thread mate).proc = (kernel.thread thread).proc
    · -- the mate is a thread of the same process, which then has threads
      have here : mate ∈ kernel.threadsOf (alive \ {thread}) (kernel.thread thread).proc :=
        ⟨inside, same⟩
      have positive := (Set.ncard_pos ((finite.subset fun _ inside => inside.1.1))).mpr ⟨mate, here⟩
      have counted : ((kernel.endThread thread exitStatus).processes
          (kernel.thread thread).proc).thrCount = _ :=
        accounted.count_ended finite mem (.inr (same ▸ listed))
      unfold Kernel.remaining
      rw [if_neg fun last => by have zero := last.1; omega]
      exact listed
    · exact after _ listed same
  · obtain ⟨listed, notLast⟩ := before other inside
    by_cases same : other = (kernel.thread thread).proc
    · have notZero : ((kernel.endThread thread exitStatus).processes other).thrCount ≠ 0 := by
        intro zero
        refine notLast ⟨⟨same ▸ zero, ?_⟩, same⟩
        rw [Kernel.endThread_pi]
        exact accounted.pi_ne _ (same ▸ listed)
      rw [accounted.count_ended finite mem (.inr listed)] at notZero
      obtain ⟨mate, here⟩ := Set.nonempty_of_ncard_ne_zero
        (fun zero => notZero (by rw [zero]; rfl))
      exact ⟨mate, here.1, (proc mate here.1.1).trans here.2⟩
    · obtain ⟨mate, inAlive, isProc⟩ := accounted.inhabited other listed
      refine ⟨mate, ⟨inAlive, ?_⟩, (proc mate inAlive).trans isProc⟩
      rintro rfl
      exact same isProc.symm
  · rw [samePi]
    exact accounted.pi_ne other (before other inside).1

end Processes

section Descriptor

/-- The list of all threads after the descriptor of one is freed. -/
theorem Roster.freed (roster : Roster kernel idle alive members all) (memAll : thread ∈ all)
    (notIdle : thread ≠ idle) (empty : members (.join thread) = [])
    (listed : kernel'.allThreads.Linked fun _ => all.erase thread)
    (idmask : kernel'.idmask = Function.update kernel.idmask (kernel.thread thread).id false)
    (lastId : kernel'.lastId = kernel.lastId)
    (id : ∀ other, other ≠ thread → (kernel'.thread other).id = (kernel.thread other).id)
    (refCnt : ∀ other, other ≠ thread →
      (kernel'.thread other).refCnt = (kernel.thread other).refCnt) :
    Roster kernel' idle (alive \ {thread}) members (all.erase thread) := by
  have nodup : all.Nodup := (List.nodup_cons.mp (roster.listed.nodup ())).2
  have before : ∀ other, other ∈ all.erase thread ↔ other ≠ thread ∧ other ∈ all :=
    fun other => nodup.mem_erase_iff
  refine
    { listed := listed
      alive_listed := fun other inside =>
        (before other).mpr ⟨inside.2, roster.alive_listed other inside.1⟩
      pointer := fun other inside => roster.pointer other ((before other).mp inside).2
      counted := fun other inside => ?_
      unlisted := fun other outside => ?_
      own := roster.own
      known := fun other inside => ?_
      distinct := fun other inside another insideToo => ?_
      fresh := fun number greater => ?_
      last_lt := lastId ▸ roster.last_lt
      idle_mem := ⟨roster.idle_mem, notIdle.symm⟩ }
  · obtain ⟨different, inAll⟩ := (before other).mp inside
    rw [refCnt other different]
    exact roster.counted other inAll
  · by_cases same : other = thread
    · exact same ▸ empty
    · exact roster.unlisted other fun inAll => outside ((before other).mpr ⟨same, inAll⟩)
  · obtain ⟨different, inAll⟩ := (before other).mp inside
    obtain ⟨positive, upper, used⟩ := roster.known other inAll
    rw [id other different, lastId, idmask, Function.update_of_ne]
    · exact ⟨positive, upper, used⟩
    · exact fun sameId => different (roster.distinct other inAll thread memAll sameId)
  · obtain ⟨different, inAll⟩ := (before other).mp inside
    obtain ⟨differentToo, inAllToo⟩ := (before another).mp insideToo
    rw [id other different, id another differentToo]
    exact roster.distinct other inAll another inAllToo
  · rw [idmask]
    by_cases isId : number = (kernel.thread thread).id
    · rw [isId, Function.update_self]
    · rw [Function.update_of_ne isId]
      exact roster.fresh number (lastId ▸ greater)

/-- The list of all threads after one has ended whose descriptor is kept. -/
theorem Roster.kept (roster : Roster kernel idle alive members all) (notIdle : thread ≠ idle)
    (waiting : SameWaiting (· = .join thread) members members')
    (empty : members' (.join thread) = [])
    (allThreads : kernel'.allThreads = kernel.allThreads)
    (idmask : kernel'.idmask = kernel.idmask) (lastId : kernel'.lastId = kernel.lastId)
    (id : ∀ other, (kernel'.thread other).id = (kernel.thread other).id)
    (refCnt : ∀ other, other ≠ thread →
      (kernel'.thread other).refCnt = (kernel.thread other).refCnt)
    (counted : 0 < (kernel'.thread thread).refCnt) :
    Roster kernel' idle (alive \ {thread}) members' all where
  listed := allThreads ▸ roster.listed
  alive_listed := fun other inside => roster.alive_listed other inside.1
  pointer := roster.pointer
  counted := fun other inside => by
    by_cases same : other = thread
    · rw [same, empty]
      exact counted
    · rw [waiting (.join other) rfl (by simpa using same), refCnt other same]
      exact roster.counted other inside
  unlisted := fun other outside => by
    by_cases same : other = thread
    · rw [same]
      exact empty
    · rw [waiting (.join other) rfl (by simpa using same)]
      exact roster.unlisted other outside
  own := fun owner other inQueue => by
    rw [waiting (.thrq (.thread owner)) rfl (by simp)] at inQueue
    exact roster.own owner other inQueue
  known := fun other inside => by
    rw [id, lastId, idmask]
    exact roster.known other inside
  distinct := fun other inside another insideToo => by
    rw [id, id]
    exact roster.distinct other inside another insideToo
  fresh := fun number greater => by
    rw [idmask]
    exact roster.fresh number (lastId ▸ greater)
  last_lt := lastId ▸ roster.last_lt
  idle_mem := ⟨roster.idle_mem, notIdle.symm⟩

/-- What is left when a thread has ended. -/
structure Ended (kernel kernel' : Kernel) (idle thread : Ptr) (alive : Set Ptr)
    (members members' : Members) (all all' : List Ptr) : Prop where
  sound : Sound kernel'.sched (alive \ {thread}) members'
  ledger : Ledger kernel' idle (alive \ {thread}) members' all'
  listed : ∀ other, other ∈ all' ↔
    other ∈ all ∧ ¬ (other = thread ∧ (kernel'.thread thread).refCnt = 0)
  waiting : SameWaiting (· = .join thread) members members'
  empty : members' (.join thread) = []
  activeThread : kernel'.activeThread = kernel.activeThread
  others : ∀ other, other ≠ thread → other ∉ members (.join thread) →
    kernel'.thread other = kernel.thread other
  state : (kernel'.thread thread).state = (kernel.thread thread).state
  activated : ∀ other, (kernel'.thread other).activated = (kernel.thread other).activated

/-- The resources of a thread that has left its queue are released. -/
theorem Ledger.releaseResources (ledger : Ledger kernel idle alive members all)
    (sound : Sound kernel.sched (alive \ {thread}) members) (mem : thread ∈ alive) :
    ∃ kernel', (kernel.endThread thread exitStatus).releaseResources thread = .ok kernel' ∧
      SameCore (kernel.endThread thread exitStatus) kernel' ∧
      Sound kernel'.sched (alive \ {thread}) members ∧
      ∃ procs, Accounted kernel' (kernel.thread idle).proc (alive \ {thread}) procs := by
  obtain ⟨procs, accounted⟩ := ledger.accounted
  have finite := ledger.toRoster.finite
  have listed : (kernel.endThread thread exitStatus).LastThread
      ((kernel.endThread thread exitStatus).thread thread).proc →
      ((kernel.endThread thread exitStatus).thread thread).proc ∈ procs := by
    rw [Kernel.endThread_proc]
    exact accounted.last_listed mem
  have linked : (kernel.endThread thread exitStatus).procs.Linked fun _ => procs :=
    accounted.linked
  obtain ⟨kernel', result, core, -, linked'⟩ := Kernel.releaseResources_spec linked listed
  rw [Kernel.endThread_proc] at linked'
  have proc : ∀ mate ∈ alive, (kernel'.thread mate).proc = (kernel.thread mate).proc := by
    intro mate _
    unfold Kernel.thread
    rw [core.sched]
    exact Kernel.endThread_proc
  refine ⟨kernel', result, core, ?_, _, accounted.ended finite mem core.processes proc linked'⟩
  rw [core.sched, Kernel.endThread_sched]
  exact sound.setThread_dead (by simp)

/-- All the stores of `kthread_remove_descriptor`. -/
def Kernel.withoutDescriptor (thread : Ptr) (kernel : Kernel) : Kernel :=
  let id := (kernel.thread thread).id
  let kernel : Kernel := { kernel with idmask := Function.update kernel.idmask id false }
  let kernel := kernel.setThread thread fun descriptor => { descriptor with id := 0 }
  ({ kernel with allThreads := (kernel.allThreads.listRemove () 0 thread).2 } : Kernel).kfree thread

theorem Kernel.withoutDescriptor_sched :
    (kernel.withoutDescriptor thread).sched = kernel.sched.setThread thread
      fun descriptor => { descriptor with id := 0 } := rfl

theorem Kernel.withoutDescriptor_thread : (kernel.withoutDescriptor thread).thread other =
    (kernel.setThread thread fun descriptor => { descriptor with id := 0 }).thread other := rfl

theorem Roster.kthreadRemoveDescriptor (roster : Roster kernel idle alive members all)
    (mem : thread ∈ all) (idmask : kernel'.idmask = kernel.idmask)
    (id : (kernel'.thread thread).id = (kernel.thread thread).id) :
    kernel'.kthreadRemoveDescriptor thread = .ok (kernel'.withoutDescriptor thread) := by
  unfold Kernel.kthreadRemoveDescriptor Kernel.withoutDescriptor
  rw [id, roster.kFreeUniqueId mem idmask]
  rfl

/-- The descriptor of a thread that nobody is counted in is freed. -/
theorem Roster.ended_freed (roster : Roster kernel idle alive members all)
    (core : SameCore (kernel.endThread thread exitStatus) kernel')
    (sound : Sound kernel'.sched (alive \ {thread}) members)
    (accounted : Accounted kernel' (kernel.thread idle).proc (alive \ {thread}) procs)
    (memAll : thread ∈ all) (notIdle : thread ≠ idle)
    (unused : (kernel.thread thread).refCnt = 1) :
    Ended kernel (kernel'.withoutDescriptor thread) idle thread alive members members all
      (all.erase thread) := by
  have nodup : all.Nodup := (List.nodup_cons.mp (roster.listed.nodup ())).2
  have ended : kernel'.thread = (kernel.endThread thread exitStatus).thread := by
    unfold Kernel.thread
    rw [core.sched]
  have others : ∀ other, other ≠ thread →
      (kernel'.withoutDescriptor thread).thread other = kernel.thread other := by
    intro other different
    rw [Kernel.withoutDescriptor_thread, Kernel.setThread_other different, ended,
      Kernel.endThread_other different]
  have here : (kernel'.withoutDescriptor thread).thread thread = { kernel.thread thread with
      refCnt := (kernel.thread thread).refCnt - 1, exitStatus := exitStatus, id := 0 } := by
    rw [Kernel.withoutDescriptor_thread, Kernel.setThread_same, ended, Kernel.endThread_thread]
  have empty : members (.join thread) = [] := by
    have counted := roster.counted thread memAll
    rw [unused] at counted
    exact List.length_eq_zero_iff.mp (by omega)
  have listed : (kernel'.withoutDescriptor thread).allThreads.Linked fun _ => all.erase thread := by
    have linked : kernel'.allThreads.Linked fun _ => all := core.allThreads ▸ roster.listed
    exact (linked.remove_single 0 memAll).2
  have idmask : (kernel'.withoutDescriptor thread).idmask =
      Function.update kernel.idmask (kernel.thread thread).id false := by
    change Function.update kernel'.idmask (kernel'.thread thread).id false = _
    rw [core.idmask, ended, Kernel.endThread_thread]
    rfl
  have roster' := @Roster.freed kernel (kernel'.withoutDescriptor thread) idle thread alive members
    all roster memAll notIdle empty listed idmask core.lastId
    (fun other different => by rw [others other different])
    fun other different => by rw [others other different]
  have accounted' : Accounted (kernel'.withoutDescriptor thread)
      ((kernel'.withoutDescriptor thread).thread idle).proc (alive \ {thread}) procs := by
    rw [others idle notIdle.symm]
    refine accounted.congr rfl (fun mate inside => ?_) fun _ _ => rfl
    rw [others mate inside.2, ended, Kernel.endThread_proc]
  refine
    { sound := by
        rw [Kernel.withoutDescriptor_sched]
        exact sound.setThread_dead (by simp)
      ledger := ⟨roster', procs, accounted'⟩
      listed := fun other => ?_
      waiting := fun _ _ _ => rfl
      empty := empty
      activeThread := by
        unfold Kernel.activeThread
        rw [Kernel.withoutDescriptor_sched, Sched.setThread_activeThread, core.sched]
        rfl
      others := fun other different _ => others other different
      state := by rw [here]
      activated := fun other => ?_ }
  · rw [nodup.mem_erase_iff, here, unused]
    simp [and_comm]
  · by_cases same : other = thread
    · rw [same, here]
    · rw [others other same]

/-- The descriptor of a thread is kept for the threads that wait for its end. -/
theorem Roster.ended_kept (roster : Roster kernel idle alive members all)
    (core : SameCore (kernel.endThread thread exitStatus) kernel')
    (sound : Sound kernel'.sched (alive \ {thread}) members)
    (accounted : Accounted kernel' (kernel.thread idle).proc (alive \ {thread}) procs)
    (memAll : thread ∈ all) (notIdle : thread ≠ idle)
    (used : (kernel.thread thread).refCnt ≠ 1) :
    ∃ members', Ended kernel (kernel'.kthreadqReleaseAll (.join thread)).2 idle thread alive
      members members' all all := by
  have isWait : (QueueId.join thread).state = .wait := rfl
  obtain ⟨members', -, sound', empty, releases⟩ := sound.kthreadqReleaseAll isWait
  generalize releasedIs : (kernel'.kthreadqReleaseAll (.join thread)).2 = released
  have sched : (kernel'.sched.kthreadqReleaseAll (.join thread)).2 = released.sched := by
    rw [← releasedIs]
    rfl
  rw [sched] at sound' releases
  have tables : SameTables kernel' released := by
    rw [← releasedIs]
    exact SameTables.sched (sched ▸ releases.data)
  have data : ∀ other, (released.thread other).toThreadData = (kernel'.thread other).toThreadData :=
    releases.data
  have ended : kernel'.thread = (kernel.endThread thread exitStatus).thread := by
    unfold Kernel.thread
    rw [core.sched]
  have refCnt : ∀ other, other ≠ thread →
      (released.thread other).refCnt = (kernel.thread other).refCnt := by
    intro other different
    rw [data, ended, Kernel.endThread_other different]
  have here : (released.thread thread).refCnt = (kernel.thread thread).refCnt - 1 := by
    rw [data, ended, Kernel.endThread_thread]
  have id : ∀ other, (released.thread other).id = (kernel.thread other).id := by
    intro other
    rw [tables.id, ended]
    by_cases same : other = thread
    · rw [same, Kernel.endThread_thread]
    · rw [Kernel.endThread_other same]
  have counted := roster.counted thread memAll
  have roster' : Roster released idle (alive \ {thread}) members' all :=
    roster.kept notIdle releases.waiting empty (tables.allThreads.trans core.allThreads)
      (tables.idmask.trans core.idmask) (tables.lastId.trans core.lastId) id refCnt (by omega)
  have home : (released.thread idle).proc = (kernel.thread idle).proc := by
    rw [tables.proc, ended, Kernel.endThread_proc]
  have free : ∀ other, other ∉ members (.join thread) → released.thread other =
      (kernel.endThread thread exitStatus).thread other := fun other notMem => by
    rw [← ended]
    exact releases.others other notMem
  have notIn : thread ∉ members (.join thread) := fun inQueue =>
    (sound.mem_alive _ thread inQueue).2 rfl
  refine ⟨members',
    { sound := sound'
      ledger := ⟨roster', procs, home ▸ tables.accounted accounted⟩
      listed := fun other => ?_
      waiting := releases.waiting
      empty := empty
      activeThread := ?_
      others := fun other different notMem => ?_
      state := ?_
      activated := fun other => ?_ }⟩
  · rw [here]
    exact ⟨fun inside => ⟨inside, fun both => used (by omega)⟩, And.left⟩
  · have active : released.activeThread = kernel'.activeThread := releases.active
    rw [active]
    unfold Kernel.activeThread
    rw [core.sched]
    rfl
  · rw [free other notMem, Kernel.endThread_other different]
  · rw [free thread notIn, Kernel.endThread_thread]
  · have same : (released.thread other).activated = (kernel'.thread other).activated :=
      releases.activated other
    rw [same, ended]
    by_cases isThread : other = thread
    · rw [isThread, Kernel.endThread_thread]
    · rw [Kernel.endThread_other isThread]

/-- The descriptor of a thread that has ended is freed, or kept for the threads that wait
for its end, which are released. -/
theorem Ledger.endAndRelease (ledger : Ledger kernel idle alive members all)
    (sound : Sound kernel.sched (alive \ {thread}) members) (mem : thread ∈ alive)
    (notIdle : thread ≠ idle) :
    ∃ kernel' members' all', kernel.endAndRelease thread exitStatus = .ok kernel' ∧
      Ended kernel kernel' idle thread alive members members' all all' := by
  obtain ⟨released, result, core, sound', procs, accounted⟩ :=
    @Ledger.releaseResources kernel idle thread alive members all exitStatus ledger sound mem
  have memAll := ledger.alive_listed thread mem
  have ended : released.thread thread = (kernel.endThread thread exitStatus).thread thread := by
    unfold Kernel.thread
    rw [core.sched]
  have refCnt : (released.thread thread).refCnt = (kernel.thread thread).refCnt - 1 := by
    rw [ended, Kernel.endThread_thread]
  unfold Kernel.endAndRelease
  rw [result]
  change ∃ kernel' members' all', released.releaseDescriptor thread = .ok kernel' ∧ _
  unfold Kernel.releaseDescriptor
  by_cases unused : (kernel.thread thread).refCnt = 1
  · have sameId : (released.thread thread).id = (kernel.thread thread).id := by
      rw [ended, Kernel.endThread_thread]
    have removes : released.kthreadRemoveDescriptor thread =
        .ok (released.withoutDescriptor thread) :=
      ledger.toRoster.kthreadRemoveDescriptor memAll core.idmask sameId
    rw [if_pos (by omega), removes]
    exact ⟨_, members, _, rfl,
      ledger.toRoster.ended_freed core sound' accounted memAll notIdle unused⟩
  · rw [if_neg (by omega)]
    obtain ⟨members', kept⟩ :=
      ledger.toRoster.ended_kept core sound' accounted memAll notIdle unused
    exact ⟨_, members', all, rfl, kept⟩

end Descriptor

end Oseer
