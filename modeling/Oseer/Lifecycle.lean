import Oseer.KernelSound

/-!
# Creation and end of threads

What `kthread_create` and `kthread_cancel` do, for a kernel that satisfies its
invariant.  A new thread enters the ready list, the list of all threads and its
process; a thread that is cancelled leaves them, and its descriptor is freed if
nobody else is counted in it.
-/

namespace Oseer

open LinkedRing

variable {kernel kernel' : Kernel} {idle thread other proc stack : Ptr} {alive : Set Ptr}
  {members members' : Members} {all : List Ptr}

section Identifiers

/-- The kernel after the next identifier is taken. -/
def Kernel.numbered (kernel : Kernel) : Kernel :=
  { kernel with
    lastId := kernel.lastId + 1
    idmask := Function.update kernel.idmask (kernel.lastId + 1) true }

/-- The next identifier is the one after the last, if that is not in use. -/
theorem Kernel.kNewUniqueId_next (last_lt : kernel.lastId / WBITS < MAX_RESOURCES / WBITS)
    (unused : kernel.idmask (kernel.lastId + 1) = false) :
    kernel.kNewUniqueId =
      if MAX_RESOURCES / WBITS ≤ (kernel.lastId + 1) / WBITS then .error .idOutOfRange
      else .ok kernel.numbered := by
  have bound : kernel.lastId < 992 := by
    unfold WBITS MAX_RESOURCES at last_lt
    omega
  have next : (kernel.lastId + 1) % MAX_RESOURCES = kernel.lastId + 1 :=
    Nat.mod_eq_of_lt (by unfold MAX_RESOURCES; omega)
  have loop : Kernel.newIdLoop kernel.idmask kernel.lastId MAX_RESOURCES kernel.lastId =
      if MAX_RESOURCES / WBITS ≤ (kernel.lastId + 1) / WBITS then .error .idOutOfRange
      else .ok (kernel.lastId + 1) := by
    change Kernel.newIdLoop kernel.idmask kernel.lastId (999 + 1) kernel.lastId = _
    unfold Kernel.newIdLoop
    simp only [next, unused, if_neg (Nat.succ_ne_self kernel.lastId), Bool.false_eq_true,
      if_false]
  unfold Kernel.kNewUniqueId
  rw [loop]
  split <;> rfl

theorem Roster.kNewUniqueId (roster : Roster kernel idle alive members all) :
    kernel.kNewUniqueId =
      if MAX_RESOURCES / WBITS ≤ (kernel.lastId + 1) / WBITS then .error .idOutOfRange
      else .ok kernel.numbered :=
  Kernel.kNewUniqueId_next roster.last_lt (roster.fresh _ (Nat.lt_succ_self _))

theorem Roster.kFreeUniqueId (roster : Roster kernel idle alive members all)
    (mem : thread ∈ all) (idmask : kernel'.idmask = kernel.idmask) :
    kernel'.kFreeUniqueId (kernel.thread thread).id = .ok { kernel' with
      idmask := Function.update kernel'.idmask (kernel.thread thread).id false } := by
  obtain ⟨positive, upper, used⟩ := roster.known thread mem
  have last := roster.last_lt
  unfold WBITS MAX_RESOURCES at last
  unfold Kernel.kFreeUniqueId
  rw [if_neg (by unfold MAX_RESOURCES; omega), if_neg (by unfold MAX_RESOURCES WBITS; omega),
    idmask, if_pos used]

end Identifiers

section Create

theorem clampPrio_lt (prio : Int) : Kernel.clampPrio prio < PRIO_LEVELS := by
  unfold Kernel.clampPrio PRIO_LEVELS
  split_ifs <;> omega

/-- What `kthread_create` leaves as it is, and what it stores. -/
structure Created (kernel kernel' : Kernel) (thread stack : Ptr) (prio : Nat)
    (proc : Ptr) : Prop where
  others : ∀ other, other ≠ thread → kernel'.thread other = kernel.thread other
  state : (kernel'.thread thread).state = .ready
  proc_eq : (kernel'.thread thread).proc = proc
  prio_eq : (kernel'.thread thread).prio = prio
  refCnt_eq : (kernel'.thread thread).refCnt = 1
  id_eq : (kernel'.thread thread).id = kernel'.lastId
  stack_eq : (kernel'.thread thread).stack = stack
  active : kernel'.activeThread = kernel.activeThread
  lastId : kernel'.lastId = kernel.lastId + 1
  idmask : kernel'.idmask = Function.update kernel.idmask (kernel.lastId + 1) true
  allThreads : kernel'.allThreads = kernel.allThreads.listAppend () thread
  procs : kernel'.procs = kernel.procs
  processes : kernel'.processes = Function.update kernel.processes proc
    { kernel.processes proc with thrCount := (kernel.processes proc).thrCount + 1 }
  kfreed : kernel'.kfreed = kernel.kfreed
  ffsFreed : kernel'.ffsFreed = kernel.ffsFreed
  semValue : kernel'.semValue = kernel.semValue
  monitors : kernel'.monitors = kernel.monitors
  msgs : kernel'.msgs = kernel.msgs.listInit (.thread thread)
  kmsgs : kernel'.kmsgs = kernel.kmsgs
  minPrio : kernel'.minPrio = Function.update kernel.minPrio (.thread thread) 0
  kgmsgqId : kernel'.kgmsgqId = kernel.kgmsgqId

/-- All the stores of `kthread_create` after the identifier is chosen. -/
def Kernel.created (stack thread : Ptr) (prio : Int) (proc : Ptr) (kernel : Kernel) : Kernel :=
  ((((kernel.initThread thread prio).startThread thread).joinProcess thread stack
    proc).kThrMsgInit thread).listThread thread

theorem Kernel.initThread_sched (prio : Int) :
    (kernel.initThread thread prio).sched =
      { kernel.sched.setThread thread (Kernel.newThread kernel.lastId prio) with
        queues := kernel.sched.queues.listInit (.join thread) } := rfl

theorem Kernel.startThread_sched :
    (kernel.startThread thread).sched = (kernel.sched.kthreadMoveToReady thread LAST).setThread
      thread fun descriptor => { descriptor with refCnt := 1 } := rfl

theorem Kernel.joinProcess_sched :
    (kernel.joinProcess thread stack proc).sched = kernel.sched.setThread thread
      fun descriptor => { descriptor with
        stack := stack, proc := proc, privateStorage := 0 } := rfl

theorem Kernel.listThread_sched :
    (kernel.listThread thread).sched = kernel.sched.setThread thread
      fun descriptor => { descriptor with activated := false } := rfl

theorem Kernel.kThrMsgInit_sched :
    (kernel.kThrMsgInit thread).sched = { kernel.sched with
      queues := kernel.sched.queues.listInit (.thrq (.thread thread)) } := rfl

/-- What the stores of `kthread_create` do with the scheduler: the queues of the
new thread are empty already. -/
theorem Sound.created (sound : Sound kernel.sched alive members) (dead : thread ∉ alive)
    (noJoin : members (.join thread) = []) (noThrq : members (.thrq (.thread thread)) = [])
    (pointer : 0 < thread ∧ thread < addressCount) (prio : Int) (proc : Ptr) :
    Sound (kernel.created stack thread prio proc).sched (insert thread alive)
      (enqueued members (.ready (Kernel.clampPrio prio)) thread) := by
  have joinInit : kernel.sched.queues.listInit (.join thread) = kernel.sched.queues :=
    sound.linked.listInit_eq noJoin
  have initSound : Sound (kernel.initThread thread prio).sched alive members := by
    have stored : Sound (kernel.sched.setThread thread (Kernel.newThread kernel.lastId prio))
        alive members := sound.setThread_dead dead
    rw [Kernel.initThread_sched, joinInit]
    exact stored
  have prioIs : ((kernel.initThread thread prio).sched.threads thread).prio =
      Kernel.clampPrio prio := by
    have stored : (kernel.sched.setThread thread
        (Kernel.newThread kernel.lastId prio)).threads thread =
        Kernel.newThread kernel.lastId prio (kernel.sched.threads thread) := Sched.setThread_same
    exact congrArg (fun descriptor : Thread => descriptor.prio) stored
  have started : Sound ((kernel.initThread thread prio).startThread thread).sched
      (insert thread alive) (enqueued members (.ready (Kernel.clampPrio prio)) thread) := by
    rw [Kernel.startThread_sched]
    apply Sound.setThread_data (initSound.kthreadMoveToReady dead pointer prioIs
      (clampPrio_lt prio)) <;> rfl
  have joined : Sound (((kernel.initThread thread prio).startThread thread).joinProcess thread
      stack proc).sched (insert thread alive)
      (enqueued members (.ready (Kernel.clampPrio prio)) thread) := by
    rw [Kernel.joinProcess_sched]
    apply Sound.setThread_data started <;> rfl
  have thrqEmpty : enqueued members (.ready (Kernel.clampPrio prio)) thread
      (.thrq (.thread thread)) = [] := by
    unfold enqueued
    rw [Function.update_of_ne (by simp), noThrq]
  unfold Kernel.created
  rw [Kernel.listThread_sched, Kernel.kThrMsgInit_sched, joined.linked.listInit_eq thrqEmpty]
  apply Sound.setThread_data joined <;> rfl

theorem Kernel.created_threads (prio : Int) :
    (kernel.created stack thread prio proc).sched.threads =
      Function.update kernel.sched.threads thread
        { Kernel.newThread kernel.lastId prio (kernel.sched.threads thread) with
          state := .ready
          queue := some (.ready (Kernel.clampPrio prio))
          refCnt := 1
          stack := stack
          proc := proc
          privateStorage := 0
          activated := false } := by
  unfold Kernel.created
  rw [Kernel.listThread_sched, Kernel.kThrMsgInit_sched, Kernel.joinProcess_sched,
    Kernel.startThread_sched, Kernel.initThread_sched]
  simp only [Sched.setThread, Sched.kthreadMoveToReady_threads, Function.update_self,
    Function.update_idem]
  rfl

/-- The stores of `kthread_create` change no other thread. -/
theorem Kernel.created_spec (prio : Int) :
    Created kernel (kernel.numbered.created stack thread prio proc) thread stack
      (Kernel.clampPrio prio) proc := by
  have new : (kernel.numbered.created stack thread prio proc).thread thread =
      { Kernel.newThread kernel.numbered.lastId prio (kernel.thread thread) with
        state := .ready
        queue := some (.ready (Kernel.clampPrio prio))
        refCnt := 1
        stack := stack
        proc := proc
        privateStorage := 0
        activated := false } := by
    unfold Kernel.thread
    rw [Kernel.created_threads, Function.update_self]
    rfl
  constructor
  case others =>
    intro other different
    unfold Kernel.thread
    rw [Kernel.created_threads, Function.update_of_ne different]
    rfl
  case state => exact congrArg Thread.state new
  case proc_eq => exact congrArg (fun descriptor => descriptor.proc) new
  case prio_eq => exact congrArg (fun descriptor => descriptor.prio) new
  case refCnt_eq => exact congrArg (fun descriptor => descriptor.refCnt) new
  case id_eq => exact congrArg (fun descriptor => descriptor.id) new
  case stack_eq => exact congrArg (fun descriptor => descriptor.stack) new
  all_goals rfl

theorem Roster.kthreadCreate_eq (roster : Roster kernel idle alive members all)
    (pointer : thread ≠ 0) (stackPointer : stack ≠ 0) (prio : Int) :
    kernel.kthreadCreate stack thread prio true proc =
      if MAX_RESOURCES / WBITS ≤ (kernel.lastId + 1) / WBITS then .error .idOutOfRange
      else .ok (kernel.numbered.created stack thread prio proc) := by
  unfold Kernel.kthreadCreate
  rw [if_neg (by simp [pointer, stackPointer]), roster.kNewUniqueId]
  by_cases full : MAX_RESOURCES / WBITS ≤ (kernel.lastId + 1) / WBITS
  · rw [if_pos full, if_pos full]
    rfl
  · rw [if_neg full, if_neg full]
    rfl

/-- A new thread is entered in the list of all threads. -/
theorem Roster.created (roster : Roster kernel idle alive members all)
    {prio : Nat} (fresh : thread ∉ all) (pointer : 0 < thread ∧ thread < addressCount)
    (below : (kernel.lastId + 1) / WBITS < MAX_RESOURCES / WBITS)
    (created : Created kernel kernel' thread stack prio proc) :
    Roster kernel' idle (insert thread alive) (enqueued members (.ready prio) thread)
      (all ++ [thread]) := by
  have old : ∀ other ∈ all, other ≠ thread := fun other mem same => fresh (same ▸ mem)
  have waiting : ∀ queue : QueueId, queue.state = .wait →
      enqueued members (.ready prio) thread queue = members queue := by
    intro queue waits
    refine Function.update_of_ne ?_ ..
    rintro rfl
    simp [QueueId.state] at waits
  have cases : ∀ other, other ∈ all ++ [thread] → other ∈ all ∨ other = thread := by
    intro other mem
    simpa using mem
  have idOld : ∀ other ∈ all, (kernel'.thread other).id = (kernel.thread other).id :=
    fun other mem => by rw [created.others other (old other mem)]
  have newId : (kernel'.thread thread).id = kernel.lastId + 1 :=
    created.id_eq.trans created.lastId
  have appended := roster.listed.append_single pointer.1.ne' fresh
  rw [← created.allThreads] at appended
  exact
    { listed := appended
      alive_listed := by
        rintro other (isThread | mem)
        · simp [isThread]
        · exact List.mem_append_left _ (roster.alive_listed other mem)
      pointer := by
        intro other mem
        rcases cases other mem with inOld | rfl
        · exact roster.pointer other inOld
        · exact pointer
      counted := by
        intro other mem
        rw [waiting _ rfl]
        rcases cases other mem with inOld | rfl
        · rw [created.others other (old other inOld)]
          exact roster.counted other inOld
        · rw [roster.unlisted other fresh, created.refCnt_eq]
          decide
      unlisted := by
        intro other notMem
        rw [waiting _ rfl]
        exact roster.unlisted other fun mem => notMem (List.mem_append_left _ mem)
      own := by
        intro other
        rw [waiting _ rfl]
        exact roster.own other
      known := by
        intro other mem
        rw [created.lastId, created.idmask]
        rcases cases other mem with inOld | rfl
        · obtain ⟨positive, upper, used⟩ := roster.known other inOld
          rw [idOld other inOld]
          refine ⟨positive, by omega, ?_⟩
          rw [Function.update_of_ne (by omega)]
          exact used
        · rw [newId, Function.update_self]
          exact ⟨by omega, le_rfl, rfl⟩
      distinct := by
        intro first memFirst second memSecond sameId
        rcases cases first memFirst with inOld | rfl <;>
          rcases cases second memSecond with inOld' | rfl
        · rw [idOld first inOld, idOld second inOld'] at sameId
          exact roster.distinct first inOld second inOld' sameId
        · rw [idOld first inOld, newId] at sameId
          have upper := (roster.known first inOld).2.1
          omega
        · rw [idOld second inOld', newId] at sameId
          have upper := (roster.known second inOld').2.1
          omega
        · rfl
      fresh := by
        intro id greater
        rw [created.lastId] at greater
        rw [created.idmask, Function.update_of_ne (by omega)]
        exact roster.fresh id (by omega)
      last_lt := created.lastId ▸ below
      idle_mem := .inr roster.idle_mem }

theorem Roster.finite (roster : Roster kernel idle alive members all) : alive.Finite :=
  all.finite_toSet.subset roster.alive_listed

/-- One thread more in the process of the new thread. -/
theorem Created.ncard_threadsOf {prio : Nat}
    (created : Created kernel kernel' thread stack prio proc) (finite : alive.Finite)
    (dead : thread ∉ alive) (other : Ptr) :
    ((kernel'.threadsOf (insert thread alive) other).ncard : Int) =
      (kernel.threadsOf alive other).ncard + if other = proc then 1 else 0 := by
  have old : ∀ mate ∈ alive, (kernel'.thread mate).proc = (kernel.thread mate).proc :=
    fun mate mem => by rw [created.others mate fun same => dead (same ▸ mem)]
  by_cases same : other = proc
  · have shape : kernel'.threadsOf (insert thread alive) other =
        insert thread (kernel.threadsOf alive other) := by
      ext mate
      constructor
      · rintro ⟨isThread | mem, isProc⟩
        · exact .inl isThread
        · exact .inr ⟨mem, old mate mem ▸ isProc⟩
      · rintro (isThread | ⟨mem, isProc⟩)
        · exact ⟨.inl isThread, by rw [isThread, created.proc_eq, same]⟩
        · exact ⟨.inr mem, (old mate mem).trans isProc⟩
    rw [shape, Set.ncard_insert_of_notMem (fun mem => dead mem.1)
      (finite.subset fun _ mem => mem.1), if_pos same]
    rfl
  · have shape : kernel'.threadsOf (insert thread alive) other =
        kernel.threadsOf alive other := by
      ext mate
      constructor
      · rintro ⟨isThread | mem, isProc⟩
        · rw [isThread, created.proc_eq] at isProc
          exact absurd isProc.symm same
        · exact ⟨mem, old mate mem ▸ isProc⟩
      · rintro ⟨mem, isProc⟩
        exact ⟨.inr mem, (old mate mem).trans isProc⟩
    rw [shape, if_neg same, add_zero]

/-- A new thread of a process that is known. -/
theorem Accounted.created {home : Ptr} {procs : List Ptr} {prio : Nat}
    (accounted : Accounted kernel home alive procs) (finite : alive.Finite)
    (dead : thread ∉ alive) (known : proc = home ∨ proc ∈ procs)
    (created : Created kernel kernel' thread stack prio proc) :
    Accounted kernel' home (insert thread alive) procs := by
  have old : ∀ mate ∈ alive, (kernel'.thread mate).proc = (kernel.thread mate).proc :=
    fun mate mem => by rw [created.others mate fun same => dead (same ▸ mem)]
  have samePi : ∀ other, (kernel'.processes other).pi = (kernel.processes other).pi := by
    intro other
    rw [created.processes]
    by_cases same : other = proc
    · subst same
      rw [Function.update_self]
    · rw [Function.update_of_ne same]
  exact
    { linked := created.procs ▸ accounted.linked
      count := by
        intro other isKnown
        rw [created.ncard_threadsOf finite dead, ← accounted.count other isKnown,
          created.processes]
        by_cases same : other = proc
        · subst same
          rw [Function.update_self, if_pos rfl]
        · rw [Function.update_of_ne same, if_neg same, add_zero]
      member := by
        rintro mate (isThread | mem)
        · rw [isThread, created.proc_eq]
          exact known
        · rw [old mate mem]
          exact accounted.member mate mem
      inhabited := by
        intro other mem
        obtain ⟨mate, inAlive, isProc⟩ := accounted.inhabited other mem
        exact ⟨mate, .inr inAlive, (old mate inAlive).trans isProc⟩
      pi_ne := fun other mem => samePi other ▸ accounted.pi_ne other mem
      home_pi := samePi home ▸ accounted.home_pi }

/-- A new thread is entered in what the kernel keeps about its threads, where the
processes are accounted for in the end. -/
theorem Ledger.created_with (ledger : Ledger kernel idle alive members all)
    (fresh : thread ∉ all) (pointer : 0 < thread ∧ thread < addressCount)
    (below : (kernel.lastId + 1) / WBITS < MAX_RESOURCES / WBITS) (prio : Int)
    {lists : Lists Unit} {procs : List Ptr}
    (accounted : Accounted { kernel.numbered.created stack thread prio proc with procs := lists }
      (kernel.thread idle).proc (insert thread alive) procs) :
    Ledger { kernel.numbered.created stack thread prio proc with procs := lists } idle
      (insert thread alive) (enqueued members (.ready (Kernel.clampPrio prio)) thread)
      (all ++ [thread]) := by
  have spec : Created kernel (kernel.numbered.created stack thread prio proc) thread stack
      (Kernel.clampPrio prio) proc := Kernel.created_spec prio
  have roster' := ledger.toRoster.created fresh pointer below spec
  have different : idle ≠ thread := by
    rintro rfl
    exact fresh (ledger.alive_listed idle ledger.idle_mem)
  have idleKept := spec.others idle different
  exact ⟨{ roster' with }, procs, idleKept ▸ accounted⟩

/-- A new thread of a process that has threads. -/
theorem Ledger.created (ledger : Ledger kernel idle alive members all)
    (fresh : thread ∉ all) (pointer : 0 < thread ∧ thread < addressCount)
    (below : (kernel.lastId + 1) / WBITS < MAX_RESOURCES / WBITS) (prio : Int)
    (known : ∃ mate ∈ alive, (kernel.thread mate).proc = proc) :
    Ledger (kernel.numbered.created stack thread prio proc) idle (insert thread alive)
      (enqueued members (.ready (Kernel.clampPrio prio)) thread) (all ++ [thread]) := by
  have dead : thread ∉ alive := fun mem => fresh (ledger.alive_listed thread mem)
  obtain ⟨procs, accounted⟩ := ledger.accounted
  have isKnown : proc = (kernel.thread idle).proc ∨ proc ∈ procs := by
    obtain ⟨mate, mem, isProc⟩ := known
    exact isProc ▸ accounted.member mate mem
  exact ledger.created_with fresh pointer below prio
    (accounted.created ledger.toRoster.finite dead isKnown (Kernel.created_spec prio))

theorem Roster.empty_queues (roster : Roster kernel idle alive members all)
    (sound : Sound kernel.sched alive members) (fresh : thread ∉ all) :
    members (.join thread) = [] ∧ members (.thrq (.thread thread)) = [] := by
  refine ⟨roster.unlisted thread fresh, ?_⟩
  rw [List.eq_nil_iff_forall_not_mem]
  intro mate mem
  have isThread := roster.own thread mate mem
  exact fresh (roster.alive_listed thread (isThread ▸ sound.mem_alive _ mate mem))

/-- A process that has no threads can be stored at any address but those of the
processes that have. -/
theorem Ledger.newProcess (ledger : Ledger kernel idle alive members all)
    (unused : ∀ mate ∈ alive, (kernel.thread mate).proc ≠ proc) (process : Process) :
    Ledger { kernel with processes := Function.update kernel.processes proc process } idle
      alive members all := by
  obtain ⟨procs, accounted⟩ := ledger.accounted
  have notMem : ∀ other, other = (kernel.thread idle).proc ∨ other ∈ procs → other ≠ proc := by
    rintro other (isHome | mem) rfl
    · exact unused idle ledger.idle_mem isHome.symm
    · obtain ⟨mate, inAlive, isProc⟩ := accounted.inhabited other mem
      exact unused mate inAlive isProc
  have accounted' : Accounted
      { kernel with processes := Function.update kernel.processes proc process }
      (kernel.thread idle).proc alive procs := by
    refine accounted.congr rfl (fun _ _ => rfl) fun other known => ?_
    exact Function.update_of_ne (notMem other known) ..
  have roster : Roster
      { kernel with processes := Function.update kernel.processes proc process } idle alive
      members all := { ledger.toRoster with }
  exact ⟨roster, procs, accounted'⟩

/-- The first thread of a process, that is entered in the list of processes. -/
theorem Accounted.started {home : Ptr} {procs : List Ptr} {prio : Nat}
    (accounted : Accounted kernel home alive procs) (finite : alive.Finite)
    (dead : thread ∉ alive) (nonzero : proc ≠ 0) (notHome : proc ≠ home)
    (unused : ∀ mate ∈ alive, (kernel.thread mate).proc ≠ proc)
    (empty : (kernel.processes proc).thrCount = 0) (pi : (kernel.processes proc).pi ≠ 0)
    (created : Created kernel kernel' thread stack prio proc) :
    Accounted { kernel' with procs := kernel'.procs.listAppend () proc } home
      (insert thread alive) (procs ++ [proc]) := by
  have old : ∀ mate ∈ alive, (kernel'.thread mate).proc = (kernel.thread mate).proc :=
    fun mate mem => by rw [created.others mate fun same => dead (same ▸ mem)]
  have notMem : proc ∉ procs := by
    intro mem
    obtain ⟨mate, inAlive, isProc⟩ := accounted.inhabited proc mem
    exact unused mate inAlive isProc
  have none : kernel.threadsOf alive proc = ∅ := by
    rw [Set.eq_empty_iff_forall_notMem]
    exact fun mate mem => unused mate mem.1 mem.2
  have samePi : ∀ other, (kernel'.processes other).pi = (kernel.processes other).pi := by
    intro other
    rw [created.processes]
    by_cases same : other = proc
    · subst same
      rw [Function.update_self]
    · rw [Function.update_of_ne same]
  have appended := accounted.linked.append_single nonzero notMem
  rw [← created.procs] at appended
  refine ⟨appended, ?_, ?_, ?_, ?_, samePi home ▸ accounted.home_pi⟩
  · intro other known
    have counted := created.ncard_threadsOf finite dead other
    change ((kernel'.processes other).thrCount : Int) =
      (kernel'.threadsOf (insert thread alive) other).ncard
    rw [counted, created.processes]
    by_cases same : other = proc
    · subst same
      rw [Function.update_self, none, empty]
      simp
    · rw [Function.update_of_ne same, if_neg same, add_zero]
      refine accounted.count other (known.imp id fun mem => ?_)
      simpa [same] using mem
  · rintro mate (isThread | mem)
    · refine .inr (List.mem_append_right _ (List.mem_singleton.mpr ?_))
      exact isThread ▸ created.proc_eq
    · refine (accounted.member mate mem).imp (old mate mem).trans fun inProcs => ?_
      exact List.mem_append_left _ ((old mate mem).symm ▸ inProcs)
  · intro other mem
    rcases List.mem_append.mp mem with inProcs | isProc
    · obtain ⟨mate, inAlive, isOther⟩ := accounted.inhabited other inProcs
      exact ⟨mate, .inr inAlive, (old mate inAlive).trans isOther⟩
    · exact ⟨thread, .inl rfl, created.proc_eq.trans (List.mem_singleton.mp isProc).symm⟩
  · intro other mem
    rcases List.mem_append.mp mem with inProcs | isProc
    · exact samePi other ▸ accounted.pi_ne other inProcs
    · rw [List.mem_singleton.mp isProc]
      exact samePi proc ▸ pi

end Create

end Oseer
