import Oseer.Handles
import Oseer.TimedStart

/-!
# Runs with handles of threads

As long as the identifiers only go up, a handle of a thread that has ended is
taken for no other thread.  Each thread that is created and ends takes one
identifier: after `MAX_RESOURCES` of them a new thread has the handle of an old
one.
-/

namespace Oseer

open Results

/-- The identifiers that were given are at most the last one, and no descriptor that was freed
holds an identifier again that was given with it. -/
structure HandleKernel.Numbered (state : HandleKernel) : Prop where
  last : state.kernel.lastId < MAX_RESOURCES
  pointer : ∀ issue ∈ state.issued, issue.handle.thread ≠ 0
  range : ∀ issue ∈ state.issued,
    0 < issue.handle.thrId ∧ issue.handle.thrId ≤ state.kernel.lastId
  ended : ∀ issue ∈ state.issued, issue.lasts = false →
    (state.kernel.thread issue.handle.thread).id ≠ issue.handle.thrId

namespace HandleKernel

variable {state state' first : HandleKernel} {entry : HandleEntry} {code : Int}
  {kernel : Kernel} {kthread stack proc idle kernelProc : Ptr} {prio status : Int}
  {ran : Int × HandleKernel} {handle : Handle}

theorem Numbered.same (numbered : state.Numbered) (same : SameIds state.kernel kernel) :
    Numbered { state with kernel := kernel } where
  last := lt_of_eq_of_lt same.lastId numbered.last
  pointer := numbered.pointer
  range := fun issue mem => by
    change 0 < issue.handle.thrId ∧ issue.handle.thrId ≤ kernel.lastId
    rw [same.lastId]
    exact numbered.range issue mem
  ended := fun issue mem ended => by
    change (kernel.thread issue.handle.thread).id ≠ issue.handle.thrId
    rw [same.id]
    exact numbered.ended issue mem ended

theorem Numbered.exit (numbered : state.Numbered) (errnum : Int) :
    (state.exit errnum).2.Numbered :=
  numbered.same (.setErrno _ _)

theorem Numbered.kthreadsSchedule (numbered : state.Numbered)
    (scheduled : state.kthreadsSchedule = .ok state') : state'.Numbered := by
  obtain ⟨kernel, schedules, rfl⟩ := map_ok scheduled
  exact numbered.same (.kthreadsSchedule schedules)

/-- A new identifier, which no thread holds yet. -/
theorem Numbered.newUniqueId (numbered : state.Numbered) (above : state.kernel.Above)
    (taken : kNewUniqueId state.kernel = .ok kernel) :
    Numbered { state with kernel := kernel } := by
  obtain ⟨greater, inRange, sched⟩ := above.kNewUniqueId taken
  refine ⟨inRange, numbered.pointer, fun issue mem => ?_, fun issue mem ended => ?_⟩
  · obtain ⟨positive, upper⟩ := numbered.range issue mem
    exact ⟨positive, upper.trans greater.le⟩
  · have kept : kernel.thread issue.handle.thread = state.kernel.thread issue.handle.thread := by
      unfold Kernel.thread
      rw [sched]
    change (kernel.thread issue.handle.thread).id ≠ issue.handle.thrId
    rw [kept]
    exact numbered.ended issue mem ended

/-- A new thread gets an identifier that was not given before. -/
theorem Numbered.kthreadCreate (numbered : state.Numbered) (above : state.kernel.Above)
    (creates : state.kthreadCreate stack kthread prio proc = .ok state') : state'.Numbered := by
  unfold HandleKernel.kthreadCreate at creates
  split at creates
  · cases creates
  next nonzero =>
  obtain ⟨kernel, taken, rfl⟩ := map_ok creates
  obtain ⟨greater, inRange, sched⟩ := above.kNewUniqueId taken
  have counted := numbered.newUniqueId above taken
  have id : ((kernel.created stack kthread prio proc).thread kthread).id = kernel.lastId := by
    unfold Kernel.thread
    rw [Kernel.created_threads, Function.update_self]
    rfl
  refine ⟨inRange, fun issue mem => ?_, fun issue mem => ?_, fun issue mem ended => ?_⟩
  · rcases List.mem_cons.mp mem with rfl | old
    · exact fun null => nonzero (.inr null)
    · exact numbered.pointer issue old
  · rcases List.mem_cons.mp mem with rfl | old
    · exact ⟨by dsimp only; omega, le_rfl⟩
    · exact counted.range issue old
  · have old : issue ∈ state.issued := by
      rcases List.mem_cons.mp mem with rfl | old
      · cases ended
      · exact old
    by_cases same : issue.handle.thread = kthread
    · -- the identifier of the new thread is greater than those before
      have upper := (numbered.range issue old).2
      dsimp only
      rw [same, id]
      omega
    · have kept : (kernel.created stack kthread prio proc).thread issue.handle.thread =
          kernel.thread issue.handle.thread := by
        unfold Kernel.thread
        rw [Kernel.created_threads, Function.update_of_ne same]
      dsimp only
      rw [kept]
      exact counted.ended issue old ended

theorem kFreeUniqueId_ok {id : Nat} (freed : kFreeUniqueId id state.kernel = .ok kernel) :
    kernel = { state.kernel with
      idmask := Function.update state.kernel.idmask id false } := by
  unfold kFreeUniqueId at freed
  split at freed
  · exact (Except.ok.inj freed).symm
  · cases freed

/-- A descriptor that is freed has no identifier. -/
theorem Numbered.kthreadRemoveDescriptor (numbered : state.Numbered)
    (removes : state.kthreadRemoveDescriptor kthread = .ok state') : state'.Numbered := by
  obtain ⟨kernel, freed, rfl⟩ := map_ok removes
  obtain rfl := kFreeUniqueId_ok freed
  have same : ∀ issue, (endHandle kthread issue).handle = issue.handle := by
    intro issue
    unfold endHandle
    split <;> rfl
  refine ⟨numbered.last, fun issue mem => ?_, fun issue mem => ?_, fun issue mem ended => ?_⟩
  · obtain ⟨old, memOld, rfl⟩ := List.mem_map.mp mem
    rw [same]
    exact numbered.pointer old memOld
  · obtain ⟨old, memOld, rfl⟩ := List.mem_map.mp mem
    rw [same]
    exact numbered.range old memOld
  · obtain ⟨old, memOld, rfl⟩ := List.mem_map.mp mem
    have positive := (numbered.range old memOld).1
    unfold endHandle at ended ⊢
    split
    case isTrue same =>
      have cleared : ((state.kernel.setThread kthread fun descriptor =>
          { descriptor with id := 0 }).thread kthread).id = 0 :=
        congrArg (fun descriptor => descriptor.id) Kernel.setThread_same
      change ((state.kernel.setThread kthread fun descriptor =>
        { descriptor with id := 0 }).thread old.handle.thread).id ≠ old.handle.thrId
      rw [same, cleared]
      exact positive.ne
    case isFalse different =>
      rw [if_neg different] at ended
      have kept : (state.kernel.setThread kthread fun descriptor =>
          { descriptor with id := 0 }).thread old.handle.thread =
            state.kernel.thread old.handle.thread := Kernel.setThread_other different
      change ((state.kernel.setThread kthread fun descriptor =>
        { descriptor with id := 0 }).thread old.handle.thread).id ≠ old.handle.thrId
      rw [kept]
      exact numbered.ended old memOld ended

theorem Numbered.releaseDescriptor (numbered : state.Numbered)
    (releases : state.releaseDescriptor kthread = .ok state') : state'.Numbered := by
  unfold HandleKernel.releaseDescriptor at releases
  split at releases
  · exact numbered.kthreadRemoveDescriptor releases
  · obtain rfl := Except.ok.inj releases
    exact numbered.same (.kthreadqReleaseAll _ _)

theorem Numbered.finishCancel (numbered : state.Numbered)
    (finishes : state.finishCancel kthread status = .ok ran) : ran.2.Numbered := by
  obtain ⟨kernel, released, rest⟩ := bind_ok finishes
  obtain ⟨middle, descriptor, rest⟩ := bind_ok rest
  obtain ⟨scheduled, schedules, rest⟩ := bind_ok rest
  obtain rfl := Except.ok.inj rest
  have ended := numbered.same ((SameIds.endThread _ kthread status).trans
    (.releaseResources released))
  exact (ended.releaseDescriptor descriptor).kthreadsSchedule schedules

theorem Numbered.kthreadCancel (numbered : state.Numbered)
    (cancels : state.kthreadCancel kthread status = .ok ran) : ran.2.Numbered := by
  unfold HandleKernel.kthreadCancel at cancels
  split at cancels
  · obtain rfl := Except.ok.inj cancels
    exact numbered
  · obtain ⟨kernel, left, finishes⟩ := bind_ok cancels
    have marked : SameIds kernel { kernel with
        sched := kernel.sched.markIfEmpty (kernel.thread kthread).prio } :=
      (Sched.SameIds.markIfEmpty _ _).toKernel
    exact (numbered.same ((SameIds.leaveQueue left).trans marked)).finishCancel finishes
  · obtain ⟨kernel, left, finishes⟩ := bind_ok cancels
    exact (numbered.same (.leaveQueue left)).finishCancel finishes
  · split at cancels
    · obtain rfl := Except.ok.inj cancels
      exact numbered
    · have stopped : SameIds state.kernel (state.kernel.setThread kthread fun descriptor =>
          { descriptor with state := .passive }) := .setThread rfl
      exact (numbered.same stopped).finishCancel cancels

theorem Numbered.sysWaitForThread (numbered : state.Numbered) {thread : Option Handle}
    {wait : Bool} (waits : state.sysWaitForThread thread wait = .ok ran) : ran.2.Numbered := by
  unfold HandleKernel.sysWaitForThread at waits
  dsimp only at waits
  split at waits
  · obtain rfl := Except.ok.inj waits
    exact numbered.exit _
  next handle =>
    split at waits
    · obtain rfl := Except.ok.inj waits
      exact numbered.exit _
    split at waits
    · obtain rfl := Except.ok.inj waits
      exact numbered.exit _
    split at waits
    · split at waits
      · obtain ⟨scheduled, schedules, rfl⟩ := map_ok waits
        have counted : SameIds state.kernel (state.kernel.setThread handle.thread
          fun descriptor => { descriptor with refCnt := descriptor.refCnt + 1 }) := .setThread rfl
        exact (numbered.same (counted.trans ((SameIds.setErrno _ _).trans
          (.kthreadEnqueue _ _)))).kthreadsSchedule schedules
      · obtain rfl := Except.ok.inj waits
        exact numbered.exit _
    · have collected : Numbered (state.onKernel fun kernel =>
          (kernel.setErrno SUCCESS).setThread handle.thread fun descriptor =>
            { descriptor with refCnt := descriptor.refCnt - 1 }) :=
        numbered.same ((SameIds.setErrno _ _).trans (.setThread rfl))
      split at waits
      · obtain ⟨removed, removes, rfl⟩ := map_ok waits
        exact collected.kthreadRemoveDescriptor removes
      · obtain rfl := Except.ok.inj waits
        exact collected

theorem Numbered.sysCancelThread (numbered : state.Numbered) {thread : Option Handle}
    (cancels : state.sysCancelThread thread = .ok ran) : ran.2.Numbered := by
  have exits : ∀ errnum, state.exit errnum = ran → ran.2.Numbered := by
    rintro errnum rfl
    exact numbered.exit errnum
  have twice : ∀ kthread, ((state.kthreadCancel kthread (-1)).bind fun cancelled =>
      ((cancelled.2.exit cancelled.1).2.kthreadCancel kthread (-1)).bind fun again =>
        .ok (-again.1, again.2)) = .ok ran → ran.2.Numbered := by
    intro kthread done
    obtain ⟨cancelled, first, rest⟩ := bind_ok done
    obtain ⟨again, second, rest⟩ := bind_ok rest
    obtain rfl := Except.ok.inj rest
    have last : again.2.Numbered := ((numbered.kthreadCancel first).exit _).kthreadCancel second
    exact last
  unfold HandleKernel.sysCancelThread at cancels
  split at cancels
  · exact exits _ (Except.ok.inj cancels)
  split at cancels
  · exact exits _ (Except.ok.inj cancels)
  split at cancels
  · exact exits _ (Except.ok.inj cancels)
  split at cancels
  · exact exits _ (Except.ok.inj cancels)
  · exact exits _ (Except.ok.inj cancels)
  · exact twice _ cancels
  · exact twice _ cancels

theorem Numbered.sysMsgPost (numbered : state.Numbered) {dest : Option Handle}
    {msg : Option Msg} {kmsg : Ptr} (posts : state.sysMsgPost dest msg kmsg = .ok ran) :
    ran.2.Numbered := by
  unfold HandleKernel.sysMsgPost at posts
  split at posts
  · split at posts
    · obtain rfl := Except.ok.inj posts
      exact numbered.exit _
    · obtain ⟨posted, postsTo, rfl⟩ := map_ok posts
      exact numbered.same (.postTo postsTo)
  · obtain rfl := Except.ok.inj posts
    exact numbered.exit _

theorem Numbered.sysSetThreadSchedParams (numbered : state.Numbered) {thread : Option Handle}
    {schedPolicy prio : Int}
    (sets : state.sysSetThreadSchedParams thread schedPolicy prio = .ok ran) :
    ran.2.Numbered := by
  unfold HandleKernel.sysSetThreadSchedParams at sets
  dsimp only at sets
  split at sets
  · obtain rfl := Except.ok.inj sets
    exact numbered.exit _
  split at sets
  · obtain rfl := Except.ok.inj sets
    exact numbered.exit _
  split at sets
  · obtain rfl := Except.ok.inj sets
    exact numbered.exit _
  split at sets
  · obtain rfl := Except.ok.inj sets
    exact numbered.exit _
  · obtain ⟨set, setsPrio, rfl⟩ := map_ok sets
    exact numbered.same (Sched.SameIds.kthreadSetPrio setsPrio).toKernel

theorem Numbered.enter (numbered : state.Numbered) (apart : entry.Apart state)
    (above : entry.Above state) (enters : state.enter entry = .ok (code, state')) :
    state'.Numbered := by
  cases entry with
  | createThread prio stack kthread =>
      obtain ⟨created, creates, rest⟩ := bind_ok enters
      obtain ⟨scheduled, schedules, rest⟩ := bind_ok rest
      obtain ⟨-, rfl⟩ := Prod.mk.inj (Except.ok.inj rest)
      exact ((numbered.kthreadCreate above creates).exit SUCCESS).kthreadsSchedule schedules
  | threadExit status =>
      obtain ⟨cancelled, cancels, rest⟩ := bind_ok enters
      obtain ⟨scheduled, schedules, rest⟩ := bind_ok rest
      obtain ⟨-, rfl⟩ := Prod.mk.inj (Except.ok.inj rest)
      exact (numbered.kthreadCancel cancels).kthreadsSchedule schedules
  | waitForThread thread wait => exact numbered.sysWaitForThread enters
  | cancelThread thread => exact numbered.sysCancelThread enters
  | msgPost dest msg kmsg => exact numbered.sysMsgPost enters
  | setThreadSchedParams thread schedPolicy prio =>
      exact numbered.sysSetThreadSchedParams enters
  | kthreadCreate stack kthread prio proc =>
      obtain ⟨created, creates, result⟩ := map_ok enters
      obtain ⟨-, rfl⟩ := Prod.mk.inj result
      exact numbered.kthreadCreate above creates
  | newUniqueId =>
      obtain ⟨kernel, taken, result⟩ := map_ok enters
      obtain ⟨-, rfl⟩ := Prod.mk.inj result
      exact numbered.newUniqueId above taken
  | freeUniqueId id =>
      obtain ⟨kernel, freed, result⟩ := map_ok enters
      obtain ⟨-, rfl⟩ := Prod.mk.inj result
      obtain rfl := kFreeUniqueId_ok freed
      exact numbered.same (.of_eq rfl rfl)
  | other kernel =>
      obtain ⟨-, rfl⟩ := Prod.mk.inj (Except.ok.inj enters)
      exact numbered.same apart

/-- A handle whose identifier is not that of the descriptor is not taken for a thread. -/
theorem ignores_of_ne (pointer : handle.thread ≠ 0)
    (differs : (state.kernel.thread handle.thread).id ≠ handle.thrId) :
    state.Ignores handle := by
  have unknown : state.kernel.kthreadGetDescriptor handle = none := by
    unfold Kernel.kthreadGetDescriptor
    exact if_neg fun known => differs known.2.1.symm
  have other : ¬ Denotes handle state.kernel := differs
  refine ⟨fun wait => ?_, ?_, fun msg kmsg => ?_, unknown, fun schedPolicy prio => ?_⟩
  · unfold HandleKernel.sysWaitForThread
    dsimp only
    rw [if_neg pointer, if_pos other]
  · unfold HandleKernel.sysCancelThread
    dsimp only
    rw [if_neg pointer, if_pos other]
  · unfold HandleKernel.sysMsgPost
    dsimp only
    rw [unknown]
  · unfold HandleKernel.sysSetThreadSchedParams
    dsimp only
    rw [if_pos (.inr differs.symm)]

theorem start_numbered (started : start stack idle kernelProc = .ok first) : first.Numbered := by
  obtain ⟨created, creates, schedules⟩ := bind_ok started
  have boot : Numbered ⟨Kernel.boot.initLists kernelProc, []⟩ :=
    ⟨show 0 < MAX_RESOURCES by decide, fun _ mem => absurd mem List.not_mem_nil, fun _ mem => absurd mem List.not_mem_nil,
      fun _ mem => absurd mem List.not_mem_nil⟩
  have above : (Kernel.boot.initLists kernelProc).Above := ⟨1, Nat.zero_lt_one, by decide, rfl⟩
  exact (boot.kthreadCreate above creates).kthreadsSchedule schedules

/-- In every run in which the identifiers do not begin again, a handle of a thread whose
descriptor was freed is not taken for a thread by any system call, whatever thread has its
descriptor. -/
theorem handles_ignored (started : start stack idle kernelProc = .ok first)
    (run : Relation.ReflTransGen (HandleStep fun state entry => entry.Above state) first state) :
    ∀ issue ∈ state.issued, issue.lasts = false → state.Ignores issue.handle := by
  have numbered : state.Numbered := by
    induction run with
    | refl => exact start_numbered started
    | tail _ step ih =>
        obtain ⟨entry, code, apart, above, enters⟩ := step
        exact ih.enter apart above enters
  intro issue mem ended
  exact ignores_of_ne (numbered.pointer issue mem) (numbered.ended issue mem ended)

/-- A thread is created, ends, and another one gets its descriptor: its handle is ignored. -/
theorem handles_ignored_sample :
    ∃ first state, start 50 200 100 = .ok first ∧
      Relation.ReflTransGen (HandleStep fun state entry => entry.Above state) first state ∧
      ⟨⟨300, 2⟩, false⟩ ∈ state.issued ∧ ⟨⟨300, 3⟩, true⟩ ∈ state.issued ∧
      state.Ignores ⟨300, 2⟩ := by
  have evaluated : (do
      let first ← start 50 200 100
      let second ← first.enter (.createThread 5 60 300)
      let third ← second.2.enter (.threadExit 0)
      let fourth ← third.2.enter (.createThread 5 60 300)
      return decide (
        (first.kernel.lastId = 1 ∧ first.kernel.idmask 2 = false) ∧
        (third.2.kernel.lastId = 2 ∧ third.2.kernel.idmask 3 = false) ∧
        ⟨⟨300, 2⟩, false⟩ ∈ fourth.2.issued ∧ ⟨⟨300, 3⟩, true⟩ ∈ fourth.2.issued)) =
        (.ok true : Except Fault Bool) := by decide +kernel
  obtain ⟨first, started, evaluated⟩ := bind_ok evaluated
  obtain ⟨⟨code2, second⟩, creates, evaluated⟩ := bind_ok evaluated
  obtain ⟨⟨code3, third⟩, exits, evaluated⟩ := bind_ok evaluated
  obtain ⟨⟨code4, fourth⟩, again, evaluated⟩ := bind_ok evaluated
  obtain ⟨⟨last, unused⟩, ⟨last', unused'⟩, ended, issued⟩ :=
    of_decide_eq_true (Except.ok.inj evaluated)
  have above : first.kernel.Above := ⟨2, by rw [last]; decide, by decide, unused⟩
  have above' : third.kernel.Above :=
    ⟨3, lt_of_eq_of_lt last' (by decide), by decide, unused'⟩
  have one : HandleStep (fun state entry => entry.Above state) first second :=
    ⟨.createThread 5 60 300, code2, trivial, above, creates⟩
  have two : HandleStep (fun state entry => entry.Above state) second third :=
    ⟨.threadExit 0, code3, trivial, trivial, exits⟩
  have three : HandleStep (fun state entry => entry.Above state) third fourth :=
    ⟨.createThread 5 60 300, code4, trivial, above', again⟩
  have run := ((Relation.ReflTransGen.single one).tail two).tail three
  exact ⟨first, fourth, started, run, ended, issued, handles_ignored started run _ ended rfl⟩

end HandleKernel

/-- What a thread keeps when it is scheduled, as far as the identifiers depend on it. -/
def Thread.facts (descriptor : Thread) : Nat × Nat × Ptr × Int :=
  (descriptor.id, descriptor.prio, descriptor.proc, descriptor.refCnt)

/-- The kernel when no thread waits. -/
structure Awake (kernel : Kernel) (alive : Set Ptr) (members : Members) : Prop where
  sound : Sound kernel.sched alive members
  running : Running kernel.sched alive
  runs : ∀ thread ∈ alive, (kernel.thread thread).state ≠ .wait

section Cycle

variable {kernel : Kernel} {alive : Set Ptr} {members : Members} {thread idle : Ptr}

theorem Awake.empty (awake : Awake kernel alive members) {queue : QueueId}
    (waits : queue.state = .wait) : members queue = [] := by
  rw [List.eq_nil_iff_forall_not_mem]
  intro thread mem
  have alive := awake.sound.mem_alive queue thread mem
  exact awake.runs thread alive ((awake.sound.placed queue thread mem).inState.trans waits)

/-- `kthreads_schedule` when no thread waits. -/
theorem Sound.schedule_awake (sound : Sound kernel.sched alive members)
    (current : (kernel.thread kernel.activeThread).state = .active →
      kernel.activeThread ∈ alive)
    (runs : ∀ thread ∈ alive, (kernel.thread thread).state ≠ .wait) (mem : idle ∈ alive) :
    ∃ sched' members', kernel.kthreadsSchedule = .ok { kernel with sched := sched' } ∧
      Awake { kernel with sched := sched' } alive members' ∧
      Sound.TopPriority sched' alive ∧
      ∀ thread, (sched'.threads thread).facts = (kernel.thread thread).facts := by
  obtain ⟨sched', members', result, sound', running, top, switches⟩ :=
    sound.kthreadsSchedule current (sound.runnable mem (runs idle mem))
  refine ⟨sched', members', ?_, ⟨sound', running, fun thread inAlive => ?_⟩, top,
    fun thread => ?_⟩
  · unfold Kernel.kthreadsSchedule
    rw [result]
    rfl
  · refine sound.still_runs sound' inAlive (fun queue waits mem => ?_) (runs thread inAlive)
    rwa [switches.waiting queue waits not_false] at mem
  · exact congrArg (fun data : ThreadData => (data.id, data.prio, data.proc, data.refCnt))
      (switches.data thread)

variable {kernel' : Kernel} {kthread stack proc : Ptr} {prio status : Int}

/-- What is known of the kernel after a thread is created with the last identifier. -/
structure Founded (kernel kernel' : Kernel) (kthread : Ptr) (prio : Nat) (proc : Ptr) :
    Prop where
  new : (kernel'.thread kthread).facts = (kernel.lastId, prio, proc, 1)
  others : ∀ other, other ≠ kthread → (kernel'.thread other).facts = (kernel.thread other).facts
  procs : kernel'.procs = kernel.procs
  pi : ∀ proc, (kernel'.processes proc).pi = (kernel.processes proc).pi
  lastId : kernel'.lastId = kernel.lastId
  idmask : kernel'.idmask = kernel.idmask

theorem Kernel.created_thread (kernel : Kernel) :
    (kernel.created stack kthread prio proc).thread kthread =
      { Kernel.newThread kernel.lastId prio (kernel.thread kthread) with
        state := .ready
        queue := some (.ready (Kernel.clampPrio prio))
        refCnt := 1
        stack := stack
        proc := proc
        privateStorage := 0
        activated := false } :=
  (congrFun (Kernel.created_threads prio) kthread).trans (Function.update_self ..)

theorem Kernel.created_other (kernel : Kernel) (different : thread ≠ kthread) :
    (kernel.created stack kthread prio proc).thread thread = kernel.thread thread :=
  (congrFun (Kernel.created_threads prio) thread).trans (Function.update_of_ne different ..)

/-- What the stores of `kthread_create` change. -/
theorem Kernel.created_founded (kernel : Kernel) :
    Founded kernel (kernel.created stack kthread prio proc) kthread (Kernel.clampPrio prio)
      proc where
  new := by
    rw [Kernel.created_thread]
    rfl
  others := fun other different => by rw [Kernel.created_other kernel different]
  procs := rfl
  pi := fun other => by
    have processes : (kernel.created stack kthread prio proc).processes =
        Function.update kernel.processes proc { kernel.processes proc with
          thrCount := (kernel.processes proc).thrCount + 1 } := rfl
    rw [processes]
    by_cases same : other = proc
    · rw [same, Function.update_self]
    · rw [Function.update_of_ne same]
  lastId := rfl
  idmask := rfl

/-- The stores of `kthread_create` when no thread waits. -/
theorem Awake.created (awake : Awake kernel alive members) (dead : kthread ∉ alive)
    (pointer : 0 < kthread ∧ kthread < addressCount) :
    ∃ members', Sound (kernel.created stack kthread prio proc).sched (insert kthread alive)
        members' ∧
      ∀ thread ∈ insert kthread alive,
        ((kernel.created stack kthread prio proc).thread thread).state ≠ .wait := by
  refine ⟨_, awake.sound.created dead (awake.empty rfl) (awake.empty rfl) pointer prio proc, ?_⟩
  rintro thread (rfl | mem)
  · rw [Kernel.created_thread]
    exact fun waits => by cases waits
  · have different : thread ≠ kthread := by
      rintro rfl
      exact dead mem
    rw [Kernel.created_other kernel different]
    exact awake.runs thread mem

theorem Founded.setErrno {prio : Nat} (founded : Founded kernel kernel' kthread prio proc)
    (errnum : Int) : Founded kernel (kernel'.setErrno errnum) kthread prio proc where
  new := (Kernel.setThread_field Thread.facts rfl).trans founded.new
  others := fun other different =>
    (Kernel.setThread_field Thread.facts rfl).trans (founded.others other different)
  procs := founded.procs
  pi := founded.pi
  lastId := founded.lastId
  idmask := founded.idmask

theorem Founded.sched {prio : Nat} (founded : Founded kernel kernel' kthread prio proc)
    {sched : Sched} (facts : ∀ thread, (sched.threads thread).facts = (kernel'.thread thread).facts) :
    Founded kernel { kernel' with sched := sched } kthread prio proc where
  new := (facts kthread).trans founded.new
  others := fun other different => (facts other).trans (founded.others other different)
  procs := founded.procs
  pi := founded.pi
  lastId := founded.lastId
  idmask := founded.idmask

/-- A thread with a greater priority than all others is active after `kthreads_schedule`. -/
theorem Awake.active_top (awake : Awake kernel (insert kthread alive) members)
    (top : Sound.TopPriority kernel.sched (insert kthread alive))
    (greater : ∀ thread ∈ alive, (kernel.thread thread).prio < (kernel.thread kthread).prio) :
    kernel.activeThread = kthread := by
  rcases awake.running.mem_alive with isActive | mem
  · exact isActive
  · have notAbove := greater _ mem
    rcases awake.sound.located kthread (.inl rfl) with ⟨-, isActive⟩ | ⟨queue, inQueue⟩
    · exact isActive.symm
    · have placed := awake.sound.placed queue kthread inQueue
      have ready : (kernel.thread kthread).state = .ready := by
        cases queue with
        | ready level => exact placed.inState
        | _ => exact absurd placed.inState (awake.runs kthread (.inl rfl))
      have below := top kthread (.inl rfl) ready
      exact absurd notAbove (not_lt.mpr below)

theorem Kernel.setThread_sched {change : Thread → Thread} :
    (kernel.setThread thread change).sched = kernel.sched.setThread thread change := rfl

/-- The active thread ends, in a kernel whose processes are not removed: all that it holds is
released. -/
theorem Awake.releaseResources (awake : Awake kernel alive members)
    (isActive : kernel.activeThread = kthread) (procs : kernel.procs.Linked fun _ => [])
    (pi : ∀ proc, (kernel.processes proc).pi = 0) :
    ∃ released, ((kernel.setThread kthread fun descriptor => { descriptor with
          state := .passive }).endThread kthread status).releaseResources kthread =
        .ok released ∧
      Sound released.sched (alive \ {kthread}) members ∧
      released.thread kthread = { kernel.thread kthread with
        state := .passive
        refCnt := (kernel.thread kthread).refCnt - 1
        exitStatus := status } ∧
      (∀ other, other ≠ kthread → released.thread other = kernel.thread other) ∧
      released.activeThread = kthread ∧
      (released.procs.Linked fun _ => []) ∧
      (∀ proc, (released.processes proc).pi = 0) ∧
      released.lastId = kernel.lastId ∧ released.idmask = kernel.idmask := by
  have active : (kernel.sched.threads kthread).state = .active := isActive ▸ awake.running.active
  have dead : kthread ∉ alive \ {kthread} := fun mem => mem.2 rfl
  generalize stoppedIs : (kernel.setThread kthread fun descriptor =>
    { descriptor with state := .passive }) = stopped
  have ended : ∀ proc, ((stopped.endThread kthread status).processes proc).pi = 0 := by
    intro proc
    rw [Kernel.endThread_pi, ← stoppedIs]
    exact pi proc
  have linked : (stopped.endThread kthread status).procs.Linked fun _ => [] := by
    rw [← stoppedIs]
    exact procs
  obtain ⟨released, result, core, -, linked'⟩ := Kernel.releaseResources_spec linked
    fun last : (stopped.endThread kthread status).LastThread
      ((stopped.endThread kthread status).thread kthread).proc => absurd (ended _) last.2
  have thread : ∀ other, released.thread other =
      (stopped.endThread kthread status).thread other := by
    intro other
    unfold Kernel.thread
    rw [core.sched]
  refine ⟨released, result, ?_, ?_, ?_, ?_, ?_, ?_, ?_, ?_⟩
  · rw [core.sched, Kernel.endThread_sched]
    apply Sound.setThread_dead _ dead
    rw [← stoppedIs]
    rw [Kernel.setThread_sched]
    exact (awake.sound.drop fun _ => awake.sound.active_free active).setThread_dead dead
  · rw [thread, Kernel.endThread_thread, ← stoppedIs, Kernel.setThread_same]
  · intro other different
    rw [thread, Kernel.endThread_other different, ← stoppedIs, Kernel.setThread_other different]
  · calc released.activeThread = (stopped.endThread kthread status).activeThread :=
          congrArg Sched.activeThread core.sched
      _ = kthread := by
          rw [← stoppedIs]
          exact isActive
  · unfold Kernel.remaining at linked'
    rwa [if_neg fun last => last.2 (ended _)] at linked'
  · intro proc
    rw [core.processes]
    exact ended proc
  · rw [core.lastId, ← stoppedIs]
    rfl
  · rw [core.idmask, ← stoppedIs]
    rfl

namespace HandleKernel

variable {state : HandleKernel} {numbered : Kernel}

/-- `sys__create_thread` succeeds when no thread waits. -/
theorem sysCreateThread_awake (awake : Awake state.kernel alive members)
    (dead : kthread ∉ alive) (pointer : 0 < kthread ∧ kthread < addressCount)
    (stackPointer : stack ≠ 0) (taken : kNewUniqueId state.kernel = .ok numbered) :
    ∃ kernel members', state.sysCreateThread prio stack kthread = .ok (-SUCCESS,
        ⟨kernel, ⟨⟨kthread, numbered.lastId⟩, true⟩ :: state.issued⟩) ∧
      Awake kernel (insert kthread alive) members' ∧
      Sound.TopPriority kernel.sched (insert kthread alive) ∧
      Founded numbered kernel kthread (Kernel.clampPrio prio)
        (state.kernel.thread state.kernel.activeThread).proc := by
  obtain ⟨id, -, isNumbered⟩ := map_ok taken
  have awakeNumbered : Awake numbered alive members := by
    rw [← isNumbered]
    exact ⟨awake.sound, awake.running, awake.runs⟩
  generalize procIs : (state.kernel.thread state.kernel.activeThread).proc = proc
  have founded : Founded numbered (numbered.created stack kthread prio proc) kthread
      (Kernel.clampPrio prio) proc := numbered.created_founded
  obtain ⟨members', sound, runs⟩ :=
    @Awake.created numbered alive members kthread stack proc prio awakeNumbered dead pointer
  have mem : (numbered.created stack kthread prio proc).activeThread ∈ insert kthread alive :=
    .inr awakeNumbered.running.mem_alive
  have stored : Sound ((numbered.created stack kthread prio proc).setErrno SUCCESS).sched
      (insert kthread alive) members' := by
    have sched : ((numbered.created stack kthread prio proc).setErrno SUCCESS).sched =
        (numbered.created stack kthread prio proc).sched.setThread
          (numbered.created stack kthread prio proc).activeThread
            fun descriptor => { descriptor with errno := -SUCCESS } := rfl
    rw [sched]
    apply sound.setThread_data <;> rfl
  have runs' : ∀ thread ∈ insert kthread alive,
      (((numbered.created stack kthread prio proc).setErrno SUCCESS).thread thread).state ≠
        .wait := by
    intro thread inAlive
    have same : (((numbered.created stack kthread prio proc).setErrno SUCCESS).thread
        thread).state = ((numbered.created stack kthread prio proc).thread thread).state :=
      Kernel.setThread_field Thread.state rfl
    rw [same]
    exact runs thread inAlive
  obtain ⟨sched, members'', scheduled, awake', top, facts⟩ :=
    stored.schedule_awake (fun _ => mem) runs' mem
  refine ⟨_, members'', ?_, awake', top, (founded.setErrno SUCCESS).sched facts⟩
  have created : state.kthreadCreate stack kthread prio proc = .ok
      ⟨numbered.created stack kthread prio proc,
        ⟨⟨kthread, numbered.lastId⟩, true⟩ :: state.issued⟩ := by
    unfold HandleKernel.kthreadCreate
    rw [if_neg (by simp [stackPointer, pointer.1.ne']), taken]
    rfl
  have schedules : HandleKernel.kthreadsSchedule (onKernel (Kernel.setErrno SUCCESS)
      ⟨numbered.created stack kthread prio proc,
        ⟨⟨kthread, numbered.lastId⟩, true⟩ :: state.issued⟩) = .ok
      ⟨{ (numbered.created stack kthread prio proc).setErrno SUCCESS with sched := sched },
        ⟨⟨kthread, numbered.lastId⟩, true⟩ :: state.issued⟩ := by
    unfold HandleKernel.kthreadsSchedule
    change Except.map _ ((numbered.created stack kthread prio proc).setErrno
      SUCCESS).kthreadsSchedule = _
    rw [scheduled]
    rfl
  unfold HandleKernel.sysCreateThread
  dsimp only
  rw [procIs, created]
  change ((HandleKernel.kthreadsSchedule _).bind _) = _
  rw [schedules]
  rfl

/-- What is known of the kernel after a thread has ended and its descriptor is freed. -/
structure Vacated (kernel kernel' : Kernel) (kthread : Ptr) : Prop where
  others : ∀ other, other ≠ kthread → (kernel'.thread other).facts = (kernel.thread other).facts
  procs : kernel'.procs.Linked fun _ => []
  pi : ∀ proc, (kernel'.processes proc).pi = (kernel.processes proc).pi
  lastId : kernel'.lastId = kernel.lastId
  idmask : kernel'.idmask = Function.update kernel.idmask (kernel.thread kthread).id false

theorem Vacated.sched (vacated : Vacated kernel kernel' kthread) {sched : Sched}
    (facts : ∀ thread, (sched.threads thread).facts = (kernel'.thread thread).facts) :
    Vacated kernel { kernel' with sched := sched } kthread where
  others := fun other different => (facts other).trans (vacated.others other different)
  procs := vacated.procs
  pi := vacated.pi
  lastId := vacated.lastId
  idmask := vacated.idmask

/-- `sys__thread_exit` of a thread that nobody waits for, when no thread waits and no process is
removed: its descriptor is freed. -/
theorem sysThreadExit_awake (awake : Awake state.kernel alive members) (mem : idle ∈ alive)
    (isActive : state.kernel.activeThread = kthread) (notIdle : idle ≠ kthread)
    (refCnt : (state.kernel.thread kthread).refCnt = 1)
    (procs : state.kernel.procs.Linked fun _ => [])
    (pi : ∀ proc, (state.kernel.processes proc).pi = 0)
    (id : 0 < (state.kernel.thread kthread).id ∧
      (state.kernel.thread kthread).id < MAX_RESOURCES)
    (used : state.kernel.idmask (state.kernel.thread kthread).id = true) :
    ∃ kernel members', state.sysThreadExit status =
        .ok (0, ⟨kernel, state.issued.map (endHandle kthread)⟩) ∧
      Awake kernel (alive \ {kthread}) members' ∧
      Vacated state.kernel kernel kthread := by
  obtain ⟨released, releases, sound, thread, others, active, procs', pi', lastId, idmask⟩ :=
    @Awake.releaseResources state.kernel alive members kthread status awake isActive procs pi
  -- the descriptor is freed
  have ends : (released.thread kthread).refCnt = 0 := by
    rw [thread, refCnt]
    rfl
  have sameId : (released.thread kthread).id = (state.kernel.thread kthread).id := by
    rw [thread]
  generalize lastIs : ({ released with
    idmask := Function.update released.idmask (state.kernel.thread kthread).id false
    sched := (released.setThread kthread fun descriptor => { descriptor with id := 0 }).sched
    allThreads := (released.allThreads.listRemove () 0 kthread).2
    kfreed := kthread :: released.kfreed } : Kernel) = last
  have removes : releaseDescriptor kthread { state with kernel := released } =
      .ok ⟨last, state.issued.map (endHandle kthread)⟩ := by
    unfold releaseDescriptor kthreadRemoveDescriptor kFreeUniqueId
    dsimp only
    rw [if_pos ends, sameId, idmask, if_pos ⟨id.1, id.2, used⟩, ← idmask, ← lastIs]
    rfl
  have lastThread : last.thread kthread = { state.kernel.thread kthread with
      state := .passive
      refCnt := (state.kernel.thread kthread).refCnt - 1
      exitStatus := status
      id := 0 } := by
    rw [← lastIs]
    calc (released.setThread kthread fun descriptor =>
          { descriptor with id := 0 }).thread kthread
        = { released.thread kthread with id := 0 } := Kernel.setThread_same
      _ = _ := by rw [thread]
  have lastOther : ∀ other, other ≠ kthread → last.thread other = state.kernel.thread other := by
    intro other different
    rw [← lastIs]
    calc (released.setThread kthread fun descriptor =>
          { descriptor with id := 0 }).thread other
        = released.thread other := Kernel.setThread_other different
      _ = _ := others other different
  have vacated : Vacated state.kernel last kthread := by
    refine ⟨fun other different => congrArg Thread.facts (lastOther other different), ?_, ?_, ?_,
      ?_⟩
    · rw [← lastIs]
      exact procs'
    · intro proc
      rw [← lastIs]
      exact (pi' proc).trans (pi proc).symm
    · rw [← lastIs]
      exact lastId
    · rw [← lastIs, ← idmask]
  have lastSound : Sound last.sched (alive \ {kthread}) members := by
    rw [← lastIs]
    dsimp only
    rw [Kernel.setThread_sched]
    exact sound.setThread_dead fun mem => mem.2 rfl
  have lastActive : last.activeThread = kthread := by
    rw [← lastIs]
    exact active
  -- the scheduler is called twice
  have runs : ∀ thread ∈ alive \ {kthread}, (last.thread thread).state ≠ .wait := by
    intro thread mem
    rw [lastOther thread mem.2]
    exact awake.runs thread mem.1
  have current : (last.thread last.activeThread).state = .active →
      last.activeThread ∈ alive \ {kthread} := by
    intro isActive
    rw [lastActive, lastThread] at isActive
    cases isActive
  obtain ⟨sched, members', schedules, awake', -, facts⟩ :=
    lastSound.schedule_awake current runs ⟨mem, notIdle⟩
  obtain ⟨sched', members'', schedules', awake'', -, facts'⟩ :=
    awake'.sound.schedule_awake (fun _ => awake'.running.mem_alive) awake'.runs ⟨mem, notIdle⟩
  refine ⟨_, members'', ?_, awake'', (vacated.sched facts).sched facts'⟩
  have finishes : finishCancel kthread status (state.onKernel fun kernel =>
      kernel.setThread kthread fun descriptor => { descriptor with state := .passive }) =
      .ok (SUCCESS, ⟨{ last with sched := sched }, state.issued.map (endHandle kthread)⟩) := by
    unfold finishCancel
    change Except.bind (((state.kernel.setThread kthread fun descriptor => { descriptor with
      state := .passive }).endThread kthread status).releaseResources kthread) _ = _
    rw [releases]
    change Except.bind (releaseDescriptor kthread { state with kernel := released }) _ = _
    rw [removes]
    change Except.bind (Except.map _ last.kthreadsSchedule) _ = _
    rw [schedules]
    rfl
  have stateActive : (state.kernel.thread kthread).state = .active :=
    isActive ▸ awake.running.active
  unfold HandleKernel.sysThreadExit HandleKernel.kthreadCancel
  rw [isActive, stateActive]
  dsimp only
  rw [if_neg (by rw [not_not]), finishes]
  change Except.bind (Except.map _ (Kernel.kthreadsSchedule _)) _ = _
  rw [schedules']
  rfl

/-- The next identifier is taken if it is not used. -/
theorem kNewUniqueId_next {next : Nat} (isNext : (kernel.lastId + 1) % MAX_RESOURCES = next)
    (further : next ≠ kernel.lastId) (unused : kernel.idmask next = false) :
    kNewUniqueId kernel = .ok { kernel with
      lastId := next
      idmask := Function.update kernel.idmask next true } := by
  have found : newIdLoop kernel.idmask kernel.lastId (999 + 1) kernel.lastId = .ok next := by
    unfold newIdLoop
    rw [isNext]
    dsimp only
    rw [if_neg further, unused]
    rfl
  unfold kNewUniqueId
  change Except.map _ (newIdLoop kernel.idmask kernel.lastId (999 + 1) kernel.lastId) = _
  rw [found]
  rfl

/-- Only the idle thread is left, which has the first identifier. -/
structure Quiet (idle : Ptr) (last : Nat) (kernel : Kernel) : Prop where
  awake : ∃ members, Awake kernel {idle} members
  prio : (kernel.thread idle).prio = 0
  procs : kernel.procs.Linked fun _ => []
  pi : ∀ proc, (kernel.processes proc).pi = 0
  lastId : kernel.lastId = last
  idmask : kernel.idmask = fun id => decide (id = 1)

/-- The idle thread is created first. -/
theorem start_quiet {idle kernelProc : Ptr} {first : HandleKernel}
    (pointer : 0 < idle ∧ idle < addressCount)
    (started : start stack idle kernelProc = .ok first) :
    Quiet idle 1 first.kernel := by
  obtain ⟨created, creates, schedules⟩ := bind_ok started
  generalize bootIs : Kernel.boot.initLists kernelProc = boot at creates
  have sched : boot.sched = Kernel.boot.sched := bootIs ▸ initLists_sched kernelProc
  have procs : boot.procs.Linked fun _ => [] := bootIs ▸ Lists.Linked.init_single
  have lastId : boot.lastId = 0 := bootIs ▸ rfl
  have idmask : boot.idmask = fun _ => false := bootIs ▸ rfl
  have pi : ∀ proc, (boot.processes proc).pi = 0 := by
    intro proc
    rw [← bootIs]
    change (Function.update Kernel.boot.processes kernelProc ⟨0, 0, 0, 0⟩ proc).pi = 0
    by_cases same : proc = kernelProc
    · rw [same, Function.update_self]
    · rw [Function.update_of_ne same]
      rfl
  unfold HandleKernel.kthreadCreate at creates
  split at creates
  · cases creates
  obtain ⟨numbered, taken, rfl⟩ := map_ok creates
  have next := @kNewUniqueId_next boot 1 (by rw [lastId]; rfl) (by rw [lastId]; decide)
    (by rw [idmask])
  obtain rfl := Except.ok.inj (next.symm.trans taken)
  have sound : Sound boot.sched ∅ fun _ => [] := sched ▸ boot_sound
  generalize numberedIs : ({ boot with
    lastId := 1, idmask := Function.update boot.idmask 1 true } : Kernel) = numbered at schedules
  have isSound : Sound numbered.sched ∅ fun _ => [] := numberedIs ▸ sound
  have founded : Founded numbered (numbered.created stack idle 0 kernelProc) idle 0 kernelProc :=
    numbered.created_founded
  have created : Sound (numbered.created stack idle 0 kernelProc).sched (insert idle ∅)
      (enqueued (fun _ => []) (.ready (Kernel.clampPrio 0)) idle) :=
    isSound.created (Set.notMem_empty _) rfl rfl pointer 0 kernelProc
  rw [insert_empty_eq] at created
  have passive : ((numbered.created stack idle 0 kernelProc).thread
      (numbered.created stack idle 0 kernelProc).activeThread).state ≠ .active := by
    have noThread : (numbered.created stack idle 0 kernelProc).activeThread = 0 := by
      calc numbered.sched.activeThread = boot.sched.activeThread := by rw [← numberedIs]
        _ = 0 := by
          rw [sched]
          rfl
    rw [noThread, Kernel.created_other numbered pointer.1.ne]
    have same : numbered.thread 0 = Kernel.boot.sched.threads 0 := by
      calc numbered.sched.threads 0 = boot.sched.threads 0 := by rw [← numberedIs]
        _ = Kernel.boot.sched.threads 0 := by rw [sched]
    rw [same]
    decide
  have runs : ∀ thread ∈ ({idle} : Set Ptr),
      ((numbered.created stack idle 0 kernelProc).thread thread).state ≠ .wait := by
    rintro thread rfl
    rw [Kernel.created_thread]
    exact fun waits => by cases waits
  obtain ⟨sched', members', scheduled, awake, -, facts⟩ :=
    created.schedule_awake (fun active => absurd active passive) runs rfl
  obtain ⟨kernel, schedules', rfl⟩ := map_ok schedules
  obtain rfl := Except.ok.inj (scheduled.symm.trans schedules')
  have founded' := founded.sched facts
  refine ⟨⟨members', awake⟩, congrArg (fun facts => facts.2.1) founded'.new, ?_, fun proc => ?_,
    ?_, ?_⟩
  · rw [founded'.procs, ← numberedIs]
    exact procs
  · rw [founded'.pi, ← numberedIs]
    exact pi proc
  · rw [founded'.lastId, ← numberedIs]
  · rw [founded'.idmask, ← numberedIs, idmask]
    dsimp only
    funext id
    by_cases isOne : id = 1
    · rw [isOne, Function.update_self]
      rfl
    · rw [Function.update_of_ne isOne, decide_eq_false isOne]

variable {last : Nat}

/-- A thread is created and ends: one identifier is gone. -/
theorem Quiet.cycle (quiet : Quiet idle last state.kernel) (notIdle : kthread ≠ idle)
    (pointer : 0 < kthread ∧ kthread < addressCount) (stackPointer : stack ≠ 0)
    (greater : 0 < Kernel.clampPrio prio) (positive : 0 < last)
    (inRange : last + 1 < MAX_RESOURCES) :
    ∃ middle state', state.enter (.createThread prio stack kthread) = .ok (-SUCCESS, middle) ∧
      middle.enter (.threadExit status) = .ok (0, state') ∧
      Quiet idle (last + 1) state'.kernel ∧
      state'.issued = (⟨⟨kthread, last + 1⟩, true⟩ :: state.issued).map (endHandle kthread) := by
  obtain ⟨members, awake⟩ := quiet.awake
  have taken := @kNewUniqueId_next state.kernel (last + 1)
    (by rw [quiet.lastId]; exact Nat.mod_eq_of_lt inRange)
    (by rw [quiet.lastId]; omega) (by rw [quiet.idmask]; exact decide_eq_false (by omega))
  generalize numberedIs : ({ state.kernel with
    lastId := last + 1, idmask := Function.update state.kernel.idmask (last + 1) true } :
      Kernel) = numbered at taken
  have isActive : state.kernel.activeThread = idle := awake.running.mem_alive
  obtain ⟨middle, members', creates, awake', top, founded⟩ := @sysCreateThread_awake {idle}
    members kthread stack prio state numbered awake notIdle pointer stackPointer taken
  have lastId : numbered.lastId = last + 1 := by rw [← numberedIs]
  have idlePrio : (middle.thread idle).prio = 0 := by
    have facts := congrArg (fun facts => facts.2.1) (founded.others idle notIdle.symm)
    refine (facts : (middle.thread idle).prio = (numbered.thread idle).prio).trans ?_
    rw [← numberedIs]
    exact quiet.prio
  have newPrio : (middle.thread kthread).prio = Kernel.clampPrio prio :=
    congrArg (fun facts => facts.2.1) founded.new
  have active : middle.activeThread = kthread := by
    refine awake'.active_top top ?_
    rintro thread rfl
    rw [idlePrio, newPrio]
    exact greater
  have newId : (middle.thread kthread).id = last + 1 :=
    (congrArg (fun facts => facts.1) founded.new).trans lastId
  have idmask : middle.idmask = Function.update (fun id => decide (id = 1)) (last + 1) true := by
    rw [founded.idmask, ← numberedIs, quiet.idmask]
  have procs : middle.procs.Linked fun _ => [] := by
    rw [founded.procs, ← numberedIs]
    exact quiet.procs
  have pi : ∀ proc, (middle.processes proc).pi = 0 := by
    intro proc
    rw [founded.pi, ← numberedIs]
    exact quiet.pi proc
  obtain ⟨kernel, members'', exits, awake'', vacated⟩ := @sysThreadExit_awake (insert kthread {idle})
    members' idle kthread status ⟨middle, ⟨⟨kthread, numbered.lastId⟩, true⟩ :: state.issued⟩
    awake' (.inr rfl) active notIdle.symm (congrArg (fun facts => facts.2.2.2) founded.new) procs pi
    (by dsimp only; rw [newId]; omega)
    (by dsimp only; rw [newId, idmask, Function.update_self])
  rw [lastId] at creates exits
  refine ⟨_, _, creates, exits, ⟨⟨members'', ?_⟩, ?_, vacated.procs, fun proc => ?_, ?_, ?_⟩, rfl⟩
  · have only : insert kthread {idle} \ {kthread} = ({idle} : Set Ptr) :=
      Set.insert_sdiff_self_of_notMem notIdle
    rwa [only] at awake''
  · have facts := congrArg (fun facts => facts.2.1) (vacated.others idle notIdle.symm)
    exact (facts : (kernel.thread idle).prio = (middle.thread idle).prio).trans idlePrio
  · rw [vacated.pi]
    exact pi proc
  · exact vacated.lastId.trans (founded.lastId.trans lastId)
  · rw [vacated.idmask]
    dsimp only
    rw [newId, idmask, Function.update_idem]
    funext id
    by_cases isNew : id = last + 1
    · rw [isNew, Function.update_self, decide_eq_false (by omega)]
    · rw [Function.update_of_ne isNew]

theorem endHandle_ended {issue : ThreadIssue} (ended : issue.lasts = false) :
    endHandle kthread issue = issue := by
  obtain ⟨handle, lasts⟩ := issue
  obtain rfl : lasts = false := ended
  unfold endHandle
  split <;> rfl

/-- Threads are created and end, one after the other, until some identifiers are gone. -/
theorem Quiet.cycles (quiet : Quiet idle last state.kernel) (notIdle : kthread ≠ idle)
    (pointer : 0 < kthread ∧ kthread < addressCount) (stackPointer : stack ≠ 0)
    (greater : 0 < Kernel.clampPrio prio) (positive : 0 < last) (count : Nat)
    (inRange : last + count < MAX_RESOURCES) :
    ∃ state', Relation.ReflTransGen (HandleStep fun _ _ => True) state state' ∧
      Quiet idle (last + count) state'.kernel ∧
      ∀ issue ∈ state.issued, issue.lasts = false → issue ∈ state'.issued := by
  induction count with
  | zero => exact ⟨state, .refl, quiet, fun _ mem _ => mem⟩
  | succ count ih =>
      obtain ⟨before, run, quiet', kept⟩ := ih (by omega)
      obtain ⟨middle, state', creates, exits, quiet'', issued⟩ :=
        @Quiet.cycle idle kthread stack prio 0 before (last + count) quiet' notIdle pointer
          stackPointer greater (by omega) inRange
      have one : HandleStep (fun _ _ => True) before middle :=
        ⟨.createThread prio stack kthread, _, trivial, trivial, creates⟩
      have two : HandleStep (fun _ _ => True) middle state' :=
        ⟨.threadExit 0, _, trivial, trivial, exits⟩
      refine ⟨state', (run.tail one).tail two, quiet'', fun issue mem ended => ?_⟩
      rw [issued]
      refine List.mem_map.mpr ⟨issue, List.mem_cons_of_mem _ (kept issue mem ended), ?_⟩
      exact endHandle_ended ended

theorem kthreadGetDescriptor_awake {handle : Handle} (awake : Awake kernel alive members)
    (mem : handle.thread ∈ alive) (id : (kernel.thread handle.thread).id = handle.thrId) :
    kernel.kthreadGetDescriptor handle = some handle.thread := by
  refine if_pos ⟨awake.sound.ne_zero mem, id.symm, fun passive => ?_⟩
  rcases awake.sound.located handle.thread mem with ⟨active, -⟩ | ⟨queue, inQueue⟩
  · exact ThreadState.noConfusion (active.symm.trans passive)
  · have placed := (awake.sound.placed queue _ inQueue).inState.symm.trans passive
    cases queue <;> cases placed

/-- A thread ends, its descriptor is freed, and a thousand threads later a new one gets its
descriptor and its identifier: the handle of the first denotes the second. -/
theorem handles_ignored_fail :
    ¬ ∀ stack idle kernelProc first state, start stack idle kernelProc = .ok first →
      Relation.ReflTransGen (HandleStep fun _ _ => True) first state →
        ∀ issue ∈ state.issued, issue.lasts = false → state.Ignores issue.handle := by
  intro claim
  have evaluated : (do
      let _ ← start 50 200 100
      return true) = (.ok true : Except Fault Bool) := by decide +kernel
  obtain ⟨first, started, -⟩ := bind_ok evaluated
  have quiet := start_quiet (by decide) started
  -- the thread with the handle
  obtain ⟨second, third, creates, exits, quiet', issued⟩ :=
    @Quiet.cycle 200 300 60 5 0 first 1 quiet (by decide) (by decide) (by decide) (by decide)
      (by decide) (by decide)
  have one : HandleStep (fun _ _ => True) first second :=
    ⟨.createThread 5 60 300, _, trivial, trivial, creates⟩
  have two : HandleStep (fun _ _ => True) second third :=
    ⟨.threadExit 0, _, trivial, trivial, exits⟩
  have ended : ⟨⟨300, 2⟩, false⟩ ∈ third.issued := by
    rw [issued]
    exact List.mem_cons_self
  -- the identifiers up to the last one
  obtain ⟨fourth, run, quiet'', kept⟩ :=
    @Quiet.cycles 200 300 60 5 third 2 quiet' (by decide) (by decide) (by decide) (by decide)
      (by decide) 997 (by decide)
  obtain ⟨members, awake⟩ := quiet''.awake
  -- the next thread gets the identifier zero
  have taken := @kNewUniqueId_next fourth.kernel 0 (by rw [quiet''.lastId]; rfl)
    (by rw [quiet''.lastId]; decide) (by rw [quiet''.idmask]; rfl)
  obtain ⟨kernel, members', creates', awake', -, founded⟩ := @sysCreateThread_awake {200} members
    400 61 5 fourth _ awake (by decide) (by decide) (by decide) taken
  have lastId : kernel.lastId = 0 := founded.lastId
  have idmask : kernel.idmask = Function.update (fun id => decide (id = 1)) 0 true :=
    founded.idmask.trans (by rw [quiet''.idmask])
  -- and the one after it the identifier two
  have taken' : kNewUniqueId kernel = .ok { kernel with
      lastId := 2, idmask := Function.update kernel.idmask 2 true } := by
    have found : newIdLoop kernel.idmask 0 (998 + 1 + 1) 0 = .ok 2 := by
      rw [idmask]
      rfl
    unfold kNewUniqueId
    change Except.map _ (newIdLoop kernel.idmask kernel.lastId (998 + 1 + 1) kernel.lastId) = _
    rw [lastId, found]
    rfl
  obtain ⟨kernel', members'', creates'', awake'', -, founded'⟩ := @sysCreateThread_awake
    (insert 400 {200}) members' 300 60 5 ⟨kernel, _⟩ _ awake' (by decide) (by decide) (by decide)
      taken'
  have three : HandleStep (fun _ _ => True) fourth ⟨kernel, _⟩ :=
    ⟨.createThread 5 61 400, _, trivial, trivial, creates'⟩
  have four : HandleStep (fun _ _ => True) ⟨kernel, _⟩ ⟨kernel', _⟩ :=
    ⟨.createThread 5 60 300, _, trivial, trivial, creates''⟩
  have all := ((((Relation.ReflTransGen.single one).tail two).trans run).tail three).tail four
  have ignored := (claim 50 200 100 first _ started all ⟨⟨300, 2⟩, false⟩
    (List.mem_cons_of_mem _ (List.mem_cons_of_mem _ (kept _ ended rfl))) rfl).descriptor
  have id : (kernel'.thread 300).id = 2 := congrArg (fun facts => facts.1) founded'.new
  have denotes : kernel'.kthreadGetDescriptor ⟨300, 2⟩ = some 300 :=
    kthreadGetDescriptor_awake awake'' (.inl rfl) id
  exact Option.some_ne_none _ (denotes.symm.trans ignored)

end HandleKernel

end Cycle

end Oseer
