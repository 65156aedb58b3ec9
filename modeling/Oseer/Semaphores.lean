import Mathlib.Logic.Relation
import Mathlib.Data.List.Range
import Oseer.Waiting

/-!
# Semaphores

`kernel/semaphore.c`.  A post gives its unit to the first thread that waits, or counts it in
`sem_value`; a thread that waits may be cancelled before.
-/

namespace Oseer

open LinkedRing Results

namespace Kernel

/-- `sys__sem_init`, with the address that `kmalloc` returns. -/
def sysSemInit (sem ksem : Ptr) (initialValue : Int) (kernel : Kernel) :
    Except Fault (Int × Kernel) :=
  if sem = 0 then .ok (kernel.exit E_INVALID_HANDLE)
  else if ksem = 0 then .error .noMemory
  else .ok (exit SUCCESS { kernel with
    semValue := Function.update kernel.semValue ksem initialValue
    sched := { kernel.sched with queues := kernel.sched.queues.listInit (.sem ksem) } })

/-- `sys__sem_post`, with the member `ptr` of the user's semaphore, if there is one. -/
def sysSemPost (sem : Option Ptr) (kernel : Kernel) : Except Fault (Int × Kernel) :=
  let ksem := sem.getD 0
  if ksem = 0 then .ok (kernel.exit E_INVALID_HANDLE)
  else
    let released := (kernel.setErrno SUCCESS).kthreadqRelease (.sem ksem)
    if released.1 = 0 then
      .ok (-SUCCESS, { released.2 with
        semValue := Function.update released.2.semValue ksem (released.2.semValue ksem + 1) })
    else released.2.kthreadsSchedule.map fun kernel => (-SUCCESS, kernel)

/-- `sys__sem_wait`. -/
def sysSemWait (sem : Option Ptr) (kernel : Kernel) : Except Fault (Int × Kernel) :=
  let ksem := sem.getD 0
  if ksem = 0 then .ok (kernel.exit E_INVALID_HANDLE)
  else
    let kernel := kernel.setErrno SUCCESS
    if 0 < kernel.semValue ksem then
      .ok (-SUCCESS, { kernel with
        semValue := Function.update kernel.semValue ksem (kernel.semValue ksem - 1) })
    else (kernel.kthreadEnqueue (.sem ksem)).kthreadsSchedule.map fun kernel => (-SUCCESS, kernel)

end Kernel

/-- The kernel with a record of each semaphore that was created: the initial value, the numbers
of posts and of waits that passed at once, and the tickets of the waits that blocked.  A wait that
blocks draws the next ticket of its semaphore, and `ticket` is the one that a thread drew last. -/
structure SemRun where
  kernel : Kernel
  live : Set Ptr
  created : Set Ptr
  initial : Ptr → Int
  posts : Ptr → Nat
  passed : Ptr → Nat
  blocked : Ptr → Nat
  granted : Ptr → List Nat
  cancelled : Ptr → List Nat
  ticket : Ptr → Nat

namespace SemRun

/-- The active thread. -/
def self (run : SemRun) : Ptr := run.kernel.activeThread

/-- The ticket of the thread that a post releases, if there is one. -/
def next (ksem : Ptr) (run : SemRun) : List Nat :=
  let first := run.kernel.sched.kthreadqGet (.sem ksem)
  if first = 0 then [] else [run.ticket first]

/-- The ticket of a thread, if it waits for the semaphore. -/
def drawn (ksem thread : Ptr) (run : SemRun) : List Nat :=
  if (run.kernel.thread thread).state = .wait ∧
      (run.kernel.thread thread).queue = some (.sem ksem) then [run.ticket thread] else []

/-- A change of the kernel outside of the semaphores that stay. -/
def Spared (idle : Ptr) (run : SemRun) (kernel : Kernel) (live created : Set Ptr) : Prop :=
  ∀ members all, Coherent run.kernel idle run.live members all →
    ∃ members' all', Coherent kernel idle live members' all' ∧ ∀ ksem ∈ created,
      members' (.sem ksem) = members (.sem ksem) ∧
        kernel.semValue ksem = run.kernel.semValue ksem

end SemRun

/-- A semaphore is created, the active thread waits for one or posts one, a thread is cancelled,
or anything else happens, where semaphores may be destroyed. -/
inductive SemStep (idle : Ptr) : SemRun → SemRun → Prop
  | init {run : SemRun} {kernel : Kernel} (sem ksem : Ptr) (value : Int)
      (unused : ksem ∉ run.created)
      (fresh : ∀ members : Members, run.kernel.sched.queues.Linked members →
        members (.sem ksem) = [])
      (result : run.kernel.sysSemInit sem ksem value = .ok (-SUCCESS, kernel)) :
      SemStep idle run { run with
        kernel := kernel
        created := insert ksem run.created
        initial := Function.update run.initial ksem value
        posts := Function.update run.posts ksem 0
        passed := Function.update run.passed ksem 0
        blocked := Function.update run.blocked ksem 0
        granted := Function.update run.granted ksem []
        cancelled := Function.update run.cancelled ksem [] }
  | pass {run : SemRun} {kernel : Kernel} {code : Int} {ksem : Ptr}
      (known : ksem ∈ run.created) (free : 0 < run.kernel.semValue ksem)
      (result : run.kernel.sysSemWait (some ksem) = .ok (code, kernel)) :
      SemStep idle run { run with
        kernel := kernel
        passed := Function.update run.passed ksem (run.passed ksem + 1) }
  | block {run : SemRun} {kernel : Kernel} {code : Int} {ksem : Ptr}
      (known : ksem ∈ run.created) (taken : ¬ 0 < run.kernel.semValue ksem)
      (notIdle : run.self ≠ idle)
      (result : run.kernel.sysSemWait (some ksem) = .ok (code, kernel)) :
      SemStep idle run { run with
        kernel := kernel
        blocked := Function.update run.blocked ksem (run.blocked ksem + 1)
        ticket := Function.update run.ticket run.self (run.blocked ksem) }
  | post {run : SemRun} {kernel : Kernel} {code : Int} {ksem : Ptr}
      (known : ksem ∈ run.created)
      (result : run.kernel.sysSemPost (some ksem) = .ok (code, kernel)) :
      SemStep idle run { run with
        kernel := kernel
        posts := Function.update run.posts ksem (run.posts ksem + 1)
        granted := Function.update run.granted ksem (run.granted ksem ++ run.next ksem) }
  | cancel {run : SemRun} {ended : Int × Kernel} (kthread : Ptr) (status : Int)
      (mem : kthread ∈ run.live) (notIdle : kthread ≠ idle) (inactive : kthread ≠ run.self)
      (result : run.kernel.kthreadCancel kthread status = .ok ended) :
      SemStep idle run { run with
        kernel := ended.2
        live := run.live \ {kthread}
        cancelled := fun ksem => run.cancelled ksem ++ run.drawn ksem kthread }
  | other {run : SemRun} {kernel : Kernel} {live created : Set Ptr}
      (fewer : created ⊆ run.created) (spared : run.Spared idle kernel live created) :
      SemStep idle run { run with kernel := kernel, live := live, created := created }

/-- What holds of one semaphore at any time: each post is counted or granted once, threads wait
only while the value is zero, and of the tickets that were drawn each is granted, cancelled or
held by a thread that waits, the granted ones in the order in which they were drawn. -/
structure Conserved (value initial : Int) (posts passed blocked : Nat)
    (granted cancelled waiting : List Nat) : Prop where
  nonneg : 0 ≤ value
  free : 0 < value → waiting = []
  balance : initial + posts = value + (passed + granted.length)
  ordered : (granted ++ waiting).Pairwise (· < ·)
  once : (cancelled ++ (granted ++ waiting)).Perm (List.range blocked)

namespace Conserved

variable {value initial : Int} {posts passed blocked ticket : Nat}
  {granted cancelled waiting before after : List Nat}

theorem start (nonneg : 0 ≤ value) : Conserved value value 0 0 0 [] [] [] where
  nonneg := nonneg
  free _ := rfl
  balance := by simp
  ordered := .nil
  once := .refl _

theorem pass (conserved : Conserved value initial posts passed blocked granted cancelled waiting)
    (free : 0 < value) :
    Conserved (value - 1) initial posts (passed + 1) blocked granted cancelled waiting where
  nonneg := by omega
  free _ := conserved.free free
  balance := by
    have balance := conserved.balance
    push_cast
    omega
  ordered := conserved.ordered
  once := conserved.once

theorem block (conserved : Conserved value initial posts passed blocked granted cancelled waiting)
    (taken : ¬ 0 < value) :
    Conserved value initial posts passed (blocked + 1) granted cancelled
      (waiting ++ [blocked]) where
  nonneg := conserved.nonneg
  free free := absurd free taken
  balance := conserved.balance
  ordered := by
    rw [← List.append_assoc, List.pairwise_append]
    refine ⟨conserved.ordered, List.pairwise_singleton .., fun old mem new isNew => ?_⟩
    obtain rfl := List.mem_singleton.mp isNew
    exact List.mem_range.mp (conserved.once.subset (List.mem_append_right _ mem))
  once := by
    rw [List.range_succ, ← List.append_assoc, ← List.append_assoc]
    exact (List.append_assoc cancelled granted waiting ▸ conserved.once).append_right _

theorem count (conserved : Conserved value initial posts passed blocked granted cancelled []) :
    Conserved (value + 1) initial (posts + 1) passed blocked (granted ++ []) cancelled [] where
  nonneg := by
    have nonneg := conserved.nonneg
    omega
  free _ := rfl
  balance := by
    have balance := conserved.balance
    rw [List.append_nil]
    push_cast
    omega
  ordered := by simpa using conserved.ordered
  once := by simpa using conserved.once

theorem grant (conserved : Conserved value initial posts passed blocked granted cancelled
      (ticket :: waiting)) :
    Conserved value initial (posts + 1) passed blocked (granted ++ [ticket]) cancelled
      waiting where
  nonneg := conserved.nonneg
  free free := absurd (conserved.free free) (List.cons_ne_nil _ _)
  balance := by
    have balance := conserved.balance
    rw [List.length_append, List.length_singleton]
    push_cast
    omega
  ordered := by
    rw [List.append_assoc]
    exact conserved.ordered
  once := by
    rw [List.append_assoc]
    exact conserved.once

theorem cancel (conserved : Conserved value initial posts passed blocked granted cancelled
      (before ++ ticket :: after)) :
    Conserved value initial posts passed blocked granted (cancelled ++ [ticket])
      (before ++ after) where
  nonneg := conserved.nonneg
  free free := by
    have none := conserved.free free
    simp at none
  balance := conserved.balance
  ordered := by
    have fewer : (before ++ after).Sublist (before ++ ticket :: after) :=
      List.Sublist.append_left (List.sublist_cons_self ..) _
    exact List.Pairwise.sublist (List.Sublist.append_left fewer granted) conserved.ordered
  once := by
    refine List.Perm.trans ?_ conserved.once
    rw [List.append_assoc]
    apply List.Perm.append_left
    have moved : (ticket :: (granted ++ before ++ after)).Perm
        (granted ++ before ++ ticket :: after) := List.perm_middle.symm
    rw [List.append_assoc, List.append_assoc] at moved
    exact moved

end Conserved

namespace SemRun

variable {idle thread ksem : Ptr} {run run' first last : SemRun} {kernel : Kernel}
  {members members' : Members} {all : List Ptr} {code : Int}

/-- What holds in every state of a run. -/
structure Kept (idle : Ptr) (run : SemRun) (members : Members) (all : List Ptr) : Prop where
  coherent : Coherent run.kernel idle run.live members all
  nonzero : ∀ ksem ∈ run.created, ksem ≠ 0
  conserved : ∀ ksem ∈ run.created, 0 ≤ run.initial ksem →
    Conserved (run.kernel.semValue ksem) (run.initial ksem) (run.posts ksem) (run.passed ksem)
      (run.blocked ksem) (run.granted ksem) (run.cancelled ksem)
      ((members (.sem ksem)).map run.ticket)

section Calls

theorem sysSemWait_pass (nonzero : ksem ≠ 0) (free : 0 < kernel.semValue ksem) :
    kernel.sysSemWait (some ksem) = .ok (-SUCCESS, { kernel.setErrno SUCCESS with
      semValue := Function.update kernel.semValue ksem (kernel.semValue ksem - 1) }) := by
  unfold Kernel.sysSemWait
  dsimp only [Option.getD]
  rw [if_neg nonzero]
  exact if_pos free

theorem sysSemWait_block {result : Int × Kernel} (nonzero : ksem ≠ 0)
    (taken : ¬ 0 < kernel.semValue ksem)
    (waits : kernel.sysSemWait (some ksem) = .ok result) :
    ((kernel.setErrno SUCCESS).kthreadEnqueue (.sem ksem)).kthreadsSchedule = .ok result.2 := by
  unfold Kernel.sysSemWait at waits
  dsimp only [Option.getD] at waits
  have same : (kernel.setErrno SUCCESS).semValue = kernel.semValue := rfl
  rw [if_neg nonzero, same, if_neg taken] at waits
  obtain ⟨scheduled, schedules, rfl⟩ := map_ok waits
  exact schedules

theorem sysSemPost_cases {result : Int × Kernel} (nonzero : ksem ≠ 0)
    (posts : kernel.sysSemPost (some ksem) = .ok result) :
    (((kernel.setErrno SUCCESS).kthreadqRelease (.sem ksem)).1 = 0 ∧
      result.2 = { ((kernel.setErrno SUCCESS).kthreadqRelease (.sem ksem)).2 with
        semValue := Function.update kernel.semValue ksem (kernel.semValue ksem + 1) }) ∨
    (((kernel.setErrno SUCCESS).kthreadqRelease (.sem ksem)).1 ≠ 0 ∧
      ((kernel.setErrno SUCCESS).kthreadqRelease (.sem ksem)).2.kthreadsSchedule =
        .ok result.2) := by
  unfold Kernel.sysSemPost at posts
  dsimp only [Option.getD] at posts
  rw [if_neg nonzero] at posts
  split at posts
  · rename_i none
    obtain rfl := Except.ok.inj posts
    exact .inl ⟨none, rfl⟩
  · rename_i one
    obtain ⟨scheduled, schedules, rfl⟩ := map_ok posts
    exact .inr ⟨one, schedules⟩

end Calls

section Steps

/-- A new semaphore, where no thread waits at its address. -/
theorem Kept.init {sem : Ptr} {value : Int} (kept : run.Kept idle members all)
    (fresh : ∀ members : Members, run.kernel.sched.queues.Linked members →
      members (.sem ksem) = [])
    (result : run.kernel.sysSemInit sem ksem value = .ok (-SUCCESS, kernel)) :
    Kept idle { run with
      kernel := kernel
      created := insert ksem run.created
      initial := Function.update run.initial ksem value
      posts := Function.update run.posts ksem 0
      passed := Function.update run.passed ksem 0
      blocked := Function.update run.blocked ksem 0
      granted := Function.update run.granted ksem []
      cancelled := Function.update run.cancelled ksem [] } members all := by
  have empty := fresh members kept.coherent.sound.linked
  have sameQueues := kept.coherent.sound.linked.listInit_eq empty
  unfold Kernel.sysSemInit at result
  split at result
  · cases (Prod.mk.inj (Except.ok.inj result)).1
  split at result
  · cases result
  rename_i nonzero
  rw [sameQueues] at result
  obtain rfl := (Prod.mk.inj (Except.ok.inj result)).2
  refine ⟨?_, ?_, ?_⟩
  · apply Coherent.setErrno
    exact kept.coherent.of_same rfl rfl rfl rfl rfl rfl
  · rintro other (rfl | old)
    · exact nonzero
    · exact kept.nonzero other old
  · intro other known atLeast
    by_cases same : other = ksem
    · subst same
      dsimp only at atLeast ⊢
      rw [Function.update_self] at atLeast
      simpa [empty, Kernel.setErrno, Kernel.setThread] using Conserved.start atLeast
    · have old : other ∈ run.created := known.resolve_left same
      dsimp only at atLeast ⊢
      rw [Function.update_of_ne same] at atLeast
      simpa [same, Kernel.setErrno, Kernel.setThread] using kept.conserved other old atLeast

/-- A wait that takes a unit. -/
theorem Kept.pass (kept : run.Kept idle members all) (known : ksem ∈ run.created)
    (free : 0 < run.kernel.semValue ksem)
    (result : run.kernel.sysSemWait (some ksem) = .ok (code, kernel)) :
    Kept idle { run with
      kernel := kernel
      passed := Function.update run.passed ksem (run.passed ksem + 1) } members all := by
  have passes := sysSemWait_pass (kept.nonzero ksem known) free
  obtain rfl := (Prod.mk.inj (Except.ok.inj (result.symm.trans passes))).2
  refine ⟨?_, kept.nonzero, ?_⟩
  · have noted := kept.coherent.setErrno SUCCESS
    exact noted.of_same rfl rfl rfl rfl rfl rfl
  · intro other inCreated atLeast
    have conserved := kept.conserved other inCreated atLeast
    by_cases same : other = ksem
    · subst same
      simpa using conserved.pass free
    · simpa [same, Kernel.setErrno, Kernel.setThread] using conserved

/-- A wait that blocks. -/
theorem Kept.block (kept : run.Kept idle members all) (known : ksem ∈ run.created)
    (taken : ¬ 0 < run.kernel.semValue ksem) (notIdle : run.self ≠ idle)
    (result : run.kernel.sysSemWait (some ksem) = .ok (code, kernel)) :
    ∃ members', Kept idle { run with
      kernel := kernel
      blocked := Function.update run.blocked ksem (run.blocked ksem + 1)
      ticket := Function.update run.ticket run.self (run.blocked ksem) } members' all := by
  have schedules := sysSemWait_block (kept.nonzero ksem known) taken result
  have noted := kept.coherent.setErrno SUCCESS
  obtain ⟨members', coherent, waiting⟩ :=
    noted.blocked rfl notIdle (fun _ isJoin => by cases isJoin) (fun _ isOwn => by cases isOwn)
      schedules
  obtain ⟨sched, -, isKernel⟩ := map_ok schedules
  have semValue : kernel.semValue = run.kernel.semValue := by
    have same := congrArg Kernel.semValue isKernel
    exact same.symm
  refine ⟨members', coherent, kept.nonzero, ?_⟩
  intro other inCreated atLeast
  have conserved := kept.conserved other inCreated atLeast
  have outside : ∀ queue, run.self ∉ members queue := fun queue => kept.coherent.active_free
  have tickets : ∀ queue, (members queue).map
      (Function.update run.ticket run.self (run.blocked ksem)) =
        (members queue).map run.ticket := by
    intro queue
    apply List.map_congr_left
    intro thread mem
    apply Function.update_of_ne
    rintro rfl
    exact outside queue mem
  have active : (run.kernel.setErrno SUCCESS).activeThread = run.self := rfl
  dsimp only at atLeast ⊢
  rw [waiting _ rfl, semValue, active]
  unfold enqueued
  by_cases same : other = ksem
  · subst same
    rw [Function.update_self, Function.update_self, List.map_append, tickets, List.map_singleton,
      Function.update_self]
    exact conserved.block taken
  · have different : QueueId.sem other ≠ .sem ksem := fun isSame => same (QueueId.sem.inj isSame)
    rw [Function.update_of_ne same, Function.update_of_ne different, tickets]
    exact conserved

/-- The ticket of the first thread that waits. -/
theorem Kept.next_eq (kept : run.Kept idle members all) :
    run.next ksem = ((members (.sem ksem)).map run.ticket).take 1 := by
  have first := kept.coherent.sound.linked.listGet_first (.sem ksem)
  unfold next Sched.kthreadqGet
  rw [first]
  cases place : members (.sem ksem) with
  | nil =>
      rw [headOf_nil]
      rfl
  | cons thread rest =>
      have mem : thread ∈ members (.sem ksem) := by simp [place]
      have nonzero := kept.coherent.sound.linked.ne_zero mem
      rw [headOf_cons]
      exact if_neg nonzero

/-- A post is counted, or given to the first thread that waits. -/
theorem Kept.post (kept : run.Kept idle members all) (known : ksem ∈ run.created)
    (result : run.kernel.sysSemPost (some ksem) = .ok (code, kernel)) :
    ∃ members', Kept idle { run with
      kernel := kernel
      posts := Function.update run.posts ksem (run.posts ksem + 1)
      granted := Function.update run.granted ksem (run.granted ksem ++ run.next ksem) }
      members' all := by
  have noted := kept.coherent.setErrno SUCCESS
  have cases := sysSemPost_cases (kept.nonzero ksem known) result
  have next : run.next ksem = ((members (.sem ksem)).map run.ticket).take 1 := kept.next_eq
  cases place : members (.sem ksem) with
  | nil =>
      have released := noted.toSettled.kthreadqRelease_empty place
      rw [released] at cases
      obtain ⟨-, rfl⟩ := cases.resolve_right fun one => one.1 rfl
      rw [place] at next
      refine ⟨members, ?_, kept.nonzero, ?_⟩
      · exact noted.of_same rfl rfl rfl rfl rfl rfl
      · intro other inCreated atLeast
        have conserved := kept.conserved other inCreated atLeast
        by_cases same : other = ksem
        · subst same
          rw [place] at conserved
          simpa [next, place] using conserved.count
        · simpa [same, Kernel.setErrno, Kernel.setThread] using conserved
  | cons thread rest =>
      have waits : (QueueId.sem ksem).state = .wait := rfl
      obtain ⟨one, -⟩ := noted.toSettled.kthreadqRelease place waits
      obtain ⟨-, schedules⟩ := cases.resolve_left fun none => by
        rw [one] at none
        cases none.1
      obtain ⟨members', coherent, waiting⟩ := noted.released place waits schedules
      obtain ⟨sched, -, isKernel⟩ := map_ok schedules
      have semValue : kernel.semValue = run.kernel.semValue :=
        (congrArg Kernel.semValue isKernel).symm
      rw [place] at next
      refine ⟨members', coherent, kept.nonzero, ?_⟩
      intro other inCreated atLeast
      have conserved := kept.conserved other inCreated atLeast
      dsimp only at atLeast ⊢
      rw [waiting _ rfl, semValue]
      by_cases same : other = ksem
      · subst same
        rw [place, List.map_cons] at conserved
        rw [Function.update_self, Function.update_self, Function.update_self, next]
        exact conserved.grant
      · have different : QueueId.sem other ≠ .sem ksem :=
          fun isSame => same (QueueId.sem.inj isSame)
        rw [Function.update_of_ne same, Function.update_of_ne same, Function.update_of_ne different]
        exact conserved

/-- A thread that is alive waits for a semaphore where it is linked. -/
theorem Kept.drawn_eq (kept : run.Kept idle members all) (mem : thread ∈ run.live) :
    run.drawn ksem thread = if thread ∈ members (.sem ksem) then [run.ticket thread] else [] := by
  have linked : ((run.kernel.thread thread).state = .wait ∧
      (run.kernel.thread thread).queue = some (.sem ksem)) ↔ thread ∈ members (.sem ksem) := by
    constructor
    · rintro ⟨waits, names⟩
      rcases kept.coherent.sound.located thread mem with ⟨active, -⟩ | ⟨queue, inQueue⟩
      · exact absurd (active.symm.trans waits) (by decide)
      · have isQueue := (kept.coherent.sound.placed queue thread inQueue).names
        obtain rfl := Option.some.inj (isQueue.symm.trans names)
        exact inQueue
    · intro inQueue
      have placed := kept.coherent.sound.placed _ thread inQueue
      exact ⟨placed.inState, placed.names⟩
  unfold drawn
  simp only [linked]

/-- A thread is cancelled, which may wait. -/
theorem Kept.cancel {status : Int} {ended : Int × Kernel} (kept : run.Kept idle members all)
    (mem : thread ∈ run.live) (notIdle : thread ≠ idle) (inactive : thread ≠ run.self)
    (result : run.kernel.kthreadCancel thread status = .ok ended) :
    ∃ members' all', Kept idle { run with
      kernel := ended.2
      live := run.live \ {thread}
      cancelled := fun ksem => run.cancelled ksem ++ run.drawn ksem thread } members' all' := by
  obtain ⟨kernel, members', all', cancels, coherent, erased⟩ :=
    kept.coherent.kthreadCancel mem notIdle inactive status
  have semValue := (Kernel.SameObjects.kthreadCancel result).semValue
  obtain rfl := Except.ok.inj (result.symm.trans cancels)
  refine ⟨members', all', coherent, kept.nonzero, ?_⟩
  intro ksem inCreated atLeast
  have conserved := kept.conserved ksem inCreated atLeast
  dsimp only at semValue atLeast ⊢
  rw [erased _ rfl (by simp), semValue, kept.drawn_eq mem]
  by_cases waits : thread ∈ members (.sem ksem)
  · obtain ⟨before, after, place⟩ := List.append_of_mem waits
    have nodup : (members (.sem ksem)).Nodup := kept.coherent.sound.linked.nodup_members
    rw [place] at nodup
    have notBefore : thread ∉ before := fun inBefore =>
      (List.nodup_append.mp nodup).2.2 thread inBefore thread (by simp) rfl
    rw [if_pos waits, place, List.erase_append_right _ notBefore, List.erase_cons_head,
      List.map_append]
    rw [place, List.map_append, List.map_cons] at conserved
    exact conserved.cancel
  · rw [if_neg waits, List.erase_of_not_mem waits, List.append_nil]
    exact conserved

theorem Kept.step (kept : run.Kept idle members all) (step : SemStep idle run run') :
    ∃ members' all', run'.Kept idle members' all' := by
  cases step with
  | init sem ksem value unused fresh result => exact ⟨members, all, kept.init fresh result⟩
  | pass known free result => exact ⟨members, all, kept.pass known free result⟩
  | block known taken notIdle result =>
      obtain ⟨members', kept'⟩ := kept.block known taken notIdle result
      exact ⟨members', all, kept'⟩
  | post known result =>
      obtain ⟨members', kept'⟩ := kept.post known result
      exact ⟨members', all, kept'⟩
  | cancel kthread status mem notIdle inactive result =>
      exact kept.cancel mem notIdle inactive result
  | other fewer spared =>
      obtain ⟨members', all', coherent, semaphores⟩ := spared members all kept.coherent
      refine ⟨members', all', coherent, fun ksem inCreated => kept.nonzero ksem (fewer inCreated),
        fun ksem inCreated atLeast => ?_⟩
      obtain ⟨sameMembers, sameValue⟩ := semaphores ksem inCreated
      dsimp only
      rw [sameMembers, sameValue]
      exact kept.conserved ksem (fewer inCreated) atLeast

end Steps

section Others

theorem Spared.create {stack proc : Ptr} {prio : Int} {created : Set Ptr}
    (unused : ∀ all : List Ptr, run.kernel.allThreads.Linked (fun _ => all) → thread ∉ all)
    (below : thread < addressCount)
    (known : ∃ mate ∈ run.live, (run.kernel.thread mate).proc = proc)
    (creates : run.kernel.kthreadCreate stack thread prio true proc = .ok kernel) :
    run.Spared idle kernel (insert thread run.live) created := by
  intro members all coherent
  obtain ⟨members', coherent', waiting⟩ :=
    coherent.kthreadCreate (unused all coherent.ledger.listed) below known creates
  refine ⟨members', _, coherent', fun ksem _ => ⟨waiting _ rfl id, ?_⟩⟩
  unfold Kernel.kthreadCreate at creates
  split at creates
  · cases creates
  · obtain ⟨numbered, taken, rfl⟩ := map_ok creates
    obtain ⟨lastId, -, rfl⟩ := map_ok taken
    rfl

theorem Spared.schedule {created : Set Ptr}
    (schedules : run.kernel.kthreadsSchedule = .ok kernel) :
    run.Spared idle kernel run.live created := by
  intro members all coherent
  obtain ⟨sched, members', scheduled, coherent', -, switches⟩ := coherent.toSettled.kthreadsSchedule
  obtain rfl := Except.ok.inj (schedules.symm.trans scheduled)
  exact ⟨members', all, coherent', fun ksem _ => ⟨switches.waiting _ rfl id, rfl⟩⟩

end Others

end SemRun

section Runs

variable {idle stack kernelProc : Ptr} {first last : SemRun}

/-- In every run each semaphore that was created with a value that is not negative is
conserved. -/
theorem semaphores_conserved (below : idle < addressCount)
    (starts : Kernel.boot.kthreadsInit stack idle kernelProc = .ok first.kernel)
    (alone : first.live = {idle}) (none : first.created = ∅)
    (run : Relation.ReflTransGen (SemStep idle) first last) :
    ∃ members all, Coherent last.kernel idle last.live members all ∧
      ∀ ksem ∈ last.created, 0 ≤ last.initial ksem →
        Conserved (last.kernel.semValue ksem) (last.initial ksem) (last.posts ksem)
          (last.passed ksem) (last.blocked ksem) (last.granted ksem) (last.cancelled ksem)
          ((members (.sem ksem)).map last.ticket) := by
  have kept : ∃ members all, last.Kept idle members all := by
    induction run with
    | refl =>
        obtain ⟨members, coherent⟩ := kthreadsInit_coherent below starts
        rw [← alone] at coherent
        refine ⟨members, [idle], coherent, ?_, ?_⟩
        · intro ksem inCreated
          rw [none] at inCreated
          cases inCreated
        · intro ksem inCreated
          rw [none] at inCreated
          cases inCreated
    | tail _ step ih =>
        obtain ⟨members, all, kept⟩ := ih
        exact kept.step step
  obtain ⟨members, all, kept⟩ := kept
  exact ⟨members, all, kept.coherent, kept.conserved⟩

/-- A thread waits for a unit, and the idle thread posts it. -/
theorem semaphores_conserved_sample : ∃ first last : SemRun,
    Kernel.boot.kthreadsInit 8184 7960 100 = .ok first.kernel ∧
      Relation.ReflTransGen (SemStep 7960) first last ∧
      5000 ∈ last.created ∧ last.granted 5000 = [0] ∧
      ∃ members all, Coherent last.kernel 7960 last.live members all ∧
        ∀ ksem ∈ last.created, 0 ≤ last.initial ksem →
          Conserved (last.kernel.semValue ksem) (last.initial ksem) (last.posts ksem)
            (last.passed ksem) (last.blocked ksem) (last.granted ksem) (last.cancelled ksem)
            ((members (.sem ksem)).map last.ticket) := by
  have evaluated : (do
      let started ← Kernel.boot.kthreadsInit 8184 7960 100
      let created ← started.kthreadCreate 8200 7000 5 true 100
      let running ← created.kthreadsSchedule
      let made ← running.sysSemInit 4000 5000 0
      let waited ← made.2.sysSemWait (some 5000)
      let posted ← waited.2.sysSemPost (some 5000)
      return decide ((started.thread 7960).proc = 100 ∧
        running.sched.queues.listGet (.sem 5000) FIRST = 0 ∧ made.1 = -SUCCESS ∧
        ¬ 0 < made.2.semValue 5000 ∧ made.2.activeThread = 7000 ∧
        waited.2.sched.kthreadqGet (.sem 5000) = 7000)) = (.ok true : Except Fault Bool) := by
    decide +kernel
  obtain ⟨started, starts, evaluated⟩ := bind_ok evaluated
  obtain ⟨created, creates, evaluated⟩ := bind_ok evaluated
  obtain ⟨running, schedules, evaluated⟩ := bind_ok evaluated
  obtain ⟨⟨code, made⟩, inits, evaluated⟩ := bind_ok evaluated
  obtain ⟨⟨code', waited⟩, waits, evaluated⟩ := bind_ok evaluated
  obtain ⟨⟨code'', posted⟩, posts, evaluated⟩ := bind_ok evaluated
  obtain ⟨proc, empty, success, taken, active, waiting⟩ :=
    of_decide_eq_true (Except.ok.inj evaluated)
  obtain rfl : code = -SUCCESS := success
  let first : SemRun := ⟨started, {7960}, ∅, fun _ => 0, fun _ => 0, fun _ => 0, fun _ => 0,
    fun _ => [], fun _ => [], fun _ => 0⟩
  obtain ⟨members, coherent⟩ := kthreadsInit_coherent (by decide) starts
  have unused : ∀ all : List Ptr, started.allThreads.Linked (fun _ => all) → 7000 ∉ all := by
    intro all linked mem
    rw [linked.unique coherent.ledger.listed ()] at mem
    exact absurd (List.mem_singleton.mp mem) (by decide)
  have spared : first.Spared 7960 created (insert 7000 {7960}) ∅ :=
    SemRun.Spared.create unused (by decide) ⟨7960, rfl, proc⟩ creates
  have run := Relation.ReflTransGen.single (SemStep.other (Set.Subset.refl _) spared)
  have run := run.tail (.other (Set.Subset.refl _) (SemRun.Spared.schedule schedules))
  have run := run.tail (.init 4000 5000 0 (Set.notMem_empty 5000)
    (fun members linked => linked.eq_nil empty) inits)
  have run := run.tail (.block (Set.mem_insert 5000 _) taken (by
    change made.activeThread ≠ 7960
    rw [active]
    decide) waits)
  have run := run.tail (.post (Set.mem_insert 5000 _) posts)
  refine ⟨first, _, starts, run, Set.mem_insert 5000 _, ?_,
    semaphores_conserved (by decide) starts rfl rfl run⟩
  simp [first, SemRun.next, SemRun.self, waiting, active]

end Runs

end Oseer
