import Oseer.LifeEntries
import Oseer.TimedStart

/-!
# The lifetime of processes

A process has a descriptor and an image, which `kthread_start_process` obtains from
`kmalloc`, and which `kthread_cancel` frees with the last thread of the process.  The run
is told together with the blocks that were obtained: each of them is freed once or is still
held by a thread or by a process in the list of processes.
-/

namespace Oseer

open LinkedRing Results Alarms

section Frees

/-- The blocks of `kmalloc` that the end of a thread frees, the last one first. -/
def Kernel.exitFrees (thread : Ptr) (kernel : Kernel) : List Ptr :=
  let descriptor := kernel.thread thread
  let proc := kernel.processes descriptor.proc
  (if descriptor.refCnt = 1 then [thread] else []) ++
    (if proc.thrCount = 1 ∧ proc.pi ≠ 0 then [descriptor.proc, proc.pi] else []) ++
    (if descriptor.stack ≠ 0 ∧ proc.start = 0 then [descriptor.stack] else [])

variable {kernel kernel' : Kernel} {thread : Ptr} {status : Int}

theorem Lists.listRemove_none {ι : Type} [DecidableEq ι] {lists : Lists ι} {list : ι}
    (empty : lists.first list = 0) : lists.listRemove list FIRST 0 = (0, lists) := by
  simp [Lists.listRemove, FIRST, LAST, empty]

theorem Kernel.msgqCleanLoop_empty {msgq : MsgqId} (empty : kernel.msgs.first msgq = 0)
    (fuel : Nat) : kernel.msgqCleanLoop msgq fuel = kernel := by
  cases fuel with
  | zero => rfl
  | succ fuel =>
      unfold Kernel.msgqCleanLoop
      simp [Lists.listRemove_none empty]

theorem Kernel.releaseStack_kfreed : (kernel.releaseStack thread).kfreed =
    (if (kernel.thread thread).stack ≠ 0 ∧
        (kernel.processes (kernel.thread thread).proc).start = 0 then
      [(kernel.thread thread).stack] else []) ++ kernel.kfreed := by
  unfold Kernel.releaseStack
  dsimp only
  by_cases hasStack : (kernel.thread thread).stack = 0
  · simp [hasStack]
  · by_cases isKernel : (kernel.processes (kernel.thread thread).proc).start = 0
    · simp [hasStack, isKernel, Kernel.kfree]
    · simp [hasStack, isKernel, Kernel.ffsFree]

/-- The process of the last thread is removed. -/
theorem Kernel.removeProcess_effect (removes : kernel.removeProcess thread = .ok kernel') :
    SameCore kernel kernel' ∧ kernel'.msgs = kernel.msgs ∧
      kernel'.kfreed = (if kernel.LastThread (kernel.thread thread).proc then
        [(kernel.thread thread).proc, (kernel.processes (kernel.thread thread).proc).pi]
        else []) ++ kernel.kfreed ∧
      kernel'.procs = (if kernel.LastThread (kernel.thread thread).proc then
        (kernel.procs.listRemove () FIRST (kernel.thread thread).proc).2 else kernel.procs) := by
  unfold Kernel.removeProcess at removes
  dsimp only at removes
  by_cases last : kernel.LastThread (kernel.thread thread).proc
  · rw [if_pos (show _ ∧ _ from last)] at removes
    split_ifs at removes
    obtain rfl := Except.ok.inj removes
    rw [if_pos last, if_pos last]
    exact ⟨⟨rfl, rfl, rfl, rfl, rfl, rfl, rfl, rfl, rfl, rfl⟩, rfl, rfl, rfl⟩
  · rw [if_neg (show ¬ (_ ∧ _) from last)] at removes
    obtain rfl := Except.ok.inj removes
    rw [if_neg last, if_neg last]
    exact ⟨.refl kernel, rfl, rfl, rfl⟩

/-- What is left when the thread has ended, apart from the states of other threads. -/
structure ThreadGone (kernel kernel' : Kernel) (thread : Ptr) : Prop where
  kfreed : kernel'.kfreed = kernel.exitFrees thread ++ kernel.kfreed
  msgs : kernel'.msgs = kernel.msgs
  processes : kernel'.processes = Function.update kernel.processes (kernel.thread thread).proc
    { kernel.processes (kernel.thread thread).proc with
      thrCount := (kernel.processes (kernel.thread thread).proc).thrCount - 1 }
  procs : kernel'.procs =
    if (kernel.processes (kernel.thread thread).proc).thrCount = 1 ∧
        (kernel.processes (kernel.thread thread).proc).pi ≠ 0 then
      (kernel.procs.listRemove () FIRST (kernel.thread thread).proc).2 else kernel.procs
  allThreads : kernel'.allThreads =
    if (kernel.thread thread).refCnt = 1 then (kernel.allThreads.listRemove () 0 thread).2
    else kernel.allThreads
  others : ∀ other, other ≠ thread →
    (kernel'.thread other).holdings = (kernel.thread other).holdings
  refCnt : (kernel'.thread thread).refCnt = (kernel.thread thread).refCnt - 1
  proc : (kernel'.thread thread).proc = (kernel.thread thread).proc

/-- The resources of a thread without messages are released. -/
theorem Kernel.releaseResources_effect (silent : kernel.msgs.first (.thread thread) = 0)
    (releases : kernel.releaseResources thread = .ok kernel') :
    SameCore kernel kernel' ∧ kernel'.msgs = kernel.msgs ∧
      kernel'.kfreed = (if kernel.LastThread (kernel.thread thread).proc then
        [(kernel.thread thread).proc, (kernel.processes (kernel.thread thread).proc).pi]
        else []) ++
          (if (kernel.thread thread).stack ≠ 0 ∧
              (kernel.processes (kernel.thread thread).proc).start = 0 then
            [(kernel.thread thread).stack] else []) ++ kernel.kfreed ∧
      kernel'.procs = (if kernel.LastThread (kernel.thread thread).proc then
        (kernel.procs.listRemove () FIRST (kernel.thread thread).proc).2 else kernel.procs) := by
  unfold Kernel.releaseResources at releases
  dsimp only at releases
  have clean : kernel.kMsgqClean (.thread thread) = kernel :=
    Kernel.msgqCleanLoop_empty silent addressCount
  rw [clean] at releases
  generalize freedIs : kernel.releaseStack thread = freed at releases
  obtain ⟨core, procs, msgs⟩ : SameCore kernel freed ∧ freed.procs = kernel.procs ∧
      freed.msgs = kernel.msgs := freedIs ▸ releaseStack_core
  have kfreed := @Kernel.releaseStack_kfreed kernel thread
  rw [freedIs] at kfreed
  generalize deletedIs : freed.kthreadDeletePrivateStorage thread
    (freed.thread thread).privateStorage = deleted at releases
  obtain ⟨core', procs', msgs'⟩ : SameCore freed deleted ∧ deleted.procs = freed.procs ∧
      deleted.msgs = freed.msgs := deletedIs ▸ kthreadDeletePrivateStorage_core _
  have kfreed' : deleted.kfreed = freed.kfreed := by
    rw [← deletedIs]
    unfold Kernel.kthreadDeletePrivateStorage
    split <;> rfl
  have same := core.trans core'
  have sameThread : deleted.thread thread = kernel.thread thread := by
    unfold Kernel.thread
    rw [same.sched]
  have sameLast : deleted.LastThread (kernel.thread thread).proc ↔
      kernel.LastThread (kernel.thread thread).proc := by
    unfold Kernel.LastThread
    rw [same.processes]
  obtain ⟨core'', msgs'', kfreed'', procs''⟩ := Kernel.removeProcess_effect releases
  rw [sameThread, same.processes, kfreed', kfreed] at kfreed''
  rw [sameThread, procs', procs] at procs''
  simp only [sameLast] at kfreed'' procs''
  refine ⟨same.trans core'', (msgs''.trans msgs').trans msgs, ?_, procs''⟩
  rw [kfreed'', List.append_assoc]

/-- The descriptor is freed with the last reference to the thread. -/
theorem Kernel.releaseDescriptor_effect (releases : kernel.releaseDescriptor thread = .ok kernel') :
    kernel'.kfreed =
        (if (kernel.thread thread).refCnt = 0 then [thread] else []) ++ kernel.kfreed ∧
      kernel'.msgs = kernel.msgs ∧ kernel'.processes = kernel.processes ∧
      kernel'.procs = kernel.procs ∧
      kernel'.allThreads = (if (kernel.thread thread).refCnt = 0 then
        (kernel.allThreads.listRemove () 0 thread).2 else kernel.allThreads) ∧
      ∀ other, (kernel'.thread other).holdings = (kernel.thread other).holdings := by
  unfold Kernel.releaseDescriptor at releases
  split_ifs at releases with unused
  · obtain ⟨freed, frees, rfl⟩ := map_ok releases
    unfold Kernel.kFreeUniqueId at frees
    split_ifs at frees
    obtain rfl := Except.ok.inj frees
    simp only [if_pos unused]
    refine ⟨rfl, rfl, rfl, rfl, rfl, fun other => ?_⟩
    have kept : ((kernel.setThread thread fun descriptor =>
        { descriptor with id := 0 }).thread other).holdings = (kernel.thread other).holdings :=
      Kernel.setThread_field Thread.holdings rfl
    exact kept
  · obtain rfl := Except.ok.inj releases
    simp only [if_neg unused]
    refine ⟨rfl, rfl, rfl, rfl, rfl, fun other => ?_⟩
    exact congrArg (fun data : ThreadData => (data.stack, data.proc, data.refCnt))
      (SameData.releaseLoop (.join thread) addressCount kernel.sched other)

/-- The end of a thread without messages. -/
theorem Kernel.endAndRelease_effect (silent : kernel.msgs.first (.thread thread) = 0)
    (ended : kernel.endAndRelease thread status = .ok kernel') :
    ThreadGone kernel kernel' thread := by
  obtain ⟨released, releases, ended⟩ := bind_ok ended
  have silent' : (kernel.endThread thread status).msgs.first (.thread thread) = 0 := silent
  obtain ⟨core, msgs, kfreed, procs⟩ := Kernel.releaseResources_effect silent' releases
  obtain ⟨kfreed', msgs', processes', procs', allThreads', holdings⟩ :=
    Kernel.releaseDescriptor_effect ended
  have descriptor : ∀ other,
      released.thread other = (kernel.endThread thread status).thread other := by
    intro other
    unfold Kernel.thread
    rw [core.sched]
  have here := @Kernel.endThread_thread kernel thread status
  have last : (kernel.endThread thread status).LastThread (kernel.thread thread).proc ↔
      (kernel.processes (kernel.thread thread).proc).thrCount = 1 ∧
        (kernel.processes (kernel.thread thread).proc).pi ≠ 0 := by
    unfold Kernel.LastThread
    rw [Kernel.endThread_pi, Kernel.endThread_processes, Function.update_self]
    exact and_congr_left' sub_eq_zero
  have unused : (released.thread thread).refCnt = 0 ↔ (kernel.thread thread).refCnt = 1 := by
    rw [descriptor, here]
    exact sub_eq_zero
  have start : ((kernel.endThread thread status).processes (kernel.thread thread).proc).start =
      (kernel.processes (kernel.thread thread).proc).start := by
    rw [Kernel.endThread_processes, Function.update_self]
  simp only [Kernel.endThread_proc, last, Kernel.endThread_pi, start] at kfreed procs
  simp only [unused] at kfreed' allThreads'
  refine ⟨?_, msgs'.trans msgs, ?_, procs'.trans procs, ?_, fun other different => ?_, ?_, ?_⟩
  · have sameStack : ((kernel.endThread thread status).thread thread).stack =
        (kernel.thread thread).stack := by rw [here]
    have sameFreed : (kernel.endThread thread status).kfreed = kernel.kfreed := rfl
    rw [kfreed', kfreed, sameStack, sameFreed]
    unfold Kernel.exitFrees
    simp only [List.append_assoc]
  · rw [processes', core.processes, Kernel.endThread_processes]
  · rw [allThreads', core.allThreads]
    rfl
  · rw [holdings, descriptor, Kernel.endThread_other different]
  · have same := congrArg (fun held : Ptr × Ptr × Int => held.2.2) (holdings thread)
    rw [descriptor, here] at same
    exact same
  · have same := congrArg (fun held : Ptr × Ptr × Int => held.2.1) (holdings thread)
    rw [descriptor, here] at same
    exact same

end Frees

section Books

/-- The blocks of `kmalloc` that a thread holds: its descriptor, and its stack if that is not
from the pool of its process. -/
def World.threadBlocks (world : World) (thread : Ptr) : List Ptr :=
  if world.life thread = .living ∧
      (world.kernel.processes (world.thread thread).proc).stackPool = 0 then
    [thread, (world.thread thread).stack]
  else [thread]

/-- The blocks of a process: its descriptor and its image. -/
def World.processBlocks (world : World) (proc : Ptr) : List Ptr :=
  [proc, (world.kernel.processes proc).pi]

/-- All the blocks that threads and processes hold. -/
def World.held (world : World) (all procs : List Ptr) : List Ptr :=
  all.flatMap world.threadBlocks ++ procs.flatMap world.processBlocks

/-- Each block is freed as often as it was obtained and is not held any more. -/
def World.Balanced (obtained all procs : List Ptr) (world : World) : Prop :=
  ∀ block, obtained.count block =
    world.kernel.kfreed.count block + (world.held all procs).count block

/-- What holds of the processes, besides `Accounted`: `image pi` is the image at `pi`. -/
structure World.Books (image : Ptr → Set Ptr) (home : Ptr) (procs : List Ptr) (world : World) :
    Prop where
  none : ∀ proc, proc ≠ home → proc ∉ procs → (world.kernel.processes proc).thrCount = 0
  start_home : (world.kernel.processes home).start = 0
  pool_home : (world.kernel.processes home).stackPool = 0
  start_eq : ∀ proc ∈ procs,
    (world.kernel.processes proc).start = (world.kernel.processes proc).pi
  pool_ne : ∀ proc ∈ procs, (world.kernel.processes proc).stackPool ≠ 0
  stack_ne : ∀ thread ∈ world.alive, (world.thread thread).stack ≠ 0
  placed : ∀ thread ∈ world.alive, (world.thread thread).proc ∈ procs →
    (world.thread thread).stack ∈ image (world.kernel.processes (world.thread thread).proc).pi
  silent : ∀ queue, world.kernel.msgs.first queue = 0

variable {image : Ptr → Set Ptr} {home : Ptr} {obtained all procs : List Ptr}
  {world world' : World}

theorem World.SameHoldings.stack (same : world.SameHoldings world') (thread : Ptr) :
    (world'.thread thread).stack = (world.thread thread).stack :=
  congrArg Prod.fst (same.holdings thread)

theorem World.SameHoldings.proc (same : world.SameHoldings world') (thread : Ptr) :
    (world'.thread thread).proc = (world.thread thread).proc :=
  congrArg (fun held : Ptr × Ptr × Int => held.2.1) (same.holdings thread)

theorem World.SameHoldings.processes (same : world.SameHoldings world') :
    world'.kernel.processes = world.kernel.processes := by
  rw [same.kernel]

theorem World.SameHoldings.alive (same : world.SameHoldings world') :
    world'.alive = world.alive := by
  unfold World.alive
  rw [same.life]

/-- The books are about what the scheduler leaves as it is. -/
theorem World.Books.congr (books : world.Books image home procs)
    (same : world.SameHoldings world') : world'.Books image home procs where
  none := same.processes ▸ books.none
  start_home := same.processes ▸ books.start_home
  pool_home := same.processes ▸ books.pool_home
  start_eq := same.processes ▸ books.start_eq
  pool_ne := same.processes ▸ books.pool_ne
  stack_ne := fun thread mem => by
    rw [same.stack]
    exact books.stack_ne thread (same.alive ▸ mem)
  placed := fun thread mem listed => by
    rw [same.proc] at listed ⊢
    rw [same.stack, same.processes]
    exact books.placed thread (same.alive ▸ mem) listed
  silent := by
    rw [same.kernel]
    exact books.silent

theorem World.Balanced.congr (balanced : world.Balanced obtained all procs)
    (same : world.SameHoldings world') : world'.Balanced obtained all procs := by
  have threads : world'.threadBlocks = world.threadBlocks := by
    funext thread
    unfold World.threadBlocks
    rw [same.life, same.processes, same.proc, same.stack]
  have blocks : world'.processBlocks = world.processBlocks := by
    funext proc
    unfold World.processBlocks
    rw [same.processes]
  unfold World.Balanced World.held
  rw [threads, blocks, same.kernel]
  exact balanced

end Books

section Create

variable {image : Ptr → Set Ptr} {home proc kthread stack pi stackPool : Ptr}
  {obtained all procs procs' : List Ptr} {world world' : World} {prio : Nat} {kernel kernel' : Kernel}

theorem Created.process (created : Created kernel kernel' kthread stack prio proc) {α : Type}
    (field : Process → α)
    (same : ∀ process count, field { process with thrCount := count } = field process)
    (other : Ptr) : field (kernel'.processes other) = field (kernel.processes other) := by
  rw [created.processes]
  by_cases here : other = proc
  · rw [here, Function.update_self, same]
  · rw [Function.update_of_ne here]

theorem Created.alive (created : Created world.kernel world'.kernel kthread stack prio proc)
    (life : world'.life = Function.update world.life kthread .living) {thread : Ptr}
    (mem : thread ∈ world'.alive) : thread = kthread ∨
      thread ∈ world.alive ∧ world'.thread thread = world.thread thread := by
  by_cases same : thread = kthread
  · exact .inl same
  · unfold World.alive at mem
    rw [life] at mem
    have old : world.life thread = .living := by simpa [same] using mem
    exact .inr ⟨old, created.others thread same⟩

/-- A new thread, of a process that is listed afterwards. -/
theorem World.Books.created (books : world.Books image home procs)
    (created : Created world.kernel world'.kernel kthread stack prio proc)
    (life : world'.life = Function.update world.life kthread .living)
    (known : proc = home ∨ proc ∈ procs') (nonzero : stack ≠ 0) (keeps : procs ⊆ procs')
    (grows : ∀ other ∈ procs', other ∈ procs ∨ other = proc)
    (old : ∀ thread ∈ world.alive, (world.thread thread).proc ∈ procs' →
      (world.thread thread).proc ∈ procs)
    (supplied : proc ∈ procs' →
      (world.kernel.processes proc).start = (world.kernel.processes proc).pi ∧
      (world.kernel.processes proc).stackPool ≠ 0 ∧
      stack ∈ image (world.kernel.processes proc).pi) :
    world'.Books image home procs' := by
  have pi := created.process Process.pi fun _ _ => rfl
  have start := created.process Process.start fun _ _ => rfl
  have pool := created.process Process.stackPool fun _ _ => rfl
  refine ⟨?_, (start home).trans books.start_home, (pool home).trans books.pool_home, ?_, ?_, ?_,
    ?_, ?_⟩
  · intro other notHome unlisted
    have different : other ≠ proc := by
      rintro rfl
      exact known.elim notHome unlisted
    rw [created.processes, Function.update_of_ne different]
    exact books.none other notHome fun listed => unlisted (keeps listed)
  · intro other listed
    rw [start, pi]
    rcases grows other listed with before | rfl
    · exact books.start_eq other before
    · exact (supplied listed).1
  · intro other listed
    rw [pool]
    rcases grows other listed with before | rfl
    · exact books.pool_ne other before
    · exact (supplied listed).2.1
  · intro thread mem
    rcases created.alive life mem with rfl | ⟨before, same⟩
    · have isStack : (world'.thread thread).stack = stack := created.stack_eq
      exact isStack ▸ nonzero
    · rw [same]
      exact books.stack_ne thread before
  · intro thread mem listed
    rcases created.alive life mem with rfl | ⟨before, same⟩
    · have isProc : (world'.thread thread).proc = proc := created.proc_eq
      have isStack : (world'.thread thread).stack = stack := created.stack_eq
      rw [isProc] at listed ⊢
      rw [isStack, pi]
      exact (supplied listed).2.2
    · rw [same] at listed ⊢
      rw [pi]
      exact books.placed thread before (old thread before listed)
  · intro queue
    rw [created.msgs]
    unfold Lists.listInit
    dsimp only
    by_cases here : queue = .thread kthread
    · rw [here, Function.update_self]
    · rw [Function.update_of_ne here]
      exact books.silent queue

/-- A new thread holds its blocks. -/
theorem World.Balanced.created (balanced : world.Balanced obtained all procs)
    (created : Created world.kernel world'.kernel kthread stack prio proc)
    (life : world'.life = Function.update world.life kthread .living) (fresh : kthread ∉ all) :
    world'.Balanced ((if (world.kernel.processes proc).stackPool = 0 then [kthread, stack]
      else [kthread]) ++ obtained) (all ++ [kthread]) procs := by
  have pool := created.process Process.stackPool fun _ _ => rfl
  have threads : all.flatMap world'.threadBlocks = all.flatMap world.threadBlocks := by
    apply List.flatMap_congr
    intro thread mem
    have different : thread ≠ kthread := fun same => fresh (same ▸ mem)
    have same : world'.thread thread = world.thread thread := created.others thread different
    unfold World.threadBlocks
    rw [life, Function.update_of_ne different, same, pool]
  have blocks : world'.processBlocks = world.processBlocks := by
    funext other
    unfold World.processBlocks
    rw [created.process Process.pi fun _ _ => rfl]
  have new : world'.threadBlocks kthread =
      if (world.kernel.processes proc).stackPool = 0 then [kthread, stack] else [kthread] := by
    have isProc : (world'.thread kthread).proc = proc := created.proc_eq
    have isStack : (world'.thread kthread).stack = stack := created.stack_eq
    unfold World.threadBlocks
    rw [life, Function.update_self, isProc, isStack, pool]
    simp
  intro block
  have before := balanced block
  unfold World.held at before ⊢
  rw [List.flatMap_append, List.flatMap_singleton, threads, blocks, new, created.kfreed]
  simp only [List.count_append] at before ⊢
  omega

/-- A process that no thread belongs to is stored. -/
theorem World.Books.stored (books : world.Books image home procs) (notHome : proc ≠ home)
    (unlisted : proc ∉ procs)
    (unused : ∀ thread ∈ world.alive, (world.thread thread).proc ≠ proc) :
    (world.onKernel (Kernel.storeProcess proc pi stackPool)).Books image home procs := by
  have others : ∀ other, other ≠ proc →
      (world.kernel.storeProcess proc pi stackPool).processes other =
        world.kernel.processes other := fun other different => Function.update_of_ne different ..
  have listed : ∀ other ∈ procs, other ≠ proc := fun other mem same => unlisted (same ▸ mem)
  refine ⟨fun other notHome' notMem => ?_, ?_, ?_, fun other mem => ?_, fun other mem => ?_,
    books.stack_ne, fun thread mem inProcs => ?_, books.silent⟩
  · by_cases same : other = proc
    · have here : (world.kernel.storeProcess proc pi stackPool).processes proc =
          ⟨0, pi, pi, stackPool⟩ := Function.update_self ..
      exact same ▸ congrArg Process.thrCount here
    · exact (congrArg Process.thrCount (others other same)).trans
        (books.none other notHome' notMem)
  · exact (congrArg Process.start (others home notHome.symm)).trans books.start_home
  · exact (congrArg Process.stackPool (others home notHome.symm)).trans books.pool_home
  · change ((world.kernel.storeProcess proc pi stackPool).processes other).start =
      ((world.kernel.storeProcess proc pi stackPool).processes other).pi
    rw [others other (listed other mem)]
    exact books.start_eq other mem
  · change ((world.kernel.storeProcess proc pi stackPool).processes other).stackPool ≠ 0
    rw [others other (listed other mem)]
    exact books.pool_ne other mem
  · change (world.thread thread).stack ∈ image
      ((world.kernel.storeProcess proc pi stackPool).processes (world.thread thread).proc).pi
    rw [others _ (unused thread mem)]
    exact books.placed thread mem inProcs

theorem World.Balanced.stored (balanced : world.Balanced obtained all procs)
    (unlisted : proc ∉ procs)
    (unused : ∀ thread ∈ world.alive, (world.thread thread).proc ≠ proc) :
    (world.onKernel (Kernel.storeProcess proc pi stackPool)).Balanced obtained all procs := by
  have others : ∀ other, other ≠ proc →
      (world.kernel.storeProcess proc pi stackPool).processes other =
        world.kernel.processes other := fun other different => Function.update_of_ne different ..
  have threads : (world.onKernel (Kernel.storeProcess proc pi stackPool)).threadBlocks =
      world.threadBlocks := by
    funext thread
    unfold World.threadBlocks
    change (if world.life thread = .living ∧ ((world.kernel.storeProcess proc pi
      stackPool).processes (world.thread thread).proc).stackPool = 0 then _ else _) = _
    by_cases living : world.life thread = .living
    · rw [others _ (unused thread living)]
      rfl
    · rw [if_neg fun both => living both.1, if_neg fun both => living both.1]
  have blocks : procs.flatMap
      (world.onKernel (Kernel.storeProcess proc pi stackPool)).processBlocks =
        procs.flatMap world.processBlocks := by
    apply List.flatMap_congr
    intro other mem
    unfold World.processBlocks
    change [other, ((world.kernel.storeProcess proc pi stackPool).processes other).pi] = _
    rw [others other fun same => unlisted (same ▸ mem)]
  unfold World.Balanced World.held
  rw [threads, blocks]
  exact balanced

theorem World.Balanced.listed (balanced : world.Balanced obtained all procs) (proc : Ptr) :
    (world.onKernel (Kernel.listProcess proc)).Balanced
      ([proc, (world.kernel.processes proc).pi] ++ obtained) all (procs ++ [proc]) := by
  intro block
  have before := balanced block
  change (_ : List Ptr).count block = world.kernel.kfreed.count block +
    (all.flatMap world.threadBlocks ++ (procs ++ [proc]).flatMap world.processBlocks).count block
  unfold World.held at before
  rw [List.flatMap_append, List.flatMap_singleton]
  unfold World.processBlocks at before ⊢
  simp only [List.count_append] at before ⊢
  omega

end Create

section Exit

variable {image : Ptr → Set Ptr} {home thread : Ptr} {obtained all procs : List Ptr}
  {world world' : World}

/-- The processes that are listed after the end of a thread. -/
def World.procsAfter (world : World) (thread : Ptr) (procs : List Ptr) : List Ptr :=
  if (world.kernel.processes (world.thread thread).proc).thrCount = 1 ∧
      (world.kernel.processes (world.thread thread).proc).pi ≠ 0 then
    procs.erase (world.thread thread).proc
  else procs

/-- The descriptors that are listed after the end of a thread. -/
def World.allAfter (world : World) (thread : Ptr) (all : List Ptr) : List Ptr :=
  if (world.thread thread).refCnt = 1 then all.erase thread else all

theorem World.SameHoldings.refCnt (same : world.SameHoldings world') (thread : Ptr) :
    (world'.thread thread).refCnt = (world.thread thread).refCnt :=
  congrArg (fun held : Ptr × Ptr × Int => held.2.2) (same.holdings thread)

/-- What a thread frees at its end depends on what it holds. -/
theorem World.SameHoldings.exit (same : world.SameHoldings world') (thread : Ptr)
    (all procs : List Ptr) :
    world'.kernel.exitFrees thread = world.kernel.exitFrees thread ∧
      world'.allAfter thread all = world.allAfter thread all ∧
      world'.procsAfter thread procs = world.procsAfter thread procs := by
  have refCnt : (world'.kernel.thread thread).refCnt = (world.kernel.thread thread).refCnt :=
    same.refCnt thread
  have proc : (world'.kernel.thread thread).proc = (world.kernel.thread thread).proc :=
    same.proc thread
  have stack : (world'.kernel.thread thread).stack = (world.kernel.thread thread).stack :=
    same.stack thread
  refine ⟨?_, ?_, ?_⟩
  · unfold Kernel.exitFrees
    dsimp only
    rw [refCnt, proc, stack, same.processes]
  · unfold World.allAfter World.thread
    rw [refCnt]
  · unfold World.procsAfter World.thread
    rw [proc, same.processes]

/-- The lists after the end of a thread. -/
theorem ThreadGone.lists (gone : ThreadGone world.kernel world'.kernel thread)
    (threads : world.kernel.allThreads.Linked fun _ => all) (mem : thread ∈ all)
    (processes : world.kernel.procs.Linked fun _ => procs)
    (member : (world.thread thread).proc = home ∨ (world.thread thread).proc ∈ procs)
    (pi_home : (world.kernel.processes home).pi = 0) :
    (world'.kernel.allThreads.Linked fun _ => world.allAfter thread all) ∧
      world'.kernel.procs.Linked fun _ => world.procsAfter thread procs := by
  rw [gone.allThreads, gone.procs]
  unfold World.allAfter World.procsAfter World.thread
  constructor
  · split
    · exact (threads.remove_single 0 mem).2
    · exact threads
  · split
    case isTrue last =>
      have listed := member.resolve_left fun isHome => last.2 (isHome ▸ pi_home)
      exact (processes.remove_single FIRST listed).2
    case isFalse => exact processes

theorem ThreadGone.process (gone : ThreadGone world.kernel world'.kernel thread) {α : Type}
    (field : Process → α)
    (same : ∀ process count, field { process with thrCount := count } = field process)
    (other : Ptr) :
    field (world'.kernel.processes other) = field (world.kernel.processes other) := by
  rw [gone.processes]
  by_cases here : other = (world.kernel.thread thread).proc
  · rw [here, Function.update_self, same]
  · rw [Function.update_of_ne here]

theorem ThreadGone.stack (gone : ThreadGone world.kernel world'.kernel thread) {other : Ptr}
    (different : other ≠ thread) : (world'.thread other).stack = (world.thread other).stack :=
  congrArg Prod.fst (gone.others other different)

theorem ThreadGone.proc_other (gone : ThreadGone world.kernel world'.kernel thread) {other : Ptr}
    (different : other ≠ thread) : (world'.thread other).proc = (world.thread other).proc :=
  congrArg (fun held : Ptr × Ptr × Int => held.2.1) (gone.others other different)

/-- The record of a thread that has ended. -/
def World.EndsLife (world world' : World) (thread : Ptr) : Prop :=
  ∃ life, life ≠ .living ∧ world'.life = Function.update world.life thread life

theorem World.EndsLife.alive (ends : world.EndsLife world' thread) {other : Ptr}
    (mem : other ∈ world'.alive) : other ≠ thread ∧ other ∈ world.alive := by
  obtain ⟨life, notLiving, isLife⟩ := ends
  unfold World.alive at mem ⊢
  rw [isLife] at mem
  by_cases same : other = thread
  · have living : life = .living := by simpa [same] using mem
    exact absurd living notLiving
  · exact ⟨same, by simpa [same] using mem⟩

/-- The books after the end of a thread. -/
theorem World.Books.gone (books : world.Books image home procs)
    (gone : ThreadGone world.kernel world'.kernel thread) (ends : world.EndsLife world' thread)
    (member : (world.thread thread).proc = home ∨ (world.thread thread).proc ∈ procs) :
    world'.Books image home (world.procsAfter thread procs) := by
  have pi := gone.process Process.pi fun _ _ => rfl
  have start := gone.process Process.start fun _ _ => rfl
  have pool := gone.process Process.stackPool fun _ _ => rfl
  have before : ∀ other ∈ world.procsAfter thread procs, other ∈ procs := by
    intro other mem
    unfold World.procsAfter at mem
    split at mem
    · exact List.mem_of_mem_erase mem
    · exact mem
  refine ⟨fun other notHome unlisted => ?_, (start home).trans books.start_home,
    (pool home).trans books.pool_home, fun other mem => ?_, fun other mem => ?_,
    fun other mem => ?_, fun other mem listed => ?_, ?_⟩
  · rw [gone.processes]
    by_cases same : other = (world.thread thread).proc
    · -- an unlisted process of the thread has lost its last thread
      have here : other = (world.kernel.thread thread).proc := same
      rw [here, Function.update_self]
      have mem : other ∈ procs := same ▸ member.resolve_left (same ▸ notHome)
      unfold World.procsAfter at unlisted
      split at unlisted
      case isTrue last => exact here ▸ sub_eq_zero.mpr (same ▸ last.1)
      case isFalse => exact absurd mem unlisted
    · have elsewhere : other ≠ (world.kernel.thread thread).proc := same
      rw [Function.update_of_ne elsewhere]
      apply books.none other notHome
      intro mem
      apply unlisted
      unfold World.procsAfter
      split
      · exact (List.mem_erase_of_ne same).mpr mem
      · exact mem
  · rw [start, pi]
    exact books.start_eq other (before other mem)
  · rw [pool]
    exact books.pool_ne other (before other mem)
  · obtain ⟨different, old⟩ := ends.alive mem
    rw [gone.stack different]
    exact books.stack_ne other old
  · obtain ⟨different, old⟩ := ends.alive mem
    rw [gone.proc_other different] at listed ⊢
    rw [gone.stack different, pi]
    exact books.placed other old (before _ listed)
  · rw [gone.msgs]
    exact books.silent

/-- The end of a thread frees what it held, and what its process held if it was the last
thread. -/
theorem World.Balanced.gone (balanced : world.Balanced obtained all procs)
    (books : world.Books image home procs)
    (gone : ThreadGone world.kernel world'.kernel thread) (ends : world.EndsLife world' thread)
    (living : thread ∈ world.alive) (mem : thread ∈ all) (nodup : all.Nodup)
    (member : (world.thread thread).proc = home ∨ (world.thread thread).proc ∈ procs)
    (pi_ne : ∀ proc ∈ procs, (world.kernel.processes proc).pi ≠ 0)
    (pi_home : (world.kernel.processes home).pi = 0) :
    world'.Balanced obtained (world.allAfter thread all) (world.procsAfter thread procs) := by
  obtain ⟨life, notLiving, isLife⟩ := ends
  have pool := gone.process Process.stackPool fun _ _ => rfl
  have blocks : world'.processBlocks = world.processBlocks := by
    funext proc
    unfold World.processBlocks
    rw [gone.process Process.pi fun _ _ => rfl]
  have rest : (all.erase thread).flatMap world'.threadBlocks =
      (all.erase thread).flatMap world.threadBlocks := by
    apply List.flatMap_congr
    intro other inRest
    have different : other ≠ thread := (nodup.mem_erase_iff.mp inRest).1
    unfold World.threadBlocks
    rw [isLife, Function.update_of_ne different, gone.proc_other different,
      gone.stack different, pool]
  have ended : world'.threadBlocks thread = [thread] := by
    unfold World.threadBlocks
    rw [isLife, Function.update_self, if_neg fun both => notLiving both.1]
  -- the stack is from `kmalloc` exactly if the process is that of the kernel
  have held : world.threadBlocks thread = thread ::
      (if (world.thread thread).stack ≠ 0 ∧
        (world.kernel.processes (world.thread thread).proc).start = 0 then
          [(world.thread thread).stack] else []) := by
    have isLiving : world.life thread = .living := living
    have nonzero := books.stack_ne thread living
    unfold World.threadBlocks
    rcases member with isHome | listed
    · simp [isLiving, nonzero, isHome, books.start_home, books.pool_home]
    · simp [isLiving, nonzero, books.start_eq _ listed, pi_ne _ listed, books.pool_ne _ listed]
  intro block
  have before := balanced block
  have threadPart : (all.flatMap world.threadBlocks).count block =
      (world.threadBlocks thread).count block +
        ((all.erase thread).flatMap world.threadBlocks).count block := by
    rw [((List.perm_cons_erase mem).flatMap_right _).count_eq, List.flatMap_cons,
      List.count_append]
  have threadPart' : (all.flatMap world'.threadBlocks).count block =
      [thread].count block + ((all.erase thread).flatMap world.threadBlocks).count block := by
    rw [((List.perm_cons_erase mem).flatMap_right _).count_eq, List.flatMap_cons,
      List.count_append, ended, rest]
  have procPart : (world.thread thread).proc ∈ procs →
      (procs.flatMap world.processBlocks).count block =
        (world.processBlocks (world.thread thread).proc).count block +
          ((procs.erase (world.thread thread).proc).flatMap world.processBlocks).count block := by
    intro listed
    rw [((List.perm_cons_erase listed).flatMap_right _).count_eq, List.flatMap_cons,
      List.count_append]
  have allPart : ((world.allAfter thread all).flatMap world'.threadBlocks).count block +
      (if (world.thread thread).refCnt = 1 then [thread] else []).count block =
        [thread].count block + ((all.erase thread).flatMap world.threadBlocks).count block := by
    unfold World.allAfter
    split
    · rw [rest]
      omega
    · rw [threadPart']
      simp
  have procsPart : ((world.procsAfter thread procs).flatMap world.processBlocks).count block +
      (if (world.kernel.processes (world.thread thread).proc).thrCount = 1 ∧
          (world.kernel.processes (world.thread thread).proc).pi ≠ 0 then
        world.processBlocks (world.thread thread).proc else []).count block =
          (procs.flatMap world.processBlocks).count block := by
    unfold World.procsAfter
    split
    case isTrue last =>
      rw [procPart (member.resolve_left fun isHome => last.2 (isHome ▸ pi_home))]
      omega
    case isFalse => simp
  have freed : world'.kernel.kfreed = world.kernel.exitFrees thread ++ world.kernel.kfreed :=
    gone.kfreed
  unfold World.held at before ⊢
  rw [freed, blocks]
  unfold Kernel.exitFrees
  change _ = (((if (world.thread thread).refCnt = 1 then [thread] else []) ++
    (if (world.kernel.processes (world.thread thread).proc).thrCount = 1 ∧
        (world.kernel.processes (world.thread thread).proc).pi ≠ 0 then
      world.processBlocks (world.thread thread).proc else []) ++
    (if (world.thread thread).stack ≠ 0 ∧
        (world.kernel.processes (world.thread thread).proc).start = 0 then
      [(world.thread thread).stack] else [])) ++ world.kernel.kfreed).count block + _
  rw [held, ← List.singleton_append] at threadPart
  simp only [List.count_append] at before threadPart ⊢
  omega

end Exit

section Runs

/-- The kernel, and the blocks that it has obtained from `kmalloc` for threads and
processes. -/
structure Audit where
  alarms : Alarms World
  obtained : List Ptr

/-- Programs are started, and threads are created and end by themselves. -/
def Entry.Lifetime : Entry → Prop
  | .createThread .. => True
  | .startProgram .. => True
  | .threadExit _ => True
  | .timerInterrupt => True
  | _ => False

/-- The blocks that an entry obtains: `kthread_create` takes the stack from the pool of the
process, if it has one. -/
def Entry.obtains (alarms : Alarms World) : Entry → List Ptr
  | .createThread _ _ stack kthread =>
      if (alarms.world.kernel.processes
          (alarms.world.thread alarms.world.activeThread).proc).stackPool = 0 then
        [kthread, stack]
      else [kthread]
  | .startProgram proc pi _ _ kthread _ => [proc, pi, kthread]
  | _ => []

/-- The blocks that an entry frees, the last one first. -/
def Entry.frees (alarms : Alarms World) : Entry → List Ptr
  | .threadExit _ => alarms.world.kernel.exitFrees alarms.world.activeThread
  | _ => []

/-- The pool of a process is in its image, and so are the stacks from the pool. -/
def Entry.Supplied (image : Ptr → Set Ptr) (alarms : Alarms World) : Entry → Prop
  | .createThread _ _ stack _ =>
      let proc := alarms.world.kernel.processes
        (alarms.world.thread alarms.world.activeThread).proc
      proc.stackPool ≠ 0 → stack ∈ image proc.pi
  | .startProgram _ pi stackPool stack _ _ => stackPool ≠ 0 ∧ stack ∈ image pi
  | _ => True

/-- One entry in the lifetime of threads and processes. -/
structure Entry.Lives (image : Ptr → Set Ptr) (idle : Ptr) (alarms : Alarms World)
    (entry : Entry) : Prop where
  lifetime : entry.Lifetime
  valid : entry.Valid idle alarms
  supplied : entry.Supplied image alarms

/-- A step of the kernel, and of the record of blocks. -/
def AuditStep (image : Ptr → Set Ptr) (threshold : Time) (idle : Ptr) (audit audit' : Audit) :
    Prop :=
  ∃ fuel entry, entry.Lives image idle audit.alarms ∧
    World.enter threshold fuel entry audit.alarms = .ok audit'.alarms ∧
    audit'.obtained = entry.obtains audit.alarms ++ audit.obtained

/-- The processes outside the kernel: the numbers of their threads, the list `procs`, where
the threads are, and the blocks that were obtained and freed. -/
structure Audit.Tenancy (image : Ptr → Set Ptr) (idle : Ptr) (audit : Audit) (all procs : List Ptr) :
    Prop where
  threads : audit.alarms.world.kernel.allThreads.Linked fun _ => all
  processes : audit.alarms.world.kernel.procs.Linked fun _ => procs
  count : ∀ proc, (audit.alarms.world.kernel.processes proc).thrCount =
    (audit.alarms.world.kernel.threadsOf audit.alarms.world.alive proc).ncard
  users : ∀ proc, proc ∈ procs ↔ proc ≠ (audit.alarms.world.thread idle).proc ∧
    0 < (audit.alarms.world.kernel.processes proc).thrCount
  placed : ∀ thread ∈ audit.alarms.world.alive,
    let descriptor := audit.alarms.world.thread thread
    let proc := audit.alarms.world.kernel.processes descriptor.proc
    descriptor.proc = (audit.alarms.world.thread idle).proc ∨
      descriptor.proc ∈ procs ∧ proc.start = proc.pi ∧ descriptor.stack ∈ image proc.pi
  balanced : audit.alarms.world.Balanced audit.obtained all procs

/-- The invariant of the run. -/
structure Audited (image : Ptr → Set Ptr) (idle rrAlarm : Ptr) (audit : Audit)
    (all procs : List Ptr) : Prop where
  outside : Outside idle rrAlarm ∅ False False audit.alarms
  ownerless : audit.alarms.Ownerless
  threads : audit.alarms.world.kernel.allThreads.Linked fun _ => all
  processes : audit.alarms.world.kernel.procs.Linked fun _ => procs
  books : audit.alarms.world.Books image (audit.alarms.world.thread idle).proc procs
  balanced : audit.alarms.world.Balanced audit.obtained all procs

variable {image : Ptr → Set Ptr} {idle rrAlarm : Ptr} {audit audit' : Audit}
  {all procs : List Ptr} {threshold : Time} {alarms alarms' : Alarms World} {fuel : Nat}
  {entry : Entry}

theorem Audited.accounts (audited : Audited image idle rrAlarm audit all procs) :
    ∃ waits members, Threads idle waits audit.alarms.world members all ∧
      Accounted audit.alarms.world.kernel (audit.alarms.world.thread idle).proc
        audit.alarms.world.alive procs ∧
      Running audit.alarms.world.kernel.sched audit.alarms.world.alive := by
  obtain ⟨live, members, all', kept, running⟩ := audited.outside
  have threads := kept.threads
  obtain ⟨procs', accounted⟩ := threads.ledger.accounted
  have sameAll : all' = all := threads.ledger.listed.unique audited.threads ()
  have sameProcs : procs' = procs := accounted.linked.unique audited.processes ()
  subst sameAll sameProcs
  exact ⟨_, members, threads, accounted, running⟩

/-- The invariant describes the processes. -/
theorem Audited.tenancy (audited : Audited image idle rrAlarm audit all procs) :
    audit.Tenancy image idle all procs := by
  obtain ⟨waits, members, threads, accounted, running⟩ := audited.accounts
  have empty : ∀ proc, proc ≠ (audit.alarms.world.thread idle).proc → proc ∉ procs →
      audit.alarms.world.kernel.threadsOf audit.alarms.world.alive proc = ∅ := by
    intro proc notHome unlisted
    rw [Set.eq_empty_iff_forall_notMem]
    rintro thread ⟨mem, rfl⟩
    exact (accounted.member thread mem).elim notHome unlisted
  have finite := threads.ledger.toRoster.finite
  refine ⟨audited.threads, audited.processes, fun proc => ?_, fun proc => ⟨fun listed => ?_, ?_⟩,
    fun thread mem => ?_, audited.balanced⟩
  · by_cases known : proc = (audit.alarms.world.thread idle).proc ∨ proc ∈ procs
    · exact accounted.count proc known
    · obtain ⟨notHome, unlisted⟩ := not_or.mp known
      rw [empty proc notHome unlisted, Set.ncard_empty,
        audited.books.none proc notHome unlisted]
      rfl
  · refine ⟨fun isHome => accounted.pi_ne proc listed (isHome ▸ accounted.home_pi), ?_⟩
    obtain ⟨thread, mem, isProc⟩ := accounted.inhabited proc listed
    have here : thread ∈ audit.alarms.world.kernel.threadsOf audit.alarms.world.alive proc :=
      ⟨mem, isProc⟩
    rw [accounted.count proc (.inr listed)]
    exact Int.natCast_pos.mpr ((Set.ncard_pos (finite.subset fun _ inside => inside.1)).mpr
      ⟨thread, here⟩)
  · rintro ⟨notHome, positive⟩
    by_contra unlisted
    rw [audited.books.none proc notHome unlisted] at positive
    exact lt_irrefl _ positive
  · refine (accounted.member thread mem).imp id fun listed => ⟨listed, ?_, ?_⟩
    · exact audited.books.start_eq _ listed
    · exact audited.books.placed thread mem listed

/-- The invariant looks at what the scheduler leaves as it is. -/
theorem Audited.of_world {home : Ptr} {obtained : List Ptr} {world : World}
    (outside : Outside idle rrAlarm ∅ False False alarms) (ownerless : alarms.Ownerless)
    (same : world.SameHoldings alarms.world)
    (threads : world.kernel.allThreads.Linked fun _ => all)
    (processes : world.kernel.procs.Linked fun _ => procs)
    (isHome : (world.thread idle).proc = home) (books : world.Books image home procs)
    (balanced : world.Balanced obtained all procs) :
    Audited image idle rrAlarm ⟨alarms, obtained⟩ all procs where
  outside := outside
  ownerless := ownerless
  threads := by
    rw [same.kernel]
    exact threads
  processes := by
    rw [same.kernel]
    exact processes
  books := by
    have books' := books.congr same
    rw [← isHome, ← same.proc] at books'
    exact books'
  balanced := balanced.congr same

/-- No alarm keeps a thread from its end. -/
theorem Audited.careful (audited : Audited image idle rrAlarm audit all procs)
    (lives : entry.Lives image idle audit.alarms) :
    entry.Careful threshold idle ∅ False audit.alarms := by
  obtain ⟨waits, members, threads, accounted, running⟩ := audited.accounts
  have nonzero : audit.alarms.world.activeThread ≠ 0 :=
    (threads.sound.pointer _ running.mem_alive).1.ne'
  obtain ⟨lifetime, valid, -⟩ := lives
  refine ⟨valid, ?_, ?_, ?_, ?_, fun notEmpty => absurd rfl notEmpty⟩
  · cases entry <;> trivial
  · cases entry <;> trivial
  · cases entry with
    | threadExit status =>
        intro id _ _ isOwner
        exact nonzero (isOwner.symm.trans (audited.ownerless id))
    | _ => trivial
  · cases entry <;> trivial

/-- What `kthread_create` has done when it succeeds. -/
theorem Threads.kthreadCreate_created {waits : Set Ptr} {members : Members}
    {policy : SchedPolicy} {prio : Int} {stack kthread proc : Ptr} {world world' : World}
    (threads : Threads idle waits world members all)
    (creates : world.kthreadCreate policy prio stack kthread proc = .ok world') :
    kthread ∉ all ∧ kthread ≠ 0 ∧ stack ≠ 0 ∧
      Created world.kernel world'.kernel kthread stack (Kernel.clampPrio prio) proc ∧
      world'.life = Function.update world.life kthread .living := by
  obtain ⟨fresh, pointer, -, isWorld⟩ :=
    Threads.kthreadCreate_cases threads.ledger.toRoster threads.listed creates
  obtain ⟨kernel, life, -⟩ := @World.kschedThreadAdd_same { world with
    kernel := world.kernel.numbered.created stack kthread prio proc
    life := Function.update world.life kthread .living } policy kthread
  rw [← isWorld] at kernel life
  refine ⟨fresh, pointer.1.ne', ?_, kernel ▸ Kernel.created_spec prio, life⟩
  rintro rfl
  unfold World.kthreadCreate at creates
  split_ifs at creates
  obtain ⟨_, result, -⟩ := map_ok creates
  unfold Kernel.kthreadCreate at result
  rw [if_pos (.inl rfl)] at result
  cases result

/-- A thread is created in the process of the active thread. -/
theorem Audited.createThread {policy prio : Int} {stack kthread : Ptr}
    (audited : Audited image idle rrAlarm audit all procs)
    (supplied : Entry.Supplied image audit.alarms (.createThread policy prio stack kthread))
    (outside : Outside idle rrAlarm ∅ False False alarms')
    (enters : World.enter threshold fuel (.createThread policy prio stack kthread) audit.alarms =
      .ok alarms') :
    Audited image idle rrAlarm ⟨alarms', Entry.obtains audit.alarms
      (.createThread policy prio stack kthread) ++ audit.obtained⟩ (all ++ [kthread]) procs ∧
      alarms'.world.kernel.kfreed = audit.alarms.world.kernel.kfreed := by
  obtain ⟨waits, members, threads, accounted, running⟩ := audited.accounts
  obtain ⟨ownerless, policy', world, creates, same⟩ := enter_createThread audited.ownerless enters
  obtain ⟨fresh, pointer, nonzero, created, life⟩ := threads.kthreadCreate_created creates
  generalize isProc : (audit.alarms.world.thread audit.alarms.world.activeThread).proc = proc
    at created
  have known := accounted.member _ running.mem_alive
  change (audit.alarms.world.thread audit.alarms.world.activeThread).proc = _ ∨
    (audit.alarms.world.thread audit.alarms.world.activeThread).proc ∈ _ at known
  rw [isProc] at known
  have place : proc ∈ procs →
      (audit.alarms.world.kernel.processes proc).start =
        (audit.alarms.world.kernel.processes proc).pi ∧
      (audit.alarms.world.kernel.processes proc).stackPool ≠ 0 ∧
      stack ∈ image (audit.alarms.world.kernel.processes proc).pi := by
    intro listed
    have pool := audited.books.pool_ne proc listed
    refine ⟨audited.books.start_eq proc listed, pool, ?_⟩
    have inImage := supplied
    unfold Entry.Supplied at inImage
    dsimp only at inImage
    rw [isProc] at inImage
    exact inImage pool
  have books := audited.books.created created life known nonzero (List.Subset.refl _)
    (fun _ listed => .inl listed) (fun _ _ listed => listed) place
  have balanced := audited.balanced.created created life fresh
  have notNew : idle ≠ kthread := fun isNew =>
    fresh (isNew ▸ threads.ledger.alive_listed idle threads.ledger.idle_mem)
  have isHome : (world.thread idle).proc = (audit.alarms.world.thread idle).proc :=
    congrArg (fun descriptor : Thread => descriptor.proc) (created.others idle notNew)
  have linked : world.kernel.allThreads.Linked fun _ => all ++ [kthread] := by
    rw [created.allThreads]
    exact audited.threads.append_single pointer fresh
  have processes : world.kernel.procs.Linked fun _ => procs := by
    rw [created.procs]
    exact audited.processes
  constructor
  · have obtains : Entry.obtains audit.alarms (.createThread policy prio stack kthread) =
        if (audit.alarms.world.kernel.processes proc).stackPool = 0 then [kthread, stack]
        else [kthread] := by
      unfold Entry.obtains
      dsimp only
      rw [isProc]
    rw [obtains]
    exact .of_world outside ownerless same linked processes isHome books balanced
  · rw [same.kernel]
    exact created.kfreed

/-- A process is started. -/
theorem Audited.startProgram {proc pi stackPool stack kthread : Ptr} {prio : Int}
    (audited : Audited image idle rrAlarm audit all procs)
    (new : audit.alarms.world.NewProcess proc pi)
    (supplied : stackPool ≠ 0 ∧ stack ∈ image pi)
    (outside : Outside idle rrAlarm ∅ False False alarms')
    (enters : World.enter threshold fuel
      (.startProgram proc pi stackPool stack kthread prio) audit.alarms = .ok alarms') :
    Audited image idle rrAlarm ⟨alarms', [proc, pi, kthread] ++ audit.obtained⟩
      (all ++ [kthread]) (procs ++ [proc]) ∧
      alarms'.world.kernel.kfreed = audit.alarms.world.kernel.kfreed := by
  obtain ⟨waits, members, threads, accounted, running⟩ := audited.accounts
  obtain ⟨ownerless, world, starts, same⟩ := enter_startProgram audited.ownerless enters
  obtain ⟨middle, creates, rfl⟩ := map_ok starts
  have notHome : proc ≠ (audit.alarms.world.thread idle).proc := fun isHome =>
    new.unused idle threads.ledger.idle_mem isHome.symm
  have unlisted : proc ∉ procs := by
    intro listed
    obtain ⟨thread, mem, isProc⟩ := accounted.inhabited proc listed
    exact new.unused thread mem isProc
  have notes : audit.alarms.world.SameHoldings
      (audit.alarms.world.onKernel (Kernel.setErrno SUCCESS)) := .activeThread_setErrno SUCCESS
  have noted : Threads idle waits (audit.alarms.world.onKernel (Kernel.setErrno SUCCESS)) members
      all := threads.setThread rfl rfl rfl rfl rfl le_rfl
  generalize audit.alarms.world.onKernel (Kernel.setErrno SUCCESS) = before at *
  have unused : ∀ thread ∈ before.alive, (before.thread thread).proc ≠ proc := by
    intro thread mem
    rw [notes.proc]
    exact new.unused thread (notes.alive ▸ mem)
  -- the process is stored, and is not listed yet when its thread is created
  have storedThreads := noted.storeProcess pi stackPool unused
  have storedBooks : (before.onKernel (Kernel.storeProcess proc pi stackPool)).Books image
      (audit.alarms.world.thread idle).proc procs :=
    (audited.books.congr notes).stored notHome unlisted unused
  have storedBalance : (before.onKernel (Kernel.storeProcess proc pi stackPool)).Balanced
      audit.obtained all procs := (audited.balanced.congr notes).stored unlisted unused
  have process : (before.onKernel (Kernel.storeProcess proc pi stackPool)).kernel.processes proc =
      ⟨0, pi, pi, stackPool⟩ := Function.update_self ..
  have storedHome : ((before.onKernel (Kernel.storeProcess proc pi stackPool)).thread idle).proc =
      (audit.alarms.world.thread idle).proc := notes.proc idle
  have storedAlive : ∀ thread ∈ (before.onKernel
      (Kernel.storeProcess proc pi stackPool)).alive,
      ((before.onKernel (Kernel.storeProcess proc pi stackPool)).thread thread).proc ≠ proc :=
    unused
  have storedLists : (before.onKernel
      (Kernel.storeProcess proc pi stackPool)).kernel.allThreads =
        audit.alarms.world.kernel.allThreads ∧
      (before.onKernel (Kernel.storeProcess proc pi stackPool)).kernel.procs =
        audit.alarms.world.kernel.procs ∧
      (before.onKernel (Kernel.storeProcess proc pi stackPool)).kernel.kfreed =
        audit.alarms.world.kernel.kfreed := by
    change before.kernel.allThreads = _ ∧ before.kernel.procs = _ ∧ before.kernel.kfreed = _
    rw [notes.kernel]
    exact ⟨rfl, rfl, rfl⟩
  generalize before.onKernel (Kernel.storeProcess proc pi stackPool) = stored at *
  obtain ⟨fresh, pointer, nonzero, created, life⟩ := storedThreads.kthreadCreate_created creates
  have notNew : idle ≠ kthread := fun isNew =>
    fresh (isNew ▸ threads.ledger.alive_listed idle threads.ledger.idle_mem)
  have isHome : (middle.thread idle).proc = (audit.alarms.world.thread idle).proc :=
    (congrArg (fun descriptor : Thread => descriptor.proc) (created.others idle notNew)).trans
      storedHome
  have books : middle.Books image (audit.alarms.world.thread idle).proc (procs ++ [proc]) := by
    apply storedBooks.created created life (.inr (List.mem_append_right _ (List.mem_singleton_self _)))
      nonzero (List.subset_append_left _ _)
    · intro other mem
      exact (List.mem_append.mp mem).imp id List.mem_singleton.mp
    · intro thread mem listed
      exact (List.mem_append.mp listed).resolve_right fun isProc =>
        storedAlive thread mem (List.mem_singleton.mp isProc)
    · intro _
      rw [process]
      exact ⟨rfl, supplied⟩
  have balanced := (storedBalance.created created life fresh).listed proc
  have middlePi : (middle.kernel.processes proc).pi = pi :=
    (created.process Process.pi (fun _ _ => rfl) proc).trans (congrArg Process.pi process)
  rw [process, if_neg supplied.1, middlePi] at balanced
  have linked : middle.kernel.allThreads.Linked fun _ => all ++ [kthread] := by
    rw [created.allThreads, storedLists.1]
    exact audited.threads.append_single pointer fresh
  have processes : (middle.kernel.procs.listAppend () proc).Linked fun _ => procs ++ [proc] := by
    rw [created.procs, storedLists.2.1]
    exact audited.processes.append_single new.nonzero unlisted
  have listedBooks : (middle.onKernel (Kernel.listProcess proc)).Books image
      (audit.alarms.world.thread idle).proc (procs ++ [proc]) := { books with }
  constructor
  · exact .of_world outside ownerless same linked processes isHome listedBooks balanced
  · rw [same.kernel]
    exact created.kfreed.trans storedLists.2.2

/-- The active thread ends. -/
theorem Audited.threadExit {status : Int} (audited : Audited image idle rrAlarm audit all procs)
    (notIdle : audit.alarms.world.activeThread ≠ idle)
    (outside : Outside idle rrAlarm ∅ False False alarms')
    (enters : World.enter threshold fuel (.threadExit status) audit.alarms = .ok alarms') :
    Audited image idle rrAlarm ⟨alarms', audit.obtained⟩
        (audit.alarms.world.allAfter audit.alarms.world.activeThread all)
        (audit.alarms.world.procsAfter audit.alarms.world.activeThread procs) ∧
      alarms'.world.kernel.kfreed =
        audit.alarms.world.kernel.exitFrees audit.alarms.world.activeThread ++
          audit.alarms.world.kernel.kfreed := by
  obtain ⟨waits, members, threads, accounted, running⟩ := audited.accounts
  obtain ⟨ownerless, world, ended, same⟩ :=
    enter_threadExit audited.ownerless running.active enters
  have living : audit.alarms.world.activeThread ∈ audit.alarms.world.alive := running.mem_alive
  generalize audit.alarms.world.activeThread = thread at *
  have dismisses : audit.alarms.world.SameHoldings (audit.alarms.world.dismiss thread) :=
    .setThread rfl
  have mem := threads.ledger.alive_listed thread living
  have nodup : all.Nodup := @Lists.Linked.nodup_members _ _ () _ audited.threads
  have member : ((audit.alarms.world.dismiss thread).thread thread).proc =
      (audit.alarms.world.thread idle).proc ∨
        ((audit.alarms.world.dismiss thread).thread thread).proc ∈ procs := by
    rw [dismisses.proc]
    exact accounted.member thread living
  have pi_ne : ∀ proc ∈ procs,
      ((audit.alarms.world.dismiss thread).kernel.processes proc).pi ≠ 0 := accounted.pi_ne
  have pi_home : ((audit.alarms.world.dismiss thread).kernel.processes
      (audit.alarms.world.thread idle).proc).pi = 0 := accounted.home_pi
  have books := audited.books.congr dismisses
  have balanced := audited.balanced.congr dismisses
  have linked : (audit.alarms.world.dismiss thread).kernel.allThreads.Linked fun _ => all :=
    audited.threads
  have processes : (audit.alarms.world.dismiss thread).kernel.procs.Linked fun _ => procs :=
    audited.processes
  have kfreed : (audit.alarms.world.dismiss thread).kernel.kfreed =
      audit.alarms.world.kernel.kfreed := rfl
  have dismissedHome := dismisses.proc idle
  have isLiving : thread ∈ (audit.alarms.world.dismiss thread).alive := living
  obtain ⟨frees, allAfter, procsAfter⟩ := dismisses.exit thread all procs
  rw [← frees, ← allAfter, ← procsAfter, ← kfreed]
  generalize audit.alarms.world.dismiss thread = before at *
  obtain ⟨kernel, result, isWorld⟩ := map_ok ended
  have isKernel : world.kernel = kernel := isWorld ▸ rfl
  have gone : ThreadGone before.kernel world.kernel thread :=
    isKernel ▸ Kernel.endAndRelease_effect (books.silent _) result
  have ends : before.EndsLife world thread := by
    refine ⟨if (kernel.thread thread).refCnt = 0 then .free else .ended, ?_, ?_⟩
    · split <;> decide
    · rw [← isWorld]
  obtain ⟨linked', processes'⟩ := gone.lists linked mem processes member pi_home
  have isHome : (world.thread idle).proc = (audit.alarms.world.thread idle).proc :=
    (gone.proc_other notIdle.symm).trans dismissedHome
  constructor
  · exact .of_world outside ownerless same linked' processes' isHome
      (books.gone gone ends member)
      (balanced.gone books gone ends isLiving mem nodup member pi_ne pi_home)
  · rw [same.kernel]
    exact gone.kfreed

/-- Each entry keeps the invariant, and frees what it should. -/
theorem Audited.enter (audited : Audited image idle rrAlarm audit all procs)
    (lives : entry.Lives image idle audit.alarms)
    (enters : World.enter threshold fuel entry audit.alarms = .ok alarms') :
    (∃ all' procs', Audited image idle rrAlarm
      ⟨alarms', entry.obtains audit.alarms ++ audit.obtained⟩ all' procs') ∧
      alarms'.world.kernel.kfreed =
        entry.frees audit.alarms ++ audit.alarms.world.kernel.kfreed := by
  have outside : Outside idle rrAlarm ∅ False False alarms' :=
    audited.outside.enter (audited.careful lives) False.elim enters
  obtain ⟨lifetime, valid, supplied⟩ := lives
  cases entry with
  | createThread policy prio stack kthread =>
      obtain ⟨audited', kfreed⟩ := audited.createThread supplied outside enters
      exact ⟨⟨_, _, audited'⟩, kfreed⟩
  | startProgram proc pi stackPool stack kthread prio =>
      obtain ⟨audited', kfreed⟩ := audited.startProgram valid supplied outside enters
      exact ⟨⟨_, _, audited'⟩, kfreed⟩
  | threadExit status =>
      obtain ⟨audited', kfreed⟩ := audited.threadExit valid outside enters
      exact ⟨⟨_, _, audited'⟩, kfreed⟩
  | timerInterrupt =>
      obtain ⟨ownerless, same⟩ := enter_timerInterrupt audited.ownerless enters
      constructor
      · exact ⟨all, procs, .of_world outside ownerless same audited.threads audited.processes rfl
          audited.books audited.balanced⟩
      · rw [same.kernel]
        rfl
  | _ => cases lifetime

/-- The idle thread and its stack are all that is held at the start. -/
theorem Started.audited {first : Alarms World} (started : Started threshold idle rrAlarm first) :
    Audited image idle rrAlarm ⟨first, [idle, (first.world.thread idle).stack]⟩ [idle] [] := by
  have outside : Outside idle rrAlarm ∅ False False first := started.outside
  obtain ⟨fuel, stack, kernelProc, initial, inits, started⟩ := started.initial
  obtain ⟨ran, runs, rfl⟩ := map_ok started
  rw [Prog.run_attempt] at runs
  obtain ⟨world, creates, runs⟩ := bind_ok runs
  have unowned : ({ World.clearRecord initial with world := world } : Alarms World).Ownerless :=
    inits.ownerless
  obtain ⟨ownerless, same⟩ := run_holdings unowned kthreadsSchedule_within runs
  obtain ⟨nonzero, pointer, isWorld⟩ := idle_created_world inits.kernel creates
  obtain ⟨kernel, life, -⟩ := @World.kschedThreadAdd_same { initial.world with
    kernel := (Kernel.started kernelProc).numbered.created stack idle 0 kernelProc
    life := Function.update initial.world.life idle .living } .fifo idle
  have isWorld' : world = ({ initial.world with
    kernel := (Kernel.started kernelProc).numbered.created stack idle 0 kernelProc
    life := Function.update initial.world.life idle .living } : World).kschedThreadAdd idle
      .fifo := isWorld
  rw [← isWorld'] at kernel life
  have created : Created initial.world.kernel world.kernel idle stack (Kernel.clampPrio 0)
      kernelProc := kernel ▸ inits.kernel ▸ Kernel.created_spec 0
  have processes : ∀ proc, initial.world.kernel.processes proc = ⟨0, 0, 0, 0⟩ := by
    intro proc
    rw [inits.kernel]
    change Function.update Kernel.boot.processes kernelProc ⟨0, 0, 0, 0⟩ proc = _
    by_cases same : proc = kernelProc
    · rw [same, Function.update_self]
    · rw [Function.update_of_ne same]
      rfl
  have noThreads : ∀ thread, thread ∉ initial.world.alive := by
    intro thread mem
    have living : initial.world.life thread = .living := mem
    rw [inits.free] at living
    cases living
  have books : initial.world.Books image kernelProc [] := by
    refine ⟨fun proc _ _ => ?_, ?_, ?_, fun _ mem => absurd mem List.not_mem_nil,
      fun _ mem => absurd mem List.not_mem_nil, fun thread mem => absurd mem (noThreads thread),
      fun thread mem => absurd mem (noThreads thread), fun queue => ?_⟩
    · rw [processes]
    · rw [processes]
    · rw [processes]
    · rw [inits.kernel]
      rfl
  have balanced : initial.world.Balanced [] [] [] := by
    intro block
    rw [inits.kernel]
    rfl
  have books' : world.Books image kernelProc [] := books.created created life (.inl rfl) nonzero
    (List.Subset.refl _) (fun _ mem => .inl mem) (fun thread mem => absurd mem (noThreads thread))
    fun mem => absurd mem List.not_mem_nil
  have balanced' := balanced.created created life List.not_mem_nil
  rw [processes, if_pos rfl] at balanced'
  have linked : world.kernel.allThreads.Linked fun _ => [idle] := by
    rw [created.allThreads, inits.kernel]
    exact Lists.Linked.init_single.append_single pointer.1.ne' List.not_mem_nil
  have listed : world.kernel.procs.Linked fun _ => [] := by
    rw [created.procs, inits.kernel]
    exact Lists.Linked.init_single
  have isStack : (ran.2.world.thread idle).stack = stack :=
    (same.stack idle).trans created.stack_eq
  rw [isStack]
  exact .of_world outside ownerless same linked listed created.proc_eq books' balanced'

/-- In every run in which threads are created and end by themselves, the processes are
accounted for: the number of threads of each is right, `procs` lists the processes of users
that have threads, each thread is in a process that is not freed, and each block is freed
once at most.  A further entry frees the image and the descriptor of a process exactly if the
last thread of the process ends. -/
theorem process_lifetime {first last : Audit} (started : Started threshold idle rrAlarm first.alarms)
    (initial : first.obtained = [idle, (first.alarms.world.thread idle).stack])
    (run : Relation.ReflTransGen (AuditStep image threshold idle) first last) :
    (∃ all procs, last.Tenancy image idle all procs) ∧
      ∀ fuel entry alarms', entry.Lives image idle last.alarms →
        World.enter threshold fuel entry last.alarms = .ok alarms' →
          alarms'.world.kernel.kfreed =
            entry.frees last.alarms ++ last.alarms.world.kernel.kfreed := by
  have audited : ∃ all procs, Audited image idle rrAlarm last all procs := by
    induction run with
    | refl =>
        have isFirst : first = ⟨first.alarms, [idle, (first.alarms.world.thread idle).stack]⟩ := by
          rw [← initial]
        rw [isFirst]
        exact ⟨_, _, started.audited⟩
    | @tail middle last _ step ih =>
        obtain ⟨all, procs, audited⟩ := ih
        obtain ⟨fuel, entry, lives, enters, obtains⟩ := step
        obtain ⟨alarms', obtained⟩ := last
        subst obtains
        exact (audited.enter lives enters).1
  obtain ⟨all, procs, audited⟩ := audited
  exact ⟨⟨all, procs, audited.tenancy⟩,
    fun fuel entry alarms' lives enters => (audited.enter lives enters).2⟩

/-- A program is started, its thread creates another one, and both end: the process is freed
with the second. -/
theorem process_lifetime_sample : ∃ image first last,
    Started ⟨0, 500⟩ 6000 4096 first.alarms ∧
      Relation.ReflTransGen (AuditStep image ⟨0, 500⟩ 6000) first last ∧
      last.alarms.world.kernel.kfreed = [20000, 10000, 10004, 21000] ∧
      (∃ all procs, last.Tenancy image 6000 all procs) := by
  have evaluated : (do
      let second ← sampleProgram
      let third ← World.enter ⟨0, 500⟩ 20 (.createThread 0 6 10020 21000) second
      let fourth ← World.enter ⟨0, 500⟩ 20 (.threadExit 0) third
      let fifth ← World.enter ⟨0, 500⟩ 20 (.threadExit 0) fourth
      return decide (
        (second.world.kernel.processes (second.world.thread second.world.activeThread).proc).pi =
          10004 ∧ third.world.activeThread ≠ 6000 ∧ fourth.world.activeThread ≠ 6000 ∧
        fifth.world.kernel.kfreed = [20000, 10000, 10004, 21000])) = Except.ok true := by
    decide +kernel
  obtain ⟨second, program, evaluated⟩ := bind_ok evaluated
  obtain ⟨third, creates, evaluated⟩ := bind_ok evaluated
  obtain ⟨fourth, exits, evaluated⟩ := bind_ok evaluated
  obtain ⟨fifth, exits', evaluated⟩ := bind_ok evaluated
  obtain ⟨isPi, notIdle, notIdle', freed⟩ := of_decide_eq_true (Except.ok.inj evaluated)
  obtain ⟨first, started, new, starts⟩ := sample_program program
  -- an image has a hundred bytes
  let image : Ptr → Set Ptr := fun pi => {address | pi ≤ address ∧ address < pi + 100}
  have inImage : ∀ stack, 10004 ≤ stack → stack < 10104 → stack ∈ image 10004 :=
    fun stack lower upper => ⟨lower, upper⟩
  let obtained : List Ptr := [6000, (first.world.thread 6000).stack]
  have supplied : Entry.Supplied image second (.createThread 0 6 10020 21000) := by
    intro _
    rw [isPi]
    exact inImage 10020 (by decide) (by decide)
  have one : AuditStep image ⟨0, 500⟩ 6000 ⟨first, obtained⟩ ⟨second, _⟩ :=
    ⟨20, .startProgram 10000 10004 10008 10012 20000 5,
      ⟨trivial, new, by decide, inImage 10012 (by decide) (by decide)⟩, starts, rfl⟩
  have two : ∀ obtained, AuditStep image ⟨0, 500⟩ 6000 ⟨second, obtained⟩
      ⟨third, Entry.obtains second (.createThread 0 6 10020 21000) ++ obtained⟩ := fun _ =>
    ⟨20, .createThread 0 6 10020 21000, ⟨trivial, trivial, supplied⟩, creates, rfl⟩
  have three : ∀ obtained,
      AuditStep image ⟨0, 500⟩ 6000 ⟨third, obtained⟩ ⟨fourth, obtained⟩ := fun _ =>
    ⟨20, .threadExit 0, ⟨trivial, notIdle, trivial⟩, exits, rfl⟩
  have four : ∀ obtained,
      AuditStep image ⟨0, 500⟩ 6000 ⟨fourth, obtained⟩ ⟨fifth, obtained⟩ := fun _ =>
    ⟨20, .threadExit 0, ⟨trivial, notIdle', trivial⟩, exits', rfl⟩
  have run := (((Relation.ReflTransGen.single one).tail (two _)).tail (three _)).tail (four _)
  exact ⟨image, ⟨first, obtained⟩, ⟨fifth, _⟩, started, run, freed,
    (process_lifetime started rfl run).1⟩

end Runs

end Oseer
