import Mathlib.Data.Set.Insert
import Mathlib.Logic.Relation
import Oseer.UserThreads

/-!
# Runs of user threads

In every run in which the threads leave the stacks of each other alone, a thread goes on with the
registers and the stack that it had, and the threads take turns.
-/

namespace Oseer

open LinkedRing TakingTurns

namespace Uthreads

/-- The threads with the stacks of those alive, the processor as each of them left it, and the
number of switches so far. -/
structure Run where
  state : Uthreads
  live : Set Ptr
  low : Ptr → Nat
  high : Ptr → Nat
  saved : Ptr → Cpu
  switches : Nat

/-- The stacks of the other threads keep their contents. -/
def Run.Spares (run : Run) (memory : Nat → Nat) : Prop :=
  ∀ thread ∈ run.live, thread ≠ run.state.self → ∀ address, run.low thread ≤ address →
    address < run.high thread → memory address = run.state.cpu.memory address

/-- The registers with which a new thread begins: `uthread_exit` is its return address. -/
def begins (layout : Layout) (stack func : Nat) (memory : Nat → Nat) : Cpu :=
  ⟨⟨stack + layout.THREAD_STACK_SIZE - 8, memory⟩, 0, 0, 0, 0, 0, 0, 0, INIT_EFLAGS, func⟩

/-- The thread that runs computes on its own stack, or calls one of the functions; the main thread
does not exit, and `malloc` returns memory that no thread has for its stack. -/
inductive RunStep (layout : Layout) (main : Ptr) : Run → Run → Prop
  | compute {run : Run} (cpu : Cpu) (room : run.low run.state.self + 40 ≤ cpu.esp)
      (inside : cpu.esp ≤ run.high run.state.self) (spares : run.Spares cpu.memory) :
      RunStep layout main run { run with state := { run.state with cpu := cpu } }
  | create {run : Run} {state : Uthreads} (thread : Ptr) (stack : Nat) (memory : Nat → Nat)
      (func param : Nat) (fresh : thread ∉ run.live) (spares : run.Spares memory)
      (apart : ∀ other ∈ run.live,
        run.high other ≤ stack ∨ stack + layout.THREAD_STACK_SIZE ≤ run.low other)
      (result : run.state.create layout thread stack memory func param = some state) :
      RunStep layout main run { run with
        state := state
        live := insert thread run.live
        low := Function.update run.low thread stack
        high := Function.update run.high thread (stack + layout.THREAD_STACK_SIZE)
        saved := Function.update run.saved thread (begins layout stack func state.cpu.memory) }
  | yield {run : Run} {state : Uthreads} (result : run.state.yield layout = some state) :
      RunStep layout main run { run with
        state := state
        saved := Function.update run.saved run.state.self
          { run.state.cpu with eip := layout.resume }
        switches := run.switches + 1 }
  | exit {run : Run} {state : Uthreads} (memory : Nat → Nat) (notMain : run.state.self ≠ main)
      (spares : run.Spares memory) (result : run.state.exit layout memory = some state) :
      RunStep layout main run { run with
        state := state
        live := run.live \ {run.state.self}
        switches := run.switches + 1 }

/-- The members of the lists. -/
def rows (current : Ptr) (queue : List Ptr) : UthreadList → List Ptr
  | .active => [current]
  | .ready => queue

/-- What holds in every state. -/
structure Kept (main : Ptr) (run : Run) (current : Ptr) (queue : List Ptr) : Prop where
  linked : run.state.lists.Linked (rows current queue)
  live : ∀ thread, thread ∈ run.live ↔ thread = current ∨ thread ∈ queue
  main : main = current ∨ main ∈ queue
  apart : ∀ thread ∈ run.live, ∀ other ∈ run.live, thread ≠ other →
    run.high thread ≤ run.low other ∨ run.high other ≤ run.low thread
  room : run.low current + 40 ≤ run.state.cpu.esp
  inside : run.state.cpu.esp ≤ run.high current
  frames : ∀ thread ∈ queue, run.low thread ≤ run.state.context thread ∧
    run.state.context thread + 40 ≤ run.high thread ∧
    Frame run.state.cpu.memory (run.high thread) (run.state.context thread) (run.saved thread)

variable {layout : Layout} {main current next thread : Ptr} {queue rest : List Ptr} {run run' : Run}
  {threads : Uthreads} {memory : Nat → Nat}

section Lists

theorem rows_ready : Function.update (rows current queue) .ready rest = rows current rest := by
  funext list
  cases list <;> rfl

theorem rows_active (entries : List Ptr) :
    Function.update (Function.update (rows current queue) .active entries) .ready rest =
      Function.update (rows current rest) .active entries := by
  funext list
  cases list <;> rfl

theorem rows_next (entries : List Ptr) :
    Function.update (Function.update (rows current queue) .active entries) .active [next] =
      rows next queue := by
  funext list
  cases list <;> rfl

theorem linked_self (linked : threads.lists.Linked (rows current queue)) :
    threads.self = current := by
  unfold self
  rw [linked.listGet_first]
  rfl

theorem linked_fresh (linked : threads.lists.Linked (rows current queue)) :
    current ≠ 0 ∧ current ∉ queue ∧ queue.Nodup := by
  have mem : current ∈ rows current queue .active := List.mem_singleton_self current
  have nodup : (rows current queue .ready).Nodup := linked.nodup_members
  refine ⟨linked.ne_zero mem, fun waits => ?_, nodup⟩
  have same := linked.apart .active .ready current mem waits
  cases same

/-- The thread that runs is taken off its list. -/
theorem linked_remove (linked : threads.lists.Linked (rows current queue)) :
    (threads.lists.listRemove .active FIRST 0).1 = current ∧
      (threads.lists.listRemove .active FIRST 0).2.Linked
        (Function.update (rows current queue) .active []) := by
  have shape : rows current queue .active = [] ++ current :: [] := rfl
  rw [linked.listRemove_first shape]
  exact linked.remove FIRST shape

/-- The first ready thread is put in the place of the one that ran. -/
theorem linked_switch {lists : Lists UthreadList}
    (linked : lists.Linked (Function.update (rows current queue) .active []))
    (shape : queue = next :: rest) :
    (lists.listRemove .ready FIRST 0).1 = next ∧ next ≠ 0 ∧
      ((lists.listRemove .ready FIRST 0).2.listAppend .active next).Linked (rows next rest) := by
  have isReady : Function.update (rows current queue) .active [] .ready = [] ++ next :: rest := by
    rw [← List.nil_append (next :: rest)] at shape
    exact shape
  have mem : next ∈ Function.update (rows current queue) .active [] .ready := by
    rw [isReady]
    simp
  have nonzero : next ≠ 0 := linked.ne_zero mem
  obtain ⟨isNext, removed⟩ := linked.remove FIRST isReady
  rw [← linked.listRemove_first isReady] at isNext removed
  refine ⟨isNext, nonzero, ?_⟩
  rw [List.nil_append, rows_active] at removed
  have nodup : (Function.update (rows current queue) .active [] .ready).Nodup :=
    linked.nodup_members
  rw [isReady, List.nil_append, List.nodup_cons] at nodup
  have fresh : ∀ list, next ∉ Function.update (rows current rest) .active [] list := by
    intro list
    cases list with
    | active => simp
    | ready => exact nodup.1
  have appended : ((lists.listRemove .ready FIRST 0).2.listAppend .active next).Linked _ :=
    removed.append nonzero fresh
  rw [Function.update_self, List.nil_append, rows_next] at appended
  exact appended

end Lists

section Steps

/-- The context of the thread that runs does not touch the stacks of the others. -/
theorem Kept.save_spares (kept : Kept main run current queue) (waits : thread ∈ queue)
    (cpu : Cpu) (sameEsp : cpu.esp = run.state.cpu.esp) {address : Nat}
    (later : run.low thread ≤ address) (before : address < run.high thread) :
    (cpu.save layout.resume).memory address = cpu.memory address := by
  have room := kept.room
  have inside := kept.inside
  have different : current ≠ thread := fun same =>
    (linked_fresh kept.linked).2.1 (same ▸ waits)
  have outside := kept.apart current ((kept.live current).mpr (.inl rfl)) thread
    ((kept.live thread).mpr (.inr waits)) different
  have enough : 40 ≤ cpu.esp := by omega
  apply (Cpu.save_frame 0 layout.resume enough).2.2
  omega

theorem Kept.spared (kept : Kept main run current queue) (spares : run.Spares memory)
    (waits : thread ∈ queue) {address : Nat} (later : run.low thread ≤ address)
    (before : address < run.high thread) : memory address = run.state.cpu.memory address := by
  apply spares thread ((kept.live thread).mpr (.inr waits)) _ address later before
  rw [linked_self kept.linked]
  rintro rfl
  exact (linked_fresh kept.linked).2.1 waits

/-- `uthread_yield` finds a thread, which goes on as it left. -/
theorem Kept.yields (layout : Layout) (kept : Kept main run current queue)
    (shape : queue ++ [current] = next :: rest) :
    ∃ state, run.state.yield layout = some state ∧ state.self = next ∧
      Resumes state.cpu (run.high next)
        (Function.update run.saved current { run.state.cpu with eip := layout.resume } next) ∧
      Kept main { run with
        state := state
        saved := Function.update run.saved run.state.self
          { run.state.cpu with eip := layout.resume }
        switches := run.switches + 1 } next rest := by
  obtain ⟨nonzero, notWaiting, -⟩ := linked_fresh kept.linked
  obtain ⟨isCurrent, removed⟩ := linked_remove kept.linked
  have room := kept.room
  have inside := kept.inside
  have fresh : ∀ list, current ∉ Function.update (rows current queue) .active [] list := by
    intro list
    cases list with
    | active => simp
    | ready => exact notWaiting
  have appended : ((run.state.lists.listRemove .active FIRST 0).2.listAppend .ready current).Linked _ :=
    removed.append nonzero fresh
  have isQueue : Function.update (rows current queue) .active [] .ready = queue := rfl
  rw [isQueue, rows_active, shape] at appended
  obtain ⟨isNext, nonzero', linked⟩ := linked_switch appended rfl
  have enough : 40 ≤ run.state.cpu.esp := by omega
  obtain ⟨isEsp, frame, -⟩ :=
    Cpu.save_frame (run.high current) layout.resume enough
  -- the contexts of all that wait, where the thread itself is one of them
  have frames : ∀ thread ∈ queue ++ [current],
      run.low thread ≤ Function.update run.state.context current
          (run.state.cpu.save layout.resume).esp thread ∧
        Function.update run.state.context current (run.state.cpu.save layout.resume).esp thread + 40 ≤
          run.high thread ∧
        Frame (run.state.cpu.save layout.resume).memory (run.high thread)
          (Function.update run.state.context current (run.state.cpu.save layout.resume).esp thread)
          (Function.update run.saved current { run.state.cpu with eip := layout.resume } thread) := by
    intro thread mem
    rcases List.mem_append.mp mem with waits | isThread
    · have different : thread ≠ current := fun same => notWaiting (same ▸ waits)
      obtain ⟨above, below, old⟩ := kept.frames thread waits
      rw [Function.update_of_ne different, Function.update_of_ne different]
      exact ⟨above, below, old.congr (fun address later before =>
        kept.save_spares waits _ rfl (above.trans later) before) below⟩
    · rw [List.mem_singleton] at isThread
      subst isThread
      rw [Function.update_self, Function.update_self, isEsp]
      exact ⟨by omega, by omega, frame⟩
  rw [shape] at frames
  obtain ⟨above, below, nextFrame⟩ := frames next List.mem_cons_self
  have resumes := nextFrame.load
  let lists := (run.state.lists.listRemove .active FIRST 0).2.listAppend .ready current
  let after : Uthreads := { run.state with
    cpu := (run.state.cpu.save layout.resume).load
      (Function.update run.state.context current (run.state.cpu.save layout.resume).esp next)
    lists := (lists.listRemove .ready FIRST 0).2.listAppend .active next
    context := Function.update run.state.context current (run.state.cpu.save layout.resume).esp }
  refine ⟨after, ?_, ?_, resumes, ?_⟩
  · unfold Uthreads.yield
    dsimp only
    rw [isCurrent, isNext, if_neg (not_or.mpr ⟨nonzero, nonzero'⟩)]
  · exact linked_self linked
  · have members : ∀ thread, thread ∈ run.live ↔ thread = next ∨ thread ∈ rest := by
      intro thread
      have both : thread ∈ queue ++ [current] ↔ thread ∈ next :: rest := by rw [shape]
      rw [List.mem_append, List.mem_singleton, List.mem_cons] at both
      rw [kept.live, or_comm, both]
    constructor
    case linked => exact linked
    case live => exact members
    case main => exact (members main).mp ((kept.live main).mpr kept.main)
    case apart => exact kept.apart
    case room =>
      have same := resumes.esp
      rw [nextFrame.isEsp] at same
      dsimp only
      rw [same]
      omega
    case inside =>
      have same := resumes.esp
      rw [nextFrame.isEsp] at same
      dsimp only
      rw [same]
      omega
    case frames =>
      intro thread waits
      rw [linked_self kept.linked]
      exact frames thread (.tail _ waits)

/-- `uthread_exit` finds a thread as long as another one is ready, which goes on as it left. -/
theorem Kept.exits (layout : Layout) (kept : Kept main run current queue) (spares : run.Spares memory)
    (shape : queue = next :: rest) (notMain : current ≠ main) :
    ∃ state, run.state.exit layout memory = some state ∧ state.self = next ∧
      Resumes state.cpu (run.high next) (run.saved next) ∧
      Kept main { run with
        state := state
        live := run.live \ {run.state.self}
        switches := run.switches + 1 } next rest := by
  obtain ⟨nonzero, notWaiting, -⟩ := linked_fresh kept.linked
  obtain ⟨isCurrent, removed⟩ := linked_remove kept.linked
  obtain ⟨isNext, nonzero', linked⟩ := linked_switch removed shape
  let cpu : Cpu := { run.state.cpu with memory := memory }
  have frames : ∀ thread ∈ queue, run.low thread ≤ run.state.context thread ∧
      run.state.context thread + 40 ≤ run.high thread ∧
      Frame (cpu.save layout.resume).memory (run.high thread) (run.state.context thread)
        (run.saved thread) := by
    intro thread waits
    obtain ⟨above, below, old⟩ := kept.frames thread waits
    refine ⟨above, below, old.congr (fun address later before => ?_) below⟩
    rw [kept.save_spares waits cpu rfl (above.trans later) before]
    exact kept.spared spares waits (above.trans later) before
  rw [shape] at frames
  obtain ⟨above, below, nextFrame⟩ := frames next List.mem_cons_self
  have resumes := nextFrame.load
  let lists := (run.state.lists.listRemove .active FIRST 0).2
  let after : Uthreads := { run.state with
    cpu := (cpu.save layout.resume).load (run.state.context next)
    lists := (lists.listRemove .ready FIRST 0).2.listAppend .active next }
  refine ⟨after, ?_, ?_, resumes, ?_⟩
  · unfold Uthreads.exit
    dsimp only
    rw [isCurrent, isNext, if_neg (not_or.mpr ⟨nonzero, nonzero'⟩)]
  · exact linked_self linked
  · have members : ∀ thread, thread ∈ run.live \ {run.state.self} ↔
        thread = next ∨ thread ∈ rest := by
      intro thread
      have both : thread ∈ queue ↔ thread ∈ next :: rest := by rw [shape]
      rw [List.mem_cons] at both
      rw [linked_self kept.linked, Set.mem_sdiff, kept.live, Set.mem_singleton_iff, ← both]
      constructor
      · rintro ⟨same | waits, different⟩
        · exact absurd same different
        · exact waits
      · exact fun waits => ⟨.inr waits, fun same => notWaiting (same ▸ waits)⟩
    constructor
    case linked => exact linked
    case live => exact members
    case main =>
      have waits := kept.main.resolve_left (Ne.symm notMain)
      rwa [shape, List.mem_cons] at waits
    case apart =>
      exact fun thread mem other otherMem => kept.apart thread mem.1 other otherMem.1
    case room =>
      have same := resumes.esp
      rw [nextFrame.isEsp] at same
      dsimp only
      rw [same]
      omega
    case inside =>
      have same := resumes.esp
      rw [nextFrame.isEsp] at same
      dsimp only
      rw [same]
      omega
    case frames => exact fun thread waits => frames thread (.tail _ waits)

theorem Kept.computes (kept : Kept main run current queue) {cpu : Cpu}
    (room : run.low run.state.self + 40 ≤ cpu.esp) (inside : cpu.esp ≤ run.high run.state.self)
    (spares : run.Spares cpu.memory) :
    Kept main { run with state := { run.state with cpu := cpu } } current queue := by
  rw [linked_self kept.linked] at room inside
  refine ⟨kept.linked, kept.live, kept.main, kept.apart, room, inside, fun thread waits => ?_⟩
  obtain ⟨above, below, frame⟩ := kept.frames thread waits
  exact ⟨above, below, frame.congr (fun address later before =>
    kept.spared spares waits (above.trans later) before) below⟩

/-- `create_uthread` puts a new thread at the end of those that are ready. -/
theorem Kept.creates (kept : Kept main run current queue) {stack func param : Nat}
    {state : Uthreads} (enough : 48 ≤ layout.THREAD_STACK_SIZE) (fresh : thread ∉ run.live)
    (spares : run.Spares memory)
    (apart : ∀ other ∈ run.live,
      run.high other ≤ stack ∨ stack + layout.THREAD_STACK_SIZE ≤ run.low other)
    (result : run.state.create layout thread stack memory func param = some state) :
    state.cpu.memory (stack + layout.THREAD_STACK_SIZE - 8) = layout.uthreadExit ∧
    state.cpu.memory (stack + layout.THREAD_STACK_SIZE - 4) = param ∧
    Kept main { run with
      state := state
      live := insert thread run.live
      low := Function.update run.low thread stack
      high := Function.update run.high thread (stack + layout.THREAD_STACK_SIZE)
      saved := Function.update run.saved thread (begins layout stack func state.cpu.memory) }
      current (queue ++ [thread]) := by
  have notCurrent : thread ≠ current := fun same => fresh ((kept.live thread).mpr (.inl same))
  have notWaiting : thread ∉ queue := fun waits => fresh ((kept.live thread).mpr (.inr waits))
  have isLive : current ∈ run.live := (kept.live current).mpr (.inl rfl)
  obtain ⟨isEsp, frame, isExit, isParam, others⟩ := archCreateUthreadContext_frame
    (stack + layout.THREAD_STACK_SIZE) enough
  unfold Uthreads.create at result
  split at result
  · cases result
  rename_i nonzero
  obtain rfl := Option.some.inj result
  refine ⟨isExit, isParam, ?_⟩
  have freshList : ∀ list, thread ∉ rows current queue list := by
    intro list
    cases list with
    | active => simpa [rows] using notCurrent
    | ready => exact notWaiting
  have appended : (run.state.lists.listAppend .ready thread).Linked _ :=
    kept.linked.append nonzero freshList
  constructor
  case linked =>
    rw [rows_ready] at appended
    exact appended
  case live =>
    intro other
    rw [Set.mem_insert_iff, kept.live, List.mem_append, List.mem_singleton]
    tauto
  case main => exact kept.main.imp (fun same => same) (List.mem_append_left _)
  case apart =>
    intro first firstMem second secondMem different
    dsimp only
    rcases Set.mem_insert_iff.mp firstMem with rfl | firstOld
    · have secondOld := (Set.mem_insert_iff.mp secondMem).resolve_left (Ne.symm different)
      rw [Function.update_self, Function.update_self, Function.update_of_ne (Ne.symm different),
        Function.update_of_ne (Ne.symm different)]
      exact (apart second secondOld).symm
    · have firstOther : first ≠ thread := fun same => fresh (same ▸ firstOld)
      rw [Function.update_of_ne firstOther, Function.update_of_ne firstOther]
      rcases Set.mem_insert_iff.mp secondMem with rfl | secondOld
      · rw [Function.update_self, Function.update_self]
        exact apart first firstOld
      · have secondOther : second ≠ thread := fun same => fresh (same ▸ secondOld)
        rw [Function.update_of_ne secondOther, Function.update_of_ne secondOther]
        exact kept.apart first firstOld second secondOld different
  case room =>
    dsimp only
    rw [Function.update_of_ne (Ne.symm notCurrent)]
    exact kept.room
  case inside =>
    dsimp only
    rw [Function.update_of_ne (Ne.symm notCurrent)]
    exact kept.inside
  case frames =>
    intro other waits
    dsimp only
    rcases List.mem_append.mp waits with old | isThread
    · have different : other ≠ thread := fun same => notWaiting (same ▸ old)
      have otherLive : other ∈ run.live := (kept.live other).mpr (.inr old)
      obtain ⟨above, below, oldFrame⟩ := kept.frames other old
      simp only [Function.update_of_ne different]
      refine ⟨above, below, oldFrame.congr (fun address later before => ?_) below⟩
      rw [others address (by have outside := apart other otherLive; omega)]
      exact kept.spared spares old (above.trans later) before
    · rw [List.mem_singleton] at isThread
      subst isThread
      simp only [Function.update_self]
      rw [isEsp] at frame ⊢
      exact ⟨by omega, by omega, frame⟩

/-- A step is one of the turns, or none. -/
theorem Kept.step (kept : Kept main run current queue) (enough : 48 ≤ layout.THREAD_STACK_SIZE)
    (step : RunStep layout main run run') : ∃ current' queue', Kept main run' current' queue' ∧
      (TakingTurns.Step ⟨current, queue, run.switches⟩ ⟨current', queue', run'.switches⟩ ∨
        current' = current ∧ queue' = queue ∧ run'.switches = run.switches) := by
  cases step with
  | compute cpu room inside spares =>
      exact ⟨current, queue, kept.computes room inside spares, .inr ⟨rfl, rfl, rfl⟩⟩
  | create thread stack memory func param fresh spares apart result =>
      exact ⟨current, queue ++ [thread], (kept.creates enough fresh spares apart result).2.2,
        .inl (.join thread)⟩
  | yield result =>
      obtain ⟨next, rest, shape⟩ : ∃ next rest, queue ++ [current] = next :: rest :=
        List.exists_cons_of_ne_nil (by simp)
      obtain ⟨state, yields, -, -, kept'⟩ := kept.yields layout shape
      obtain rfl := Option.some.inj (result.symm.trans yields)
      exact ⟨next, rest, kept', .inl (.rotate shape)⟩
  | exit memory notMain spares result =>
      rw [linked_self kept.linked] at notMain
      have isReady := kept.main.resolve_left (Ne.symm notMain)
      obtain ⟨next, rest, shape⟩ := List.exists_cons_of_ne_nil (List.ne_nil_of_mem isReady)
      obtain ⟨state, exits, -, -, kept'⟩ := kept.exits layout spares shape notMain
      obtain rfl := Option.some.inj (result.symm.trans exits)
      exact ⟨next, rest, kept', .inl (.leave shape)⟩

end Steps

section Results

variable {first middle last : Run} {before : Uthreads}

/-- The main thread has called `uthreads_init`. -/
structure Starts (main : Ptr) (run : Run) : Prop where
  nonzero : main ≠ 0
  initialized : ∃ before : Uthreads, run.state = before.init main
  live : run.live = {main}
  room : run.low main + 40 ≤ run.state.cpu.esp
  inside : run.state.cpu.esp ≤ run.high main
  switches : run.switches = 0

theorem Starts.kept (starts : Starts main first) : Kept main first main [] := by
  obtain ⟨before, isState⟩ := starts.initialized
  have nonzero := starts.nonzero
  constructor
  case linked =>
    rw [isState]
    constructor
    case ring =>
      intro list
      cases list <;> simp [rows, init, Lists.listInit, Lists.listAppend, LinkedRing.Ring, Lists.Link,
        Lists.follow, Lists.precede, nonzero]
    case nodup =>
      intro list
      cases list <;> simp [rows, Ne.symm nonzero]
    case apart =>
      intro list other node mem otherMem
      cases list <;> cases other <;> simp_all [rows]
    case object =>
      intro list node mem
      cases list <;> simp_all [rows, init, Lists.listInit, Lists.listAppend]
  case live =>
    intro thread
    rw [starts.live]
    simp
  case main => exact .inl rfl
  case apart =>
    intro thread mem other otherMem different
    rw [starts.live, Set.mem_singleton_iff] at mem otherMem
    exact absurd (mem.trans otherMem.symm) different
  case room => exact starts.room
  case inside => exact starts.inside
  case frames => exact fun thread waits => absurd waits List.not_mem_nil

theorem Kept.runs (kept : Kept main first current queue)
    (enough : 48 ≤ layout.THREAD_STACK_SIZE)
    (run : Relation.ReflTransGen (RunStep layout main) first last) :
    ∃ current' queue', Kept main last current' queue' ∧
      Relation.ReflTransGen TakingTurns.Step ⟨current, queue, first.switches⟩
        ⟨current', queue', last.switches⟩ := by
  induction run with
  | refl => exact ⟨current, queue, kept, .refl⟩
  | tail _ step ih =>
      obtain ⟨middle, waiting, kept', turns⟩ := ih
      obtain ⟨current', queue', kept'', taken⟩ := kept'.step enough step
      refine ⟨current', queue', kept'', ?_⟩
      rcases taken with steps | ⟨rfl, rfl, same⟩
      · exact turns.tail steps
      · rwa [same]

/-- Two threads for a run: the stack of the main thread, and that of a thread at 200. -/
def sampleLayout : Layout := ⟨64, 7, 9⟩

def sampleFirst : Run where
  state := Uthreads.init 100
    ⟨⟨⟨1000, fun _ => 0⟩, 1, 2, 3, 4, 5, 6, 7, 8, 0⟩, 0,
      ⟨fun _ => 0, fun _ => 0, fun _ => 0, fun _ => 0, fun _ => 0⟩, fun _ => 0, fun _ => 0, fun _ => 0⟩
  live := {100}
  low := fun _ => 900
  high := fun _ => 1100
  saved := fun _ => ⟨⟨0, fun _ => 0⟩, 0, 0, 0, 0, 0, 0, 0, 0, 0⟩
  switches := 0

theorem sampleFirst_starts : Starts 100 sampleFirst := by
  refine ⟨by decide, ⟨_, rfl⟩, rfl, ?_, ?_, rfl⟩
  · decide
  · decide

/-- The thread at 200 is created, and the main thread yields to it. -/
theorem sample_runs : ∃ middle last : Run,
    Relation.ReflTransGen (RunStep sampleLayout 100) sampleFirst middle ∧
    Relation.ReflTransGen (RunStep sampleLayout 100) middle last ∧
    middle.state.self = 100 ∧ middle.switches = 0 ∧ last.switches = 1 := by
  have enough : 48 ≤ sampleLayout.THREAD_STACK_SIZE := by decide
  have kept := sampleFirst_starts.kept
  have fresh : (200 : Ptr) ∉ sampleFirst.live := by simp [sampleFirst]
  have spares : sampleFirst.Spares fun _ => 0 := fun _ _ _ _ _ _ => rfl
  have apart : ∀ other ∈ sampleFirst.live, sampleFirst.high other ≤ 2000 ∨
      2000 + sampleLayout.THREAD_STACK_SIZE ≤ sampleFirst.low other :=
    fun _ _ => .inl (by simp [sampleFirst])
  obtain ⟨state, created⟩ : ∃ state,
      sampleFirst.state.create sampleLayout 200 2000 (fun _ => 0) 44 55 = some state := ⟨_, rfl⟩
  obtain ⟨-, -, kept'⟩ := kept.creates enough fresh spares apart created
  have shape : ([] ++ [200] : List Ptr) ++ [100] = 200 :: [100] := rfl
  obtain ⟨state', yields, -, -, -⟩ := kept'.yields sampleLayout shape
  exact ⟨_, _, .single (.create 200 2000 (fun _ => 0) 44 55 fresh spares apart created),
    .single (.yield yields), linked_self kept'.linked, rfl, rfl⟩

/-- In every run a thread that is given the processor, because another one yields or exits, goes on
with the registers, the flags and the stack that it had when it called `uthread_yield`; a new thread
begins with its function, which finds its parameter and returns to `uthread_exit`. -/
theorem threads_resume (enough : 48 ≤ layout.THREAD_STACK_SIZE) (starts : Starts main first)
    (run : Relation.ReflTransGen (RunStep layout main) first last) :
    (∃ state, last.state.yield layout = some state ∧ state.self ∈ last.live ∧
      Resumes state.cpu (last.high state.self)
        (Function.update last.saved last.state.self
          { last.state.cpu with eip := layout.resume } state.self)) ∧
    (last.state.self ≠ main → ∀ memory, last.Spares memory →
      ∃ state, last.state.exit layout memory = some state ∧ state.self ∈ last.live ∧
        state.self ≠ last.state.self ∧
        Resumes state.cpu (last.high state.self) (last.saved state.self)) ∧
    ∀ thread stack memory func param state, thread ∉ last.live → last.Spares memory →
      (∀ other ∈ last.live,
        last.high other ≤ stack ∨ stack + layout.THREAD_STACK_SIZE ≤ last.low other) →
      last.state.create layout thread stack memory func param = some state →
      let start := begins layout stack func state.cpu.memory
      start.eip = func ∧ start.memory start.esp = layout.uthreadExit ∧
        start.memory (start.esp + 4) = param ∧
        Frame state.cpu.memory (stack + layout.THREAD_STACK_SIZE) (state.context thread) start := by
  obtain ⟨current, queue, kept, -⟩ := starts.kept.runs enough run
  have isSelf := linked_self kept.linked
  refine ⟨?_, fun notMain memory spares => ?_,
    fun thread stack memory func param state fresh spares apart result => ?_⟩
  · obtain ⟨next, rest, shape⟩ : ∃ next rest, queue ++ [current] = next :: rest :=
      List.exists_cons_of_ne_nil (by simp)
    obtain ⟨state, yields, isNext, resumes, kept'⟩ := kept.yields layout shape
    refine ⟨state, yields, ?_, ?_⟩
    · rw [isNext]
      exact (kept'.live next).mpr (.inl rfl)
    · rw [isNext, isSelf]
      exact resumes
  · rw [isSelf] at notMain
    have isReady := kept.main.resolve_left (Ne.symm notMain)
    obtain ⟨next, rest, shape⟩ := List.exists_cons_of_ne_nil (List.ne_nil_of_mem isReady)
    obtain ⟨state, exits, isNext, resumes, kept'⟩ := kept.exits layout spares shape notMain
    have stays := (kept'.live next).mpr (.inl rfl)
    refine ⟨state, exits, ?_, ?_, ?_⟩
    · rw [isNext]
      exact stays.1
    · rw [isNext]
      exact stays.2
    · rw [isNext]
      exact resumes
  · obtain ⟨isExit, isParam, kept'⟩ := kept.creates enough fresh spares apart result
    have frame := (kept'.frames thread (by simp)).2.2
    simp only [Function.update_self] at frame
    refine ⟨rfl, isExit, ?_, frame⟩
    have next : stack + layout.THREAD_STACK_SIZE - 8 + 4 = stack + layout.THREAD_STACK_SIZE - 4 := by
      omega
    dsimp only [begins]
    rw [next]
    exact isParam

theorem threads_resume_sample : ∃ last : Run, last.switches = 1 ∧
    (∃ state, last.state.yield sampleLayout = some state ∧ state.self ∈ last.live ∧
      Resumes state.cpu (last.high state.self)
        (Function.update last.saved last.state.self
          { last.state.cpu with eip := sampleLayout.resume } state.self)) := by
  obtain ⟨middle, last, before, after, -, -, switched⟩ := sample_runs
  exact ⟨last, switched,
    (threads_resume (by decide) sampleFirst_starts (before.trans after)).1⟩

/-- A thread with `k` others before it among those that are ready has the processor after `k + 1`
switches, and no thread is ever lost. -/
theorem waits_bounded (enough : 48 ≤ layout.THREAD_STACK_SIZE) (starts : Starts main first)
    (before : Relation.ReflTransGen (RunStep layout main) first middle)
    (after : Relation.ReflTransGen (RunStep layout main) middle last) :
    ∃ queue, middle.state.lists.Linked (rows middle.state.self queue) ∧
      (∀ thread, thread ∈ middle.live ↔ thread = middle.state.self ∨ thread ∈ queue) ∧
      ∀ k thread, queue[k]? = some thread →
        (last.switches ≤ middle.switches + k →
          thread ∈ last.live ∧ thread ≠ last.state.self) ∧
        (last.switches = middle.switches + k + 1 → last.state.self = thread) := by
  obtain ⟨current, queue, kept, -⟩ := starts.kept.runs enough before
  obtain ⟨current', queue', kept', turns⟩ := kept.runs enough after
  have isSelf := linked_self kept.linked
  have isSelf' := linked_self kept'.linked
  refine ⟨queue, ?_, ?_, fun k thread place => ⟨fun early => ?_, fun late => ?_⟩⟩
  · rw [isSelf]
    exact kept.linked
  · rw [isSelf]
    exact kept.live
  · have waits := List.mem_of_getElem? ((turn turns place).1 early)
    refine ⟨(kept'.live thread).mpr (.inr waits), fun same => ?_⟩
    rw [isSelf'] at same
    exact (linked_fresh kept'.linked).2.1 (same ▸ waits)
  · rw [isSelf']
    exact (turn turns place).2 late

theorem waits_bounded_sample : ∃ middle last : Run, last.switches = middle.switches + 1 ∧
    ∃ queue, middle.state.lists.Linked (rows middle.state.self queue) ∧
      ∀ thread, queue[0]? = some thread → last.state.self = thread := by
  obtain ⟨middle, last, before, after, -, early, late⟩ := sample_runs
  have switched : last.switches = middle.switches + 0 + 1 := by rw [late, early]
  obtain ⟨queue, linked, -, turns⟩ :=
    waits_bounded (by decide) sampleFirst_starts before after
  exact ⟨middle, last, switched, queue, linked, fun thread place => (turns 0 thread place).2 switched⟩

end Results

end Uthreads

end Oseer
