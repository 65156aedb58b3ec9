import Oseer.Library.SemaphoreUnits
import Oseer.Semaphores

/-!
# Programs that use semaphores

Threads of a program call `sys__sem_wait` and `sys__sem_post` in any order that the scheduler
makes, while the kernel may do everything else that leaves the semaphores of the program alone.
For the program the semaphores are values with queues of threads.
-/

namespace Oseer

open LinkedRing Results SemaphoreUnits

/-- The kernel, the threads alive, the state of a program, and the number of its steps so far. -/
structure ProgramRun (P : Type) where
  kernel : Kernel
  live : Set Ptr
  program : P
  steps : Nat

/-- A new semaphore, where no thread waits at its address. -/
theorem Coherent.sysSemInit {kernel kernel' : Kernel} {idle sem ksem : Ptr} {live : Set Ptr}
    {members : Members} {all : List Ptr} {value : Int}
    (coherent : Coherent kernel idle live members all) (empty : members (.sem ksem) = [])
    (result : kernel.sysSemInit sem ksem value = .ok (-SUCCESS, kernel')) :
    Coherent kernel' idle live members all ∧
      kernel'.semValue = Function.update kernel.semValue ksem value := by
  have sameQueues := coherent.sound.linked.listInit_eq empty
  unfold Kernel.sysSemInit at result
  split at result
  · cases (Prod.mk.inj (Except.ok.inj result)).1
  split at result
  · cases result
  rw [sameQueues] at result
  obtain rfl := (Prod.mk.inj (Except.ok.inj result)).2
  constructor
  · apply Coherent.setErrno
    exact coherent.of_same rfl rfl rfl rfl rfl rfl
  · rfl

/-- A kernel in which no thread waits. -/
def Quiet (kernel : Kernel) (idle : Ptr) (live : Set Ptr) (all : List Ptr) : Prop :=
  ∃ members, Coherent kernel idle live members all ∧
    ∀ queue : QueueId, queue.state = .wait → members queue = []

section Quiet

variable {kernel kernel' : Kernel} {idle thread proc stack : Ptr} {live : Set Ptr} {all : List Ptr}

theorem Quiet.init (below : idle < addressCount)
    (starts : Kernel.boot.kthreadsInit stack idle proc = .ok kernel) :
    Quiet kernel idle {idle} [idle] := by
  obtain ⟨created, settled, -, starts⟩ := kthreadsInit_settled below starts
  obtain ⟨sched, members, scheduled, coherent, -, switches⟩ := settled.kthreadsSchedule
  obtain rfl := Except.ok.inj (starts.symm.trans scheduled)
  refine ⟨members, coherent, fun queue waits => ?_⟩
  rw [switches.waiting queue waits id]
  apply Function.update_of_ne
  rintro rfl
  cases waits

theorem Quiet.semInit {sem ksem : Ptr} {value : Int} (quiet : Quiet kernel idle live all)
    (result : kernel.sysSemInit sem ksem value = .ok (-SUCCESS, kernel')) :
    Quiet kernel' idle live all := by
  obtain ⟨members, coherent, empty⟩ := quiet
  exact ⟨members, (coherent.sysSemInit (empty _ rfl) result).1, empty⟩

theorem Quiet.create {prio : Int} (quiet : Quiet kernel idle live all) (fresh : thread ∉ all)
    (below : thread < addressCount) (known : ∃ mate ∈ live, (kernel.thread mate).proc = proc)
    (created : kernel.kthreadCreate stack thread prio true proc = .ok kernel') :
    Quiet kernel' idle (insert thread live) (all ++ [thread]) := by
  obtain ⟨members, coherent, empty⟩ := quiet
  obtain ⟨members', coherent', waiting⟩ := coherent.kthreadCreate fresh below known created
  exact ⟨members', coherent', fun queue waits =>
    (waiting queue waits id).trans (empty queue waits)⟩

theorem Quiet.schedule (quiet : Quiet kernel idle live all)
    (schedules : kernel.kthreadsSchedule = .ok kernel') : Quiet kernel' idle live all := by
  obtain ⟨members, coherent, empty⟩ := quiet
  obtain ⟨sched, members', scheduled, coherent', -, switches⟩ := coherent.toSettled.kthreadsSchedule
  obtain rfl := Except.ok.inj (schedules.symm.trans scheduled)
  exact ⟨members', coherent', fun queue waits =>
    (switches.waiting queue waits id).trans (empty queue waits)⟩

end Quiet

section Runs

variable {σ P : Type}

/-- What the active thread calls in a step of the program. -/
def Kernel.semCall (address : σ → Ptr) : Option (Call σ) → Kernel → Except Fault Kernel
  | none, kernel => .ok kernel
  | some (.wait sem), kernel => (kernel.sysSemWait (some (address sem))).map Prod.snd
  | some (.post sem), kernel => (kernel.sysSemPost (some (address sem))).map Prod.snd

/-- A change of the kernel outside of the semaphores of the program. -/
def ProgramRun.Spares (idle : Ptr) (address : σ → Ptr) (run : ProgramRun P) (kernel : Kernel)
    (live : Set Ptr) : Prop :=
  ∀ members all, Coherent run.kernel idle run.live members all →
    ∃ members' all', Coherent kernel idle live members' all' ∧ ∀ sem,
      members' (.sem (address sem)) = members (.sem (address sem)) ∧
        kernel.semValue (address sem) = run.kernel.semValue (address sem)

/-- The active thread takes the next step of the program, or anything else happens in which no
thread ends that has steps to take. -/
inductive ProgramStep (idle : Ptr) (address : σ → Ptr) (next : Next σ Ptr P) :
    ProgramRun P → ProgramRun P → Prop
  | take {run : ProgramRun P} {kernel : Kernel} {call : Option (Call σ)} {program : P}
      (takes : next run.kernel.activeThread run.program = some (call, program))
      (result : run.kernel.semCall address call = .ok kernel) :
      ProgramStep idle address next run { run with
        kernel := kernel
        program := program
        steps := run.steps + 1 }
  | other {run : ProgramRun P} {kernel : Kernel} {live : Set Ptr}
      (spares : run.Spares idle address kernel live)
      (kept : ∀ thread ∈ run.live, (next thread run.program).isSome → thread ∈ live) :
      ProgramStep idle address next run { run with kernel := kernel, live := live }

/-- The semaphores that the program sees in the kernel. -/
structure ProgramRun.Views (idle : Ptr) (address : σ → Ptr) (run : ProgramRun P)
    (semaphores : Semaphores σ Ptr) (members : Members) (all : List Ptr) : Prop where
  coherent : Coherent run.kernel idle run.live members all
  value : ∀ sem, semaphores.value sem = run.kernel.semValue (address sem)
  waiting : ∀ sem, semaphores.waiting sem = members (.sem (address sem))

/-- The active thread goes on by so many steps, as long as it has some. -/
def ProgramRun.advance (address : σ → Ptr) (next : Next σ Ptr P) :
    Nat → ProgramRun P → Except Fault (ProgramRun P)
  | 0, run => .ok run
  | n + 1, run =>
      match next run.kernel.activeThread run.program with
      | none => .ok run
      | some (call, program) => do
          let kernel ← run.kernel.semCall address call
          advance address next n { run with
            kernel := kernel
            program := program
            steps := run.steps + 1 }

namespace ProgramRun

variable [DecidableEq σ] {idle : Ptr} {address : σ → Ptr} {next : Next σ Ptr P}
  {run run' first last : ProgramRun P} {semaphores : Semaphores σ Ptr} {members : Members}
  {all : List Ptr} {kernel : Kernel} {sem other : σ}

omit [DecidableEq σ] in
theorem Views.free (views : run.Views idle address semaphores members all) (sem : σ) :
    run.kernel.activeThread ∉ semaphores.waiting sem := by
  rw [views.waiting]
  exact views.coherent.active_free

theorem Views.wait (views : run.Views idle address semaphores members all)
    (injective : address.Injective) (nonzero : address sem ≠ 0)
    (notIdle : run.kernel.activeThread ≠ idle)
    (result : run.kernel.semCall address (some (.wait sem)) = .ok kernel) :
    ∃ members', Views idle address { run with kernel := kernel }
      (semaphores.wait sem run.kernel.activeThread) members' all := by
  obtain ⟨⟨code, waited⟩, waits, rfl⟩ := map_ok result
  unfold Semaphores.wait
  rw [views.value]
  split
  next free =>
    obtain rfl : waited = _ :=
      (Prod.mk.inj (Except.ok.inj (waits.symm.trans (SemRun.sysSemWait_pass nonzero free)))).2
    refine ⟨members, ?_, fun other => ?_, views.waiting⟩
    · exact (views.coherent.setErrno SUCCESS).of_same rfl rfl rfl rfl rfl rfl
    · dsimp only
      by_cases same : other = sem
      · subst same
        simp
      · rw [Function.update_of_ne same, Function.update_of_ne (injective.ne same)]
        exact views.value other
  next taken =>
    have schedules := SemRun.sysSemWait_block nonzero taken waits
    obtain ⟨members', coherent, waiting⟩ := (views.coherent.setErrno SUCCESS).blocked rfl notIdle
      (fun _ isJoin => by cases isJoin) (fun _ isOwn => by cases isOwn) schedules
    obtain ⟨sched, -, isKernel⟩ := map_ok schedules
    have semValue : waited.semValue = run.kernel.semValue :=
      (congrArg Kernel.semValue isKernel).symm
    refine ⟨members', coherent, fun other => ?_, fun other => ?_⟩
    · dsimp only
      rw [semValue]
      exact views.value other
    · dsimp only
      rw [waiting _ rfl]
      unfold enqueued
      have active : (run.kernel.setErrno SUCCESS).activeThread = run.kernel.activeThread := rfl
      by_cases same : other = sem
      · subst same
        rw [Function.update_self, Function.update_self, views.waiting, active]
      · have different : QueueId.sem (address other) ≠ .sem (address sem) :=
          fun isSame => same (injective (QueueId.sem.inj isSame))
        rw [Function.update_of_ne same, Function.update_of_ne different]
        exact views.waiting other

theorem Views.post (views : run.Views idle address semaphores members all)
    (injective : address.Injective) (nonzero : address sem ≠ 0)
    (result : run.kernel.semCall address (some (.post sem)) = .ok kernel) :
    ∃ members', Views idle address { run with kernel := kernel }
      (semaphores.post sem) members' all := by
  obtain ⟨⟨code, posted⟩, posts, rfl⟩ := map_ok result
  have noted := views.coherent.setErrno SUCCESS
  have cases := SemRun.sysSemPost_cases nonzero posts
  cases place : members (.sem (address sem)) with
  | nil =>
      have released := noted.toSettled.kthreadqRelease_empty place
      rw [released] at cases
      obtain ⟨-, rfl⟩ := cases.resolve_right fun one => one.1 rfl
      rw [Semaphores.post_nil ((views.waiting sem).trans place)]
      refine ⟨members, noted.of_same rfl rfl rfl rfl rfl rfl, fun other => ?_, views.waiting⟩
      dsimp only
      by_cases same : other = sem
      · subst same
        rw [Function.update_self, Function.update_self, views.value]
      · rw [Function.update_of_ne same, Function.update_of_ne (injective.ne same)]
        exact views.value other
  | cons thread rest =>
      have waits : (QueueId.sem (address sem)).state = .wait := rfl
      obtain ⟨one, -⟩ := noted.toSettled.kthreadqRelease place waits
      obtain ⟨-, schedules⟩ := cases.resolve_left fun none => by
        rw [one] at none
        cases none.1
      obtain ⟨members', coherent, waiting⟩ := noted.released place waits schedules
      obtain ⟨sched, -, isKernel⟩ := map_ok schedules
      have semValue : posted.semValue = run.kernel.semValue :=
        (congrArg Kernel.semValue isKernel).symm
      rw [Semaphores.post_cons ((views.waiting sem).trans place)]
      refine ⟨members', coherent, fun other => ?_, fun other => ?_⟩
      · dsimp only
        rw [semValue]
        exact views.value other
      · dsimp only
        rw [waiting _ rfl]
        by_cases same : other = sem
        · subst same
          rw [Function.update_self, Function.update_self]
        · have different : QueueId.sem (address other) ≠ .sem (address sem) :=
            fun isSame => same (injective (QueueId.sem.inj isSame))
          rw [Function.update_of_ne same, Function.update_of_ne different]
          exact views.waiting other

/-- A step of the program in the kernel is one on the semaphores that the program sees. -/
theorem Views.take (views : run.Views idle address semaphores members all)
    (injective : address.Injective) (nonzero : ∀ sem, address sem ≠ 0)
    (notIdle : run.kernel.activeThread ≠ idle) {call : Option (Call σ)}
    (result : run.kernel.semCall address call = .ok kernel) :
    ∃ members', Views idle address { run with kernel := kernel }
      (semaphores.call run.kernel.activeThread call) members' all := by
  cases call with
  | none =>
      obtain rfl := Except.ok.inj result
      exact ⟨members, views.coherent, views.value, views.waiting⟩
  | some called =>
      cases called with
      | wait sem => exact views.wait injective (nonzero sem) notIdle result
      | post sem => exact views.post injective (nonzero sem) result

/-- A step in the kernel is one of the program, or none. -/
theorem Views.step (views : run.Views idle address semaphores members all)
    (injective : address.Injective) (nonzero : ∀ sem, address sem ≠ 0)
    (notIdle : ∀ program, next idle program = none) (step : ProgramStep idle address next run run') :
    ∃ semaphores' members' all', run'.Views idle address semaphores' members' all' ∧
      (SemaphoreUnits.Step next (semaphores, run.program) (semaphores', run'.program) ∧
          run'.steps = run.steps + 1 ∨
        semaphores' = semaphores ∧ run'.program = run.program ∧ run'.steps = run.steps) := by
  cases step with
  | take takes result =>
      have isThread : run.kernel.activeThread ≠ idle := by
        intro isIdle
        rw [isIdle, notIdle] at takes
        cases takes
      obtain ⟨members', views'⟩ := views.take injective nonzero isThread result
      exact ⟨_, members', all, ⟨views'.coherent, views'.value, views'.waiting⟩,
        .inl ⟨.take _ views.free takes, rfl⟩⟩
  | other spares kept =>
      obtain ⟨members', all', coherent, same⟩ := spares members all views.coherent
      refine ⟨semaphores, members', all', ⟨coherent, fun sem => ?_, fun sem => ?_⟩,
        .inr ⟨rfl, rfl, rfl⟩⟩
      · exact (views.value sem).trans (same sem).2.symm
      · exact (views.waiting sem).trans (same sem).1.symm

omit [DecidableEq σ] in
/-- A thread that has steps to take stays alive. -/
theorem alive_step (ends : ∀ {thread program call program'},
      next thread program = some (call, program') →
      ∀ other, other ≠ thread → next other program = none → next other program' = none)
    (alive : ∀ thread, (next thread run.program).isSome → thread ∈ run.live)
    (step : ProgramStep idle address next run run') :
    ∀ thread, (next thread run'.program).isSome → thread ∈ run'.live := by
  intro thread steps
  cases step with
  | take takes result =>
      apply alive
      by_cases same : thread = run.kernel.activeThread
      · rw [same, takes]
        rfl
      · by_contra none
        rw [Option.not_isSome_iff_eq_none] at none
        rw [ends takes thread same none] at steps
        cases steps
  | other spares kept => exact kept thread (alive thread steps) steps

omit [DecidableEq σ] in
theorem advance_reaches {n : Nat} (result : first.advance address next n = .ok last) :
    Relation.ReflTransGen (ProgramStep idle address next) first last := by
  induction n generalizing first with
  | zero =>
      obtain rfl := Except.ok.inj result
      exact .refl
  | succ n ih =>
      unfold advance at result
      cases takes : next first.kernel.activeThread first.program with
      | none =>
          rw [takes] at result
          obtain rfl := Except.ok.inj result
          exact .refl
      | some taken =>
          rw [takes] at result
          obtain ⟨kernel, called, rest⟩ := bind_ok result
          exact (ih rest).head (.take takes called)

/-- What holds of the program with its semaphores at first, and is kept by each step, holds in
every run on the kernel. -/
theorem Views.throughout (holds : Semaphores σ Ptr → P → Nat → Prop)
    (views : first.Views idle address semaphores members all)
    (injective : address.Injective) (nonzero : ∀ sem, address sem ≠ 0)
    (notIdle : ∀ program, next idle program = none)
    (start : holds semaphores first.program first.steps)
    (keeps : ∀ {semaphores program semaphores' program' n}, holds semaphores program n →
      SemaphoreUnits.Step next (semaphores, program) (semaphores', program') →
        holds semaphores' program' (n + 1))
    (run : Relation.ReflTransGen (ProgramStep idle address next) first last) :
    ∃ semaphores members all, last.Views idle address semaphores members all ∧
      holds semaphores last.program last.steps := by
  induction run with
  | refl => exact ⟨semaphores, members, all, views, start⟩
  | tail _ step ih =>
      obtain ⟨semaphores, members, all, views, held⟩ := ih
      obtain ⟨semaphores', members', all', views', taken⟩ :=
        views.step injective nonzero notIdle step
      refine ⟨semaphores', members', all', views', ?_⟩
      rcases taken with ⟨takes, counted⟩ | ⟨rfl, sameProgram, sameSteps⟩
      · rw [counted]
        exact keeps held takes
      · rwa [sameProgram, sameSteps]

end ProgramRun

end Runs

end Oseer
