import Oseer.Library.RoomPrograms
import Oseer.MonitorExclusion
import Oseer.SemaphorePrograms

/-!
# Programs that use monitors of the kernel

Threads of a program call `sys__monitor_lock`, `sys__monitor_unlock`, `sys__monitor_wait` and
`sys__monitor_signal` in any order that the scheduler makes, while the kernel may do everything
else that leaves the monitors of the program alone.
-/

namespace Oseer

open LinkedRing Results MonitorRooms RoomPrograms

/-- The kernel with its monitors, the state of a program, and the number of its steps so far. -/
structure MonitorProgram (P : Type) where
  run : MonitorRun
  program : P
  steps : Nat

/-- A kernel in which no thread waits, before any monitor is created. -/
theorem Quiet.noMonitors {kernel : Kernel} {idle : Ptr} {live : Set Ptr} {all : List Ptr}
    (quiet : Quiet kernel idle live all) : ∃ members,
      MonitorRun.Kept idle { MonitorRun.begin idle kernel with live := live } members all := by
  obtain ⟨members, coherent, -⟩ := quiet
  refine ⟨members, coherent, ?_, ?_, ?_, ?_⟩
  · constructor <;> simp [MonitorRun.begin]
  · constructor
    · constructor <;> simp [MonitorRun.begin]
    all_goals simp [MonitorRun.begin]
  · simp [MonitorRun.begin]
  · simp [MonitorRun.begin]

/-- The active thread blocks somewhere else. -/
theorem MonitorRun.Spared.block {run : MonitorRun} {idle : Ptr} {kernel : Kernel}
    {monitors conditions : Set Ptr} {queue : QueueId} (waits : queue.state = .wait)
    (notIdle : run.self ≠ idle) (noJoin : ∀ target, queue ≠ .join target)
    (noOwn : ∀ owner, queue ≠ .thrq (.thread owner)) (noMonitor : ∀ kmonitor, queue ≠ .monitor kmonitor)
    (noQueue : ∀ kqueue, queue ≠ .monitorQueue kqueue)
    (schedules : (run.state.kernel.kthreadEnqueue queue).kthreadsSchedule = .ok kernel) :
    run.Spared idle kernel run.live monitors conditions := by
  intro members all coherent
  obtain ⟨settled, data⟩ := coherent.waitIn queue waits notIdle noJoin noOwn
  obtain ⟨kernel', members', scheduled, coherent', data', same, waiting⟩ := settled.scheduled
  obtain rfl := Except.ok.inj (schedules.symm.trans scheduled)
  refine ⟨members', all, coherent', fun kmonitor _ => ⟨?_, by rw [same]; rfl⟩,
    fun kqueue _ => ⟨?_, fun thread _ => ?_⟩⟩
  · rw [waiting _ rfl]
    exact Function.update_of_ne (noMonitor kmonitor).symm ..
  · rw [waiting _ rfl]
    exact Function.update_of_ne (noQueue kqueue).symm ..
  · exact (congrArg ThreadData.qdata (data' thread)).trans (congrArg ThreadData.qdata (data thread))

section Runs

variable {P : Type}

/-- What the active thread calls in a step of the program. -/
def MonitorKernel.roomCall : Option (Call Ptr Ptr) → MonitorKernel → Except Fault MonitorKernel
  | none, state => .ok state
  | some (.lock kmonitor), state => (state.sysMonitorLock (some kmonitor)).map Prod.snd
  | some (.unlock kmonitor), state => (state.sysMonitorUnlock (some kmonitor)).map Prod.snd
  | some (.wait kmonitor kqueue), state =>
      (state.sysMonitorWait (some kmonitor) (some kqueue)).map Prod.snd
  | some (.signal kqueue), state => (state.sysMonitorSignal (some kqueue)).map Prod.snd

/-- The kernel after a call of the active thread. -/
def MonitorRun.called (called : Option (Call Ptr Ptr)) (state : MonitorKernel) (run : MonitorRun) :
    MonitorRun :=
  { run with
    state := state
    rooms := RoomPrograms.call run.self called run.rooms }

/-- The active thread takes the next step of the program, or anything else happens in which no
thread ends that has steps to take. -/
inductive MonitorProgramStep (idle : Ptr) (next : Next Ptr Ptr Ptr P) :
    MonitorProgram P → MonitorProgram P → Prop
  | take {run : MonitorProgram P} {state : MonitorKernel} {called : Option (Call Ptr Ptr)}
      {program : P} (takes : next run.run.self run.program = some (called, program))
      (result : run.run.state.roomCall called = .ok state) :
      MonitorProgramStep idle next run
        { run := run.run.called called state
          program := program
          steps := run.steps + 1 }
  | other {run : MonitorProgram P} {state : MonitorKernel} {live : Set Ptr}
      (spared : run.run.Spared idle state.kernel live run.run.monitors run.run.conditions)
      (kept : ∀ thread ∈ run.run.live, (next thread run.program).isSome → thread ∈ live) :
      MonitorProgramStep idle next run { run with run := { run.run with
        state := state
        live := live } }

/-- The active thread goes on by so many steps, as long as it has some. -/
def MonitorProgram.advance (next : Next Ptr Ptr Ptr P) :
    Nat → MonitorKernel × P → Except Fault (MonitorKernel × P)
  | 0, state => .ok state
  | n + 1, state =>
      match next state.1.kernel.activeThread state.2 with
      | none => .ok state
      | some (called, program) => do
          let kernel ← state.1.roomCall called
          advance next n (kernel, program)

namespace MonitorProgram

variable {idle : Ptr} {next : Next Ptr Ptr Ptr P} {first last run run' : MonitorProgram P}
  {members : Members} {all : List Ptr} {state : MonitorKernel} {called : Option (Call Ptr Ptr)}

/-- The objects that a call is about. -/
def Known (run : MonitorRun) : Option (Call Ptr Ptr) → Prop
  | none => True
  | some (.lock kmonitor) => kmonitor ∈ run.monitors
  | some (.unlock kmonitor) => kmonitor ∈ run.monitors
  | some (.wait kmonitor kqueue) => kmonitor ∈ run.monitors ∧ kqueue ∈ run.conditions
  | some (.signal kqueue) => kqueue ∈ run.conditions

theorem kept_called {run : MonitorRun} (kept : run.Kept idle members all) (known : Known run called)
    (notIdle : run.self ≠ idle)
    (absent : ∀ kmonitor, called = some (.lock kmonitor) → run.self ∉ run.rooms.inside kmonitor)
    (result : run.state.roomCall called = .ok state) :
    ∃ members', (run.called called state).Kept idle members' all := by
  cases called with
  | none =>
      obtain rfl := Except.ok.inj result
      exact ⟨members, kept⟩
  | some called =>
      cases called with
      | lock kmonitor =>
          obtain ⟨⟨code, _⟩, locks, rfl⟩ := map_ok result
          exact kept.lock known notIdle (absent kmonitor rfl) locks
      | unlock kmonitor =>
          obtain ⟨⟨code, _⟩, unlocks, rfl⟩ := map_ok result
          exact kept.unlock known unlocks
      | wait kmonitor kqueue =>
          obtain ⟨⟨code, _⟩, waits, rfl⟩ := map_ok result
          exact kept.wait known.1 known.2 notIdle waits
      | signal kqueue =>
          obtain ⟨⟨code, _⟩, signals, rfl⟩ := map_ok result
          exact kept.release known false signals

/-- A step in the kernel is one of the program, or none. -/
theorem kept_step (kept : run.run.Kept idle members all)
    (step : MonitorProgramStep idle next run run')
    (known : ∀ {thread called program}, next thread run.program = some (called, program) →
      Known run.run called)
    (notIdle : ∀ program, next idle program = none)
    (absent : ∀ {thread kmonitor program},
      next thread run.program = some (some (.lock kmonitor), program) →
        thread ∉ run.run.rooms.inside kmonitor) :
    (∃ members' all', run'.run.Kept idle members' all') ∧
      run'.run.monitors = run.run.monitors ∧ run'.run.conditions = run.run.conditions ∧
      (RoomPrograms.Step next (run.run.rooms, run.program) (run'.run.rooms, run'.program) ∧
          run'.steps = run.steps + 1 ∨
        run'.run.rooms = run.run.rooms ∧ run'.program = run.program ∧ run'.steps = run.steps) := by
  cases step with
  | take takes result =>
      have isThread : run.run.self ≠ idle := by
        intro isIdle
        rw [isIdle, notIdle] at takes
        cases takes
      obtain ⟨members', kept'⟩ := kept_called kept (known takes) isThread
        (fun kmonitor isLock => absent (isLock ▸ takes)) result
      exact ⟨⟨members', all, kept'⟩, rfl, rfl, .inl ⟨.take _ kept.free takes, rfl⟩⟩
  | other spared keeps =>
      exact ⟨kept.step (.other subset_rfl subset_rfl MonitorRun.unused_self spared), rfl, rfl,
        .inr ⟨rfl, rfl, rfl⟩⟩

/-- A thread that has steps to take stays alive. -/
theorem alive_step (ends : ∀ {thread program called program'},
      next thread program = some (called, program') →
      ∀ other, other ≠ thread → next other program = none → next other program' = none)
    (alive : ∀ thread, (next thread run.program).isSome → thread ∈ run.run.live)
    (step : MonitorProgramStep idle next run run') :
    ∀ thread, (next thread run'.program).isSome → thread ∈ run'.run.live := by
  intro thread steps
  cases step with
  | take takes result =>
      apply alive
      by_cases same : thread = run.run.self
      · rw [same, takes]
        rfl
      · by_contra none
        rw [Option.not_isSome_iff_eq_none] at none
        rw [ends takes thread same none] at steps
        cases steps
  | other spared kept => exact kept thread (alive thread steps) steps

/-- What holds of the program with its rooms at first, and is kept by each step, holds in every run
on the kernel. -/
theorem throughout (holds : Rooms Ptr Ptr Ptr → P → Nat → Prop) {monitors conditions : Set Ptr}
    (kept : ∃ members all, first.run.Kept idle members all)
    (isMonitors : first.run.monitors = monitors) (isConditions : first.run.conditions = conditions)
    (known : ∀ {run : MonitorRun} {thread program called program'}, run.monitors = monitors →
      run.conditions = conditions → next thread program = some (called, program') →
        Known run called)
    (notIdle : ∀ program, next idle program = none)
    (absent : ∀ {rooms program n thread kmonitor program'}, holds rooms program n →
      next thread program = some (some (.lock kmonitor), program') →
        thread ∉ rooms.inside kmonitor)
    (start : holds first.run.rooms first.program first.steps)
    (keeps : ∀ {rooms program rooms' program' n}, holds rooms program n →
      RoomPrograms.Step next (rooms, program) (rooms', program') → holds rooms' program' (n + 1))
    (run : Relation.ReflTransGen (MonitorProgramStep idle next) first last) :
    (∃ members all, last.run.Kept idle members all) ∧ last.run.monitors = monitors ∧
      last.run.conditions = conditions ∧ holds last.run.rooms last.program last.steps := by
  induction run with
  | refl => exact ⟨kept, isMonitors, isConditions, start⟩
  | tail _ step ih =>
      obtain ⟨⟨members, all, kept⟩, isMonitors, isConditions, held⟩ := ih
      obtain ⟨kept', sameMonitors, sameConditions, taken⟩ :=
        kept_step kept step (known isMonitors isConditions) notIdle (absent held)
      refine ⟨kept', sameMonitors.trans isMonitors, sameConditions.trans isConditions, ?_⟩
      rcases taken with ⟨takes, counted⟩ | ⟨sameRooms, sameProgram, sameSteps⟩
      · rw [counted]
        exact keeps held takes
      · rwa [sameRooms, sameProgram, sameSteps]

theorem advance_reaches (first : MonitorProgram P) {n : Nat} {after : MonitorKernel × P}
    (result : advance next n (first.run.state, first.program) = .ok after) :
    ∃ last, Relation.ReflTransGen (MonitorProgramStep idle next) first last ∧
      last.run.state = after.1 ∧ last.program = after.2 := by
  induction n generalizing first with
  | zero =>
      obtain rfl := Except.ok.inj result
      exact ⟨first, .refl, rfl, rfl⟩
  | succ n ih =>
      unfold advance at result
      cases takes : next first.run.state.kernel.activeThread first.program with
      | none =>
          rw [takes] at result
          obtain rfl := Except.ok.inj result
          exact ⟨first, .refl, rfl, rfl⟩
      | some taken =>
          rw [takes] at result
          obtain ⟨state, called, rest⟩ := bind_ok result
          let second : MonitorProgram P :=
            ⟨first.run.called taken.1 state, taken.2, first.steps + 1⟩
          obtain ⟨last, run, isState, isProgram⟩ := ih second rest
          exact ⟨last, run.head (.take takes called), isState, isProgram⟩

end MonitorProgram

end Runs

end Oseer
