import Oseer.PhilosopherRuns

/-!
# The end of the simulation

The philosophers never all wait for each other, and when the main thread has ended the simulation
each of them takes a bounded number of steps more.
-/

namespace Oseer

open Results MonitorRooms RoomPrograms

namespace Philosophers

variable {cast : Cast} {thread other : Ptr} {state state' : State}
  {called : Option (Call Ptr Ptr)} {pc pc' : Pc} {shared shared' : Shared} {phil number k : Nat}
  {rooms rooms' : Rooms Ptr Ptr Ptr}

section Progress

/-- A thread that waits for a condition is at the check of its sticks. -/
theorem Kept.checks (kept : Kept cast rooms state) {condition : Ptr}
    (waits : thread ∈ rooms.queue (.condition condition)) :
    thread ∈ cast.philosophers ∧ state.pc thread = .checkLeft := by
  obtain ⟨mem, -, isPc⟩ := kept.sound.awaits condition thread waits
  exact ⟨mem, isPc⟩

theorem owes_pc (owes : cast.Owes pc phil number) : pc ≠ .gone ∧ pc ≠ .checkLeft := by
  constructor
  · rintro rfl
    simp [Cast.Owes, Pc.owesLeft, Pc.owesRight] at owes
  · rintro rfl
    simp [Cast.Owes, Pc.owesLeft, Pc.owesRight] at owes

theorem within_pc (within : pc.within = true) : pc ≠ .gone := by
  rintro rfl
  cases within

/-- As long as one philosopher is not gone, one of them stands in no queue. -/
theorem Kept.not_stuck (kept : Kept cast rooms state) (mem : thread ∈ cast.philosophers)
    (stays : state.pc thread ≠ .gone) :
    ∃ other ∈ cast.philosophers, state.pc other ≠ .gone ∧ ∀ place, other ∉ rooms.queue place := by
  by_contra stuck
  push Not at stuck
  have single : ∀ room entry, (accounts cast).within room state entry → room = cast.m :=
    fun _ _ within => within.1
  have empty : rooms.inside cast.m = [] := by
    rw [List.eq_nil_iff_forall_not_mem]
    intro entry inside
    obtain ⟨-, entryMem, within⟩ := (kept.sound.claims cast.m entry).mpr (.inl inside)
    obtain ⟨place, waits⟩ := stuck entry entryMem (within_pc within)
    exact kept.sound.free single inside place waits
  have notEntry : ∀ room entry, entry ∉ rooms.queue (.entry room) := by
    intro room entry waits
    have isRoom := single room entry ((kept.sound.claims room entry).mpr (.inr (.inl waits)))
    rw [isRoom, kept.sound.consistent.shut cast.m empty] at waits
    cases waits
  have conditions : ∀ entry ∈ cast.philosophers, state.pc entry ≠ .gone →
      ∃ condition, entry ∈ rooms.queue (.condition condition) := by
    intro entry entryMem entryStays
    obtain ⟨place, waits⟩ := stuck entry entryMem entryStays
    cases place with
    | entry room => exact absurd waits (notEntry room entry)
    | condition condition => exact ⟨condition, waits⟩
  -- the neighbour that signals the thread waits for a condition as well
  obtain ⟨condition, waits⟩ := conditions thread mem stays
  obtain ⟨neighbour, neighbourMem, owes⟩ := kept.wakes thread mem condition waits
  obtain ⟨notGone, notChecking⟩ := owes_pc owes
  obtain ⟨condition', waits'⟩ := conditions neighbour neighbourMem notGone
  exact notChecking (kept.checks waits').2

end Progress

section Measure

/-- A bound on the steps that are left when the simulation is ended, where a signal counts for
three steps of the philosopher that it wakes. -/
def Pc.rank : Pc → Int
  | think => 24
  | lock => 23
  | dash => 22
  | checkLeft => 21
  | checkRight => 20
  | wait => 19
  | takeRight => 19
  | takeLeft => 18
  | cross => 17
  | unlock => 16
  | eat => 15
  | lockAgain => 14
  | putRight => 13
  | putLeft => 12
  | circle => 11
  | unlockAgain => 10
  | signalLeft => 9
  | signalRight => 5
  | test => 1
  | gone => 0

/-- The philosophers that wait for a signal. -/
noncomputable def waiters (cast : Cast) (rooms : Rooms Ptr Ptr Ptr) : Finset Ptr :=
  open Classical in
  cast.philosophers.filter fun thread => ∃ condition, thread ∈ rooms.queue (.condition condition)

/-- A bound on the steps of all philosophers. -/
noncomputable def measure (cast : Cast) (rooms : Rooms Ptr Ptr Ptr) (state : State) : Int :=
  ∑ thread ∈ cast.philosophers, (state.pc thread).rank - 3 * (waiters cast rooms).card

theorem mem_waiters : thread ∈ waiters cast rooms ↔
    thread ∈ cast.philosophers ∧ ∃ condition, thread ∈ rooms.queue (.condition condition) := by
  simp [waiters]

/-- How much a call changes the number of those that wait for a signal, at least. -/
def wakeups : Option (Call Ptr Ptr) → Int
  | some (.wait _ _) => 1
  | some (.signal _) => -1
  | _ => 0

theorem step_rank (ended : shared.terminateSimulation = true)
    (steps : step cast phil pc shared = some (called, pc', shared')) :
    pc'.rank - 3 * wakeups called + 1 ≤ pc.rank := by
  unfold step at steps
  split at steps <;> try split at steps
  all_goals cases steps
  all_goals simp_all [Pc.rank, wakeups]

theorem step_ended (steps : step cast phil pc shared = some (called, pc', shared')) :
    shared'.terminateSimulation = shared.terminateSimulation := by
  unfold step at steps
  split at steps <;> try split at steps
  all_goals cases steps
  all_goals rfl

/-- Nobody else stops to wait without a signal. -/
theorem waiters_call (mem : thread ∈ cast.philosophers)
    (free : ∀ place, thread ∉ rooms.queue place)
    (inside : ∀ room condition, called = some (.wait room condition) → thread ∈ rooms.inside room) :
    (waiters cast rooms).card + wakeups called ≤
      (waiters cast (RoomPrograms.call thread called rooms)).card := by
  have kept : ∀ entry ∈ waiters cast rooms,
      entry ∈ waiters cast (RoomPrograms.call thread called rooms) ∨
        ∃ condition, called = some (.signal condition) ∧
          (rooms.queue (.condition condition)).head? = some entry := by
    intro entry waits
    obtain ⟨entryMem, condition, inQueue⟩ := mem_waiters.mp waits
    rcases condition_kept inQueue with later | first
    · exact .inl (mem_waiters.mpr ⟨entryMem, condition, later⟩)
    · exact .inr ⟨condition, first⟩
  have notWaiting : thread ∉ waiters cast rooms := by
    intro waits
    obtain ⟨-, condition, inQueue⟩ := mem_waiters.mp waits
    exact free _ inQueue
  have same : (∀ condition, called ≠ some (.signal condition)) →
      waiters cast rooms ⊆ waiters cast (RoomPrograms.call thread called rooms) := by
    intro noSignal entry waits
    rcases kept entry waits with later | ⟨condition, isSignal, -⟩
    · exact later
    · exact absurd isSignal (noSignal condition)
  cases called with
  | none =>
      have fewer := Finset.card_le_card (same (by simp))
      simp only [wakeups]
      omega
  | some call =>
      cases call with
      | lock room =>
          have fewer := Finset.card_le_card (same (by simp))
          simp only [wakeups]
          omega
      | unlock room =>
          have fewer := Finset.card_le_card (same (by simp))
          simp only [wakeups]
          omega
      | wait room condition =>
          have arrives : thread ∈ waiters cast (RoomPrograms.call thread
              (some (.wait room condition)) rooms) :=
            mem_waiters.mpr ⟨mem, condition, wait_queued (inside room condition rfl)⟩
          have fewer := Finset.card_le_card
            (Finset.insert_subset arrives (same (by simp)))
          rw [Finset.card_insert_of_notMem notWaiting] at fewer
          simp only [wakeups]
          omega
      | signal condition =>
          simp only [wakeups]
          cases shape : rooms.queue (.condition condition) with
          | nil =>
              have fewer : waiters cast rooms ⊆
                  waiters cast (RoomPrograms.call thread (some (.signal condition)) rooms) := by
                intro entry waits
                rcases kept entry waits with later | ⟨condition', isSignal, first⟩
                · exact later
                · cases isSignal
                  rw [shape] at first
                  cases first
              have fewer := Finset.card_le_card fewer
              omega
          | cons first rest =>
              have fewer : waiters cast rooms ⊆ insert first
                  (waiters cast (RoomPrograms.call thread (some (.signal condition)) rooms)) := by
                intro entry waits
                rw [Finset.mem_insert]
                rcases kept entry waits with later | ⟨condition', isSignal, isFirst⟩
                · exact .inr later
                · cases isSignal
                  rw [shape] at isFirst
                  exact .inl (Option.some.inj isFirst).symm
              have fewer := (Finset.card_le_card fewer).trans (Finset.card_insert_le ..)
              omega

/-- Each step makes the bound smaller when the simulation is ended. -/
theorem Kept.measure_step (kept : Kept cast rooms state)
    (ended : state.shared.terminateSimulation = true)
    (step : RoomPrograms.Step (next cast) (rooms, state) (rooms', state')) :
    state'.shared.terminateSimulation = true ∧
      measure cast rooms' state' + 1 ≤ measure cast rooms state := by
  cases step with
  | @take _ _ _ called thread free takes =>
      rcases next_cases takes with ⟨mem, pc, shared, steps, rfl⟩ | ⟨runs, -, -⟩
      · refine ⟨(step_ended steps).trans ended, ?_⟩
        have rank := step_rank ended steps
        have inside : ∀ room condition, called = some (.wait room condition) →
            thread ∈ rooms.inside room := by
          rintro room condition rfl
          exact kept.sound.inside ((accounts_follows cast).waits takes).1 free
        have waiting := waiters_call mem free inside
        have ranks := SemaphoreUnits.sum_update mem state.pc pc Pc.rank
        unfold measure
        dsimp only
        omega
      · rw [ended] at runs
        cases runs

end Measure

section Program

variable {idle : Ptr} {first middle last : MonitorProgram State}

/-- The kernel as the main thread leaves it: the monitor and the queues are initialized, and the
threads are created and have not begun. -/
structure Begins (cast : Cast) (idle : Ptr) (first : MonitorProgram State) : Prop where
  kept : ∃ members all, first.run.Kept idle members all
  vacant : Vacant first.run.rooms
  monitor : cast.m ∈ first.run.monitors
  conditions : ∀ k < cast.phnum, cast.q k ∈ first.run.conditions
  apart : idle ∉ cast.philosophers ∧ idle ≠ cast.main
  alive : cast.main ∈ first.run.live ∧ ∀ thread ∈ cast.philosophers, thread ∈ first.run.live
  starts : Starts cast first.program

theorem next_none (outside : thread ∉ cast.philosophers) (notMain : thread ≠ cast.main) :
    next cast thread state = none := by
  unfold next
  rw [if_neg outside, if_neg notMain]

/-- A philosopher has no next step when it is gone. -/
theorem next_gone (mem : thread ∈ cast.philosophers) :
    next cast thread state = none ↔ state.pc thread = .gone := by
  unfold next
  rw [if_pos mem, Option.map_eq_none_iff]
  unfold step
  split <;> try split
  all_goals simp_all

/-- The calls of the program are about its monitor and its queues. -/
theorem next_known (sensible : cast.Sensible) {run : MonitorRun} (monitor : cast.m ∈ run.monitors)
    (conditions : ∀ k < cast.phnum, cast.q k ∈ run.conditions)
    (takes : next cast thread state = some (called, state')) : MonitorProgram.Known run called := by
  have positive : 0 < cast.phnum := Nat.lt_of_lt_of_le Nat.two_pos sensible.two
  rcases next_cases takes with ⟨mem, pc, shared, steps, rfl⟩ | ⟨-, rfl, -⟩
  · have below := sensible.below thread mem
    unfold step at steps
    split at steps <;> try split at steps
    all_goals cases steps
    all_goals simp only [MonitorProgram.Known, monitor, true_and]
    · exact conditions _ below
    · exact conditions _ (Nat.mod_lt _ positive)
    · exact conditions _ (Nat.mod_lt _ positive)
  · trivial

/-- What a philosopher locks it is not inside of. -/
theorem Kept.lock_absent (kept : Kept cast rooms state) {kmonitor : Ptr}
    (takes : next cast thread state = some (some (.lock kmonitor), state')) :
    thread ∉ rooms.inside kmonitor := fun inside =>
  ((accounts_follows cast).locks takes).1 ((kept.sound.claims kmonitor thread).mpr (.inl inside))

/-- What is kept by each step holds in every run. -/
theorem runs_kept (holds : Rooms Ptr Ptr Ptr → State → Nat → Prop) (sensible : cast.Sensible)
    (run : Relation.ReflTransGen (MonitorProgramStep idle (next cast)) first last)
    (notIdle : idle ∉ cast.philosophers ∧ idle ≠ cast.main)
    (monitor : cast.m ∈ first.run.monitors)
    (conditions : ∀ k < cast.phnum, cast.q k ∈ first.run.conditions)
    (kept : ∃ members all, first.run.Kept idle members all)
    (start : Kept cast first.run.rooms first.program ∧
      holds first.run.rooms first.program first.steps)
    (keeps : ∀ {rooms program rooms' program' n}, Kept cast rooms program →
      holds rooms program n → RoomPrograms.Step (next cast) (rooms, program) (rooms', program') →
        holds rooms' program' (n + 1)) :
    (∃ members all, last.run.Kept idle members all) ∧ last.run.monitors = first.run.monitors ∧
      last.run.conditions = first.run.conditions ∧ Kept cast last.run.rooms last.program ∧
        holds last.run.rooms last.program last.steps := by
  refine MonitorProgram.throughout (fun rooms program n =>
    Kept cast rooms program ∧ holds rooms program n) kept rfl rfl ?_
    (fun _ => next_none notIdle.1 notIdle.2) ?_ start ?_ run
  · intro run thread program called program' isMonitors isConditions takes
    rw [← isMonitors] at monitor
    rw [← isConditions] at conditions
    exact next_known sensible monitor conditions takes
  · intro rooms program n thread kmonitor program' held takes
    exact held.1.lock_absent takes
  · intro rooms program rooms' program' n held step
    exact ⟨held.1.step sensible step, keeps held.1 held.2 step⟩

theorem Begins.keeps (begins : Begins cast idle first) (sensible : cast.Sensible)
    (run : Relation.ReflTransGen (MonitorProgramStep idle (next cast)) first last) :
    (∃ members all, last.run.Kept idle members all) ∧ last.run.monitors = first.run.monitors ∧
      last.run.conditions = first.run.conditions ∧ Kept cast last.run.rooms last.program := by
  obtain ⟨kept, isMonitors, isConditions, keeps, -⟩ :=
    runs_kept (fun _ _ _ => True) sensible run begins.apart begins.monitor begins.conditions
      begins.kept ⟨begins.starts.kept begins.vacant sensible, trivial⟩ fun _ _ _ => trivial
  exact ⟨kept, isMonitors, isConditions, keeps⟩

/-- A philosopher that is not gone is alive. -/
theorem Begins.alive_last (begins : Begins cast idle first)
    (run : Relation.ReflTransGen (MonitorProgramStep idle (next cast)) first last) :
    ∀ thread ∈ cast.philosophers, last.program.pc thread ≠ .gone → thread ∈ last.run.live := by
  have alive : ∀ thread, (next cast thread last.program).isSome → thread ∈ last.run.live := by
    induction run with
    | refl =>
        intro thread steps
        by_cases mem : thread ∈ cast.philosophers
        · exact begins.alive.2 thread mem
        · by_cases isMain : thread = cast.main
          · exact isMain ▸ begins.alive.1
          · rw [next_none mem isMain] at steps
            cases steps
    | tail _ step ih =>
        apply MonitorProgram.alive_step _ ih step
        intro thread program called program' takes other different none
        by_cases mem : other ∈ cast.philosophers
        · rw [next_gone mem] at none ⊢
          rwa [next_apart takes different]
        · by_cases isMain : other = cast.main
          · -- the main thread has ended the simulation
            unfold next at none ⊢
            rw [if_neg mem, if_pos isMain] at none ⊢
            split_ifs at none with ended
            rcases next_cases takes with ⟨-, pc, shared, steps, rfl⟩ | ⟨-, -, rfl⟩
            · exact if_pos ((step_ended steps).trans ended)
            · exact if_pos rfl
          · exact next_none mem isMain
  intro thread mem stays
  apply alive
  rw [Option.isSome_iff_ne_none, Ne, next_gone mem]
  exact stays

section Sample

/-- Two philosophers. -/
def sampleCast : Cast where
  philosophers := {7000, 7200}
  phil thread := if thread = 7000 then 0 else 1
  main := 7400
  phnum := 2
  m := 5000
  q k := if k = 0 then 6000 else 6008

def sampleState : State := ⟨⟨fun _ => false, fun _ => 'O', false⟩, fun _ => .test⟩

/-- The threads, where the second philosopher and the main thread have these priorities. -/
def sampleThreads (second main : Int) : Except Fault Kernel := do
  let started ← Kernel.boot.kthreadsInit 8184 7960 100
  let created ← started.kthreadCreate 8200 7000 6 true 100
  let created ← created.kthreadCreate 8300 7200 second true 100
  let created ← created.kthreadCreate 8400 7400 main true 100
  created.kthreadsSchedule

/-- The kernel in which the threads begin. -/
def sampleKernel (kernel : Kernel) : MonitorKernel :=
  let monitor := (MonitorRun.begin 7960 kernel).state.sysMonitorInit 4000 5000
  let left := monitor.2.sysMonitorQueueInit 4500 6000
  (left.2.sysMonitorQueueInit 4508 6008).2

/-- The run in which the threads begin. -/
def sampleFirst (kernel : Kernel) : MonitorProgram State where
  run := { MonitorRun.begin 7960 kernel with
    state := sampleKernel kernel
    live := {7400, 7200, 7000, 7960}
    monitors := insert 5000 ∅
    conditions := insert 6008 (insert 6000 ∅) }
  program := sampleState
  steps := 0

theorem sampleCast_sensible : sampleCast.Sensible where
  injective := by
    intro thread mem other otherMem same
    simp [sampleCast] at mem otherMem same
    rcases mem with rfl | rfl <;> rcases otherMem with rfl | rfl <;> simp_all
  below := by
    intro thread mem
    simp [sampleCast]
    split <;> decide
  two := by decide
  queues := by
    intro i below j below' same
    have bound : i < 2 := below
    have bound' : j < 2 := below'
    simp only [sampleCast] at same
    split at same <;> split at same
    · omega
    · cases same
    · cases same
    · omega
  apart := by decide

theorem sample_begins {second main : Int} {kernel : Kernel}
    (evaluated : sampleThreads second main = .ok kernel)
    (known : (do
      let started ← Kernel.boot.kthreadsInit 8184 7960 100
      let first ← started.kthreadCreate 8200 7000 6 true 100
      let second ← first.kthreadCreate 8300 7200 second true 100
      return decide ((started.thread 7960).proc = 100 ∧ (first.thread 7960).proc = 100 ∧
        (second.thread 7960).proc = 100)) = (.ok true : Except Fault Bool))
    (fresh : (sampleThreads second main).map (fun kernel => decide (
      let monitor := (MonitorRun.begin 7960 kernel).state.sysMonitorInit 4000 5000
      let left := monitor.2.sysMonitorQueueInit 4500 6000
      let right := left.2.sysMonitorQueueInit 4508 6008
      kernel.sched.queues.listGet (.monitor 5000) FIRST = 0 ∧ monitor.1 = -SUCCESS ∧
        monitor.2.kernel.sched.queues.listGet (.monitorQueue 6000) FIRST = 0 ∧
        left.1 = -SUCCESS ∧ left.2.kernel.sched.queues.listGet (.monitorQueue 6008) FIRST = 0 ∧
        right.1 = -SUCCESS)) = .ok true) :
    Begins sampleCast 7960 (sampleFirst kernel) := by
  rw [evaluated] at fresh
  obtain ⟨noEntry, success, noLeft, successLeft, noRight, successRight⟩ :=
    of_decide_eq_true (Except.ok.inj fresh)
  unfold sampleThreads at evaluated
  obtain ⟨started, starts, evaluated⟩ := bind_ok evaluated
  obtain ⟨first, createsFirst, evaluated⟩ := bind_ok evaluated
  obtain ⟨second, createsSecond, evaluated⟩ := bind_ok evaluated
  obtain ⟨third, createsThird, schedules⟩ := bind_ok evaluated
  simp only [starts, createsFirst, createsSecond, bind, Except.bind] at known
  obtain ⟨proc, proc', proc''⟩ := of_decide_eq_true (Except.ok.inj known)
  have quiet := Quiet.init (by decide) starts
  have quiet := quiet.create (by decide) (by decide) ⟨7960, rfl, proc⟩ createsFirst
  have quiet := quiet.create (by decide) (by decide) ⟨7960, .inr rfl, proc'⟩ createsSecond
  have quiet := quiet.create (by decide) (by decide) ⟨7960, .inr (.inr rfl), proc''⟩ createsThird
  obtain ⟨members, kept⟩ := (quiet.schedule schedules).noMonitors
  have kept := kept.init (Set.notMem_empty 5000) (fun members linked => linked.eq_nil noEntry)
    (Prod.ext success rfl)
  have kept := kept.queueInit (Set.notMem_empty 6000) (fun members linked => linked.eq_nil noLeft)
    (Prod.ext successLeft rfl)
  have absent : (6008 : Ptr) ∉ (insert 6000 ∅ : Set Ptr) := by simp
  have kept := kept.queueInit absent
    (fun members linked => linked.eq_nil noRight) (Prod.ext successRight rfl)
  constructor
  case kept => exact ⟨members, _, kept⟩
  case vacant => exact ⟨fun _ => rfl, fun _ => rfl⟩
  case monitor => exact Set.mem_insert 5000 _
  case conditions =>
    intro k below
    have bound : k < 2 := below
    simp only [sampleCast, sampleFirst]
    split <;> simp
  case apart => decide
  case alive =>
    refine ⟨by simp [sampleCast, sampleFirst], fun thread mem => ?_⟩
    simp [sampleCast] at mem
    rcases mem with rfl | rfl <;> simp [sampleFirst]
  case starts =>
    constructor
    all_goals simp [sampleFirst, sampleState]

/-- The active thread goes on by so many steps and blocks, and so does the next one. -/
def sampleEpisodes : List Nat → MonitorKernel × State → Except Fault (MonitorKernel × State)
  | [], state => .ok state
  | n :: rest, state => do
      let after ← MonitorProgram.advance (next sampleCast) n state
      if after.1.kernel.activeThread = 7960 then return after
      let kernel ← (after.1.kernel.kthreadEnqueue (.sem 9000)).kthreadsSchedule
      sampleEpisodes rest ({ after.1 with kernel := kernel }, after.2)

theorem sample_reaches (first : MonitorProgram State) {episodes : List Nat} {after : MonitorKernel × State}
    (result : sampleEpisodes episodes (first.run.state, first.program) = .ok after) :
    ∃ last, Relation.ReflTransGen (MonitorProgramStep 7960 (next sampleCast)) first last ∧
      last.run.state = after.1 ∧ last.program = after.2 := by
  induction episodes generalizing first with
  | nil =>
      obtain rfl := Except.ok.inj result
      exact ⟨first, .refl, rfl, rfl⟩
  | cons n rest ih =>
      unfold sampleEpisodes at result
      obtain ⟨stopped, advances, result⟩ := bind_ok result
      obtain ⟨middle, run, isState, isProgram⟩ := MonitorProgram.advance_reaches first advances
      split at result
      · obtain rfl := Except.ok.inj result
        exact ⟨middle, run, isState, isProgram⟩
      · rename_i notIdle
        obtain ⟨kernel, schedules, result⟩ := bind_ok result
        rw [← isState] at notIdle schedules result
        rw [← isProgram] at result
        let switched : MonitorProgram State := { middle with run := { middle.run with
          state := { middle.run.state with kernel := kernel } } }
        have blocks : MonitorProgramStep 7960 (next sampleCast) middle switched :=
          .other (MonitorRun.Spared.block rfl notIdle (by simp) (by simp) (by simp) (by simp)
            schedules) fun _ mem _ => mem
        obtain ⟨last, run', isLast⟩ := ih switched result
        exact ⟨last, (run.tail blocks).trans run', isLast⟩

end Sample

/-- In every run a stick is taken exactly when one philosopher has it, and by one only; who eats
has both sticks; and no two neighbours are shown eating at the same time. -/
theorem neighbours_apart (sensible : cast.Sensible) (begins : Begins cast idle first)
    (run : Relation.ReflTransGen (MonitorProgramStep idle (next cast)) first last) :
    (∀ k < cast.phnum, last.program.shared.stick k = true ↔ ∃ thread ∈ cast.philosophers,
      cast.Holds (last.program.pc thread) (cast.phil thread) k) ∧
    (∀ k, ∀ thread ∈ cast.philosophers, ∀ other ∈ cast.philosophers,
      cast.Holds (last.program.pc thread) (cast.phil thread) k →
        cast.Holds (last.program.pc other) (cast.phil other) k → other = thread) ∧
    (∀ thread ∈ cast.philosophers, last.program.pc thread = .eat →
      last.program.shared.stick (cast.phil thread) = true ∧
        last.program.shared.stick (cast.right (cast.phil thread)) = true) ∧
    ∀ thread ∈ cast.philosophers, ∀ other ∈ cast.philosophers,
      cast.phil other = cast.right (cast.phil thread) →
        ¬ (last.program.shared.phs (cast.phil thread) = 'X' ∧
          last.program.shared.phs (cast.phil other) = 'X') := by
  obtain ⟨-, -, -, kept⟩ := begins.keeps sensible run
  have shown : ∀ pc : Pc, pc.shown = 'X' → pc.dines = true := by
    intro pc isCross
    cases pc <;> simp_all [Pc.shown, Pc.dines]
  refine ⟨kept.sticks, fun k thread mem other otherMem holds holds' => ?_,
    fun thread mem isPc => ⟨?_, ?_⟩, fun thread mem other otherMem isRight eats => ?_⟩
  · exact kept.apart thread mem other otherMem k (holds_uses holds) (holds_uses holds')
      (holds_dines holds) (holds_dines holds')
  · rw [kept.sticks _ (sensible.below thread mem)]
    exact ⟨thread, mem, .inl ⟨by simp [isPc, Pc.holdsLeft], rfl⟩⟩
  · rw [kept.sticks _ (right_lt sensible)]
    exact ⟨thread, mem, .inr ⟨by simp [isPc, Pc.holdsRight], rfl⟩⟩
  · rw [kept.phs thread mem, kept.phs other otherMem] at eats
    have same := kept.apart thread mem other otherMem (cast.phil other) (.inr isRight) (.inl rfl)
      (shown _ eats.1) (shown _ eats.2)
    subst same
    exact right_ne sensible (sensible.below other mem) isRight.symm

/-- The first philosopher eats. -/
theorem neighbours_apart_sample : ∃ first last : MonitorProgram State,
    Begins sampleCast 7960 first ∧
    Relation.ReflTransGen (MonitorProgramStep 7960 (next sampleCast)) first last ∧
    last.program.pc 7000 = .eat ∧ last.program.shared.stick 0 = true ∧
      last.program.shared.stick 1 = true := by
  have evaluated : (do
      let kernel ← sampleThreads 5 4
      let after ← sampleEpisodes [10, 6] (sampleKernel kernel, sampleState)
      return decide (after.2.pc 7000 = .eat)) = (.ok true : Except Fault Bool) := by
    decide +kernel
  obtain ⟨kernel, threads, evaluated⟩ := bind_ok evaluated
  obtain ⟨after, episodes, evaluated⟩ := bind_ok evaluated
  have begins := sample_begins threads (by decide +kernel) (by decide +kernel)
  obtain ⟨last, run, -, isProgram⟩ := sample_reaches (sampleFirst kernel) episodes
  rw [← isProgram] at evaluated
  have eats := of_decide_eq_true (Except.ok.inj evaluated)
  obtain ⟨left, right⟩ := (neighbours_apart sampleCast_sensible begins run).2.2.1 7000 (by decide)
    eats
  exact ⟨_, last, begins, run, eats, left, right⟩

/-- In every run a philosopher that waits for its neighbours will be signalled by one of them, and
as long as a philosopher is not gone, one of them is in no queue of the monitor. -/
theorem philosophers_progress (sensible : cast.Sensible) (begins : Begins cast idle first)
    (run : Relation.ReflTransGen (MonitorProgramStep idle (next cast)) first last) :
    ∃ members all, Coherent last.run.state.kernel idle last.run.live members all ∧
      (∀ thread ∈ cast.philosophers,
        thread ∈ members (.monitorQueue (cast.q (cast.phil thread))) →
          ∃ other ∈ cast.philosophers, other ∈ last.run.live ∧
            cast.Owes (last.program.pc other) (cast.phil other) (cast.phil thread)) ∧
      ∀ thread ∈ cast.philosophers, last.program.pc thread ≠ .gone →
        ∃ other ∈ cast.philosophers, other ∈ last.run.live ∧ last.program.pc other ≠ .gone ∧
          other ∉ members (.monitor cast.m) ∧
            ∀ k < cast.phnum, other ∉ members (.monitorQueue (cast.q k)) := by
  obtain ⟨⟨members, all, keeps⟩, isMonitors, isConditions, kept⟩ := begins.keeps sensible run
  have isMonitor : cast.m ∈ last.run.monitors := isMonitors ▸ begins.monitor
  have isQueue : ∀ k < cast.phnum, cast.q k ∈ last.run.conditions := isConditions ▸ begins.conditions
  have alive := begins.alive_last run
  refine ⟨members, all, keeps.coherent, fun thread mem waits => ?_, fun thread mem stays => ?_⟩
  · rw [← keeps.shows.condition _ (isQueue _ (sensible.below thread mem))] at waits
    obtain ⟨other, otherMem, owes⟩ := kept.wakes thread mem _ waits
    exact ⟨other, otherMem, alive other otherMem (owes_pc owes).1, owes⟩
  · obtain ⟨other, otherMem, otherStays, free⟩ := kept.not_stuck mem stays
    refine ⟨other, otherMem, alive other otherMem otherStays, otherStays, ?_, fun k below => ?_⟩
    · rw [← keeps.shows.entry _ isMonitor]
      exact free _
    · rw [← keeps.shows.condition _ (isQueue k below)]
      exact free _

/-- The second philosopher waits for the first one. -/
theorem philosophers_progress_sample : ∃ first last : MonitorProgram State,
    Begins sampleCast 7960 first ∧
    Relation.ReflTransGen (MonitorProgramStep 7960 (next sampleCast)) first last ∧
    last.run.state.kernel.sched.queues.listGet (.monitorQueue 6008) FIRST = 7200 ∧
    ∃ members all, Coherent last.run.state.kernel 7960 last.run.live members all ∧
      ∃ other ∈ sampleCast.philosophers, other ∈ last.run.live ∧
        last.program.pc other ≠ .gone ∧ other ∉ members (.monitor 5000) := by
  have evaluated : (do
      let kernel ← sampleThreads 5 4
      let after ← sampleEpisodes [10, 6] (sampleKernel kernel, sampleState)
      return decide (after.1.kernel.sched.queues.listGet (.monitorQueue 6008) FIRST = 7200 ∧
        after.2.pc 7000 = .eat)) = (.ok true : Except Fault Bool) := by
    decide +kernel
  obtain ⟨kernel, threads, evaluated⟩ := bind_ok evaluated
  obtain ⟨after, episodes, evaluated⟩ := bind_ok evaluated
  have begins := sample_begins threads (by decide +kernel) (by decide +kernel)
  obtain ⟨last, run, isState, isProgram⟩ := sample_reaches (sampleFirst kernel) episodes
  rw [← isState, ← isProgram] at evaluated
  obtain ⟨waits, eats⟩ := of_decide_eq_true (Except.ok.inj evaluated)
  obtain ⟨members, all, coherent, -, progress⟩ :=
    philosophers_progress sampleCast_sensible begins run
  obtain ⟨other, mem, alive, stays, free, -⟩ := progress 7000 (by decide) (by simp [eats])
  exact ⟨_, last, begins, run, waits, members, all, coherent, other, mem, alive, stays, free⟩

theorem rank_le : pc.rank ≤ 24 := by
  cases pc <;> decide

theorem Kept.measure_nonneg (kept : Kept cast rooms state) : 0 ≤ measure cast rooms state := by
  have atLeast : ∑ thread ∈ cast.philosophers, (if thread ∈ waiters cast rooms then (3 : Int) else 0) ≤
      ∑ thread ∈ cast.philosophers, (state.pc thread).rank := by
    apply Finset.sum_le_sum
    intro thread mem
    split_ifs with waits
    · obtain ⟨-, condition, inQueue⟩ := mem_waiters.mp waits
      rw [(kept.checks inQueue).2]
      decide
    · cases state.pc thread <;> decide
  have count : ∑ thread ∈ cast.philosophers,
      (if thread ∈ waiters cast rooms then (3 : Int) else 0) = 3 * (waiters cast rooms).card := by
    have inside : waiters cast rooms ⊆ cast.philosophers := fun thread waits =>
      (mem_waiters.mp waits).1
    rw [← Finset.sum_filter, Finset.filter_mem_eq_inter, Finset.inter_eq_right.mpr inside,
      Finset.sum_const, nsmul_eq_mul, Int.mul_comm]
  unfold measure
  omega

/-- When the main thread has ended the simulation, the philosophers take a bounded number of steps
in the rest of every run. -/
theorem simulation_ends (sensible : cast.Sensible) (begins : Begins cast idle first)
    (begun : Relation.ReflTransGen (MonitorProgramStep idle (next cast)) first middle)
    (ended : middle.program.shared.terminateSimulation = true)
    (run : Relation.ReflTransGen (MonitorProgramStep idle (next cast)) middle last) :
    last.steps ≤ middle.steps + 24 * cast.philosophers.card := by
  obtain ⟨keeps, isMonitors, isConditions, kept⟩ := begins.keeps sensible begun
  have most := Finset.sum_le_card_nsmul cast.philosophers
    (fun thread => (middle.program.pc thread).rank) 24 fun _ _ => rank_le
  have start : measure cast middle.run.rooms middle.program ≤ 24 * cast.philosophers.card := by
    rw [nsmul_eq_mul] at most
    unfold measure
    omega
  obtain ⟨-, -, -, kept', -, bound⟩ := runs_kept (fun rooms program n =>
      program.shared.terminateSimulation = true ∧
        n + measure cast rooms program ≤ middle.steps + 24 * cast.philosophers.card)
    sensible run begins.apart (isMonitors ▸ begins.monitor) (isConditions ▸ begins.conditions) keeps
    ⟨kept, ended, by omega⟩ fun kept held step => by
      obtain ⟨still, less⟩ := kept.measure_step held.1 step
      have before := held.2
      exact ⟨still, by push_cast; omega⟩
  have nonneg := kept'.measure_nonneg
  omega

/-- The main thread ends the simulation, and then the second philosopher is gone. -/
theorem simulation_ends_sample : ∃ first middle last : MonitorProgram State,
    Begins sampleCast 7960 first ∧
    Relation.ReflTransGen (MonitorProgramStep 7960 (next sampleCast)) first middle ∧
    middle.program.shared.terminateSimulation = true ∧
    Relation.ReflTransGen (MonitorProgramStep 7960 (next sampleCast)) middle last ∧
    last.program.pc 7200 = .gone ∧ last.steps ≤ middle.steps + 48 := by
  have evaluated : (do
      let kernel ← sampleThreads 4 5
      let ended ← sampleEpisodes [10, 1] (sampleKernel kernel, sampleState)
      let after ← sampleEpisodes [1] ended
      return decide (ended.2.shared.terminateSimulation = true ∧ after.2.pc 7200 = .gone)) =
        (.ok true : Except Fault Bool) := by
    decide +kernel
  obtain ⟨kernel, threads, evaluated⟩ := bind_ok evaluated
  obtain ⟨ended, episodes, evaluated⟩ := bind_ok evaluated
  obtain ⟨after, episodes', evaluated⟩ := bind_ok evaluated
  have begins := sample_begins threads (by decide +kernel) (by decide +kernel)
  obtain ⟨middle, begun, isState, isProgram⟩ :=
    sample_reaches (sampleFirst kernel) episodes
  rw [← Prod.eta ended, ← isState, ← isProgram] at episodes'
  obtain ⟨last, run, -, isProgram'⟩ := sample_reaches middle episodes'
  rw [← isProgram, ← isProgram'] at evaluated
  obtain ⟨isEnded, isGone⟩ := of_decide_eq_true (Except.ok.inj evaluated)
  exact ⟨_, middle, last, begins, begun, isEnded, run, isGone,
    simulation_ends sampleCast_sensible begins begun isEnded run⟩

end Program

end Philosophers

end Oseer
