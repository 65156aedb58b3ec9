import Mathlib.Logic.Relation
import Oseer.MonitorRuns

/-!
# One thread inside of a monitor

In runs with any number of monitors and of queues for conditions the owner of a monitor is the
thread that was made its owner and has not left it since, and every thread that blocks comes back
as the owner.  A thread that locks a monitor twice is lost: it waits for itself.
-/

namespace Oseer

open LinkedRing Results MonitorRooms

/-- The kernel with the threads alive, the monitors and the queues for conditions that exist, and
who is where. -/
structure MonitorRun where
  state : MonitorKernel
  live : Set Ptr
  monitors : Set Ptr
  conditions : Set Ptr
  rooms : Rooms Ptr Ptr Ptr

namespace MonitorRun

/-- The active thread. -/
def self (run : MonitorRun) : Ptr := run.state.kernel.activeThread

/-- A change of the kernel outside of the monitors and the queues that stay. -/
def Spared (idle : Ptr) (run : MonitorRun) (kernel : Kernel) (live monitors conditions : Set Ptr) :
    Prop :=
  ∀ members all, Coherent run.state.kernel idle run.live members all →
    ∃ members' all', Coherent kernel idle live members' all' ∧
      (∀ kmonitor ∈ monitors, members' (.monitor kmonitor) = members (.monitor kmonitor) ∧
        kernel.monitors kmonitor = run.state.kernel.monitors kmonitor) ∧
      ∀ kqueue ∈ conditions, members' (.monitorQueue kqueue) = members (.monitorQueue kqueue) ∧
        ∀ thread ∈ members (.monitorQueue kqueue),
          (kernel.thread thread).qdata = (run.state.kernel.thread thread).qdata

/-- Only monitors and queues that nobody uses are destroyed. -/
def Unused (run : MonitorRun) (monitors conditions : Set Ptr) : Prop :=
  (∀ kmonitor ∈ run.monitors, kmonitor ∉ monitors → run.rooms.inside kmonitor = [] ∧
    ∀ thread, ¬ run.rooms.Blocked kmonitor thread) ∧
  ∀ kqueue ∈ run.conditions, kqueue ∉ conditions → run.rooms.queue (.condition kqueue) = []

end MonitorRun

/-- A monitor or a queue is created, the active thread makes a call, or anything else happens.
Where `again` does not hold no thread locks a monitor that it is inside of. -/
inductive MonitorUse (idle : Ptr) (again : Prop) : MonitorRun → MonitorRun → Prop
  | init {run : MonitorRun} {state : MonitorKernel} (monitor kmonitor : Ptr)
      (unused : kmonitor ∉ run.monitors)
      (fresh : ∀ members : Members, run.state.kernel.sched.queues.Linked members →
        members (.monitor kmonitor) = [])
      (result : run.state.sysMonitorInit monitor kmonitor = (-SUCCESS, state)) :
      MonitorUse idle again run { run with
        state := state
        monitors := insert kmonitor run.monitors }
  | queueInit {run : MonitorRun} {state : MonitorKernel} (queue kqueue : Ptr)
      (unused : kqueue ∉ run.conditions)
      (fresh : ∀ members : Members, run.state.kernel.sched.queues.Linked members →
        members (.monitorQueue kqueue) = [])
      (result : run.state.sysMonitorQueueInit queue kqueue = (-SUCCESS, state)) :
      MonitorUse idle again run { run with
        state := state
        conditions := insert kqueue run.conditions }
  | lock {run : MonitorRun} {state : MonitorKernel} {code : Int} {kmonitor : Ptr}
      (known : kmonitor ∈ run.monitors) (notIdle : run.self ≠ idle)
      (absent : again ∨ run.self ∉ run.rooms.inside kmonitor)
      (result : run.state.sysMonitorLock (some kmonitor) = .ok (code, state)) :
      MonitorUse idle again run { run with
        state := state
        rooms := run.rooms.enter kmonitor run.self }
  | unlock {run : MonitorRun} {state : MonitorKernel} {code : Int} {kmonitor : Ptr}
      (known : kmonitor ∈ run.monitors)
      (result : run.state.sysMonitorUnlock (some kmonitor) = .ok (code, state)) :
      MonitorUse idle again run { run with
        state := state
        rooms := if run.self ∈ run.rooms.inside kmonitor then run.rooms.leave kmonitor run.self
          else run.rooms }
  | wait {run : MonitorRun} {state : MonitorKernel} {code : Int} {kmonitor kqueue : Ptr}
      (known : kmonitor ∈ run.monitors) (known' : kqueue ∈ run.conditions)
      (notIdle : run.self ≠ idle)
      (result : run.state.sysMonitorWait (some kmonitor) (some kqueue) = .ok (code, state)) :
      MonitorUse idle again run { run with
        state := state
        rooms := if run.self ∈ run.rooms.inside kmonitor then
          run.rooms.await kqueue kmonitor run.self
          else run.rooms }
  | signal {run : MonitorRun} {state : MonitorKernel} {code : Int} {kqueue : Ptr}
      (known : kqueue ∈ run.conditions)
      (result : run.state.sysMonitorSignal (some kqueue) = .ok (code, state)) :
      MonitorUse idle again run { run with
        state := state
        rooms := run.rooms.signal kqueue }
  | broadcast {run : MonitorRun} {state : MonitorKernel} {code : Int} {kqueue : Ptr}
      (known : kqueue ∈ run.conditions)
      (result : run.state.sysMonitorBroadcast (some kqueue) = .ok (code, state)) :
      MonitorUse idle again run { run with
        state := state
        rooms := run.rooms.broadcast kqueue }
  | other {run : MonitorRun} {state : MonitorKernel} {live monitors conditions : Set Ptr}
      (fewer : monitors ⊆ run.monitors) (fewer' : conditions ⊆ run.conditions)
      (unused : run.Unused monitors conditions)
      (spared : run.Spared idle state.kernel live monitors conditions) :
      MonitorUse idle again run { run with
        state := state
        live := live
        monitors := monitors
        conditions := conditions }

/-- What holds of the monitors at any time: at most one thread is inside, the monitor names it and
is locked, and nobody queues up for one that is not locked; a thread that is inside is in no queue
of the monitor, and one that blocked is in one of them. -/
structure MonitorRun.Exclusive (run : MonitorRun) (members : Members) : Prop where
  nodup : ∀ queue, (members queue).Nodup
  apart : ∀ queue queue' thread, thread ∈ members queue → thread ∈ members queue' → queue = queue'
  state : ∀ kmonitor ∈ run.monitors,
    (run.rooms.inside kmonitor = [] ∧ run.state.kernel.monitors kmonitor = ⟨false, 0⟩ ∧
      members (.monitor kmonitor) = []) ∨
    ∃ thread, run.rooms.inside kmonitor = [thread] ∧
      run.state.kernel.monitors kmonitor = ⟨true, thread⟩
  outside : ∀ kmonitor ∈ run.monitors, ∀ thread ∈ run.rooms.inside kmonitor,
    thread ∉ members (.monitor kmonitor) ∧ ∀ kqueue ∈ run.conditions,
      thread ∈ members (.monitorQueue kqueue) →
        (run.state.kernel.thread thread).qdata ≠ kmonitor
  blocked : ∀ kmonitor ∈ run.monitors, ∀ thread, run.rooms.Blocked kmonitor thread ↔
    thread ∈ members (.monitor kmonitor) ∨ ∃ kqueue ∈ run.conditions,
      thread ∈ members (.monitorQueue kqueue) ∧
        (run.state.kernel.thread thread).qdata = kmonitor

/-- The first threads that wait for a condition come back to their monitors, in order and behind
those that are there. -/
def MonitorRun.Moves (run run' : MonitorRun) (members members' : Members) (kqueue : Ptr)
    (n : Nat) : Prop :=
  members' (.monitorQueue kqueue) = (members (.monitorQueue kqueue)).drop n ∧
    ∀ kmonitor ∈ run.monitors, run'.rooms.inside kmonitor ++ members' (.monitor kmonitor) =
      run.rooms.inside kmonitor ++ members (.monitor kmonitor) ++
        ((members (.monitorQueue kqueue)).take n).filter fun thread =>
          (run.state.kernel.thread thread).qdata = kmonitor

/-- The run after a signal or a broadcast. -/
def MonitorRun.released (run : MonitorRun) (kqueue : Ptr) (broadcast : Bool)
    (state : MonitorKernel) : MonitorRun :=
  { run with
    state := state
    rooms := if broadcast then run.rooms.broadcast kqueue else run.rooms.signal kqueue }

/-- The invariant of a run. -/
structure MonitorRun.Kept (idle : Ptr) (run : MonitorRun) (members : Members) (all : List Ptr) :
    Prop where
  coherent : Coherent run.state.kernel idle run.live members all
  shows : ShowsRooms run.state.kernel members run.monitors run.conditions run.rooms
  consistent : run.rooms.Consistent
  nonzero : ∀ kmonitor ∈ run.monitors, kmonitor ≠ 0
  nonzero' : ∀ kqueue ∈ run.conditions, kqueue ≠ 0

namespace MonitorRun

variable {idle kmonitor kqueue thread : Ptr} {run run' : MonitorRun} {state : MonitorKernel}
  {members : Members} {all : List Ptr} {code : Int}

theorem Kept.exclusive (kept : run.Kept idle members all) : run.Exclusive members where
  nodup := fun _ => kept.coherent.sound.linked.nodup_members
  apart := fun queue queue' thread => kept.coherent.sound.linked.apart queue queue' thread
  state := by
    intro kmonitor known
    have lock := kept.shows.lock kmonitor known
    have owner := kept.shows.owner kmonitor known
    have alone := kept.consistent.alone kmonitor
    cases shape : run.rooms.inside kmonitor with
    | nil =>
        left
        rw [shape] at lock owner
        have free : (run.state.kernel.monitors kmonitor).lock = false := by
          rw [Bool.eq_false_iff]
          exact fun locked => lock.mp locked rfl
        refine ⟨rfl, congrArg₂ Monitor.mk free owner, ?_⟩
        · rw [← kept.shows.entry kmonitor known]
          exact kept.consistent.shut kmonitor shape
    | cons thread rest =>
        right
        have mem : thread ∈ run.rooms.inside kmonitor := by simp [shape]
        have one := kept.consistent.inside_eq mem
        rw [shape] at one
        rw [shape] at lock owner
        refine ⟨thread, one, ?_⟩
        have locked := lock.mpr (by simp)
        exact congrArg₂ Monitor.mk locked owner
  outside := by
    intro kmonitor known thread mem
    obtain ⟨notEntry, notCondition⟩ := kept.consistent.outside kmonitor thread mem
    rw [kept.shows.entry kmonitor known] at notEntry
    refine ⟨notEntry, fun kqueue known' waits => ?_⟩
    rw [← (kept.shows.back kqueue known' thread waits).1]
    exact notCondition kqueue (by rwa [kept.shows.condition kqueue known'])
  blocked := by
    intro kmonitor known thread
    unfold Rooms.Blocked
    rw [kept.shows.entry kmonitor known]
    apply or_congr_right
    constructor
    · rintro ⟨kqueue, waits, back⟩
      by_cases known' : kqueue ∈ run.conditions
      · rw [kept.shows.condition kqueue known'] at waits
        refine ⟨kqueue, known', waits, ?_⟩
        rw [← (kept.shows.back kqueue known' thread waits).1]
        exact back
      · rw [kept.shows.bare kqueue known'] at waits
        cases waits
    · rintro ⟨kqueue, known', waits, isMonitor⟩
      refine ⟨kqueue, by rwa [kept.shows.condition kqueue known'], ?_⟩
      rw [(kept.shows.back kqueue known' thread waits).1]
      exact isMonitor

theorem Kept.free (kept : run.Kept idle members all) : ∀ place, run.self ∉ run.rooms.queue place :=
  kept.shows.free fun _ => kept.coherent.active_free

/-- A new monitor, where no thread waits at its address. -/
theorem Kept.init {monitor : Ptr} (kept : run.Kept idle members all)
    (unused : kmonitor ∉ run.monitors)
    (fresh : ∀ members : Members, run.state.kernel.sched.queues.Linked members →
      members (.monitor kmonitor) = [])
    (result : run.state.sysMonitorInit monitor kmonitor = (-SUCCESS, state)) :
    Kept idle { run with state := state, monitors := insert kmonitor run.monitors } members all := by
  have empty := fresh members kept.coherent.sound.linked
  have sameQueues := kept.coherent.sound.linked.listInit_eq empty
  unfold MonitorKernel.sysMonitorInit at result
  split at result
  · cases (Prod.mk.inj result).1
  split at result
  · cases (Prod.mk.inj result).1
  rename_i nonzero
  have stored := MonitorKernel.setLock_setOwner_monitors
    { run.state with inUse := Function.update run.state.inUse kmonitor true } kmonitor 0 false
  generalize isMade : (({ run.state with
      inUse := Function.update run.state.inUse kmonitor true } : MonitorKernel).setLock kmonitor
        false).setOwner kmonitor 0 = made at result stored
  have sched : made.kernel.sched = run.state.kernel.sched := by
    rw [← isMade]
    rfl
  have isKernel : state.kernel = made.kernel.setErrno SUCCESS := by
    rw [← (Prod.mk.inj result).2]
    apply congrArg (Kernel.setErrno SUCCESS)
    rw [← isMade]
    exact MonitorKernel.listInit_kernel sameQueues
  refine ⟨?_, ?_, kept.consistent, ?_, kept.nonzero'⟩
  · change Coherent state.kernel idle run.live members all
    rw [isKernel]
    apply Coherent.setErrno
    rw [← isMade]
    exact kept.coherent.of_same rfl rfl rfl rfl rfl rfl
  · change ShowsRooms state.kernel members _ _ _
    rw [isKernel]
    exact (kept.shows.create unused empty stored (by rw [sched])).setErrno SUCCESS
  · rintro other (rfl | old)
    · exact nonzero
    · exact kept.nonzero other old

theorem Kept.queueInit {queue : Ptr} (kept : run.Kept idle members all)
    (unused : kqueue ∉ run.conditions)
    (fresh : ∀ members : Members, run.state.kernel.sched.queues.Linked members →
      members (.monitorQueue kqueue) = [])
    (result : run.state.sysMonitorQueueInit queue kqueue = (-SUCCESS, state)) :
    Kept idle { run with state := state, conditions := insert kqueue run.conditions } members
      all := by
  have empty := fresh members kept.coherent.sound.linked
  have sameQueues := kept.coherent.sound.linked.listInit_eq empty
  unfold MonitorKernel.sysMonitorQueueInit at result
  split at result
  · cases (Prod.mk.inj result).1
  split at result
  · cases (Prod.mk.inj result).1
  rename_i nonzero
  have isKernel : state.kernel = run.state.kernel.setErrno SUCCESS := by
    rw [← (Prod.mk.inj result).2]
    apply congrArg (Kernel.setErrno SUCCESS)
    exact MonitorKernel.listInit_kernel sameQueues
  refine ⟨?_, ?_, kept.consistent, kept.nonzero, ?_⟩
  · change Coherent state.kernel idle run.live members all
    rw [isKernel]
    exact kept.coherent.setErrno SUCCESS
  · change ShowsRooms state.kernel members _ _ _
    rw [isKernel]
    exact (kept.shows.createQueue unused empty).setErrno SUCCESS
  · rintro other (rfl | old)
    · exact nonzero
    · exact kept.nonzero' other old

/-- `sys__monitor_lock` of a monitor that the active thread is not inside of. -/
theorem Kept.lock (kept : run.Kept idle members all) (known : kmonitor ∈ run.monitors)
    (notIdle : run.self ≠ idle) (absent : run.self ∉ run.rooms.inside kmonitor)
    (result : run.state.sysMonitorLock (some kmonitor) = .ok (code, state)) :
    ∃ members', Kept idle { run with
      state := state
      rooms := run.rooms.enter kmonitor run.self } members' all := by
  obtain ⟨state', members', locks, coherent, shows⟩ := MonitorKernel.sysMonitorLock_enters
    kept.coherent kept.shows known (kept.nonzero kmonitor known) notIdle
  obtain rfl := (Prod.mk.inj (Except.ok.inj (result.symm.trans locks))).2
  exact ⟨members', coherent, shows, kept.consistent.enter kept.free absent, kept.nonzero,
    kept.nonzero'⟩

theorem Kept.running (kept : run.Kept idle members all) : run.self ≠ 0 :=
  kept.coherent.sound.ne_zero kept.coherent.running.mem_alive

/-- A call that fails stores the error number only. -/
theorem Kept.fails (kept : run.Kept idle members all) (errnum : Int)
    (result : (.ok (run.state.exit errnum) : Except Fault (Int × MonitorKernel)) =
      .ok (code, state)) : Kept idle { run with state := state } members all := by
  obtain rfl := (Prod.mk.inj (Except.ok.inj result)).2
  exact ⟨kept.coherent.setErrno errnum, kept.shows.setErrno errnum, kept.consistent, kept.nonzero,
    kept.nonzero'⟩

theorem Kept.unlock (kept : run.Kept idle members all) (known : kmonitor ∈ run.monitors)
    (result : run.state.sysMonitorUnlock (some kmonitor) = .ok (code, state)) :
    ∃ members', Kept idle { run with
      state := state
      rooms := if run.self ∈ run.rooms.inside kmonitor then run.rooms.leave kmonitor run.self
        else run.rooms } members' all := by
  have nonzero := kept.nonzero kmonitor known
  by_cases mem : run.self ∈ run.rooms.inside kmonitor
  · obtain ⟨state', members', unlocks, coherent, shows⟩ := MonitorKernel.sysMonitorUnlock_leaves
      kept.coherent kept.shows known nonzero (kept.consistent.inside_eq mem)
    obtain rfl := (Prod.mk.inj (Except.ok.inj (result.symm.trans unlocks))).2
    rw [if_pos mem]
    exact ⟨members', coherent, shows, kept.consistent.leave mem, kept.nonzero, kept.nonzero'⟩
  · have fails := (MonitorKernel.notOwner_fails kept.shows known nonzero nonzero kept.running
      mem).1
    rw [if_neg mem]
    exact ⟨members, kept.fails _ (fails.symm.trans result)⟩

theorem Kept.wait (kept : run.Kept idle members all) (known : kmonitor ∈ run.monitors)
    (known' : kqueue ∈ run.conditions) (notIdle : run.self ≠ idle)
    (result : run.state.sysMonitorWait (some kmonitor) (some kqueue) = .ok (code, state)) :
    ∃ members', Kept idle { run with
      state := state
      rooms := if run.self ∈ run.rooms.inside kmonitor then
        run.rooms.await kqueue kmonitor run.self
        else run.rooms } members' all := by
  have nonzero := kept.nonzero kmonitor known
  have nonzero' := kept.nonzero' kqueue known'
  by_cases mem : run.self ∈ run.rooms.inside kmonitor
  · obtain ⟨state', members', waits, coherent, shows⟩ := MonitorKernel.sysMonitorWait_awaits
      kept.coherent kept.shows known nonzero known' nonzero' notIdle (kept.consistent.inside_eq mem)
    obtain rfl := (Prod.mk.inj (Except.ok.inj (result.symm.trans waits))).2
    rw [if_pos mem]
    exact ⟨members', coherent, shows, kept.consistent.await mem kept.free kqueue, kept.nonzero,
      kept.nonzero'⟩
  · have fails := (MonitorKernel.notOwner_fails kept.shows known nonzero nonzero' kept.running
      mem).2
    rw [if_neg mem]
    exact ⟨members, kept.fails _ (fails.symm.trans result)⟩

/-- `sys__monitor_signal` and `sys__monitor_broadcast`. -/
theorem Kept.release (kept : run.Kept idle members all) (known : kqueue ∈ run.conditions)
    (broadcast : Bool)
    (result : run.state.kMonitorRelease (some kqueue) broadcast = .ok (code, state)) :
    ∃ members', Kept idle { run with
      state := state
      rooms := if broadcast then run.rooms.broadcast kqueue else run.rooms.signal kqueue }
      members' all := by
  obtain ⟨state', members', releases, coherent, shows⟩ := MonitorKernel.kMonitorRelease_signals
    kept.coherent kept.shows known (kept.nonzero' kqueue known) broadcast
  obtain rfl := (Prod.mk.inj (Except.ok.inj (result.symm.trans releases))).2
  refine ⟨members', coherent, shows, ?_, kept.nonzero, kept.nonzero'⟩
  cases broadcast with
  | true => exact kept.consistent.signals kqueue _
  | false => exact kept.consistent.signal kqueue

theorem Kept.step (kept : run.Kept idle members all) (step : MonitorUse idle False run run') :
    ∃ members' all', run'.Kept idle members' all' := by
  cases step with
  | init monitor kmonitor unused fresh result =>
      exact ⟨members, all, kept.init unused fresh result⟩
  | queueInit queue kqueue unused fresh result =>
      exact ⟨members, all, kept.queueInit unused fresh result⟩
  | lock known notIdle absent result =>
      obtain ⟨members', kept'⟩ := kept.lock known notIdle (absent.resolve_left id) result
      exact ⟨members', all, kept'⟩
  | unlock known result =>
      obtain ⟨members', kept'⟩ := kept.unlock known result
      exact ⟨members', all, kept'⟩
  | wait known known' notIdle result =>
      obtain ⟨members', kept'⟩ := kept.wait known known' notIdle result
      exact ⟨members', all, kept'⟩
  | signal known result =>
      obtain ⟨members', kept'⟩ := kept.release known false result
      exact ⟨members', all, kept'⟩
  | broadcast known result =>
      obtain ⟨members', kept'⟩ := kept.release known true result
      exact ⟨members', all, kept'⟩
  | other fewer fewer' unused spared =>
      obtain ⟨members', all', coherent, sameMonitors, sameQueues⟩ :=
        spared members all kept.coherent
      have shrunk := kept.shows.fewer fewer fewer' unused.1 unused.2
      refine ⟨members', all', coherent, ?_, kept.consistent,
        fun kmonitor known => kept.nonzero kmonitor (fewer known),
        fun kqueue known => kept.nonzero' kqueue (fewer' known)⟩
      exact shrunk.congr (fun kmonitor known => (sameMonitors kmonitor known).2)
        (fun kmonitor known => (sameMonitors kmonitor known).1)
        (fun kqueue known => (sameQueues kqueue known).1)
        fun kqueue known => (sameQueues kqueue known).2

/-- A thread that blocked keeps waiting until it is inside. -/
theorem Kept.blocked (kept : run.Kept idle members all) {again : Prop}
    (step : MonitorUse idle again run run') (blocked : run.rooms.Blocked kmonitor thread) :
    run'.rooms.Blocked kmonitor thread ∨ thread ∈ run'.rooms.inside kmonitor := by
  have notSelf : thread ≠ run.self := by
    rintro rfl
    rcases blocked with waits | ⟨kqueue, waits, -⟩
    · exact kept.free _ waits
    · exact kept.free _ waits
  cases step with
  | init => exact .inl blocked
  | queueInit => exact .inl blocked
  | lock => exact .inl blocked.enter
  | unlock =>
      dsimp only
      split
      · exact blocked.leave
      · exact .inl blocked
  | wait =>
      dsimp only
      split
      · exact blocked.await notSelf _
      · exact .inl blocked
  | signal => exact blocked.signal _
  | broadcast => exact Rooms.signals_keep (.inl blocked) _
  | other => exact .inl blocked

/-- A signal moves one thread that waits, and a broadcast moves all. -/
theorem Kept.moves (kept : run.Kept idle members all) (known : kqueue ∈ run.conditions)
    (broadcast : Bool) : ∃ state members',
      run.state.kMonitorRelease (some kqueue) broadcast = .ok (-SUCCESS, state) ∧
      (run.released kqueue broadcast state).Exclusive members' ∧
      run.Moves (run.released kqueue broadcast state) members members' kqueue
        (if broadcast then (members (.monitorQueue kqueue)).length else 1) := by
  obtain ⟨state, members', releases, coherent, shows⟩ := MonitorKernel.kMonitorRelease_signals
    kept.coherent kept.shows known (kept.nonzero' kqueue known) broadcast
  let moved := if broadcast then (members (.monitorQueue kqueue)).length else 1
  have isSignals : (if broadcast then run.rooms.broadcast kqueue else run.rooms.signal kqueue) =
      run.rooms.signals kqueue moved := by
    cases broadcast with
    | true =>
        exact congrArg (fun queue => run.rooms.signals kqueue (List.length queue))
          (kept.shows.condition kqueue known)
    | false => rfl
  have consistent := kept.consistent.signals kqueue moved
  obtain ⟨left, lines⟩ : (run.rooms.signals kqueue moved).queue (.condition kqueue) = _ ∧ _ :=
    kept.consistent.signals_line moved
  rw [← isSignals] at consistent left lines
  have kept' : (run.released kqueue broadcast state).Kept idle members' all :=
    ⟨coherent, shows, consistent, kept.nonzero, kept.nonzero'⟩
  refine ⟨state, members', releases, kept'.exclusive, ?_, fun kmonitor known' => ?_⟩
  · rw [← shows.condition kqueue known, left, kept.shows.condition kqueue known]
  · have line := lines kmonitor
    unfold Rooms.line at line
    rw [shows.entry kmonitor known', kept.shows.entry kmonitor known',
      kept.shows.condition kqueue known] at line
    refine line.trans (congrArg _ (List.filter_congr fun thread mem => ?_))
    rw [(kept.shows.back kqueue known thread (List.mem_of_mem_take mem)).1]

section Others

variable {kernel : Kernel} {monitors conditions : Set Ptr}

/-- A new thread uses no monitor. -/
theorem Spared.create {stack proc : Ptr} {prio : Int}
    (unused : ∀ all : List Ptr, run.state.kernel.allThreads.Linked (fun _ => all) → thread ∉ all)
    (below : thread < addressCount)
    (known : ∃ mate ∈ run.live, (run.state.kernel.thread mate).proc = proc)
    (creates : run.state.kernel.kthreadCreate stack thread prio true proc = .ok kernel) :
    run.Spared idle kernel (insert thread run.live) monitors conditions := by
  intro members all coherent
  have fresh := unused all coherent.ledger.listed
  obtain ⟨members', coherent', waiting⟩ :=
    coherent.kthreadCreate fresh below known creates
  have roster := coherent.ledger.toRoster
  have pointers : stack ≠ 0 ∧ thread ≠ 0 := by
    apply not_or.mp
    intro null
    unfold Kernel.kthreadCreate at creates
    rw [if_pos null] at creates
    cases creates
  rw [roster.kthreadCreate_eq pointers.2 pointers.1] at creates
  split_ifs at creates
  have spec : Created run.state.kernel kernel thread stack (Kernel.clampPrio prio) proc :=
    Except.ok.inj creates ▸ Kernel.created_spec prio
  refine ⟨members', _, coherent', fun kmonitor _ => ⟨waiting _ rfl id, by rw [spec.monitors]⟩,
    fun kqueue _ => ⟨waiting _ rfl id, fun other waits => ?_⟩⟩
  rw [spec.others]
  rintro rfl
  exact fresh (roster.alive_listed other (coherent.sound.mem_alive _ other waits))

theorem Spared.schedule (schedules : run.state.kernel.kthreadsSchedule = .ok kernel) :
    run.Spared idle kernel run.live monitors conditions := by
  intro members all coherent
  obtain ⟨kernel', members', scheduled, coherent', data, same, waiting⟩ :=
    coherent.toSettled.scheduled
  obtain rfl := Except.ok.inj (schedules.symm.trans scheduled)
  exact ⟨members', all, coherent', fun kmonitor _ => ⟨waiting _ rfl, by rw [same]⟩,
    fun kqueue _ => ⟨waiting _ rfl, fun other _ => congrArg ThreadData.qdata (data other)⟩⟩

theorem unused_self : run.Unused run.monitors run.conditions :=
  ⟨fun _ known gone => absurd known gone, fun _ known gone => absurd known gone⟩

end Others

end MonitorRun

section Runs

variable {idle stack kernelProc : Ptr} {first last : MonitorRun}

/-- In every run where no thread locks a monitor that it is inside of, the monitors are exclusive
and no thread that waits is lost, and only the thread inside can unlock or wait. -/
theorem monitors_exclude (below : idle < addressCount)
    (starts : Kernel.boot.kthreadsInit stack idle kernelProc = .ok first.state.kernel)
    (alone : first.live = {idle}) (none : first.monitors = ∅) (none' : first.conditions = ∅)
    (empty : ∀ kmonitor, first.rooms.inside kmonitor = [])
    (empty' : ∀ place, first.rooms.queue place = [])
    (run : Relation.ReflTransGen (MonitorUse idle False) first last) :
    ∃ members all, Coherent last.state.kernel idle last.live members all ∧
      last.Exclusive members ∧
      (∀ next, MonitorUse idle False last next → ∀ kmonitor thread,
        last.rooms.Blocked kmonitor thread →
          next.rooms.Blocked kmonitor thread ∨ thread ∈ next.rooms.inside kmonitor) ∧
      (∀ kqueue ∈ last.conditions, ∀ broadcast, ∃ state members',
        last.state.kMonitorRelease (some kqueue) broadcast = .ok (-SUCCESS, state) ∧
        (last.released kqueue broadcast state).Exclusive members' ∧
        last.Moves (last.released kqueue broadcast state) members members' kqueue
          (if broadcast then (members (.monitorQueue kqueue)).length else 1)) ∧
      ∀ kmonitor ∈ last.monitors, last.self ∉ last.rooms.inside kmonitor →
        last.state.sysMonitorUnlock (some kmonitor) = .ok (last.state.exit E_NOT_OWNER) ∧
        ∀ kqueue ∈ last.conditions, last.state.sysMonitorWait (some kmonitor) (some kqueue) =
          .ok (last.state.exit E_NOT_OWNER) := by
  have kept : ∃ members all, last.Kept idle members all := by
    induction run with
    | refl =>
        obtain ⟨members, coherent⟩ := kthreadsInit_coherent below starts
        rw [← alone] at coherent
        refine ⟨members, [idle], coherent, ?_, ?_, ?_, ?_⟩
        · constructor <;> simp [none, none', empty, empty']
        · constructor
          · constructor <;> simp [empty']
          all_goals simp [empty, empty']
        · simp [none]
        · simp [none']
    | tail _ step ih =>
        obtain ⟨members, all, kept⟩ := ih
        exact kept.step step
  obtain ⟨members, all, kept⟩ := kept
  refine ⟨members, all, kept.coherent, kept.exclusive, ?_, ?_, ?_⟩
  · intro next step kmonitor thread blocked
    exact kept.blocked step blocked
  · intro kqueue known broadcast
    exact kept.moves known broadcast
  · intro kmonitor known outside
    have nonzero := kept.nonzero kmonitor known
    constructor
    · exact (MonitorKernel.notOwner_fails kept.shows known nonzero nonzero kept.running
        outside).1
    · intro kqueue known'
      exact (MonitorKernel.notOwner_fails kept.shows known nonzero (kept.nonzero' kqueue known')
        kept.running outside).2

/-- Nothing has been created yet. -/
def MonitorRun.begin (idle : Ptr) (kernel : Kernel) : MonitorRun :=
  ⟨⟨kernel, fun _ => false, fun _ => 0, fun _ => none⟩, {idle}, ∅, ∅,
    ⟨fun _ => [], fun _ => [], fun _ => 0⟩⟩

/-- A thread is created and runs. -/
theorem MonitorUse.begin {again : Prop} {started created running : Kernel} {thread : Ptr}
    {stack' : Ptr} {prio : Int} (below : idle < addressCount)
    (starts : Kernel.boot.kthreadsInit stack idle kernelProc = .ok started)
    (different : thread ≠ idle) (below' : thread < addressCount)
    (known : (started.thread idle).proc = kernelProc)
    (creates : started.kthreadCreate stack' thread prio true kernelProc = .ok created)
    (schedules : created.kthreadsSchedule = .ok running) :
    Relation.ReflTransGen (MonitorUse idle again) (.begin idle started)
      { MonitorRun.begin idle running with live := insert thread {idle} } := by
  obtain ⟨members, coherent⟩ := kthreadsInit_coherent below starts
  have unused : ∀ all : List Ptr, started.allThreads.Linked (fun _ => all) → thread ∉ all := by
    intro all linked mem
    rw [linked.unique coherent.ledger.listed ()] at mem
    exact different (List.mem_singleton.mp mem)
  have spared : (MonitorRun.begin idle started).Spared idle created (insert thread {idle}) ∅ ∅ :=
    MonitorRun.Spared.create unused below' ⟨idle, rfl, known⟩ creates
  have creation : MonitorUse idle again (.begin idle started)
      { MonitorRun.begin idle created with live := insert thread {idle} } :=
    .other subset_rfl subset_rfl MonitorRun.unused_self spared
  have switch : MonitorUse idle again
      { MonitorRun.begin idle created with live := insert thread {idle} }
      { MonitorRun.begin idle running with live := insert thread {idle} } :=
    .other subset_rfl subset_rfl MonitorRun.unused_self (MonitorRun.Spared.schedule schedules)
  exact (Relation.ReflTransGen.single creation).tail switch

/-- A thread waits for a condition, and the idle thread signals it. -/
theorem monitors_exclude_sample : ∃ first last : MonitorRun,
    Kernel.boot.kthreadsInit 8184 7960 100 = .ok first.state.kernel ∧
      Relation.ReflTransGen (MonitorUse 7960 False) first last ∧
      last.rooms.inside 5000 = [7000] ∧ last.state.kernel.monitors 5000 = ⟨true, 7000⟩ ∧
      ∃ members all, Coherent last.state.kernel 7960 last.live members all ∧
        last.Exclusive members := by
  have evaluated : (do
      let started ← Kernel.boot.kthreadsInit 8184 7960 100
      let created ← started.kthreadCreate 8200 7000 5 true 100
      let running ← created.kthreadsSchedule
      let made ← .ok ((MonitorRun.begin 7960 running).state.sysMonitorInit 4000 5000)
      let queued ← .ok (made.2.sysMonitorQueueInit 4500 6000)
      let locked ← queued.2.sysMonitorLock (some 5000)
      let waited ← locked.2.sysMonitorWait (some 5000) (some 6000)
      let signalled ← waited.2.sysMonitorSignal (some 6000)
      return decide ((started.thread 7960).proc = 100 ∧
        running.sched.queues.listGet (.monitor 5000) FIRST = 0 ∧ made.1 = -SUCCESS ∧
        made.2.kernel.sched.queues.listGet (.monitorQueue 6000) FIRST = 0 ∧
        queued.1 = -SUCCESS ∧ queued.2.kernel.activeThread = 7000 ∧
        locked.2.kernel.activeThread = 7000 ∧
        signalled.2.kernel.monitors 5000 = ⟨true, 7000⟩)) = (.ok true : Except Fault Bool) := by
    decide +kernel
  obtain ⟨started, starts, evaluated⟩ := bind_ok evaluated
  obtain ⟨created, creates, evaluated⟩ := bind_ok evaluated
  obtain ⟨running, schedules, evaluated⟩ := bind_ok evaluated
  obtain ⟨⟨code, made⟩, inits, evaluated⟩ := bind_ok evaluated
  obtain ⟨⟨code', queued⟩, queues, evaluated⟩ := bind_ok evaluated
  obtain ⟨⟨code'', locked⟩, locks, evaluated⟩ := bind_ok evaluated
  obtain ⟨⟨waitCode, waited⟩, waits, evaluated⟩ := bind_ok evaluated
  obtain ⟨⟨signalCode, signalled⟩, signals, evaluated⟩ := bind_ok evaluated
  obtain ⟨proc, noEntry, success, noWaiter, success', active, active', owner⟩ :=
    of_decide_eq_true (Except.ok.inj evaluated)
  obtain rfl : code = -SUCCESS := success
  obtain rfl : code' = -SUCCESS := success'
  have run : Relation.ReflTransGen (MonitorUse 7960 False) _ _ :=
    MonitorUse.begin (by decide) starts (by decide) (by decide) proc creates schedules
  have run := run.tail (.init 4000 5000 (Set.notMem_empty 5000)
    (fun members linked => linked.eq_nil noEntry) (Except.ok.inj inits))
  have run := run.tail (.queueInit 4500 6000 (Set.notMem_empty 6000)
    (fun members linked => linked.eq_nil noWaiter) (Except.ok.inj queues))
  have run := run.tail (.lock (Set.mem_insert 5000 _) (by
    change queued.kernel.activeThread ≠ 7960
    rw [active]
    decide) (.inr (List.not_mem_nil)) locks)
  have run := run.tail (.wait (Set.mem_insert 5000 _) (Set.mem_insert 6000 _) (by
    change locked.kernel.activeThread ≠ 7960
    rw [active']
    decide) waits)
  have run := run.tail (.signal (Set.mem_insert 6000 _) signals)
  obtain ⟨members, all, coherent, exclusive, -⟩ :=
    monitors_exclude (by decide) starts rfl rfl rfl (fun _ => rfl) (fun _ => rfl) run
  refine ⟨_, _, starts, run, ?_, owner, members, all, coherent, exclusive⟩
  rcases exclusive.state 5000 (Set.mem_insert 5000 _) with ⟨-, free, -⟩ | ⟨thread, inside, isOwner⟩
  · cases free.symm.trans owner
  · obtain rfl := congrArg Monitor.owner (isOwner.symm.trans owner)
    exact inside

/-- A thread that locks a monitor twice is inside of it and waits to enter it. -/
theorem monitors_exclude_fail : ¬ ∀ idle stack kernelProc first last, idle < addressCount →
    Kernel.boot.kthreadsInit stack idle kernelProc = .ok first.state.kernel →
      first.live = {idle} → first.monitors = ∅ → first.conditions = ∅ →
      (∀ kmonitor, first.rooms.inside kmonitor = []) → (∀ place, first.rooms.queue place = []) →
      Relation.ReflTransGen (MonitorUse idle True) first last →
        ∃ members all, Coherent last.state.kernel idle last.live members all ∧
          last.Exclusive members := by
  intro claim
  have evaluated : (do
      let started ← Kernel.boot.kthreadsInit 8184 7960 100
      let created ← started.kthreadCreate 8200 7000 5 true 100
      let running ← created.kthreadsSchedule
      let made ← .ok ((MonitorRun.begin 7960 running).state.sysMonitorInit 4000 5000)
      let locked ← made.2.sysMonitorLock (some 5000)
      let stuck ← locked.2.sysMonitorLock (some 5000)
      return decide ((started.thread 7960).proc = 100 ∧
        running.sched.queues.listGet (.monitor 5000) FIRST = 0 ∧ made.1 = -SUCCESS ∧
        made.2.kernel.activeThread = 7000 ∧ locked.2.kernel.activeThread = 7000 ∧
        stuck.2.kernel.monitors 5000 = ⟨true, 7000⟩ ∧
        stuck.2.kernel.sched.queues.listGet (.monitor 5000) FIRST = 7000)) =
          (.ok true : Except Fault Bool) := by
    decide +kernel
  obtain ⟨started, starts, evaluated⟩ := bind_ok evaluated
  obtain ⟨created, creates, evaluated⟩ := bind_ok evaluated
  obtain ⟨running, schedules, evaluated⟩ := bind_ok evaluated
  obtain ⟨⟨code, made⟩, inits, evaluated⟩ := bind_ok evaluated
  obtain ⟨⟨code', locked⟩, locks, evaluated⟩ := bind_ok evaluated
  obtain ⟨⟨code'', stuck⟩, again, evaluated⟩ := bind_ok evaluated
  obtain ⟨proc, noEntry, success, active, active', owner, waits⟩ :=
    of_decide_eq_true (Except.ok.inj evaluated)
  obtain rfl : code = -SUCCESS := success
  have run : Relation.ReflTransGen (MonitorUse 7960 True) _ _ :=
    MonitorUse.begin (by decide) starts (by decide) (by decide) proc creates schedules
  have run := run.tail (.init 4000 5000 (Set.notMem_empty 5000)
    (fun members linked => linked.eq_nil noEntry) (Except.ok.inj inits))
  have run := run.tail (.lock (Set.mem_insert 5000 _) (by
    change made.kernel.activeThread ≠ 7960
    rw [active]
    decide) (.inl trivial) locks)
  have run := run.tail (.lock (Set.mem_insert 5000 _) (by
    change locked.kernel.activeThread ≠ 7960
    rw [active']
    decide) (.inl trivial) again)
  obtain ⟨members, all, coherent, exclusive⟩ := claim _ _ _ _ _ (by decide) starts rfl rfl rfl
    (fun _ => rfl) (fun _ => rfl) run
  have inEntry : 7000 ∈ members (.monitor 5000) :=
    coherent.sound.linked.first_mem waits (by decide)
  rcases exclusive.state 5000 (Set.mem_insert 5000 _) with ⟨-, free, -⟩ | ⟨thread, inside, isOwner⟩
  · cases free.symm.trans owner
  · obtain rfl := congrArg Monitor.owner (isOwner.symm.trans owner)
    have mem : 7000 ∈ [7000] := List.mem_singleton_self 7000
    rw [← inside] at mem
    exact (exclusive.outside 5000 (Set.mem_insert 5000 _) 7000 mem).1 inEntry

end Runs

end Oseer
