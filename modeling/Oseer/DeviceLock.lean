import Mathlib.Logic.Relation
import Oseer.Library.Results
import Oseer.TimedStart

/-!
# Locks of devices

`k_device_lock` and `k_device_unlock` of `kernel/devices.c`.  The lock passes to
a thread that waits for it when that thread leaves the queue of the device:
the variable `locked` stays set, and the call of the thread ends when it runs
again.  Everything else that the kernel does between the calls is an arbitrary
change that leaves the queues of the devices as they are.
-/

namespace Oseer

open Results

/-- The members `thrq` of the devices: each device has a queue of its own. -/
structure DeviceQueues where
  thrq : Ptr → QueueId
  waits : ∀ dev, (thrq dev).state = .wait
  injective : ∀ dev dev', thrq dev = thrq dev' → dev = dev'

/-- The scheduler and the members `locked` of the devices. -/
structure DeviceKernel where
  sched : Sched
  locked : Ptr → Bool

namespace DeviceKernel

variable (queues : DeviceQueues)

/-- `k_device_lock`. -/
def kDeviceLock (dev : Ptr) (wait : Int) (kernel : DeviceKernel) :
    Except Fault (Int × DeviceKernel) :=
  if wait = 0 ∧ kernel.locked dev = true then .ok (-1, kernel)
  else if kernel.locked dev = true then
    (kernel.sched.kthreadEnqueue 0 (queues.thrq dev)).kthreadsSchedule.map fun sched =>
      (0, { sched := sched, locked := Function.update kernel.locked dev true })
  else .ok (0, { kernel with locked := Function.update kernel.locked dev true })

/-- `k_device_unlock`. -/
def kDeviceUnlock (dev : Ptr) (kernel : DeviceKernel) : Except Fault (Int × DeviceKernel) :=
  let released := kernel.sched.kthreadqRelease (queues.thrq dev)
  if released.1 ≠ 0 then
    released.2.kthreadsSchedule.map fun sched => (0, { kernel with sched := sched })
  else .ok (0, { sched := released.2, locked := Function.update kernel.locked dev false })

/-- The thread that an unlock takes out of the queue, if there is one. -/
def next (dev : Ptr) (kernel : DeviceKernel) : List Ptr :=
  let first := kernel.sched.kthreadqGet (queues.thrq dev)
  if first = 0 then [] else [first]

end DeviceKernel

/-- The kernel with a record for each device: the threads that hold it, those that blocked
in a call of `k_device_lock`, and those of them that got the lock, in the order of time. -/
structure LockRun where
  kernel : DeviceKernel
  holders : Ptr → List Ptr
  blocked : Ptr → List Ptr
  granted : Ptr → List Ptr

/-- The active thread. -/
def LockRun.self (run : LockRun) : Ptr := run.kernel.sched.activeThread

/-- A change of the scheduler outside of the queues of the devices, which ends no thread that
holds a device. -/
def LockRun.Spared (queues : DeviceQueues) (run : LockRun) (sched : Sched) : Prop :=
  ∀ alive members, Sound run.kernel.sched alive members →
    ∃ alive' members', Sound sched alive' members' ∧ Running sched alive' ∧
      ∀ dev, members' (queues.thrq dev) = members (queues.thrq dev) ∧
        ∀ thread ∈ run.holders dev, thread ∈ alive → thread ∈ alive'

/-- A call of the active thread, or anything else. -/
inductive LockStep (queues : DeviceQueues) : LockRun → LockRun → Prop
  | refused {run : LockRun} {kernel : DeviceKernel} (dev : Ptr) (wait : Int)
      (result : run.kernel.kDeviceLock queues dev wait = .ok (-1, kernel)) :
      LockStep queues run { run with kernel := kernel }
  | take {run : LockRun} {kernel : DeviceKernel} (dev : Ptr) (wait : Int)
      (free : run.kernel.locked dev = false)
      (result : run.kernel.kDeviceLock queues dev wait = .ok (0, kernel)) :
      LockStep queues run { run with
        kernel := kernel
        holders := Function.update run.holders dev (run.holders dev ++ [run.self]) }
  | block {run : LockRun} {kernel : DeviceKernel} (dev : Ptr) (wait : Int)
      (held : run.kernel.locked dev = true)
      (result : run.kernel.kDeviceLock queues dev wait = .ok (0, kernel)) :
      LockStep queues run { run with
        kernel := kernel
        blocked := Function.update run.blocked dev (run.blocked dev ++ [run.self]) }
  | unlock {run : LockRun} {kernel : DeviceKernel} {code : Int} (dev : Ptr)
      (holds : run.self ∈ run.holders dev)
      (result : run.kernel.kDeviceUnlock queues dev = .ok (code, kernel)) :
      LockStep queues run { run with
        kernel := kernel
        holders := Function.update run.holders dev
          ((run.holders dev).erase run.self ++ run.kernel.next queues dev)
        granted := Function.update run.granted dev
          (run.granted dev ++ run.kernel.next queues dev) }
  | other {run : LockRun} {sched : Sched} (spared : run.Spared queues sched) :
      LockStep queues run { run with kernel := { run.kernel with sched := sched } }

/-- The devices as `k_device_add` leaves them: no lock is set and no thread waits. -/
structure LockRun.Starts (queues : DeviceQueues) (run : LockRun) (alive : Set Ptr)
    (members : Members) : Prop where
  sound : Sound run.kernel.sched alive members
  running : Running run.kernel.sched alive
  free : ∀ dev, run.kernel.locked dev = false ∧ members (queues.thrq dev) = []
  none : ∀ dev, run.holders dev = [] ∧ run.blocked dev = [] ∧ run.granted dev = []

section Scheduler

variable {sched sched' : Sched} {alive : Set Ptr} {members : Members} {queue : QueueId}

theorem Sound.runnable_of_ok (sound : Sound sched alive members)
    (waits : (sched.threads sched.activeThread).state ≠ .active)
    (result : sched.kthreadsSchedule = .ok sched') : Sound.Runnable sched alive members := by
  rcases sound.mask.highest with ⟨isNone, -⟩ | ⟨level, -, -, some, -⟩
  · unfold Sched.kthreadsSchedule at result
    dsimp only at result
    rw [isNone, if_pos] at result
    · cases result
    · rintro (⟨-, active⟩ | least)
      · exact waits active
      · exact absurd least (by decide)
  · exact .inr ⟨level, some⟩

/-- The active thread goes to the end of a queue. -/
theorem Sound.enqueueActive (sound : Sound sched alive members) (running : Running sched alive)
    (waits : queue.state = .wait) :
    Sound (sched.kthreadEnqueue 0 queue) alive
        (Function.update members queue (members queue ++ [sched.activeThread])) ∧
      ((sched.kthreadEnqueue 0 queue).threads
        (sched.kthreadEnqueue 0 queue).activeThread).state = .wait := by
  have nonzero := sound.ne_zero running.mem_alive
  have transit := sound.drop fun queue => sound.active_free running.active
  have queued := transit.kthreadEnqueue (by simp) (sound.pointer _ running.mem_alive)
    (sound.prio _ running.mem_alive) waits
  rw [Set.insert_sdiff_singleton, Set.insert_eq_of_mem running.mem_alive] at queued
  rw [sched.kthreadEnqueue_active queue nonzero,
    sched.kthreadEnqueue_activeThread queue nonzero, sched.kthreadEnqueue_threads queue nonzero,
    Function.update_self]
  exact ⟨queued, rfl⟩

end Scheduler

namespace DeviceKernel

variable {queues : DeviceQueues} {kernel kernel' : DeviceKernel} {dev : Ptr} {wait : Int}

theorem kDeviceLock_refused (result : kernel.kDeviceLock queues dev wait = .ok (-1, kernel')) :
    kernel.locked dev = true ∧ kernel' = kernel := by
  unfold kDeviceLock at result
  split at result
  · next refused => exact ⟨refused.2, (Prod.mk.inj (Except.ok.inj result)).2.symm⟩
  · split at result
    · obtain ⟨sched, -, returned⟩ := map_ok result
      cases (Prod.mk.inj returned).1
    · cases (Prod.mk.inj (Except.ok.inj result)).1

theorem kDeviceLock_free (free : kernel.locked dev = false) :
    kernel.kDeviceLock queues dev wait =
      .ok (0, { kernel with locked := Function.update kernel.locked dev true }) := by
  unfold kDeviceLock
  rw [free]
  simp

theorem kDeviceLock_held (held : kernel.locked dev = true)
    (result : kernel.kDeviceLock queues dev wait = .ok (0, kernel')) :
    ∃ sched, (kernel.sched.kthreadEnqueue 0 (queues.thrq dev)).kthreadsSchedule = .ok sched ∧
      kernel' = { kernel with sched := sched } := by
  unfold kDeviceLock at result
  split at result
  · cases (Prod.mk.inj (Except.ok.inj result)).1
  · obtain ⟨sched, scheduled, returned⟩ := map_ok result
    refine ⟨sched, scheduled, ?_⟩
    rw [← (Prod.mk.inj returned).2, Function.update_eq_self_iff.mpr held.symm]

end DeviceKernel

/-- What holds of one device at any time: at most one thread holds it, exactly while it is
locked; no thread waits for a free device, and the threads that have blocked got the lock or
wait for it in the order in which they blocked. -/
structure Orderly (locked : Bool) (holders blocked granted waiting : List Ptr) : Prop where
  single : holders.length ≤ 1
  locked_iff : locked = true ↔ holders ≠ []
  free : holders = [] → waiting = []
  order : granted ++ waiting = blocked

namespace Orderly

variable {locked : Bool} {holders blocked granted waiting : List Ptr} {self next : Ptr}

theorem start : Orderly false [] [] [] [] :=
  ⟨Nat.zero_le _, by simp, fun _ => rfl, rfl⟩

theorem empty (orderly : Orderly false holders blocked granted waiting) : holders = [] := by
  by_contra some
  exact absurd (orderly.locked_iff.mpr some) (by decide)

theorem take (orderly : Orderly false holders blocked granted waiting) (self : Ptr) :
    Orderly true (holders ++ [self]) blocked granted waiting := by
  have noWaiting := orderly.free orderly.empty
  have order := orderly.order
  rw [orderly.empty]
  exact ⟨Nat.le_refl 1, by simp, fun none => absurd none (by simp), order⟩

theorem block (orderly : Orderly true holders blocked granted waiting) (self : Ptr) :
    Orderly true holders (blocked ++ [self]) granted (waiting ++ [self]) where
  single := orderly.single
  locked_iff := orderly.locked_iff
  free none := absurd none (orderly.locked_iff.mp rfl)
  order := by rw [← List.append_assoc, orderly.order]

theorem eq_singleton (orderly : Orderly locked holders blocked granted waiting)
    (mem : self ∈ holders) : holders = [self] := by
  have single := orderly.single
  match holders with
  | [] => cases mem
  | [other] => rw [List.mem_singleton.mp mem]
  | _ :: _ :: _ => simp at single

theorem release (orderly : Orderly locked holders blocked granted []) (mem : self ∈ holders) :
    Orderly false (holders.erase self ++ []) blocked (granted ++ []) [] := by
  have order := orderly.order
  rw [orderly.eq_singleton mem, List.erase_cons_head]
  exact ⟨Nat.zero_le _, by simp, fun _ => rfl, by simpa using order⟩

theorem pass (orderly : Orderly locked holders blocked granted (next :: waiting))
    (mem : self ∈ holders) :
    Orderly locked (holders.erase self ++ [next]) blocked (granted ++ [next]) waiting := by
  have isLocked : locked = true := orderly.locked_iff.mpr (List.ne_nil_of_mem mem)
  have order := orderly.order
  rw [orderly.eq_singleton mem, List.erase_cons_head]
  exact ⟨Nat.le_refl 1, by simp [isLocked], fun none => absurd none (by simp), by simpa using order⟩

end Orderly

namespace LockRun

variable {queues : DeviceQueues} {run run' first last : LockRun} {alive : Set Ptr}
  {members : Members}

/-- What holds in every state of a run. -/
structure Kept (queues : DeviceQueues) (run : LockRun) (alive : Set Ptr) (members : Members) :
    Prop where
  sound : Sound run.kernel.sched alive members
  running : Running run.kernel.sched alive
  orderly : ∀ dev, Orderly (run.kernel.locked dev) (run.holders dev) (run.blocked dev)
    (run.granted dev) (members (queues.thrq dev))
  holder_alive : ∀ dev, ∀ thread ∈ run.holders dev, thread ∈ alive

section Steps

variable {dev dev' : Ptr} {sched : Sched} {kernel : DeviceKernel}

theorem thrq_ne (different : dev' ≠ dev) : queues.thrq dev' ≠ queues.thrq dev :=
  fun same => different (queues.injective _ _ same)

theorem Starts.kept (starts : run.Starts queues alive members) :
    run.Kept queues alive members where
  sound := starts.sound
  running := starts.running
  orderly dev := by
    obtain ⟨free, waiting⟩ := starts.free dev
    obtain ⟨holders, blocked, granted⟩ := starts.none dev
    rw [free, waiting, holders, blocked, granted]
    exact .start
  holder_alive dev thread mem := by
    rw [(starts.none dev).1] at mem
    cases mem

/-- A free device is taken by the active thread. -/
theorem Kept.take (kept : run.Kept queues alive members)
    (free : run.kernel.locked dev = false) :
    Kept queues { run with
      kernel := { run.kernel with locked := Function.update run.kernel.locked dev true }
      holders := Function.update run.holders dev (run.holders dev ++ [run.self]) }
      alive members := by
  refine ⟨kept.sound, kept.running, ?_, ?_⟩
  · intro dev'
    have orderly := kept.orderly dev'
    by_cases same : dev' = dev
    · subst same
      rw [free] at orderly
      simpa using orderly.take run.self
    · simpa [same] using orderly
  · intro dev' thread mem
    by_cases same : dev' = dev
    · subst same
      have known : thread ∈ run.holders dev' ∨ thread = run.self := by simpa using mem
      rcases known with old | isSelf
      · exact kept.holder_alive dev' thread old
      · rw [isSelf]
        exact kept.running.mem_alive
    · exact kept.holder_alive dev' thread (by simpa [same] using mem)

/-- The active thread waits for a device that is held. -/
theorem Kept.block (kept : run.Kept queues alive members) (held : run.kernel.locked dev = true)
    (scheduled : (run.kernel.sched.kthreadEnqueue 0 (queues.thrq dev)).kthreadsSchedule =
      .ok sched) :
    ∃ members', Kept queues { run with
      kernel := { run.kernel with sched := sched }
      blocked := Function.update run.blocked dev (run.blocked dev ++ [run.self]) }
      alive members' := by
  obtain ⟨queued, waits⟩ := kept.sound.enqueueActive kept.running (queues.waits dev)
  have notActive : ((run.kernel.sched.kthreadEnqueue 0 (queues.thrq dev)).threads
      (run.kernel.sched.kthreadEnqueue 0 (queues.thrq dev)).activeThread).state ≠ .active := by
    rw [waits]
    decide
  obtain ⟨sched', members', result, sound, running, -, switches⟩ := queued.kthreadsSchedule
    (fun active => absurd active notActive) (queued.runnable_of_ok notActive scheduled)
  obtain rfl := Except.ok.inj (scheduled.symm.trans result)
  refine ⟨members', sound, running, ?_, kept.holder_alive⟩
  intro dev'
  have orderly := kept.orderly dev'
  have waiting := switches.waiting _ (queues.waits dev') id
  rw [waiting]
  by_cases same : dev' = dev
  · subst same
    rw [held] at orderly
    simpa [held, self] using orderly.block run.self
  · rw [Function.update_of_ne (thrq_ne same)]
    simpa [same] using orderly

/-- The holder passes the lock on, or frees it. -/
theorem Kept.unlock {code : Int} (kept : run.Kept queues alive members)
    (holds : run.self ∈ run.holders dev)
    (result : run.kernel.kDeviceUnlock queues dev = .ok (code, kernel)) :
    ∃ members', Kept queues { run with
      kernel := kernel
      holders := Function.update run.holders dev
        ((run.holders dev).erase run.self ++ run.kernel.next queues dev)
      granted := Function.update run.granted dev
        (run.granted dev ++ run.kernel.next queues dev) } alive members' := by
  have first := kept.sound.linked.listGet_first (queues.thrq dev)
  have orderlyDev := kept.orderly dev
  unfold DeviceKernel.next Sched.kthreadqGet
  rw [first]
  unfold DeviceKernel.kDeviceUnlock at result
  cases waiting : members (queues.thrq dev) with
  | nil =>
      rw [kept.sound.kthreadqRelease_empty waiting] at result
      obtain rfl := (Prod.mk.inj (Except.ok.inj result)).2
      rw [waiting] at orderlyDev
      refine ⟨members, kept.sound, kept.running, ?_, ?_⟩
      · intro dev'
        by_cases same : dev' = dev
        · subst same
          simpa [waiting] using orderlyDev.release holds
        · simpa [same] using kept.orderly dev'
      · intro dev' thread mem
        by_cases same : dev' = dev
        · subst same
          exact kept.holder_alive dev' thread (List.mem_of_mem_erase (by simpa using mem))
        · exact kept.holder_alive dev' thread (by simpa [same] using mem)
  | cons thread rest =>
      have inAlive : thread ∈ alive :=
        kept.sound.mem_alive (queues.thrq dev) thread (by simp [waiting])
      obtain ⟨one, released, threads, active⟩ :=
        kept.sound.kthreadqRelease waiting (queues.waits dev)
      have selfOther : run.kernel.sched.activeThread ≠ thread := by
        rintro rfl
        exact kept.sound.active_free kept.running.active (by rw [waiting]; simp)
      have stillRunning : Running (run.kernel.sched.kthreadqRelease (queues.thrq dev)).2 alive := by
        refine ⟨active ▸ kept.running.mem_alive, ?_⟩
        rw [threads, active, Function.update_of_ne selfOther]
        exact kept.running.active
      obtain ⟨sched', members', scheduled, sound, running, -, switches⟩ :=
        released.kthreadsSchedule (fun _ => stillRunning.mem_alive) (.inl stillRunning)
      dsimp only at result
      rw [one, if_pos (by decide), scheduled] at result
      obtain rfl := (Prod.mk.inj (Except.ok.inj result)).2
      have others : ∀ dev', members' (queues.thrq dev') =
          Function.update members (queues.thrq dev) rest (queues.thrq dev') := by
        intro dev'
        rw [switches.waiting _ (queues.waits dev') id]
        have moved : SameWaiting (fun _ => False) (Function.update members (queues.thrq dev) rest)
            (Sound.released members (queues.thrq dev) thread rest
              (run.kernel.sched.threads thread).prio) := sameWaiting_ready
        exact moved _ (queues.waits dev') id
      rw [LinkedRing.headOf_cons, if_neg (kept.sound.ne_zero inAlive)]
      rw [waiting] at orderlyDev
      refine ⟨members', sound, running, ?_, ?_⟩
      · intro dev'
        rw [others]
        by_cases same : dev' = dev
        · subst same
          simpa using orderlyDev.pass holds
        · rw [Function.update_of_ne (thrq_ne same)]
          simpa [same] using kept.orderly dev'
      · intro dev' other mem
        by_cases same : dev' = dev
        · subst same
          have known : other ∈ (run.holders dev').erase run.self ∨ other = thread := by
            simpa using mem
          rcases known with old | isNext
          · exact kept.holder_alive dev' other (List.mem_of_mem_erase old)
          · rw [isNext]
            exact inAlive
        · exact kept.holder_alive dev' other (by simpa [same] using mem)

/-- Every step keeps the devices orderly. -/
theorem Kept.step (kept : run.Kept queues alive members) (step : LockStep queues run run') :
    ∃ alive' members', run'.Kept queues alive' members' := by
  cases step with
  | refused dev wait result =>
      obtain ⟨-, rfl⟩ := DeviceKernel.kDeviceLock_refused result
      exact ⟨alive, members, kept.sound, kept.running, kept.orderly, kept.holder_alive⟩
  | take dev wait free result =>
      obtain rfl := (Prod.mk.inj (Except.ok.inj
        ((DeviceKernel.kDeviceLock_free free).symm.trans result))).2
      exact ⟨alive, members, kept.take free⟩
  | block dev wait held result =>
      obtain ⟨sched, scheduled, rfl⟩ := DeviceKernel.kDeviceLock_held held result
      obtain ⟨members', kept'⟩ := kept.block held scheduled
      exact ⟨alive, members', kept'⟩
  | unlock dev holds result =>
      obtain ⟨members', kept'⟩ := kept.unlock holds result
      exact ⟨alive, members', kept'⟩
  | other spared =>
      obtain ⟨alive', members', sound, running, devices⟩ := spared alive members kept.sound
      refine ⟨alive', members', sound, running, ?_, ?_⟩
      · intro dev
        rw [(devices dev).1]
        exact kept.orderly dev
      · intro dev thread mem
        exact (devices dev).2 thread mem (kept.holder_alive dev thread mem)

end Steps

end LockRun

/-- In every run each device is held by at most one thread, and it is locked exactly while a
thread holds it.  The threads that blocked get the lock in the order in which they blocked,
and a call that does not wait fails exactly when the device is held, and changes nothing. -/
theorem device_lock_exclusive {queues : DeviceQueues} {first last : LockRun} {alive : Set Ptr}
    {members : Members} (starts : first.Starts queues alive members)
    (run : Relation.ReflTransGen (LockStep queues) first last) :
    ∃ alive members, Sound last.kernel.sched alive members ∧ ∀ dev,
      (last.holders dev).length ≤ 1 ∧
      (last.kernel.locked dev = true ↔ last.holders dev ≠ []) ∧
      last.granted dev ++ members (queues.thrq dev) = last.blocked dev ∧
      last.kernel.kDeviceLock queues dev 0 =
        if last.holders dev ≠ [] then .ok (-1, last.kernel)
        else .ok (0, { last.kernel with
          locked := Function.update last.kernel.locked dev true }) := by
  have kept : ∃ alive members, last.Kept queues alive members := by
    induction run with
    | refl => exact ⟨alive, members, starts.kept⟩
    | tail _ step ih =>
        obtain ⟨alive', members', kept⟩ := ih
        exact kept.step step
  obtain ⟨alive', members', kept⟩ := kept
  refine ⟨alive', members', kept.sound, ?_⟩
  intro dev
  have orderly := kept.orderly dev
  refine ⟨orderly.single, orderly.locked_iff, orderly.order, ?_⟩
  by_cases held : last.kernel.locked dev = true
  · rw [if_pos (orderly.locked_iff.mp held)]
    exact if_pos ⟨rfl, held⟩
  · rw [if_neg (mt orderly.locked_iff.mpr held)]
    exact DeviceKernel.kDeviceLock_free (Bool.not_eq_true _ ▸ held)

/-- Devices with the queues of the semaphores at their addresses. -/
def sampleQueues : DeviceQueues where
  thrq := .sem
  waits _ := rfl
  injective _ _ same := QueueId.sem.inj same

/-- A thread takes a device and waits for it then. -/
theorem device_lock_exclusive_sample :
    ∃ first last, Relation.ReflTransGen (LockStep sampleQueues) first last ∧
      last.blocked 4 = [8] ∧
      ∃ alive members, Sound last.kernel.sched alive members ∧ ∀ dev,
        (last.holders dev).length ≤ 1 ∧
        (last.kernel.locked dev = true ↔ last.holders dev ≠ []) ∧
        last.granted dev ++ members (sampleQueues.thrq dev) = last.blocked dev ∧
        last.kernel.kDeviceLock sampleQueues dev 0 =
          if last.holders dev ≠ [] then .ok (-1, last.kernel)
          else .ok (0, { last.kernel with
            locked := Function.update last.kernel.locked dev true }) := by
  have one := boot_sound.kthreadMoveToReady (by simp : (8 : Ptr) ∉ (∅ : Set Ptr)) (by decide) rfl
    (by decide)
  have two := one.kthreadMoveToReady (by simp : (16 : Ptr) ∉ insert 8 (∅ : Set Ptr)) (by decide) rfl
    (by decide)
  obtain ⟨sched, members, scheduled, sound, running, -, switches⟩ := two.kthreadsSchedule
    (fun active => absurd active (by decide)) (two.runnable (Set.mem_insert 16 _) (by decide))
  have evaluated : (do
      let sched ← ((Kernel.boot.sched.kthreadMoveToReady 8 LAST).kthreadMoveToReady 16
        LAST).kthreadsSchedule
      let taken ← DeviceKernel.kDeviceLock sampleQueues 4 1 ⟨sched, fun _ => false⟩
      let blocked ← taken.2.kDeviceLock sampleQueues 4 1
      return decide (sched.activeThread = 8 ∧ taken.1 = 0 ∧ taken.2.locked 4 = true ∧
        taken.2.sched.activeThread = 8 ∧ blocked.1 = 0)) =
        (.ok true : Except Fault Bool) := by decide +kernel
  obtain ⟨sched', scheduled', evaluated⟩ := bind_ok evaluated
  obtain rfl := Except.ok.inj (scheduled.symm.trans scheduled')
  obtain ⟨⟨code, taken⟩, takes, evaluated⟩ := bind_ok evaluated
  obtain ⟨⟨code', blocked⟩, blocks, evaluated⟩ := bind_ok evaluated
  obtain ⟨active, zero, held, active', zero'⟩ := of_decide_eq_true (Except.ok.inj evaluated)
  obtain rfl : code = 0 := zero
  obtain rfl : code' = 0 := zero'
  let first : LockRun := ⟨⟨sched, fun _ => false⟩, fun _ => [], fun _ => [], fun _ => []⟩
  have starts : first.Starts sampleQueues (insert 16 (insert 8 ∅)) members := by
    refine ⟨sound, running, fun dev => ⟨rfl, ?_⟩, fun _ => ⟨rfl, rfl, rfl⟩⟩
    rw [switches.waiting _ (sampleQueues.waits dev) id]
    rfl
  have takesFirst : LockStep sampleQueues first _ := .take 4 1 rfl takes
  have run := (Relation.ReflTransGen.single takesFirst).tail (.block 4 1 held blocks)
  refine ⟨first, _, run, ?_, device_lock_exclusive starts run⟩
  simpa [first, LockRun.self] using active'

end Oseer
