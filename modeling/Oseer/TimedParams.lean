import Oseer.TimedEntries

/-!
# Scheduling parameters and the invariant

`sys__set_thread_sched_params` gives a thread a policy and a priority.  It puts the
thread in the ready list of its new priority itself; for the active thread
`rr_thread_deactivate` does so a second time, unless there is no time slice.
-/

namespace Oseer

open LinkedRing Results Prog

variable {setting : Setting} {alarms alarms' : Alarms World} {members members' : Members}
  {all : List Ptr} {thread other : Ptr} {world world' : World} {call : AlarmCall World}
  {prio : Nat}

section Priority

variable {idle : Ptr} {waits : Set Ptr} {sched : Sched}

/-- A thread that has left its level, or the processor, enters the level of a priority. -/
def World.rejoin (sched : Sched) (thread : Ptr) (prio : Nat) (world : World) : World :=
  world.onSched fun _ => (sched.storePrio thread prio).kthreadMoveToReady thread LAST

theorem World.rejoin_thread (same : sched.threads = world.kernel.sched.threads) :
    (world.rejoin sched thread prio).thread = Function.update world.thread thread
      { world.thread thread with state := .ready, queue := some (.ready prio), prio := prio } := by
  have stored : (world.rejoin sched thread prio).thread = _ :=
    (sched.storePrio thread prio).kthreadMoveToReady_threads thread LAST
  rw [stored]
  unfold Sched.storePrio Sched.setThread
  dsimp only
  rw [Function.update_idem, Function.update_self, same]
  rfl

theorem World.rejoin_activeThread (active : sched.activeThread = world.kernel.sched.activeThread) :
    (world.rejoin sched thread prio).activeThread = world.activeThread := by
  unfold World.rejoin Sched.kthreadMoveToReady
  dsimp only
  split <;> exact active

theorem Threads.rejoin (threads : Threads idle waits world members all) (mem : thread ∈ world.alive)
    (taken : Sound sched (world.alive \ {thread}) members')
    (same : sched.threads = world.kernel.sched.threads)
    (fewer : ∀ queue : QueueId, queue.state = .wait → members' queue = members queue)
    (bound : prio < PRIO_LEVELS) :
    ∃ members'', Threads idle waits (world.rejoin sched thread prio) members'' all ∧
      SameWaiting (fun _ => False) members members'' := by
  have outside : thread ∉ world.alive \ {thread} := by simp
  have stored : Sound (sched.storePrio thread prio) (world.alive \ {thread}) members' :=
    taken.setThread_dead outside
  have prioIs : ((sched.storePrio thread prio).threads thread).prio = prio := by
    unfold Sched.storePrio
    rw [Sched.setThread_same]
  have moved := stored.kthreadMoveToReady outside (threads.sound.pointer thread mem) prioIs bound
  rw [Set.insert_sdiff_singleton, Set.insert_eq_of_mem mem] at moved
  have descriptor := @World.rejoin_thread thread world prio sched same
  have kept : ∀ list (queue : QueueId), queue.state = .wait →
      Function.update members' (.ready prio) list queue = members queue := by
    intro list queue isWait
    rw [Function.update_of_ne, fewer queue isWait]
    rintro rfl
    cases isWait
  have field : ∀ {α : Type} (field : Thread → α), (field { world.thread thread with
      state := .ready, queue := some (.ready prio), prio := prio } = field (world.thread thread)) →
      ∀ other, field ((world.rejoin sched thread prio).thread other) =
        field (world.thread other) := by
    intro α field isSame other
    rw [descriptor]
    by_cases isThread : other = thread
    · rw [isThread, Function.update_self, isSame]
    · rw [Function.update_of_ne isThread]
  refine ⟨_, threads.regroup ⟨rfl, rfl, rfl, rfl, rfl, ?_, ?_⟩ ?_ rfl moved
    (fun queue isWait => ?_) (fun other dead => ?_), fun queue isWait _ => kept _ queue isWait⟩
  · exact field (fun descriptor => descriptor.id) rfl
  · exact field (fun descriptor => descriptor.proc) rfl
  · exact field (fun descriptor => descriptor.refCnt) rfl
  · rw [kept _ queue isWait]
  · have different : other ≠ thread := fun isThread => dead (isThread ▸ mem)
    rw [descriptor, Function.update_of_ne different]

variable (kept : Kept setting alarms members all)
include kept

/-- A thread enters the level of a priority. -/
theorem Kept.rejoin (mem : thread ∈ alarms.world.alive)
    (taken : Sound sched (alarms.world.alive \ {thread}) members')
    (same : sched.threads = alarms.world.kernel.sched.threads)
    (active : sched.activeThread = alarms.world.kernel.sched.activeThread)
    (fewer : ∀ queue : QueueId, queue.state = .wait → members' queue = members queue)
    (bound : prio < PRIO_LEVELS) :
    ∃ members'', Kept setting { alarms with world := alarms.world.rejoin sched thread prio }
      members'' all := by
  obtain ⟨members'', threads, waiting⟩ := kept.threads.rejoin mem taken same fewer bound
  have descriptor := @World.rejoin_thread thread alarms.world prio sched same
  refine ⟨members'', ?_⟩
  apply kept.regroup threads subset_rfl kept.users.owners rfl rfl rfl (fun id => ?_)
    (World.rejoin_activeThread active) (fun isActive => ?_) fun other => ?_
  · rw [waiting (.alarm id) rfl not_false]
  · rw [descriptor] at isActive
    by_cases isThread : alarms.world.activeThread = thread
    · rw [isThread, Function.update_self] at isActive
      cases isActive
    · rwa [Function.update_of_ne isThread] at isActive
  · rw [descriptor]
    by_cases isThread : other = thread
    · rw [isThread, Function.update_self]
    · rw [Function.update_of_ne isThread]

/-- The priority of a thread that waits, or has ended, is only stored. -/
theorem Kept.storePrio (inactive : thread ∈ alarms.world.alive →
      (alarms.world.thread thread).state = .wait) (bound : prio < PRIO_LEVELS) :
    Kept setting { alarms with
      world := alarms.world.onSched fun sched => sched.storePrio thread prio } members all := by
  generalize storedIs : (alarms.world.onSched fun sched => sched.storePrio thread prio) = stored
  have descriptor : stored.thread = Function.update alarms.world.thread thread
      { alarms.world.thread thread with prio := prio } := storedIs ▸ rfl
  have field : ∀ {α : Type} (field : Thread → α),
      (field { alarms.world.thread thread with prio := prio } =
        field (alarms.world.thread thread)) →
      ∀ other, field (stored.thread other) = field (alarms.world.thread other) := by
    intro α field isSame other
    rw [descriptor]
    by_cases isThread : other = thread
    · rw [isThread, Function.update_self, isSame]
    · rw [Function.update_of_ne isThread]
  have sound : Sound stored.kernel.sched alarms.world.alive members := by
    refine kept.threads.sound.congr (storedIs ▸ rfl) (storedIs ▸ rfl) (storedIs ▸ rfl)
      fun other mem => ⟨field Thread.state rfl other, field Thread.queue rfl other, ?_⟩
    by_cases isThread : other = thread
    · subst isThread
      have isPrio : (stored.thread other).prio = prio := by rw [descriptor, Function.update_self]
      exact .inr ⟨inactive mem, lt_of_eq_of_lt isPrio bound⟩
    · have same : stored.thread other = alarms.world.thread other := by
        rw [descriptor, Function.update_of_ne isThread]
      exact .inl (congrArg (fun descriptor => descriptor.prio) same)
  have tables : SameTables alarms.world.kernel stored.kernel :=
    ⟨storedIs ▸ rfl, storedIs ▸ rfl, storedIs ▸ rfl, storedIs ▸ rfl, storedIs ▸ rfl,
      field (fun descriptor => descriptor.id) rfl, field (fun descriptor => descriptor.proc) rfl⟩
  have threads : Threads setting.idle setting.waits stored members all :=
    kept.threads.regroup tables (field (fun descriptor => descriptor.refCnt) rfl) (storedIs ▸ rfl)
      sound (fun _ _ => .refl _) fun other _ => field Thread.state rfl other
  have alive : stored.alive = alarms.world.alive := storedIs ▸ rfl
  apply kept.regroup threads alive.subset (alive ▸ kept.users.owners) (storedIs ▸ rfl)
    (storedIs ▸ rfl) (storedIs ▸ rfl) (fun _ => .refl _) (storedIs ▸ rfl)
    (fun isActive => (field Thread.state rfl _).symm.trans isActive)
    (field Thread.activated rfl)

end Priority

section Params

/-- A priority is set for a thread: if it is the active one, its slice may not be timed, and
`rr_thread_deactivate` leaves it where it is put. -/
structure MaySetPrio (setting : Setting) (thread : Ptr) (alarms : Alarms World) : Prop where
  unarmed : Holds { setting with armed := False } alarms
  holds : thread ≠ alarms.world.activeThread → Holds setting alarms
  known : thread ∈ alarms.world.alive ∨ (alarms.world.thread thread).state = .passive
  usedUp : thread = alarms.world.activeThread → (alarms.world.thread thread).activated = true →
    alarms.world.UsedUp thread

/-- A thread that waits or has ended gets a priority. -/
theorem MaySetPrio.stored (may : MaySetPrio setting thread alarms)
    (inactive : (alarms.world.thread thread).state = .wait ∨
      (alarms.world.thread thread).state = .passive) (bound : prio < PRIO_LEVELS) :
    Holds setting { alarms with
      world := alarms.world.onSched fun sched => sched.storePrio thread prio } := by
  obtain ⟨_, _, _, run⟩ := may.unarmed
  have isActive : (alarms.world.thread alarms.world.activeThread).state = .active := run.active
  have different : thread ≠ alarms.world.activeThread := by
    rintro rfl
    rw [isActive] at inactive
    simp at inactive
  obtain ⟨members, all, kept, running⟩ := may.holds different
  refine ⟨members, all, kept.storePrio (fun mem => ?_) bound, running.mem_alive, ?_⟩
  · rcases inactive with waits | passive
    · exact waits
    · exact absurd mem (kept.threads.passive_dead passive)
  · have same : (alarms.world.kernel.sched.storePrio thread prio).threads
        alarms.world.activeThread = alarms.world.thread alarms.world.activeThread :=
      Sched.setThread_other different.symm
    exact (congrArg Thread.state same).trans isActive

/-- The active thread enters the level of its new priority. -/
theorem MaySetPrio.active (may : MaySetPrio setting thread alarms)
    (active : (alarms.world.thread thread).state = .active) (bound : prio < PRIO_LEVELS) :
    Ready setting { alarms with
      world := alarms.world.rejoin alarms.world.kernel.sched thread prio } := by
  obtain ⟨members, all, kept, running⟩ := may.unarmed
  have mem : thread ∈ alarms.world.alive := by
    refine may.known.resolve_right fun passive => ?_
    rw [active] at passive
    cases passive
  have free : ∀ queue, thread ∉ members queue := fun queue => kept.threads.sound.active_free active
  have isActive : thread = alarms.world.activeThread := by
    rcases kept.threads.sound.located thread mem with ⟨-, isActive⟩ | ⟨queue, inQueue⟩
    · exact isActive
    · exact absurd inQueue (free queue)
  obtain ⟨members', kept'⟩ := kept.rejoin mem (kept.threads.sound.drop free) rfl rfl
    (fun _ _ => rfl) bound
  have descriptor := @World.rejoin_thread thread alarms.world prio alarms.world.kernel.sched rfl
  have sameActive : (alarms.world.rejoin alarms.world.kernel.sched thread prio).activeThread =
      thread := (World.rejoin_activeThread rfl).trans isActive.symm
  have tsched : (alarms.world.rejoin alarms.world.kernel.sched thread prio).tsched =
      alarms.world.tsched := rfl
  generalize alarms.world.rejoin alarms.world.kernel.sched thread prio = moved at *
  have ready : (moved.thread moved.activeThread).state = .ready := by
    rw [sameActive, descriptor, Function.update_self]
  refine ⟨members', all, ?_, ?_, ?_⟩
  · refine kept'.reflag (fun _ _ active => ?_) kept'.slices.marked
    have isReady : (moved.thread moved.activeThread).state = .active := active
    rw [ready] at isReady
    cases isReady
  · intro active
    have isReady : (moved.thread moved.activeThread).state = .active := active
    rw [ready] at isReady
    cases isReady
  · intro _ activated _
    have wasActivated : (alarms.world.thread thread).activated = true := by
      have stillActivated : (moved.thread moved.activeThread).activated = true := activated
      rwa [sameActive, descriptor, Function.update_self] at stillActivated
    have spent : moved.UsedUp moved.activeThread := by
      unfold World.UsedUp
      rw [sameActive, tsched]
      exact may.usedUp isActive wasActivated
    exact spent

/-- A ready thread leaves its level and enters that of its new priority. -/
theorem MaySetPrio.ready (may : MaySetPrio setting thread alarms)
    (isReady : (alarms.world.thread thread).state = .ready) (bound : prio < PRIO_LEVELS) :
    Ready setting { alarms with
      world := alarms.world.rejoin (alarms.world.kernel.sched.kthreadRemoveFromReady thread).2
        thread prio } := by
  obtain ⟨_, _, _, run⟩ := may.unarmed
  have isActive : (alarms.world.thread alarms.world.activeThread).state = .active := run.active
  have different : alarms.world.activeThread ≠ thread := by
    rintro rfl
    rw [isActive] at isReady
    cases isReady
  obtain ⟨members, all, kept, running⟩ := may.holds different.symm
  have mem : thread ∈ alarms.world.alive := by
    refine may.known.resolve_right fun passive => ?_
    rw [isReady] at passive
    cases passive
  rcases kept.threads.sound.located thread mem with ⟨active, -⟩ | ⟨queue, inQueue⟩
  · exact absurd (active.symm.trans isReady) (by decide)
  have inState := (kept.threads.sound.placed queue thread inQueue).inState
  have queueReady : queue.state = .ready := inState.symm.trans isReady
  cases queue with
  | ready level =>
      obtain ⟨before, after, place⟩ := List.append_of_mem inQueue
      obtain ⟨-, taken, same, active⟩ := kept.threads.sound.kthreadRemoveFromReady place
      have fewer : ∀ queue : QueueId, queue.state = .wait →
          Function.update members (.ready level) (before ++ after) queue = members queue := by
        intro queue isWait
        refine Function.update_of_ne ?_ ..
        rintro rfl
        cases isWait
      obtain ⟨members', kept'⟩ := kept.rejoin mem taken same active fewer bound
      have descriptor := @World.rejoin_thread thread alarms.world prio _ same
      have sameActive := @World.rejoin_activeThread thread alarms.world prio _ active
      have alive : ∀ sched, (alarms.world.rejoin sched thread prio).alive = alarms.world.alive :=
        fun _ => rfl
      have holds : Holds setting { alarms with
          world := alarms.world.rejoin
            (alarms.world.kernel.sched.kthreadRemoveFromReady thread).2 thread prio } := by
        refine ⟨members', all, kept', ?_, ?_⟩
        · have isAlive : (alarms.world.rejoin
              (alarms.world.kernel.sched.kthreadRemoveFromReady thread).2 thread prio).activeThread ∈
                alarms.world.alive := by
            rw [sameActive]
            exact running.mem_alive
          rw [alive]
          exact isAlive
        · have state : ((alarms.world.rejoin
              (alarms.world.kernel.sched.kthreadRemoveFromReady thread).2 thread prio).thread
                (alarms.world.rejoin (alarms.world.kernel.sched.kthreadRemoveFromReady thread).2
                  thread prio).activeThread).state = .active := by
            rw [sameActive, descriptor, Function.update_of_ne different]
            exact isActive
          exact state
      exact holds.ready
  | _ => cases queueReady

/-- `kthread_set_prio`. -/
theorem kthreadSetPrio_spec (nested : Nested call) (thread : Ptr) (bound : prio < PRIO_LEVELS) :
    Ensures call (MaySetPrio setting thread) (World.kthreadSetPrio thread prio)
      fun _ => Holds setting := by
  unfold World.kthreadSetPrio
  refine Ensures.bind Ensures.read fun world => ?_
  split
  · rename_i active
    refine Ensures.bind ?_ fun _ => kthreadsSchedule_spec nested
    refine Ensures.modify.mono ?_ fun _ _ post => post
    rintro alarms ⟨rfl, may⟩
    exact may.active active bound
  · rename_i ready
    refine Ensures.bind ?_ fun _ => kthreadsSchedule_spec nested
    refine Ensures.modify.mono ?_ fun _ _ post => post
    rintro alarms ⟨rfl, may⟩
    exact may.ready ready bound
  · rename_i waits
    refine Ensures.modify.mono ?_ fun _ _ post => post
    rintro alarms ⟨rfl, may⟩
    exact may.stored (.inl waits) bound
  · rename_i passive
    refine Ensures.modify.mono ?_ fun _ _ post => post
    rintro alarms ⟨rfl, may⟩
    exact may.stored (.inr passive) bound

/-- What `ksched_set_thread_policy` changes. -/
theorem World.kschedSetThreadPolicy_same :
    (world.kschedSetThreadPolicy thread .rr).kernel = world.kernel ∧
      (world.kschedSetThreadPolicy thread .rr).life = world.life ∧
      (world.kschedSetThreadPolicy thread .rr).rrAlarm = world.rrAlarm ∧
      (world.kschedSetThreadPolicy thread .rr).rrParams = world.rrParams ∧
      (∀ other, other ≠ thread →
        (world.kschedSetThreadPolicy thread .rr).tsched other = world.tsched other) ∧
      ((world.kschedSetThreadPolicy thread .rr).tsched thread).remainder = world.timeSlice := by
  unfold World.kschedSetThreadPolicy World.threadAdd World.rrThreadAdd World.setSched
  refine ⟨rfl, rfl, rfl, rfl, fun other different => ?_, ?_⟩
  · dsimp only
    rw [Function.update_of_ne different, Function.update_of_ne different]
  · dsimp only
    rw [Function.update_self]

/-- The parameters may be set for the thread: it exists, and if it is the active one with
its slice begun, a new slice is empty. -/
def MaySetParams (thread : Ptr) (world : World) : Prop :=
  (thread ∈ world.alive ∨ (world.thread thread).state = .passive) ∧
    (thread = world.activeThread → (world.thread thread).activated = true →
      world.timeSlice.sec + world.timeSlice.nsec = 0)

/-- The policy of a thread is stored. -/
theorem Holds.setPolicy (holds : Holds setting alarms) (may : MaySetParams thread alarms.world) :
    MaySetPrio setting thread
      (alarms.onWorld fun world => world.kschedSetThreadPolicy thread .rr) := by
  obtain ⟨members, all, kept, running⟩ := holds
  obtain ⟨kernel, life, rrAlarm, rrParams, others, remainder⟩ :=
    @World.kschedSetThreadPolicy_same thread alarms.world
  change MaySetPrio setting thread
    { alarms with world := alarms.world.kschedSetThreadPolicy thread .rr }
  generalize alarms.world.kschedSetThreadPolicy thread .rr = stored at *
  have alive : stored.alive = alarms.world.alive := by
    unfold World.alive
    rw [life]
  have descriptor : stored.thread = alarms.world.thread := by
    unfold World.thread
    rw [kernel]
  have activeThread : stored.activeThread = alarms.world.activeThread :=
    congrArg Kernel.activeThread kernel
  have running' : Running stored.kernel.sched stored.alive := by
    rw [kernel, alive]
    exact running
  refine ⟨⟨members, all, ?_, running'⟩, fun different => ⟨members, all, ?_, running'⟩, ?_,
    fun isActive activated => ?_⟩
  · exact (kept.reflag False.elim kept.slices.marked).tsched not_false kernel life rrAlarm
      (by rw [rrParams])
  · have notActive : alarms.world.activeThread ≠ thread := fun same =>
      different (same.symm.trans activeThread.symm)
    exact kept.frame kernel life (others _ notActive) rrAlarm (by rw [rrParams])
  · rw [alive, descriptor]
    exact may.1
  · rw [activeThread] at isActive
    rw [descriptor] at activated
    have spent : stored.UsedUp thread := by
      unfold World.UsedUp
      rw [remainder]
      exact may.2 isActive activated
    exact spent

theorem Holds.setTimeSlice (holds : Holds setting alarms) (params : Option Time) :
    Holds setting (alarms.onWorld (World.setTimeSlice params)) := by
  obtain ⟨members, all, kept, running⟩ := holds
  cases params with
  | none => exact ⟨members, all, kept, running⟩
  | some timeSlice =>
      have kept' : Kept setting (alarms.onWorld (World.setTimeSlice (some timeSlice))) members
          all := kept.frame rfl rfl rfl rfl rfl
      exact ⟨members, all, kept', running⟩

/-- `sys__set_thread_sched_params`. -/
theorem sysSetThreadSchedParams_spec (nested : Nested call) (handle : Handle) (policy prio : Int)
    (params : Option Time) :
    Ensures call
      (fun alarms => Holds setting alarms ∧
        (World.ValidParams handle policy prio alarms.world →
          MaySetParams handle.thread alarms.world))
      (World.sysSetThreadSchedParams handle policy prio params) fun _ => Holds setting := by
  unfold World.sysSetThreadSchedParams
  refine Ensures.bind Ensures.read fun world => ?_
  apply Ensures.ite
  · intro _
    exact (setErrno_spec _).mono (fun _ pre => pre.2.1) fun _ _ post => post
  · intro valid
    have isValid : World.ValidParams handle policy prio world := not_not.mp valid
    have bound : prio.toNat < PRIO_LEVELS := by
      obtain ⟨-, -, -, positive, below⟩ := isValid
      omega
    have stored : Ensures call
        (fun alarms => world = alarms.world ∧ Holds setting alarms ∧
          (World.ValidParams handle policy prio alarms.world →
            MaySetParams handle.thread alarms.world))
        (Prog.modify fun world => world.kschedSetThreadPolicy handle.thread .rr)
        fun _ => MaySetPrio setting handle.thread := by
      refine Ensures.modify.mono ?_ fun _ _ post => post
      rintro alarms ⟨rfl, holds, may⟩
      exact holds.setPolicy (may isValid)
    refine Ensures.bind stored fun _ =>
      Ensures.bind (kthreadSetPrio_spec nested handle.thread bound) fun _ => ?_
    exact Ensures.modify.mono (fun _ holds => holds.setTimeSlice params) fun _ _ post => post

theorem sysSetSchedParams_spec (policy : Int) (params : Option Time) :
    Ensures call (Holds setting) (World.sysSetSchedParams policy params)
      fun _ => Holds setting := by
  unfold World.sysSetSchedParams
  apply Ensures.ite
  · exact fun _ => setErrno_spec _
  · intro _
    exact Ensures.modify.mono (fun _ holds => holds.setTimeSlice params) fun _ _ post => post

end Params

end Oseer
