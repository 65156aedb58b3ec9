import Oseer.SchedRuns

/-!
# The queues of the threads that wait

What blocking, releasing and cancelling a thread does to the queues of waiting threads, up to
the next exit from the kernel.  Only the queue that is named changes, and the objects that the
queues belong to do not.
-/

namespace Oseer

open LinkedRing Results

variable {kernel kernel' : Kernel} {idle thread : Ptr} {alive : Set Ptr}
  {members members' : Members} {all : List Ptr} {queue : QueueId} {status : Int}
  {result : Int × Kernel} {rest : List Ptr}

/-- The objects that the threads wait for are the same. -/
structure Kernel.SameObjects (kernel kernel' : Kernel) : Prop where
  semValue : kernel'.semValue = kernel.semValue
  monitors : kernel'.monitors = kernel.monitors
  kmsgs : kernel'.kmsgs = kernel.kmsgs
  minPrio : kernel'.minPrio = kernel.minPrio
  kgmsgqId : kernel'.kgmsgqId = kernel.kgmsgqId

namespace Kernel.SameObjects

theorem refl (kernel : Kernel) : kernel.SameObjects kernel := ⟨rfl, rfl, rfl, rfl, rfl⟩

theorem trans {kernel'' : Kernel} (first : kernel.SameObjects kernel')
    (second : kernel'.SameObjects kernel'') : kernel.SameObjects kernel'' where
  semValue := second.semValue.trans first.semValue
  monitors := second.monitors.trans first.monitors
  kmsgs := second.kmsgs.trans first.kmsgs
  minPrio := second.minPrio.trans first.minPrio
  kgmsgqId := second.kgmsgqId.trans first.kgmsgqId

theorem of_core (core : SameCore kernel kernel') : kernel.SameObjects kernel' :=
  ⟨core.semValue, core.monitors, core.kmsgs, core.minPrio, core.kgmsgqId⟩

theorem kthreadsSchedule (scheduled : kernel.kthreadsSchedule = .ok kernel') :
    kernel.SameObjects kernel' := by
  obtain ⟨sched, -, rfl⟩ := map_ok scheduled
  exact ⟨rfl, rfl, rfl, rfl, rfl⟩

theorem leaveQueue (left : kernel.leaveQueue thread = .ok kernel') :
    kernel.SameObjects kernel' := by
  unfold Kernel.leaveQueue at left
  split at left
  · cases left
  · obtain rfl := Except.ok.inj left
    exact ⟨rfl, rfl, rfl, rfl, rfl⟩

theorem releaseDescriptor (released : kernel.releaseDescriptor thread = .ok kernel') :
    kernel.SameObjects kernel' := by
  unfold Kernel.releaseDescriptor at released
  split at released
  · obtain ⟨freed, frees, rfl⟩ := map_ok released
    unfold Kernel.kFreeUniqueId at frees
    split_ifs at frees
    obtain rfl := Except.ok.inj frees
    exact ⟨rfl, rfl, rfl, rfl, rfl⟩
  · obtain rfl := Except.ok.inj released
    exact ⟨rfl, rfl, rfl, rfl, rfl⟩

theorem finishCancel (finished : kernel.finishCancel thread status = .ok result) :
    kernel.SameObjects result.2 := by
  obtain ⟨ended, ends, finished⟩ := bind_ok finished
  obtain ⟨scheduled, schedules, finished⟩ := bind_ok finished
  obtain rfl := Except.ok.inj finished
  obtain ⟨released, releases, descriptor⟩ := bind_ok ends
  have stored : kernel.SameObjects (kernel.endThread thread status) := ⟨rfl, rfl, rfl, rfl, rfl⟩
  have resources := of_core (Kernel.releaseResources_core releases)
  exact stored.trans (resources.trans ((releaseDescriptor descriptor).trans
    (kthreadsSchedule schedules)))

theorem kthreadCancel (cancelled : kernel.kthreadCancel thread status = .ok result) :
    kernel.SameObjects result.2 := by
  unfold Kernel.kthreadCancel at cancelled
  split at cancelled
  · obtain rfl := Except.ok.inj cancelled
    exact .refl kernel
  · obtain ⟨left, leaves, cancelled⟩ := bind_ok cancelled
    have marked : left.SameObjects { left with
        sched := left.sched.markIfEmpty (left.thread thread).prio } := ⟨rfl, rfl, rfl, rfl, rfl⟩
    exact (leaveQueue leaves).trans (marked.trans (finishCancel cancelled))
  · obtain ⟨left, leaves, cancelled⟩ := bind_ok cancelled
    exact (leaveQueue leaves).trans (finishCancel cancelled)
  · split at cancelled
    · obtain rfl := Except.ok.inj cancelled
      exact .refl kernel
    · have stopped : kernel.SameObjects (kernel.setThread thread fun descriptor =>
          { descriptor with state := .passive }) := ⟨rfl, rfl, rfl, rfl, rfl⟩
      exact stopped.trans (finishCancel cancelled)

end Kernel.SameObjects

section Queues

/-- The invariant does not depend on the objects that the threads wait for. -/
theorem Settled.of_same (settled : Settled kernel idle alive members all)
    (sched : kernel'.sched = kernel.sched) (allThreads : kernel'.allThreads = kernel.allThreads)
    (procs : kernel'.procs = kernel.procs) (processes : kernel'.processes = kernel.processes)
    (idmask : kernel'.idmask = kernel.idmask) (lastId : kernel'.lastId = kernel.lastId) :
    Settled kernel' idle alive members all := by
  have thread : ∀ other, kernel'.thread other = kernel.thread other := by
    intro other
    unfold Kernel.thread
    rw [sched]
  have active : kernel'.activeThread = kernel.activeThread := by
    unfold Kernel.activeThread
    rw [sched]
  refine ⟨sched ▸ settled.sound, ?_, ?_, ?_⟩
  · apply settled.ledger.congr _ _ settled.ledger.unlisted settled.ledger.own
    · exact ⟨allThreads, procs, processes, idmask, lastId,
        fun other => congrArg (fun descriptor : Thread => descriptor.id) (thread other),
        fun other => congrArg (fun descriptor : Thread => descriptor.proc) (thread other)⟩
    · intro other mem
      rw [thread other]
      exact settled.ledger.counted other mem
  · rw [active, thread]
    exact settled.current
  · rw [thread]
    exact settled.idle_runs

theorem Coherent.of_same (coherent : Coherent kernel idle alive members all)
    (sched : kernel'.sched = kernel.sched) (allThreads : kernel'.allThreads = kernel.allThreads)
    (procs : kernel'.procs = kernel.procs) (processes : kernel'.processes = kernel.processes)
    (idmask : kernel'.idmask = kernel.idmask) (lastId : kernel'.lastId = kernel.lastId) :
    Coherent kernel' idle alive members all :=
  ⟨coherent.toSettled.of_same sched allThreads procs processes idmask lastId,
    sched ▸ coherent.running⟩

/-- The active thread blocks, and another one runs. -/
theorem Coherent.blocked (coherent : Coherent kernel idle alive members all)
    (waits : queue.state = .wait) (notIdle : kernel.activeThread ≠ idle)
    (noJoin : ∀ target, queue ≠ .join target)
    (own : ∀ owner, queue = .thrq (.thread owner) → kernel.activeThread = owner)
    (scheduled : (kernel.kthreadEnqueue queue).kthreadsSchedule = .ok kernel') :
    ∃ members', Coherent kernel' idle alive members' all ∧ ∀ other : QueueId,
      other.state = .wait → members' other = enqueued members queue kernel.activeThread other := by
  obtain ⟨settled, -, -⟩ := coherent.kthreadEnqueue waits notIdle
    (fun target isJoin => absurd isJoin (noJoin target)) own
  obtain ⟨sched, members', schedules, coherent', -, switches⟩ := settled.kthreadsSchedule
  obtain rfl := Except.ok.inj (scheduled.symm.trans schedules)
  exact ⟨members', coherent', fun other waits => switches.waiting other waits id⟩

/-- The first thread of a queue is released, and the most urgent one runs. -/
theorem Coherent.released (coherent : Coherent kernel idle alive members all)
    (place : members queue = thread :: rest) (waits : queue.state = .wait)
    (scheduled : (kernel.kthreadqRelease queue).2.kthreadsSchedule = .ok kernel') :
    ∃ members', Coherent kernel' idle alive members' all ∧ ∀ other : QueueId,
      other.state = .wait → members' other = Function.update members queue rest other := by
  obtain ⟨-, settled, -, -⟩ := coherent.toSettled.kthreadqRelease place waits
  obtain ⟨sched, members', schedules, coherent', -, switches⟩ := settled.kthreadsSchedule
  obtain rfl := Except.ok.inj (scheduled.symm.trans schedules)
  refine ⟨members', coherent', fun other otherWaits => ?_⟩
  rw [switches.waiting other otherWaits id]
  have moved : SameWaiting (fun _ => False) (Function.update members queue rest)
      (Sound.released members queue thread rest (kernel.thread thread).prio) := sameWaiting_ready
  exact moved other otherWaits id

/-- The active thread waits in no queue. -/
theorem Coherent.active_free (coherent : Coherent kernel idle alive members all) :
    kernel.activeThread ∉ members queue :=
  coherent.sound.active_free coherent.running.active

end Queues

end Oseer
