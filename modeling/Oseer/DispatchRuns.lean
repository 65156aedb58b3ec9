import Oseer.DispatchOps

/-!
# The order of dispatch over runs

The kernel has at each time of a run the queues and the active thread of the plain scheduler.  A
ready thread is dispatched after those that stand before it in its level, and before all others of
its level.
-/

namespace Oseer

open LinkedRing PriorityQueues Results

variable {kernel kernel' : Kernel} {idle thread : Ptr} {alive : Set Ptr}
  {members : Members} {all : List Ptr} {queue : QueueId} {plain : Dispatcher Ptr QueueId}
  {sched : Sched} {op : SchedOp}

section Refinement

/-- A run with the operations done in it. -/
inductive SchedRun (idle : Ptr) (first : SchedState) : List SchedOp → SchedState → Prop
  | start : SchedRun idle first [] first
  | next {ops : List SchedOp} {kernel kernel' : Kernel} {live : Set Ptr} {op : SchedOp}
      (run : SchedRun idle first ops ⟨kernel, live⟩) (fits : op.Fits idle kernel live)
      (result : op.run kernel = .ok kernel') :
      SchedRun idle first (ops ++ [op]) ⟨kernel', op.liveAfter kernel live⟩

/-- The plain queues after `kthreads_init`. -/
def plainStart (idle : Ptr) : Dispatcher Ptr QueueId where
  queues := fun _ => []
  prio := fun _ => 0
  running := some idle

/-- The plain queues after some operations. -/
def plainRun (idle : Ptr) (ops : List SchedOp) : Dispatcher Ptr QueueId :=
  ops.foldl (fun plain op => op.plainly plain) (plainStart idle)

/-- The plain queues before the idle thread is chosen. -/
def plainAlone (idle : Ptr) : Dispatcher Ptr QueueId where
  queues := enqueued (fun _ => []) (.ready 0) idle
  prio := fun _ => 0
  running := none

theorem plainAlone_queues :
    (plainAlone idle).queues = Function.update (fun _ => []) (.ready 0) [idle] := rfl

theorem plainAlone_dispatch :
    (plainAlone idle).dispatch .ready PRIO_LEVELS = plainStart idle := by
  have place : (plainAlone idle).queues (.ready 0) = [idle] := by
    rw [plainAlone_queues, Function.update_self]
  have top : Dispatcher.highest .ready (plainAlone idle) PRIO_LEVELS = some 0 := by
    apply Dispatcher.highest_some (by decide)
    · rw [place]
      simp
    · intro p _ greater
      have different : QueueId.ready p ≠ .ready 0 := by
        simp only [ne_eq, QueueId.ready.injEq]
        omega
      rw [plainAlone_queues, Function.update_of_ne different]
  have emptied : Function.update (plainAlone idle).queues (.ready 0) [] = fun _ => [] := by
    rw [plainAlone_queues, Function.update_idem]
    exact Function.update_eq_self (QueueId.ready 0) fun _ => []
  rw [Dispatcher.dispatch_idle rfl top place, emptied]
  rfl

theorem kthreadsInit_mirrors {stack kernelProc : Ptr} (below : idle < addressCount)
    (starts : Kernel.boot.kthreadsInit stack idle kernelProc = .ok kernel) :
    Coherent kernel idle {idle} (plainStart idle).queues [idle] ∧
      Mirrors kernel.sched {idle} (plainStart idle) := by
  obtain ⟨created, settled, spec, schedules⟩ := kthreadsInit_settled below starts
  have passive : (created.sched.threads created.sched.activeThread).state ≠ .active := by
    intro isActive
    have same : created.sched.activeThread = idle := settled.current isActive
    rw [same] at isActive
    exact absurd (spec.state.symm.trans isActive) (by decide)
  have mirrors : Mirrors created.sched {idle} (plainAlone idle) := by
    refine ⟨settled.sound, ?_, (if_neg passive).symm⟩
    rintro other rfl
    exact spec.prio_eq.symm
  have chosen := mirrors.kthreadsSchedule settled.current
    (settled.sound.runnable settled.ledger.idle_mem settled.idle_runs) (kernel_schedules schedules)
  rw [plainAlone_dispatch] at chosen
  obtain ⟨members, coherent⟩ := kthreadsInit_coherent below starts
  have same : members = (plainStart idle).queues :=
    funext fun queue => coherent.sound.linked.unique chosen.sound.linked queue
  exact ⟨same ▸ coherent, chosen⟩

/-- One operation of a run. -/
theorem SchedOp.plainly_step (coherent : Coherent kernel idle alive plain.queues all)
    (mirrors : Mirrors kernel.sched alive plain) (fits : op.Fits idle kernel alive)
    (result : op.run kernel = .ok kernel') :
    (∃ all', Coherent kernel' idle (op.liveAfter kernel alive) (op.plainly plain).queues all') ∧
      Mirrors kernel'.sched (op.liveAfter kernel alive) (op.plainly plain) := by
  have after := (SchedOp.follows coherent mirrors fits result).plainly
  obtain ⟨members, all', coherent'⟩ := (SchedOp.keeps coherent fits).1 _ result
  have same : members = (op.plainly plain).queues :=
    funext fun queue => coherent'.sound.linked.unique after.sound.linked queue
  exact ⟨⟨all', same ▸ coherent'⟩, after⟩

theorem SchedRun.mirrors {stack kernelProc : Ptr} {first : Kernel} {ops : List SchedOp}
    {state : SchedState} (below : idle < addressCount)
    (starts : Kernel.boot.kthreadsInit stack idle kernelProc = .ok first)
    (run : SchedRun idle ⟨first, {idle}⟩ ops state) :
    (∃ all, Coherent state.kernel idle state.live (plainRun idle ops).queues all) ∧
      Mirrors state.kernel.sched state.live (plainRun idle ops) := by
  induction run with
  | start =>
      obtain ⟨coherent, mirrors⟩ := kthreadsInit_mirrors below starts
      exact ⟨⟨_, coherent⟩, mirrors⟩
  | next run fits result ih =>
      obtain ⟨⟨all, coherent⟩, mirrors⟩ := ih
      unfold plainRun
      rw [List.foldl_append]
      exact SchedOp.plainly_step coherent mirrors fits result

/-- The linked lists of the kernel hold what the plain queues hold, in the same order, and the same
thread is active, after any run. -/
theorem scheduler_refines {stack kernelProc : Ptr} {first : Kernel} {ops : List SchedOp}
    {state : SchedState} (below : idle < addressCount)
    (starts : Kernel.boot.kthreadsInit stack idle kernelProc = .ok first)
    (run : SchedRun idle ⟨first, {idle}⟩ ops state) :
    state.kernel.sched.queues.Linked (plainRun idle ops).queues ∧
      (plainRun idle ops).running = some state.kernel.activeThread ∧
      ∀ thread ∈ state.live, (plainRun idle ops).prio thread = (state.kernel.thread thread).prio := by
  obtain ⟨⟨all, coherent⟩, mirrors⟩ := run.mirrors below starts
  exact ⟨mirrors.sound.linked, coherent.runs mirrors, mirrors.prio⟩

/-- A thread of the process of the idle thread may be created at an address that is not in use. -/
theorem create_fits {stack kthread : Ptr} {prio : Int}
    (coherent : Coherent kernel idle alive members all) (below : kthread < addressCount)
    (fresh : kthread ∉ all) :
    (SchedOp.create stack kthread prio (kernel.thread idle).proc).Fits idle kernel alive := by
  refine ⟨below, fun others linked => ?_, idle, coherent.ledger.idle_mem, rfl⟩
  have same : all = others := coherent.ledger.listed.unique linked ()
  exact same ▸ fresh

/-- A thread is created and runs. -/
theorem scheduler_refines_sample : ∃ first last : Kernel,
    Kernel.boot.kthreadsInit 8184 7960 100 = .ok first ∧
      last.sched.queues.Linked (plainRun 7960 [.create 6000 5000 10 100, .release (.sem 0)]).queues ∧
      (plainRun 7960 [.create 6000 5000 10 100, .release (.sem 0)]).running =
        some last.activeThread ∧ last.activeThread = 5000 := by
  have evaluated : ((do
      let first ← Kernel.boot.kthreadsInit 8184 7960 100
      let created ← (SchedOp.create 6000 5000 10 100).run first
      let last ← (SchedOp.release (.sem 0)).run created
      return (first, last)).map fun kernels : Kernel × Kernel =>
        ((kernels.1.thread 7960).proc, kernels.2.activeThread)) = .ok (100, 5000) := by
    decide +kernel
  obtain ⟨kernels, ran, values⟩ := map_ok evaluated
  obtain ⟨first, starts, ran⟩ := bind_ok ran
  obtain ⟨created, creates, ran⟩ := bind_ok ran
  obtain ⟨last, releases, returned⟩ := bind_ok ran
  obtain rfl := Except.ok.inj returned
  obtain ⟨isProc, isActive⟩ := Prod.mk.inj values
  obtain ⟨coherent, -⟩ := kthreadsInit_mirrors (by decide) starts
  have fits : (SchedOp.create 6000 5000 10 (first.thread 7960).proc).Fits 7960 first {7960} :=
    create_fits coherent (by decide) (by decide)
  rw [show (first.thread 7960).proc = 100 from isProc] at fits
  have run : SchedRun 7960 ⟨first, {7960}⟩ [.create 6000 5000 10 100, .release (.sem 0)]
      ⟨last, insert 5000 {7960}⟩ := .next (.next .start fits creates) rfl releases
  obtain ⟨linked, running, -⟩ := scheduler_refines (by decide) starts run
  exact ⟨first, last, starts, linked, running, isActive⟩

end Refinement

section Turns

/-- The operation neither cancels the thread nor gives it a priority. -/
def SchedOp.Spares (thread : Ptr) : SchedOp → Prop
  | .setPrio kthread _ => kthread ≠ thread
  | .cancel kthread _ => kthread ≠ thread
  | _ => True

/-- The thread of a level that an operation has made active. -/
def servedAt (level : Nat) (kernel kernel' : Kernel) : List Ptr :=
  if kernel'.activeThread ≠ kernel.activeThread ∧
      (kernel'.thread kernel'.activeThread).prio = level then [kernel'.activeThread] else []

/-- A run that spares a thread, with the threads of a level that are made active in it. -/
inductive ServiceRun (idle thread : Ptr) (level : Nat) (first : SchedState) :
    List Ptr → SchedState → Prop
  | start : ServiceRun idle thread level first [] first
  | next {served : List Ptr} {kernel kernel' : Kernel} {live : Set Ptr} {op : SchedOp}
      (run : ServiceRun idle thread level first served ⟨kernel, live⟩)
      (fits : op.Fits idle kernel live) (spares : op.Spares thread)
      (result : op.run kernel = .ok kernel') :
      ServiceRun idle thread level first (served ++ servedAt level kernel kernel')
        ⟨kernel', op.liveAfter kernel live⟩

variable {level : Nat} {front served : List Ptr}

theorem wait_apart {p : Nat} (waits : queue.state = .wait) : queue ≠ .ready p := by
  rintro rfl
  cases waits

/-- While the queues are prepared nobody passes a thread in its level. -/
theorem SchedOp.prepare_ahead (ahead : plain.Ahead .ready level thread front)
    (runs : plain.running = some kernel.activeThread) (inactive : kernel.activeThread ≠ thread)
    (spares : op.Spares thread) (fits : op.Fits idle kernel alive) :
    ∃ front', List.Sublist front' front ∧
      (op.prepare plain).Ahead .ready level thread front' := by
  have kept : ∀ {plain' : Dispatcher Ptr QueueId}, plain'.Ahead .ready level thread front →
      ∃ front', List.Sublist front' front ∧ plain'.Ahead .ready level thread front' :=
    fun still => ⟨front, List.Sublist.refl front, still⟩
  cases op with
  | create stack kthread prio proc => exact kept (Dispatcher.Ahead.append ahead _ _)
  | block queue => exact kept (ahead.sleep queue)
  | release queue => exact kept (ahead.wake (wait_apart fits))
  | releaseAll queue => exact kept (ahead.wakeAll (wait_apart fits))
  | setPrio kthread prio =>
      have other : SchedOp.target kthread plain ≠ thread := by
        rw [target_eq runs]
        split
        · exact inactive
        · exact spares
      unfold SchedOp.prepare
      dsimp only
      split
      · exact kept (Dispatcher.Ahead.preempt ahead)
      · split
        · obtain ⟨front', fewer, removed⟩ := ahead.remove other
          exact ⟨front', fewer, Dispatcher.Ahead.append removed _ _⟩
        · exact kept ahead
  | exit status =>
      unfold SchedOp.prepare
      rw [runs]
      have quit : plain.quit.Ahead .ready level thread front := ahead
      exact kept (quit.wakeAll (wait_apart rfl))
  | cancel kthread status =>
      obtain ⟨front', fewer, removed⟩ := ahead.remove spares
      exact ⟨front', fewer, removed.wakeAll (wait_apart rfl)⟩

/-- While the queues are prepared no other thread starts to run. -/
theorem SchedOp.prepare_running : (op.prepare plain).running = none ∨
    (op.prepare plain).running = plain.running := by
  cases op with
  | create stack kthread prio proc => exact .inr rfl
  | block queue => exact .inl Dispatcher.sleep_running
  | release queue => exact .inr Dispatcher.wake_running
  | releaseAll queue => exact .inr Dispatcher.wakeAll_running
  | setPrio kthread prio =>
      unfold SchedOp.prepare
      dsimp only
      split
      · exact .inl Dispatcher.preempt_running
      · split
        · exact .inr rfl
        · exact .inr rfl
  | exit status =>
      unfold SchedOp.prepare
      dsimp only
      split
      · exact .inr rfl
      · exact .inl Dispatcher.wakeAll_running
  | cancel kthread status => exact .inr Dispatcher.wakeAll_running

theorem Mirrors.level_prio (mirrors : Mirrors sched alive plain)
    (mem : thread ∈ plain.queues (.ready level)) : plain.prio thread = level :=
  (mirrors.prio thread (mirrors.sound.mem_alive _ thread mem)).trans
    (mirrors.sound.ready_level mem)

theorem servedAt_nil (unserved : kernel'.activeThread = kernel.activeThread ∨
    (kernel'.thread kernel'.activeThread).prio ≠ level) : servedAt level kernel kernel' = [] := by
  unfold servedAt
  apply if_neg
  rintro ⟨changed, same⟩
  exact unserved.elim changed fun different => different same

/-- Where a thread and those before it stand after an operation. -/
theorem SchedOp.Follows.ahead (follows : op.Follows alive plain kernel'.sched)
    (runs : plain.running = some kernel.activeThread)
    (runs' : (op.plainly plain).running = some kernel'.activeThread)
    (active : kernel'.activeThread ∈ alive) (inactive : kernel.activeThread ≠ thread)
    (prepared : (op.prepare plain).Ahead .ready level thread front) :
    servedAt level kernel kernel' = [thread] ∨
      ∃ front', List.Sublist (servedAt level kernel kernel' ++ front') front ∧
        (op.plainly plain).Ahead .ready level thread front' := by
  have prioIs := follows.plainly.prio _ active
  have same : (op.plainly plain).running = (op.prepare plain).running →
      servedAt level kernel kernel' = [] := by
    intro kept
    rw [runs'] at kept
    apply servedAt_nil
    left
    rcases SchedOp.prepare_running with none | running
    · exact absurd (kept.trans none) (by simp)
    · exact Option.some.inj (kept.trans (running.trans runs))
  unfold SchedOp.plainly at runs' prioIs same ⊢
  rcases follows with ⟨schedules, middle, ready, -⟩ | ⟨rests, -⟩
  · rw [if_pos schedules] at runs' prioIs same ⊢
    rw [Dispatcher.dispatch_prio] at prioIs
    rcases prepared.dispatch PRIO_LEVELS with
      chosen | ⟨first, front', rfl, chosen, ahead⟩ | ⟨ahead, kept | ⟨q, first, other, chosen, place⟩⟩
    · -- it is the turn of the thread
      left
      have isThread : kernel'.activeThread = thread := Option.some.inj (runs'.symm.trans chosen)
      obtain ⟨back, place⟩ := prepared
      have inLevel : thread ∈ (op.prepare plain).queues (.ready level) := by
        rw [place]
        simp
      have atLevel := ready.mirrors.level_prio inLevel
      rw [isThread, atLevel] at prioIs
      unfold servedAt
      rw [isThread, if_pos ⟨Ne.symm inactive, prioIs.symm⟩]
    · -- it is the turn of the first one of the level
      right
      refine ⟨front', ?_, ahead⟩
      have isFirst : kernel'.activeThread = first := Option.some.inj (runs'.symm.trans chosen)
      unfold servedAt
      split
      · rw [isFirst]
        exact List.Sublist.refl (first :: front')
      · exact List.sublist_cons_self first front'
    · -- the active thread goes on
      right
      refine ⟨front, ?_, ahead⟩
      rw [same kept]
      exact List.Sublist.refl front
    · -- it is the turn of another level
      right
      refine ⟨front, ?_, ahead⟩
      have isFirst : kernel'.activeThread = first := Option.some.inj (runs'.symm.trans chosen)
      have atLevel : (op.prepare plain).prio first = q := by
        rcases place with waiting | ⟨-, its⟩
        · exact ready.mirrors.level_prio waiting
        · exact (QueueId.ready.inj its).symm
      rw [servedAt_nil]
      · exact List.Sublist.refl front
      · right
        intro atLevel'
        apply other
        have prios : q = level := by
          rw [← atLevel, ← isFirst]
          exact prioIs.trans atLevel'
        rw [prios]
  · right
    rw [if_neg (by rw [rests]; decide)] at same ⊢
    refine ⟨front, ?_, prepared⟩
    rw [same rfl]
    exact List.Sublist.refl front

/-- Plain queues that a state of a run has. -/
def HasPlain (idle : Ptr) (state : SchedState) (plain : Dispatcher Ptr QueueId) : Prop :=
  (∃ all, Coherent state.kernel idle state.live plain.queues all) ∧
    Mirrors state.kernel.sched state.live plain

theorem hasPlain {stack kernelProc : Ptr} {first : Kernel} {state : SchedState}
    (below : idle < addressCount)
    (starts : Kernel.boot.kthreadsInit stack idle kernelProc = .ok first)
    (run : Relation.ReflTransGen (SchedStep idle) ⟨first, {idle}⟩ state) :
    ∃ plain, HasPlain idle state plain := by
  induction run with
  | refl =>
      obtain ⟨coherent, mirrors⟩ := kthreadsInit_mirrors below starts
      exact ⟨_, ⟨_, coherent⟩, mirrors⟩
  | tail _ step ih =>
      obtain ⟨plain, ⟨all, coherent⟩, mirrors⟩ := ih
      cases step with
      | step fits result => exact ⟨_, SchedOp.plainly_step coherent mirrors fits result⟩

/-- In one run that spares a thread. -/
theorem ServiceRun.ahead {state state' : SchedState} (has : HasPlain idle state plain)
    (ahead : plain.Ahead .ready level thread front)
    (run : ServiceRun idle thread level state served state') :
    ∃ plain', HasPlain idle state' plain' ∧ (thread ∈ served ∨
      ∃ front', List.Sublist (served ++ front') front ∧
        plain'.Ahead .ready level thread front') := by
  induction run with
  | start => exact ⟨plain, has, .inr ⟨front, List.Sublist.refl front, ahead⟩⟩
  | @next served kernel kernel' live op run fits spares result ih =>
      obtain ⟨middle, ⟨⟨all, coherent⟩, mirrors⟩, so_far⟩ := ih
      have follows := SchedOp.follows coherent mirrors fits result
      obtain ⟨⟨all', coherent'⟩, mirrors'⟩ := SchedOp.plainly_step coherent mirrors fits result
      refine ⟨op.plainly middle, ⟨⟨all', coherent'⟩, mirrors'⟩, ?_⟩
      rcases so_far with done | ⟨front', order, waits⟩
      · exact .inl (List.mem_append_left _ done)
      · have runs := coherent.runs mirrors
        have inactive : kernel.activeThread ≠ thread := by
          rintro rfl
          obtain ⟨back, place⟩ := waits
          apply mirrors.sound.active_free coherent.running.active
          rw [place]
          exact List.mem_append_right _ List.mem_cons_self
        obtain ⟨front'', fewer, prepared⟩ :=
          SchedOp.prepare_ahead waits runs inactive spares fits
        rcases follows.ahead runs (coherent'.runs mirrors') coherent'.running.mem_alive inactive
          prepared with now | ⟨last, order', still⟩
        · left
          rw [now]
          simp
        · right
          refine ⟨last, ?_, still⟩
          rw [List.append_assoc]
          exact (List.Sublist.append_left (order'.trans fewer) served).trans order

/-- In a run that spares a ready thread it is dispatched, or it still stands in its level: those of
the level that have been dispatched and those that still stand before it are among the ones that
stood before it at first, in their order. -/
theorem served_in_turn {stack kernelProc : Ptr} {first : Kernel} {back : List Ptr}
    {state state' : SchedState} (below : idle < addressCount)
    (starts : Kernel.boot.kthreadsInit stack idle kernelProc = .ok first)
    (before : Relation.ReflTransGen (SchedStep idle) ⟨first, {idle}⟩ state)
    (linked : state.kernel.sched.queues.Linked members)
    (place : members (.ready level) = front ++ thread :: back)
    (run : ServiceRun idle thread level state served state') :
    thread ∈ served ∨ ∃ members' front' back', state'.kernel.sched.queues.Linked members' ∧
      members' (.ready level) = front' ++ thread :: back' ∧
      List.Sublist (served ++ front') front := by
  obtain ⟨plain, has⟩ := hasPlain below starts before
  have same : plain.queues (.ready level) = members (.ready level) :=
    has.2.sound.linked.unique linked _
  obtain ⟨plain', ⟨-, mirrors⟩, outcome⟩ := run.ahead has ⟨back, same.trans place⟩
  refine outcome.imp id ?_
  rintro ⟨front', order, back', place'⟩
  exact ⟨plain'.queues, front', back', mirrors.sound.linked, place', order⟩

/-- Two threads of one priority are created, and the first one runs and blocks. -/
theorem served_in_turn_sample : ∃ first second middle last : Kernel,
    Kernel.boot.kthreadsInit 8184 7960 100 = .ok first ∧
      (SchedOp.release (.sem 0)).run second = .ok middle ∧
      (SchedOp.block (.sem 0)).run middle = .ok last ∧
      (5200 ∈ servedAt 10 second middle ++ servedAt 10 middle last ∨
        ∃ members' front' back', last.sched.queues.Linked members' ∧
          members' (.ready 10) = front' ++ 5200 :: back' ∧
          List.Sublist (servedAt 10 second middle ++ servedAt 10 middle last ++ front') [5000]) := by
  have evaluated : ((do
      let first ← Kernel.boot.kthreadsInit 8184 7960 100
      let created ← (SchedOp.create 6000 5000 10 100).run first
      let second ← (SchedOp.create 6400 5200 10 100).run created
      let middle ← (SchedOp.release (.sem 0)).run second
      let last ← (SchedOp.block (.sem 0)).run middle
      return (first, created, middle, last)).map fun kernels : Kernel × Kernel × Kernel × Kernel =>
        ((kernels.1.thread 7960).proc, (kernels.2.1.thread 7960).proc,
          kernels.2.2.1.activeThread)) = .ok (100, 100, 5000) := by
    decide +kernel
  obtain ⟨kernels, ran, values⟩ := map_ok evaluated
  obtain ⟨first, starts, ran⟩ := bind_ok ran
  obtain ⟨created, creates, ran⟩ := bind_ok ran
  obtain ⟨second, creates', ran⟩ := bind_ok ran
  obtain ⟨middle, releases, ran⟩ := bind_ok ran
  obtain ⟨last, blocks, returned⟩ := bind_ok ran
  obtain rfl := Except.ok.inj returned
  obtain ⟨isProc, values⟩ := Prod.mk.inj values
  obtain ⟨isProc', isActive⟩ := Prod.mk.inj values
  obtain ⟨coherent, -⟩ := kthreadsInit_mirrors (by decide) starts
  have fits : (SchedOp.create 6000 5000 10 (first.thread 7960).proc).Fits 7960 first {7960} :=
    create_fits coherent (by decide) (by decide)
  rw [show (first.thread 7960).proc = 100 from isProc] at fits
  have once : Relation.ReflTransGen (SchedStep 7960) ⟨first, {7960}⟩
      ⟨created, insert 5000 {7960}⟩ := .single (.step fits creates)
  obtain ⟨members, coherent', -⟩ := coherent.kthreadCreate (by decide) (by decide) fits.2.2 creates
  have fits' : (SchedOp.create 6400 5200 10 (created.thread 7960).proc).Fits 7960 created
      (insert 5000 {7960}) := create_fits coherent' (by decide) (by decide)
  rw [show (created.thread 7960).proc = 100 from isProc'] at fits'
  have twice := once.tail (.step fits' creates')
  have run : SchedRun 7960 ⟨first, {7960}⟩ [.create 6000 5000 10 100, .create 6400 5200 10 100]
      ⟨second, insert 5200 (insert 5000 {7960})⟩ := .next (.next .start fits creates) fits' creates'
  obtain ⟨-, mirrors⟩ := run.mirrors (by decide) starts
  have blockFits : (SchedOp.block (.sem 0)).Fits 7960 middle (insert 5200 (insert 5000 {7960})) := by
    refine ⟨rfl, ?_, ?_, ?_⟩
    · change middle.activeThread = 5000 at isActive
      rw [isActive]
      decide
    · intro target isJoin
      cases isJoin
    · intro owner isThrq
      cases isThrq
  have releaseFits : (SchedOp.release (.sem 0)).Fits 7960 second
      (insert 5200 (insert 5000 {7960})) := rfl
  have service : ServiceRun 7960 5200 10 ⟨second, insert 5200 (insert 5000 {7960})⟩
      ([] ++ servedAt 10 second middle ++ servedAt 10 middle last)
      ⟨last, insert 5200 (insert 5000 {7960})⟩ :=
    .next (.next .start releaseFits trivial releases) blockFits trivial blocks
  have place : (plainRun 7960 [.create 6000 5000 10 100, .create 6400 5200 10 100]).queues
      (.ready 10) = [5000] ++ 5200 :: [] := rfl
  exact ⟨first, second, middle, last, starts, releases, blocks,
    served_in_turn (by decide) starts twice mirrors.sound.linked place service⟩

end Turns

end Oseer
