import Mathlib.Logic.Relation
import Oseer.Kernel
import Oseer.Library.Results

/-!
# Signals

`sys__thread_msg_set`, the part of `sys__msg_post` for `MSG_SIGNAL`, and the
creation of threads with their start addresses.  A thread has a handler from
its registration on; before, its descriptor holds what `k_thr_msg_init` stores.

The rest of the kernel, with what the scheduling policies do, is an arbitrary
change of its memory outside of the signal data.
-/

namespace Oseer

open Results

/-- `kthrmsg_qs`, apart from the message queue. -/
structure SignalData where
  sigPrio : Nat
  signalHandler : Ptr
deriving DecidableEq, Repr

/-- A call of `kthread_create`: the descriptor it returns, the process, and the start
address and its parameter in the new context. -/
structure NewThread where
  kthread : Ptr
  proc : Ptr
  startFunc : Ptr
  param : Ptr
deriving DecidableEq, Repr

/-- The kernel with signals.  `storage` is the messages in private storage; `created`
records the calls of `kthread_create`, the last one first, and `registered` the handlers
that the thread of a descriptor has given to `sys__thread_msg_set`, the last one only. -/
structure SignalKernel where
  kernel : Kernel
  msg : Ptr → SignalData
  storage : Ptr → Msg
  created : List NewThread
  registered : Ptr → Option Ptr

/-- Conversion of an `int` to `uint`. -/
def toUint (value : Int) : Nat := (value % 2 ^ 32).toNat

/-- `kthread_get_descriptor`. -/
def Kernel.kthreadGetDescriptor (thr : Handle) (kernel : Kernel) : Option Ptr :=
  if thr.thread ≠ 0 ∧ thr.thrId = (kernel.thread thr.thread).id ∧
      (kernel.thread thr.thread).state ≠ .passive then some thr.thread
  else none

namespace SignalKernel

/-- Change the kernel. -/
def onKernel (change : Kernel → Kernel) (state : SignalKernel) : SignalKernel :=
  { state with kernel := change state.kernel }

/-- `EXIT` with a constant. -/
def exit (errnum : Int) (state : SignalKernel) : Int × SignalKernel :=
  (-errnum, state.onKernel (Kernel.setErrno errnum))

/-- `kthreads_schedule`. -/
def kthreadsSchedule (state : SignalKernel) : Except Fault SignalKernel :=
  state.kernel.kthreadsSchedule.map fun kernel => { state with kernel := kernel }

/-- `kthread_create`, with `k_thr_msg_init`. -/
def kthreadCreate (startFunc param : Ptr) (prio : Int) (stack kthread proc : Ptr)
    (state : SignalKernel) : Except Fault SignalKernel :=
  (state.kernel.kthreadCreate stack kthread prio true proc).map fun kernel =>
    { state with
      kernel := kernel
      msg := Function.update state.msg kthread ⟨0, 0⟩
      created := ⟨kthread, proc, startFunc, param⟩ :: state.created
      registered := Function.update state.registered kthread none }

/-- `sys__create_thread`. -/
def sysCreateThread (func param : Ptr) (prio : Int) (stack kthread : Ptr)
    (state : SignalKernel) : Except Fault (Int × SignalKernel) := do
  let proc := (state.kernel.thread state.kernel.activeThread).proc
  let state ← state.kthreadCreate func param prio stack kthread proc
  let state ← (state.onKernel (Kernel.setErrno SUCCESS)).kthreadsSchedule
  return (-SUCCESS, state)

/-- `sys__thread_msg_set`. -/
def sysThreadMsgSet (minMsgPrio : Nat) (minSigPrio : Int) (sigHandler : Ptr)
    (state : SignalKernel) : Int × SignalKernel :=
  let kthr := state.kernel.activeThread
  exit SUCCESS { state with
    kernel := { state.kernel with
      minPrio := Function.update state.kernel.minPrio (.thread kthr) minMsgPrio }
    msg := Function.update state.msg kthr ⟨toUint minSigPrio, sigHandler⟩
    registered := Function.update state.registered kthr (some sigHandler) }

/-- The part of `sys__msg_post` that creates a thread for an accepted signal, where
`cmsg` is the address of the copy of the message. -/
def serveSignal (kthr : Ptr) (msg : Msg) (cmsg stack kthread : Ptr) (state : SignalKernel) :
    Except Fault (Int × SignalKernel) := do
  let state := { state with storage := Function.update state.storage cmsg msg }
  let proc := (state.kernel.thread kthr).proc
  let prio := (state.kernel.thread kthr).prio
  let state ← state.kthreadCreate (state.msg kthr).signalHandler
    (cmsg - (state.kernel.processes proc).start) (prio + 1) stack kthread proc
  let state := state.onKernel fun kernel => kernel.setThread kthread fun descriptor =>
    { descriptor with privateStorage := cmsg }
  let state ← (state.onKernel (Kernel.setErrno SUCCESS)).kthreadsSchedule
  return (-SUCCESS, state)

/-- `sys__msg_post` for `MSG_SIGNAL`; without a value for the null pointer. -/
def sysMsgPost (dest : Option Handle) (msg : Option Msg) (cmsg stack kthread : Ptr)
    (state : SignalKernel) : Except Fault (Int × SignalKernel) :=
  match dest, msg with
  | some thr, some msg =>
      match state.kernel.kthreadGetDescriptor thr with
      | none => .ok (state.exit E_DONT_EXIST)
      | some kthr =>
          if (state.msg kthr).sigPrio ≤ toUint msg.type then
            state.serveSignal kthr msg cmsg stack kthread
          else .ok (state.exit E_IGNORED)
  | _, _ => .ok (state.exit E_INVALID_HANDLE)

/-- The kernel after `kthreads_init`, with the idle thread. -/
def start (idleThread stack idle kernelProc : Ptr) : Except Fault SignalKernel :=
  let state : SignalKernel :=
    { kernel := Kernel.boot.initLists kernelProc
      msg := fun _ => ⟨0, 0⟩
      storage := fun _ => ⟨0, 0, fun _ => 0⟩
      created := []
      registered := fun _ => none }
  (state.kthreadCreate idleThread 0 0 stack idle kernelProc).bind kthreadsSchedule

end SignalKernel

/-- What changes the kernel with signals: its system calls, the calls of `kthread_create` by
other functions, and any change of the kernel outside of the signal data. -/
inductive SignalEntry
  | createThread (func param : Ptr) (prio : Int) (stack kthread : Ptr)
  | threadMsgSet (minMsgPrio : Nat) (minSigPrio : Int) (sigHandler : Ptr)
  | msgPost (dest : Option Handle) (msg : Option Msg) (cmsg stack kthread : Ptr)
  | kthreadCreate (startFunc param : Ptr) (prio : Int) (stack kthread proc : Ptr)
  | other (kernel : Kernel)

/-- One entry: the value returned and the new state. -/
def SignalKernel.enter (entry : SignalEntry) (state : SignalKernel) :
    Except Fault (Int × SignalKernel) :=
  match entry with
  | .createThread func param prio stack kthread =>
      state.sysCreateThread func param prio stack kthread
  | .threadMsgSet minMsgPrio minSigPrio sigHandler =>
      .ok (state.sysThreadMsgSet minMsgPrio minSigPrio sigHandler)
  | .msgPost dest msg cmsg stack kthread => state.sysMsgPost dest msg cmsg stack kthread
  | .kthreadCreate startFunc param prio stack kthread proc =>
      (state.kthreadCreate startFunc param prio stack kthread proc).map fun state => (0, state)
  | .other kernel => .ok (0, { state with kernel := kernel })

/-- No thread was created with a null start address. -/
def SignalKernel.NoNull (state : SignalKernel) : Prop :=
  ∀ new ∈ state.created, new.startFunc ≠ 0

/-- A post returns an error and creates no thread, or it creates one thread, in the process
of the target and at the handler that the target registered last. -/
def SignalEntry.Served (state : SignalKernel) (code : Int) (state' : SignalKernel) :
    SignalEntry → Prop
  | .msgPost dest _ _ _ _ =>
      code ≠ SUCCESS ∧ state'.created = state.created ∨
      code = SUCCESS ∧ ∃ thr kthr new, dest = some thr ∧
        state.kernel.kthreadGetDescriptor thr = some kthr ∧
        state'.created = new :: state.created ∧
        new.proc = (state.kernel.thread kthr).proc ∧
        state.registered kthr = some new.startFunc
  | _ => True

/-- No thread is asked for with a null start address, and no signal is accepted for a
thread whose handler is null. -/
def SignalEntry.HasHandler (state : SignalKernel) : SignalEntry → Prop
  | .createThread func _ _ _ _ => func ≠ 0
  | .kthreadCreate startFunc _ _ _ _ _ => startFunc ≠ 0
  | .msgPost dest msg _ _ _ => ∀ thr kthr signal, dest = some thr → msg = some signal →
      state.kernel.kthreadGetDescriptor thr = some kthr →
      (state.msg kthr).sigPrio ≤ toUint signal.type → (state.msg kthr).signalHandler ≠ 0
  | _ => True

/-- One entry that meets a condition. -/
def SignalStep (meets : SignalKernel → SignalEntry → Prop) (state state' : SignalKernel) :
    Prop :=
  ∃ entry code, meets state entry ∧ state.enter entry = .ok (code, state')

/-- The handler in a descriptor is the one registered last, or null. -/
def SignalKernel.Tracked (state : SignalKernel) : Prop :=
  ∀ kthr, (state.msg kthr).signalHandler = (state.registered kthr).getD 0

namespace SignalKernel

variable {state state' first : SignalKernel} {entry : SignalEntry} {code : Int}
  {startFunc param stack kthread proc cmsg kthr idleThread idle kernelProc : Ptr} {prio : Int}
  {signal : Msg} {ran : Int × SignalKernel}

section Results

theorem kthreadsSchedule_ok (result : state.kthreadsSchedule = .ok state') :
    ∃ kernel, state' = { state with kernel := kernel } := by
  obtain ⟨kernel, -, rfl⟩ := map_ok result
  exact ⟨kernel, rfl⟩

/-- The state after a thread is created. -/
def after (new : NewThread) (kernel : Kernel) (storage : Ptr → Msg) (state : SignalKernel) :
    SignalKernel where
  kernel := kernel
  msg := Function.update state.msg new.kthread ⟨0, 0⟩
  storage := storage
  created := new :: state.created
  registered := Function.update state.registered new.kthread none

theorem kthreadCreate_ok
    (result : state.kthreadCreate startFunc param prio stack kthread proc = .ok state') :
    ∃ kernel, state' = state.after ⟨kthread, proc, startFunc, param⟩ kernel state.storage := by
  obtain ⟨kernel, -, rfl⟩ := map_ok result
  exact ⟨kernel, rfl⟩

theorem sysCreateThread_ok
    (result : state.sysCreateThread startFunc param prio stack kthread = .ok ran) :
    ∃ kernel, ran.2 = state.after ⟨kthread,
      (state.kernel.thread state.kernel.activeThread).proc, startFunc, param⟩ kernel
        state.storage := by
  obtain ⟨created, creates, rest⟩ := bind_ok result
  obtain ⟨scheduled, schedules, rest⟩ := bind_ok rest
  obtain rfl := Except.ok.inj rest
  obtain ⟨kernel, rfl⟩ := kthreadCreate_ok creates
  obtain ⟨kernel', rfl⟩ := kthreadsSchedule_ok schedules
  exact ⟨kernel', rfl⟩

theorem serveSignal_ok
    (result : state.serveSignal kthr signal cmsg stack kthread = .ok ran) :
    ran.1 = SUCCESS ∧ ∃ kernel storage param, ran.2 = state.after
      ⟨kthread, (state.kernel.thread kthr).proc, (state.msg kthr).signalHandler, param⟩ kernel
        storage := by
  obtain ⟨created, creates, rest⟩ := bind_ok result
  obtain ⟨scheduled, schedules, rest⟩ := bind_ok rest
  obtain rfl := Except.ok.inj rest
  obtain ⟨kernel, rfl⟩ := kthreadCreate_ok creates
  obtain ⟨kernel', rfl⟩ := kthreadsSchedule_ok schedules
  exact ⟨rfl, kernel', _, _, rfl⟩

end Results

theorem Tracked.after (tracked : state.Tracked) (new : NewThread) (kernel : Kernel)
    (storage : Ptr → Msg) : (state.after new kernel storage).Tracked := by
  intro kthr
  by_cases same : kthr = new.kthread
  · subst same
    simp [SignalKernel.after]
  · simp [SignalKernel.after, same, tracked kthr]

theorem noNull_after (new : NewThread) (kernel : Kernel) (storage : Ptr → Msg) :
    (state.after new kernel storage).NoNull ↔ new.startFunc ≠ 0 ∧ state.NoNull := by
  simp [NoNull, SignalKernel.after]

/-- What a post does: it ends with an error, or serves an accepted signal. -/
inductive PostCase (state : SignalKernel) (dest : Option Handle) (msg : Option Msg)
    (stack kthread : Ptr) : Int × SignalKernel → Prop
  | refused {errnum : Int} (isError : errnum = E_DONT_EXIST ∨ errnum = E_IGNORED ∨
      errnum = E_INVALID_HANDLE)
      (ignored : ∀ thr kthr signal, dest = some thr → msg = some signal →
        state.kernel.kthreadGetDescriptor thr = some kthr →
        ¬ (state.msg kthr).sigPrio ≤ toUint signal.type) :
      PostCase state dest msg stack kthread (state.exit errnum)
  | served {thr : Handle} {kthr param : Ptr} {signal : Msg} {kernel : Kernel}
      {storage : Ptr → Msg} (isDest : dest = some thr) (isMsg : msg = some signal)
      (target : state.kernel.kthreadGetDescriptor thr = some kthr)
      (accepted : (state.msg kthr).sigPrio ≤ toUint signal.type) :
      PostCase state dest msg stack kthread (SUCCESS, state.after ⟨kthread,
        (state.kernel.thread kthr).proc, (state.msg kthr).signalHandler, param⟩ kernel storage)

theorem sysMsgPost_cases {dest : Option Handle} {msg : Option Msg}
    (result : state.sysMsgPost dest msg cmsg stack kthread = .ok ran) :
    PostCase state dest msg stack kthread ran := by
  unfold sysMsgPost at result
  split at result
  case h_2 none =>
    obtain rfl := Except.ok.inj result
    exact .refused (.inr (.inr rfl)) fun thr _ signal isDest isMsg =>
      absurd isMsg (none thr signal isDest)
  case h_1 thr signal =>
    split at result
    · next unknown =>
      obtain rfl := Except.ok.inj result
      refine .refused (.inl rfl) fun thr' kthr signal' isDest _ target => ?_
      obtain rfl := Option.some.inj isDest
      rw [unknown] at target
      cases target
    · next kthr target =>
      split at result
      · next accepted =>
        obtain ⟨code, kernel, storage, param, created⟩ := serveSignal_ok result
        obtain ⟨_, _⟩ := ran
        obtain rfl : _ = SUCCESS := code
        obtain rfl := created
        exact .served rfl rfl target accepted
      · next ignored =>
        obtain rfl := Except.ok.inj result
        refine .refused (.inr (.inl rfl)) fun thr' kthr' signal' isDest isMsg target' => ?_
        obtain rfl := Option.some.inj isDest
        obtain rfl := Option.some.inj isMsg
        obtain rfl := Option.some.inj (target.symm.trans target')
        exact ignored

/-- The handlers stay tracked. -/
theorem Tracked.enter (tracked : state.Tracked) (enters : state.enter entry = .ok (code, state')) :
    state'.Tracked := by
  cases entry with
  | createThread func param prio stack kthread =>
      obtain ⟨kernel, created⟩ := sysCreateThread_ok enters
      rw [show state' = _ from created]
      exact tracked.after _ _ _
  | threadMsgSet minMsgPrio minSigPrio sigHandler =>
      obtain ⟨-, rfl⟩ := Prod.mk.inj (Except.ok.inj enters)
      intro kthr
      by_cases same : kthr = state.kernel.activeThread
      · subst same
        simp [onKernel]
      · simp [onKernel, same, tracked kthr]
  | msgPost dest msg cmsg stack kthread =>
      cases sysMsgPost_cases enters with
      | refused => exact tracked
      | served => exact tracked.after _ _ _
  | kthreadCreate startFunc param prio stack kthread proc =>
      obtain ⟨created, creates, result⟩ := map_ok enters
      obtain ⟨-, rfl⟩ := Prod.mk.inj result
      obtain ⟨kernel, rfl⟩ := kthreadCreate_ok creates
      exact tracked.after _ _ _
  | other kernel =>
      obtain ⟨-, rfl⟩ := Prod.mk.inj (Except.ok.inj enters)
      exact tracked

/-- An entry does what is expected exactly if it has a handler. -/
theorem NoNull.enter_iff (noNull : state.NoNull) (tracked : state.Tracked)
    (enters : state.enter entry = .ok (code, state')) :
    state'.NoNull ∧ entry.Served state code state' ↔ entry.HasHandler state := by
  cases entry with
  | createThread func param prio stack kthread =>
      obtain ⟨kernel, created⟩ := sysCreateThread_ok enters
      rw [show state' = _ from created, noNull_after]
      simp [SignalEntry.Served, SignalEntry.HasHandler, noNull]
  | threadMsgSet minMsgPrio minSigPrio sigHandler =>
      obtain ⟨-, rfl⟩ := Prod.mk.inj (Except.ok.inj enters)
      exact ⟨fun _ => trivial, fun _ => ⟨noNull, trivial⟩⟩
  | msgPost dest msg cmsg stack kthread =>
      cases sysMsgPost_cases enters with
      | @refused errnum isError ignored =>
          constructor
          · intro _ thr kthr signal isDest isMsg target accepted
            exact absurd accepted (ignored thr kthr signal isDest isMsg target)
          · intro _
            refine ⟨noNull, .inl ⟨?_, rfl⟩⟩
            rcases isError with rfl | rfl | rfl <;> decide
      | @served thr kthr param signal kernel storage isDest isMsg target accepted =>
          rw [noNull_after]
          constructor
          · rintro ⟨⟨nonzero, -⟩, -⟩ thr' kthr' signal' isDest' isMsg' target' -
            obtain rfl := Option.some.inj (isDest.symm.trans isDest')
            obtain rfl := Option.some.inj (target.symm.trans target')
            exact nonzero
          · intro hasHandler
            have nonzero := hasHandler thr kthr signal isDest isMsg target accepted
            refine ⟨⟨nonzero, noNull⟩, .inr ⟨rfl, thr, kthr, _, isDest, target, rfl, rfl, ?_⟩⟩
            have isHandler := tracked kthr
            cases registers : state.registered kthr with
            | none =>
                rw [registers] at isHandler
                exact absurd isHandler nonzero
            | some handler =>
                rw [registers] at isHandler
                exact congrArg some isHandler.symm
  | kthreadCreate startFunc param prio stack kthread proc =>
      obtain ⟨created, creates, result⟩ := map_ok enters
      obtain ⟨-, rfl⟩ := Prod.mk.inj result
      obtain ⟨kernel, rfl⟩ := kthreadCreate_ok creates
      rw [noNull_after]
      simp [SignalEntry.Served, SignalEntry.HasHandler, noNull]
  | other kernel =>
      obtain ⟨-, rfl⟩ := Prod.mk.inj (Except.ok.inj enters)
      exact ⟨fun _ => trivial, fun _ => ⟨noNull, trivial⟩⟩

theorem start_ok (nonzero : idleThread ≠ 0)
    (started : start idleThread stack idle kernelProc = .ok first) :
    first.NoNull ∧ first.Tracked := by
  obtain ⟨created, creates, schedules⟩ := bind_ok started
  obtain ⟨kernel, rfl⟩ := kthreadCreate_ok creates
  obtain ⟨kernel', rfl⟩ := kthreadsSchedule_ok schedules
  constructor
  · rintro new mem
    obtain rfl := List.mem_singleton.mp mem
    exact nonzero
  · intro kthr
    by_cases same : kthr = idle
    · subst same
      simp [SignalKernel.after]
    · simp [SignalKernel.after]

/-- In every run whose entries have a handler no thread was created with a null start
address; and a further entry keeps this and serves its signal exactly if it has a handler,
too. -/
theorem signals_run_handlers (nonzero : idleThread ≠ 0)
    (started : start idleThread stack idle kernelProc = .ok first)
    (run : Relation.ReflTransGen (SignalStep fun state entry => entry.HasHandler state) first
      state) :
    state.NoNull ∧ ∀ entry code state', state.enter entry = .ok (code, state') →
      (state'.NoNull ∧ entry.Served state code state' ↔ entry.HasHandler state) := by
  have kept : state.NoNull ∧ state.Tracked := by
    induction run with
    | refl => exact start_ok nonzero started
    | tail _ step ih =>
        obtain ⟨entry, code, hasHandler, enters⟩ := step
        exact ⟨((ih.1.enter_iff ih.2 enters).mpr hasHandler).1, ih.2.enter enters⟩
  exact ⟨kept.1, fun entry code state' enters => kept.1.enter_iff kept.2 enters⟩

/-- The idle thread creates a thread, which sets its handler and posts a signal to itself. -/
theorem signals_run_handlers_sample :
    ∃ first state state', start 4096 50 200 100 = .ok first ∧
      Relation.ReflTransGen (SignalStep fun state entry => entry.HasHandler state) first state ∧
      state.enter (.msgPost (some ⟨300, 2⟩) (some ⟨5, 0, fun _ => 0⟩) 70 80 500) =
        .ok (SUCCESS, state') ∧
      state'.NoNull ∧ SignalEntry.Served state SUCCESS state'
        (.msgPost (some ⟨300, 2⟩) (some ⟨5, 0, fun _ => 0⟩) 70 80 500) := by
  have evaluated : (do
      let first ← start 4096 50 200 100
      let second ← first.enter (.createThread 8192 0 20 60 300)
      let third ← second.2.enter (.threadMsgSet 0 1 12288)
      let fourth ← third.2.enter
        (.msgPost (some ⟨300, 2⟩) (some ⟨5, 0, fun _ => 0⟩) 70 80 500)
      return decide (fourth.1 = SUCCESS ∧ (third.2.msg 300).signalHandler = 12288)) =
        (.ok true : Except Fault Bool) := by decide +kernel
  obtain ⟨first, started, evaluated⟩ := bind_ok evaluated
  obtain ⟨⟨code, second⟩, creates, evaluated⟩ := bind_ok evaluated
  obtain ⟨⟨code', third⟩, sets, evaluated⟩ := bind_ok evaluated
  obtain ⟨⟨code'', fourth⟩, posts, evaluated⟩ := bind_ok evaluated
  obtain ⟨success, handler⟩ := of_decide_eq_true (Except.ok.inj evaluated)
  obtain rfl : code'' = SUCCESS := success
  have run : Relation.ReflTransGen (SignalStep fun state entry => entry.HasHandler state) first
      third :=
    (Relation.ReflTransGen.single
      ⟨.createThread 8192 0 20 60 300, code, show (8192 : Ptr) ≠ 0 by decide, creates⟩).tail
        ⟨.threadMsgSet 0 1 12288, code', trivial, sets⟩
  refine ⟨first, third, fourth, started, run, posts, ?_⟩
  refine ((signals_run_handlers (by decide) started run).2 _ _ _ posts).mpr ?_
  intro thr kthr signal isDest _ target _
  obtain rfl := Option.some.inj isDest
  obtain rfl : 300 = kthr := by
    simp only [Kernel.kthreadGetDescriptor] at target
    split at target
    · exact Option.some.inj target
    · cases target
  rw [handler]
  decide

/-- A thread that never registered a handler accepts signals of every type: the signal
creates a thread at the null address. -/
theorem signals_run_handlers_fail :
    ¬ ∀ idleThread stack idle kernelProc first state, idleThread ≠ 0 →
      start idleThread stack idle kernelProc = .ok first →
      Relation.ReflTransGen (SignalStep fun _ _ => True) first state → state.NoNull := by
  intro claim
  have evaluated : (do
      let first ← start 4096 50 200 100
      let second ← first.enter (.createThread 8192 0 20 60 300)
      let third ← second.2.enter
        (.msgPost (some ⟨300, 2⟩) (some ⟨5, 0, fun _ => 0⟩) 70 80 500)
      return decide (∃ new ∈ third.2.created, new.startFunc = 0)) =
        (.ok true : Except Fault Bool) := by decide +kernel
  obtain ⟨first, started, evaluated⟩ := bind_ok evaluated
  obtain ⟨⟨code, second⟩, creates, evaluated⟩ := bind_ok evaluated
  obtain ⟨⟨code', third⟩, posts, evaluated⟩ := bind_ok evaluated
  obtain ⟨new, mem, null⟩ := of_decide_eq_true (Except.ok.inj evaluated)
  have run : Relation.ReflTransGen (SignalStep fun _ _ => True) first third :=
    (Relation.ReflTransGen.single
      ⟨.createThread 8192 0 20 60 300, code, trivial, creates⟩).tail
        ⟨.msgPost (some ⟨300, 2⟩) (some ⟨5, 0, fun _ => 0⟩) 70 80 500, code', trivial, posts⟩
  exact claim 4096 50 200 100 first third (by decide) started run new mem null

end SignalKernel

end Oseer
