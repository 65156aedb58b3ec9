import Mathlib.Logic.Relation
import Oseer.Alarm
import Oseer.Signals

/-!
# Global message queues

The functions of `kernel/messages.c` on the global message queues and their
list `kmsg_qs`.  A user knows a queue by its address and its identifier, and
may copy the two.  The rest of the kernel is an arbitrary change of its memory
outside of the queues that exist.
-/

namespace Oseer

open LinkedRing Results

/-- `msg_q`. -/
structure MsgQ where
  handle : Ptr
  id : Nat
deriving DecidableEq, Repr

namespace Kernel

/-- The part of `sys__msg_post` that puts a message in a queue, where `kmsg` is the address
of the new message. -/
def postTo (queue : MsgqId) (msg : Msg) (kmsg : Ptr) (kernel : Kernel) :
    Except Fault (Int × Kernel) :=
  if kernel.minPrio queue ≤ toUint msg.type then
    if kmsg = 0 then .ok (kernel.exit E_NO_MEMORY)
    else
      let kernel := { kernel with
        kmsgs := Function.update kernel.kmsgs kmsg msg
        msgs := kernel.msgs.listAppend queue kmsg }
      let released := kernel.kthreadqRelease (.thrq queue)
      if released.1 ≠ 0 then
        released.2.kthreadsSchedule.map fun kernel => kernel.exit SUCCESS
      else .ok (released.2.exit SUCCESS)
  else .ok (kernel.exit E_IGNORED)

/-- The test of a handle in `sys__msg_post` and in `sys__msg_recv`. -/
def IsQueue (msgq : MsgQ) (kernel : Kernel) : Prop :=
  msgq.handle ≠ 0 ∧ kernel.kgmsgqId msgq.handle = msgq.id

instance (msgq : MsgQ) (kernel : Kernel) : Decidable (IsQueue msgq kernel) :=
  inferInstanceAs (Decidable (_ ∧ _))

/-- `sys__msg_post` for `MSG_QUEUE`. -/
def sysMsgPost (msgq : MsgQ) (msg : Msg) (kmsg : Ptr) (kernel : Kernel) :
    Except Fault (Int × Kernel) :=
  if kernel.IsQueue msgq then kernel.postTo (.global msgq.handle) msg kmsg
  else .ok (kernel.exit E_INVALID_HANDLE)

/-- The loop of `sys__msg_recv`: the first message of the type, or zero. -/
def findMsg (type : Int) (kernel : Kernel) : Nat → Ptr → Ptr
  | 0, _ => 0
  | fuel + 1, kmsg =>
      if kmsg ≠ 0 ∧ (kernel.kmsgs kmsg).type ≠ type then
        findMsg type kernel fuel (kernel.msgs.listGetNext kmsg)
      else kmsg

/-- The part of `sys__msg_recv` that takes a message from a queue: the value returned, the
message that the user gets, and the kernel. -/
def recvFrom (queue : MsgqId) (type : Int) (size flags : Nat) (kernel : Kernel) :
    Except Fault (Int × Option Msg × Kernel) :=
  let first := kernel.msgs.listGet queue FIRST
  let kmsg := if type ≠ 0 then findMsg type kernel addressCount first else first
  if kmsg ≠ 0 then
    let msg := kernel.kmsgs kmsg
    if size < msg.size then
      let result := kernel.exit E_TOO_BIG
      .ok (result.1, none, result.2)
    else
      let removed := kernel.msgs.listRemove queue FIRST kmsg
      let result := (({ kernel with msgs := removed.2 } : Kernel).kfree removed.1).exit SUCCESS
      .ok (result.1, some msg, result.2)
  else if flags &&& IPC_WAIT = 0 then
    let result := kernel.exit E_EMPTY
    .ok (result.1, none, result.2)
  else
    ((kernel.setErrno E_RETRY).kthreadEnqueue (.thrq queue)).kthreadsSchedule.map fun kernel =>
      (-E_RETRY, none, kernel)

/-- `sys__msg_recv` for `MSG_QUEUE`. -/
def sysMsgRecv (msgq : MsgQ) (type : Int) (size flags : Nat) (kernel : Kernel) :
    Except Fault (Int × Option Msg × Kernel) :=
  if kernel.IsQueue msgq then kernel.recvFrom (.global msgq.handle) type size flags
  else
    let result := kernel.exit E_INVALID_HANDLE
    .ok (result.1, none, result.2)

end Kernel

/-- A handle that `sys__create_msg_queue` has returned, and whether its queue exists. -/
structure Issue where
  msgq : MsgQ
  lasts : Bool
deriving DecidableEq, Repr

/-- The kernel with the list `kmsg_qs` of global queues, linked by their members `all`, and a
record of the queues that were created. -/
structure QueueKernel where
  kernel : Kernel
  kmsgQs : Lists Unit
  issued : List Issue

namespace QueueKernel

/-- `EXIT` with a constant. -/
def exit (errnum : Int) (state : QueueKernel) : Int × QueueKernel :=
  (-errnum, { state with kernel := state.kernel.setErrno errnum })

/-- The address is that of a queue that exists. -/
def InUse (gmsgq : Ptr) (state : QueueKernel) : Prop :=
  ∃ issue ∈ state.issued, issue.lasts = true ∧ issue.msgq.handle = gmsgq

instance (gmsgq : Ptr) (state : QueueKernel) : Decidable (state.InUse gmsgq) :=
  inferInstanceAs (Decidable (∃ issue ∈ state.issued, _))

/-- `sys__create_msg_queue`, with the address that `kmalloc` returns: it is not in use.
`msgq` is null if no place for the handle is given. -/
def sysCreateMsgQueue (msgq : Ptr) (minPrio : Nat) (gmsgq : Ptr) (state : QueueKernel) :
    Except Fault (Int × QueueKernel) :=
  if msgq = 0 then .ok (state.exit E_INVALID_HANDLE)
  else if gmsgq = 0 then .ok (state.exit E_NO_MEMORY)
  else if state.InUse gmsgq then .error .noMemory
  else
    let kernel := { state.kernel with
      msgs := state.kernel.msgs.listInit (.global gmsgq)
      sched := { state.kernel.sched with
        queues := state.kernel.sched.queues.listInit (.thrq (.global gmsgq)) }
      minPrio := Function.update state.kernel.minPrio (.global gmsgq) minPrio }
    kernel.kNewUniqueId.map fun kernel => exit SUCCESS
      { kernel := { kernel with
          kgmsgqId := Function.update kernel.kgmsgqId gmsgq kernel.lastId }
        kmsgQs := state.kmsgQs.listAppend () gmsgq
        issued := ⟨⟨gmsgq, kernel.lastId⟩, true⟩ :: state.issued }

/-- The queue at the address exists no more. -/
def endQueue (gmsgq : Ptr) (issue : Issue) : Issue :=
  if issue.msgq.handle = gmsgq then { issue with lasts := false } else issue

/-- `sys__delete_msg_queue`, with the contents of the user's handle, if there is one. -/
def sysDeleteMsgQueue (msgq : Option MsgQ) (state : QueueKernel) :
    Except Fault (Int × QueueKernel) :=
  match msgq with
  | none => .ok (state.exit E_INVALID_HANDLE)
  | some msgq =>
      let gmsgq := msgq.handle
      if state.kernel.kgmsgqId gmsgq ≠ msgq.id then .ok (state.exit E_INVALID_HANDLE)
      else
        let kernel := state.kernel.kMsgqClean (.global gmsgq)
        let kernel := (kernel.kthreadqReleaseAll (.thrq (.global gmsgq))).2
        (kernel.kFreeUniqueId (kernel.kgmsgqId gmsgq)).map fun kernel => exit SUCCESS
          { state with
            kernel := kernel.kfree gmsgq
            issued := state.issued.map (endQueue gmsgq) }

/-- `kmsg_qs` is empty at first. -/
def start (kernel : Kernel) : QueueKernel :=
  ⟨kernel, ⟨fun _ => 0, fun _ => 0, fun _ => 0, fun _ => 0, fun _ => 0⟩, []⟩

end QueueKernel

/-- What changes the queues, and any change of the kernel outside of those that exist. -/
inductive QueueEntry
  | createMsgQueue (msgq : Ptr) (minPrio : Nat) (gmsgq : Ptr)
  | deleteMsgQueue (msgq : Option MsgQ)
  | other (kernel : Kernel)

/-- One entry: the value returned and the new state. -/
def QueueKernel.enter (entry : QueueEntry) (state : QueueKernel) :
    Except Fault (Int × QueueKernel) :=
  match entry with
  | .createMsgQueue msgq minPrio gmsgq => state.sysCreateMsgQueue msgq minPrio gmsgq
  | .deleteMsgQueue msgq => state.sysDeleteMsgQueue msgq
  | .other kernel => .ok (0, { state with kernel := kernel })

/-- Other parts of the kernel leave the queues that exist alone. -/
def QueueEntry.Apart (state : QueueKernel) : QueueEntry → Prop
  | .other kernel => ∀ gmsgq, state.InUse gmsgq →
      kernel.kgmsgqId gmsgq = state.kernel.kgmsgqId gmsgq
  | _ => True

/-- No queue that exists is deleted. -/
def QueueEntry.Spares (state : QueueKernel) : QueueEntry → Prop
  | .deleteMsgQueue (some msgq) =>
      ∀ issue ∈ state.issued, issue.lasts = true → issue.msgq ≠ msgq
  | _ => True

/-- One entry that meets a condition. -/
def QueueStep (meets : QueueKernel → QueueEntry → Prop) (state state' : QueueKernel) : Prop :=
  ∃ entry code, entry.Apart state ∧ meets state entry ∧ state.enter entry = .ok (code, state')

/-- A system call returns `E_INVALID_HANDLE`. -/
def Rejected {α : Type} (result : Except Fault (Int × α)) : Prop :=
  ∃ ran, result = .ok ran ∧ ran.1 = -E_INVALID_HANDLE

/-- The list `kmsg_qs` holds the queues that exist, and a handle is accepted exactly if its
queue exists. -/
structure QueueKernel.Registry (state : QueueKernel) : Prop where
  listed : ∃ queues, state.kmsgQs.Linked (fun _ => queues) ∧
    ∀ gmsgq, gmsgq ∈ queues ↔ state.InUse gmsgq
  post : ∀ issue ∈ state.issued, ∀ msg kmsg,
    Rejected (state.kernel.sysMsgPost issue.msgq msg kmsg) ↔ issue.lasts = false
  recv : ∀ issue ∈ state.issued, ∀ type size flags,
    Rejected (state.kernel.sysMsgRecv issue.msgq type size flags) ↔ issue.lasts = false
  delete : ∀ issue ∈ state.issued,
    Rejected (state.sysDeleteMsgQueue (some issue.msgq)) ↔ issue.lasts = false

section Handles

variable {kernel : Kernel} {state : QueueKernel} {msgq : MsgQ} {msg : Msg} {kmsg : Ptr}
  {queue : MsgqId} {type : Int} {size flags : Nat}

theorem Rejected.map_exit {α : Type} {result : Except Fault Kernel} {errnum : Int}
    {finish : Kernel → α} (valid : errnum ≠ E_INVALID_HANDLE) :
    ¬ Rejected (result.map fun kernel => (-errnum, finish kernel)) := by
  rintro ⟨ran, done, code⟩
  obtain ⟨kernel, -, rfl⟩ := map_ok done
  exact valid (neg_inj.mp code)

theorem Rejected.exit {α : Type} {errnum : Int} {rest : α} :
    Rejected (.ok (-errnum, rest)) ↔ errnum = E_INVALID_HANDLE := by
  constructor
  · rintro ⟨ran, done, code⟩
    obtain rfl := Except.ok.inj done
    exact neg_inj.mp code
  · rintro rfl
    exact ⟨_, rfl, rfl⟩

/-- `sys__msg_post` rejects what is no queue. -/
theorem post_rejected_iff :
    Rejected (kernel.sysMsgPost msgq msg kmsg) ↔ ¬ kernel.IsQueue msgq := by
  unfold Kernel.sysMsgPost
  split
  case isTrue isQueue =>
    simp only [isQueue, not_true, iff_false]
    unfold Kernel.postTo
    dsimp only
    split_ifs
    · exact mt Rejected.exit.mp (by decide)
    · exact Rejected.map_exit (by decide)
    · exact mt Rejected.exit.mp (by decide)
    · exact mt Rejected.exit.mp (by decide)
  case isFalse noQueue =>
    exact ⟨fun _ => noQueue, fun _ => Rejected.exit.mpr rfl⟩

/-- `sys__msg_recv` rejects what is no queue. -/
theorem recv_rejected_iff :
    Rejected (kernel.sysMsgRecv msgq type size flags) ↔ ¬ kernel.IsQueue msgq := by
  unfold Kernel.sysMsgRecv
  split
  case isTrue isQueue =>
    simp only [isQueue, not_true, iff_false]
    unfold Kernel.recvFrom
    dsimp only
    split_ifs
    all_goals first
      | exact mt Rejected.exit.mp (by decide)
      | exact Rejected.map_exit (by decide)
  case isFalse noQueue =>
    exact ⟨fun _ => noQueue, fun _ => Rejected.exit.mpr rfl⟩

theorem delete_rejected_iff : Rejected (state.sysDeleteMsgQueue (some msgq)) ↔
    state.kernel.kgmsgqId msgq.handle ≠ msgq.id := by
  unfold QueueKernel.sysDeleteMsgQueue
  dsimp only
  split
  case isTrue differs => exact ⟨fun _ => differs, fun _ => Rejected.exit.mpr rfl⟩
  case isFalse same =>
    refine ⟨fun rejected => ?_, fun differs => absurd differs same⟩
    exact absurd rejected (Rejected.map_exit (by decide))

end Handles

/-- All queues that were created exist. -/
structure QueueKernel.Intact (state : QueueKernel) : Prop where
  listed : ∃ queues, state.kmsgQs.Linked (fun _ => queues) ∧
    ∀ gmsgq, gmsgq ∈ queues ↔ state.InUse gmsgq
  valid : ∀ issue ∈ state.issued, issue.lasts = true ∧ state.kernel.IsQueue issue.msgq

namespace QueueKernel

variable {state state' : QueueKernel} {entry : QueueEntry} {code : Int} {gmsgq : Ptr}
  {queues : List Ptr}

theorem Intact.registry (intact : state.Intact) : state.Registry where
  listed := intact.listed
  post := fun issue mem msg kmsg => by
    obtain ⟨lasts, isQueue⟩ := intact.valid issue mem
    simp [post_rejected_iff, lasts, isQueue]
  recv := fun issue mem type size flags => by
    obtain ⟨lasts, isQueue⟩ := intact.valid issue mem
    simp [recv_rejected_iff, lasts, isQueue]
  delete := fun issue mem => by
    obtain ⟨lasts, isQueue⟩ := intact.valid issue mem
    simp [delete_rejected_iff, lasts, isQueue.2]

theorem ended_lasts {issue : Issue} (handle : (endQueue gmsgq issue).msgq.handle = gmsgq) :
    (endQueue gmsgq issue).lasts ≠ true := by
  unfold endQueue at handle ⊢
  split
  case isTrue same => exact Bool.false_ne_true
  case isFalse differs => exact absurd (by rwa [if_neg differs] at handle) differs

theorem start_intact (kernel : Kernel) : (start kernel).Intact := by
  refine ⟨⟨[], ⟨?_, ?_, ?_, ?_⟩, fun gmsgq => ?_⟩, ?_⟩
  · exact fun _ => ring_nil.mpr ⟨rfl, rfl⟩
  · exact fun _ => List.nodup_singleton 0
  · exact fun _ _ _ mem => absurd mem List.not_mem_nil
  · exact fun _ _ mem => absurd mem List.not_mem_nil
  · simp [start, InUse]
  · exact fun _ mem => absurd mem List.not_mem_nil

theorem kNewUniqueId_kgmsgqId {kernel kernel' : Kernel}
    (taken : kernel.kNewUniqueId = .ok kernel') : kernel'.kgmsgqId = kernel.kgmsgqId := by
  obtain ⟨lastId, -, rfl⟩ := map_ok taken
  rfl

theorem msgqCleanLoop_kgmsgqId (msgq : MsgqId) (fuel : Nat) (kernel : Kernel) :
    (kernel.msgqCleanLoop msgq fuel).kgmsgqId = kernel.kgmsgqId := by
  induction fuel generalizing kernel with
  | zero => rfl
  | succ fuel ih =>
      unfold Kernel.msgqCleanLoop
      dsimp only
      split
      · rfl
      · exact ih _

theorem kFreeUniqueId_kgmsgqId {kernel kernel' : Kernel} {id : Nat}
    (freed : kernel.kFreeUniqueId id = .ok kernel') : kernel'.kgmsgqId = kernel.kgmsgqId := by
  unfold Kernel.kFreeUniqueId at freed
  split_ifs at freed
  obtain rfl := Except.ok.inj freed
  rfl

/-- `sys__delete_msg_queue` of a handle that it accepts: the list `kmsg_qs` and the
identifiers stay. -/
theorem deleted {msgq : MsgQ} (accepted : state.kernel.kgmsgqId msgq.handle = msgq.id)
    (enters : state.sysDeleteMsgQueue (some msgq) = .ok (code, state')) :
    state'.kmsgQs = state.kmsgQs ∧
      state'.issued = state.issued.map (endQueue msgq.handle) ∧
      state'.kernel.kgmsgqId = state.kernel.kgmsgqId := by
  unfold sysDeleteMsgQueue at enters
  dsimp only at enters
  rw [if_neg (not_not.mpr accepted)] at enters
  obtain ⟨kernel, freed, result⟩ := map_ok enters
  obtain ⟨-, rfl⟩ := Prod.mk.inj result
  refine ⟨rfl, rfl, ?_⟩
  calc kernel.kgmsgqId = _ := kFreeUniqueId_kgmsgqId freed
    _ = state.kernel.kgmsgqId := msgqCleanLoop_kgmsgqId _ _ _

/-- A new queue at a free address. -/
theorem Intact.created (intact : state.Intact) {id : Nat} {kernel : Kernel}
    (nonzero : gmsgq ≠ 0) (free : ¬ state.InUse gmsgq)
    (kgmsgqId : kernel.kgmsgqId = Function.update state.kernel.kgmsgqId gmsgq id) :
    Intact ⟨kernel, state.kmsgQs.listAppend () gmsgq, ⟨⟨gmsgq, id⟩, true⟩ :: state.issued⟩ := by
  obtain ⟨queues, linked, listed⟩ := intact.listed
  have unlisted : gmsgq ∉ queues := mt (listed gmsgq).mp free
  refine ⟨⟨queues ++ [gmsgq], linked.append_single nonzero unlisted, fun other => ?_⟩, ?_⟩
  · rw [List.mem_append, listed, List.mem_singleton]
    constructor
    · rintro (⟨issue, mem, lasts, handle⟩ | rfl)
      · exact ⟨issue, List.mem_cons_of_mem _ mem, lasts, handle⟩
      · exact ⟨_, List.mem_cons_self, rfl, rfl⟩
    · rintro ⟨issue, mem, lasts, handle⟩
      rcases List.mem_cons.mp mem with rfl | old
      · exact .inr handle.symm
      · exact .inl ⟨issue, old, lasts, handle⟩
  · intro issue mem
    rcases List.mem_cons.mp mem with rfl | old
    · exact ⟨rfl, nonzero, by rw [kgmsgqId, Function.update_self]⟩
    · obtain ⟨lasts, isQueue⟩ := intact.valid issue old
      have apart : issue.msgq.handle ≠ gmsgq := fun same => free ⟨issue, old, lasts, same⟩
      exact ⟨lasts, isQueue.1, by rw [kgmsgqId, Function.update_of_ne apart]; exact isQueue.2⟩

theorem Intact.congr (intact : state.Intact) {kernel : Kernel}
    (same : ∀ gmsgq, state.InUse gmsgq → kernel.kgmsgqId gmsgq = state.kernel.kgmsgqId gmsgq) :
    Intact { state with kernel := kernel } where
  listed := intact.listed
  valid := fun issue mem => by
    obtain ⟨lasts, isQueue⟩ := intact.valid issue mem
    exact ⟨lasts, isQueue.1, (same _ ⟨issue, mem, lasts, rfl⟩).trans isQueue.2⟩

/-- What is deleted without being a queue that exists has none at its address. -/
theorem Intact.notIssued (intact : state.Intact) {msgq : MsgQ}
    (accepted : state.kernel.kgmsgqId msgq.handle = msgq.id)
    (spares : QueueEntry.Spares state (.deleteMsgQueue (some msgq)))
    (enters : state.sysDeleteMsgQueue (some msgq) = .ok (code, state')) : state'.Intact := by
  obtain ⟨kmsgQs, issued, kgmsgqId⟩ := deleted accepted enters
  have apart : ∀ issue ∈ state.issued, issue.msgq.handle ≠ msgq.handle := by
    intro issue mem same
    obtain ⟨lasts, -, id⟩ := intact.valid issue mem
    apply spares issue mem lasts
    rw [same, accepted] at id
    calc issue.msgq = ⟨issue.msgq.handle, issue.msgq.id⟩ := rfl
      _ = ⟨msgq.handle, msgq.id⟩ := congrArg₂ MsgQ.mk same id.symm
  have kept : state'.issued = state.issued := by
    rw [issued]
    conv_rhs => rw [← List.map_id state.issued]
    apply List.map_congr_left
    intro issue mem
    exact if_neg (apart issue mem)
  have same : state' = { state with kernel := state'.kernel } := by
    obtain ⟨kernel, queues, issued⟩ := state'
    exact congrArg₂ (QueueKernel.mk kernel) kmsgQs kept
  rw [same]
  exact intact.congr fun gmsgq _ => congrFun kgmsgqId gmsgq

/-- An entry that deletes no queue keeps all of them. -/
theorem Intact.enter (intact : state.Intact) (apart : entry.Apart state)
    (spares : entry.Spares state) (enters : state.enter entry = .ok (code, state')) :
    state'.Intact := by
  cases entry with
  | createMsgQueue msgq minPrio gmsgq =>
      change state.sysCreateMsgQueue msgq minPrio gmsgq = _ at enters
      unfold sysCreateMsgQueue at enters
      split_ifs at enters with noPlace noMemory inUse
      · obtain ⟨-, rfl⟩ := Prod.mk.inj (Except.ok.inj enters)
        exact intact.congr fun _ _ => rfl
      · obtain ⟨-, rfl⟩ := Prod.mk.inj (Except.ok.inj enters)
        exact intact.congr fun _ _ => rfl
      · obtain ⟨kernel, taken, result⟩ := map_ok enters
        obtain ⟨-, rfl⟩ := Prod.mk.inj result
        refine intact.created noMemory inUse ?_
        exact congrArg (fun ids => Function.update ids gmsgq kernel.lastId)
          (kNewUniqueId_kgmsgqId taken)
  | deleteMsgQueue msgq =>
      cases msgq with
      | none =>
          obtain ⟨-, rfl⟩ := Prod.mk.inj (Except.ok.inj enters)
          exact intact.congr fun _ _ => rfl
      | some msgq =>
          by_cases accepted : state.kernel.kgmsgqId msgq.handle = msgq.id
          · exact intact.notIssued accepted spares enters
          · change state.sysDeleteMsgQueue (some msgq) = _ at enters
            unfold sysDeleteMsgQueue at enters
            dsimp only at enters
            rw [if_pos accepted] at enters
            obtain ⟨-, rfl⟩ := Prod.mk.inj (Except.ok.inj enters)
            exact intact.congr fun _ _ => rfl
  | other kernel =>
      obtain ⟨-, rfl⟩ := Prod.mk.inj (Except.ok.inj enters)
      exact intact.congr apart

/-- An entry keeps the registry exactly if it deletes no queue: `kmsg_qs` still lists a queue
after its deletion. -/
theorem Intact.enter_iff (intact : state.Intact) (apart : entry.Apart state)
    (enters : state.enter entry = .ok (code, state')) :
    state'.Registry ↔ entry.Spares state := by
  refine ⟨fun registry => ?_, fun spares => (intact.enter apart spares enters).registry⟩
  cases entry with
  | createMsgQueue msgq minPrio gmsgq => trivial
  | other kernel => trivial
  | deleteMsgQueue msgq =>
      cases msgq with
      | none => trivial
      | some msgq =>
          rintro issue mem lasts rfl
          obtain ⟨-, -, accepted⟩ := intact.valid issue mem
          obtain ⟨kmsgQs, issued, -⟩ := deleted accepted enters
          obtain ⟨queues, linked, listed⟩ := intact.listed
          obtain ⟨queues', linked', listed'⟩ := registry.listed
          rw [kmsgQs] at linked'
          obtain rfl : queues = queues' := linked.unique linked' ()
          have still : state'.InUse issue.msgq.handle :=
            (listed' _).mp ((listed _).mpr ⟨issue, mem, lasts, rfl⟩)
          obtain ⟨other, mem', lasts', handle⟩ := still
          rw [issued] at mem'
          obtain ⟨before, -, rfl⟩ := List.mem_map.mp mem'
          exact ended_lasts handle lasts'

/-- In every run that deletes no queue that exists, `kmsg_qs` lists the queues that exist and
their handles are the ones that are accepted; and a further entry keeps this exactly if it
deletes none, too. -/
theorem msg_queues_registered (kernel : Kernel)
    (run : Relation.ReflTransGen (QueueStep fun state entry => entry.Spares state)
      (start kernel) state) :
    state.Registry ∧ ∀ entry code state', entry.Apart state →
      state.enter entry = .ok (code, state') → (state'.Registry ↔ entry.Spares state) := by
  have intact : state.Intact := by
    induction run with
    | refl => exact start_intact kernel
    | tail _ step ih =>
        obtain ⟨entry, code, apart, spares, enters⟩ := step
        exact ih.enter apart spares enters
  exact ⟨intact.registry, fun entry code state' apart enters => intact.enter_iff apart enters⟩

/-- Two queues are created. -/
theorem msg_queues_registered_sample :
    ∃ state, Relation.ReflTransGen (QueueStep fun state entry => entry.Spares state)
      (start Kernel.boot) state ∧ state.issued.length = 2 ∧ state.Registry := by
  have evaluated : (do
      let first ← (start Kernel.boot).enter (.createMsgQueue 8 0 4096)
      let second ← first.2.enter (.createMsgQueue 8 3 8192)
      return decide (second.2.issued.length = 2)) =
        (.ok true : Except Fault Bool) := by decide +kernel
  obtain ⟨⟨code, first⟩, creates, evaluated⟩ := bind_ok evaluated
  obtain ⟨⟨code', second⟩, creates', evaluated⟩ := bind_ok evaluated
  have both := of_decide_eq_true (Except.ok.inj evaluated)
  have run : Relation.ReflTransGen (QueueStep fun state entry => entry.Spares state)
      (start Kernel.boot) second :=
    (Relation.ReflTransGen.single ⟨.createMsgQueue 8 0 4096, code, trivial, trivial, creates⟩).tail
      ⟨.createMsgQueue 8 3 8192, code', trivial, trivial, creates'⟩
  exact ⟨second, run, both, (msg_queues_registered Kernel.boot run).1⟩

/-- A queue is created and deleted. -/
theorem msg_queues_registered_fail :
    ¬ ∀ kernel state, Relation.ReflTransGen (QueueStep fun _ _ => True) (start kernel) state →
      state.Registry := by
  intro claim
  have evaluated : (do
      let first ← (start Kernel.boot).enter (.createMsgQueue 8 0 4096)
      let second ← first.2.enter (.deleteMsgQueue (some ⟨4096, 1⟩))
      return decide (first.2.issued = [⟨⟨4096, 1⟩, true⟩])) =
        (.ok true : Except Fault Bool) := by decide +kernel
  obtain ⟨⟨code, first⟩, creates, evaluated⟩ := bind_ok evaluated
  obtain ⟨⟨code', second⟩, deletes, evaluated⟩ := bind_ok evaluated
  have issued := of_decide_eq_true (Except.ok.inj evaluated)
  have apart : QueueEntry.Apart (start Kernel.boot) (.createMsgQueue 8 0 4096) := trivial
  have intact : first.Intact := (start_intact _).enter apart trivial creates
  have run : Relation.ReflTransGen (QueueStep fun _ _ => True) (start Kernel.boot) second :=
    (Relation.ReflTransGen.single
      ⟨.createMsgQueue 8 0 4096, code, trivial, trivial, creates⟩).tail
        ⟨.deleteMsgQueue (some ⟨4096, 1⟩), code', trivial, trivial, deletes⟩
  have apart' : QueueEntry.Apart first (.deleteMsgQueue (some ⟨4096, 1⟩)) := trivial
  have spares := (intact.enter_iff apart' deletes).mp (claim Kernel.boot second run)
  exact spares ⟨⟨4096, 1⟩, true⟩ (issued ▸ List.mem_singleton_self _) rfl rfl

end QueueKernel

end Oseer
