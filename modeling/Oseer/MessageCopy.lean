import Oseer.FirstFitRequest
import Oseer.MsgQueues

/-!
# The copy of a message

`sys__msg_post` asks the kernel heap for a `kmsg_t` and the data behind it, and copies as many
bytes as the message of the user says.  The heap is that of `ff_simple.c`, and the size of the
message is any 32-bit number.
-/

namespace Oseer

open WordMemory FirstFit

/-- `sizeof (kmsg_t)`. -/
def sizeofKmsg : Nat := 24

/-- Offset of `msg.data` in `kmsg_t`. -/
def dataOffset : Nat := 20

/-- What `memcpy` is to write: so many bytes of the data of the message in `block`. -/
structure Copy where
  block : Nat
  count : Nat
deriving DecidableEq, Repr

/-- The bytes behind the address of the data, up to the tail of the chunk. -/
def Copy.room (memory : Memory) (copy : Copy) : Nat :=
  getSize (copy.block - sizeT) memory - 2 * sizeT - dataOffset

/-- A call of `sys__msg_post`: what is copied, the heap as the allocator leaves it, and the
value returned with the kernel. -/
structure Posted where
  copied : Option Copy
  heap : Memory
  result : Except Fault (Int × Kernel)

/-- The first two parameters of `sys__msg_post`: the type of the destination and what is found
at its address, if that is not null. -/
inductive MsgDest
  | queue (msgq : Option MsgQ)
  | thread (thr : Option Handle)
deriving DecidableEq, Repr

namespace Kernel

/-- The part of `sys__msg_post` that sends a message to a queue, with `kmalloc`. -/
def sendTo (mpool : Nat) (queue : MsgqId) (msg : Msg) (heap : Memory) (kernel : Kernel) :
    Option Posted :=
  if kernel.minPrio queue ≤ toUint msg.type then
    (ffsAlloc mpool (add32 sizeofKmsg msg.size) heap).map fun answer =>
      { copied := if answer.1 = 0 then none else some ⟨answer.1, msg.size⟩
        heap := answer.2
        result := kernel.postTo queue msg answer.1 }
  else some ⟨none, heap, kernel.postTo queue msg 0⟩

/-- `sys__msg_post` for `MSG_QUEUE` and `MSG_THREAD`. -/
def msgPost (mpool : Nat) (dest : MsgDest) (msg : Option Msg) (heap : Memory)
    (kernel : Kernel) : Option Posted :=
  match dest, msg with
  | .queue (some msgq), some msg =>
      if kernel.IsQueue msgq then kernel.sendTo mpool (.global msgq.handle) msg heap
      else some ⟨none, heap, .ok (kernel.exit E_INVALID_HANDLE)⟩
  | .thread (some thr), some msg =>
      match kernel.kthreadGetDescriptor thr with
      | none => some ⟨none, heap, .ok (kernel.exit E_DONT_EXIST)⟩
      | some kthr => kernel.sendTo mpool (.thread kthr) msg heap
  | _, _ => some ⟨none, heap, .ok (kernel.exit E_INVALID_HANDLE)⟩

/-- The queue to which the message is sent. -/
def target (dest : MsgDest) (kernel : Kernel) : Option MsgqId :=
  match dest with
  | .queue (some msgq) => if kernel.IsQueue msgq then some (.global msgq.handle) else none
  | .thread (some thr) => (kernel.kthreadGetDescriptor thr).map .thread
  | _ => none

/-- The message is not ignored. -/
def Takes (dest : MsgDest) (msg : Msg) (kernel : Kernel) : Prop :=
  ∃ queue ∈ kernel.target dest, kernel.minPrio queue ≤ toUint msg.type

end Kernel

/-- What is copied fits in the block, or nothing is copied and the call fails: nothing in the
kernel is changed but the error number. -/
def Posted.Fits (kernel : Kernel) (posted : Posted) : Prop :=
  match posted.copied with
  | some copy => copy.count ≤ copy.room posted.heap
  | none => ∃ errnum, errnum ≠ SUCCESS ∧ posted.result = .ok (kernel.exit errnum)

/-- The request for the message leaves room for all that is added to its size, or no free chunk
is large enough for what is left of the sum. -/
def MessageFits (size : Nat) (heap : Memory) (free : List Nat) : Prop :=
  size + 35 < 2 ^ 32 ∨ ∀ chunk ∈ free, heap chunk < requestSize (add32 sizeofKmsg size)

variable {mpool low high : Nat} {heap : Memory} {blocks : List Tiling.Block} {free : List Nat}
  {kernel : Kernel} {queue : MsgqId} {dest : MsgDest} {msg : Msg}

section Send

theorem sendTo_ignored (low : ¬ kernel.minPrio queue ≤ toUint msg.type) :
    kernel.sendTo mpool queue msg heap = some ⟨none, heap, .ok (kernel.exit E_IGNORED)⟩ := by
  unfold Kernel.sendTo Kernel.postTo
  rw [if_neg low, if_neg low]

theorem sendTo_null (takes : kernel.minPrio queue ≤ toUint msg.type)
    (null : ffsAlloc mpool (add32 sizeofKmsg msg.size) heap = some (0, heap)) :
    kernel.sendTo mpool queue msg heap = some ⟨none, heap, .ok (kernel.exit E_NO_MEMORY)⟩ := by
  have noMemory : kernel.postTo queue msg 0 = .ok (kernel.exit E_NO_MEMORY) := by
    unfold Kernel.postTo
    rw [if_pos takes, if_pos rfl]
  unfold Kernel.sendTo
  rw [if_pos takes, null, Option.map_some, if_pos rfl, noMemory]

theorem sendTo_block {pointer : Nat} {heap' : Memory}
    (takes : kernel.minPrio queue ≤ toUint msg.type)
    (answer : ffsAlloc mpool (add32 sizeofKmsg msg.size) heap = some (pointer, heap'))
    (nonzero : pointer ≠ 0) : kernel.sendTo mpool queue msg heap =
      some ⟨some ⟨pointer, msg.size⟩, heap', kernel.postTo queue msg pointer⟩ := by
  unfold Kernel.sendTo
  rw [if_pos takes, answer, Option.map_some, if_neg nonzero]

/-- The message fits iff its size is so, or nothing is left of the heap for it. -/
theorem sendTo_fits_iff (wellFormed : WellFormed mpool low high heap blocks free)
    (word : msg.size < 2 ^ 32) (takes : kernel.minPrio queue ≤ toUint msg.type) :
    (∃ posted, kernel.sendTo mpool queue msg heap = some posted ∧ posted.Fits kernel) ↔
      MessageFits msg.size heap free := by
  have kmsg24 : sizeofKmsg = 24 := rfl
  have data20 : dataOffset = 20 := rfl
  have size4 : sizeT = 4 := rfl
  have highLt := wellFormed.high_lt
  have wordSum : add32 sizeofKmsg msg.size < 2 ^ 32 := Nat.mod_lt _ (by decide)
  constructor
  · rintro ⟨posted, sends, fits⟩
    by_contra wrong
    unfold MessageFits at wrong
    push Not at wrong
    obtain ⟨wraps, chunk, mem, large⟩ := wrong
    obtain ⟨pointer, heap', answer, nonzero, small⟩ := wellFormed.ffsAlloc_some wordSum mem large
    obtain rfl := Option.some.inj ((sendTo_block takes answer nonzero).symm.trans sends)
    have room : msg.size ≤ getSize (pointer - sizeT) heap' - 2 * sizeT - dataOffset := fits
    omega
  · rintro (short | none)
    · have sum : add32 sizeofKmsg msg.size = 24 + msg.size := add32_of_lt (by omega)
      have fits : add32 sizeofKmsg msg.size + 11 < 2 ^ 32 := by omega
      rcases wellFormed.ffsAlloc fits with ⟨null, -⟩ |
        ⟨taken, heap', blocks', free', answer, large, grants, wellFormed', -⟩
      · exact ⟨_, sendTo_null takes null, E_NO_MEMORY, by decide, rfl⟩
      · have mem : taken ∈ blocks' := (grants.used_iff taken grants.used).mpr (.inl rfl)
        have room := (requestSize_spec fits).2.2.1
        refine ⟨_, sendTo_block takes answer (by omega), ?_⟩
        change msg.size ≤ getSize (taken.addr + sizeT - sizeT) heap' - 2 * sizeT - dataOffset
        rw [Nat.add_sub_cancel, wellFormed'.getSize_eq mem]
        omega
    · exact ⟨_, sendTo_null takes (wellFormed.ffsAlloc_null none), E_NO_MEMORY, by decide, rfl⟩

end Send

section Post

/-- A call that sends nothing. -/
theorem msgPost_none (none : kernel.target dest = none) : ∃ errnum, errnum ≠ SUCCESS ∧
    kernel.msgPost mpool dest (some msg) heap = some ⟨.none, heap, .ok (kernel.exit errnum)⟩ := by
  unfold Kernel.target at none
  unfold Kernel.msgPost
  cases dest with
  | queue msgq =>
      cases msgq with
      | none => exact ⟨E_INVALID_HANDLE, by decide, rfl⟩
      | some msgq =>
          dsimp only at none ⊢
          split_ifs at none with isQueue
          exact ⟨E_INVALID_HANDLE, by decide, if_neg isQueue⟩
  | thread thr =>
      cases thr with
      | none => exact ⟨E_INVALID_HANDLE, by decide, rfl⟩
      | some thr =>
          dsimp only at none ⊢
          rw [Option.map_eq_none_iff.mp none]
          exact ⟨E_DONT_EXIST, by decide, rfl⟩

/-- A call that sends to a queue. -/
theorem msgPost_some (some : kernel.target dest = some queue) :
    kernel.msgPost mpool dest (.some msg) heap = kernel.sendTo mpool queue msg heap := by
  unfold Kernel.target at some
  unfold Kernel.msgPost
  cases dest with
  | queue msgq =>
      cases msgq with
      | none => cases some
      | some msgq =>
          dsimp only at some ⊢
          split_ifs at some with isQueue
          obtain rfl := Option.some.inj some
          exact if_pos isQueue
  | thread thr =>
      cases thr with
      | none => cases some
      | some thr =>
          obtain ⟨kthr, descriptor, rfl⟩ := Option.map_eq_some_iff.mp some
          dsimp only
          rw [descriptor]

/-- What `sys__msg_post` copies fits in its block iff the message is ignored, or its size leaves
room for what is added to it, or there is no free chunk for what is left of the sum. -/
theorem message_copy_fits_iff (wellFormed : WellFormed mpool low high heap blocks free)
    (word : msg.size < 2 ^ 32) :
    (∃ posted, kernel.msgPost mpool dest (some msg) heap = some posted ∧ posted.Fits kernel) ↔
      (kernel.Takes dest msg → MessageFits msg.size heap free) := by
  cases found : kernel.target dest with
  | none =>
      obtain ⟨errnum, fails, posts⟩ := @msgPost_none mpool heap kernel dest msg found
      have notTaken : ¬ kernel.Takes dest msg := by
        rintro ⟨queue, isTarget, -⟩
        rw [found] at isTarget
        cases isTarget
      exact ⟨fun _ taken => absurd taken notTaken, fun _ => ⟨_, posts, errnum, fails, rfl⟩⟩
  | some queue =>
      rw [msgPost_some found]
      have taken_iff : kernel.Takes dest msg ↔ kernel.minPrio queue ≤ toUint msg.type := by
        unfold Kernel.Takes
        rw [found]
        simp
      rw [taken_iff]
      by_cases takes : kernel.minPrio queue ≤ toUint msg.type
      · rw [sendTo_fits_iff wellFormed word takes]
        exact ⟨fun fits _ => fits, fun fits => fits takes⟩
      · refine ⟨fun _ taken => absurd taken takes, fun _ => ?_⟩
        exact ⟨_, sendTo_ignored takes, E_IGNORED, by decide, rfl⟩

/-- The kernel with a global message queue, and a heap in a segment of 1 KiB. -/
theorem queue_and_heap : ∃ state : QueueKernel, ∃ heap,
    (QueueKernel.start Kernel.boot).sysCreateMsgQueue 100 0 8192 = .ok (0, state) ∧
    state.kernel.target (.queue (some ⟨8192, 1⟩)) = some (.global 8192) ∧
    state.kernel.minPrio (.global 8192) = 0 ∧
    ffsInit 4096 1024 (fun _ => 0) = some (4096, heap) ∧
    WellFormed 4096 4100 (highBorder 4096 1024) heap
      [⟨4104, highBorder 4096 1024 - 4104, false⟩] [4104] := by
  obtain ⟨heap, init, wellFormed⟩ := small_pool
  obtain ⟨state, created⟩ : ∃ state, (QueueKernel.start Kernel.boot).sysCreateMsgQueue 100 0 8192 =
      .ok (0, state) := ⟨_, rfl⟩
  have evaluated : (do
      let created ← (QueueKernel.start Kernel.boot).sysCreateMsgQueue 100 0 8192
      return decide (created.2.kernel.kgmsgqId 8192 = 1 ∧
        created.2.kernel.minPrio (.global 8192) = 0)) = Except.ok true := by
    decide +kernel
  rw [created] at evaluated
  obtain ⟨id, least⟩ := of_decide_eq_true (Except.ok.inj evaluated)
  have isQueue : state.kernel.IsQueue ⟨8192, 1⟩ := ⟨by decide, id⟩
  exact ⟨state, heap, created, if_pos isQueue, least, init, wellFormed⟩

/-- A message of 100 bytes for the queue. -/
theorem message_copy_fits_iff_sample : ∃ kernel : Kernel, ∃ heap free,
    (∃ posted, kernel.msgPost 4096 (.queue (some ⟨8192, 1⟩)) (some ⟨0, 100, fun _ => 0⟩) heap =
      some posted ∧ posted.Fits kernel) ↔
      (kernel.Takes (.queue (some ⟨8192, 1⟩)) ⟨0, 100, fun _ => 0⟩ →
        MessageFits 100 heap free) := by
  obtain ⟨state, heap, -, -, -, -, wellFormed⟩ := queue_and_heap
  exact ⟨state.kernel, heap, _, message_copy_fits_iff wellFormed (by decide)⟩

/-- A message of 24 bytes less than 4 GiB for the queue. -/
theorem message_copy_fits_iff_fail : ∃ state : QueueKernel, ∃ heap,
    (QueueKernel.start Kernel.boot).sysCreateMsgQueue 100 0 8192 = .ok (0, state) ∧
    ffsInit 4096 1024 (fun _ => 0) = some (4096, heap) ∧
    ¬ ∃ posted, state.kernel.msgPost 4096 (.queue (some ⟨8192, 1⟩))
      (some ⟨0, 4294967272, fun _ => 0⟩) heap = some posted ∧ posted.Fits state.kernel := by
  obtain ⟨state, heap, created, target, least, init, wellFormed⟩ := queue_and_heap
  refine ⟨state, heap, created, init, ?_⟩
  rw [msgPost_some target, sendTo_fits_iff wellFormed (by decide : 4294967272 < 2 ^ 32)
    (by rw [least]; exact Nat.zero_le _)]
  have header : heap 4104 = word ⟨4104, highBorder 4096 1024 - 4104, false⟩ :=
    (wellFormed.settled _ List.mem_cons_self).header
  rintro (short | small)
  · exact absurd short (by decide)
  · have less := small 4104 List.mem_cons_self
    rw [header] at less
    exact absurd less (by decide)

end Post

end Oseer
