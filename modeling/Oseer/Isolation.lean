import Oseer.Kernel
import Oseer.SyscallStubs

/-!
# Objects of programs in the kernel

A handler translates a pointer of a program with `U2K_GET_ADR` and then reads or writes an
object at it.  The translation looks at the first byte only: an object that begins in the
segment of the process may reach out of it.
-/

namespace Oseer

open WordMemory

/-- A segment of memory, `mseg_t`, as far as it is one: it ends in the address space. -/
structure Mseg where
  start : Nat
  size : Nat
  inSpace : start + size ≤ 2 ^ 32
  bounded : size < 2 ^ 32

namespace Mseg

/-- `k_u2k_adr`; a program's pointer outside the segment stops the kernel. -/
def kU2kAdr (uadr : Nat) (segment : Mseg) : Option Nat :=
  if uadr < segment.size then some (add32 uadr segment.start) else none

/-- The byte at an address is one of the segment. -/
def Inside (segment : Mseg) (address : Nat) : Prop :=
  segment.start ≤ address ∧ address < segment.start + segment.size

end Mseg

/-- The lengths of the objects of variable length that a call is about. -/
structure Lengths where
  /-- The argument `size` of a device call. -/
  size : Nat
  /-- The member `size` of the message that is posted or received. -/
  msgSize : Nat
  /-- The length of the name of the program, without the zero at its end. -/
  progName : Nat
  /-- The number of arguments of a new program. -/
  argnum : Nat
  /-- The length of the text that `sys__sysinfo` copies. -/
  text : Nat

/-- Sizes of the types of `lib/types.h`. -/
def sizeofPtr : Nat := 4
def sizeofInt : Nat := 4
def sizeofThreadT : Nat := sizeofPtr + sizeofInt
def sizeofSemT : Nat := sizeofPtr
def sizeofMonitorT : Nat := sizeofPtr
def sizeofMonitorQ : Nat := sizeofPtr
def sizeofMsgQ : Nat := sizeofPtr + sizeofInt
def sizeofTimeT : Nat := sizeofInt + sizeofInt
def sizeofSchedT : Nat := sizeofTimeT
def sizeofAlarmT : Nat := sizeofTimeT + sizeofPtr + sizeofPtr + sizeofInt + sizeofTimeT

/-- The members `type` and `size` before the data of a message. -/
def sizeofMsgHeader : Nat := sizeofInt + sizeofInt

/-- The objects that a handler reads or writes through pointers of the program, with the number
of their bytes.  Devices and alarms are named by addresses of the kernel. -/
def Handler.objects (lengths : Lengths) : Handler → List (Param × Nat)
  | .sysCreateThread => [(.thrDesc, sizeofThreadT)]
  | .sysWaitForThread => [(.thread, sizeofThreadT)]
  | .sysCancelThread => [(.thread, sizeofThreadT)]
  | .sysThreadSelf => [(.thread, sizeofThreadT)]
  | .sysStartProgram => [(.progName, lengths.progName + 1), (.thrDesc, sizeofThreadT),
      (.param, (lengths.argnum + 1) * sizeofPtr)]
  | .sysSetSchedParams => [(.schedParams, sizeofSchedT)]
  | .sysSetThreadSchedParams => [(.thread, sizeofThreadT), (.schedParams, sizeofSchedT)]
  | .sysGetThreadSchedParams =>
      [(.thread, sizeofThreadT), (.schedPolicyOut, sizeofInt), (.prioOut, sizeofInt)]
  | .sysGetTime => [(.time, sizeofTimeT)]
  | .sysAlarmNew => [(.idOut, sizeofPtr), (.alarm, sizeofAlarmT)]
  | .sysAlarmSet => [(.alarm, sizeofAlarmT)]
  | .sysAlarmGet => [(.alarm, sizeofAlarmT)]
  | .sysSemInit => [(.sem, sizeofSemT)]
  | .sysSemDestroy => [(.sem, sizeofSemT)]
  | .sysSemPost => [(.sem, sizeofSemT)]
  | .sysSemWait => [(.sem, sizeofSemT)]
  | .sysMonitorInit => [(.monitor, sizeofMonitorT)]
  | .sysMonitorDestroy => [(.monitor, sizeofMonitorT)]
  | .sysMonitorQueueInit => [(.monitorQueue, sizeofMonitorQ)]
  | .sysMonitorQueueDestroy => [(.monitorQueue, sizeofMonitorQ)]
  | .sysMonitorLock => [(.monitor, sizeofMonitorT)]
  | .sysMonitorUnlock => [(.monitor, sizeofMonitorT)]
  | .sysMonitorWait => [(.monitor, sizeofMonitorT), (.monitorQueue, sizeofMonitorQ)]
  | .sysMonitorSignal => [(.monitorQueue, sizeofMonitorQ)]
  | .sysMonitorBroadcast => [(.monitorQueue, sizeofMonitorQ)]
  | .sysDeviceSend => [(.data, lengths.size)]
  | .sysDeviceRecv => [(.data, lengths.size)]
  | .sysCreateMsgQueue => [(.msgQueue, sizeofMsgQ)]
  | .sysDeleteMsgQueue => [(.msgQueue, sizeofMsgQ)]
  -- a destination is a thread or a queue, both of the same size
  | .sysMsgPost => [(.dest, sizeofThreadT), (.msg, sizeofMsgHeader + lengths.msgSize)]
  | .sysMsgRecv => [(.src, sizeofMsgQ), (.msg, sizeofMsgHeader + lengths.msgSize)]
  | .sysSysinfo => [(.buffer, lengths.text + 1), (.sysinfoParam, 2 * sizeofPtr)]
  | .sysThreadExit => []
  | .sysGetSchedParams => []
  | .sysSetErrno => []
  | .sysGetErrno => []
  | .sysWaitForAlarm => []
  | .sysAlarmRemove => []
  | .sysDeviceLock => []
  | .sysDeviceUnlock => []
  | .sysThreadMsgSet => []
  | .sysSuspend => []

section Isolation

variable {segment : Mseg} {uadr bytes kadr : Nat}

/-- If the translation of a pointer passes its assertion, all the bytes of the object are in the
segment of the process. -/
def Isolated (segment : Mseg) (uadr bytes : Nat) : Prop :=
  ∀ kadr, segment.kU2kAdr uadr = some kadr → ∀ offset < bytes, segment.Inside (add32 kadr offset)

theorem Mseg.kU2kAdr_eq_some :
    segment.kU2kAdr uadr = some kadr ↔ uadr < segment.size ∧ kadr = uadr + segment.start := by
  have space := segment.inSpace
  unfold kU2kAdr
  split
  · rename_i inside
    rw [add32_of_lt (by omega), Option.some_inj]
    exact ⟨fun same => ⟨inside, same.symm⟩, fun both => both.2.symm⟩
  · rename_i outside
    exact ⟨fun isNone => (by cases isNone), fun both => absurd both.1 outside⟩

theorem Mseg.not_inside_end : ¬ segment.Inside ((segment.start + segment.size) % 2 ^ 32) := by
  have space := segment.inSpace
  have bounded := segment.bounded
  rintro ⟨above, below⟩
  rcases Nat.lt_or_eq_of_le space with fits | wraps
  · rw [Nat.mod_eq_of_lt fits] at below
    exact lt_irrefl _ below
  · rw [wraps, Nat.mod_self] at above
    omega

/-- An object is in the segment iff it ends there, or is refused, or has no bytes. -/
theorem isolated_iff :
    Isolated segment uadr bytes ↔
      uadr + bytes ≤ segment.size ∨ segment.size ≤ uadr ∨ bytes = 0 := by
  have space := segment.inSpace
  constructor
  · intro isolated
    by_contra breaks
    obtain ⟨beyond, inside, some⟩ : segment.size < uadr + bytes ∧ uadr < segment.size ∧
        bytes ≠ 0 := by omega
    have passes := Mseg.kU2kAdr_eq_some.mpr ⟨inside, rfl⟩
    have last := isolated _ passes (segment.size - uadr) (by omega)
    have address : uadr + segment.start + (segment.size - uadr) =
        segment.start + segment.size := by omega
    unfold add32 at last
    rw [address] at last
    exact Mseg.not_inside_end last
  · intro fits kadr passes offset inBytes
    obtain ⟨inside, rfl⟩ := Mseg.kU2kAdr_eq_some.mp passes
    have ends : uadr + bytes ≤ segment.size := by omega
    unfold Mseg.Inside
    rw [add32_of_lt (by omega)]
    omega

end Isolation

end Oseer
