import Oseer.Devices
import Oseer.Library.ParamStack

/-!
# System calls from programs

The stubs in `programs/api` push the arguments of a system call as words, with the number
of the call on top.  `k_syscall` finds the handler in the table `k_sysfunc`, and the handler
reads its parameters from the stack of the thread.

The stubs are given with their arguments and with the addresses of their local variables.  A
stub whose assertion fails only prints and sets the error number, through other stubs.
-/

namespace Oseer

open WordMemory ParamStack

/-- The numbers of system calls, in the order of `kernel/syscall.h`. -/
inductive SyscallId
  | createThread | threadExit | waitForThread | cancelThread | threadSelf | startProgram
  | setSchedParams | getSchedParams | setThreadSchedParams | getThreadSchedParams
  | setErrno | getErrno
  | getTime | alarmNew | alarmSet | alarmGet | waitForAlarm | alarmRemove
  | semInit | semDestroy | semPost | semWait
  | monitorInit | monitorDestroy | monitorQueueInit | monitorQueueDestroy
  | monitorLock | monitorUnlock | monitorWait | monitorSignal | monitorBroadcast
  | deviceSend | deviceRecv | deviceLock | deviceUnlock
  | threadMesgSet | createMesgQ | deleteMesgQ | sendMesg | recvMesg
  | sysinfo
  | suspend
deriving DecidableEq, Repr

/-- The first system call has the number one. -/
def SyscallId.number (id : SyscallId) : Nat := id.ctorIdx + 1

/-- The handlers of system calls. -/
inductive Handler
  | sysCreateThread | sysThreadExit | sysWaitForThread | sysCancelThread | sysThreadSelf
  | sysStartProgram
  | sysSetSchedParams | sysGetSchedParams | sysSetThreadSchedParams | sysGetThreadSchedParams
  | sysSetErrno | sysGetErrno
  | sysGetTime | sysAlarmNew | sysAlarmSet | sysAlarmGet | sysWaitForAlarm | sysAlarmRemove
  | sysSemInit | sysSemDestroy | sysSemPost | sysSemWait
  | sysMonitorInit | sysMonitorDestroy | sysMonitorQueueInit | sysMonitorQueueDestroy
  | sysMonitorLock | sysMonitorUnlock | sysMonitorWait | sysMonitorSignal
  | sysMonitorBroadcast
  | sysDeviceSend | sysDeviceRecv | sysDeviceLock | sysDeviceUnlock
  | sysThreadMsgSet | sysCreateMsgQueue | sysDeleteMsgQueue | sysMsgPost | sysMsgRecv
  | sysSysinfo
  | sysSuspend
deriving DecidableEq, Repr

/-- What a word on the stack means, to a stub or to a handler. -/
inductive Param
  | startFunc | param | schedPolicy | prio | thrDesc
  | status | thread | wait | progName
  | schedParams | schedPolicyOut | prioOut
  | errno
  | time | idOut | alarmId | alarm
  | sem | initialValue
  | monitor | monitorQueue
  | data | size | flags | device
  | minMsgPrio | minSigPrio | sigHandler
  | msgQueue | minPrio | destType | dest | msg | srcType | src | msgType
  | buffer | bufSize | sysinfoParam
deriving DecidableEq, Repr

/-- `k_sysfunc`: the handler of each number. -/
def kSysfunc : List (Option Handler) :=
  [none,
    some .sysCreateThread, some .sysThreadExit, some .sysWaitForThread,
    some .sysCancelThread, some .sysThreadSelf, some .sysStartProgram,
    some .sysSetSchedParams, some .sysGetSchedParams, some .sysSetThreadSchedParams,
    some .sysGetThreadSchedParams,
    some .sysSetErrno, some .sysGetErrno,
    some .sysGetTime, some .sysAlarmNew, some .sysAlarmSet, some .sysAlarmGet,
    some .sysWaitForAlarm, some .sysAlarmRemove,
    some .sysSemInit, some .sysSemDestroy, some .sysSemPost, some .sysSemWait,
    some .sysMonitorInit, some .sysMonitorDestroy, some .sysMonitorQueueInit,
    some .sysMonitorQueueDestroy, some .sysMonitorLock, some .sysMonitorUnlock,
    some .sysMonitorWait, some .sysMonitorSignal, some .sysMonitorBroadcast,
    some .sysDeviceSend, some .sysDeviceRecv, some .sysDeviceLock, some .sysDeviceUnlock,
    some .sysThreadMsgSet, some .sysCreateMsgQueue, some .sysDeleteMsgQueue,
    some .sysMsgPost, some .sysMsgRecv,
    some .sysSysinfo,
    some .sysSuspend]

namespace Handler

/-- The parameters that a handler reads, in the order of its reads. -/
def params : Handler → List Param
  | .sysCreateThread => [.startFunc, .param, .schedPolicy, .prio, .thrDesc]
  | .sysThreadExit => [.status]
  | .sysWaitForThread => [.thread, .wait]
  | .sysCancelThread => [.thread]
  | .sysThreadSelf => [.thread]
  | .sysStartProgram => [.progName, .thrDesc, .param, .prio]
  | .sysSetSchedParams => [.schedPolicy, .schedParams]
  | .sysGetSchedParams => []
  | .sysSetThreadSchedParams => [.thread, .schedPolicy, .prio, .schedParams]
  | .sysGetThreadSchedParams => [.thread, .schedPolicyOut, .prioOut, .schedParams]
  | .sysSetErrno => [.errno]
  | .sysGetErrno => []
  | .sysGetTime => [.time]
  | .sysAlarmNew => [.idOut, .alarm]
  | .sysAlarmSet => [.alarmId, .alarm]
  | .sysAlarmGet => [.alarmId, .alarm]
  | .sysWaitForAlarm => [.alarmId, .wait]
  | .sysAlarmRemove => [.alarmId]
  | .sysSemInit => [.sem, .initialValue]
  | .sysSemDestroy => [.sem]
  | .sysSemPost => [.sem]
  | .sysSemWait => [.sem]
  | .sysMonitorInit => [.monitor]
  | .sysMonitorDestroy => [.monitor]
  | .sysMonitorQueueInit => [.monitorQueue]
  | .sysMonitorQueueDestroy => [.monitorQueue]
  | .sysMonitorLock => [.monitor]
  | .sysMonitorUnlock => [.monitor]
  | .sysMonitorWait => [.monitor, .monitorQueue]
  | .sysMonitorSignal => [.monitorQueue]
  | .sysMonitorBroadcast => [.monitorQueue]
  | .sysDeviceSend => [.data, .size, .flags, .device]
  | .sysDeviceRecv => [.data, .size, .flags, .device]
  | .sysDeviceLock => [.device, .wait]
  | .sysDeviceUnlock => [.device]
  | .sysThreadMsgSet => [.minMsgPrio, .minSigPrio, .sigHandler]
  | .sysCreateMsgQueue => [.msgQueue, .minPrio]
  | .sysDeleteMsgQueue => [.msgQueue]
  | .sysMsgPost => [.destType, .dest, .msg, .flags]
  | .sysMsgRecv => [.srcType, .src, .msg, .msgType, .size, .flags]
  | .sysSysinfo => [.buffer, .bufSize, .sysinfoParam]
  | .sysSuspend => []

/-- How a handler reads its parameters; those in `kernel/sched.c` move the pointer on after
the last one, too. -/
def moves : Handler → List (Move Param)
  | .sysSetSchedParams => inOrder sysSetSchedParams.params ++ [.advance 4]
  | .sysSetThreadSchedParams => inOrder sysSetThreadSchedParams.params ++ [.advance 4]
  | .sysGetThreadSchedParams => inOrder sysGetThreadSchedParams.params ++ [.advance 4]
  | handler => inOrder handler.params

end Handler

/-- A system call: its number, and its arguments with their meaning. -/
structure Syscall where
  id : SyscallId
  args : List (Param × Nat)

namespace Syscall

/-- The words that are pushed for the arguments. -/
def words (call : Syscall) : List Nat := call.args.map Prod.snd

/-- The stack of the thread in the kernel: the return address, the number of the call and the
arguments. -/
def frame (call : Syscall) (esp ret : Nat) (memory : Memory) : Memory :=
  push esp (ret :: call.id.number :: call.words) memory

end Syscall

/-- The handler that `k_syscall` calls: the number is found above the return address. -/
def kSyscall (memory : Memory) (esp : Nat) : Option Handler :=
  (kSysfunc[memory (esp + 4)]?).join

/-- The address of the first parameter, `arch_syscall_get_params`. -/
def archSyscallGetParams (esp : Nat) : Nat := esp + 8

/-- The handler reads the arguments that were pushed, each for what it is; one that leaves
early reads the first ones. -/
def Syscall.Agrees (call : Syscall) : Prop :=
  ∀ memory esp ret, ∃ handler, kSyscall (call.frame esp ret memory) esp = some handler ∧
    read (call.frame esp ret memory) handler.moves (archSyscallGetParams esp) = call.args ∧
    ∀ done, done <+: handler.moves →
      read (call.frame esp ret memory) done (archSyscallGetParams esp) <+: call.args

/-- The stubs of `programs/api` with their arguments.  Pointers to local variables and the
devices of the process are arguments, too; `output` gives the characters that `print` makes
of its format. -/
inductive Stub
  | createThread (startFunc param sched prio handle : Nat)
  | threadExit (status : Nat)
  | waitForThread (thread wait : Nat)
  | cancelThread (thread : Nat)
  | threadSelf (thread : Nat)
  | startProgram (progName handle param sched prio : Nat)
  | setSchedParams (thread schedPolicy prio params : Nat)
  | getSchedParams (thread schedPolicy prio params : Nat)
  | setErrno (errorNumber : Nat)
  | getErrno
  | timeGet (t : Nat)
  | alarmSet (id idAddress alarm : Nat)
  | alarmGet (id alarm : Nat)
  | alarmRemove (id : Nat)
  | waitForAlarm (id wait : Nat)
  | semInit (sem initialValue : Nat)
  | semDestroy (sem : Nat)
  | semPost (sem : Nat)
  | semWait (sem : Nat)
  | monitorInit (monitor : Nat)
  | monitorDestroy (monitor : Nat)
  | monitorQueueInit (queue : Nat)
  | monitorQueueDestroy (queue : Nat)
  | monitorLock (monitor : Nat)
  | monitorUnlock (monitor : Nat)
  | monitorWait (monitor queue : Nat)
  | monitorSignal (queue : Nat)
  | monitorBroadcast (queue : Nat)
  | threadMsgSet (minMsgPrio minSigPrio sigHandler : Nat)
  | createMessageQueue (queue minPrio : Nat)
  | deleteMessageQueue (queue : Nat)
  | sendMessage (destType dest msg flags : Nat)
  | receiveMessage (srcType src msg type size flags : Nat)
  | getChar (c stdin : Nat)
  | clearScreen (stdout : Nat)
  | gotoXy (p stdout : Nat)
  | printChar (p stdout : Nat)
  | print (output : List Nat) (stdout : Nat)

namespace Stub

/-- A call that is made if an assertion about a pointer holds. -/
def guarded (pointer : Nat) (call : Syscall) : List Syscall := if pointer ≠ 0 then [call] else []

/-- The call in `print_char`; `p` is the address of the character and its font. -/
def printCharCall (p stdout : Nat) : Syscall :=
  ⟨.deviceSend, [(.data, p), (.size, 8), (.flags, PRINTCHAR), (.device, stdout)]⟩

/-- The system calls of a stub; one that is repeated until it succeeds is listed once. -/
def calls : Stub → List Syscall
  | createThread startFunc param sched prio handle =>
      guarded startFunc ⟨.createThread, [(.startFunc, startFunc), (.param, param),
        (.schedPolicy, sched), (.prio, prio), (.thrDesc, handle)]⟩
  | threadExit status => [⟨.threadExit, [(.status, status)]⟩]
  | waitForThread thread wait =>
      guarded thread ⟨.waitForThread, [(.thread, thread), (.wait, wait)]⟩
  | cancelThread thread => guarded thread ⟨.cancelThread, [(.thread, thread)]⟩
  | threadSelf thread => guarded thread ⟨.threadSelf, [(.thread, thread)]⟩
  | startProgram progName handle param sched prio =>
      guarded progName ⟨.startProgram, [(.progName, progName), (.thrDesc, handle),
        (.param, param), (.schedPolicy, sched), (.prio, prio)]⟩
  | setSchedParams thread schedPolicy prio params =>
      [⟨.setSchedParams, [(.thread, thread), (.schedPolicy, schedPolicy), (.prio, prio),
        (.schedParams, params)]⟩]
  | getSchedParams thread schedPolicy prio params =>
      [⟨.getSchedParams, [(.thread, thread), (.schedPolicyOut, schedPolicy),
        (.prioOut, prio), (.schedParams, params)]⟩]
  | setErrno errorNumber => [⟨.setErrno, [(.errno, errorNumber)]⟩]
  | getErrno => [⟨.getErrno, []⟩]
  | timeGet t => guarded t ⟨.getTime, [(.time, t)]⟩
  | alarmSet id idAddress alarm =>
      if id = 0 then [⟨.alarmNew, [(.idOut, idAddress), (.alarm, alarm)]⟩]
      else [⟨.alarmSet, [(.alarmId, id), (.alarm, alarm)]⟩]
  | alarmGet id alarm =>
      if id ≠ 0 then guarded alarm ⟨.alarmGet, [(.alarmId, id), (.alarm, alarm)]⟩ else []
  | alarmRemove id => guarded id ⟨.alarmRemove, [(.alarmId, id)]⟩
  | waitForAlarm id wait => guarded id ⟨.waitForAlarm, [(.alarmId, id), (.wait, wait)]⟩
  | semInit sem initialValue =>
      guarded sem ⟨.semInit, [(.sem, sem), (.initialValue, initialValue)]⟩
  | semDestroy sem => guarded sem ⟨.semDestroy, [(.sem, sem)]⟩
  | semPost sem => guarded sem ⟨.semPost, [(.sem, sem)]⟩
  | semWait sem => guarded sem ⟨.semWait, [(.sem, sem)]⟩
  | monitorInit monitor => guarded monitor ⟨.monitorInit, [(.monitor, monitor)]⟩
  | monitorDestroy monitor => guarded monitor ⟨.monitorDestroy, [(.monitor, monitor)]⟩
  | monitorQueueInit queue => guarded queue ⟨.monitorQueueInit, [(.monitorQueue, queue)]⟩
  | monitorQueueDestroy queue =>
      guarded queue ⟨.monitorQueueDestroy, [(.monitorQueue, queue)]⟩
  | monitorLock monitor => guarded monitor ⟨.monitorLock, [(.monitor, monitor)]⟩
  | monitorUnlock monitor => guarded monitor ⟨.monitorUnlock, [(.monitor, monitor)]⟩
  | monitorWait monitor queue =>
      if monitor ≠ 0 then
        guarded queue ⟨.monitorWait, [(.monitor, monitor), (.monitorQueue, queue)]⟩
      else []
  | monitorSignal queue => guarded queue ⟨.monitorSignal, [(.monitorQueue, queue)]⟩
  | monitorBroadcast queue => guarded queue ⟨.monitorBroadcast, [(.monitorQueue, queue)]⟩
  | threadMsgSet minMsgPrio minSigPrio sigHandler =>
      [⟨.threadMesgSet, [(.minMsgPrio, minMsgPrio), (.minSigPrio, minSigPrio),
        (.sigHandler, sigHandler)]⟩]
  | createMessageQueue queue minPrio =>
      guarded queue ⟨.createMesgQ, [(.msgQueue, queue), (.minPrio, minPrio)]⟩
  | deleteMessageQueue queue => guarded queue ⟨.deleteMesgQ, [(.msgQueue, queue)]⟩
  | sendMessage destType dest msg flags =>
      guarded dest ⟨.sendMesg, [(.destType, destType), (.dest, dest), (.msg, msg),
        (.flags, flags)]⟩
  | receiveMessage srcType src msg type size flags =>
      guarded src ⟨.recvMesg, [(.srcType, srcType), (.src, src), (.msg, msg),
        (.msgType, type), (.size, size), (.flags, flags)]⟩
  | getChar c stdin =>
      [⟨.deviceRecv, [(.data, c), (.size, 1), (.flags, ONLY_ASCII), (.device, stdin)]⟩]
  | clearScreen stdout =>
      [⟨.deviceSend, [(.data, 0), (.size, 0), (.flags, CLEAR), (.device, stdout)]⟩]
  | gotoXy p stdout =>
      [⟨.deviceSend, [(.data, p), (.size, 8), (.flags, GOTOXY), (.device, stdout)]⟩]
  | printChar p stdout => [printCharCall p stdout]
  | print output stdout =>
      ⟨.deviceLock, [(.device, stdout), (.wait, 1)]⟩ ::
        (output.map fun p => printCharCall p stdout) ++
        [⟨.deviceUnlock, [(.device, stdout)]⟩]

/-- The calls of these stubs are read by a handler with other parameters: the policy that
`start_program` passes is read as its priority, `set_sched_params` passes a thread and its
priority to the handler for the parameters of a policy, and the handler of
`get_sched_params` reads nothing. -/
def Drifts : Stub → Prop
  | startProgram progName .. => progName ≠ 0
  | setSchedParams .. => True
  | getSchedParams .. => True
  | _ => False

end Stub

section Agreement

variable {call : Syscall} {handler : Handler} {stub : Stub}

theorem Handler.read_moves {memory : Memory} {pointer : Nat} (handler : Handler) :
    read memory handler.moves pointer = read memory (inOrder handler.params) pointer := by
  cases handler
  case sysSetSchedParams => exact read_append_advance _ _
  case sysSetThreadSchedParams => exact read_append_advance _ _
  case sysGetThreadSchedParams => exact read_append_advance _ _
  all_goals rfl

theorem read_length {memory : Memory} {pointer : Nat} (params : List Param) :
    (read memory (inOrder params) pointer).length = params.length := by
  induction params generalizing pointer with
  | nil => rfl
  | cons first rest ih =>
      cases rest with
      | nil => rfl
      | cons next rest => exact congrArg (· + 1) ih

theorem Syscall.frame_number {esp ret : Nat} {memory : Memory} :
    call.frame esp ret memory (esp + 4) = call.id.number := by
  unfold Syscall.frame push push
  rw [write_other (by omega), write_same]

theorem Syscall.frame_params {esp ret : Nat} {memory : Memory} (params : List Param) :
    read (call.frame esp ret memory) (inOrder params) (archSyscallGetParams esp) =
      read (push (esp + 8) call.words memory) (inOrder params) (esp + 8) := by
  have frame : call.frame esp ret memory =
      ((push (esp + 8) call.words memory).write (esp + 4) call.id.number).write esp ret := rfl
  unfold archSyscallGetParams
  rw [frame, read_write_below (by omega), read_write_below (by omega)]

theorem SyscallId.exists_handler (id : SyscallId) :
    ∃ handler, (kSysfunc[id.number]?).join = some handler := by
  cases id <;> exact ⟨_, rfl⟩

/-- A call agrees with the handler in the table iff this reads the parameters that the stub
means. -/
theorem Syscall.agrees_iff : call.Agrees ↔
    (kSysfunc[call.id.number]?).join.map Handler.params = some (call.args.map Prod.fst) := by
  obtain ⟨handler, isHandler⟩ := call.id.exists_handler
  have found : ∀ memory esp ret,
      kSyscall (call.frame esp ret memory) esp = some handler := by
    intro memory esp ret
    unfold kSyscall
    rw [Syscall.frame_number, isHandler]
  have reads : ∀ memory esp ret,
      read (call.frame esp ret memory) handler.moves (archSyscallGetParams esp) =
        read (push (esp + 8) call.words memory) (inOrder handler.params) (esp + 8) := by
    intro memory esp ret
    rw [Handler.read_moves, Syscall.frame_params]
  have words : call.words.length = call.args.length := List.length_map ..
  rw [isHandler, Option.map_some, Option.some_inj]
  constructor
  · intro agrees
    obtain ⟨other, isOther, same, -⟩ := agrees (fun _ => 0) 0 0
    obtain rfl : handler = other := Option.some.inj ((found _ _ _).symm.trans isOther)
    rw [reads] at same
    have length : handler.params.length = call.words.length := by
      rw [words, ← same, read_length]
    rw [read_push _ _ length.le] at same
    rw [← same, List.map_fst_zip length.le]
  · intro params memory esp ret
    have pairs : (call.args.map Prod.fst).zip call.words = call.args :=
      (List.zip_of_prod rfl rfl).symm
    have all : read (call.frame esp ret memory) handler.moves (archSyscallGetParams esp) =
        call.args := by
      rw [reads, params, read_push, pairs]
      rw [List.length_map, words]
    refine ⟨handler, found memory esp ret, all, fun done leaves => ?_⟩
    rw [← all]
    exact read_prefix leaves

theorem Stub.guarded_agrees {pointer : Nat} (agrees : call.Agrees) :
    ∀ other ∈ guarded pointer call, other.Agrees := by
  unfold guarded
  split
  · exact fun other mem => List.mem_singleton.mp mem ▸ agrees
  · exact fun other mem => absurd mem List.not_mem_nil

theorem Stub.single_agrees (agrees : call.Agrees) : ∀ other ∈ [call], other.Agrees :=
  fun _ mem => List.mem_singleton.mp mem ▸ agrees

theorem Syscall.not_agrees {params : List Param}
    (reads : (kSysfunc[call.id.number]?).join.map Handler.params = some params)
    (different : params.length ≠ call.args.length) : ¬ call.Agrees := by
  intro agrees
  have same := reads.symm.trans (Syscall.agrees_iff.mp agrees)
  rw [Option.some.inj same, List.length_map] at different
  exact different rfl

/-- Every call of a stub is read as it was meant iff the stub is none of those that the
handlers read otherwise. -/
theorem stubs_and_handlers (stub : Stub) :
    (∀ call ∈ stub.calls, call.Agrees) ↔ ¬ stub.Drifts := by
  cases stub
  case startProgram progName handle param sched prio =>
    by_cases named : progName ≠ 0
    · have calls : (Stub.startProgram progName handle param sched prio).calls = [_] :=
        if_pos named
      refine iff_of_false (fun agrees => ?_) (not_not.mpr named)
      rw [calls] at agrees
      have agreed := agrees _ List.mem_cons_self
      exact Syscall.not_agrees rfl (by simp [Handler.params]) agreed
    · have calls : (Stub.startProgram progName handle param sched prio).calls = [] :=
        if_neg named
      refine iff_of_true (fun call mem => ?_) named
      rw [calls] at mem
      cases mem
  case setSchedParams =>
    refine iff_of_false (fun agrees => ?_) (not_not.mpr trivial)
    have agreed := agrees _ List.mem_cons_self
    exact Syscall.not_agrees rfl (by simp [Handler.params]) agreed
  case getSchedParams =>
    refine iff_of_false (fun agrees => ?_) (not_not.mpr trivial)
    have agreed := agrees _ List.mem_cons_self
    exact Syscall.not_agrees rfl (by simp [Handler.params]) agreed
  case alarmSet id idAddress alarm =>
    refine iff_of_true ?_ not_false
    simp only [Stub.calls]
    split
    · exact Stub.single_agrees (Syscall.agrees_iff.mpr rfl)
    · exact Stub.single_agrees (Syscall.agrees_iff.mpr rfl)
  case alarmGet id alarm =>
    refine iff_of_true ?_ not_false
    simp only [Stub.calls]
    split
    · exact Stub.guarded_agrees (Syscall.agrees_iff.mpr rfl)
    · exact fun call mem => absurd mem List.not_mem_nil
  case monitorWait monitor queue =>
    refine iff_of_true ?_ not_false
    simp only [Stub.calls]
    split
    · exact Stub.guarded_agrees (Syscall.agrees_iff.mpr rfl)
    · exact fun call mem => absurd mem List.not_mem_nil
  case print output stdout =>
    refine iff_of_true (fun call mem => ?_) not_false
    rcases List.mem_append.mp mem with locks | unlocks
    · rcases List.mem_cons.mp locks with rfl | prints
      · exact Syscall.agrees_iff.mpr rfl
      · obtain ⟨p, -, rfl⟩ := List.mem_map.mp prints
        exact Syscall.agrees_iff.mpr rfl
    · obtain rfl := List.mem_singleton.mp unlocks
      exact Syscall.agrees_iff.mpr rfl
  all_goals first
    | exact iff_of_true (Stub.guarded_agrees (Syscall.agrees_iff.mpr rfl)) not_false
    | exact iff_of_true (Stub.single_agrees (Syscall.agrees_iff.mpr rfl)) not_false

/-- The policy that is passed to `start_program` is read as the priority. -/
theorem stubs_and_handlers_fail :
    ¬ ∀ call ∈ (Stub.startProgram 4096 0 0 0 20).calls, call.Agrees := by
  intro agrees
  have agreed := agrees _ List.mem_cons_self
  exact Syscall.not_agrees rfl (by decide) agreed

end Agreement

end Oseer
