import Oseer.Signals

/-!
# Tables of signal handlers

The signals of `Chapter_07_Threads/05_Messages`, where a thread has a table of
handlers, one for each type.  The kernel of that chapter creates threads
without processes and schedules them with one ready list for each priority.

What `kmalloc` and `k_new_unique_id` return is given with a call.  All other
parts of the kernel are an arbitrary change outside of the signal data.
-/

namespace Oseer

open Results

/-- `HANDLER_NUM`. -/
def HANDLER_NUM : Nat := 10

def E_PARAM_NULL : Int := 8

/-- `kthrmsg_qs`, apart from the lists of the message queue.  `signalHandler` is the memory
from the table on, of which the first `HANDLER_NUM` words are the table. -/
structure ThreadMsg where
  minPrio : Nat
  sigPrio : Nat
  signalHandler : Int → Ptr

/-- `kthread_t`: the start addresses are those in the context. -/
structure MsgThread where
  id : Nat
  state : ThreadState
  prio : Int
  startFunc : Ptr
  param : Ptr
  exitFunc : Ptr
  exitStatus : Int
  refCnt : Int
  stack : Ptr
  privateStorage : Ptr
  errno : Int
  msg : ThreadMsg

/-- A call of `k_create_thread`: the descriptor it returns and the start address. -/
structure StartedThread where
  kthread : Ptr
  startFunc : Ptr
deriving DecidableEq, Repr

/-- The kernel of the chapter.  `accesses` records the indexes into tables of handlers,
`created` the calls of `k_create_thread`, the last one first, and `registered` the handler
that a thread has set last for each type since its last `sys__thread_msg_set`. -/
structure MessagesKernel where
  thread : Ptr → MsgThread
  activeThread : Ptr
  readyQ : Nat → List Ptr
  allThreads : List Ptr
  storage : Ptr → Msg
  piExit : Ptr
  accesses : List Int
  created : List StartedThread
  registered : Ptr → Int → Ptr

/-- What the allocators return: the address of a message, of a stack and of a descriptor,
and an identifier. -/
structure Supply where
  cmsg : Ptr
  stack : Ptr
  kthread : Ptr
  id : Nat
deriving DecidableEq, Repr

namespace MessagesKernel

/-- Change a descriptor. -/
def setThread (kthr : Ptr) (change : MsgThread → MsgThread) (state : MessagesKernel) :
    MessagesKernel :=
  { state with thread := Function.update state.thread kthr (change (state.thread kthr)) }

/-- A word of the memory from a table of handlers on. -/
def handler (kthr : Ptr) (index : Int) (state : MessagesKernel) : Ptr :=
  (state.thread kthr).msg.signalHandler index

/-- A store to `signal_handler[index]`. -/
def storeHandler (kthr : Ptr) (index : Int) (value : Ptr) (state : MessagesKernel) :
    MessagesKernel :=
  { state.setThread kthr fun thread => { thread with
      msg := { thread.msg with
        signalHandler := Function.update thread.msg.signalHandler index value } } with
    accesses := state.accesses ++ [index] }

/-- The record of a load of `signal_handler[index]`. -/
def loadHandler (index : Int) (state : MessagesKernel) : MessagesKernel :=
  { state with accesses := state.accesses ++ [index] }

/-- The loop that clears a table from an index on. -/
def clearHandlers (kthr : Ptr) : Nat → Int → MessagesKernel → MessagesKernel
  | 0, _, state => state
  | n + 1, index, state => clearHandlers kthr n (index + 1) (state.storeHandler kthr index 0)

/-- `k_thr_msg_init`. -/
def kThrMsgInit (kthr : Ptr) (state : MessagesKernel) : MessagesKernel :=
  clearHandlers kthr HANDLER_NUM 0 (state.setThread kthr fun thread =>
    { thread with msg := { thread.msg with minPrio := 0, sigPrio := 0 } })

/-- `move_to_ready`. -/
def moveToReady (kthr : Ptr) (state : MessagesKernel) : MessagesKernel :=
  let level := (state.thread kthr).prio.toNat
  { state.setThread kthr fun thread => { thread with state := .ready } with
    readyQ := Function.update state.readyQ level (state.readyQ level ++ [kthr]) }

/-- `get_top_ready`. -/
def getTopReady (state : MessagesKernel) : Option Nat :=
  (List.range PRIO_LEVELS).reverse.find? fun level => state.readyQ level ≠ []

/-- `k_schedule_threads`. -/
def kScheduleThreads (state : MessagesKernel) : Except Fault MessagesKernel :=
  let curr := state.activeThread
  let running := curr ≠ 0 ∧ (state.thread curr).state = .active
  match state.getTopReady with
  | none => if running then .ok state else .error .noThreadToRun
  | some first =>
      if ¬ running ∨ (state.thread curr).prio ≤ first then
        let state := if running then state.moveToReady curr else state
        match state.readyQ first with
        | [] => .error .noThreadToRun
        | next :: rest =>
            .ok { state.setThread next fun thread => { thread with state := .active } with
              readyQ := Function.update state.readyQ first rest
              activeThread := next }
      else .ok state

/-- `k_create_thread`, without a stack and with `run`, as all its callers call it. -/
def kCreateThread (startFunc param exitFunc : Ptr) (prio : Int) (supply : Supply)
    (state : MessagesKernel) : Except Fault MessagesKernel :=
  if supply.stack = 0 ∨ supply.kthread = 0 then .error .noMemory
  else
    let kthr := supply.kthread
    let levels : Int := PRIO_LEVELS
    let prio := if prio < 0 then 0 else if levels ≤ prio then levels - 1 else prio
    let state := state.setThread kthr fun thread =>
      { thread with
        id := supply.id
        state := .passive
        prio := prio
        startFunc := startFunc
        param := param
        exitFunc := exitFunc
        exitStatus := 0
        refCnt := 0 }
    let state := (state.moveToReady kthr).setThread kthr fun thread =>
      { thread with refCnt := 1, stack := supply.stack, privateStorage := 0 }
    let state := state.kThrMsgInit kthr
    .ok { state with
      allThreads := state.allThreads ++ [kthr]
      created := ⟨kthr, startFunc⟩ :: state.created
      registered := Function.update state.registered kthr fun _ => 0 }

/-- `k_get_kthread`. -/
def kGetKthread (thr : Handle) (state : MessagesKernel) : Option Ptr :=
  if thr.thread ≠ 0 ∧ thr.thrId = (state.thread thr.thread).id ∧
      (state.thread thr.thread).state ≠ .passive then some thr.thread
  else none

/-- `SYS_EXIT` of a caller. -/
def sysExit (caller : Ptr) (errnum : Int) (state : MessagesKernel) : Int × MessagesKernel :=
  (-errnum, state.setThread caller fun thread => { thread with errno := -errnum })

/-- `sys__thread_msg_set`. -/
def sysThreadMsgSet (minMsgPrio : Nat) (minSigPrio : Int) (state : MessagesKernel) :
    Int × MessagesKernel :=
  let kthr := state.activeThread
  let state := state.setThread kthr fun thread =>
    { thread with
      msg := { thread.msg with minPrio := minMsgPrio, sigPrio := toUint minSigPrio } }
  let state := clearHandlers kthr HANDLER_NUM 0 state
  sysExit kthr SUCCESS { state with
    registered := Function.update state.registered kthr fun _ => 0 }

/-- `sys__set_signal_handler`. -/
def sysSetSignalHandler (sigPrio : Int) (sigHandler : Ptr) (state : MessagesKernel) :
    Int × MessagesKernel :=
  let kthr := state.activeThread
  let state := state.storeHandler kthr sigPrio sigHandler
  sysExit kthr SUCCESS { state with
    registered := Function.update state.registered kthr
      (Function.update (state.registered kthr) sigPrio sigHandler) }

/-- The part of `sys__msg_post` that creates a thread for a signal. -/
def serveSignal (kthr : Ptr) (msg : Msg) (supply : Supply) (state : MessagesKernel) :
    Except Fault (Int × MessagesKernel) := do
  let caller := state.activeThread
  let state := { state with storage := Function.update state.storage supply.cmsg msg }
  let state ← (state.loadHandler msg.type).kCreateThread (state.handler kthr msg.type) supply.cmsg
    state.piExit ((state.thread kthr).prio + 1) supply
  let state := state.setThread supply.kthread fun thread =>
    { thread with privateStorage := supply.cmsg }
  let state ← state.kScheduleThreads
  return state.sysExit caller SUCCESS

/-- `sys__msg_post` for `MSG_SIGNAL`; without a value for the null pointer. -/
def sysMsgPost (dest : Option Handle) (msg : Option Msg) (supply : Supply)
    (state : MessagesKernel) : Except Fault (Int × MessagesKernel) :=
  let caller := state.activeThread
  match dest, msg with
  | some thr, some msg =>
      match state.kGetKthread thr with
      | none => .ok (state.sysExit caller E_DONT_EXIST)
      | some kthr =>
          if (state.thread kthr).msg.sigPrio ≤ toUint msg.type then
            if state.handler kthr msg.type ≠ 0 then
              (state.loadHandler msg.type).serveSignal kthr msg supply
            else .ok ((state.loadHandler msg.type).sysExit caller E_IGNORED)
          else .ok (state.sysExit caller E_IGNORED)
  | _, _ => .ok (state.sysExit caller E_INVALID_HANDLE)

/-- `sys__create_thread`. -/
def sysCreateThread (func param : Ptr) (prio : Int) (supply : Supply) (state : MessagesKernel) :
    Except Fault (Int × MessagesKernel) :=
  let caller := state.activeThread
  if func = 0 then .ok (state.sysExit caller E_PARAM_NULL)
  else do
    let state ← state.kCreateThread func param state.piExit prio supply
    let state ← state.kScheduleThreads
    return state.sysExit caller SUCCESS

/-- The kernel after `k_threads_init`, with the idle thread and the first thread. -/
def start (idleThread init exit : Ptr) (prio : Int) (idle first : Supply) :
    Except Fault MessagesKernel := do
  let state : MessagesKernel :=
    { thread := fun _ => ⟨0, .passive, 0, 0, 0, 0, 0, 0, 0, 0, 0, ⟨0, 0, fun _ => 0⟩⟩
      activeThread := 0
      readyQ := fun _ => []
      allThreads := []
      storage := fun _ => ⟨0, 0, fun _ => 0⟩
      piExit := exit
      accesses := []
      created := []
      registered := fun _ _ => 0 }
  let state ← state.kCreateThread idleThread 0 0 0 idle
  let state ← state.kCreateThread init 0 exit prio first
  state.kScheduleThreads

end MessagesKernel

/-- What changes the kernel: the system calls for signals, the creation of threads, and any
change outside of the signal data. -/
inductive TableEntry
  | threadMsgSet (minMsgPrio : Nat) (minSigPrio : Int)
  | setSignalHandler (sigPrio : Int) (sigHandler : Ptr)
  | msgPost (dest : Option Handle) (msg : Option Msg) (supply : Supply)
  | sysCreateThread (func param : Ptr) (prio : Int) (supply : Supply)
  | kCreateThread (startFunc param exitFunc : Ptr) (prio : Int) (supply : Supply)
  | other (kernel : MessagesKernel)

namespace MessagesKernel

/-- Another state of the kernel with the same signal data and the same records. -/
def withOther (state kernel : MessagesKernel) : MessagesKernel :=
  { kernel with
    thread := fun kthr => { kernel.thread kthr with msg := (state.thread kthr).msg }
    accesses := state.accesses
    created := state.created
    registered := state.registered }

/-- One entry: the value returned and the new state. -/
def enter (entry : TableEntry) (state : MessagesKernel) : Except Fault (Int × MessagesKernel) :=
  match entry with
  | .threadMsgSet minMsgPrio minSigPrio => .ok (state.sysThreadMsgSet minMsgPrio minSigPrio)
  | .setSignalHandler sigPrio sigHandler => .ok (state.sysSetSignalHandler sigPrio sigHandler)
  | .msgPost dest msg supply => state.sysMsgPost dest msg supply
  | .sysCreateThread func param prio supply => state.sysCreateThread func param prio supply
  | .kCreateThread startFunc param exitFunc prio supply =>
      (state.kCreateThread startFunc param exitFunc prio supply).map fun state => (0, state)
  | .other kernel => .ok (0, state.withOther kernel)

end MessagesKernel

/-- Every access to a table of handlers stays in the table. -/
def MessagesKernel.AccessesInside (state : MessagesKernel) : Prop :=
  ∀ index ∈ state.accesses, 0 ≤ index ∧ index < HANDLER_NUM

/-- A set handler changes its entry and nothing else.  A signal creates one thread, at the
handler that its target has set last for the type, if there is one and the type is at least
`sigPrio`; else it is ignored. -/
def TableEntry.Obeys (state : MessagesKernel) (code : Int) (state' : MessagesKernel) :
    TableEntry → Prop
  | .setSignalHandler sigPrio sigHandler =>
      code = SUCCESS ∧ ∀ kthr,
        (∀ index, state'.handler kthr index =
          if kthr = state.activeThread ∧ index = sigPrio then sigHandler
          else state.handler kthr index) ∧
        (state'.thread kthr).msg.sigPrio = (state.thread kthr).msg.sigPrio ∧
        (state'.thread kthr).msg.minPrio = (state.thread kthr).msg.minPrio
  | .msgPost (some thr) (some msg) supply => ∀ kthr, state.kGetKthread thr = some kthr →
      if state.registered kthr msg.type ≠ 0 ∧ (state.thread kthr).msg.sigPrio ≤ msg.type then
        code = SUCCESS ∧
          state'.created = ⟨supply.kthread, state.registered kthr msg.type⟩ :: state.created
      else code = -E_IGNORED ∧ state'.created = state.created
  | _ => True

/-- The indexes with which the tables are accessed are theirs: handlers are set for types
that have an entry, and a signal has such a type unless its priority is too low. -/
def TableEntry.Meets (state : MessagesKernel) : TableEntry → Prop
  | .setSignalHandler sigPrio _ => 0 ≤ sigPrio ∧ sigPrio < HANDLER_NUM
  | .msgPost (some thr) (some msg) _ => ∀ kthr, state.kGetKthread thr = some kthr →
      (0 ≤ msg.type ∧ msg.type < HANDLER_NUM) ∨
        toUint msg.type < (state.thread kthr).msg.sigPrio
  | _ => True

/-- One entry that meets a condition. -/
def TableStep (meets : MessagesKernel → TableEntry → Prop) (state state' : MessagesKernel) :
    Prop :=
  ∃ entry code, meets state entry ∧ state.enter entry = .ok (code, state')

namespace MessagesKernel

variable {state state' state'' : MessagesKernel} {entry : TableEntry} {code : Int}
  {startFunc param exitFunc kthr kthr' value : Ptr} {prio index : Int} {supply : Supply}
  {ran : Int × MessagesKernel}

/-- The signal data and the records are the same. -/
structure SameSignals (state state' : MessagesKernel) : Prop where
  msg : ∀ kthr, (state'.thread kthr).msg = (state.thread kthr).msg
  accesses : state'.accesses = state.accesses
  created : state'.created = state.created
  registered : state'.registered = state.registered

section Frames

theorem SameSignals.trans (first : SameSignals state state') (second : SameSignals state' state'') :
    SameSignals state state'' where
  msg kthr := (second.msg kthr).trans (first.msg kthr)
  accesses := second.accesses.trans first.accesses
  created := second.created.trans first.created
  registered := second.registered.trans first.registered

theorem sameSignals_setThread {change : MsgThread → MsgThread}
    (keeps : ∀ thread, (change thread).msg = thread.msg) :
    SameSignals state (state.setThread kthr change) := by
  refine ⟨?_, rfl, rfl, rfl⟩
  intro other
  unfold setThread
  by_cases same : other = kthr
  · subst same
    simp [keeps]
  · simp [same]

theorem sameSignals_moveToReady : SameSignals state (state.moveToReady kthr) := by
  have marked : SameSignals state
      (state.setThread kthr fun thread => { thread with state := .ready }) :=
    sameSignals_setThread fun _ => rfl
  exact ⟨marked.msg, rfl, rfl, rfl⟩

theorem sameSignals_kScheduleThreads (result : state.kScheduleThreads = .ok state') :
    SameSignals state state' := by
  unfold kScheduleThreads at result
  dsimp only at result
  split at result
  · split at result
    · obtain rfl := Except.ok.inj result
      exact ⟨fun _ => rfl, rfl, rfl, rfl⟩
    · cases result
  · split at result
    · split at result
      · cases result
      · next next rest _ =>
        obtain rfl := Except.ok.inj result
        generalize chosen : (if state.activeThread ≠ 0 ∧
          (state.thread state.activeThread).state = .active then
            state.moveToReady state.activeThread else state) = ready
        have moved : SameSignals state ready := by
          rw [← chosen]
          split
          · exact sameSignals_moveToReady
          · exact ⟨fun _ => rfl, rfl, rfl, rfl⟩
        have marked : SameSignals ready
            (ready.setThread next fun thread => { thread with state := .active }) :=
          sameSignals_setThread fun _ => rfl
        exact moved.trans ⟨marked.msg, rfl, rfl, rfl⟩
    · obtain rfl := Except.ok.inj result
      exact ⟨fun _ => rfl, rfl, rfl, rfl⟩

theorem sameSignals_sysExit (state : MessagesKernel) (caller : Ptr) (errnum : Int) :
    SameSignals state (state.sysExit caller errnum).2 := by
  unfold sysExit
  dsimp only
  apply sameSignals_setThread
  intro thread
  rfl

theorem sameSignals_withOther {kernel : MessagesKernel} :
    SameSignals state (state.withOther kernel) :=
  ⟨fun _ => rfl, rfl, rfl, rfl⟩

theorem SameSignals.handler (same : SameSignals state state') (kthr : Ptr) (index : Int) :
    state'.handler kthr index = state.handler kthr index := by
  unfold MessagesKernel.handler
  rw [same.msg]

theorem handler_storeHandler :
    (state.storeHandler kthr index value).handler kthr' prio =
      if kthr' = kthr ∧ prio = index then value else state.handler kthr' prio := by
  unfold storeHandler setThread handler
  dsimp only
  by_cases same : kthr' = kthr
  · subst same
    by_cases here : prio = index
    · subst here
      simp
    · simp [here]
  · simp [same]

end Frames

section Creation

/-- What a loop that clears a part of a table does. -/
structure Clears (kthr : Ptr) (index : Int) (n : Nat) (state state' : MessagesKernel) : Prop where
  handler : ∀ kthr' place, state'.handler kthr' place =
    if kthr' = kthr ∧ index ≤ place ∧ place < index + n then 0 else state.handler kthr' place
  sigPrio : ∀ kthr', (state'.thread kthr').msg.sigPrio = (state.thread kthr').msg.sigPrio
  minPrio : ∀ kthr', (state'.thread kthr').msg.minPrio = (state.thread kthr').msg.minPrio
  created : state'.created = state.created
  registered : state'.registered = state.registered
  accesses : ∀ access, access ∈ state'.accesses ↔
    access ∈ state.accesses ∨ (index ≤ access ∧ access < index + n)

theorem storeHandler_msg (kthr' : Ptr) :
    ((state.storeHandler kthr index value).thread kthr').msg.sigPrio =
        (state.thread kthr').msg.sigPrio ∧
      ((state.storeHandler kthr index value).thread kthr').msg.minPrio =
        (state.thread kthr').msg.minPrio := by
  unfold storeHandler setThread
  dsimp only
  by_cases same : kthr' = kthr
  · subst same
    simp
  · simp [same]

theorem clears_clearHandlers (state : MessagesKernel) (kthr : Ptr) (n : Nat) (index : Int) :
    Clears kthr index n state (clearHandlers kthr n index state) := by
  induction n generalizing index state with
  | zero =>
      refine ⟨?_, fun _ => rfl, fun _ => rfl, rfl, rfl, ?_⟩
      · intro kthr' place
        rw [if_neg (by omega)]
        rfl
      · intro access
        constructor
        · exact .inl
        · rintro (old | new)
          · exact old
          · omega
  | succ n ih =>
      have rest := ih (state.storeHandler kthr index 0) (index + 1)
      refine ⟨?_, ?_, ?_, rest.created, rest.registered, ?_⟩
      · intro kthr' place
        refine (rest.handler kthr' place).trans ?_
        rw [handler_storeHandler]
        by_cases same : kthr' = kthr
        · by_cases first : place = index
          · rw [if_neg (by omega), if_pos ⟨same, first⟩, if_pos ⟨same, by omega⟩]
          · by_cases later : index + 1 ≤ place ∧ place < index + 1 + n
            · rw [if_pos ⟨same, later⟩, if_pos ⟨same, by omega⟩]
            · rw [if_neg (fun both => later both.2), if_neg (fun both => first both.2),
                if_neg (by omega)]
        · rw [if_neg (fun both => same both.1), if_neg (fun both => same both.1),
            if_neg (fun both => same both.1)]
      · exact fun kthr' => (rest.sigPrio kthr').trans (storeHandler_msg kthr').1
      · exact fun kthr' => (rest.minPrio kthr').trans (storeHandler_msg kthr').2
      · intro access
        refine (rest.accesses access).trans ?_
        unfold storeHandler setThread
        simp only [List.mem_append, List.mem_singleton]
        by_cases old : access ∈ state.accesses
        · simp [old]
        · simp only [old, false_or]
          omega

/-- What the creation of a thread does to the signal data. -/
structure Creates (new : StartedThread) (state state' : MessagesKernel) : Prop where
  created : state'.created = new :: state.created
  registered : state'.registered = Function.update state.registered new.kthread fun _ => 0
  cleared : ∀ index : Int, 0 ≤ index → index < HANDLER_NUM → state'.handler new.kthread index = 0
  others : ∀ kthr, kthr ≠ new.kthread → ∀ index, state'.handler kthr index = state.handler kthr index
  accesses : ∀ access, access ∈ state'.accesses ↔
    access ∈ state.accesses ∨ (0 ≤ access ∧ access < HANDLER_NUM)

theorem Creates.after (creates : Creates ⟨kthr, startFunc⟩ state state')
    (same : SameSignals state' state'') : Creates ⟨kthr, startFunc⟩ state state'' where
  created := same.created.trans creates.created
  registered := same.registered.trans creates.registered
  cleared index low high := (same.handler ..).trans (creates.cleared index low high)
  others kthr other index := (same.handler ..).trans (creates.others kthr other index)
  accesses access := by rw [same.accesses, creates.accesses]

theorem handler_setPrio {minPrio sigPrio : Nat} :
    (state.setThread kthr fun thread => { thread with
      msg := { thread.msg with minPrio := minPrio, sigPrio := sigPrio } }).handler kthr' index =
        state.handler kthr' index := by
  unfold setThread handler
  dsimp only
  by_cases same : kthr' = kthr
  · subst same
    simp
  · simp [same]

theorem creates_kCreateThread
    (result : state.kCreateThread startFunc param exitFunc prio supply = .ok state') :
    Creates ⟨supply.kthread, startFunc⟩ state state' := by
  unfold kCreateThread at result
  split at result
  · cases result
  · obtain rfl := Except.ok.inj result
    generalize filled : state.setThread supply.kthread _ = first
    have sameFirst : SameSignals state first := by
      rw [← filled]
      exact sameSignals_setThread fun _ => rfl
    generalize stacked : (first.moveToReady supply.kthread).setThread supply.kthread _ = second
    have sameSecond : SameSignals state second := by
      rw [← stacked]
      exact (sameFirst.trans sameSignals_moveToReady).trans (sameSignals_setThread fun _ => rfl)
    have cleared := clears_clearHandlers (second.setThread supply.kthread fun thread =>
      { thread with msg := { thread.msg with minPrio := 0, sigPrio := 0 } }) supply.kthread
        HANDLER_NUM 0
    refine ⟨?_, ?_, ?_, ?_, ?_⟩
    · exact congrArg _ (cleared.created.trans sameSecond.created)
    · show Function.update _ _ _ = _
      rw [← sameSecond.registered]
      exact congrArg (fun registered => Function.update registered supply.kthread fun _ => 0)
        cleared.registered
    · intro index low high
      refine (cleared.handler supply.kthread index).trans ?_
      rw [if_pos ⟨rfl, low, by omega⟩]
    · intro kthr other index
      refine (cleared.handler kthr index).trans ?_
      rw [if_neg (fun both => other both.1), handler_setPrio, sameSecond.handler]
    · intro access
      refine (cleared.accesses access).trans ?_
      rw [Int.zero_add]
      exact or_congr_left (by rw [← sameSecond.accesses]; rfl)

end Creation

section Calls

theorem sysCreateThread_ok {func : Ptr}
    (result : state.sysCreateThread func param prio supply = .ok ran) :
    SameSignals state ran.2 ∨ Creates ⟨supply.kthread, func⟩ state ran.2 := by
  unfold sysCreateThread at result
  split at result
  · obtain rfl := Except.ok.inj result
    exact .inl (sameSignals_sysExit ..)
  · obtain ⟨created, creates, rest⟩ := bind_ok result
    obtain ⟨scheduled, schedules, rest⟩ := bind_ok rest
    obtain rfl := Except.ok.inj rest
    exact .inr ((creates_kCreateThread creates).after
      ((sameSignals_kScheduleThreads schedules).trans (sameSignals_sysExit ..)))

/-- A signal that is served creates a thread at the handler for its type. -/
theorem serveSignal_ok {msg : Msg} (result : state.serveSignal kthr msg supply = .ok ran) :
    ran.1 = SUCCESS ∧
      Creates ⟨supply.kthread, state.handler kthr msg.type⟩ (state.loadHandler msg.type) ran.2 := by
  obtain ⟨created, creates, rest⟩ := bind_ok result
  obtain ⟨scheduled, schedules, rest⟩ := bind_ok rest
  obtain rfl := Except.ok.inj rest
  refine ⟨rfl, ?_⟩
  have made := creates_kCreateThread creates
  have stored : SameSignals created (created.setThread supply.kthread fun thread =>
      { thread with privateStorage := supply.cmsg }) := sameSignals_setThread fun _ => rfl
  have served := made.after
    ((stored.trans (sameSignals_kScheduleThreads schedules)).trans
      (sameSignals_sysExit scheduled state.activeThread SUCCESS))
  exact ⟨served.created, served.registered, served.cleared, served.others, served.accesses⟩

theorem threadMsgSet_ok {minMsgPrio : Nat} {minSigPrio : Int}
    (enters : state.enter (.threadMsgSet minMsgPrio minSigPrio) = .ok (code, state')) :
    (∀ kthr index, state'.handler kthr index =
      if kthr = state.activeThread ∧ 0 ≤ index ∧ index < HANDLER_NUM then 0
      else state.handler kthr index) ∧
    state'.registered = Function.update state.registered state.activeThread (fun _ => 0) ∧
    ∀ access, access ∈ state'.accesses ↔
      access ∈ state.accesses ∨ (0 ≤ access ∧ access < HANDLER_NUM) := by
  obtain rfl := (Prod.mk.inj (Except.ok.inj enters)).2
  have cleared := clears_clearHandlers (state.setThread state.activeThread fun thread =>
    { thread with
      msg := { thread.msg with minPrio := minMsgPrio, sigPrio := toUint minSigPrio } })
    state.activeThread HANDLER_NUM 0
  refine ⟨?_, ?_, ?_⟩
  · intro kthr index
    refine ((sameSignals_sysExit ..).handler kthr index).trans ?_
    refine (cleared.handler kthr index).trans ?_
    rw [Int.zero_add, handler_setPrio]
  · refine (sameSignals_sysExit ..).registered.trans ?_
    exact congrArg (fun registered => Function.update registered state.activeThread fun _ => 0)
      cleared.registered
  · intro access
    refine (cleared.accesses access).trans ?_
    rw [Int.zero_add]
    rfl

theorem setSignalHandler_ok {sigPrio : Int} {sigHandler : Ptr}
    (enters : state.enter (.setSignalHandler sigPrio sigHandler) = .ok (code, state')) :
    TableEntry.Obeys state code state' (.setSignalHandler sigPrio sigHandler) ∧
    state'.registered = Function.update state.registered state.activeThread
      (Function.update (state.registered state.activeThread) sigPrio sigHandler) ∧
    state'.accesses = state.accesses ++ [sigPrio] := by
  obtain ⟨rfl, rfl⟩ := Prod.mk.inj (Except.ok.inj enters)
  have exits := sameSignals_sysExit { state.storeHandler state.activeThread sigPrio sigHandler with
    registered := Function.update state.registered state.activeThread
      (Function.update (state.registered state.activeThread) sigPrio sigHandler) }
    state.activeThread SUCCESS
  refine ⟨⟨rfl, ?_⟩, exits.registered, exits.accesses⟩
  intro kthr
  refine ⟨?_, ?_, ?_⟩
  · intro index
    refine (exits.handler kthr index).trans ?_
    exact handler_storeHandler
  · refine (congrArg ThreadMsg.sigPrio (exits.msg kthr)).trans ?_
    exact (storeHandler_msg kthr).1
  · refine (congrArg ThreadMsg.minPrio (exits.msg kthr)).trans ?_
    exact (storeHandler_msg kthr).2

end Calls

/-- The tables hold what was registered last, and nothing was registered elsewhere. -/
structure Tracked (state : MessagesKernel) : Prop where
  table : ∀ kthr (index : Int), 0 ≤ index → index < HANDLER_NUM →
    state.handler kthr index = state.registered kthr index
  outside : ∀ kthr (index : Int), ¬ (0 ≤ index ∧ index < HANDLER_NUM) →
    state.registered kthr index = 0

section Runs

theorem Tracked.same (tracked : state.Tracked) (same : SameSignals state state') :
    state'.Tracked := by
  constructor
  · intro kthr index low high
    rw [same.handler, same.registered]
    exact tracked.table kthr index low high
  · intro kthr index outside
    rw [same.registered]
    exact tracked.outside kthr index outside

theorem Tracked.load (tracked : state.Tracked) : (state.loadHandler index).Tracked :=
  ⟨tracked.table, tracked.outside⟩

theorem Tracked.creates {new : StartedThread} (tracked : state.Tracked)
    (creates : Creates new state state') : state'.Tracked := by
  constructor
  · intro kthr index low high
    rw [creates.registered]
    by_cases same : kthr = new.kthread
    · subst same
      rw [creates.cleared index low high, Function.update_self]
    · rw [creates.others kthr same, Function.update_of_ne same]
      exact tracked.table kthr index low high
  · intro kthr index outside
    rw [creates.registered]
    by_cases same : kthr = new.kthread
    · subst same
      rw [Function.update_self]
    · rw [Function.update_of_ne same]
      exact tracked.outside kthr index outside

/-- What a post does: it ends with an error, or serves a signal that has a handler. -/
inductive PostCase (state : MessagesKernel) (supply : Supply) (dest : Option Handle)
    (msg : Option Msg) : Int × MessagesKernel → Prop
  | refused {ran : Int × MessagesKernel} (same : SameSignals state ran.2)
      (noTarget : ∀ thr signal kthr, dest = some thr → msg = some signal →
        state.kGetKthread thr ≠ some kthr) : PostCase state supply dest msg ran
  | low {ran : Int × MessagesKernel} {thr : Handle} {signal : Msg} {kthr : Ptr}
      (isDest : dest = some thr) (isMsg : msg = some signal)
      (target : state.kGetKthread thr = some kthr)
      (below : toUint signal.type < (state.thread kthr).msg.sigPrio)
      (ignored : ran.1 = -E_IGNORED) (same : SameSignals state ran.2) :
      PostCase state supply dest msg ran
  | empty {ran : Int × MessagesKernel} {thr : Handle} {signal : Msg} {kthr : Ptr}
      (isDest : dest = some thr) (isMsg : msg = some signal)
      (target : state.kGetKthread thr = some kthr)
      (reaches : (state.thread kthr).msg.sigPrio ≤ toUint signal.type)
      (null : state.handler kthr signal.type = 0)
      (ignored : ran.1 = -E_IGNORED) (same : SameSignals (state.loadHandler signal.type) ran.2) :
      PostCase state supply dest msg ran
  | served {ran : Int × MessagesKernel} {thr : Handle} {signal : Msg} {kthr : Ptr}
      (isDest : dest = some thr) (isMsg : msg = some signal)
      (target : state.kGetKthread thr = some kthr)
      (reaches : (state.thread kthr).msg.sigPrio ≤ toUint signal.type)
      (nonzero : state.handler kthr signal.type ≠ 0) (success : ran.1 = SUCCESS)
      (creates : Creates ⟨supply.kthread, state.handler kthr signal.type⟩
        ((state.loadHandler signal.type).loadHandler signal.type) ran.2) :
      PostCase state supply dest msg ran

theorem sysMsgPost_cases {dest : Option Handle} {msg : Option Msg}
    (result : state.sysMsgPost dest msg supply = .ok ran) :
    PostCase state supply dest msg ran := by
  unfold sysMsgPost at result
  dsimp only at result
  split at result
  case h_2 none =>
    obtain rfl := Except.ok.inj result
    exact .refused (sameSignals_sysExit ..) fun thr signal _ isDest isMsg =>
      absurd isMsg (none thr signal isDest)
  case h_1 thr signal =>
    split at result
    · next unknown =>
      obtain rfl := Except.ok.inj result
      refine .refused (sameSignals_sysExit ..) fun thr' signal' kthr isDest _ target => ?_
      obtain rfl := Option.some.inj isDest
      rw [unknown] at target
      cases target
    · next kthr target =>
      split at result
      · next reaches =>
        split at result
        · next nonzero =>
          obtain ⟨success, creates⟩ := serveSignal_ok result
          exact .served rfl rfl target reaches nonzero success creates
        · next null =>
          obtain rfl := Except.ok.inj result
          exact .empty rfl rfl target reaches (not_not.mp null) rfl (sameSignals_sysExit ..)
      · next below =>
        obtain rfl := Except.ok.inj result
        exact .low rfl rfl target (Nat.not_le.mp below) rfl (sameSignals_sysExit ..)

theorem toUint_inside (low : 0 ≤ index) (high : index < HANDLER_NUM) :
    (toUint index : Int) = index := by
  unfold HANDLER_NUM at high
  unfold toUint
  omega

theorem AccessesInside.of_iff (inside : state.AccessesInside)
    (accesses : ∀ access, access ∈ state'.accesses ↔
      access ∈ state.accesses ∨ (0 ≤ access ∧ access < HANDLER_NUM)) :
    state'.AccessesInside := by
  intro access mem
  exact ((accesses access).mp mem).elim (inside access) id

theorem AccessesInside.same (inside : state.AccessesInside) (same : SameSignals state state') :
    state'.AccessesInside := by
  unfold AccessesInside
  rw [same.accesses]
  exact inside

theorem AccessesInside.load_iff (inside : state.AccessesInside) :
    (state.loadHandler index).AccessesInside ↔ 0 ≤ index ∧ index < HANDLER_NUM := by
  unfold AccessesInside loadHandler
  dsimp only
  constructor
  · intro all
    exact all index (List.mem_append_right _ (List.mem_singleton_self _))
  · intro here access mem
    rcases List.mem_append.mp mem with old | new
    · exact inside access old
    · rw [List.mem_singleton.mp new]
      exact here

/-- An entry that meets the condition keeps the tables tracked. -/
theorem Tracked.enter (tracked : state.Tracked) (meets : entry.Meets state)
    (enters : state.enter entry = .ok (code, state')) : state'.Tracked := by
  cases entry with
  | threadMsgSet minMsgPrio minSigPrio =>
      obtain ⟨handler, registered, -⟩ := threadMsgSet_ok enters
      constructor
      · intro kthr index low high
        rw [handler, registered]
        by_cases same : kthr = state.activeThread
        · rw [if_pos ⟨same, low, high⟩, same, Function.update_self]
        · rw [if_neg (fun both => same both.1), Function.update_of_ne same]
          exact tracked.table kthr index low high
      · intro kthr index outside
        rw [registered]
        by_cases same : kthr = state.activeThread
        · rw [same, Function.update_self]
        · rw [Function.update_of_ne same]
          exact tracked.outside kthr index outside
  | setSignalHandler sigPrio sigHandler =>
      obtain ⟨⟨-, obeys⟩, registered, -⟩ := setSignalHandler_ok enters
      constructor
      · intro kthr index low high
        rw [(obeys kthr).1, registered]
        by_cases same : kthr = state.activeThread
        · rw [same, Function.update_self]
          by_cases here : index = sigPrio
          · rw [if_pos ⟨rfl, here⟩, here, Function.update_self]
          · rw [if_neg (fun both => here both.2), Function.update_of_ne here]
            exact tracked.table _ index low high
        · rw [if_neg (fun both => same both.1), Function.update_of_ne same]
          exact tracked.table kthr index low high
      · intro kthr index outside
        rw [registered]
        by_cases same : kthr = state.activeThread
        · have other : index ≠ sigPrio := by
            rintro rfl
            exact outside meets
          rw [same, Function.update_self, Function.update_of_ne other]
          exact tracked.outside _ index outside
        · rw [Function.update_of_ne same]
          exact tracked.outside kthr index outside
  | msgPost dest msg supply =>
      cases sysMsgPost_cases enters with
      | refused same => exact tracked.same same
      | low _ _ _ _ _ same => exact tracked.same same
      | empty _ _ _ _ _ _ same => exact tracked.load.same same
      | served _ _ _ _ _ _ creates => exact tracked.load.load.creates creates
  | sysCreateThread func param prio supply =>
      rcases sysCreateThread_ok enters with same | creates
      · exact tracked.same same
      · exact tracked.creates creates
  | kCreateThread startFunc param exitFunc prio supply =>
      obtain ⟨created, creates, result⟩ := map_ok enters
      obtain rfl := (Prod.mk.inj result).2
      exact tracked.creates (creates_kCreateThread creates)
  | other kernel =>
      obtain rfl := (Prod.mk.inj (Except.ok.inj enters)).2
      exact tracked.same sameSignals_withOther

/-- A type that is not below the priority of a target, as numbers without a sign, is at least
that priority or has no entry. -/
theorem Tracked.reaches_iff (tracked : state.Tracked) :
    state.registered kthr index ≠ 0 ∧ (state.thread kthr).msg.sigPrio ≤ index ↔
      (0 ≤ index ∧ index < HANDLER_NUM) ∧ state.handler kthr index ≠ 0 ∧
        (state.thread kthr).msg.sigPrio ≤ toUint index := by
  by_cases here : 0 ≤ index ∧ index < HANDLER_NUM
  · have same := toUint_inside here.1 here.2
    rw [tracked.table kthr index here.1 here.2]
    constructor
    · rintro ⟨nonzero, reaches⟩
      exact ⟨here, nonzero, by omega⟩
    · rintro ⟨-, nonzero, reaches⟩
      exact ⟨nonzero, by omega⟩
  · constructor
    · rintro ⟨nonzero, -⟩
      exact absurd (tracked.outside kthr index here) nonzero
    · exact fun both => absurd both.1 here

/-- An entry keeps its accesses inside and obeys exactly if it meets the condition. -/
theorem Tracked.enter_iff (tracked : state.Tracked) (inside : state.AccessesInside)
    (enters : state.enter entry = .ok (code, state')) :
    state'.AccessesInside ∧ entry.Obeys state code state' ↔ entry.Meets state := by
  cases entry with
  | threadMsgSet minMsgPrio minSigPrio =>
      obtain ⟨-, -, accesses⟩ := threadMsgSet_ok enters
      exact ⟨fun _ => trivial, fun _ => ⟨inside.of_iff accesses, trivial⟩⟩
  | setSignalHandler sigPrio sigHandler =>
      obtain ⟨obeys, -, accesses⟩ := setSignalHandler_ok enters
      have loads : state'.AccessesInside ↔ (state.loadHandler sigPrio).AccessesInside := by
        unfold AccessesInside loadHandler
        rw [accesses]
      rw [loads, inside.load_iff]
      exact ⟨fun both => both.1, fun meets => ⟨meets, obeys⟩⟩
  | msgPost dest msg supply =>
      cases sysMsgPost_cases enters with
      | refused same noTarget =>
          refine ⟨fun _ => ?_, fun _ => ⟨inside.same same, ?_⟩⟩
          · match dest, msg with
            | some thr, some signal =>
                exact fun kthr target => absurd target (noTarget thr signal kthr rfl rfl)
            | some _, none | none, some _ | none, none => trivial
          · match dest, msg with
            | some thr, some signal =>
                exact fun kthr target => absurd target (noTarget thr signal kthr rfl rfl)
            | some _, none | none, some _ | none, none => trivial
      | @low thr signal kthr isDest isMsg target below ignored same =>
          subst isDest isMsg
          have isCode : code = -E_IGNORED := ignored
          constructor
          · intro _ kthr' target'
            obtain rfl := Option.some.inj (target.symm.trans target')
            exact .inr below
          · refine fun _ => ⟨inside.same same, fun kthr' target' => ?_⟩
            obtain rfl := Option.some.inj (target.symm.trans target')
            rw [if_neg]
            · exact ⟨isCode, same.created⟩
            · rw [tracked.reaches_iff]
              exact fun both => absurd both.2.2 (Nat.not_le.mpr below)
      | @empty thr signal kthr isDest isMsg target reaches null ignored same =>
          subst isDest isMsg
          have isCode : code = -E_IGNORED := ignored
          have loads : state'.AccessesInside ↔ 0 ≤ signal.type ∧ signal.type < HANDLER_NUM := by
            rw [← inside.load_iff]
            unfold AccessesInside
            rw [same.accesses]
          rw [loads]
          constructor
          · rintro ⟨here, -⟩ kthr' target'
            exact .inl here
          · intro meets
            have here := (meets kthr target).resolve_right (Nat.not_lt.mpr reaches)
            refine ⟨here, fun kthr' target' => ?_⟩
            obtain rfl := Option.some.inj (target.symm.trans target')
            rw [if_neg]
            · exact ⟨isCode, same.created⟩
            · rw [tracked.reaches_iff]
              exact fun both => both.2.1 null
      | @served thr signal kthr isDest isMsg target reaches nonzero success creates =>
          subst isDest isMsg
          have isCode : code = SUCCESS := success
          have created := creates.created
          have loads : state'.AccessesInside ↔ 0 ≤ signal.type ∧ signal.type < HANDLER_NUM := by
            constructor
            · intro all
              apply all
              rw [creates.accesses]
              exact .inl (List.mem_append_right _ (List.mem_singleton_self _))
            · intro here
              have once := inside.load_iff.mpr here
              exact (once.load_iff.mpr here).of_iff creates.accesses
          rw [loads]
          constructor
          · rintro ⟨here, -⟩ kthr' target'
            exact .inl here
          · intro meets
            have here := (meets kthr target).resolve_right (Nat.not_lt.mpr reaches)
            refine ⟨here, fun kthr' target' => ?_⟩
            obtain rfl := Option.some.inj (target.symm.trans target')
            rw [if_pos (tracked.reaches_iff.mpr ⟨here, nonzero, reaches⟩)]
            refine ⟨isCode, ?_⟩
            rw [← tracked.table kthr signal.type here.1 here.2]
            exact created
  | sysCreateThread func param prio supply =>
      refine ⟨fun _ => trivial, fun _ => ⟨?_, trivial⟩⟩
      rcases sysCreateThread_ok enters with same | creates
      · exact inside.same same
      · exact inside.of_iff creates.accesses
  | kCreateThread startFunc param exitFunc prio supply =>
      obtain ⟨created, creates, result⟩ := map_ok enters
      obtain rfl := (Prod.mk.inj result).2
      exact ⟨fun _ => trivial, fun _ =>
        ⟨inside.of_iff (creates_kCreateThread creates).accesses, trivial⟩⟩
  | other kernel =>
      obtain rfl := (Prod.mk.inj (Except.ok.inj enters)).2
      exact ⟨fun _ => trivial, fun _ => ⟨inside.same sameSignals_withOther, trivial⟩⟩

theorem start_ok {idleThread init exit : Ptr} {idle second : Supply}
    (started : start idleThread init exit prio idle second = .ok state) :
    state.Tracked ∧ state.AccessesInside := by
  obtain ⟨one, creates, rest⟩ := bind_ok started
  obtain ⟨two, creates', schedules⟩ := bind_ok rest
  have scheduled := sameSignals_kScheduleThreads schedules
  have madeOne := creates_kCreateThread creates
  have madeTwo := creates_kCreateThread creates'
  constructor
  · apply Tracked.same _ scheduled
    apply Tracked.creates _ madeTwo
    apply Tracked.creates _ madeOne
    exact ⟨fun _ _ _ _ => rfl, fun _ _ _ => rfl⟩
  · apply AccessesInside.same _ scheduled
    apply AccessesInside.of_iff _ madeTwo.accesses
    apply AccessesInside.of_iff _ madeOne.accesses
    intro access mem
    cases mem

/-- In every run whose entries meet the condition all accesses to tables of handlers are
inside; and a further entry keeps this and obeys exactly if it meets the condition, too. -/
theorem handler_table_run {first : MessagesKernel} {idleThread init exit : Ptr} {prio : Int}
    {idle second : Supply} (started : start idleThread init exit prio idle second = .ok first)
    (run : Relation.ReflTransGen (TableStep fun state entry => entry.Meets state) first state) :
    state.AccessesInside ∧ ∀ entry code state', state.enter entry = .ok (code, state') →
      (state'.AccessesInside ∧ entry.Obeys state code state' ↔ entry.Meets state) := by
  have kept : state.Tracked ∧ state.AccessesInside := by
    induction run with
    | refl => exact start_ok started
    | tail _ step ih =>
        obtain ⟨entry, code, meets, enters⟩ := step
        exact ⟨ih.1.enter meets enters, ((ih.1.enter_iff ih.2 enters).mpr meets).1⟩
  exact ⟨kept.2, fun entry code state' enters => kept.1.enter_iff kept.2 enters⟩

/-- The first thread sets a handler for the type 3 and posts a signal of this type to itself. -/
theorem handler_table_run_sample :
    ∃ first state state', start 4096 8192 12288 20 ⟨0, 50, 200, 1⟩ ⟨0, 60, 300, 2⟩ = .ok first ∧
      Relation.ReflTransGen (TableStep fun state entry => entry.Meets state) first state ∧
      state.enter (.msgPost (some ⟨300, 2⟩) (some ⟨3, 0, fun _ => 0⟩) ⟨70, 80, 400, 3⟩) =
        .ok (SUCCESS, state') ∧
      state'.AccessesInside ∧ TableEntry.Obeys state SUCCESS state'
        (.msgPost (some ⟨300, 2⟩) (some ⟨3, 0, fun _ => 0⟩) ⟨70, 80, 400, 3⟩) := by
  have evaluated : (do
      let first ← start 4096 8192 12288 20 ⟨0, 50, 200, 1⟩ ⟨0, 60, 300, 2⟩
      let second ← first.enter (.threadMsgSet 0 1)
      let third ← second.2.enter (.setSignalHandler 3 16384)
      let fourth ← third.2.enter
        (.msgPost (some ⟨300, 2⟩) (some ⟨3, 0, fun _ => 0⟩) ⟨70, 80, 400, 3⟩)
      return decide (fourth.1 = SUCCESS ∧ fourth.2.created.head? = some ⟨400, 16384⟩)) =
        (.ok true : Except Fault Bool) := by decide +kernel
  obtain ⟨first, started, evaluated⟩ := bind_ok evaluated
  obtain ⟨⟨code, second⟩, resets, evaluated⟩ := bind_ok evaluated
  obtain ⟨⟨code', third⟩, sets, evaluated⟩ := bind_ok evaluated
  obtain ⟨⟨code'', fourth⟩, posts, evaluated⟩ := bind_ok evaluated
  obtain ⟨success, -⟩ := of_decide_eq_true (Except.ok.inj evaluated)
  obtain rfl : code'' = SUCCESS := success
  have run : Relation.ReflTransGen (TableStep fun state entry => entry.Meets state) first third :=
    (Relation.ReflTransGen.single ⟨.threadMsgSet 0 1, code, trivial, resets⟩).tail
      ⟨.setSignalHandler 3 16384, code', (by decide : (0 : Int) ≤ 3 ∧ (3 : Int) < HANDLER_NUM), sets⟩
  refine ⟨first, third, fourth, started, run, posts, ?_⟩
  refine ((handler_table_run started run).2 _ _ _ posts).mpr ?_
  exact fun kthr _ => .inl (by decide : (0 : Int) ≤ 3 ∧ (3 : Int) < HANDLER_NUM)

/-- The first thread sets a handler for the type 10. -/
theorem handler_table_run_fail :
    ¬ ∀ idleThread init exit prio idle second first state,
      start idleThread init exit prio idle second = .ok first →
      Relation.ReflTransGen (TableStep fun _ _ => True) first state → state.AccessesInside := by
  intro claim
  have evaluated : (do
      let first ← start 4096 8192 12288 20 ⟨0, 50, 200, 1⟩ ⟨0, 60, 300, 2⟩
      let second ← first.enter (.setSignalHandler 10 16384)
      return decide ((10 : Int) ∈ second.2.accesses)) = (.ok true : Except Fault Bool) := by
    decide +kernel
  obtain ⟨first, started, evaluated⟩ := bind_ok evaluated
  obtain ⟨⟨code, second⟩, sets, evaluated⟩ := bind_ok evaluated
  have mem : (10 : Int) ∈ second.accesses := of_decide_eq_true (Except.ok.inj evaluated)
  have inside := claim _ _ _ _ _ _ first second started
    (Relation.ReflTransGen.single ⟨.setSignalHandler 10 16384, code, trivial, sets⟩) 10 mem
  revert inside
  decide

end Runs

end MessagesKernel

end Oseer
