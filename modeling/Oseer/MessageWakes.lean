import Oseer.Library.TypedCalls
import Oseer.MessageDelivery
import Oseer.Waiting

/-!
# The threads that wait for a queue of messages

`sys__msg_post` releases the first thread of `thrq`, and `receive_message` tries again, where
other threads may have taken the messages.  The thread that is released need not be one that
waits for the type of the message, and it may be cancelled before it tries again: then another
thread keeps waiting while its message is in the queue.
-/

namespace Oseer

open LinkedRing Results TypedCalls

variable {kernel kernel' : Kernel} {idle thread kmsg : Ptr} {alive : Set Ptr}
  {members members' : Members} {all : List Ptr} {queue other : MsgqId}
  {lists : MsgqId → List Ptr} {type code : Int} {size flags : Nat} {msg : Msg} {status : Int}

/-- The types that a receive accepts. -/
def filterOf (type : Int) : Option Int := if type = 0 then none else some type

/-- The types of the messages in a queue. -/
def Kernel.kinds (kernel : Kernel) (lists : MsgqId → List Ptr) (queue : MsgqId) : List Int :=
  (lists queue).map fun kmsg => (kernel.kmsgs kmsg).type

/-- The message that a receive finds. -/
def Kernel.Finds (kernel : Kernel) (lists : MsgqId → List Ptr) (queue : MsgqId) (type : Int)
    (kmsg : Ptr) : Prop :=
  ∃ before after, lists queue = before ++ kmsg :: after ∧ (type = 0 → before = []) ∧
    (type ≠ 0 → (kernel.kmsgs kmsg).type = type ∧
      ∀ other ∈ before, (kernel.kmsgs other).type ≠ type)

/-- What a thread asks for in `receive_message`. -/
structure MsgRequest where
  type : Int
  size : Nat
  flags : Nat

/-- The kernel with the threads alive, what each thread asked for last, and the threads that were
released from `thrq` and have not tried again. -/
structure WakeRun where
  kernel : Kernel
  live : Set Ptr
  asked : Ptr → MsgRequest
  released : List Ptr

namespace WakeRun

/-- The active thread. -/
def self (run : WakeRun) : Ptr := run.kernel.activeThread

/-- What a thread waits for. -/
def filter (run : WakeRun) (thread : Ptr) : Option Int := filterOf (run.asked thread).type

/-- What the threads that were released wait for. -/
def calls (run : WakeRun) : List (Option Int) := run.released.map run.filter

/-- The thread that a post releases, if one waits. -/
def woken (run : WakeRun) (queue : MsgqId) : List Ptr :=
  if run.kernel.sched.kthreadqGet (.thrq queue) = 0 then []
  else [run.kernel.sched.kthreadqGet (.thrq queue)]

/-- A message of the type is left to no thread that keeps waiting. -/
def Answers (run : WakeRun) (queue : MsgqId) (type : Int) : Prop :=
  ∀ lists members thread rest, run.kernel.Stored lists →
    run.kernel.sched.queues.Linked members → members (.thrq queue) = thread :: rest →
      Answered (run.kernel.kinds lists queue) run.calls (run.filter thread) (rest.map run.filter)
        type

/-- The threads that were released take all the messages that others wait for, also without
this one. -/
def Dispensable (run : WakeRun) (queue : MsgqId) (thread : Ptr) : Prop :=
  ∀ lists members, run.kernel.Stored lists → run.kernel.sched.queues.Linked members →
    Safe (run.kernel.kinds lists queue) ((run.released.erase thread).map run.filter)
      ((members (.thrq queue)).map run.filter)

/-- The message that the active thread finds does not fit. -/
def TooLarge (run : WakeRun) (queue : MsgqId) : Prop :=
  ∃ lists kmsg, run.kernel.Stored lists ∧
    run.kernel.Finds lists queue (run.asked run.self).type kmsg ∧
      (run.asked run.self).size < (run.kernel.kmsgs kmsg).size

/-- A change of the kernel outside of the queue and of the threads that wait for it. -/
def Spared (idle : Ptr) (queue : MsgqId) (run : WakeRun) (kernel : Kernel) (live : Set Ptr) :
    Prop :=
  ∀ members all lists, Coherent run.kernel idle run.live members all → run.kernel.Stored lists →
    ∃ members' all' lists', Coherent kernel idle live members' all' ∧ kernel.Stored lists' ∧
      members' (.thrq queue) = members (.thrq queue) ∧ lists' queue = lists queue ∧
      ∀ kmsg ∈ lists queue, kernel.kmsgs kmsg = run.kernel.kmsgs kmsg

end WakeRun

/-- A message is posted, a thread receives or tries again, a thread is cancelled, or anything
else happens.  Where `careful` holds a message that is posted comes in reach of the threads that
are released, and no thread is lost to the others that was released. -/
inductive WakeStep (idle : Ptr) (queue : MsgqId) (careful : Prop) : WakeRun → WakeRun → Prop
  | post {run : WakeRun} {kernel : Kernel} {code : Int} (dest : MsgDest) (msg : Msg) (kmsg : Ptr)
      (ready : run.self ∉ run.released)
      (fresh : kmsg ≠ 0 → kmsg < addressCount ∧
        ∀ lists, run.kernel.Stored lists → ∀ other, kmsg ∉ lists other)
      (found : run.kernel.destination dest = .ok queue)
      (result : run.kernel.postAt dest msg kmsg = .ok (code, kernel))
      (answers : careful → kmsg ≠ 0 → run.kernel.minPrio queue ≤ toUint msg.type →
        run.Answers queue msg.type) :
      WakeStep idle queue careful run { run with
        kernel := kernel
        released := run.released ++ if code = -SUCCESS then run.woken queue else [] }
  | receive {run : WakeRun} {kernel : Kernel} {code : Int} {got : Option Msg} (src : MsgSource)
      (request : MsgRequest) (ready : run.self ∉ run.released) (notIdle : run.self ≠ idle)
      (found : run.kernel.source src = .ok queue)
      (result : run.kernel.msgRecv src request.type request.size request.flags =
        .ok (code, got, kernel)) :
      WakeStep idle queue careful run { run with
        kernel := kernel
        asked := Function.update run.asked run.self request }
  | retry {run : WakeRun} {kernel : Kernel} {code : Int} {got : Option Msg} (src : MsgSource)
      (called : run.self ∈ run.released) (notIdle : run.self ≠ idle)
      (found : run.kernel.source src = .ok queue)
      (result : run.kernel.msgRecv src (run.asked run.self).type (run.asked run.self).size
        (run.asked run.self).flags = .ok (code, got, kernel))
      (dispensable : careful → run.TooLarge queue → run.Dispensable queue run.self) :
      WakeStep idle queue careful run { run with
        kernel := kernel
        released := run.released.erase run.self }
  | cancel {run : WakeRun} {ended : Int × Kernel} (kthread : Ptr) (status : Int)
      (mem : kthread ∈ run.live) (notIdle : kthread ≠ idle) (inactive : kthread ≠ run.self)
      (notOwner : queue ≠ .thread kthread)
      (result : run.kernel.kthreadCancel kthread status = .ok ended)
      (dispensable : careful → kthread ∈ run.released → run.Dispensable queue kthread) :
      WakeStep idle queue careful run { run with
        kernel := ended.2
        live := run.live \ {kthread}
        released := run.released.erase kthread }
  | other {run : WakeRun} {kernel : Kernel} {live : Set Ptr}
      (spared : run.Spared idle queue kernel live) :
      WakeStep idle queue careful run { run with kernel := kernel, live := live }

section Calls

theorem accepts_filterOf {kind : Int} : Accepts (filterOf type) kind ↔ type = 0 ∨ type = kind := by
  unfold Accepts filterOf
  split
  · simp_all
  · simp_all

/-- The message that is found has the type that its receiver takes out of the types. -/
theorem kinds_take {before after : List Ptr}
    (place : lists queue = before ++ kmsg :: after) (first : type = 0 → before = [])
    (typed : type ≠ 0 → (kernel.kmsgs kmsg).type = type ∧
      ∀ other ∈ before, (kernel.kmsgs other).type ≠ type) :
    (before ++ after).map (fun kmsg => (kernel.kmsgs kmsg).type) =
      take (filterOf type) (kernel.kinds lists queue) := by
  unfold Kernel.kinds filterOf take
  rw [place]
  by_cases any : type = 0
  · rw [if_pos any, first any]
    rfl
  · obtain ⟨isType, others⟩ := typed any
    have notBefore : type ∉ before.map fun kmsg => (kernel.kmsgs kmsg).type := by
      intro mem
      obtain ⟨other, inBefore, same⟩ := List.mem_map.mp mem
      exact others other inBefore same
    rw [if_neg any, List.map_append, List.map_append, List.map_cons, isType]
    dsimp only
    rw [List.erase_append_right _ notBefore, List.erase_cons_head]

/-- What `sys__msg_recv` does with the kernel: it takes a message, it finds one that is too
large, or it finds none. -/
theorem Kernel.recvFrom_cases (stored : kernel.Stored lists) {ran : Int × Option Msg × Kernel}
    (result : kernel.recvFrom queue type size flags = .ok ran) :
    (∃ before kmsg after, lists queue = before ++ kmsg :: after ∧ (type = 0 → before = []) ∧
      (type ≠ 0 → (kernel.kmsgs kmsg).type = type ∧
        ∀ other ∈ before, (kernel.kmsgs other).type ≠ type) ∧
      ∃ msgs block, msgs.Linked (Function.update lists queue (before ++ after)) ∧
        ran.2.2 = (({ kernel with msgs := msgs } : Kernel).kfree block).setErrno SUCCESS) ∨
    (∃ kmsg, kernel.Finds lists queue type kmsg ∧ size < (kernel.kmsgs kmsg).size ∧
      ran.2.2 = kernel.setErrno E_TOO_BIG) ∨
    ((∀ kind ∈ kernel.kinds lists queue, ¬ Accepts (filterOf type) kind) ∧
      (ran.2.2 = kernel.setErrno E_EMPTY ∨
        ((kernel.setErrno E_RETRY).kthreadEnqueue (.thrq queue)).kthreadsSchedule =
          .ok ran.2.2)) := by
  obtain ⟨kmsg, isFound, none, some⟩ := search_spec stored.linked (stored.pointer queue)
  unfold Kernel.recvFrom at result
  dsimp only at result
  rw [isFound] at result
  split at result
  · rename_i nonzero
    obtain ⟨before, after, place, first, typed⟩ := some nonzero
    split at result
    · rename_i large
      obtain rfl := Except.ok.inj result
      exact .inr (.inl ⟨kmsg, ⟨before, after, place, first, typed⟩, large, rfl⟩)
    · obtain rfl := Except.ok.inj result
      exact .inl ⟨before, kmsg, after, place, first, typed, _, _,
        (stored.linked.remove FIRST place).2, rfl⟩
  · rename_i isZero
    right
    right
    constructor
    · intro kind mem accepts
      obtain ⟨other, inList, rfl⟩ := List.mem_map.mp mem
      obtain ⟨typed, different⟩ := none (not_not.mp isZero) other inList
      exact different ((accepts_filterOf.mp accepts).resolve_left typed).symm
    · split at result
      · obtain rfl := Except.ok.inj result
        exact .inl rfl
      · obtain ⟨scheduled, schedules, rfl⟩ := map_ok result
        exact .inr schedules

/-- A queue of messages is cleaned. -/
theorem Kernel.Stored.clean (stored : kernel.Stored lists) (msgq : MsgqId) (fuel : Nat) :
    ∃ lists', (kernel.msgqCleanLoop msgq fuel).Stored lists' ∧
      ∀ other, other ≠ msgq → lists' other = lists other := by
  induction fuel generalizing kernel lists with
  | zero => exact ⟨lists, stored, fun _ _ => rfl⟩
  | succ fuel ih =>
      unfold Kernel.msgqCleanLoop
      dsimp only
      cases shape : lists msgq with
      | nil =>
          rw [stored.linked.listRemove_empty shape, if_pos rfl]
          exact ⟨lists, stored, fun _ _ => rfl⟩
      | cons kmsg rest =>
          have place : lists msgq = [] ++ kmsg :: rest := shape
          have mem : kmsg ∈ lists msgq := by simp [shape]
          have nonzero : kmsg ≠ 0 := stored.linked.ne_zero mem
          obtain ⟨removed, linked⟩ := stored.linked.remove FIRST place
          rw [stored.linked.listRemove_first shape, removed, if_neg nonzero]
          have stored' : (({ kernel with
              msgs := (kernel.msgs.listRemove msgq FIRST kmsg).2 } : Kernel).kfree kmsg).Stored
              (Function.update lists msgq rest) := by
            refine ⟨linked, fun other entry inRest => ?_⟩
            apply stored.pointer other entry
            by_cases same : other = msgq
            · subst same
              rw [Function.update_self] at inRest
              rw [shape]
              exact List.mem_cons_of_mem kmsg inRest
            · rwa [Function.update_of_ne same] at inRest
          obtain ⟨lists', cleaned, others⟩ := ih stored'
          refine ⟨lists', cleaned, fun other different => ?_⟩
          rw [others other different, Function.update_of_ne different]

theorem Kernel.Stored.of_msgs (stored : kernel.Stored lists) (same : kernel'.msgs = kernel.msgs) :
    kernel'.Stored lists :=
  ⟨same ▸ stored.linked, stored.pointer⟩

theorem Kernel.removeProcess_msgs (removed : kernel.removeProcess thread = .ok kernel') :
    kernel'.msgs = kernel.msgs := by
  unfold Kernel.removeProcess at removed
  dsimp only at removed
  split_ifs at removed
  · obtain rfl := Except.ok.inj removed
    rfl
  · obtain rfl := Except.ok.inj removed
    rfl

theorem Kernel.releaseResources_msgs (released : kernel.releaseResources thread = .ok kernel') :
    kernel'.msgs = (kernel.kMsgqClean (.thread thread)).msgs := by
  have freed := (@releaseStack_core (kernel.kMsgqClean (.thread thread)) thread).2.2
  have deleted := (@kthreadDeletePrivateStorage_core
    ((kernel.kMsgqClean (.thread thread)).releaseStack thread) thread
    (((kernel.kMsgqClean (.thread thread)).releaseStack thread).thread thread).privateStorage).2.2
  exact (Kernel.removeProcess_msgs released).trans (deleted.trans freed)

theorem Kernel.releaseDescriptor_msgs (released : kernel.releaseDescriptor thread = .ok kernel') :
    kernel'.msgs = kernel.msgs := by
  unfold Kernel.releaseDescriptor at released
  split at released
  · obtain ⟨freed, frees, rfl⟩ := map_ok released
    unfold Kernel.kFreeUniqueId at frees
    split_ifs at frees
    obtain rfl := Except.ok.inj frees
    rfl
  · obtain rfl := Except.ok.inj released
    rfl

/-- A thread that ends takes the messages of its own queue with it. -/
theorem Kernel.Stored.finishCancel {result : Int × Kernel} (stored : kernel.Stored lists)
    (finished : kernel.finishCancel thread status = .ok result) :
    ∃ lists', result.2.Stored lists' ∧
      ∀ other, other ≠ .thread thread → lists' other = lists other := by
  obtain ⟨ended, ends, finished⟩ := bind_ok finished
  obtain ⟨scheduled, schedules, finished⟩ := bind_ok finished
  obtain rfl := Except.ok.inj finished
  obtain ⟨released, releases, descriptor⟩ := bind_ok ends
  obtain ⟨sched, -, rfl⟩ := map_ok schedules
  have noted : (kernel.endThread thread status).Stored lists := stored.of_msgs rfl
  obtain ⟨lists', cleaned, others⟩ := noted.clean (.thread thread) addressCount
  have resources := cleaned.of_msgs (Kernel.releaseResources_msgs releases)
  have described := resources.of_msgs (Kernel.releaseDescriptor_msgs descriptor)
  exact ⟨lists', described.of_msgs rfl, others⟩

theorem Kernel.Stored.kthreadCancel {result : Int × Kernel} (stored : kernel.Stored lists)
    (cancelled : kernel.kthreadCancel thread status = .ok result) :
    ∃ lists', result.2.Stored lists' ∧
      ∀ other, other ≠ .thread thread → lists' other = lists other := by
  have leaves : ∀ {left : Kernel}, kernel.leaveQueue thread = .ok left → left.Stored lists := by
    intro left leaves
    unfold Kernel.leaveQueue at leaves
    split at leaves
    · cases leaves
    · obtain rfl := Except.ok.inj leaves
      exact stored.of_msgs rfl
  unfold Kernel.kthreadCancel at cancelled
  split at cancelled
  · obtain rfl := Except.ok.inj cancelled
    exact ⟨lists, stored, fun _ _ => rfl⟩
  · obtain ⟨left, isLeft, cancelled⟩ := bind_ok cancelled
    have marked : Kernel.Stored { left with
        sched := left.sched.markIfEmpty (left.thread thread).prio } lists :=
      (leaves isLeft).of_msgs rfl
    exact marked.finishCancel cancelled
  · obtain ⟨left, isLeft, cancelled⟩ := bind_ok cancelled
    exact (leaves isLeft).finishCancel cancelled
  · split at cancelled
    · obtain rfl := Except.ok.inj cancelled
      exact ⟨lists, stored, fun _ _ => rfl⟩
    · have stopped : (kernel.setThread thread fun descriptor =>
          { descriptor with state := .passive }).Stored lists := stored.of_msgs rfl
      exact stopped.finishCancel cancelled

end Calls

/-- What holds in every state of a run: the threads that were released take all the messages that
others wait for. -/
structure WakeRun.Kept (idle : Ptr) (queue : MsgqId) (run : WakeRun) (members : Members)
    (all : List Ptr) (lists : MsgqId → List Ptr) : Prop where
  coherent : Coherent run.kernel idle run.live members all
  stored : run.kernel.Stored lists
  safe : Safe (run.kernel.kinds lists queue) run.calls ((members (.thrq queue)).map run.filter)

section Effects

/-- The queue of the active thread, or one that several threads share. -/
theorem source_own {src : MsgSource} {owner : Ptr} (found : kernel.source src = .ok (.thread owner)) :
    kernel.activeThread = owner := by
  cases src with
  | thread => exact MsgqId.thread.inj (Except.ok.inj found)
  | queue msgq =>
      unfold Kernel.source at found
      dsimp only at found
      split at found
      · cases found
      · cases found

/-- A receive takes a message, finds one that is too large, or blocks when there is none. -/
theorem Coherent.msgRecv {src : MsgSource} {ran : Int × Option Msg × Kernel}
    (coherent : Coherent kernel idle alive members all) (stored : kernel.Stored lists)
    (notIdle : kernel.activeThread ≠ idle) (found : kernel.source src = .ok queue)
    (result : kernel.msgRecv src type size flags = .ok ran) :
    ∃ members' lists', Coherent ran.2.2 idle alive members' all ∧ ran.2.2.Stored lists' ∧
      ((members' (.thrq queue) = members (.thrq queue) ∧
          ran.2.2.kinds lists' queue = take (filterOf type) (kernel.kinds lists queue)) ∨
        ran.2.2.kinds lists' queue = kernel.kinds lists queue ∧
          ((members' (.thrq queue) = members (.thrq queue) ∧
            ∃ kmsg, kernel.Finds lists queue type kmsg ∧ size < (kernel.kmsgs kmsg).size) ∨
          (∀ kind ∈ kernel.kinds lists queue, ¬ Accepts (filterOf type) kind) ∧
            (members' (.thrq queue) = members (.thrq queue) ∨
              members' (.thrq queue) = members (.thrq queue) ++ [kernel.activeThread]))) := by
  rw [MsgRun.msgRecv_found found] at result
  rcases Kernel.recvFrom_cases stored result with
    ⟨before, kmsg, after, place, first, typed, msgs, block, linked, isKernel⟩ |
    ⟨kmsg, finds, large, isKernel⟩ | ⟨none, isKernel | schedules⟩
  · have same : Coherent (({ kernel with msgs := msgs } : Kernel).kfree block) idle alive members
        all := coherent.of_same rfl rfl rfl rfl rfl rfl
    rw [isKernel]
    refine ⟨members, Function.update lists queue (before ++ after), same.setErrno SUCCESS,
      ⟨linked, ?_⟩, .inl ⟨rfl, ?_⟩⟩
    · intro other entry mem
      apply stored.pointer other
      by_cases isQueue : other = queue
      · subst isQueue
        rw [Function.update_self] at mem
        rw [place]
        exact (List.Sublist.append_left (List.sublist_cons_self ..) _).subset mem
      · rwa [Function.update_of_ne isQueue] at mem
    · rw [← kinds_take place first typed]
      unfold Kernel.kinds
      rw [Function.update_self]
      rfl
  · rw [isKernel]
    exact ⟨members, lists, coherent.setErrno E_TOO_BIG, stored.of_msgs rfl,
      .inr ⟨rfl, .inl ⟨rfl, kmsg, finds, large⟩⟩⟩
  · rw [isKernel]
    exact ⟨members, lists, coherent.setErrno E_EMPTY, stored.of_msgs rfl,
      .inr ⟨rfl, .inr ⟨none, .inl rfl⟩⟩⟩
  · have own : ∀ owner, QueueId.thrq queue = .thrq (.thread owner) →
        (kernel.setErrno E_RETRY).activeThread = owner := by
      intro owner isOwn
      rw [QueueId.thrq.inj isOwn] at found
      exact source_own found
    obtain ⟨members', coherent', waiting⟩ := (coherent.setErrno E_RETRY).blocked rfl notIdle
      (fun _ isJoin => by cases isJoin) own schedules
    obtain ⟨sched, -, isKernel⟩ := map_ok schedules
    rw [← isKernel] at coherent' ⊢
    refine ⟨members', lists, coherent', stored.of_msgs rfl, .inr ⟨rfl, .inr ⟨none, .inr ?_⟩⟩⟩
    rw [waiting _ rfl]
    exact Function.update_self ..

/-- A post that is accepted puts the message at the end, and releases the first thread. -/
theorem Coherent.postTo {answer : Int × Kernel}
    (coherent : Coherent kernel idle alive members all) (stored : kernel.Stored lists)
    (fresh : kmsg ≠ 0 → kmsg < addressCount ∧ ∀ other, kmsg ∉ lists other)
    (result : kernel.postTo queue msg kmsg = .ok answer) :
    (answer.1 ≠ -SUCCESS ∧ Coherent answer.2 idle alive members all ∧ kernel.Keeps answer.2) ∨
    (answer.1 = -SUCCESS ∧ kmsg ≠ 0 ∧ kernel.minPrio queue ≤ toUint msg.type ∧
      ∃ members' lists', Coherent answer.2 idle alive members' all ∧ answer.2.Stored lists' ∧
        answer.2.kinds lists' queue = kernel.kinds lists queue ++ [msg.type] ∧
        members' (.thrq queue) = (members (.thrq queue)).drop 1) := by
  unfold Kernel.postTo at result
  split at result
  case isFalse ignored =>
    obtain rfl := Except.ok.inj result
    exact .inl ⟨(by decide : -E_IGNORED ≠ -SUCCESS), coherent.setErrno E_IGNORED, ⟨rfl, rfl⟩⟩
  rename_i accepted
  split at result
  case isTrue =>
    obtain rfl := Except.ok.inj result
    exact .inl ⟨(by decide : -E_NO_MEMORY ≠ -SUCCESS), coherent.setErrno E_NO_MEMORY,
      ⟨rfl, rfl⟩⟩
  rename_i nonzero
  right
  obtain ⟨below, unused⟩ := fresh nonzero
  have kinds : ∀ {kernel' : Kernel}, kernel'.kmsgs = Function.update kernel.kmsgs kmsg msg →
      kernel'.kinds (Function.update lists queue (lists queue ++ [kmsg])) queue =
        kernel.kinds lists queue ++ [msg.type] := by
    intro kernel' contents
    unfold Kernel.kinds
    rw [Function.update_self, List.map_append, List.map_singleton, contents, Function.update_self]
    congr 1
    apply List.map_congr_left
    intro other mem
    rw [Function.update_of_ne]
    rintro rfl
    exact unused queue mem
  generalize isPut : ({ kernel with
    kmsgs := Function.update kernel.kmsgs kmsg msg
    msgs := kernel.msgs.listAppend queue kmsg } : Kernel) = put at result
  have msgs : put.msgs = kernel.msgs.listAppend queue kmsg := by rw [← isPut]
  have contents : put.kmsgs = Function.update kernel.kmsgs kmsg msg := by rw [← isPut]
  have stored' := stored.append nonzero below unused msgs
  have same : Coherent put idle alive members all := by
    rw [← isPut]
    exact coherent.of_same rfl rfl rfl rfl rfl rfl
  cases place : members (.thrq queue) with
  | nil =>
      dsimp only at result
      rw [same.toSettled.kthreadqRelease_empty place, if_neg (not_not_intro rfl)] at result
      obtain rfl := Except.ok.inj result
      exact ⟨rfl, nonzero, accepted, members, _, same.setErrno SUCCESS, stored'.of_msgs rfl,
        kinds contents, by rw [place]; rfl⟩
  | cons thread rest =>
      have waits : (QueueId.thrq queue).state = .wait := rfl
      obtain ⟨one, -⟩ := same.toSettled.kthreadqRelease place waits
      dsimp only at result
      rw [one, if_pos (by decide)] at result
      obtain ⟨scheduled, schedules, rfl⟩ := map_ok result
      obtain ⟨members', coherent', waiting⟩ := same.released place waits schedules
      obtain ⟨sched, -, rfl⟩ := map_ok schedules
      refine ⟨rfl, nonzero, accepted, members', _, coherent'.setErrno SUCCESS, stored'.of_msgs rfl,
        kinds contents, ?_⟩
      rw [waiting _ rfl, Function.update_self]
      rfl

end Effects

namespace WakeRun

variable {run run' : WakeRun} {request : MsgRequest}

/-- A thread that is neither released nor waits may ask for something else. -/
theorem filter_asked {threads : List Ptr}
    (asks : run'.asked = Function.update run.asked run.self request)
    (absent : run.self ∉ threads) : threads.map run'.filter = threads.map run.filter := by
  apply List.map_congr_left
  intro other mem
  unfold filter
  rw [asks, Function.update_of_ne]
  rintro rfl
  exact absent mem

theorem calls_perm (called : thread ∈ run.released) :
    run.calls.Perm (run.filter thread :: (run.released.erase thread).map run.filter) :=
  (List.perm_cons_erase called).map run.filter

theorem Kept.woken_eq (kept : run.Kept idle queue members all lists) :
    run.woken queue = (members (.thrq queue)).take 1 := by
  have first := kept.coherent.sound.linked.listGet_first (.thrq queue)
  unfold woken Sched.kthreadqGet
  rw [first]
  cases place : members (.thrq queue) with
  | nil =>
      rw [headOf_nil]
      rfl
  | cons thread rest =>
      have mem : thread ∈ members (.thrq queue) := by simp [place]
      have nonzero := kept.coherent.sound.linked.ne_zero mem
      rw [headOf_cons]
      exact if_neg nonzero

theorem Kept.post {dest : MsgDest} (kept : run.Kept idle queue members all lists)
    (fresh : kmsg ≠ 0 → kmsg < addressCount ∧
      ∀ lists, run.kernel.Stored lists → ∀ other, kmsg ∉ lists other)
    (found : run.kernel.destination dest = .ok queue)
    (result : run.kernel.postAt dest msg kmsg = .ok (code, kernel))
    (answers : kmsg ≠ 0 → run.kernel.minPrio queue ≤ toUint msg.type →
      run.Answers queue msg.type) :
    ∃ members' lists', Kept idle queue { run with
      kernel := kernel
      released := run.released ++ if code = -SUCCESS then run.woken queue else [] }
      members' all lists' := by
  rw [MsgRun.postAt_found found] at result
  have unused : kmsg ≠ 0 → kmsg < addressCount ∧ ∀ other, kmsg ∉ lists other :=
    fun nonzero => (fresh nonzero).imp id fun unused => unused lists kept.stored
  rcases kept.coherent.postTo kept.stored unused result with
    ⟨failed, coherent, keeps⟩ |
    ⟨success, nonzero, accepted, members', lists', coherent, stored, kinds, waiting⟩
  · dsimp only at failed coherent keeps
    rw [if_neg failed, List.append_nil]
    refine ⟨members, lists, coherent, keeps.stored kept.stored, ?_⟩
    have kinds : kernel.kinds lists queue = run.kernel.kinds lists queue := by
      unfold Kernel.kinds
      rw [keeps.contents]
    change Safe (kernel.kinds lists queue) run.calls _
    rw [kinds]
    exact kept.safe
  · dsimp only at success coherent stored kinds
    rw [if_pos success, kept.woken_eq]
    refine ⟨members', lists', coherent, stored, ?_⟩
    have safe := kept.safe
    change Safe (kernel.kinds lists' queue) ((run.released ++ _).map run.filter)
      ((members' (.thrq queue)).map run.filter)
    rw [kinds, waiting, List.map_append]
    cases place : members (.thrq queue) with
    | nil =>
        intro filter mem
        cases mem
    | cons thread rest =>
        rw [place, List.map_cons] at safe
        exact safe.put (answers nonzero accepted lists members thread rest kept.stored
          kept.coherent.sound.linked place)

/-- A receive by a thread that was not released. -/
theorem Kept.receive {src : MsgSource} {got : Option Msg}
    (kept : run.Kept idle queue members all lists) (ready : run.self ∉ run.released)
    (notIdle : run.self ≠ idle) (found : run.kernel.source src = .ok queue)
    (result : run.kernel.msgRecv src request.type request.size request.flags =
      .ok (code, got, kernel)) :
    ∃ members' lists', Kept idle queue { run with
      kernel := kernel
      asked := Function.update run.asked run.self request } members' all lists' := by
  obtain ⟨members', lists', coherent, stored, effect⟩ :=
    kept.coherent.msgRecv kept.stored notIdle found result
  dsimp only at coherent stored effect
  refine ⟨members', lists', coherent, stored, ?_⟩
  have outside : run.self ∉ members (.thrq queue) := kept.coherent.active_free
  have safe := kept.safe
  generalize isNext : ({ run with
    kernel := kernel
    asked := Function.update run.asked run.self request } : WakeRun) = next
  have asks : next.asked = Function.update run.asked run.self request := by rw [← isNext]
  have sameKernel : next.kernel = kernel := by rw [← isNext]
  have sameCalls : next.calls = run.calls := by
    have same : next.released = run.released := by rw [← isNext]
    unfold calls
    rw [same, filter_asked asks ready]
  have sameWaiting := filter_asked asks outside
  rw [sameKernel, sameCalls]
  rcases effect with ⟨waiting, kinds⟩ | ⟨kinds, ⟨waiting, -⟩ | ⟨none, waiting | waiting⟩⟩
  · rw [waiting, kinds, sameWaiting]
    exact safe.steal
  · rw [waiting, kinds, sameWaiting]
    exact safe
  · rw [waiting, kinds, sameWaiting]
    exact safe
  · have wanted : next.filter run.self = filterOf request.type := by
      unfold filter
      rw [asks, Function.update_self]
    change members' (.thrq queue) = members (.thrq queue) ++ [run.self] at waiting
    rw [waiting, kinds, List.map_append, sameWaiting, List.map_singleton, wanted]
    exact safe.wait none

/-- A thread that was released tries again. -/
theorem Kept.retry {src : MsgSource} {got : Option Msg}
    (kept : run.Kept idle queue members all lists) (called : run.self ∈ run.released)
    (notIdle : run.self ≠ idle) (found : run.kernel.source src = .ok queue)
    (result : run.kernel.msgRecv src (run.asked run.self).type (run.asked run.self).size
      (run.asked run.self).flags = .ok (code, got, kernel))
    (dispensable : run.TooLarge queue → run.Dispensable queue run.self) :
    ∃ members' lists', Kept idle queue { run with
      kernel := kernel
      released := run.released.erase run.self } members' all lists' := by
  obtain ⟨members', lists', coherent, stored, effect⟩ :=
    kept.coherent.msgRecv kept.stored notIdle found result
  dsimp only at coherent stored effect
  refine ⟨members', lists', coherent, stored, ?_⟩
  have safe := kept.safe
  have perm := calls_perm called
  change Safe _ ((run.released.erase run.self).map run.filter)
    ((members' (.thrq queue)).map run.filter)
  rcases effect with ⟨waiting, kinds⟩ | ⟨kinds, ⟨waiting, kmsg, finds, large⟩ | ⟨none, waiting⟩⟩
  · rw [waiting, kinds]
    exact safe.take perm
  · rw [waiting, kinds]
    exact dispensable ⟨lists, kmsg, kept.stored, finds, large⟩ lists members kept.stored
      kept.coherent.sound.linked
  · have missed := safe.miss perm none
    rw [kinds]
    rcases waiting with waiting | waiting
    · rw [waiting]
      exact missed
    · rw [waiting, List.map_append]
      exact missed.wait none

theorem Kept.cancel {ended : Int × Kernel} (kept : run.Kept idle queue members all lists)
    (mem : thread ∈ run.live) (notIdle : thread ≠ idle) (inactive : thread ≠ run.self)
    (notOwner : queue ≠ .thread thread)
    (result : run.kernel.kthreadCancel thread status = .ok ended)
    (dispensable : thread ∈ run.released → run.Dispensable queue thread) :
    ∃ members' all' lists', Kept idle queue { run with
      kernel := ended.2
      live := run.live \ {thread}
      released := run.released.erase thread } members' all' lists' := by
  obtain ⟨kernel', members', all', cancels, coherent, erased⟩ :=
    kept.coherent.kthreadCancel mem notIdle inactive status
  obtain ⟨lists', stored, others⟩ := kept.stored.kthreadCancel result
  have contents := (Kernel.SameObjects.kthreadCancel result).kmsgs
  obtain rfl := Except.ok.inj (result.symm.trans cancels)
  refine ⟨members', all', lists', coherent, stored, ?_⟩
  dsimp only at contents stored
  have kinds : kernel'.kinds lists' queue = run.kernel.kinds lists queue := by
    unfold Kernel.kinds
    rw [others queue notOwner, contents]
  have fewer : ((members (.thrq queue)).erase thread).map run.filter ⊆
      (members (.thrq queue)).map run.filter := List.map_subset _ List.erase_subset
  change Safe (kernel'.kinds lists' queue) ((run.released.erase thread).map run.filter)
    ((members' (.thrq queue)).map run.filter)
  rw [kinds, erased _ rfl (by simp)]
  by_cases called : thread ∈ run.released
  · exact (dispensable called lists members kept.stored kept.coherent.sound.linked).fewer fewer
  · rw [List.erase_of_not_mem called]
    exact kept.safe.fewer fewer

theorem Kept.step (kept : run.Kept idle queue members all lists)
    (step : WakeStep idle queue True run run') :
    ∃ members' all' lists', run'.Kept idle queue members' all' lists' := by
  cases step with
  | post dest msg kmsg ready fresh found result answers =>
      obtain ⟨members', lists', kept'⟩ := kept.post fresh found result (answers trivial)
      exact ⟨members', all, lists', kept'⟩
  | receive src request ready notIdle found result =>
      obtain ⟨members', lists', kept'⟩ := kept.receive ready notIdle found result
      exact ⟨members', all, lists', kept'⟩
  | retry src called notIdle found result dispensable =>
      obtain ⟨members', lists', kept'⟩ :=
        kept.retry called notIdle found result (dispensable trivial)
      exact ⟨members', all, lists', kept'⟩
  | cancel kthread status mem notIdle inactive notOwner result dispensable =>
      exact kept.cancel mem notIdle inactive notOwner result (dispensable trivial)
  | @other kernel live spared =>
      obtain ⟨members', all', lists', coherent, stored, waiting, sameList, contents⟩ :=
        spared members all lists kept.coherent kept.stored
      refine ⟨members', all', lists', coherent, stored, ?_⟩
      have kinds : kernel.kinds lists' queue = run.kernel.kinds lists queue := by
        unfold Kernel.kinds
        rw [sameList]
        apply List.map_congr_left
        intro kmsg mem
        rw [contents kmsg mem]
      dsimp only
      rw [waiting, kinds]
      exact kept.safe

section Others

variable {stack proc kernelProc : Ptr} {prio : Int} {live : Set Ptr}

/-- A new identifier is taken. -/
theorem kNewUniqueId_coherent (coherent : Coherent kernel idle alive members all)
    (takes : kernel.kNewUniqueId = .ok kernel') : Coherent kernel' idle alive members all := by
  have ledger := coherent.ledger
  rw [ledger.toRoster.kNewUniqueId] at takes
  split_ifs at takes with full
  obtain rfl := Except.ok.inj takes
  refine ⟨⟨coherent.sound, ⟨{ ledger.toRoster with known := ?_, fresh := ?_, last_lt := ?_ }, ?_⟩,
    coherent.current, coherent.idle_runs⟩, coherent.running⟩
  · intro thread mem
    obtain ⟨positive, upper, used⟩ := ledger.known thread mem
    refine ⟨positive, Nat.le_succ_of_le upper, ?_⟩
    have older : (kernel.thread thread).id ≠ kernel.lastId + 1 := Nat.ne_of_lt (Nat.lt_succ_of_le upper)
    exact (Function.update_of_ne older ..).trans used
  · intro id later
    have newer : id ≠ kernel.lastId + 1 := Nat.ne_of_gt later
    exact (Function.update_of_ne newer ..).trans (ledger.fresh id (Nat.lt_of_succ_lt later))
  · exact Nat.lt_of_not_le full
  · obtain ⟨procs, accounted⟩ := ledger.accounted
    exact ⟨procs, accounted.congr rfl (fun _ _ => rfl) fun _ _ => rfl⟩

/-- A new thread has no messages. -/
theorem kthreadCreate_stored (stored : kernel.Stored lists) (none : lists (.thread thread) = [])
    (creates : kernel.kthreadCreate stack thread prio true proc = .ok kernel') :
    kernel'.Stored lists ∧ kernel'.kmsgs = kernel.kmsgs := by
  unfold Kernel.kthreadCreate at creates
  split at creates
  · cases creates
  · obtain ⟨numbered, takes, rfl⟩ := map_ok creates
    obtain ⟨lastId, -, rfl⟩ := map_ok takes
    exact ⟨stored.of_msgs (stored.linked.listInit_eq none), rfl⟩

theorem Spared.create
    (unused : ∀ all : List Ptr, run.kernel.allThreads.Linked (fun _ => all) → thread ∉ all)
    (silent : ∀ lists, run.kernel.Stored lists → lists (.thread thread) = [])
    (below : thread < addressCount)
    (known : ∃ mate ∈ run.live, (run.kernel.thread mate).proc = proc)
    (creates : run.kernel.kthreadCreate stack thread prio true proc = .ok kernel) :
    run.Spared idle queue kernel (insert thread run.live) := by
  intro members all lists coherent stored
  obtain ⟨members', coherent', waiting⟩ :=
    coherent.kthreadCreate (unused all coherent.ledger.listed) below known creates
  obtain ⟨stored', contents⟩ := kthreadCreate_stored stored (silent lists stored) creates
  exact ⟨members', _, lists, coherent', stored', waiting _ rfl id, rfl,
    fun kmsg _ => congrFun contents kmsg⟩

theorem Spared.schedule (schedules : run.kernel.kthreadsSchedule = .ok kernel) :
    run.Spared idle queue kernel run.live := by
  intro members all lists coherent stored
  obtain ⟨sched, members', scheduled, coherent', -, switches⟩ := coherent.toSettled.kthreadsSchedule
  obtain rfl := Except.ok.inj (schedules.symm.trans scheduled)
  exact ⟨members', all, lists, coherent', stored.of_msgs rfl, switches.waiting _ rfl id, rfl,
    fun _ _ => rfl⟩

/-- A new queue, at an address where no message is and no thread waits. -/
theorem createMsgQueue_coherent {msgq gmsgq : Ptr} {minPrio : Nat} {state : QueueKernel}
    {answer : Int × QueueKernel} (coherent : Coherent state.kernel idle alive members all)
    (stored : state.kernel.Stored lists) (silent : lists (.global gmsgq) = [])
    (alone : members (.thrq (.global gmsgq)) = [])
    (creates : state.sysCreateMsgQueue msgq minPrio gmsgq = .ok answer) :
    Coherent answer.2.kernel idle alive members all := by
  unfold QueueKernel.sysCreateMsgQueue at creates
  split_ifs at creates
  · obtain rfl := Except.ok.inj creates
    exact coherent.setErrno E_INVALID_HANDLE
  · obtain rfl := Except.ok.inj creates
    exact coherent.setErrno E_NO_MEMORY
  · rw [stored.linked.listInit_eq silent, coherent.sound.linked.listInit_eq alone] at creates
    obtain ⟨numbered, takes, rfl⟩ := map_ok creates
    apply Coherent.setErrno
    have noted : Coherent ({ state.kernel with
        minPrio := Function.update state.kernel.minPrio (.global gmsgq) minPrio } : Kernel) idle
        alive members all := coherent.of_same rfl rfl rfl rfl rfl rfl
    exact (kNewUniqueId_coherent noted takes).of_same rfl rfl rfl rfl rfl rfl

theorem Spared.createQueue {msgq gmsgq : Ptr} {minPrio : Nat} {state : QueueKernel}
    {answer : Int × QueueKernel} (same : state.kernel = run.kernel)
    (silent : ∀ lists, run.kernel.Stored lists → lists (.global gmsgq) = [])
    (alone : ∀ members : Members, run.kernel.sched.queues.Linked members →
      members (.thrq (.global gmsgq)) = [])
    (creates : state.sysCreateMsgQueue msgq minPrio gmsgq = .ok answer) :
    run.Spared idle queue answer.2.kernel run.live := by
  intro members all lists coherent stored
  rw [← same] at silent alone coherent stored ⊢
  have keeps := MsgRun.createMsgQueue_keeps stored (silent lists stored) creates
  exact ⟨members, all, lists, createMsgQueue_coherent coherent stored (silent lists stored)
    (alone members coherent.sound.linked) creates, keeps.stored stored, rfl, rfl,
    fun kmsg _ => congrFun keeps.contents kmsg⟩

/-- No messages are there at first. -/
theorem kthreadsInit_stored
    (starts : Kernel.boot.kthreadsInit stack idle kernelProc = .ok kernel) :
    kernel.Stored fun _ => [] := by
  obtain ⟨created, creates, schedules⟩ := bind_ok starts
  have initial : (Kernel.boot.initLists kernelProc).Stored fun _ => [] :=
    MsgRun.boot_stored.of_msgs rfl
  have stored := (kthreadCreate_stored initial rfl creates).1
  obtain ⟨sched, -, rfl⟩ := map_ok schedules
  exact stored.of_msgs rfl

/-- The idle thread waits for nothing. -/
theorem Kept.start (below : idle < addressCount)
    (starts : Kernel.boot.kthreadsInit stack idle kernelProc = .ok run.kernel)
    (alone : run.live = {idle}) :
    ∃ members, run.Kept idle queue members [idle] fun _ => [] := by
  obtain ⟨members, coherent⟩ := kthreadsInit_coherent below starts
  have free : members (.thrq queue) = [] := by
    rw [List.eq_nil_iff_forall_not_mem]
    intro thread mem
    have isIdle := coherent.sound.mem_alive _ thread mem
    have active := coherent.running.mem_alive
    rw [Set.mem_singleton_iff] at isIdle active
    rw [isIdle, ← active] at mem
    exact coherent.active_free mem
  refine ⟨members, alone ▸ coherent, kthreadsInit_stored starts, ?_⟩
  rw [free]
  intro filter mem
  cases mem

end Others

end WakeRun

section Runs

variable {stack kernelProc : Ptr} {first last : WakeRun}

/-- In every run where each message that is posted comes in reach of the threads released and no
released thread is lost to the others, no thread waits for a message that is in the queue when
all threads that were released have tried again. -/
theorem messages_wake (below : idle < addressCount)
    (starts : Kernel.boot.kthreadsInit stack idle kernelProc = .ok first.kernel)
    (alone : first.live = {idle})
    (run : Relation.ReflTransGen (WakeStep idle queue True) first last) :
    ∃ members all lists, Coherent last.kernel idle last.live members all ∧
      last.kernel.Stored lists ∧
      (last.released = [] → ∀ thread ∈ members (.thrq queue), ∀ kmsg ∈ lists queue,
        ¬ ((last.asked thread).type = 0 ∨
          (last.asked thread).type = (last.kernel.kmsgs kmsg).type)) := by
  have kept : ∃ members all lists, last.Kept idle queue members all lists := by
    induction run with
    | refl =>
        obtain ⟨members, kept⟩ := WakeRun.Kept.start below starts alone
        exact ⟨members, [idle], _, kept⟩
    | tail _ step ih =>
        obtain ⟨members, all, lists, kept⟩ := ih
        exact kept.step step
  obtain ⟨members, all, lists, kept⟩ := kept
  refine ⟨members, all, lists, kept.coherent, kept.stored, fun done thread waits kmsg mem => ?_⟩
  have safe := kept.safe
  unfold WakeRun.calls at safe
  rw [done, List.map_nil] at safe
  rw [← accepts_filterOf]
  exact safe.quiet (List.mem_map_of_mem waits)
    (List.mem_map_of_mem (f := fun kmsg => (last.kernel.kmsgs kmsg).type) mem)

/-- Nothing has been asked for yet. -/
def WakeRun.begin (idle : Ptr) (kernel : Kernel) : WakeRun :=
  ⟨kernel, {idle}, fun _ => ⟨0, 0, 0⟩, []⟩

/-- A queue and two threads are created, and one of them runs. -/
theorem WakeStep.begin {careful : Prop} {started created created' running : Kernel}
    {made : Int × QueueKernel}
    (starts : Kernel.boot.kthreadsInit 8184 7960 100 = .ok started)
    (makes : (QueueKernel.start started).sysCreateMsgQueue 4000 0 5000 = .ok made)
    (creates : made.2.kernel.kthreadCreate 8200 7000 6 true 100 = .ok created)
    (creates' : created.kthreadCreate 8300 7100 5 true 100 = .ok created')
    (schedules : created'.kthreadsSchedule = .ok running)
    (noWaiter : started.sched.queues.listGet (.thrq (.global 5000)) FIRST = 0)
    (known : (made.2.kernel.thread 7960).proc = 100) (known' : (created.thread 7960).proc = 100) :
    Relation.ReflTransGen (WakeStep 7960 (.global 5000) careful) (.begin 7960 started)
        { WakeRun.begin 7960 running with live := insert 7100 (insert 7000 {7960}) } ∧
      running.Stored fun _ => [] := by
  obtain ⟨members, coherent⟩ := kthreadsInit_coherent (by decide) starts
  have stored := WakeRun.kthreadsInit_stored starts
  have silent : ∀ {kernel : Kernel} {queue : MsgqId}, kernel.Stored (fun _ => []) →
      ∀ lists, kernel.Stored lists → lists queue = [] :=
    fun stored lists stored' => stored'.linked.unique stored.linked _
  have coherent' : Coherent made.2.kernel 7960 {7960} members [7960] :=
    WakeRun.createMsgQueue_coherent coherent stored rfl
      (coherent.sound.linked.eq_nil noWaiter) makes
  have stored' : made.2.kernel.Stored fun _ => [] :=
    (MsgRun.createMsgQueue_keeps stored rfl makes).stored stored
  obtain ⟨members', coherent'', -⟩ := coherent'.kthreadCreate (by decide) (by decide)
    ⟨7960, rfl, known⟩ creates
  have stored'' := (WakeRun.kthreadCreate_stored stored' rfl creates).1
  have unused : ∀ {kernel : Kernel} {live : Set Ptr} {members : Members} {all : List Ptr}
      {thread : Ptr}, Coherent kernel 7960 live members all → thread ∉ all →
      ∀ all', kernel.allThreads.Linked (fun _ => all') → thread ∉ all' := by
    intro kernel live members all thread coherent absent all' linked
    rwa [linked.unique coherent.ledger.listed ()]
  have one : WakeStep 7960 (.global 5000) careful (.begin 7960 started)
      (.begin 7960 made.2.kernel) :=
    .other (WakeRun.Spared.createQueue rfl (silent stored)
      (fun members linked => linked.eq_nil noWaiter) makes)
  have two : WakeStep 7960 (.global 5000) careful (.begin 7960 made.2.kernel)
      { WakeRun.begin 7960 created with live := insert 7000 {7960} } :=
    .other (WakeRun.Spared.create (unused coherent' (by decide)) (silent stored') (by decide)
      ⟨7960, rfl, known⟩ creates)
  have three : WakeStep 7960 (.global 5000) careful
      { WakeRun.begin 7960 created with live := insert 7000 {7960} }
      { WakeRun.begin 7960 created' with live := insert 7100 (insert 7000 {7960}) } :=
    .other (WakeRun.Spared.create (unused coherent'' (by decide)) (silent stored'') (by decide)
      ⟨7960, Set.mem_insert_of_mem 7000 rfl, known'⟩ creates')
  have four : WakeStep 7960 (.global 5000) careful
      { WakeRun.begin 7960 created' with live := insert 7100 (insert 7000 {7960}) }
      { WakeRun.begin 7960 running with live := insert 7100 (insert 7000 {7960}) } :=
    .other (WakeRun.Spared.schedule schedules)
  refine ⟨(((Relation.ReflTransGen.single one).tail two).tail three).tail four, ?_⟩
  have last := (WakeRun.kthreadCreate_stored stored'' rfl creates').1
  obtain ⟨sched, -, rfl⟩ := map_ok schedules
  exact last.of_msgs rfl

/-- A thread waits for a message of one type, and gets it. -/
theorem messages_wake_sample : ∃ first last : WakeRun,
    Kernel.boot.kthreadsInit 8184 7960 100 = .ok first.kernel ∧
      Relation.ReflTransGen (WakeStep 7960 (.global 5000) True) first last ∧
      last.released = [] ∧ (last.asked 7000).type = 1 ∧
      ∃ members all lists, Coherent last.kernel 7960 last.live members all ∧
        last.kernel.Stored lists ∧
        (last.released = [] → ∀ thread ∈ members (.thrq (.global 5000)),
          ∀ kmsg ∈ lists (.global 5000), ¬ ((last.asked thread).type = 0 ∨
            (last.asked thread).type = (last.kernel.kmsgs kmsg).type)) := by
  have evaluated : (do
      let started ← Kernel.boot.kthreadsInit 8184 7960 100
      let made ← (QueueKernel.start started).sysCreateMsgQueue 4000 0 5000
      let created ← made.2.kernel.kthreadCreate 8200 7000 6 true 100
      let created' ← created.kthreadCreate 8300 7100 5 true 100
      let running ← created'.kthreadsSchedule
      let blocked ← running.msgRecv (.queue ⟨5000, made.2.kernel.lastId⟩) 1 4 IPC_WAIT
      let posted ← blocked.2.2.postAt (.queue (some ⟨5000, made.2.kernel.lastId⟩))
        ⟨1, 4, fun _ => 9⟩ 6000
      let got ← posted.2.msgRecv (.queue ⟨5000, made.2.kernel.lastId⟩) 1 4 IPC_WAIT
      return decide ((started.sched.queues.listGet (.thrq (.global 5000)) FIRST = 0 ∧
        (made.2.kernel.thread 7960).proc = 100 ∧ (created.thread 7960).proc = 100) ∧
        running.IsQueue ⟨5000, made.2.kernel.lastId⟩ ∧ running.activeThread = 7000 ∧
        blocked.1 ≠ -SUCCESS ∧ blocked.2.2.IsQueue ⟨5000, made.2.kernel.lastId⟩ ∧
        blocked.2.2.sched.kthreadqGet (.thrq (.global 5000)) = 7000 ∧ posted.1 = -SUCCESS ∧
        posted.2.IsQueue ⟨5000, made.2.kernel.lastId⟩ ∧ posted.2.activeThread = 7000 ∧
        posted.2.sched.queues.listGet (.thrq (.global 5000)) FIRST = 0)) =
          (.ok true : Except Fault Bool) := by
    decide +kernel
  obtain ⟨started, starts, evaluated⟩ := bind_ok evaluated
  obtain ⟨made, makes, evaluated⟩ := bind_ok evaluated
  obtain ⟨created, creates, evaluated⟩ := bind_ok evaluated
  obtain ⟨created', creates', evaluated⟩ := bind_ok evaluated
  obtain ⟨running, schedules, evaluated⟩ := bind_ok evaluated
  obtain ⟨⟨code, nothing, blocked⟩, blocks, evaluated⟩ := bind_ok evaluated
  obtain ⟨⟨code', posted⟩, posts, evaluated⟩ := bind_ok evaluated
  obtain ⟨⟨code'', got, final⟩, takes, evaluated⟩ := bind_ok evaluated
  obtain ⟨⟨noWaiter, known, known'⟩, isQueue, active, failed, isQueue', woken, success, isQueue'',
    active', alone⟩ := of_decide_eq_true (Except.ok.inj evaluated)
  obtain rfl : code' = -SUCCESS := success
  obtain ⟨run, stored⟩ : Relation.ReflTransGen (WakeStep 7960 (.global 5000) True) _ _ ∧ _ :=
    WakeStep.begin starts makes creates creates' schedules noWaiter known known'
  have stored' := (MsgRun.msgRecv_keeps stored blocks failed).stored stored
  have run := run.tail (.receive (.queue ⟨5000, made.2.kernel.lastId⟩) ⟨1, 4, IPC_WAIT⟩
    List.not_mem_nil (by
      change running.activeThread ≠ 7960
      rw [active]
      decide) (if_pos isQueue) blocks)
  dsimp only [WakeRun.self, WakeRun.begin] at run
  rw [active] at run
  have run := run.tail (.post (.queue (some ⟨5000, made.2.kernel.lastId⟩)) ⟨1, 4, fun _ => 9⟩ 6000
    List.not_mem_nil (fun _ => ⟨by decide, fun lists stored'' other => by
      rw [stored''.linked.unique stored'.linked other]
      exact List.not_mem_nil⟩) (if_pos isQueue') posts (by
      intro _ _ _ lists members thread rest stored'' linked place filter mem accepts
      left
      have empty : lists (.global 5000) = [] := stored''.linked.unique stored'.linked _
      have first := (linked.listGet_first (.thrq (.global 5000))).symm.trans woken
      rw [place, headOf_cons] at first
      simp [Kernel.kinds, empty, first, WakeRun.filter, filterOf]))
  rw [if_pos rfl] at run
  have calls : ([] : List Ptr) ++ WakeRun.woken ⟨blocked, insert 7100 (insert 7000 {7960}),
      Function.update (fun _ => ⟨0, 0, 0⟩) 7000 ⟨1, 4, IPC_WAIT⟩, []⟩ (.global 5000) = [7000] := by
    unfold WakeRun.woken
    rw [woken]
    rfl
  rw [calls] at run
  have again : ∀ {asked : Ptr → MsgRequest}, asked 7000 = ⟨1, 4, IPC_WAIT⟩ →
      posted.msgRecv (.queue ⟨5000, made.2.kernel.lastId⟩) (asked posted.activeThread).type
        (asked posted.activeThread).size (asked posted.activeThread).flags =
          .ok (code'', got, final) := by
    intro asked asks
    rw [active', asks]
    exact takes
  have run := run.tail (.retry (.queue ⟨5000, made.2.kernel.lastId⟩) (by
      change posted.activeThread ∈ [7000]
      rw [active']
      decide) (by
      change posted.activeThread ≠ 7960
      rw [active']
      decide) (if_pos isQueue'') (again rfl) (by
      intro _ _ lists members stored'' linked filter mem
      rw [linked.eq_nil alone] at mem
      cases mem))
  refine ⟨_, _, starts, run, ?_, ?_, messages_wake (by decide) starts rfl run⟩
  · change [7000].erase posted.activeThread = []
    rw [active']
    rfl
  · rfl

/-- A message of type 2 is posted while a thread waits for type 1 and another one for type 2: the
first thread is released, finds nothing and blocks again. -/
theorem messages_wake_fail : ¬ ∀ idle stack kernelProc queue first last, idle < addressCount →
    Kernel.boot.kthreadsInit stack idle kernelProc = .ok first.kernel →
      first.live = {idle} → first.released = [] →
        Relation.ReflTransGen (WakeStep idle queue False) first last →
          ∃ members all lists, Coherent last.kernel idle last.live members all ∧
            last.kernel.Stored lists ∧
            (last.released = [] → ∀ thread ∈ members (.thrq queue), ∀ kmsg ∈ lists queue,
              ¬ ((last.asked thread).type = 0 ∨
                (last.asked thread).type = (last.kernel.kmsgs kmsg).type)) := by
  intro claim
  have evaluated : (do
      let started ← Kernel.boot.kthreadsInit 8184 7960 100
      let made ← (QueueKernel.start started).sysCreateMsgQueue 4000 0 5000
      let created ← made.2.kernel.kthreadCreate 8200 7000 6 true 100
      let created' ← created.kthreadCreate 8300 7100 5 true 100
      let running ← created'.kthreadsSchedule
      let blocked ← running.msgRecv (.queue ⟨5000, made.2.kernel.lastId⟩) 1 4 IPC_WAIT
      let both ← blocked.2.2.msgRecv (.queue ⟨5000, made.2.kernel.lastId⟩) 2 4 IPC_WAIT
      let posted ← both.2.2.postAt (.queue (some ⟨5000, made.2.kernel.lastId⟩))
        ⟨2, 4, fun _ => 9⟩ 6000
      let again ← posted.2.msgRecv (.queue ⟨5000, made.2.kernel.lastId⟩) 1 4 IPC_WAIT
      return decide ((started.sched.queues.listGet (.thrq (.global 5000)) FIRST = 0 ∧
        (made.2.kernel.thread 7960).proc = 100 ∧ (created.thread 7960).proc = 100) ∧
        (running.IsQueue ⟨5000, made.2.kernel.lastId⟩ ∧ running.activeThread = 7000 ∧
          blocked.1 ≠ -SUCCESS) ∧
        (blocked.2.2.IsQueue ⟨5000, made.2.kernel.lastId⟩ ∧ blocked.2.2.activeThread = 7100 ∧
          both.1 ≠ -SUCCESS) ∧
        (both.2.2.IsQueue ⟨5000, made.2.kernel.lastId⟩ ∧
          both.2.2.sched.kthreadqGet (.thrq (.global 5000)) = 7000 ∧ posted.1 = -SUCCESS) ∧
        (posted.2.IsQueue ⟨5000, made.2.kernel.lastId⟩ ∧ posted.2.activeThread = 7000) ∧
        again.2.2.sched.queues.listGet (.thrq (.global 5000)) FIRST = 7100 ∧
        again.2.2.msgs.listGet (.global 5000) FIRST = 6000 ∧
        (again.2.2.kmsgs 6000).type = 2)) = (.ok true : Except Fault Bool) := by
    decide +kernel
  obtain ⟨started, starts, evaluated⟩ := bind_ok evaluated
  obtain ⟨made, makes, evaluated⟩ := bind_ok evaluated
  obtain ⟨created, creates, evaluated⟩ := bind_ok evaluated
  obtain ⟨created', creates', evaluated⟩ := bind_ok evaluated
  obtain ⟨running, schedules, evaluated⟩ := bind_ok evaluated
  obtain ⟨⟨code, nothing, blocked⟩, blocks, evaluated⟩ := bind_ok evaluated
  obtain ⟨⟨code', nothing', both⟩, blocks', evaluated⟩ := bind_ok evaluated
  obtain ⟨⟨posting, posted⟩, posts, evaluated⟩ := bind_ok evaluated
  obtain ⟨⟨code'', nothing'', final⟩, takes, evaluated⟩ := bind_ok evaluated
  obtain ⟨⟨noWaiter, known, known'⟩, ⟨isQueue, active, failed⟩, ⟨isQueue', active', failed'⟩,
    ⟨isQueue'', woken, success⟩, ⟨isQueue3, active''⟩, waits, inQueue, isTwo⟩ :=
    of_decide_eq_true (Except.ok.inj evaluated)
  obtain rfl : posting = -SUCCESS := success
  obtain ⟨run, stored⟩ : Relation.ReflTransGen (WakeStep 7960 (.global 5000) False) _ _ ∧ _ :=
    WakeStep.begin starts makes creates creates' schedules noWaiter known known'
  have stored' := (MsgRun.msgRecv_keeps stored blocks failed).stored stored
  have stored'' := (MsgRun.msgRecv_keeps stored' blocks' failed').stored stored'
  have run := run.tail (.receive (.queue ⟨5000, made.2.kernel.lastId⟩) ⟨1, 4, IPC_WAIT⟩
    List.not_mem_nil (by
      change running.activeThread ≠ 7960
      rw [active]
      decide) (if_pos isQueue) blocks)
  dsimp only [WakeRun.self, WakeRun.begin] at run
  rw [active] at run
  have run := run.tail (.receive (.queue ⟨5000, made.2.kernel.lastId⟩) ⟨2, 4, IPC_WAIT⟩
    List.not_mem_nil (by
      change blocked.activeThread ≠ 7960
      rw [active']
      decide) (if_pos isQueue') blocks')
  dsimp only [WakeRun.self] at run
  rw [active'] at run
  have run := run.tail (.post (.queue (some ⟨5000, made.2.kernel.lastId⟩)) ⟨2, 4, fun _ => 9⟩ 6000
    List.not_mem_nil (fun _ => ⟨by decide, fun lists stored3 other => by
      rw [stored3.linked.unique stored''.linked other]
      exact List.not_mem_nil⟩) (if_pos isQueue'') posts False.elim)
  rw [if_pos rfl] at run
  have calls : ([] : List Ptr) ++ WakeRun.woken ⟨both, insert 7100 (insert 7000 {7960}),
      Function.update (Function.update (fun _ => ⟨0, 0, 0⟩) 7000 ⟨1, 4, IPC_WAIT⟩) 7100
        ⟨2, 4, IPC_WAIT⟩, []⟩ (.global 5000) = [7000] := by
    unfold WakeRun.woken
    rw [woken]
    rfl
  rw [calls] at run
  have again : ∀ {asked : Ptr → MsgRequest}, asked 7000 = ⟨1, 4, IPC_WAIT⟩ →
      posted.msgRecv (.queue ⟨5000, made.2.kernel.lastId⟩) (asked posted.activeThread).type
        (asked posted.activeThread).size (asked posted.activeThread).flags =
          .ok (code'', nothing'', final) := by
    intro asked asks
    rw [active'', asks]
    exact takes
  have run := run.tail (.retry (.queue ⟨5000, made.2.kernel.lastId⟩) (by
      change posted.activeThread ∈ [7000]
      rw [active'']
      decide) (by
      change posted.activeThread ≠ 7960
      rw [active'']
      decide) (if_pos isQueue3) (again rfl) False.elim)
  obtain ⟨members, all, lists, coherent, stored3, quiet⟩ :=
    claim _ _ _ _ _ _ (by decide) starts rfl rfl run
  have done : [7000].erase posted.activeThread = [] := by
    rw [active'']
    rfl
  have inThrq : 7100 ∈ members (.thrq (.global 5000)) :=
    coherent.sound.linked.first_mem waits (by decide)
  have inLists : 6000 ∈ lists (.global 5000) := stored3.linked.first_mem inQueue (by decide)
  exact quiet done 7100 inThrq 6000 inLists (.inr isTwo.symm)

end Runs

end Oseer
