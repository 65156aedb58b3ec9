import Oseer.Library.TypedQueue
import Oseer.MessageCopy

/-!
# The messages of a queue

`sys__msg_post` puts a message at the end of a queue, and `sys__msg_recv` takes the first one of
a type, or the first one.  Between the calls the kernel may change everything but the messages
in the queues that are watched.
-/

namespace Oseer

open LinkedRing Results TypedQueue

/-- The source of a message: `MSG_QUEUE`, or `MSG_THREAD` for the queue of the active thread. -/
inductive MsgSource
  | queue (msgq : MsgQ)
  | thread
deriving DecidableEq, Repr

namespace Kernel

/-- The queue that `sys__msg_post` finds, or the error number. -/
def destination (dest : MsgDest) (kernel : Kernel) : Except Int MsgqId :=
  match dest with
  | .thread (some thr) =>
      match kernel.kthreadGetDescriptor thr with
      | none => .error E_DONT_EXIST
      | some kthr => .ok (.thread kthr)
  | .queue (some msgq) =>
      if kernel.IsQueue msgq then .ok (.global msgq.handle) else .error E_INVALID_HANDLE
  | _ => .error E_INVALID_HANDLE

/-- `sys__msg_post` for `MSG_QUEUE` and `MSG_THREAD`, with the address that `kmalloc` returns. -/
def postAt (dest : MsgDest) (msg : Msg) (kmsg : Ptr) (kernel : Kernel) :
    Except Fault (Int × Kernel) :=
  match kernel.destination dest with
  | .error errnum => .ok (kernel.exit errnum)
  | .ok queue => kernel.postTo queue msg kmsg

/-- The queue that `sys__msg_recv` finds, or the error number. -/
def source (src : MsgSource) (kernel : Kernel) : Except Int MsgqId :=
  match src with
  | .thread => .ok (.thread kernel.activeThread)
  | .queue msgq => if kernel.IsQueue msgq then .ok (.global msgq.handle) else .error E_INVALID_HANDLE

/-- `sys__msg_recv`. -/
def msgRecv (src : MsgSource) (type : Int) (size flags : Nat) (kernel : Kernel) :
    Except Fault (Int × Option Msg × Kernel) :=
  match kernel.source src with
  | .error errnum =>
      let result := kernel.exit errnum
      .ok (result.1, none, result.2)
  | .ok queue => kernel.recvFrom queue type size flags

end Kernel

variable {kernel kernel' : Kernel} {queue : MsgqId} {lists : MsgqId → List Ptr} {type : Int}
  {size flags fuel : Nat} {msg : Msg} {kmsg : Ptr} {before after : List Ptr}
  {ran : Int × Option Msg × Kernel}

/-- A message is taken out of its queue: the first one of the type, or the first one. -/
structure Kernel.TakesOut (kernel kernel' : Kernel) (lists : MsgqId → List Ptr) (queue : MsgqId)
    (type : Int) (before : List Ptr) (kmsg : Ptr) (after : List Ptr) : Prop where
  place : lists queue = before ++ kmsg :: after
  first : type = 0 → before = []
  typed : type ≠ 0 → (kernel.kmsgs kmsg).type = type ∧
    ∀ other ∈ before, (kernel.kmsgs other).type ≠ type
  linked : kernel'.msgs.Linked (Function.update lists queue (before ++ after))
  contents : kernel'.kmsgs = kernel.kmsgs

/-- A call that fails leaves the messages as they are. -/
structure Kernel.Keeps (kernel kernel' : Kernel) : Prop where
  msgs : kernel'.msgs = kernel.msgs
  contents : kernel'.kmsgs = kernel.kmsgs

/-- What `sys__msg_recv` does with a queue. -/
def Kernel.Receives (kernel : Kernel) (lists : MsgqId → List Ptr) (queue : MsgqId) (type : Int)
    (size : Nat) (ran : Int × Option Msg × Kernel) : Prop :=
  (ran.1 = -SUCCESS ∧ ∃ before kmsg after,
    kernel.TakesOut ran.2.2 lists queue type before kmsg after ∧
      ran.2.1 = some (kernel.kmsgs kmsg) ∧ (kernel.kmsgs kmsg).size ≤ size) ∨
  ((ran.1 = -E_TOO_BIG ∨ ran.1 = -E_EMPTY ∨ ran.1 = -E_RETRY) ∧ ran.2.1 = none ∧
    kernel.Keeps ran.2.2)

section Receive

/-- The loop finds the first message of the type. -/
theorem findMsg_spec (linked : kernel.msgs.Linked lists)
    (place : lists queue = before ++ after) (enough : after.length < fuel) :
    (kernel.findMsg type fuel (headOf 0 after) = 0 ∧
      ∀ kmsg ∈ after, (kernel.kmsgs kmsg).type ≠ type) ∨
    ∃ skipped kmsg rest, after = skipped ++ kmsg :: rest ∧
      kernel.findMsg type fuel (headOf 0 after) = kmsg ∧ (kernel.kmsgs kmsg).type = type ∧
      ∀ other ∈ skipped, (kernel.kmsgs other).type ≠ type := by
  induction after generalizing before fuel with
  | nil =>
      obtain ⟨fuel, rfl⟩ := Nat.exists_eq_add_one_of_ne_zero (Nat.ne_zero_of_lt enough)
      left
      refine ⟨?_, fun _ mem => absurd mem List.not_mem_nil⟩
      rw [headOf_nil]
      exact if_neg fun both => both.1 rfl
  | cons first rest ih =>
      obtain ⟨fuel, rfl⟩ := Nat.exists_eq_add_one_of_ne_zero (Nat.ne_zero_of_lt enough)
      have mem : first ∈ lists queue := by simp [place]
      have nonzero := linked.ne_zero mem
      have next : kernel.msgs.listGetNext first = headOf 0 rest := linked.listGetNext_eq place
      rw [headOf_cons, Kernel.findMsg]
      by_cases same : (kernel.kmsgs first).type = type
      · right
        refine ⟨[], first, rest, rfl, if_neg fun both => both.2 same, same, ?_⟩
        exact fun _ mem => absurd mem List.not_mem_nil
      · rw [if_pos ⟨nonzero, same⟩, next]
        have place' : lists queue = (before ++ [first]) ++ rest := by simp [place]
        rcases ih place' (Nat.lt_of_succ_lt_succ enough) with
          ⟨none, others⟩ | ⟨skipped, kmsg, rest', shape, found, isType, others⟩
        · left
          refine ⟨none, fun kmsg inList => ?_⟩
          rcases List.mem_cons.mp inList with rfl | inRest
          · exact same
          · exact others kmsg inRest
        · right
          refine ⟨first :: skipped, kmsg, rest', by rw [shape]; rfl, found, isType, ?_⟩
          intro other inSkipped
          rcases List.mem_cons.mp inSkipped with rfl | inRest
          · exact same
          · exact others other inRest

/-- What `sys__msg_recv` searches for: the first message of the type, or the first one. -/
theorem search_spec (linked : kernel.msgs.Linked lists)
    (pointer : ∀ kmsg ∈ lists queue, kmsg < addressCount) :
    ∃ kmsg, (if type ≠ 0 then kernel.findMsg type addressCount
        (kernel.msgs.listGet queue FIRST) else kernel.msgs.listGet queue FIRST) = kmsg ∧
      (kmsg = 0 → ∀ other ∈ lists queue, type ≠ 0 ∧ (kernel.kmsgs other).type ≠ type) ∧
      (kmsg ≠ 0 → ∃ before after, lists queue = before ++ kmsg :: after ∧
        (type = 0 → before = []) ∧ (type ≠ 0 → (kernel.kmsgs kmsg).type = type ∧
          ∀ other ∈ before, (kernel.kmsgs other).type ≠ type)) := by
  rw [linked.listGet_first queue]
  by_cases any : type = 0
  · refine ⟨_, if_neg (not_not_intro any), ?_⟩
    cases shape : lists queue with
    | nil => exact ⟨fun _ _ mem => absurd mem List.not_mem_nil, fun nonzero => absurd rfl nonzero⟩
    | cons first rest =>
        have mem : first ∈ lists queue := by simp [shape]
        rw [headOf_cons]
        exact ⟨fun isZero => absurd isZero (linked.ne_zero mem), fun _ =>
          ⟨[], rest, rfl, fun _ => rfl, fun typed => absurd any typed⟩⟩
  · refine ⟨_, if_pos any, ?_⟩
    rcases findMsg_spec linked (List.nil_append (lists queue)).symm
        (length_lt_addressCount (linked.nodup queue) pointer) with
      ⟨none, others⟩ | ⟨skipped, kmsg, rest, shape, isFound, isType, others⟩
    · exact ⟨fun _ other mem => ⟨any, others other mem⟩, fun nonzero => absurd none nonzero⟩
    · have mem : kmsg ∈ lists queue := by simp [shape]
      rw [isFound]
      exact ⟨fun isZero => absurd isZero (linked.ne_zero mem), fun _ =>
        ⟨skipped, rest, shape, fun zero => absurd zero any, fun _ => ⟨isType, others⟩⟩⟩

/-- A receive takes the right message, or fails and leaves the queue alone. -/
theorem Kernel.recvFrom_receives (linked : kernel.msgs.Linked lists)
    (pointer : ∀ kmsg ∈ lists queue, kmsg < addressCount)
    (result : kernel.recvFrom queue type size flags = .ok ran) :
    kernel.Receives lists queue type size ran := by
  obtain ⟨kmsg, isFound, -, where_⟩ := search_spec linked pointer
  unfold Kernel.recvFrom at result
  dsimp only at result
  rw [isFound] at result
  split at result
  · rename_i nonzero
    obtain ⟨before, after, place, first, typed⟩ := where_ nonzero
    split at result
    · obtain rfl := Except.ok.inj result
      exact .inr ⟨.inl rfl, rfl, rfl, rfl⟩
    · rename_i fits
      obtain rfl := Except.ok.inj result
      have removed := (linked.remove FIRST place).2
      exact .inl ⟨rfl, before, kmsg, after, ⟨place, first, typed, removed, rfl⟩, rfl,
        Nat.le_of_not_lt fits⟩
  · split at result
    · obtain rfl := Except.ok.inj result
      exact .inr ⟨.inr (.inl rfl), rfl, rfl, rfl⟩
    · obtain ⟨scheduled, schedules, rfl⟩ := map_ok result
      obtain ⟨sched, -, rfl⟩ := map_ok schedules
      exact .inr ⟨.inr (.inr rfl), rfl, rfl, rfl⟩

/-- A post appends the message, or fails and leaves the queue alone. -/
theorem Kernel.postTo_cases {answer : Int × Kernel}
    (result : kernel.postTo queue msg kmsg = .ok answer) :
    (answer.1 = -SUCCESS ∧ answer.2.msgs = kernel.msgs.listAppend queue kmsg ∧
      answer.2.kmsgs = Function.update kernel.kmsgs kmsg msg) ∨
    ((answer.1 = -E_IGNORED ∨ answer.1 = -E_NO_MEMORY) ∧ kernel.Keeps answer.2) := by
  unfold Kernel.postTo at result
  dsimp only at result
  split at result
  · split at result
    · obtain rfl := Except.ok.inj result
      exact .inr ⟨.inr rfl, rfl, rfl⟩
    · split at result
      · obtain ⟨scheduled, schedules, rfl⟩ := map_ok result
        obtain ⟨sched, -, rfl⟩ := map_ok schedules
        exact .inl ⟨rfl, rfl, rfl⟩
      · obtain rfl := Except.ok.inj result
        exact .inl ⟨rfl, rfl, rfl⟩
  · obtain rfl := Except.ok.inj result
    exact .inr ⟨.inl rfl, rfl, rfl⟩

theorem Kernel.postTo_success (result : kernel.postTo queue msg kmsg = .ok (-SUCCESS, kernel')) :
    kernel'.msgs = kernel.msgs.listAppend queue kmsg ∧
      kernel'.kmsgs = Function.update kernel.kmsgs kmsg msg := by
  have ignored : -SUCCESS ≠ -E_IGNORED := by decide
  have noMemory : -SUCCESS ≠ -E_NO_MEMORY := by decide
  rcases Kernel.postTo_cases result with ⟨-, appended⟩ | ⟨failed, -⟩
  · exact appended
  · exact absurd failed (not_or.mpr ⟨ignored, noMemory⟩)

end Receive

/-- The messages of each queue, at addresses of 32 bits. -/
structure Kernel.Stored (kernel : Kernel) (lists : MsgqId → List Ptr) : Prop where
  linked : kernel.msgs.Linked lists
  pointer : ∀ queue, ∀ kmsg ∈ lists queue, kmsg < addressCount

theorem Kernel.Keeps.stored (keeps : kernel.Keeps kernel') (stored : kernel.Stored lists) :
    kernel'.Stored lists := ⟨keeps.msgs ▸ stored.linked, stored.pointer⟩

theorem Kernel.Stored.append (stored : kernel.Stored lists) (nonzero : kmsg ≠ 0)
    (below : kmsg < addressCount) (fresh : ∀ queue, kmsg ∉ lists queue)
    (msgs : kernel'.msgs = kernel.msgs.listAppend queue kmsg) :
    kernel'.Stored (Function.update lists queue (lists queue ++ [kmsg])) := by
  refine ⟨msgs ▸ stored.linked.append nonzero fresh, fun other entry mem => ?_⟩
  rcases eq_or_ne other queue with rfl | different
  · rw [Function.update_self] at mem
    rcases List.mem_append.mp mem with old | isNew
    · exact stored.pointer other entry old
    · rwa [List.mem_singleton.mp isNew]
  · rw [Function.update_of_ne different] at mem
    exact stored.pointer other entry mem

/-- The kernel with a record of the queues that are watched and of the messages that each queue
accepted and gave out; `stamp` is the number of messages that were accepted before. -/
structure MsgRun where
  kernel : Kernel
  watched : Set MsgqId
  accepted : MsgqId → List Msg
  received : MsgqId → List Msg
  stamp : Ptr → Nat

namespace MsgRun

/-- A change of the kernel that leaves the messages of some queues alone. -/
def Spared (run : MsgRun) (kernel : Kernel) (queues : Set MsgqId) : Prop :=
  ∀ lists, run.kernel.Stored lists → ∃ lists', kernel.Stored lists' ∧ ∀ queue ∈ queues,
    lists' queue = lists queue ∧ ∀ kmsg ∈ lists queue, kernel.kmsgs kmsg = run.kernel.kmsgs kmsg

/-- The messages in a queue with their stamps. -/
def entries (run : MsgRun) (lists : MsgqId → List Ptr) (queue : MsgqId) : List (Nat × Msg) :=
  (lists queue).map fun kmsg => (run.stamp kmsg, run.kernel.kmsgs kmsg)

end MsgRun

/-- A message is posted or received, a call fails, an empty queue is watched from now on, or
anything else happens, where queues may be cleaned and deleted that are watched no more.  The
address that `kmalloc` returns for a message is not in use. -/
inductive MsgStep : MsgRun → MsgRun → Prop
  | post {run : MsgRun} {kernel : Kernel} {queue : MsgqId} (dest : MsgDest) (msg : Msg)
      (kmsg : Ptr) (nonzero : kmsg ≠ 0) (below : kmsg < addressCount)
      (fresh : ∀ lists, run.kernel.Stored lists → ∀ queue, kmsg ∉ lists queue)
      (found : run.kernel.destination dest = .ok queue)
      (result : run.kernel.postAt dest msg kmsg = .ok (-SUCCESS, kernel)) :
      MsgStep run { run with
        kernel := kernel
        accepted := Function.update run.accepted queue (run.accepted queue ++ [msg])
        stamp := Function.update run.stamp kmsg (run.accepted queue).length }
  | refuse {run : MsgRun} {kernel : Kernel} {code : Int} (dest : MsgDest) (msg : Msg)
      (kmsg : Ptr) (refused : code ≠ -SUCCESS)
      (result : run.kernel.postAt dest msg kmsg = .ok (code, kernel)) :
      MsgStep run { run with kernel := kernel }
  | recv {run : MsgRun} {kernel : Kernel} {queue : MsgqId} {msg : Msg} (src : MsgSource)
      (type : Int) (size flags : Nat) (found : run.kernel.source src = .ok queue)
      (result : run.kernel.msgRecv src type size flags = .ok (-SUCCESS, some msg, kernel)) :
      MsgStep run { run with
        kernel := kernel
        received := Function.update run.received queue (run.received queue ++ [msg]) }
  | fail {run : MsgRun} {kernel : Kernel} {code : Int} {msg : Option Msg} (src : MsgSource)
      (type : Int) (size flags : Nat) (failed : code ≠ -SUCCESS)
      (result : run.kernel.msgRecv src type size flags = .ok (code, msg, kernel)) :
      MsgStep run { run with kernel := kernel }
  | create {run : MsgRun} {kernel : Kernel} (queue : MsgqId) (new : queue ∉ run.watched)
      (empty : kernel.msgs.listGet queue FIRST = 0) (spared : run.Spared kernel run.watched) :
      MsgStep run { run with
        kernel := kernel
        watched := insert queue run.watched
        accepted := Function.update run.accepted queue []
        received := Function.update run.received queue [] }
  | other {run : MsgRun} {kernel : Kernel} {watched : Set MsgqId}
      (fewer : watched ⊆ run.watched) (spared : run.Spared kernel watched) :
      MsgStep run { run with kernel := kernel, watched := watched }

namespace MsgRun

variable {run run' : MsgRun} {dest : MsgDest} {src : MsgSource} {code : Int}

/-- What holds in every state of a run. -/
structure Kept (run : MsgRun) (lists : MsgqId → List Ptr) : Prop where
  stored : run.kernel.Stored lists
  delivered : ∀ queue ∈ run.watched, Delivered Msg.type (run.accepted queue)
    (run.received queue) (run.entries lists queue)

section Calls

/-- A post to a queue, by the queue that is found. -/
theorem postAt_found (found : kernel.destination dest = .ok queue) :
    kernel.postAt dest msg kmsg = kernel.postTo queue msg kmsg := by
  unfold Kernel.postAt
  rw [found]

theorem msgRecv_found (found : kernel.source src = .ok queue) :
    kernel.msgRecv src type size flags = kernel.recvFrom queue type size flags := by
  unfold Kernel.msgRecv
  rw [found]

/-- The call with the allocator of the kernel is the call with the address that it returns. -/
theorem msgPost_postAt {mpool : Nat} {heap : WordMemory.Memory} {posted : Posted}
    (posts : kernel.msgPost mpool dest (some msg) heap = some posted) :
    ∃ kmsg, posted.result = kernel.postAt dest msg kmsg := by
  have sends : ∀ queue, kernel.destination dest = .ok queue →
      kernel.sendTo mpool queue msg heap = some posted →
        ∃ kmsg, posted.result = kernel.postAt dest msg kmsg := by
    intro queue found sends
    unfold Kernel.sendTo at sends
    split at sends
    · obtain ⟨answer, -, rfl⟩ := Option.map_eq_some_iff.mp sends
      exact ⟨answer.1, (postAt_found found).symm⟩
    · obtain rfl := Option.some.inj sends
      exact ⟨0, (postAt_found found).symm⟩
  have errs : ∀ errnum, kernel.destination dest = .error errnum →
      some ⟨none, heap, .ok (kernel.exit errnum)⟩ = some posted →
        ∃ kmsg, posted.result = kernel.postAt dest msg kmsg := by
    intro errnum failed answers
    obtain rfl := Option.some.inj answers
    exact ⟨0, by simp [Kernel.postAt, failed]⟩
  cases dest with
  | queue msgq =>
      cases msgq with
      | none => exact errs E_INVALID_HANDLE rfl posts
      | some msgq =>
          by_cases isQueue : kernel.IsQueue msgq
          · exact sends _ (if_pos isQueue) ((if_pos isQueue).symm.trans posts)
          · exact errs _ (if_neg isQueue) ((if_neg isQueue).symm.trans posts)
  | thread thr =>
      cases thr with
      | none => exact errs E_INVALID_HANDLE rfl posts
      | some thr =>
          cases found : kernel.kthreadGetDescriptor thr with
          | none =>
              unfold Kernel.msgPost at posts
              exact errs E_DONT_EXIST (by simp [Kernel.destination, found])
                (by simpa [found] using posts)
          | some kthr =>
              unfold Kernel.msgPost at posts
              exact sends (.thread kthr) (by simp [Kernel.destination, found])
                (by simpa [found] using posts)

/-- A post that fails leaves every queue alone. -/
theorem postAt_keeps {answer : Int × Kernel}
    (result : kernel.postAt dest msg kmsg = .ok answer) (refused : answer.1 ≠ -SUCCESS) :
    kernel.Keeps answer.2 := by
  cases found : kernel.destination dest with
  | error errnum =>
      unfold Kernel.postAt at result
      rw [found] at result
      obtain rfl := Except.ok.inj result
      exact ⟨rfl, rfl⟩
  | ok queue =>
      rw [postAt_found found] at result
      rcases Kernel.postTo_cases result with ⟨success, -⟩ | ⟨-, keeps⟩
      · exact absurd success refused
      · exact keeps

/-- A receive that fails leaves every queue alone. -/
theorem msgRecv_keeps (stored : kernel.Stored lists)
    (result : kernel.msgRecv src type size flags = .ok ran) (failed : ran.1 ≠ -SUCCESS) :
    kernel.Keeps ran.2.2 := by
  cases found : kernel.source src with
  | error errnum =>
      unfold Kernel.msgRecv at result
      rw [found] at result
      obtain rfl := Except.ok.inj result
      exact ⟨rfl, rfl⟩
  | ok queue =>
      rw [msgRecv_found found] at result
      rcases Kernel.recvFrom_receives stored.linked (stored.pointer queue) result with
        ⟨success, -⟩ | ⟨-, -, keeps⟩
      · exact absurd success failed
      · exact keeps

end Calls

section Steps

theorem Kept.kept (kept : run.Kept lists) (keeps : run.kernel.Keeps kernel) :
    Kept { run with kernel := kernel } lists where
  stored := keeps.stored kept.stored
  delivered queue isWatched := by
    have delivered := kept.delivered queue isWatched
    unfold entries at delivered ⊢
    dsimp only
    rw [keeps.contents]
    exact delivered

/-- The new message is the last one of its queue. -/
theorem Kept.post (kept : run.Kept lists) (nonzero : kmsg ≠ 0) (below : kmsg < addressCount)
    (fresh : ∀ queue, kmsg ∉ lists queue)
    (msgs : kernel.msgs = run.kernel.msgs.listAppend queue kmsg)
    (contents : kernel.kmsgs = Function.update run.kernel.kmsgs kmsg msg) :
    Kept { run with
      kernel := kernel
      accepted := Function.update run.accepted queue (run.accepted queue ++ [msg])
      stamp := Function.update run.stamp kmsg (run.accepted queue).length }
      (Function.update lists queue (lists queue ++ [kmsg])) := by
  have same : ∀ other, (lists other).map (fun entry =>
        (Function.update run.stamp kmsg (run.accepted queue).length entry,
          kernel.kmsgs entry)) = run.entries lists other := by
    intro other
    unfold entries
    apply List.map_congr_left
    intro entry mem
    have different : entry ≠ kmsg := fun same => fresh other (same ▸ mem)
    rw [contents, Function.update_of_ne different, Function.update_of_ne different]
  refine ⟨kept.stored.append nonzero below fresh msgs, ?_⟩
  · intro other isWatched
    have delivered := kept.delivered other isWatched
    unfold entries
    dsimp only
    rcases eq_or_ne other queue with rfl | different
    · rw [Function.update_self, Function.update_self, List.map_append, same, List.map_singleton,
        contents, Function.update_self, Function.update_self]
      exact delivered.put msg
    · rw [Function.update_of_ne different, Function.update_of_ne different, same]
      exact delivered

/-- The message that is received has none of its type before it. -/
theorem Kept.recv (kept : run.Kept lists)
    (takes : run.kernel.TakesOut kernel lists queue type before kmsg after) :
    Kept { run with
      kernel := kernel
      received := Function.update run.received queue
        (run.received queue ++ [run.kernel.kmsgs kmsg]) }
      (Function.update lists queue (before ++ after)) := by
  refine ⟨⟨takes.linked, ?_⟩, ?_⟩
  · intro other entry mem
    rcases eq_or_ne other queue with rfl | different
    · rw [Function.update_self] at mem
      apply kept.stored.pointer other
      rw [takes.place]
      rcases List.mem_append.mp mem with inBefore | inAfter
      · exact List.mem_append_left _ inBefore
      · exact List.mem_append_right _ (List.mem_cons_of_mem _ inAfter)
    · rw [Function.update_of_ne different] at mem
      exact kept.stored.pointer other entry mem
  · intro other isWatched
    have delivered := kept.delivered other isWatched
    unfold entries at delivered ⊢
    dsimp only
    rw [takes.contents]
    rcases eq_or_ne other queue with rfl | different
    · rw [takes.place, List.map_append, List.map_cons] at delivered
      rw [Function.update_self, Function.update_self, List.map_append]
      apply delivered.take
      intro entry mem
      obtain ⟨skipped, inBefore, rfl⟩ := List.mem_map.mp mem
      by_cases any : type = 0
      · rw [takes.first any] at inBefore
        exact absurd inBefore List.not_mem_nil
      · rw [(takes.typed any).1]
        exact (takes.typed any).2 skipped inBefore
    · rw [Function.update_of_ne different, Function.update_of_ne different]
      exact delivered

theorem Spared.kept {queues : Set MsgqId} (spared : run.Spared kernel queues)
    (kept : run.Kept lists) : ∃ lists', kernel.Stored lists' ∧ ∀ queue ∈ queues,
      MsgRun.entries { run with kernel := kernel } lists' queue = run.entries lists queue := by
  obtain ⟨lists', stored, same⟩ := spared lists kept.stored
  refine ⟨lists', stored, fun queue mem => ?_⟩
  obtain ⟨sameList, contents⟩ := same queue mem
  unfold entries
  rw [sameList]
  apply List.map_congr_left
  intro kmsg inList
  dsimp only
  rw [contents kmsg inList]

theorem Kept.step (kept : run.Kept lists) (step : MsgStep run run') :
    ∃ lists', run'.Kept lists' := by
  cases step with
  | post dest msg kmsg nonzero below fresh found result =>
      rw [postAt_found found] at result
      obtain ⟨msgs, contents⟩ := Kernel.postTo_success result
      exact ⟨_, kept.post nonzero below (fresh lists kept.stored) msgs contents⟩
  | refuse dest msg kmsg refused result =>
      exact ⟨lists, kept.kept (postAt_keeps result refused)⟩
  | recv src type size flags found result =>
      rw [msgRecv_found found] at result
      rcases Kernel.recvFrom_receives kept.stored.linked (kept.stored.pointer _) result with
        ⟨-, before, kmsg, after, takes, given, -⟩ | ⟨-, given, -⟩
      · obtain rfl := Option.some.inj given
        exact ⟨_, kept.recv takes⟩
      · cases given
  | fail src type size flags failed result =>
      exact ⟨lists, kept.kept (msgRecv_keeps kept.stored result failed)⟩
  | create queue new empty spared =>
      obtain ⟨lists', stored, same⟩ := spared.kept kept
      refine ⟨lists', stored, fun other isWatched => ?_⟩
      rcases eq_or_ne other queue with rfl | different
      · unfold entries
        dsimp only
        rw [Function.update_self, Function.update_self, stored.linked.eq_nil empty]
        exact .start Msg.type
      · have old : other ∈ run.watched := isWatched.resolve_left different
        dsimp only
        rw [Function.update_of_ne different, Function.update_of_ne different]
        exact (same other old).symm ▸ kept.delivered other old
  | other fewer spared =>
      obtain ⟨lists', stored, same⟩ := spared.kept kept
      refine ⟨lists', stored, fun queue isWatched => ?_⟩
      exact (same queue isWatched).symm ▸ kept.delivered queue (fewer isWatched)

end Steps

section Others

theorem boot_stored : Kernel.boot.Stored fun _ => [] := by
  refine ⟨⟨?_, ?_, ?_, ?_⟩, ?_⟩
  · exact fun _ => ring_nil.mpr ⟨rfl, rfl⟩
  · exact fun _ => List.nodup_singleton 0
  · exact fun _ _ _ mem => absurd mem List.not_mem_nil
  · exact fun _ _ mem => absurd mem List.not_mem_nil
  · exact fun _ _ mem => absurd mem List.not_mem_nil

theorem Spared.of_keeps {queues : Set MsgqId} (keeps : run.kernel.Keeps kernel) :
    run.Spared kernel queues := by
  intro lists stored
  exact ⟨lists, keeps.stored stored, fun _ _ => ⟨rfl, fun _ _ => congrFun keeps.contents _⟩⟩

/-- A new queue, where no messages are at its address. -/
theorem createMsgQueue_keeps {state : QueueKernel} {answer : Int × QueueKernel}
    {msgq gmsgq : Ptr} {minPrio : Nat} (stored : state.kernel.Stored lists)
    (empty : lists (.global gmsgq) = [])
    (creates : state.sysCreateMsgQueue msgq minPrio gmsgq = .ok answer) :
    state.kernel.Keeps answer.2.kernel := by
  unfold QueueKernel.sysCreateMsgQueue at creates
  split_ifs at creates
  · obtain rfl := Except.ok.inj creates
    exact ⟨rfl, rfl⟩
  · obtain rfl := Except.ok.inj creates
    exact ⟨rfl, rfl⟩
  · obtain ⟨numbered, takes, rfl⟩ := map_ok creates
    obtain ⟨lastId, -, rfl⟩ := map_ok takes
    exact ⟨stored.linked.listInit_eq empty, rfl⟩

theorem fresh_of (stored : kernel.Stored lists) (unused : ∀ queue, kmsg ∉ lists queue) :
    ∀ lists, kernel.Stored lists → ∀ queue, kmsg ∉ lists queue := by
  intro lists' stored' queue
  rw [stored'.linked.unique stored.linked queue]
  exact unused queue

end Others

end MsgRun

section Runs

variable {first last : MsgRun}

/-- In every run each queue that is watched has given out, of every type, the messages that it
accepted first, and holds the others; a receive takes the first message that fits its type; and
calls that fail leave the messages as they are. -/
theorem messages_delivered (starts : first.kernel = Kernel.boot) (none : first.watched = ∅)
    (run : Relation.ReflTransGen MsgStep first last) :
    ∃ lists, last.kernel.Stored lists ∧
      (∀ queue ∈ last.watched,
        Delivered Msg.type (last.accepted queue) (last.received queue)
          (last.entries lists queue) ∧
        ∀ type, (last.received queue).filter (fun msg => msg.type = type) <+:
          (last.accepted queue).filter fun msg => msg.type = type) ∧
      (∀ src queue type size flags ran, last.kernel.source src = .ok queue →
        last.kernel.msgRecv src type size flags = .ok ran →
          last.kernel.Receives lists queue type size ran) ∧
      ∀ dest msg kmsg answer, last.kernel.postAt dest msg kmsg = .ok answer →
        answer.1 ≠ -SUCCESS → last.kernel.Keeps answer.2 := by
  have kept : ∃ lists, last.Kept lists := by
    induction run with
    | refl =>
        refine ⟨fun _ => [], starts ▸ MsgRun.boot_stored, fun queue isWatched => ?_⟩
        rw [none] at isWatched
        cases isWatched
    | tail _ step ih =>
        obtain ⟨lists, kept⟩ := ih
        exact kept.step step
  obtain ⟨lists, kept⟩ := kept
  refine ⟨lists, kept.stored, fun queue isWatched => ?_, ?_, ?_⟩
  · have delivered := kept.delivered queue isWatched
    exact ⟨delivered, delivered.received_prefix⟩
  · intro src queue type size flags ran found result
    rw [MsgRun.msgRecv_found found] at result
    exact Kernel.recvFrom_receives kept.stored.linked (kept.stored.pointer queue) result
  · intro dest msg kmsg answer result refused
    exact MsgRun.postAt_keeps result refused

/-- Two messages are posted to a new queue, and the second one is received by its type. -/
theorem messages_delivered_sample : ∃ first last : MsgRun,
    Relation.ReflTransGen MsgStep first last ∧
      (last.accepted (.global 5000)).length = 2 ∧ (last.received (.global 5000)).length = 1 ∧
      ∃ lists, last.kernel.Stored lists ∧
        (∀ queue ∈ last.watched,
          Delivered Msg.type (last.accepted queue) (last.received queue)
            (last.entries lists queue) ∧
          ∀ type, (last.received queue).filter (fun msg => msg.type = type) <+:
            (last.accepted queue).filter fun msg => msg.type = type) ∧
        (∀ src queue type size flags ran, last.kernel.source src = .ok queue →
          last.kernel.msgRecv src type size flags = .ok ran →
            last.kernel.Receives lists queue type size ran) ∧
        ∀ dest msg kmsg answer, last.kernel.postAt dest msg kmsg = .ok answer →
          answer.1 ≠ -SUCCESS → last.kernel.Keeps answer.2 := by
  let seven : Msg := ⟨7, 4, fun _ => 1⟩
  let eight : Msg := ⟨8, 4, fun _ => 2⟩
  have evaluated : (do
      let made ← (QueueKernel.start Kernel.boot).sysCreateMsgQueue 4000 0 5000
      let posted ← made.2.kernel.postAt (.queue (some ⟨5000, made.2.kernel.lastId⟩)) seven 6000
      let again ← posted.2.postAt (.queue (some ⟨5000, made.2.kernel.lastId⟩)) eight 6100
      let taken ← again.2.msgRecv (.queue ⟨5000, made.2.kernel.lastId⟩) 8 4 0
      return decide (made.2.kernel.msgs.listGet (.global 5000) FIRST = 0 ∧
        made.2.kernel.IsQueue ⟨5000, made.2.kernel.lastId⟩ ∧
        posted.1 = -SUCCESS ∧ posted.2.IsQueue ⟨5000, made.2.kernel.lastId⟩ ∧
        again.1 = -SUCCESS ∧ again.2.IsQueue ⟨5000, made.2.kernel.lastId⟩ ∧
        taken.1 = -SUCCESS ∧ taken.2.1.isSome)) = (.ok true : Except Fault Bool) := by
    decide +kernel
  obtain ⟨⟨created, made⟩, creates, evaluated⟩ := bind_ok evaluated
  obtain ⟨⟨code, posted⟩, posts, evaluated⟩ := bind_ok evaluated
  obtain ⟨⟨code', again⟩, repeats, evaluated⟩ := bind_ok evaluated
  obtain ⟨⟨code'', taken, final⟩, takes, evaluated⟩ := bind_ok evaluated
  obtain ⟨empty, isQueue, success, isQueue', success', isQueue'', success'', received⟩ :=
    of_decide_eq_true (Except.ok.inj evaluated)
  obtain rfl : code = -SUCCESS := success
  obtain rfl : code' = -SUCCESS := success'
  obtain rfl : code'' = -SUCCESS := success''
  obtain ⟨msg, rfl⟩ := Option.isSome_iff_exists.mp received
  let first : MsgRun := ⟨Kernel.boot, ∅, fun _ => [], fun _ => [], fun _ => 0⟩
  have keeps := MsgRun.createMsgQueue_keeps MsgRun.boot_stored rfl creates
  have stored := keeps.stored MsgRun.boot_stored
  have found : ∀ {kernel : Kernel}, kernel.IsQueue ⟨5000, made.kernel.lastId⟩ →
      kernel.destination (.queue (some ⟨5000, made.kernel.lastId⟩)) = .ok (.global 5000) ∧
        kernel.source (.queue ⟨5000, made.kernel.lastId⟩) = .ok (.global 5000) :=
    fun isQueue => ⟨if_pos isQueue, if_pos isQueue⟩
  have appended := posts
  rw [MsgRun.postAt_found (found isQueue).1] at appended
  have stored' := stored.append (by decide) (by decide) (fun _ => List.not_mem_nil)
    (Kernel.postTo_success appended).1
  have unused : ∀ queue, 6100 ∉ Function.update (fun _ => []) (MsgqId.global 5000)
      ([] ++ [6000]) queue := by
    intro queue
    rcases eq_or_ne queue (.global 5000) with rfl | different
    · simp
    · simp [different]
  have new : MsgqId.global 5000 ∉ first.watched := fun mem => mem
  have spared : first.Spared made.kernel first.watched := .of_keeps keeps
  have run := Relation.ReflTransGen.single (MsgStep.create (.global 5000) new empty spared)
  have run := run.tail (.post (.queue (some ⟨5000, made.kernel.lastId⟩)) seven 6000 (by decide)
    (by decide) (MsgRun.fresh_of stored fun _ => List.not_mem_nil) (found isQueue).1 posts)
  have run := run.tail (.post (.queue (some ⟨5000, made.kernel.lastId⟩)) eight 6100 (by decide)
    (by decide) (MsgRun.fresh_of stored' unused) (found isQueue').1 repeats)
  have run := run.tail (.recv (.queue ⟨5000, made.kernel.lastId⟩) 8 4 0 (found isQueue'').2 takes)
  refine ⟨first, _, run, ?_, ?_, messages_delivered rfl rfl run⟩
  · simp [first]
  · simp [first]

end Runs

end Oseer
