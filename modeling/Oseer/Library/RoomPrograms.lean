import Oseer.Library.MonitorRooms

/-!
# Programs that use monitors

Threads of a program lock rooms, leave them, wait for conditions and signal them.  The program
says which thread is within the part of its code that a room guards; such a thread is inside of
the room, or it waits and comes back to it.
-/

namespace RoomPrograms

open MonitorRooms Rooms

/-- A call of a thread. -/
inductive Call (μ κ : Type)
  | lock (room : μ)
  | unlock (room : μ)
  | wait (room : μ) (condition : κ)
  | signal (condition : κ)
deriving DecidableEq

section Calls

variable {μ κ τ : Type} [DecidableEq μ] [DecidableEq κ] [DecidableEq τ]

/-- A step of a thread, as far as the rooms go.  A thread that is not inside of a room cannot
leave it. -/
def call (thread : τ) : Option (Call μ κ) → Rooms μ κ τ → Rooms μ κ τ
  | none, rooms => rooms
  | some (.lock room), rooms => rooms.enter room thread
  | some (.unlock room), rooms =>
      if thread ∈ rooms.inside room then rooms.leave room thread else rooms
  | some (.wait room condition), rooms =>
      if thread ∈ rooms.inside room then rooms.await condition room thread else rooms
  | some (.signal condition), rooms => rooms.signal condition

variable {rooms : Rooms μ κ τ} {room other : μ} {condition condition' : κ} {thread entry : τ}

/-- A thread is inside of a room, or comes back to it. -/
def Claims (rooms : Rooms μ κ τ) (room : μ) (thread : τ) : Prop :=
  thread ∈ rooms.inside room ∨ rooms.Blocked room thread

omit [DecidableEq τ] in
theorem blocked_enter : (rooms.enter room thread).Blocked other entry ↔
    rooms.Blocked other entry ∨ rooms.inside room ≠ [] ∧ entry = thread ∧ other = room := by
  constructor
  · rintro (waits | ⟨condition, waits, back⟩)
    · unfold enter at waits
      split at waits
      · exact .inl (.inl waits)
      · rename_i taken
        dsimp only at waits
        by_cases same : other = room
        · subst same
          rw [Function.update_self, List.mem_append, List.mem_singleton] at waits
          exact waits.imp Or.inl fun isThread => ⟨taken, isThread, rfl⟩
        · rw [Function.update_of_ne (by simpa using same)] at waits
          exact .inl (.inl waits)
    · rw [enter_condition] at waits
      rw [enter_back] at back
      exact .inl (.inr ⟨condition, waits, back⟩)
  · rintro (blocked | ⟨taken, rfl, rfl⟩)
    · exact blocked.enter
    · left
      unfold enter
      rw [if_neg taken]
      simp

omit [DecidableEq τ] in
theorem claims_enter : Claims (rooms.enter room thread) other entry ↔
    Claims rooms other entry ∨ entry = thread ∧ other = room := by
  unfold Claims
  rw [blocked_enter]
  unfold enter
  split
  next empty =>
    by_cases same : other = room
    · subst same
      simp [empty]
      tauto
    · simp [same]
  next taken =>
    simp [taken]
    tauto

/-- Who leaves a room does not claim it any more. -/
theorem claims_leave (inside : rooms.inside room = [thread]) :
    Claims (rooms.leave room thread) other entry ↔
      entry ∈ rooms.inside other ∧ other ≠ room ∨ rooms.Blocked other entry := by
  unfold Claims Blocked leave
  rw [inside, List.erase_cons_head, List.nil_append]
  dsimp only
  have split := List.take_append_drop 1 (rooms.queue (.entry room))
  have waits : ∀ condition, Function.update rooms.queue (.entry room)
      ((rooms.queue (.entry room)).drop 1) (.condition condition) =
        rooms.queue (.condition condition) := fun _ => Function.update_of_ne (by simp) ..
  simp only [waits]
  by_cases same : other = room
  · subst same
    rw [Function.update_self, Function.update_self]
    have either : entry ∈ rooms.queue (.entry other) ↔ entry ∈ (rooms.queue (.entry other)).take 1 ∨
        entry ∈ (rooms.queue (.entry other)).drop 1 := by
      rw [← List.mem_append, split]
    rw [either]
    simp
    tauto
  · rw [Function.update_of_ne same, Function.update_of_ne (by simpa using same)]
    simp [same]

theorem claims_unlock (consistent : rooms.Consistent) (mem : thread ∈ rooms.inside room) :
    Claims (rooms.leave room thread) other entry ↔
      Claims rooms other entry ∧ ¬ (entry = thread ∧ other = room) := by
  have inside := consistent.inside_eq mem
  have notBlocked : ¬ rooms.Blocked room thread := by
    obtain ⟨notEntry, notCondition⟩ := consistent.outside room thread mem
    rintro (waits | ⟨condition, waits, back⟩)
    · exact notEntry waits
    · exact notCondition condition waits back
  rw [claims_leave inside]
  unfold Claims
  by_cases same : other = room
  · subst same
    rw [inside, List.mem_singleton]
    by_cases isThread : entry = thread
    · subst isThread
      simp [notBlocked]
    · simp [isThread]
  · simp [same]

/-- Who waits for a condition claims the room that it leaves. -/
theorem claims_await (consistent : rooms.Consistent) (mem : thread ∈ rooms.inside room)
    (free : ∀ place, thread ∉ rooms.queue place) :
    Claims (rooms.await condition room thread) other entry ↔ Claims rooms other entry := by
  have inside := consistent.inside_eq mem
  unfold await
  rw [claims_leave (by exact inside)]
  unfold Claims Blocked
  dsimp only
  rw [Function.update_of_ne (by simp)]
  by_cases isThread : entry = thread
  · subst isThread
    have waits : ∀ condition', entry ∈ Function.update rooms.queue (.condition condition)
        (rooms.queue (.condition condition) ++ [entry]) (.condition condition') ↔
          condition' = condition := by
      intro condition'
      by_cases same : condition' = condition
      · subst same
        simp
      · rw [Function.update_of_ne (by simpa using same)]
        simp [free, same]
    simp only [waits, Function.update_self, free, false_and, exists_false, false_or, or_false,
      exists_eq_left]
    by_cases same : other = room
    · subst same
      simp [mem]
    · simp [same, Ne.symm same]
  · have waits : ∀ condition', entry ∈ Function.update rooms.queue (.condition condition)
        (rooms.queue (.condition condition) ++ [thread]) (.condition condition') ↔
          entry ∈ rooms.queue (.condition condition') := by
      intro condition'
      by_cases same : condition' = condition
      · subst same
        simp [isThread]
      · rw [Function.update_of_ne (by simpa using same)]
    simp only [waits, Function.update_of_ne isThread]
    by_cases same : other = room
    · subst same
      simp [inside, isThread]
    · simp [same]

omit [DecidableEq τ] in
theorem claims_signal (consistent : rooms.Consistent) :
    Claims (rooms.signal condition) other entry ↔ Claims rooms other entry := by
  cases shape : rooms.queue (.condition condition) with
  | nil => rw [signal_nil shape]
  | cons first rest =>
      obtain ⟨-, gone, -⟩ := consistent.depart shape
      rw [signal_cons shape, claims_enter]
      unfold Claims Blocked
      dsimp only
      rw [Function.update_of_ne (by simp)]
      by_cases isFirst : entry = first
      · subst isFirst
        have waits : ∀ condition', entry ∈ rooms.queue (.condition condition') ↔
            condition' = condition := by
          intro condition'
          constructor
          · intro mem
            have same := consistent.apart _ (.condition condition) entry mem (by simp [shape])
            exact Place.condition.inj same
          · rintro rfl
            simp [shape]
        simp only [gone, waits, false_and, exists_false, or_false, exists_eq_left, true_and]
        rw [or_assoc, eq_comm]
      · have waits : ∀ condition', entry ∈ Function.update rooms.queue (.condition condition) rest
            (.condition condition') ↔ entry ∈ rooms.queue (.condition condition') := by
          intro condition'
          by_cases same : condition' = condition
          · subst same
            simp [shape, isFirst]
          · rw [Function.update_of_ne (by simpa using same)]
        simp [waits, isFirst]

theorem leave_condition : (rooms.leave room thread).queue (.condition condition) =
    rooms.queue (.condition condition) := by
  have different : Place.condition condition ≠ Place.entry room := by simp
  unfold leave
  dsimp only
  rw [Function.update_of_ne different]

/-- Who waits for a condition after a call has waited before, or has just called. -/
theorem mem_condition_call {called : Option (Call μ κ)}
    (mem : entry ∈ (call thread called rooms).queue (.condition condition)) :
    entry ∈ rooms.queue (.condition condition) ∨
      entry = thread ∧ ∃ room, thread ∈ rooms.inside room ∧
        called = some (.wait room condition) := by
  cases called with
  | none => exact .inl mem
  | some called =>
      cases called with
      | lock room =>
          left
          change entry ∈ (rooms.enter room thread).queue _ at mem
          rwa [enter_condition] at mem
      | unlock room =>
          left
          change entry ∈ (if thread ∈ rooms.inside room then rooms.leave room thread
            else rooms).queue _ at mem
          split at mem
          · rwa [leave_condition] at mem
          · exact mem
      | wait room condition' =>
          change entry ∈ (if thread ∈ rooms.inside room then rooms.await condition' room thread
            else rooms).queue _ at mem
          split at mem
          next inside =>
            unfold await at mem
            rw [leave_condition] at mem
            dsimp only at mem
            by_cases same : condition = condition'
            · subst same
              rw [Function.update_self, List.mem_append, List.mem_singleton] at mem
              exact mem.imp id fun isThread => ⟨isThread, room, inside, rfl⟩
            · rw [Function.update_of_ne (by simpa using same)] at mem
              exact .inl mem
          next => exact .inl mem
      | signal condition' =>
          left
          change entry ∈ (rooms.signal condition').queue _ at mem
          cases shape : rooms.queue (.condition condition') with
          | nil => rwa [signal_nil shape] at mem
          | cons first rest =>
              rw [signal_cons shape, enter_condition] at mem
              dsimp only at mem
              by_cases same : condition = condition'
              · subst same
                rw [Function.update_self] at mem
                rw [shape]
                exact .tail _ mem
              · rwa [Function.update_of_ne (by simpa using same)] at mem

/-- Who waits after a call has waited before, or has just called to lock a room or to wait. -/
theorem mem_queue_call {called : Option (Call μ κ)} {place : Place μ κ}
    (mem : entry ∈ (call thread called rooms).queue place) :
    (∃ before, entry ∈ rooms.queue before) ∨
      entry = thread ∧ ((∃ room, called = some (.lock room)) ∨
        ∃ room condition, called = some (.wait room condition)) := by
  cases place with
  | condition condition =>
      rcases mem_condition_call mem with old | ⟨isThread, room, -, isCall⟩
      · exact .inl ⟨_, old⟩
      · exact .inr ⟨isThread, .inr ⟨room, condition, isCall⟩⟩
  | entry room =>
      have left : ∀ (rooms : Rooms μ κ τ) (other : μ),
          entry ∈ (rooms.leave other thread).queue (.entry room) →
            entry ∈ rooms.queue (.entry room) := by
        intro rooms other mem
        unfold leave at mem
        dsimp only at mem
        by_cases same : room = other
        · subst same
          rw [Function.update_self] at mem
          exact List.mem_of_mem_drop mem
        · rwa [Function.update_of_ne (by simpa using same)] at mem
      have arrived : ∀ (rooms : Rooms μ κ τ) (other : μ) (thread : τ),
          entry ∈ (rooms.enter other thread).queue (.entry room) →
            entry ∈ rooms.queue (.entry room) ∨ entry = thread := by
        intro rooms other thread mem
        have blocked : (rooms.enter other thread).Blocked room entry := .inl mem
        unfold enter at mem
        split at mem
        · exact .inl mem
        · dsimp only at mem
          by_cases same : room = other
          · subst same
            rw [Function.update_self, List.mem_append, List.mem_singleton] at mem
            exact mem
          · rw [Function.update_of_ne (by simpa using same)] at mem
            exact .inl mem
      cases called with
      | none => exact .inl ⟨_, mem⟩
      | some called =>
          cases called with
          | lock other =>
              rcases arrived rooms other thread mem with old | isThread
              · exact .inl ⟨_, old⟩
              · exact .inr ⟨isThread, .inl ⟨other, rfl⟩⟩
          | unlock other =>
              left
              change entry ∈ (if thread ∈ rooms.inside other then rooms.leave other thread
                else rooms).queue _ at mem
              split at mem
              · exact ⟨_, left rooms other mem⟩
              · exact ⟨_, mem⟩
          | wait other condition =>
              change entry ∈ (if thread ∈ rooms.inside other then rooms.await condition other thread
                else rooms).queue _ at mem
              split at mem
              · have old := left _ other mem
                dsimp only at old
                rw [Function.update_of_ne (by simp)] at old
                exact .inl ⟨_, old⟩
              · exact .inl ⟨_, mem⟩
          | signal condition =>
              left
              change entry ∈ (rooms.signal condition).queue _ at mem
              cases shape : rooms.queue (.condition condition) with
              | nil =>
                  rw [signal_nil shape] at mem
                  exact ⟨_, mem⟩
              | cons first rest =>
                  rw [signal_cons shape] at mem
                  rcases arrived _ _ first mem with old | isFirst
                  · dsimp only at old
                    rw [Function.update_of_ne (by simp)] at old
                    exact ⟨_, old⟩
                  · exact ⟨.condition condition, by simp [shape, isFirst]⟩

theorem wait_queued (inside : thread ∈ rooms.inside room) :
    thread ∈ (call thread (some (.wait room condition)) rooms).queue (.condition condition) := by
  have isCall : call thread (some (.wait room condition)) rooms =
      rooms.await condition room thread := if_pos inside
  rw [isCall]
  unfold await
  rw [leave_condition]
  simp

/-- Only a signal takes a thread out of a queue for a condition, and it is the first one. -/
theorem condition_kept {called : Option (Call μ κ)}
    (mem : entry ∈ rooms.queue (.condition condition)) :
    entry ∈ (call thread called rooms).queue (.condition condition) ∨
      called = some (.signal condition) ∧
        (rooms.queue (.condition condition)).head? = some entry := by
  cases called with
  | none => exact .inl mem
  | some called =>
      cases called with
      | lock room =>
          left
          change entry ∈ (rooms.enter room thread).queue _
          rwa [enter_condition]
      | unlock room =>
          left
          change entry ∈ (if thread ∈ rooms.inside room then rooms.leave room thread
            else rooms).queue _
          split
          · rwa [leave_condition]
          · exact mem
      | wait room condition' =>
          left
          change entry ∈ (if thread ∈ rooms.inside room then rooms.await condition' room thread
            else rooms).queue _
          split
          · unfold await
            rw [leave_condition]
            dsimp only
            by_cases same : condition = condition'
            · subst same
              rw [Function.update_self]
              exact List.mem_append_left _ mem
            · rwa [Function.update_of_ne (by simpa using same)]
          · exact mem
      | signal condition' =>
          by_cases same : condition = condition'
          · subst same
            cases shape : rooms.queue (.condition condition) with
            | nil =>
                rw [shape] at mem
                cases mem
            | cons first rest =>
                rw [shape] at mem
                rcases List.mem_cons.mp mem with rfl | later
                · exact .inr ⟨rfl, rfl⟩
                · left
                  change entry ∈ (rooms.signal condition).queue _
                  rw [signal_cons shape, enter_condition]
                  dsimp only
                  rwa [Function.update_self]
          · left
            change entry ∈ (rooms.signal condition').queue _
            cases shape : rooms.queue (.condition condition') with
            | nil => rwa [signal_nil shape]
            | cons first rest =>
                rw [signal_cons shape, enter_condition]
                dsimp only
                rwa [Function.update_of_ne (by simpa using same)]

end Calls

section Programs

variable {μ κ τ P : Type} [DecidableEq μ] [DecidableEq κ] [DecidableEq τ]

/-- What each thread does next in a program: the call, and the state of the program behind it. -/
abbrev Next (μ κ τ P : Type) := τ → P → Option (Option (Call μ κ) × P)

/-- A thread that stands in no queue takes its next step. -/
inductive Step (next : Next μ κ τ P) : Rooms μ κ τ × P → Rooms μ κ τ × P → Prop
  | take {rooms : Rooms μ κ τ} {program program' : P} {called : Option (Call μ κ)} (thread : τ)
      (free : ∀ place, thread ∉ rooms.queue place)
      (takes : next thread program = some (called, program')) :
      Step next (rooms, program) (call thread called rooms, program')

/-- What a program says about its threads: which of them are within the part that a room guards,
which have just called to lock a room or to wait, and which have just called to wait for a
condition. -/
structure Accounts (μ κ τ P : Type) where
  within : μ → P → τ → Prop
  stopped : P → τ → Prop
  awaits : κ → P → τ → Prop

/-- The threads that are within a part after a call. -/
def Within (thread : τ) (called : Option (Call μ κ)) (room : μ) (entry : τ) (was : Prop) : Prop :=
  match called with
  | some (.lock other) => was ∨ entry = thread ∧ room = other
  | some (.unlock other) => was ∧ ¬ (entry = thread ∧ room = other)
  | _ => was

/-- The steps of the program agree with the accounts: a thread locks a room that it is not within,
and unlocks one that it is within. -/
structure Accounts.Follows (accounts : Accounts μ κ τ P) (next : Next μ κ τ P) : Prop where
  locks : ∀ {thread program room program'}, next thread program = some (some (.lock room), program') →
    ¬ accounts.within room program thread ∧ accounts.stopped program' thread
  unlocks : ∀ {thread program room program'},
    next thread program = some (some (.unlock room), program') → accounts.within room program thread
  waits : ∀ {thread program room condition program'},
    next thread program = some (some (.wait room condition), program') →
      accounts.within room program thread ∧ accounts.stopped program' thread ∧
        accounts.awaits condition program' thread
  moves : ∀ {thread program called program'}, next thread program = some (called, program') →
    ∀ room entry, accounts.within room program' entry ↔
      Within thread called room entry (accounts.within room program entry)
  apart : ∀ {thread program called program'}, next thread program = some (called, program') →
    ∀ other, other ≠ thread → (accounts.stopped program other → accounts.stopped program' other) ∧
      ∀ condition, accounts.awaits condition program other → accounts.awaits condition program' other

/-- The accounts of a state: who is within a part claims its room, and who waits has just called
for it. -/
structure Accounts.Sound (accounts : Accounts μ κ τ P) (rooms : Rooms μ κ τ) (program : P) :
    Prop where
  consistent : rooms.Consistent
  claims : ∀ room thread, accounts.within room program thread ↔ Claims rooms room thread
  stops : ∀ place, ∀ thread ∈ rooms.queue place, accounts.stopped program thread
  awaits : ∀ condition, ∀ thread ∈ rooms.queue (.condition condition),
    accounts.awaits condition program thread

variable {accounts : Accounts μ κ τ P} {next : Next μ κ τ P} {rooms : Rooms μ κ τ}
  {program program' : P} {room : μ} {thread other : τ} {called : Option (Call μ κ)}
  {state state' : Rooms μ κ τ × P}

omit [DecidableEq μ] [DecidableEq κ] [DecidableEq τ] in
/-- Who is within a part and stands in no queue is inside of the room. -/
theorem Accounts.Sound.inside (sound : accounts.Sound rooms program)
    (within : accounts.within room program thread) (free : ∀ place, thread ∉ rooms.queue place) :
    thread ∈ rooms.inside room := by
  rcases (sound.claims room thread).mp within with inside | waits | ⟨condition, waits, -⟩
  · exact inside
  · exact absurd waits (free _)
  · exact absurd waits (free _)

omit [DecidableEq μ] [DecidableEq κ] [DecidableEq τ] in
/-- Only one thread is within a part and stands in no queue. -/
theorem Accounts.Sound.alone (sound : accounts.Sound rooms program)
    (within : accounts.within room program thread) (free : ∀ place, thread ∉ rooms.queue place)
    (otherWithin : accounts.within room program other)
    (otherFree : ∀ place, other ∉ rooms.queue place) : other = thread := by
  have inside := sound.consistent.inside_eq (sound.inside within free)
  have mem := sound.inside otherWithin otherFree
  rw [inside, List.mem_singleton] at mem
  exact mem

omit [DecidableEq μ] [DecidableEq κ] [DecidableEq τ] in
/-- Who is inside of the only room of a program stands in no queue. -/
theorem Accounts.Sound.free (sound : accounts.Sound rooms program)
    (single : ∀ other thread, accounts.within other program thread → other = room)
    (mem : thread ∈ rooms.inside room) : ∀ place, thread ∉ rooms.queue place := by
  obtain ⟨notEntry, notCondition⟩ := sound.consistent.outside room thread mem
  have claims : ∀ other, rooms.Blocked other thread → other = room := fun other blocked =>
    single other thread ((sound.claims other thread).mpr (.inr blocked))
  intro place waits
  cases place with
  | entry other => exact notEntry (claims other (.inl waits) ▸ waits)
  | condition condition =>
      exact notCondition condition waits (claims _ (.inr ⟨condition, waits, rfl⟩))

theorem Accounts.Sound.take (sound : accounts.Sound rooms program) (follows : accounts.Follows next)
    (free : ∀ place, thread ∉ rooms.queue place)
    (takes : next thread program = some (called, program')) :
    accounts.Sound (call thread called rooms) program' := by
  have moves := follows.moves takes
  have stops : ∀ place, ∀ entry ∈ (call thread called rooms).queue place,
      accounts.stopped program' entry := by
    intro place entry mem
    rcases mem_queue_call mem with ⟨before, old⟩ | ⟨rfl, ⟨room, rfl⟩ | ⟨room, condition, rfl⟩⟩
    · have different : entry ≠ thread := fun same => free _ (same ▸ old)
      exact (follows.apart takes entry different).1 (sound.stops before entry old)
    · exact (follows.locks takes).2
    · exact (follows.waits takes).2.1
  have awaits : ∀ condition, ∀ entry ∈ (call thread called rooms).queue (.condition condition),
      accounts.awaits condition program' entry := by
    intro condition entry mem
    rcases mem_condition_call mem with old | ⟨rfl, room, -, rfl⟩
    · have different : entry ≠ thread := fun same => free _ (same ▸ old)
      exact (follows.apart takes entry different).2 condition (sound.awaits condition entry old)
    · exact (follows.waits takes).2.2
  cases called with
  | none =>
      exact ⟨sound.consistent, fun room entry => (moves room entry).trans (sound.claims ..), stops,
        awaits⟩
  | some called =>
      cases called with
      | lock room =>
          have absent : thread ∉ rooms.inside room := fun mem =>
            (follows.locks takes).1 ((sound.claims room thread).mpr (.inl mem))
          refine ⟨sound.consistent.enter free absent, fun other entry => ?_, stops, awaits⟩
          rw [moves, call, claims_enter, ← sound.claims]
          rfl
      | unlock room =>
          have inside := sound.inside (follows.unlocks takes) free
          have isCall : call thread (some (.unlock room)) rooms = rooms.leave room thread :=
            if_pos inside
          rw [isCall] at stops awaits ⊢
          refine ⟨sound.consistent.leave inside, fun other entry => ?_, stops, awaits⟩
          rw [moves, claims_unlock sound.consistent inside, ← sound.claims]
          rfl
      | wait room condition =>
          have inside := sound.inside (follows.waits takes).1 free
          have isCall : call thread (some (.wait room condition)) rooms =
              rooms.await condition room thread := if_pos inside
          rw [isCall] at stops awaits ⊢
          refine ⟨sound.consistent.await inside free condition, fun other entry => ?_, stops, awaits⟩
          rw [moves, claims_await sound.consistent inside free, ← sound.claims]
          rfl
      | signal condition =>
          refine ⟨sound.consistent.signal condition, fun other entry => ?_, stops, awaits⟩
          rw [moves, call, claims_signal sound.consistent, ← sound.claims]
          rfl

end Programs

end RoomPrograms
