import Mathlib.Data.List.Nodup
import Mathlib.Logic.Function.Basic

/-!
# Rooms for one thread each

The monitors of a concurrent program.  A thread that finds a room empty is inside, and one that
does not queues up to enter it.  A thread inside may wait for a condition: it leaves the room, and
a signal leads it back there.
-/

namespace MonitorRooms

/-- Where a thread can wait: to enter a room, or for a condition. -/
inductive Place (μ κ : Type)
  | entry (room : μ)
  | condition (condition : κ)
deriving DecidableEq

/-- Who is inside of each room, who waits where, and which room a thread comes back to. -/
structure Rooms (μ κ τ : Type) where
  inside : μ → List τ
  queue : Place μ κ → List τ
  back : τ → μ

/-- Queues in which nobody stands twice. -/
structure Queued {α τ : Type} (queue : α → List τ) : Prop where
  nodup : ∀ place, (queue place).Nodup
  apart : ∀ place place' thread, thread ∈ queue place → thread ∈ queue place' → place = place'

namespace Queued

variable {α τ : Type} [DecidableEq α] {queue : α → List τ} {place : α} {thread : τ}
  {rest : List τ}

/-- Somebody who stands in no queue joins one. -/
theorem push (queued : Queued queue) (free : ∀ other, thread ∉ queue other) :
    Queued (Function.update queue place (queue place ++ [thread])) := by
  have split : ∀ other entry, entry ∈ Function.update queue place (queue place ++ [thread]) other →
      entry ∈ queue other ∨ (entry = thread ∧ other = place) := by
    intro other entry mem
    by_cases same : other = place
    · subst same
      rw [Function.update_self, List.mem_append, List.mem_singleton] at mem
      exact mem.imp id fun isThread => ⟨isThread, rfl⟩
    · rw [Function.update_of_ne same] at mem
      exact .inl mem
  constructor
  · intro other
    by_cases same : other = place
    · subst same
      rw [Function.update_self]
      exact List.nodup_append_comm.mp (List.nodup_cons.mpr ⟨free other, queued.nodup other⟩)
    · rw [Function.update_of_ne same]
      exact queued.nodup other
  · intro first second entry inFirst inSecond
    rcases split first entry inFirst with old | ⟨rfl, rfl⟩
    · rcases split second entry inSecond with old' | ⟨rfl, -⟩
      · exact queued.apart first second entry old old'
      · exact absurd old (free first)
    · rcases split second entry inSecond with old' | ⟨-, rfl⟩
      · exact absurd old' (free second)
      · rfl

/-- The first one leaves a queue, and then stands in none. -/
theorem pop (queued : Queued queue) (shape : queue place = thread :: rest) :
    Queued (Function.update queue place rest) ∧
      ∀ other, thread ∉ Function.update queue place rest other := by
  have fewer : ∀ other entry, entry ∈ Function.update queue place rest other →
      entry ∈ queue other := by
    intro other entry mem
    by_cases same : other = place
    · subst same
      rw [Function.update_self] at mem
      rw [shape]
      exact .tail _ mem
    · rwa [Function.update_of_ne same] at mem
  have nodup : (thread :: rest).Nodup := shape ▸ queued.nodup place
  refine ⟨⟨?_, fun first second entry inFirst inSecond =>
    queued.apart first second entry (fewer first entry inFirst) (fewer second entry inSecond)⟩, ?_⟩
  · intro other
    by_cases same : other = place
    · subst same
      rw [Function.update_self]
      exact (List.nodup_cons.mp nodup).2
    · rw [Function.update_of_ne same]
      exact queued.nodup other
  · intro other mem
    have isPlace : other = place :=
      queued.apart other place thread (fewer other thread mem) (by simp [shape])
    subst isPlace
    rw [Function.update_self] at mem
    exact (List.nodup_cons.mp nodup).1 mem

end Queued

namespace Rooms

variable {μ κ τ : Type} [DecidableEq μ] [DecidableEq κ]

/-- A thread is inside of an empty room, and queues up otherwise. -/
def enter (room : μ) (thread : τ) (rooms : Rooms μ κ τ) : Rooms μ κ τ :=
  if rooms.inside room = [] then
    { rooms with inside := Function.update rooms.inside room [thread] }
  else
    { rooms with
      queue := Function.update rooms.queue (.entry room) (rooms.queue (.entry room) ++ [thread]) }

/-- A thread leaves a room, and the first one in its queue is inside. -/
def leave [DecidableEq τ] (room : μ) (thread : τ) (rooms : Rooms μ κ τ) : Rooms μ κ τ :=
  { rooms with
    inside := Function.update rooms.inside room
      ((rooms.inside room).erase thread ++ (rooms.queue (.entry room)).take 1)
    queue := Function.update rooms.queue (.entry room) ((rooms.queue (.entry room)).drop 1) }

/-- A thread waits for a condition, to come back to the room that it leaves. -/
def await [DecidableEq τ] (condition : κ) (room : μ) (thread : τ) (rooms : Rooms μ κ τ) :
    Rooms μ κ τ :=
  leave room thread
    { rooms with
      queue := Function.update rooms.queue (.condition condition)
        (rooms.queue (.condition condition) ++ [thread])
      back := Function.update rooms.back thread room }

/-- The first one that waits for a condition comes back to its room. -/
def signal (condition : κ) (rooms : Rooms μ κ τ) : Rooms μ κ τ :=
  match rooms.queue (.condition condition) with
  | [] => rooms
  | thread :: rest =>
      enter (rooms.back thread) thread
        { rooms with queue := Function.update rooms.queue (.condition condition) rest }

/-- A number of signals. -/
def signals (condition : κ) : Nat → Rooms μ κ τ → Rooms μ κ τ
  | 0, rooms => rooms
  | n + 1, rooms => signals condition n (signal condition rooms)

/-- All that wait for a condition come back to their rooms. -/
def broadcast (condition : κ) (rooms : Rooms μ κ τ) : Rooms μ κ τ :=
  signals condition (rooms.queue (.condition condition)).length rooms

/-- Those inside of a room and those that queue up to enter it. -/
def line (room : μ) (rooms : Rooms μ κ τ) : List τ :=
  rooms.inside room ++ rooms.queue (.entry room)

/-- Nobody shares a room, nobody queues up for an empty room, and nobody is in two places. -/
structure Consistent (rooms : Rooms μ κ τ) : Prop extends Queued rooms.queue where
  alone : ∀ room, (rooms.inside room).length ≤ 1
  shut : ∀ room, rooms.inside room = [] → rooms.queue (.entry room) = []
  outside : ∀ room, ∀ thread ∈ rooms.inside room, thread ∉ rooms.queue (.entry room) ∧
    ∀ condition, thread ∈ rooms.queue (.condition condition) → rooms.back thread ≠ room

/-- A thread waits, and comes back to the room in the end. -/
def Blocked (room : μ) (thread : τ) (rooms : Rooms μ κ τ) : Prop :=
  thread ∈ rooms.queue (.entry room) ∨
    ∃ condition, thread ∈ rooms.queue (.condition condition) ∧ rooms.back thread = room

variable {rooms : Rooms μ κ τ} {room other : μ} {condition : κ} {place : Place μ κ}
  {thread entry : τ} {rest : List τ}

section Admit

@[simp]
theorem enter_back : (rooms.enter room thread).back = rooms.back := by
  unfold enter
  split <;> rfl

@[simp]
theorem enter_condition :
    (rooms.enter room thread).queue (.condition condition) = rooms.queue (.condition condition) := by
  unfold enter
  split <;> simp

theorem enter_line (shut : rooms.inside room = [] → rooms.queue (.entry room) = []) :
    (rooms.enter room thread).line other =
      if other = room then rooms.line room ++ [thread] else rooms.line other := by
  unfold enter line
  by_cases empty : rooms.inside room = []
  · by_cases same : other = room
    · subst same
      simp [empty, shut empty]
    · simp [empty, same]
  · by_cases same : other = room
    · subst same
      simp [empty]
    · simp [empty, same]

/-- A thread that waits nowhere and is not inside enters. -/
theorem Consistent.enter (consistent : rooms.Consistent) (free : ∀ place, thread ∉ rooms.queue place)
    (absent : thread ∉ rooms.inside room) : (rooms.enter room thread).Consistent := by
  unfold Rooms.enter
  by_cases empty : rooms.inside room = []
  · rw [if_pos empty]
    refine ⟨consistent.toQueued, fun other => ?_, fun other => ?_, fun other entry mem => ?_⟩
    all_goals
      dsimp only at *
      by_cases same : other = room
    · subst same
      simp
    · rw [Function.update_of_ne same]
      exact consistent.alone other
    · subst same
      simp
    · rw [Function.update_of_ne same]
      exact consistent.shut other
    · subst same
      rw [Function.update_self, List.mem_singleton] at mem
      subst mem
      exact ⟨free _, fun condition waits => absurd waits (free _)⟩
    · rw [Function.update_of_ne same] at mem
      exact consistent.outside other entry mem
  · rw [if_neg empty]
    refine ⟨consistent.push free, consistent.alone, fun other isEmpty => ?_,
      fun other entry mem => ⟨?_, fun condition waits => ?_⟩⟩
    all_goals dsimp only at *
    · by_cases same : other = room
      · exact absurd (same ▸ isEmpty) empty
      · rw [Function.update_of_ne (by simpa using same)]
        exact consistent.shut other isEmpty
    · by_cases same : other = room
      · subst same
        rw [Function.update_self, List.mem_append, List.mem_singleton, not_or]
        refine ⟨(consistent.outside other entry mem).1, ?_⟩
        rintro rfl
        exact absent mem
      · rw [Function.update_of_ne (by simpa using same)]
        exact (consistent.outside other entry mem).1
    · rw [Function.update_of_ne (by simp)] at waits
      exact (consistent.outside other entry mem).2 condition waits

end Admit

section Signal

theorem signal_nil (none : rooms.queue (.condition condition) = []) :
    rooms.signal condition = rooms := by
  unfold signal
  rw [none]

theorem signal_cons (shape : rooms.queue (.condition condition) = thread :: rest) :
    rooms.signal condition = enter (rooms.back thread) thread
      { rooms with queue := Function.update rooms.queue (.condition condition) rest } := by
  unfold signal
  rw [shape]

/-- The first one of a queue for a condition is nowhere when it has left the queue. -/
theorem Consistent.depart (consistent : rooms.Consistent)
    (shape : rooms.queue (.condition condition) = thread :: rest) :
    Consistent { rooms with queue := Function.update rooms.queue (.condition condition) rest } ∧
      (∀ place, thread ∉ Function.update rooms.queue (.condition condition) rest place) ∧
      thread ∉ rooms.inside (rooms.back thread) := by
  obtain ⟨queued, free⟩ := consistent.pop shape
  refine ⟨⟨queued, consistent.alone, fun other empty => ?_, fun other entry mem =>
    ⟨?_, fun condition' waits => ?_⟩⟩, free, fun mem => ?_⟩
  · dsimp only
    rw [Function.update_of_ne (by simp)]
    exact consistent.shut other empty
  · dsimp only
    rw [Function.update_of_ne (by simp)]
    exact (consistent.outside other entry mem).1
  · apply (consistent.outside other entry mem).2 condition'
    by_cases same : condition' = condition
    · subst same
      rw [shape]
      exact List.mem_cons_of_mem thread (by simpa using waits)
    · simpa [same] using waits
  · exact (consistent.outside _ thread mem).2 condition (by simp [shape]) rfl

theorem Consistent.signal (consistent : rooms.Consistent) (condition : κ) :
    (rooms.signal condition).Consistent := by
  cases shape : rooms.queue (.condition condition) with
  | nil => rwa [signal_nil shape]
  | cons thread rest =>
      obtain ⟨departed, free, absent⟩ := consistent.depart shape
      rw [signal_cons shape]
      exact departed.enter free absent

theorem Consistent.signals (consistent : rooms.Consistent) (condition : κ) (n : Nat) :
    (rooms.signals condition n).Consistent := by
  induction n generalizing rooms with
  | zero => exact consistent
  | succ n ih => exact ih (consistent.signal condition)

/-- What signals do: the first ones that wait come back to their rooms in order, behind those
that are there. -/
theorem Consistent.signals_line (consistent : rooms.Consistent) (n : Nat) :
    (rooms.signals condition n).queue (.condition condition) =
        (rooms.queue (.condition condition)).drop n ∧
      ∀ room, (rooms.signals condition n).line room = rooms.line room ++
        ((rooms.queue (.condition condition)).take n).filter (fun thread =>
          rooms.back thread = room) := by
  induction n generalizing rooms with
  | zero => exact ⟨rfl, fun room => (List.append_nil _).symm⟩
  | succ n ih =>
      obtain ⟨left, lines⟩ := ih (consistent.signal condition)
      unfold Rooms.signals
      cases shape : rooms.queue (.condition condition) with
      | nil =>
          rw [signal_nil shape] at left lines ⊢
          rw [shape] at left lines
          exact ⟨by simpa using left, fun room => by simpa using lines room⟩
      | cons thread rest =>
          obtain ⟨departed, -⟩ := consistent.depart shape
          have shrunk : (rooms.signal condition).queue (.condition condition) = rest := by
            rw [signal_cons shape, enter_condition]
            exact Function.update_self ..
          have back : (rooms.signal condition).back = rooms.back := by
            rw [signal_cons shape, enter_back]
          rw [shrunk] at left lines
          refine ⟨left, fun room => ?_⟩
          have one : (rooms.signal condition).line room = rooms.line room ++
              [thread].filter (fun thread => rooms.back thread = room) := by
            rw [signal_cons shape, enter_line (departed.shut _)]
            unfold line
            dsimp only
            rw [Function.update_of_ne (by simp), Function.update_of_ne (by simp)]
            by_cases same : room = rooms.back thread
            · subst same
              simp
            · simp [same, Ne.symm same]
          rw [lines room, one, back, List.take_succ_cons, List.append_assoc, ← List.filter_append,
            List.singleton_append]

end Signal

section Leave

variable [DecidableEq τ]

/-- The only one inside leaves, and the first one of the queue is inside. -/
theorem leave_consistent (queued : Queued rooms.queue) (inside : rooms.inside room = [thread])
    (alone : ∀ other, (rooms.inside other).length ≤ 1)
    (shut : ∀ other, rooms.inside other = [] → rooms.queue (.entry other) = [])
    (outside : ∀ other, other ≠ room → ∀ entry ∈ rooms.inside other,
      entry ∉ rooms.queue (.entry other) ∧
        ∀ condition, entry ∈ rooms.queue (.condition condition) → rooms.back entry ≠ other) :
    (rooms.leave room thread).Consistent := by
  unfold Rooms.leave
  rw [inside, List.erase_cons_head, List.nil_append]
  cases shape : rooms.queue (.entry room) with
  | nil =>
      have same : Function.update rooms.queue (.entry room) [] = rooms.queue := by
        rw [← shape]
        exact Function.update_eq_self ..
      rw [List.take_nil, List.drop_nil, same]
      refine ⟨queued, fun other => ?_, fun other empty => ?_, fun other entry mem => ?_⟩
      all_goals
        dsimp only at *
        by_cases isRoom : other = room
      · subst isRoom
        simp
      · rw [Function.update_of_ne isRoom]
        exact alone other
      · rw [isRoom]
        exact shape
      · rw [Function.update_of_ne isRoom] at empty
        exact shut other empty
      · subst isRoom
        simp at mem
      · rw [Function.update_of_ne isRoom] at mem
        exact outside other isRoom entry mem
  | cons next rest =>
      obtain ⟨queued', free⟩ := queued.pop shape
      rw [List.take_succ_cons, List.take_zero, List.drop_succ_cons, List.drop_zero]
      refine ⟨queued', fun other => ?_, fun other empty => ?_, fun other entry mem =>
        ⟨fun entered => ?_, fun condition entered => ?_⟩⟩
      all_goals
        dsimp only at *
        by_cases isRoom : other = room
      · subst isRoom
        simp
      · rw [Function.update_of_ne isRoom]
        exact alone other
      · subst isRoom
        simp at empty
      · rw [Function.update_of_ne isRoom] at empty
        rw [Function.update_of_ne (by simpa using isRoom)]
        exact shut other empty
      · subst isRoom
        rw [Function.update_self, List.mem_singleton] at mem
        exact free _ (mem ▸ entered)
      · rw [Function.update_of_ne isRoom] at mem
        rw [Function.update_of_ne (by simpa using isRoom)] at entered
        exact (outside other isRoom entry mem).1 entered
      · subst isRoom
        rw [Function.update_self, List.mem_singleton] at mem
        exact absurd (mem ▸ entered) (free _)
      · rw [Function.update_of_ne isRoom] at mem
        rw [Function.update_of_ne (by simp)] at entered
        exact (outside other isRoom entry mem).2 condition entered

omit [DecidableEq μ] [DecidableEq κ] [DecidableEq τ] in
theorem Consistent.inside_eq (consistent : rooms.Consistent) (mem : thread ∈ rooms.inside room) :
    rooms.inside room = [thread] := by
  have one : (rooms.inside room).length = 1 :=
    Nat.le_antisymm (consistent.alone room) (List.length_pos_of_mem mem)
  obtain ⟨only, shape⟩ := List.length_eq_one_iff.mp one
  rw [shape, List.mem_singleton] at mem
  rw [shape, mem]

theorem Consistent.leave (consistent : rooms.Consistent) (mem : thread ∈ rooms.inside room) :
    (rooms.leave room thread).Consistent :=
  leave_consistent consistent.toQueued (consistent.inside_eq mem) consistent.alone consistent.shut
    fun other _ => consistent.outside other

/-- The thread inside waits for a condition. -/
theorem Consistent.await (consistent : rooms.Consistent) (mem : thread ∈ rooms.inside room)
    (free : ∀ place, thread ∉ rooms.queue place) (condition : κ) :
    (rooms.await condition room thread).Consistent := by
  unfold Rooms.await
  apply leave_consistent
  · exact consistent.push free
  · exact consistent.inside_eq mem
  · exact consistent.alone
  · intro other empty
    dsimp only
    rw [Function.update_of_ne (by simp)]
    exact consistent.shut other empty
  · intro other different entry inOther
    obtain ⟨notEntry, notCondition⟩ := consistent.outside other entry inOther
    dsimp only
    refine ⟨by rwa [Function.update_of_ne (by simp)], fun condition' waits => ?_⟩
    by_cases isThread : entry = thread
    · rw [isThread, Function.update_self]
      exact different.symm
    · rw [Function.update_of_ne isThread]
      apply notCondition condition'
      by_cases same : condition' = condition
      · subst same
        simpa [isThread] using waits
      · simpa [same] using waits

end Leave

section Blocked

theorem Blocked.enter (blocked : rooms.Blocked other entry) :
    (rooms.enter room thread).Blocked other entry := by
  rcases blocked with waits | ⟨condition, waits, back⟩
  · left
    unfold Rooms.enter
    split
    · exact waits
    · dsimp only
      by_cases same : other = room
      · subst same
        simp [waits]
      · rwa [Function.update_of_ne (by simpa using same)]
  · exact .inr ⟨condition, by rwa [enter_condition], by rwa [enter_back]⟩

/-- A thread that enters is inside or queues up. -/
theorem enter_arrives : thread ∈ (rooms.enter room thread).inside room ∨
    (rooms.enter room thread).Blocked room thread := by
  unfold Rooms.enter
  split
  · left
    simp
  · right
    left
    simp

theorem Blocked.signal (blocked : rooms.Blocked room thread) (condition : κ) :
    (rooms.signal condition).Blocked room thread ∨ thread ∈ (rooms.signal condition).inside room := by
  cases shape : rooms.queue (.condition condition) with
  | nil =>
      rw [signal_nil shape]
      exact .inl blocked
  | cons first rest =>
      rw [signal_cons shape]
      rcases blocked with waits | ⟨condition', waits, back⟩
      · left
        apply Blocked.enter
        left
        dsimp only
        rwa [Function.update_of_ne (by simp)]
      · by_cases isFirst : thread = first
        · subst isFirst
          rw [back]
          exact enter_arrives.symm
        · left
          apply Blocked.enter
          refine .inr ⟨condition', ?_, back⟩
          dsimp only
          by_cases same : condition' = condition
          · subst same
            rw [Function.update_self]
            simpa [shape, isFirst] using waits
          · rwa [Function.update_of_ne (by simpa using same)]

theorem enter_inside (mem : entry ∈ rooms.inside other) :
    entry ∈ (rooms.enter room thread).inside other := by
  unfold Rooms.enter
  split
  next empty =>
    have different : other ≠ room := by
      rintro rfl
      simp [empty] at mem
    dsimp only
    rwa [Function.update_of_ne different]
  next => exact mem

theorem signal_inside (mem : thread ∈ rooms.inside room) (condition : κ) :
    thread ∈ (rooms.signal condition).inside room := by
  cases shape : rooms.queue (.condition condition) with
  | nil => rwa [signal_nil shape]
  | cons first rest =>
      rw [signal_cons shape]
      exact enter_inside mem

theorem signals_keep (arrived : rooms.Blocked room thread ∨ thread ∈ rooms.inside room) (n : Nat) :
    (rooms.signals condition n).Blocked room thread ∨
      thread ∈ (rooms.signals condition n).inside room := by
  induction n generalizing rooms with
  | zero => exact arrived
  | succ n ih =>
      apply ih
      rcases arrived with blocked | inside
      · exact blocked.signal condition
      · exact .inr (signal_inside inside condition)

variable [DecidableEq τ]

theorem Blocked.leave (blocked : rooms.Blocked other entry) :
    (rooms.leave room thread).Blocked other entry ∨
      entry ∈ (rooms.leave room thread).inside other := by
  unfold Rooms.leave
  rcases blocked with waits | ⟨condition, waits, back⟩
  · by_cases same : other = room
    · subst same
      have split := List.take_append_drop 1 (rooms.queue (.entry other))
      rw [← split, List.mem_append] at waits
      rcases waits with first | later
      · right
        dsimp only
        rw [Function.update_self]
        exact List.mem_append_right _ first
      · left
        left
        dsimp only
        rwa [Function.update_self]
    · left
      left
      dsimp only
      rwa [Function.update_of_ne (by simpa using same)]
  · left
    refine .inr ⟨condition, ?_, back⟩
    dsimp only
    rwa [Function.update_of_ne (by simp)]

theorem Blocked.await (blocked : rooms.Blocked other entry) (different : entry ≠ thread)
    (condition : κ) :
    (rooms.await condition room thread).Blocked other entry ∨
      entry ∈ (rooms.await condition room thread).inside other := by
  unfold Rooms.await
  apply Blocked.leave
  rcases blocked with waits | ⟨condition', waits, back⟩
  · left
    dsimp only
    rwa [Function.update_of_ne (by simp)]
  · refine .inr ⟨condition', ?_, ?_⟩
    · dsimp only
      by_cases same : condition' = condition
      · subst same
        rw [Function.update_self]
        exact List.mem_append_left _ waits
      · rwa [Function.update_of_ne (by simpa using same)]
    · dsimp only
      rwa [Function.update_of_ne different]

end Blocked

end Rooms

end MonitorRooms
