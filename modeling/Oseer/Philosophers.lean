import Oseer.MonitorPrograms

/-!
# Dining philosophers

The threads of `programs/monitors/monitors.c`.  A philosopher takes both sticks or waits for its
neighbours within a monitor, and signals them when it has put the sticks down.  A step is an access
to the variables that the threads share, or a call of the kernel; what is printed is left out.
-/

namespace Oseer

open MonitorRooms RoomPrograms

namespace Philosophers

/-- The threads with their numbers `phil`, the thread that ends the simulation, `PHNUM`, the
monitor and the queues. -/
structure Cast where
  philosophers : Finset Ptr
  phil : Ptr → Nat
  main : Ptr
  phnum : Nat
  m : Ptr
  q : Nat → Ptr

/-- `rstick`, which is `rphil` as well. -/
def Cast.right (cast : Cast) (phil : Nat) : Nat := (phil + 1) % cast.phnum

/-- `lphil`. -/
def Cast.lphil (cast : Cast) (phil : Nat) : Nat := (phil + cast.phnum - 1) % cast.phnum

/-- Where a philosopher is in its function. -/
inductive Pc
  /-- The condition of the loop. -/
  | test
  | think
  | lock
  /-- `phs[phil] = '-'`. -/
  | dash
  /-- `stick[lstick]` in the condition of the inner loop. -/
  | checkLeft
  /-- `stick[rstick]` in the condition of the inner loop. -/
  | checkRight
  | wait
  /-- `stick[rstick] = TRUE`. -/
  | takeRight
  /-- `stick[lstick] = TRUE`. -/
  | takeLeft
  /-- `phs[phil] = 'X'`. -/
  | cross
  | unlock
  | eat
  | lockAgain
  /-- `stick[rstick] = FALSE`. -/
  | putRight
  /-- `stick[lstick] = FALSE`. -/
  | putLeft
  /-- `phs[phil] = 'O'`. -/
  | circle
  | unlockAgain
  | signalLeft
  | signalRight
  | gone
deriving DecidableEq, Repr

/-- The variables that the threads share. -/
structure Shared where
  stick : Nat → Bool
  phs : Nat → Char
  terminateSimulation : Bool

/-- The state of the program. -/
structure State where
  shared : Shared
  pc : Ptr → Pc

/-- A step of a philosopher. -/
def step (cast : Cast) (phil : Nat) (pc : Pc) (shared : Shared) :
    Option (Option (Call Ptr Ptr) × Pc × Shared) :=
  match pc with
  | .test =>
      if shared.terminateSimulation then some (none, .gone, shared)
      else some (none, .think, shared)
  | .think => some (none, .lock, shared)
  | .lock => some (some (.lock cast.m), .dash, shared)
  | .dash => some (none, .checkLeft, { shared with phs := Function.update shared.phs phil '-' })
  | .checkLeft =>
      if shared.stick phil then some (none, .wait, shared) else some (none, .checkRight, shared)
  | .checkRight =>
      if shared.stick (cast.right phil) then some (none, .wait, shared)
      else some (none, .takeRight, shared)
  | .wait => some (some (.wait cast.m (cast.q phil)), .checkLeft, shared)
  | .takeRight =>
      some (none, .takeLeft,
        { shared with stick := Function.update shared.stick (cast.right phil) true })
  | .takeLeft =>
      some (none, .cross, { shared with stick := Function.update shared.stick phil true })
  | .cross => some (none, .unlock, { shared with phs := Function.update shared.phs phil 'X' })
  | .unlock => some (some (.unlock cast.m), .eat, shared)
  | .eat => some (none, .lockAgain, shared)
  | .lockAgain => some (some (.lock cast.m), .putRight, shared)
  | .putRight =>
      some (none, .putLeft,
        { shared with stick := Function.update shared.stick (cast.right phil) false })
  | .putLeft =>
      some (none, .circle, { shared with stick := Function.update shared.stick phil false })
  | .circle =>
      some (none, .unlockAgain, { shared with phs := Function.update shared.phs phil 'O' })
  | .unlockAgain => some (some (.unlock cast.m), .signalLeft, shared)
  | .signalLeft => some (some (.signal (cast.q (cast.lphil phil))), .signalRight, shared)
  | .signalRight => some (some (.signal (cast.q (cast.right phil))), .test, shared)
  | .gone => none

/-- The next step of a thread; the main thread ends the simulation. -/
def next (cast : Cast) : Next Ptr Ptr Ptr State := fun thread state =>
  if thread ∈ cast.philosophers then
    (step cast (cast.phil thread) (state.pc thread) state.shared).map fun result =>
      (result.1, { state with
        pc := Function.update state.pc thread result.2.1
        shared := result.2.2 })
  else if thread = cast.main then
    if state.shared.terminateSimulation then none
    else some (none, { state with shared := { state.shared with terminateSimulation := true } })
  else none

/-- The state in which the threads begin. -/
structure Starts (cast : Cast) (state : State) : Prop where
  stick : ∀ k < cast.phnum, state.shared.stick k = false
  phs : ∀ k < cast.phnum, state.shared.phs k = 'O'
  pc : ∀ thread ∈ cast.philosophers, state.pc thread = .test

/-- Each philosopher has a number and a queue of its own, and two sticks. -/
structure Cast.Sensible (cast : Cast) : Prop where
  injective : Set.InjOn cast.phil cast.philosophers
  below : ∀ thread ∈ cast.philosophers, cast.phil thread < cast.phnum
  two : 2 ≤ cast.phnum
  queues : ∀ i < cast.phnum, ∀ j < cast.phnum, cast.q i = cast.q j → i = j
  apart : cast.main ∉ cast.philosophers

namespace Pc

/-- Between the calls to lock and to unlock the monitor. -/
def within : Pc → Bool
  | dash | checkLeft | checkRight | wait | takeRight | takeLeft | cross | unlock => true
  | putRight | putLeft | circle | unlockAgain => true
  | _ => false

/-- Right behind a call to lock the monitor or to wait. -/
def stopped : Pc → Bool
  | dash | checkLeft | putRight => true
  | _ => false

/-- The right stick is taken. -/
def holdsRight : Pc → Bool
  | takeLeft | cross | unlock | eat | lockAgain | putRight => true
  | _ => false

/-- The left stick is taken. -/
def holdsLeft : Pc → Bool
  | cross | unlock | eat | lockAgain | putRight | putLeft => true
  | _ => false

/-- Both sticks are found free, and the end of the meal is not told yet. -/
def dines : Pc → Bool
  | takeRight | takeLeft | cross | unlock | eat | lockAgain | putRight | putLeft | circle => true
  | _ => false

/-- The philosopher on the right is signalled later. -/
def owesRight : Pc → Bool
  | takeLeft | cross | unlock | eat | lockAgain | putRight | putLeft | circle => true
  | unlockAgain | signalLeft | signalRight => true
  | _ => false

/-- The philosopher on the left is signalled later. -/
def owesLeft : Pc → Bool
  | cross | unlock | eat | lockAgain | putRight | putLeft | circle | unlockAgain => true
  | signalLeft => true
  | _ => false

/-- What `phs` shows of the philosopher. -/
def shown : Pc → Char
  | checkLeft | checkRight | wait | takeRight | takeLeft | cross => '-'
  | unlock | eat | lockAgain | putRight | putLeft | circle => 'X'
  | _ => 'O'

end Pc

/-- The sticks of a philosopher. -/
def Cast.Uses (cast : Cast) (phil k : Nat) : Prop := k = phil ∨ k = cast.right phil

/-- A philosopher has taken a stick. -/
def Cast.Holds (cast : Cast) (pc : Pc) (phil k : Nat) : Prop :=
  pc.holdsLeft = true ∧ k = phil ∨ pc.holdsRight = true ∧ k = cast.right phil

/-- A philosopher will signal a neighbour. -/
def Cast.Owes (cast : Cast) (pc : Pc) (phil neighbour : Nat) : Prop :=
  pc.owesRight = true ∧ cast.right phil = neighbour ∨
    pc.owesLeft = true ∧ cast.lphil phil = neighbour

/-- Which threads are within the monitor, and where they wait. -/
def accounts (cast : Cast) : Accounts Ptr Ptr Ptr State where
  within room state thread :=
    room = cast.m ∧ thread ∈ cast.philosophers ∧ (state.pc thread).within = true
  stopped state thread := thread ∈ cast.philosophers ∧ (state.pc thread).stopped = true
  awaits condition state thread :=
    thread ∈ cast.philosophers ∧ condition = cast.q (cast.phil thread) ∧ state.pc thread = .checkLeft

variable {cast : Cast} {thread other : Ptr} {state state' : State}
  {called : Option (Call Ptr Ptr)} {pc pc' : Pc} {shared shared' : Shared} {phil k : Nat}
  {rooms rooms' : Rooms Ptr Ptr Ptr}

section Accounts

/-- Who takes a step. -/
theorem next_cases (takes : next cast thread state = some (called, state')) :
    (thread ∈ cast.philosophers ∧ ∃ pc shared,
      step cast (cast.phil thread) (state.pc thread) state.shared = some (called, pc, shared) ∧
      state' = { state with
        pc := Function.update state.pc thread pc
        shared := shared }) ∨
    (state.shared.terminateSimulation = false ∧ called = none ∧
      state' = { state with shared := { state.shared with terminateSimulation := true } }) := by
  unfold next at takes
  split_ifs at takes with isPhilosopher isMain ended
  · obtain ⟨⟨call, pc, shared⟩, steps, same⟩ := Option.map_eq_some_iff.mp takes
    obtain ⟨rfl, rfl⟩ := Prod.mk.inj same
    exact .inl ⟨isPhilosopher, pc, shared, steps, rfl⟩
  · obtain ⟨rfl, rfl⟩ := Prod.mk.inj (Option.some.inj takes)
    exact .inr ⟨Bool.not_eq_true _ ▸ ended, rfl, rfl⟩

/-- Only the thread that takes a step moves. -/
theorem next_apart (takes : next cast thread state = some (called, state'))
    (different : other ≠ thread) : state'.pc other = state.pc other := by
  rcases next_cases takes with ⟨-, pc, shared, -, rfl⟩ | ⟨-, -, rfl⟩
  · exact Function.update_of_ne different ..
  · rfl

/-- The calls of a philosopher, and where it is before and behind them. -/
theorem step_calls (steps : step cast phil pc shared = some (called, pc', shared')) :
    (called = none ∧ pc'.within = pc.within) ∨
    (called = some (.lock cast.m) ∧ pc.within = false ∧ pc'.within = true ∧ pc'.stopped = true) ∨
    (called = some (.unlock cast.m) ∧ pc.within = true ∧ pc'.within = false) ∨
    (called = some (.wait cast.m (cast.q phil)) ∧ pc = .wait ∧ pc' = .checkLeft) ∨
    ∃ number, called = some (.signal (cast.q number)) ∧ pc.within = false ∧ pc'.within = false := by
  unfold step at steps
  split at steps <;> try split at steps
  all_goals cases steps
  all_goals simp [Pc.within, Pc.stopped]

theorem next_within (takes : next cast thread state = some (called, state')) (room entry : Ptr) :
    (accounts cast).within room state' entry ↔
      Within thread called room entry ((accounts cast).within room state entry) := by
  rcases next_cases takes with ⟨mem, pc, shared, steps, rfl⟩ | ⟨-, rfl, rfl⟩
  · by_cases same : entry = thread
    · subst same
      rcases step_calls steps with ⟨rfl, equal⟩ | ⟨rfl, outside, inside, -⟩ |
        ⟨rfl, inside, outside⟩ | ⟨rfl, isPc, rfl⟩ | ⟨number, rfl, outside, outside'⟩
      · simp [accounts, Within, equal]
      · simp [accounts, Within, outside, inside, mem]
      · simp [accounts, Within, outside]
        tauto
      · simp [accounts, Within, isPc, Pc.within]
      · simp [accounts, Within, outside, outside']
    · rcases step_calls steps with ⟨rfl, -⟩ | ⟨rfl, -⟩ | ⟨rfl, -⟩ | ⟨rfl, -⟩ | ⟨number, rfl, -⟩
      all_goals simp [accounts, Within, same]
  · exact Iff.rfl

theorem accounts_follows (cast : Cast) : (accounts cast).Follows (next cast) where
  locks takes := by
    rcases next_cases takes with ⟨mem, pc, shared, steps, rfl⟩ | ⟨-, none, -⟩
    · rcases step_calls steps with ⟨none, -⟩ | ⟨-, outside, -, isStopped⟩ | ⟨isCall, -⟩ |
        ⟨isCall, -⟩ | ⟨number, isCall, -⟩
      · cases none
      · exact ⟨by simp [accounts, outside], by simp [accounts, mem, isStopped]⟩
      · cases isCall
      · cases isCall
      · cases isCall
    · cases none
  unlocks takes := by
    rcases next_cases takes with ⟨mem, pc, shared, steps, rfl⟩ | ⟨-, none, -⟩
    · rcases step_calls steps with ⟨none, -⟩ | ⟨isCall, -⟩ | ⟨isCall, inside, -⟩ |
        ⟨isCall, -⟩ | ⟨number, isCall, -⟩
      · cases none
      · cases isCall
      · cases isCall
        exact ⟨rfl, mem, inside⟩
      · cases isCall
      · cases isCall
    · cases none
  waits takes := by
    rcases next_cases takes with ⟨mem, pc, shared, steps, rfl⟩ | ⟨-, none, -⟩
    · rcases step_calls steps with ⟨none, -⟩ | ⟨isCall, -⟩ | ⟨isCall, -⟩ |
        ⟨isCall, isPc, isNext⟩ | ⟨number, isCall, -⟩
      · cases none
      · cases isCall
      · cases isCall
      · cases isCall
        simp [accounts, mem, isPc, isNext, Pc.within, Pc.stopped]
      · cases isCall
    · cases none
  moves takes room entry := next_within takes room entry
  apart takes other different := by
    have same := next_apart takes different
    simp only [accounts, same]
    exact ⟨id, fun _ => id⟩

end Accounts

end Philosophers

end Oseer
