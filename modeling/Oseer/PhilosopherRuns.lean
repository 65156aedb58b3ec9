import Oseer.Philosophers

/-!
# Runs of dining philosophers

A stick is taken by one philosopher at a time, no two neighbours are shown eating, and a
philosopher that waits is signalled by a neighbour.
-/

namespace Oseer

open MonitorRooms RoomPrograms

namespace Philosophers

variable {cast : Cast} {thread other : Ptr} {state state' : State}
  {called : Option (Call Ptr Ptr)} {pc pc' : Pc} {shared shared' : Shared} {phil number k : Nat}
  {rooms rooms' : Rooms Ptr Ptr Ptr}

section Numbers

theorem right_lt (sensible : cast.Sensible) : cast.right phil < cast.phnum := by
  have two := sensible.two
  exact Nat.mod_lt _ (by omega)

theorem right_ne (sensible : cast.Sensible) (below : phil < cast.phnum) : cast.right phil ≠ phil := by
  have two := sensible.two
  unfold Cast.right
  rcases Nat.lt_or_ge (phil + 1) cast.phnum with inner | last
  · rw [Nat.mod_eq_of_lt inner]
    omega
  · have isLast : phil + 1 = cast.phnum := by omega
    rw [isLast, Nat.mod_self]
    omega

theorem right_inj (below : phil < cast.phnum) (below' : number < cast.phnum)
    (same : cast.right phil = cast.right number) : phil = number := by
  unfold Cast.right at same
  have modEq : phil + 1 ≡ number + 1 [MOD cast.phnum] := same
  have modEq := Nat.ModEq.add_right_cancel' 1 modEq
  exact Nat.ModEq.eq_of_lt_of_lt modEq below below'

/-- The neighbour on the left of the neighbour on the right. -/
theorem lphil_right (below : phil < cast.phnum) : cast.lphil (cast.right phil) = phil := by
  unfold Cast.lphil Cast.right
  have same : (phil + 1) % cast.phnum + cast.phnum - 1 ≡ phil [MOD cast.phnum] := by
    have sum : (phil + 1) % cast.phnum + cast.phnum ≡ phil + 1 [MOD cast.phnum] := by
      have one := (Nat.mod_modEq (phil + 1) cast.phnum).add_right cast.phnum
      exact one.trans (by simp [Nat.ModEq])
    have split : (phil + 1) % cast.phnum + cast.phnum - 1 + 1 =
        (phil + 1) % cast.phnum + cast.phnum := by omega
    rw [← split] at sum
    exact Nat.ModEq.add_right_cancel' 1 sum
  exact Nat.ModEq.eq_of_lt_of_lt ((Nat.mod_modEq ..).trans same) (Nat.mod_lt _ (by omega)) below

end Numbers

section Local

/-- Which sticks a step takes or puts down. -/
theorem step_stick (steps : step cast phil pc shared = some (called, pc', shared')) :
    (shared'.stick = shared.stick ∧ pc'.holdsLeft = pc.holdsLeft ∧
      pc'.holdsRight = pc.holdsRight) ∨
    (pc = .takeRight ∧ pc' = .takeLeft ∧
      shared'.stick = Function.update shared.stick (cast.right phil) true) ∨
    (pc = .takeLeft ∧ pc' = .cross ∧ shared'.stick = Function.update shared.stick phil true) ∨
    (pc = .putRight ∧ pc' = .putLeft ∧
      shared'.stick = Function.update shared.stick (cast.right phil) false) ∨
    (pc = .putLeft ∧ pc' = .circle ∧ shared'.stick = Function.update shared.stick phil false) := by
  unfold step at steps
  split at steps <;> try split at steps
  all_goals cases steps
  all_goals simp [Pc.holdsLeft, Pc.holdsRight]

/-- The sticks change only within the monitor. -/
theorem step_inside (steps : step cast phil pc shared = some (called, pc', shared')) :
    shared'.stick = shared.stick ∨ pc.within = true := by
  rcases step_stick steps with ⟨same, -⟩ | ⟨rfl, -⟩ | ⟨rfl, -⟩ | ⟨rfl, -⟩ | ⟨rfl, -⟩
  · exact .inl same
  all_goals exact .inr rfl

/-- The philosopher has found its left stick free. -/
def Pc.leftFree : Pc → Bool
  | checkRight | takeRight | takeLeft => true
  | _ => false

theorem leftFree_busy (free : pc.leftFree = true) : pc.within = true ∧ pc.stopped = false := by
  cases pc <;> simp_all [Pc.leftFree, Pc.within, Pc.stopped]

theorem step_leftFree (steps : step cast phil pc shared = some (called, pc', shared'))
    (different : phil ≠ cast.right phil)
    (free : pc.leftFree = true → shared.stick phil = false) :
    pc'.leftFree = true → shared'.stick phil = false := by
  unfold step at steps
  split at steps <;> try split at steps
  all_goals cases steps
  all_goals simp_all [Pc.leftFree]

theorem step_rightFree (steps : step cast phil pc shared = some (called, pc', shared')) :
    pc' = .takeRight → pc = .checkRight ∧ shared.stick (cast.right phil) = false ∧
      shared' = shared := by
  unfold step at steps
  split at steps <;> try split at steps
  all_goals cases steps
  all_goals simp_all

theorem step_taken (steps : step cast phil pc shared = some (called, pc', shared')) :
    pc' = .wait → shared' = shared ∧
      (shared.stick phil = true ∨ shared.stick (cast.right phil) = true) := by
  unfold step at steps
  split at steps <;> try split at steps
  all_goals cases steps
  all_goals simp_all

theorem step_dines (steps : step cast phil pc shared = some (called, pc', shared')) :
    pc'.dines = true → pc.dines = true ∨ pc = .checkRight ∧ pc' = .takeRight := by
  unfold step at steps
  split at steps <;> try split at steps
  all_goals cases steps
  all_goals simp [Pc.dines]

/-- Only the philosopher's own place in `phs` changes. -/
theorem step_phs (steps : step cast phil pc shared = some (called, pc', shared')) :
    (shared.phs phil = pc.shown → shared'.phs phil = pc'.shown) ∧
      ∀ other ≠ phil, shared'.phs other = shared.phs other := by
  unfold step at steps
  split at steps <;> try split at steps
  all_goals cases steps
  all_goals simp [Pc.shown]
  all_goals exact fun other different => Function.update_of_ne different ..

/-- A neighbour is signalled in the end. -/
theorem step_owes (steps : step cast phil pc shared = some (called, pc', shared'))
    (owes : cast.Owes pc phil number) :
    cast.Owes pc' phil number ∨ called = some (.signal (cast.q number)) := by
  unfold step at steps
  split at steps <;> try split at steps
  all_goals cases steps
  all_goals simp_all [Cast.Owes, Pc.owesRight, Pc.owesLeft]
  all_goals grind

theorem holds_dines (holds : cast.Holds pc phil k) : pc.dines = true := by
  rcases holds with ⟨left, -⟩ | ⟨right, -⟩
  · cases pc <;> simp_all [Pc.holdsLeft, Pc.dines]
  · cases pc <;> simp_all [Pc.holdsRight, Pc.dines]

theorem holds_uses (holds : cast.Holds pc phil k) : cast.Uses phil k :=
  holds.imp And.right And.right

/-- A philosopher that dines has taken its sticks, but for what it does within the monitor. -/
theorem dines_holds (dines : pc.dines = true) (uses : cast.Uses phil k)
    (outside : pc.within = false ∨ pc.stopped = true) : cast.Holds pc phil k := by
  have both : pc.holdsLeft = true ∧ pc.holdsRight = true := by
    cases pc <;> simp_all [Pc.dines, Pc.within, Pc.stopped, Pc.holdsLeft, Pc.holdsRight]
  exact uses.imp (fun same => ⟨both.1, same⟩) fun same => ⟨both.2, same⟩

end Local

/-- What holds in every state of the program. -/
structure Kept (cast : Cast) (rooms : Rooms Ptr Ptr Ptr) (state : State) : Prop where
  sound : (accounts cast).Sound rooms state
  sticks : ∀ k < cast.phnum, state.shared.stick k = true ↔
    ∃ thread ∈ cast.philosophers, cast.Holds (state.pc thread) (cast.phil thread) k
  leftFree : ∀ thread ∈ cast.philosophers, (state.pc thread).leftFree = true →
    state.shared.stick (cast.phil thread) = false
  rightFree : ∀ thread ∈ cast.philosophers, state.pc thread = .takeRight →
    state.shared.stick (cast.right (cast.phil thread)) = false
  taken : ∀ thread ∈ cast.philosophers, state.pc thread = .wait →
    state.shared.stick (cast.phil thread) = true ∨
      state.shared.stick (cast.right (cast.phil thread)) = true
  apart : ∀ thread ∈ cast.philosophers, ∀ other ∈ cast.philosophers, ∀ k,
    cast.Uses (cast.phil thread) k → cast.Uses (cast.phil other) k →
      (state.pc thread).dines = true → (state.pc other).dines = true → other = thread
  phs : ∀ thread ∈ cast.philosophers,
    state.shared.phs (cast.phil thread) = (state.pc thread).shown
  wakes : ∀ thread ∈ cast.philosophers, ∀ condition,
    thread ∈ rooms.queue (.condition condition) →
      ∃ other ∈ cast.philosophers, cast.Owes (state.pc other) (cast.phil other) (cast.phil thread)

section Steps

/-- While a philosopher is active within the monitor, the others are outside or wait. -/
theorem Kept.others_outside (kept : Kept cast rooms state) (mem : thread ∈ cast.philosophers)
    (free : ∀ place, thread ∉ rooms.queue place) (within : (state.pc thread).within = true)
    (otherMem : other ∈ cast.philosophers) (different : other ≠ thread) :
    (state.pc other).within = false ∨ (state.pc other).stopped = true := by
  by_contra busy
  rw [not_or, Bool.not_eq_false, Bool.not_eq_true] at busy
  apply different
  have inside : ∀ entry ∈ cast.philosophers, (state.pc entry).within = true →
      (accounts cast).within cast.m state entry := fun entry entryMem isWithin =>
    ⟨rfl, entryMem, isWithin⟩
  apply kept.sound.alone (inside thread mem within) free (inside other otherMem busy.1)
  intro place waits
  have stopped := (kept.sound.stops place other waits).2
  rw [busy.2] at stopped
  cases stopped

/-- A stick is used by one philosopher that has taken it. -/
theorem Kept.stick_free (kept : Kept cast rooms state) (mem : thread ∈ cast.philosophers)
    (sensible : cast.Sensible) (uses : cast.Uses (cast.phil thread) k)
    (free : state.shared.stick k = false) : ¬ cast.Holds (state.pc thread) (cast.phil thread) k := by
  intro holds
  have below : k < cast.phnum := by
    rcases uses with rfl | rfl
    · exact sensible.below thread mem
    · exact right_lt sensible
  have taken := (kept.sticks k below).mpr ⟨thread, mem, holds⟩
  rw [free] at taken
  cases taken

/-- The sticks are those that the philosophers have taken, after a step as well. -/
theorem Kept.sticks_step (kept : Kept cast rooms state) (sensible : cast.Sensible)
    (mem : thread ∈ cast.philosophers)
    (steps : step cast (cast.phil thread) (state.pc thread) state.shared =
      some (called, pc', shared')) (k : Nat) (below : k < cast.phnum) :
    shared'.stick k = true ↔ ∃ other ∈ cast.philosophers,
      cast.Holds (Function.update state.pc thread pc' other) (cast.phil other) k := by
  have different := right_ne sensible (sensible.below thread mem)
  -- all that the step can change for this stick is whether the thread has taken it
  have split : (∃ other ∈ cast.philosophers,
      cast.Holds (Function.update state.pc thread pc' other) (cast.phil other) k) ↔
      cast.Holds pc' (cast.phil thread) k ∨ ∃ other ∈ cast.philosophers, other ≠ thread ∧
        cast.Holds (state.pc other) (cast.phil other) k := by
    constructor
    · rintro ⟨other, otherMem, holds⟩
      by_cases same : other = thread
      · subst same
        rw [Function.update_self] at holds
        exact .inl holds
      · rw [Function.update_of_ne same] at holds
        exact .inr ⟨other, otherMem, same, holds⟩
    · rintro (holds | ⟨other, otherMem, same, holds⟩)
      · exact ⟨thread, mem, by rwa [Function.update_self]⟩
      · exact ⟨other, otherMem, by rwa [Function.update_of_ne same]⟩
  have before : state.shared.stick k = true ↔ cast.Holds (state.pc thread) (cast.phil thread) k ∨
      ∃ other ∈ cast.philosophers, other ≠ thread ∧
        cast.Holds (state.pc other) (cast.phil other) k := by
    rw [kept.sticks k below]
    constructor
    · rintro ⟨other, otherMem, holds⟩
      by_cases same : other = thread
      · exact .inl (same ▸ holds)
      · exact .inr ⟨other, otherMem, same, holds⟩
    · rintro (holds | ⟨other, otherMem, -, holds⟩)
      · exact ⟨thread, mem, holds⟩
      · exact ⟨other, otherMem, holds⟩
  -- while the thread dines nobody else has taken its sticks
  have alone : (state.pc thread).dines = true → cast.Uses (cast.phil thread) k →
      ¬ ∃ other ∈ cast.philosophers, other ≠ thread ∧
        cast.Holds (state.pc other) (cast.phil other) k := by
    rintro dines uses ⟨other, otherMem, same, holds⟩
    exact same (kept.apart thread mem other otherMem k uses (holds_uses holds) dines
      (holds_dines holds))
  rw [split]
  rcases step_stick steps with ⟨same, left, right⟩ | ⟨isPc, rfl, stick⟩ | ⟨isPc, rfl, stick⟩ |
    ⟨isPc, rfl, stick⟩ | ⟨isPc, rfl, stick⟩
  · rw [same, before]
    unfold Cast.Holds
    rw [left, right]
  · rw [stick]
    by_cases isRight : k = cast.right (cast.phil thread)
    · simp [isRight, Cast.Holds, Pc.holdsRight]
    · rw [Function.update_of_ne isRight, before, isPc]
      simp [Cast.Holds, Pc.holdsLeft, Pc.holdsRight, isRight]
  · rw [stick]
    by_cases isLeft : k = cast.phil thread
    · simp [isLeft, Cast.Holds, Pc.holdsLeft]
    · rw [Function.update_of_ne isLeft, before, isPc]
      simp [Cast.Holds, Pc.holdsLeft, Pc.holdsRight, isLeft]
  · rw [stick]
    by_cases isRight : k = cast.right (cast.phil thread)
    · have none := alone (by simp [isPc, Pc.dines]) (.inr isRight)
      rw [or_iff_left none, isRight]
      simp [Cast.Holds, Pc.holdsLeft, Pc.holdsRight, different]
    · rw [Function.update_of_ne isRight, before, isPc]
      simp [Cast.Holds, Pc.holdsLeft, Pc.holdsRight, isRight]
  · rw [stick]
    by_cases isLeft : k = cast.phil thread
    · have none := alone (by simp [isPc, Pc.dines]) (.inl isLeft)
      rw [or_iff_left none, isLeft]
      simp [Cast.Holds, Pc.holdsLeft, Pc.holdsRight]
    · rw [Function.update_of_ne isLeft, before, isPc]
      simp [Cast.Holds, Pc.holdsLeft, Pc.holdsRight, isLeft]

/-- Who has taken a stick of a neighbour signals it later. -/
theorem holds_owes (below : phil < cast.phnum) (below' : number < cast.phnum)
    (different : phil ≠ number) (holds : cast.Holds pc phil k) (uses : cast.Uses number k) :
    cast.Owes pc phil number := by
  rcases holds with ⟨left, isLeft⟩ | ⟨right, isRight⟩
  · rcases uses with isNumber | isNumber
    · exact absurd (isLeft.symm.trans isNumber) different
    · right
      constructor
      · cases pc <;> simp_all [Pc.holdsLeft, Pc.owesLeft]
      · rw [← isLeft, isNumber]
        exact lphil_right below'
  · rcases uses with isNumber | isNumber
    · left
      constructor
      · cases pc <;> simp_all [Pc.holdsRight, Pc.owesRight]
      · exact isRight.symm.trans isNumber
    · exact absurd (right_inj below below' (isRight.symm.trans isNumber)) different

/-- A philosopher stands alone in its queue, and a signal takes it out. -/
theorem Kept.signalled (kept : Kept cast rooms state) (sensible : cast.Sensible) {condition : Ptr}
    (mem : thread ∈ cast.philosophers) (waits : thread ∈ rooms.queue (.condition condition)) :
    thread ∉ (rooms.signal (cast.q (cast.phil thread))).queue (.condition condition) := by
  obtain ⟨-, isQueue, -⟩ := kept.sound.awaits condition thread waits
  have only : ∀ entry ∈ rooms.queue (.condition condition), entry = thread := by
    intro entry inQueue
    obtain ⟨entryMem, isQueue', -⟩ := kept.sound.awaits condition entry inQueue
    exact sensible.injective entryMem mem (sensible.queues _ (sensible.below entry entryMem) _
      (sensible.below thread mem) (isQueue'.symm.trans isQueue))
  rw [← isQueue]
  cases shape : rooms.queue (.condition condition) with
  | nil =>
      rw [shape] at waits
      cases waits
  | cons first rest =>
      rw [Rooms.signal_cons shape, Rooms.enter_condition]
      dsimp only
      rw [Function.update_self]
      intro later
      have nodup := kept.sound.consistent.nodup (.condition condition)
      rw [shape] at only nodup
      have isFirst := only first List.mem_cons_self
      subst isFirst
      exact (List.nodup_cons.mp nodup).1 later

/-- Who waits is signalled by a neighbour, after a step as well. -/
theorem Kept.wakes_step (kept : Kept cast rooms state) (sensible : cast.Sensible)
    (mem : thread ∈ cast.philosophers) (free : ∀ place, thread ∉ rooms.queue place)
    (steps : step cast (cast.phil thread) (state.pc thread) state.shared =
      some (called, pc', shared')) (waiter : Ptr) (waiterMem : waiter ∈ cast.philosophers)
    (condition : Ptr)
    (waits : waiter ∈ (RoomPrograms.call thread called rooms).queue (.condition condition)) :
    ∃ other ∈ cast.philosophers, cast.Owes (Function.update state.pc thread pc' other)
      (cast.phil other) (cast.phil waiter) := by
  rcases mem_condition_call waits with old | ⟨rfl, room, -, rfl⟩
  · obtain ⟨other, otherMem, owes⟩ := kept.wakes waiter waiterMem condition old
    refine ⟨other, otherMem, ?_⟩
    by_cases same : other = thread
    · subst same
      rw [Function.update_self]
      refine (step_owes steps owes).resolve_right ?_
      rintro rfl
      exact kept.signalled sensible waiterMem old waits
    · rwa [Function.update_of_ne same]
  · -- the stick that it has not found free is taken by a neighbour
    have isPc : state.pc waiter = .wait := by
      rcases step_calls steps with ⟨isCall, -⟩ | ⟨isCall, -⟩ | ⟨isCall, -⟩ | ⟨-, isPc, -⟩ |
        ⟨number, isCall, -⟩
      · cases isCall
      · cases isCall
      · cases isCall
      · exact isPc
      · cases isCall
    have below := sensible.below waiter waiterMem
    obtain ⟨k, uses, inRange, stick⟩ : ∃ k, cast.Uses (cast.phil waiter) k ∧ k < cast.phnum ∧
        state.shared.stick k = true := by
      rcases kept.taken waiter waiterMem isPc with left | right
      · exact ⟨_, .inl rfl, below, left⟩
      · exact ⟨_, .inr rfl, right_lt sensible, right⟩
    obtain ⟨other, otherMem, holds⟩ := (kept.sticks k inRange).mp stick
    have different : other ≠ waiter := by
      rintro rfl
      rw [isPc] at holds
      simp [Cast.Holds, Pc.holdsLeft, Pc.holdsRight] at holds
    refine ⟨other, otherMem, ?_⟩
    rw [Function.update_of_ne different]
    exact holds_owes (sensible.below other otherMem) below
      (fun same => different (sensible.injective otherMem waiterMem same)) holds uses

/-- Who finds its sticks free dines alone. -/
theorem Kept.dines_step (kept : Kept cast rooms state) (mem : thread ∈ cast.philosophers)
    (sensible : cast.Sensible) (free : ∀ place, thread ∉ rooms.queue place)
    (steps : step cast (cast.phil thread) (state.pc thread) state.shared =
      some (called, pc', shared')) (dines : pc'.dines = true) (otherMem : other ∈ cast.philosophers)
    (different : other ≠ thread) (uses : cast.Uses (cast.phil thread) k)
    (uses' : cast.Uses (cast.phil other) k) : (state.pc other).dines = false := by
  rw [← Bool.not_eq_true]
  intro otherDines
  rcases step_dines steps dines with before | ⟨isPc, isNext⟩
  · exact different (kept.apart thread mem other otherMem k uses uses' before otherDines)
  · have leftFree := kept.leftFree thread mem (by simp [isPc, Pc.leftFree])
    have rightFree := (step_rightFree steps isNext).2.1
    have stick : state.shared.stick k = false := by
      rcases uses with rfl | rfl
      · exact leftFree
      · exact rightFree
    have outside := kept.others_outside mem free (by simp [isPc, Pc.within]) otherMem different
    exact kept.stick_free otherMem sensible uses' stick (dines_holds otherDines uses' outside)

theorem Kept.moves (kept : Kept cast rooms state) (sensible : cast.Sensible)
    (mem : thread ∈ cast.philosophers) (free : ∀ place, thread ∉ rooms.queue place)
    (steps : step cast (cast.phil thread) (state.pc thread) state.shared =
      some (called, pc', shared'))
    (takes : next cast thread state = some (called, { state with
      pc := Function.update state.pc thread pc'
      shared := shared' })) :
    Kept cast (RoomPrograms.call thread called rooms) { state with
      pc := Function.update state.pc thread pc'
      shared := shared' } := by
  have different := right_ne sensible (sensible.below thread mem)
  -- what the others rely on within the monitor does not change
  have still : ∀ other ∈ cast.philosophers, other ≠ thread → (state.pc other).within = true →
      (state.pc other).stopped = false → shared'.stick = state.shared.stick := by
    intro other otherMem apart within notStopped
    refine (step_inside steps).resolve_right fun inside => ?_
    rcases kept.others_outside mem free inside otherMem apart with outside | stopped
    · rw [within] at outside
      cases outside
    · rw [notStopped] at stopped
      cases stopped
  constructor
  case sound => exact kept.sound.take (accounts_follows cast) free takes
  case sticks => exact kept.sticks_step sensible mem steps
  case leftFree =>
    intro other otherMem isFree
    dsimp only at isFree ⊢
    by_cases same : other = thread
    · subst same
      rw [Function.update_self] at isFree
      exact step_leftFree steps different.symm (kept.leftFree other mem) isFree
    · rw [Function.update_of_ne same] at isFree
      obtain ⟨within, notStopped⟩ := leftFree_busy isFree
      rw [still other otherMem same within notStopped]
      exact kept.leftFree other otherMem isFree
  case rightFree =>
    intro other otherMem isPc
    dsimp only at isPc ⊢
    by_cases same : other = thread
    · subst same
      rw [Function.update_self] at isPc
      obtain ⟨-, isFree, rfl⟩ := step_rightFree steps isPc
      exact isFree
    · rw [Function.update_of_ne same] at isPc
      rw [still other otherMem same (by simp [isPc, Pc.within]) (by simp [isPc, Pc.stopped])]
      exact kept.rightFree other otherMem isPc
  case taken =>
    intro other otherMem isPc
    dsimp only at isPc ⊢
    by_cases same : other = thread
    · subst same
      rw [Function.update_self] at isPc
      obtain ⟨rfl, isTaken⟩ := step_taken steps isPc
      exact isTaken
    · rw [Function.update_of_ne same] at isPc
      rw [still other otherMem same (by simp [isPc, Pc.within]) (by simp [isPc, Pc.stopped])]
      exact kept.taken other otherMem isPc
  case apart =>
    intro first firstMem second secondMem k uses uses' dines dines'
    dsimp only at dines dines'
    by_cases isFirst : first = thread
    · by_cases isSecond : second = thread
      · exact isSecond.trans isFirst.symm
      · subst isFirst
        rw [Function.update_self] at dines
        rw [Function.update_of_ne isSecond] at dines'
        rw [kept.dines_step mem sensible free steps dines secondMem isSecond uses uses'] at dines'
        cases dines'
    · by_cases isSecond : second = thread
      · subst isSecond
        rw [Function.update_self] at dines'
        rw [Function.update_of_ne isFirst] at dines
        rw [kept.dines_step mem sensible free steps dines' firstMem isFirst uses' uses] at dines
        cases dines
      · rw [Function.update_of_ne isFirst] at dines
        rw [Function.update_of_ne isSecond] at dines'
        exact kept.apart first firstMem second secondMem k uses uses' dines dines'
  case phs =>
    intro other otherMem
    obtain ⟨own, others⟩ := step_phs steps
    dsimp only
    by_cases same : other = thread
    · subst same
      rw [Function.update_self]
      exact own (kept.phs other mem)
    · have apart : cast.phil other ≠ cast.phil thread := fun isSame =>
        same (sensible.injective otherMem mem isSame)
      rw [Function.update_of_ne same, others _ apart]
      exact kept.phs other otherMem
  case wakes => exact kept.wakes_step sensible mem free steps

theorem Kept.step (kept : Kept cast rooms state) (sensible : cast.Sensible)
    (step : RoomPrograms.Step (next cast) (rooms, state) (rooms', state')) :
    Kept cast rooms' state' := by
  cases step with
  | take thread free takes =>
      rcases next_cases takes with ⟨mem, pc, shared, steps, rfl⟩ | ⟨-, rfl, rfl⟩
      · exact kept.moves sensible mem free steps takes
      · exact ⟨kept.sound.take (accounts_follows cast) free takes, kept.sticks, kept.leftFree,
          kept.rightFree, kept.taken, kept.apart, kept.phs, kept.wakes⟩

/-- The rooms in which nobody is. -/
def Vacant (rooms : Rooms Ptr Ptr Ptr) : Prop :=
  (∀ room, rooms.inside room = []) ∧ ∀ place, rooms.queue place = []

theorem Starts.kept (starts : Starts cast state) (vacant : Vacant rooms) (sensible : cast.Sensible) :
    Kept cast rooms state := by
  obtain ⟨inside, queue⟩ := vacant
  constructor
  case sound =>
    refine ⟨⟨⟨fun place => ?_, fun place _ thread mem => ?_⟩, fun room => ?_, fun room _ => queue _,
      fun room thread mem => ?_⟩, fun room thread => ?_, fun place thread mem => ?_,
      fun condition thread mem => ?_⟩
    · rw [queue]
      exact List.nodup_nil
    · rw [queue] at mem
      cases mem
    · rw [inside]
      decide
    · rw [inside] at mem
      cases mem
    · simp only [accounts, Claims, Rooms.Blocked, inside, queue, List.not_mem_nil, false_and,
        exists_false, or_self, iff_false, not_and]
      intro _ mem
      rw [starts.pc thread mem]
      decide
    · rw [queue] at mem
      cases mem
    · rw [queue] at mem
      cases mem
  case sticks =>
    intro k below
    rw [starts.stick k below]
    simp only [Bool.false_eq_true, false_iff, not_exists, not_and]
    intro thread mem
    simp [Cast.Holds, starts.pc thread mem, Pc.holdsLeft, Pc.holdsRight]
  case leftFree =>
    intro thread mem isFree
    rw [starts.pc thread mem] at isFree
    cases isFree
  case rightFree =>
    intro thread mem isPc
    rw [starts.pc thread mem] at isPc
    cases isPc
  case taken =>
    intro thread mem isPc
    rw [starts.pc thread mem] at isPc
    cases isPc
  case apart =>
    intro thread mem other _ k _ _ dines
    rw [starts.pc thread mem] at dines
    cases dines
  case phs =>
    intro thread mem
    rw [starts.phs _ (sensible.below thread mem), starts.pc thread mem]
    rfl
  case wakes =>
    intro thread _ condition waits
    rw [queue] at waits
    cases waits

end Steps

end Philosophers

end Oseer
