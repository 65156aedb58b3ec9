import Oseer.SemaphorePrograms

/-!
# Producers and consumers

The threads of `programs/semaphores/semaphores.c`.  Producers put numbers into a buffer and a zero
last, and consumers take them out until they have seen a zero from each producer.  A step is an
access to the variables that the threads share, or a call of the kernel; what is printed is left
out.  The numbers that go through the buffer are recorded with the threads that put and took them.
-/

namespace Oseer

open SemaphoreUnits

namespace ProducerConsumer

/-- The semaphores. -/
inductive Sem
  | filled
  | empty
  | crit1
  | crit2
deriving DecidableEq, Repr

/-- The threads of the program, with the number `thr_no` of each, and `BUFF_SIZE`. -/
structure Cast where
  consumers : Finset Ptr
  producers : Finset Ptr
  thrNo : Ptr → Int
  buffSize : Nat

/-- `PRODUCERS`. -/
def Cast.count (cast : Cast) : Nat := cast.producers.card

/-- Where a consumer is in its function. -/
inductive ConsumerPc
  /-- The condition of the loop. -/
  | test
  | waitFilled
  | waitCrit1
  /-- `if ( end_msgs >= PRODUCERS )`. -/
  | check
  /-- `mybuff[items] = buffer[out]`. -/
  | take
  /-- `if ( ++out >= BUFF_SIZE )`. -/
  | advance
  /-- `out %= BUFF_SIZE`. -/
  | wrap
  /-- `if ( !mybuff[items] ) end_msgs++`. -/
  | note
  /-- `items++`. -/
  | got
  | postCrit1
  | postEmpty
  | sleep
  /-- `sem_post ( &crit1 )` before `break`. -/
  | dropCrit1
  /-- `sem_post ( &empty )` before `break`. -/
  | dropEmpty
  /-- `sem_post ( &filled )` behind the loop. -/
  | leave
  | gone
deriving DecidableEq, Repr

/-- The variables of a consumer, and whether it has left the loop by `break`. -/
structure Consumer where
  pc : ConsumerPc
  items : Nat
  mybuff : Nat → Int
  broke : Bool

/-- Where a producer is in its function. -/
inductive ProducerPc
  /-- The condition of the loop. -/
  | test
  | waitEmpty
  | waitCrit2
  /-- The number that is put is computed. -/
  | choose
  /-- `buffer[in] = data`. -/
  | store
  /-- `if ( ++in >= BUFF_SIZE )`. -/
  | advance
  /-- `in %= BUFF_SIZE`. -/
  | wrap
  | postCrit2
  | postFilled
  | sleep
  | gone
deriving DecidableEq, Repr

/-- The variables of a producer. -/
structure Producer where
  pc : ProducerPc
  i : Nat
  data : Int

/-- The variables that the threads share; `putAt` is `in`, and `takeAt` is `out`. -/
structure Shared where
  buffer : Nat → Int
  putAt : Nat
  takeAt : Nat
  endMsgs : Nat
  sent : List (Ptr × Int)
  received : List (Ptr × Int)

/-- The state of the program. -/
structure State where
  shared : Shared
  consumer : Ptr → Consumer
  producer : Ptr → Producer

/-- A step of a consumer. -/
def Consumer.step (cast : Cast) (thread : Ptr) (consumer : Consumer) (shared : Shared) :
    Option (Option (Call Sem) × Consumer × Shared) :=
  match consumer.pc with
  | .test =>
      if shared.endMsgs < cast.count then some (none, { consumer with pc := .waitFilled }, shared)
      else some (none, { consumer with pc := .leave, broke := false }, shared)
  | .waitFilled => some (some (.wait .filled), { consumer with pc := .waitCrit1 }, shared)
  | .waitCrit1 => some (some (.wait .crit1), { consumer with pc := .check }, shared)
  | .check =>
      if cast.count ≤ shared.endMsgs then some (none, { consumer with pc := .dropCrit1 }, shared)
      else some (none, { consumer with pc := .take }, shared)
  | .take =>
      let item := shared.buffer shared.takeAt
      some (none, { consumer with
        pc := .advance
        mybuff := Function.update consumer.mybuff consumer.items item },
        { shared with received := shared.received ++ [(thread, item)] })
  | .advance =>
      if cast.buffSize ≤ shared.takeAt + 1 then
        some (none, { consumer with pc := .wrap }, { shared with takeAt := shared.takeAt + 1 })
      else some (none, { consumer with pc := .note }, { shared with takeAt := shared.takeAt + 1 })
  | .wrap =>
      some (none, { consumer with pc := .note },
        { shared with takeAt := shared.takeAt % cast.buffSize })
  | .note =>
      some (none, { consumer with pc := .got }, { shared with
        endMsgs := if consumer.mybuff consumer.items = 0 then shared.endMsgs + 1
          else shared.endMsgs })
  | .got => some (none, { consumer with pc := .postCrit1, items := consumer.items + 1 }, shared)
  | .postCrit1 => some (some (.post .crit1), { consumer with pc := .postEmpty }, shared)
  | .postEmpty => some (some (.post .empty), { consumer with pc := .sleep }, shared)
  | .sleep => some (none, { consumer with pc := .test }, shared)
  | .dropCrit1 => some (some (.post .crit1), { consumer with pc := .dropEmpty }, shared)
  | .dropEmpty =>
      some (some (.post .empty), { consumer with pc := .leave, broke := true }, shared)
  | .leave => some (some (.post .filled), { consumer with pc := .gone }, shared)
  | .gone => none

/-- The number that a producer puts into the buffer in round `i`. -/
def Cast.item (cast : Cast) (thread : Ptr) (i : Nat) : Int :=
  if i + 1 < cast.buffSize then cast.thrNo thread * 10 + i % 10 else 0

/-- A step of a producer. -/
def Producer.step (cast : Cast) (thread : Ptr) (producer : Producer) (shared : Shared) :
    Option (Option (Call Sem) × Producer × Shared) :=
  match producer.pc with
  | .test =>
      if producer.i < cast.buffSize then some (none, { producer with pc := .waitEmpty }, shared)
      else some (none, { producer with pc := .gone }, shared)
  | .waitEmpty => some (some (.wait .empty), { producer with pc := .waitCrit2 }, shared)
  | .waitCrit2 => some (some (.wait .crit2), { producer with pc := .choose }, shared)
  | .choose =>
      some (none, { producer with pc := .store, data := cast.item thread producer.i }, shared)
  | .store =>
      some (none, { producer with pc := .advance }, { shared with
        buffer := Function.update shared.buffer shared.putAt producer.data
        sent := shared.sent ++ [(thread, producer.data)] })
  | .advance =>
      if cast.buffSize ≤ shared.putAt + 1 then
        some (none, { producer with pc := .wrap }, { shared with putAt := shared.putAt + 1 })
      else
        some (none, { producer with pc := .postCrit2 }, { shared with putAt := shared.putAt + 1 })
  | .wrap =>
      some (none, { producer with pc := .postCrit2 },
        { shared with putAt := shared.putAt % cast.buffSize })
  | .postCrit2 => some (some (.post .crit2), { producer with pc := .postFilled }, shared)
  | .postFilled => some (some (.post .filled), { producer with pc := .sleep }, shared)
  | .sleep => some (none, { producer with pc := .test, i := producer.i + 1 }, shared)
  | .gone => none

/-- The next step of a thread. -/
def next (cast : Cast) : Next Sem Ptr State := fun thread state =>
  if thread ∈ cast.consumers then
    ((state.consumer thread).step cast thread state.shared).map fun result =>
      (result.1, { state with
        consumer := Function.update state.consumer thread result.2.1
        shared := result.2.2 })
  else if thread ∈ cast.producers then
    ((state.producer thread).step cast thread state.shared).map fun result =>
      (result.1, { state with
        producer := Function.update state.producer thread result.2.1
        shared := result.2.2 })
  else none

/-- The state in which the threads begin. -/
structure Starts (cast : Cast) (state : State) : Prop where
  putAt : state.shared.putAt = 0
  takeAt : state.shared.takeAt = 0
  endMsgs : state.shared.endMsgs = 0
  sent : state.shared.sent = []
  received : state.shared.received = []
  consumer : ∀ thread ∈ cast.consumers,
    (state.consumer thread).pc = .test ∧ (state.consumer thread).items = 0
  producer : ∀ thread ∈ cast.producers,
    (state.producer thread).pc = .test ∧ (state.producer thread).i = 1

/-- The values that `semaphores` initializes the semaphores with. -/
def initialValue (cast : Cast) : Sem → Int
  | .filled => 0
  | .empty => cast.buffSize
  | .crit1 => 1
  | .crit2 => 1

/-- The threads are there, and the zero that a producer puts last is its only one. -/
structure Cast.Sensible (cast : Cast) : Prop where
  apart : Disjoint cast.consumers cast.producers
  some : cast.consumers.Nonempty
  room : 2 ≤ cast.buffSize
  numbered : ∀ thread ∈ cast.producers, 0 < cast.thrNo thread

section Accounts

/-- The units that a consumer holds. -/
def Consumer.held (consumer : Consumer) : Sem → Int
  | .filled => match consumer.pc with
      | .waitCrit1 | .check | .take | .dropCrit1 | .dropEmpty => 1
      | .leave => if consumer.broke then 1 else 0
      | .gone => if consumer.broke then 0 else -1
      | _ => 0
  | .empty => match consumer.pc with
      | .advance | .wrap | .note | .got | .postCrit1 | .postEmpty => 1
      | .leave | .gone => if consumer.broke then -1 else 0
      | _ => 0
  | .crit1 => match consumer.pc with
      | .check | .take | .advance | .wrap | .note | .got | .postCrit1 | .dropCrit1 => 1
      | _ => 0
  | .crit2 => 0

/-- The units that a producer holds. -/
def Producer.held (producer : Producer) : Sem → Int
  | .filled => match producer.pc with
      | .advance | .wrap | .postCrit2 | .postFilled => 1
      | _ => 0
  | .empty => match producer.pc with
      | .waitCrit2 | .choose | .store => 1
      | _ => 0
  | .crit1 => 0
  | .crit2 => match producer.pc with
      | .choose | .store | .advance | .wrap | .postCrit2 => 1
      | _ => 0

/-- The units of each semaphore: a number in the buffer is one of `filled`, a free place one of
`empty`. -/
def Shared.supply (cast : Cast) (shared : Shared) : Sem → Int
  | .filled => shared.sent.length - shared.received.length
  | .empty => cast.buffSize - shared.sent.length + shared.received.length
  | .crit1 => 1
  | .crit2 => 1

/-- Behind a wait. -/
def State.Stopped (cast : Cast) (sem : Sem) (state : State) (thread : Ptr) : Prop :=
  match sem with
  | .filled => thread ∈ cast.consumers ∧ (state.consumer thread).pc = .waitCrit1
  | .crit1 => thread ∈ cast.consumers ∧ (state.consumer thread).pc = .check
  | .empty => thread ∈ cast.producers ∧ (state.producer thread).pc = .waitCrit2
  | .crit2 => thread ∈ cast.producers ∧ (state.producer thread).pc = .choose

/-- What the threads hold of the semaphores. -/
def accounts (cast : Cast) : Accounts Sem Ptr State where
  threads := cast.consumers ∪ cast.producers
  stopped := State.Stopped cast
  held sem state thread :=
    if thread ∈ cast.consumers then (state.consumer thread).held sem
    else (state.producer thread).held sem
  supply sem state := state.shared.supply cast sem

variable {cast : Cast} {thread other : Ptr} {state state' : State} {call : Option (Call Sem)}
  {consumer consumer' : Consumer} {producer producer' : Producer} {shared shared' : Shared}

/-- Who takes a step. -/
theorem next_cases (takes : next cast thread state = some (call, state')) :
    (thread ∈ cast.consumers ∧ ∃ consumer shared,
      (state.consumer thread).step cast thread state.shared = some (call, consumer, shared) ∧
      state' = { state with
        consumer := Function.update state.consumer thread consumer
        shared := shared }) ∨
    (thread ∉ cast.consumers ∧ thread ∈ cast.producers ∧ ∃ producer shared,
      (state.producer thread).step cast thread state.shared = some (call, producer, shared) ∧
      state' = { state with
        producer := Function.update state.producer thread producer
        shared := shared }) := by
  unfold next at takes
  split_ifs at takes with isConsumer isProducer
  · obtain ⟨⟨called, consumer, shared⟩, steps, same⟩ := Option.map_eq_some_iff.mp takes
    obtain ⟨rfl, rfl⟩ := Prod.mk.inj same
    exact .inl ⟨isConsumer, consumer, shared, steps, rfl⟩
  · obtain ⟨⟨called, producer, shared⟩, steps, same⟩ := Option.map_eq_some_iff.mp takes
    obtain ⟨rfl, rfl⟩ := Prod.mk.inj same
    exact .inr ⟨isConsumer, isProducer, producer, shared, steps, rfl⟩

theorem Consumer.step_pays
    (steps : consumer.step cast thread shared = some (call, consumer', shared')) (sem : Sem) :
    Semaphores.change sem call + consumer'.held sem + shared.supply cast sem =
      consumer.held sem + shared'.supply cast sem := by
  unfold Consumer.step at steps
  split at steps <;> try split at steps
  all_goals cases steps
  all_goals cases sem <;> simp [Consumer.held, Semaphores.change, Shared.supply, *] <;> grind

theorem Producer.step_pays
    (steps : producer.step cast thread shared = some (call, producer', shared')) (sem : Sem) :
    Semaphores.change sem call + producer'.held sem + shared.supply cast sem =
      producer.held sem + shared'.supply cast sem := by
  unfold Producer.step at steps
  split at steps <;> try split at steps
  all_goals cases steps
  all_goals cases sem <;> simp [Producer.held, Semaphores.change, Shared.supply, *] <;> omega

/-- After a call to wait a consumer is behind that wait. -/
theorem Consumer.step_stops {sem : Sem}
    (steps : consumer.step cast thread shared = some (some (.wait sem), consumer', shared')) :
    sem = .filled ∧ consumer'.pc = .waitCrit1 ∨ sem = .crit1 ∧ consumer'.pc = .check := by
  unfold Consumer.step at steps
  split at steps <;> try split at steps
  all_goals cases steps
  · exact .inl ⟨rfl, rfl⟩
  · exact .inr ⟨rfl, rfl⟩

/-- After a call to wait a producer is behind that wait. -/
theorem Producer.step_stops {sem : Sem}
    (steps : producer.step cast thread shared = some (some (.wait sem), producer', shared')) :
    sem = .empty ∧ producer'.pc = .waitCrit2 ∨ sem = .crit2 ∧ producer'.pc = .choose := by
  unfold Producer.step at steps
  split at steps <;> try split at steps
  all_goals cases steps
  · exact .inl ⟨rfl, rfl⟩
  · exact .inr ⟨rfl, rfl⟩

/-- Only the thread that takes a step changes its variables. -/
theorem next_apart (takes : next cast thread state = some (call, state'))
    (different : other ≠ thread) :
    state'.consumer other = state.consumer other ∧ state'.producer other = state.producer other := by
  rcases next_cases takes with ⟨-, consumer, shared, -, rfl⟩ | ⟨-, -, producer, shared, -, rfl⟩
  · exact ⟨Function.update_of_ne different .., rfl⟩
  · exact ⟨rfl, Function.update_of_ne different ..⟩

/-- The calls of the threads agree with what they hold. -/
theorem accounts_follows (cast : Cast) : (accounts cast).Follows (next cast) where
  mine takes := by
    rcases next_cases takes with ⟨mem, -⟩ | ⟨-, mem, -⟩
    · exact Finset.mem_union_left _ mem
    · exact Finset.mem_union_right _ mem
  apart takes other different sem := by
    obtain ⟨sameConsumer, sameProducer⟩ := next_apart takes different
    constructor
    · simp only [accounts, sameConsumer, sameProducer]
    · intro stopped
      cases sem <;> simpa only [accounts, State.Stopped, sameConsumer, sameProducer] using stopped
  stops takes := by
    rcases next_cases takes with ⟨mem, consumer, shared, steps, rfl⟩ |
      ⟨-, mem, producer, shared, steps, rfl⟩
    · rcases Consumer.step_stops steps with ⟨rfl, isPc⟩ | ⟨rfl, isPc⟩
      · simp [accounts, State.Stopped, mem, isPc]
      · simp [accounts, State.Stopped, mem, isPc]
    · rcases Producer.step_stops steps with ⟨rfl, isPc⟩ | ⟨rfl, isPc⟩
      · simp [accounts, State.Stopped, mem, isPc]
      · simp [accounts, State.Stopped, mem, isPc]
  pays takes sem := by
    rcases next_cases takes with ⟨mem, consumer, shared, steps, rfl⟩ |
      ⟨notMem, -, producer, shared, steps, rfl⟩
    · simpa [accounts, mem] using Consumer.step_pays steps sem
    · simpa [accounts, notMem] using Producer.step_pays steps sem

end Accounts

end ProducerConsumer

end Oseer
