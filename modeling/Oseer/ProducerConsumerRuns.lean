import Oseer.ProducerConsumer

/-!
# Runs of producers and consumers

Every number that a producer puts into the buffer is taken out once, and in order: no place of the
buffer is used again before its number is taken.  The threads never all wait for each other, and
in the end all of them are gone.
-/

namespace Oseer

open SemaphoreUnits

namespace ProducerConsumer

variable {cast : Cast} {thread other : Ptr} {state state' : State} {call : Option (Call Sem)}
  {consumer consumer' : Consumer} {producer producer' : Producer} {shared shared' : Shared}
  {semaphores semaphores' : Semaphores Sem Ptr}

section Local

/-- The zeros among the numbers that went through the buffer. -/
def zeros (entries : List (Ptr × Int)) : Nat := (entries.map Prod.snd).count 0

/-- A number is taken, and `out` is not moved yet. -/
def Consumer.advancing (consumer : Consumer) : Int := if consumer.pc = .advance then 1 else 0

/-- `out` is moved behind the buffer. -/
def Consumer.wrapping (consumer : Consumer) : Int := if consumer.pc = .wrap then 1 else 0

/-- A zero is taken, and not counted in `end_msgs` yet. -/
def Consumer.unnoted (consumer : Consumer) : Int :=
  match consumer.pc with
  | .advance | .wrap | .note => if consumer.mybuff consumer.items = 0 then 1 else 0
  | _ => 0

/-- The numbers in `mybuff`. -/
def Consumer.taken (consumer : Consumer) : Nat :=
  match consumer.pc with
  | .advance | .wrap | .note | .got => consumer.items + 1
  | _ => consumer.items

/-- The consumer is alone in its critical section, or waits to be. -/
def Consumer.Inside (consumer : Consumer) : Prop := consumer.held .crit1 = 1

/-- The producer is alone in its critical section, or waits to be. -/
def Producer.Inside (producer : Producer) : Prop := producer.held .crit2 = 1

/-- The consumer has seen that nothing comes any more. -/
def Consumer.Late (consumer : Consumer) : Prop :=
  consumer.pc = .dropCrit1 ∨ consumer.pc = .dropEmpty ∨ consumer.pc = .leave ∨ consumer.pc = .gone

/-- The consumer will not wait again when nothing comes any more. -/
def Consumer.Aware (consumer : Consumer) : Prop :=
  consumer.pc = .got ∨ consumer.pc = .postCrit1 ∨ consumer.pc = .postEmpty ∨ consumer.pc = .sleep ∨
    consumer.pc = .test ∨ (consumer.pc = .leave ∨ consumer.pc = .gone) ∧ consumer.broke = false

/-- A number is put, and `in` is not moved yet. -/
def Producer.advancing (producer : Producer) : Int := if producer.pc = .advance then 1 else 0

/-- `in` is moved behind the buffer. -/
def Producer.wrapping (producer : Producer) : Int := if producer.pc = .wrap then 1 else 0

/-- The numbers that the producer has put. -/
def Producer.stored (producer : Producer) : Nat :=
  match producer.pc with
  | .advance | .wrap | .postCrit2 | .postFilled | .sleep => producer.i
  | _ => producer.i - 1

/-- The step changes nothing that is shared, or it is one of the steps that do. -/
theorem Consumer.step_shared
    (steps : consumer.step cast thread shared = some (call, consumer', shared')) :
    shared' = shared ∨
    (consumer.pc = .take ∧ consumer'.pc = .advance ∧ consumer'.items = consumer.items ∧
      consumer'.mybuff =
        Function.update consumer.mybuff consumer.items (shared.buffer shared.takeAt) ∧
      shared' = { shared with
        received := shared.received ++ [(thread, shared.buffer shared.takeAt)] }) ∨
    (consumer.Inside ∧ ∃ out, shared' = { shared with takeAt := out }) ∨
    (consumer.pc = .note ∧ consumer'.pc = .got ∧
      ∃ endMsgs, shared.endMsgs ≤ endMsgs ∧ shared' = { shared with endMsgs := endMsgs }) := by
  unfold Consumer.step at steps
  split at steps <;> try split at steps
  all_goals cases steps
  all_goals simp_all [Consumer.Inside, Consumer.held]

/-- The numbers taken go on as `out` does. -/
theorem Consumer.step_takeAt
    (steps : consumer.step cast thread shared = some (call, consumer', shared')) :
    (cast.buffSize : Int) ∣
      (shared'.takeAt + consumer'.advancing - shared'.received.length) -
        (shared.takeAt + consumer.advancing - shared.received.length) := by
  unfold Consumer.step at steps
  split at steps <;> try split at steps
  all_goals cases steps
  all_goals simp_all [Consumer.advancing]
  -- `out` is brought back into the buffer
  exact Int.dvd_emod_sub_self

theorem Consumer.step_takeBound (room : 0 < cast.buffSize)
    (steps : consumer.step cast thread shared = some (call, consumer', shared')) :
    (shared'.takeAt : Int) < cast.buffSize ∨
      shared'.takeAt - consumer'.wrapping ≤ shared.takeAt - consumer.wrapping := by
  unfold Consumer.step at steps
  split at steps <;> try split at steps
  all_goals cases steps
  all_goals simp_all [Consumer.wrapping]
  · omega
  · exact .inl (Int.emod_lt_of_pos _ (by omega))

theorem Consumer.step_noted
    (steps : consumer.step cast thread shared = some (call, consumer', shared')) :
    shared'.endMsgs + consumer'.unnoted - zeros shared'.received =
      shared.endMsgs + consumer.unnoted - zeros shared.received := by
  unfold Consumer.step at steps
  split at steps <;> try split at steps
  all_goals cases steps
  all_goals simp_all [Consumer.unnoted, zeros]
  by_cases isZero : shared.buffer shared.takeAt = 0
  · simp [isZero]
  · simp [isZero]

theorem Consumer.step_late (late : consumer.Late → cast.count ≤ shared.endMsgs)
    (steps : consumer.step cast thread shared = some (call, consumer', shared')) :
    consumer'.Late → cast.count ≤ shared'.endMsgs := by
  unfold Consumer.step at steps
  split at steps <;> try split at steps
  all_goals cases steps
  all_goals simp_all [Consumer.Late]

theorem Consumer.step_early
    (steps : consumer.step cast thread shared = some (call, consumer', shared')) :
    consumer'.pc = .take → shared'.endMsgs < cast.count := by
  unfold Consumer.step at steps
  split at steps <;> try split at steps
  all_goals cases steps
  all_goals simp_all

theorem Consumer.step_aware (finished : cast.count ≤ shared.endMsgs) (aware : consumer.Aware)
    (steps : consumer.step cast thread shared = some (call, consumer', shared')) :
    consumer'.Aware := by
  unfold Consumer.step at steps
  split at steps <;> try split at steps
  all_goals cases steps
  all_goals simp_all [Consumer.Aware]
  omega

/-- What is in `mybuff` is what the consumer took. -/
theorem Consumer.step_got
    (got : (shared.received.filter (·.1 = thread)).map Prod.snd =
      (List.range consumer.taken).map consumer.mybuff)
    (steps : consumer.step cast thread shared = some (call, consumer', shared')) :
    (shared'.received.filter (·.1 = thread)).map Prod.snd =
      (List.range consumer'.taken).map consumer'.mybuff := by
  unfold Consumer.step at steps
  split at steps <;> try split at steps
  all_goals cases steps
  all_goals simp_all [Consumer.taken]
  rw [List.range_succ, List.map_append, List.map_singleton, Function.update_self]
  congr 1
  apply List.map_congr_left
  intro k inRange
  exact (Function.update_of_ne (List.mem_range.mp inRange).ne ..).symm

/-- The step changes nothing that is shared, or it is one of the steps that do. -/
theorem Producer.step_shared
    (steps : producer.step cast thread shared = some (call, producer', shared')) :
    (shared' = shared ∧ producer'.stored = producer.stored) ∨
    (producer.pc = .store ∧ producer'.pc = .advance ∧ producer'.i = producer.i ∧
      shared' = { shared with
        buffer := Function.update shared.buffer shared.putAt producer.data
        sent := shared.sent ++ [(thread, producer.data)] }) ∨
    ((∃ next, shared' = { shared with putAt := next }) ∧ producer'.stored = producer.stored) := by
  unfold Producer.step at steps
  split at steps <;> try split at steps
  all_goals cases steps
  all_goals simp_all [Producer.stored]

/-- The numbers put go on as `in` does. -/
theorem Producer.step_putAt
    (steps : producer.step cast thread shared = some (call, producer', shared')) :
    (cast.buffSize : Int) ∣
      (shared'.putAt + producer'.advancing - shared'.sent.length) -
        (shared.putAt + producer.advancing - shared.sent.length) := by
  unfold Producer.step at steps
  split at steps <;> try split at steps
  all_goals cases steps
  all_goals simp_all [Producer.advancing]
  -- `in` is brought back into the buffer
  exact Int.dvd_emod_sub_self

theorem Producer.step_putBound (room : 0 < cast.buffSize)
    (steps : producer.step cast thread shared = some (call, producer', shared')) :
    (shared'.putAt : Int) < cast.buffSize ∨
      shared'.putAt - producer'.wrapping ≤ shared.putAt - producer.wrapping := by
  unfold Producer.step at steps
  split at steps <;> try split at steps
  all_goals cases steps
  all_goals simp_all [Producer.wrapping]
  · omega
  · exact .inl (Int.emod_lt_of_pos _ (by omega))

/-- The rounds of a producer, and the number that it is about to put. -/
structure Producer.Round (cast : Cast) (thread : Ptr) (producer : Producer) : Prop where
  first : 1 ≤ producer.i
  last : producer.i ≤ cast.buffSize
  within : producer.pc ≠ .test → producer.pc ≠ .gone → producer.i < cast.buffSize
  allEnded : producer.pc = .gone → cast.buffSize ≤ producer.i
  data : producer.pc = .store → producer.data = cast.item thread producer.i

theorem Producer.Round.step (round : producer.Round cast thread)
    (steps : producer.step cast thread shared = some (call, producer', shared')) :
    producer'.Round cast thread := by
  obtain ⟨first, last, within, allEnded, data⟩ := round
  unfold Producer.step at steps
  split at steps <;> try split at steps
  all_goals cases steps
  all_goals constructor <;> simp_all

end Local

section Kept

/-- A producer has put its last number. -/
def Producer.finished (cast : Cast) (producer : Producer) : Int :=
  if cast.buffSize ≤ producer.stored + 1 then 1 else 0

/-- What holds in every state of the program. -/
structure Kept (cast : Cast) (semaphores : Semaphores Sem Ptr) (state : State) : Prop where
  sound : (accounts cast).Sound semaphores state
  inOrder : state.shared.received.map Prod.snd =
    (state.shared.sent.map Prod.snd).take state.shared.received.length
  slots : ∀ k entry, state.shared.sent[k]? = some entry → state.shared.received.length ≤ k →
    state.shared.buffer (k % cast.buffSize) = entry.2
  takeAt : (cast.buffSize : Int) ∣ state.shared.takeAt +
    ∑ thread ∈ cast.consumers, (state.consumer thread).advancing - state.shared.received.length
  takeBound : (state.shared.takeAt : Int) < cast.buffSize +
    ∑ thread ∈ cast.consumers, (state.consumer thread).wrapping
  putAt : (cast.buffSize : Int) ∣ state.shared.putAt +
    ∑ thread ∈ cast.producers, (state.producer thread).advancing - state.shared.sent.length
  putBound : (state.shared.putAt : Int) < cast.buffSize +
    ∑ thread ∈ cast.producers, (state.producer thread).wrapping
  noted : (state.shared.endMsgs : Int) +
    ∑ thread ∈ cast.consumers, (state.consumer thread).unnoted = zeros state.shared.received
  got : ∀ thread ∈ cast.consumers,
    (state.shared.received.filter (·.1 = thread)).map Prod.snd =
      (List.range (state.consumer thread).taken).map (state.consumer thread).mybuff
  late : ∀ thread ∈ cast.consumers, (state.consumer thread).Late →
    cast.count ≤ state.shared.endMsgs
  early : ∀ thread ∈ cast.consumers, (state.consumer thread).pc = .take →
    state.shared.endMsgs < cast.count
  aware : cast.count ≤ state.shared.endMsgs →
    ∃ thread ∈ cast.consumers, (state.consumer thread).Aware
  round : ∀ thread ∈ cast.producers, (state.producer thread).Round cast thread
  put : ∀ thread ∈ cast.producers,
    (state.shared.sent.filter (·.1 = thread)).map Prod.snd =
      (List.range (state.producer thread).stored).map fun k => cast.item thread (k + 1)
  sentCount : (state.shared.sent.length : Int) =
    ∑ thread ∈ cast.producers, ((state.producer thread).stored : Int)
  sentZeros : (zeros state.shared.sent : Int) =
    ∑ thread ∈ cast.producers, (state.producer thread).finished cast
  senders : ∀ entry ∈ state.shared.sent, entry.1 ∈ cast.producers

theorem Consumer.wrapping_nonneg : 0 ≤ consumer.wrapping := by
  unfold wrapping
  split <;> decide

theorem Consumer.advancing_nonneg : 0 ≤ consumer.advancing := by
  unfold advancing
  split <;> decide

theorem Consumer.unnoted_nonneg : 0 ≤ consumer.unnoted := by
  unfold unnoted
  split <;> try split
  all_goals decide

theorem Producer.wrapping_nonneg : 0 ≤ producer.wrapping := by
  unfold wrapping
  split <;> decide

theorem Producer.advancing_nonneg : 0 ≤ producer.advancing := by
  unfold advancing
  split <;> decide

theorem Producer.finished_le : producer.finished cast ≤ 1 := by
  unfold finished
  split <;> decide

section Facts

/-- A thread that waits for nothing owns all that it holds. -/
theorem own_eq (free : ∀ sem, thread ∉ semaphores.waiting sem) (sem : Sem) :
    (accounts cast).own semaphores state sem thread = (accounts cast).held sem state thread := by
  unfold Accounts.own
  rw [if_neg (free sem), Int.sub_zero]

theorem held_consumer (mem : thread ∈ cast.consumers) (sem : Sem) :
    (accounts cast).held sem state thread = (state.consumer thread).held sem := if_pos mem

theorem held_producer (sensible : cast.Sensible) (mem : thread ∈ cast.producers) (sem : Sem) :
    (accounts cast).held sem state thread = (state.producer thread).held sem :=
  if_neg fun isConsumer => Finset.disjoint_left.mp sensible.apart isConsumer mem

theorem Consumer.held_nonneg (sem : Sem) (staying : sem = .crit1 ∨ sem = .crit2 ∨ ¬ consumer.Late) :
    0 ≤ consumer.held sem := by
  cases sem <;> cases isPc : consumer.pc <;> simp_all [held, Consumer.Late]

theorem Producer.held_nonneg (sem : Sem) : 0 ≤ producer.held sem := by
  cases sem <;> cases isPc : producer.pc <;> simp [held, isPc]

/-- Who is behind a wait holds the unit, or waits for it. -/
theorem Stopped.held (sensible : cast.Sensible) {sem : Sem}
    (stopped : state.Stopped cast sem thread) : (accounts cast).held sem state thread = 1 := by
  cases sem <;> obtain ⟨mem, isPc⟩ := stopped
  · rw [held_consumer mem]
    simp [Consumer.held, isPc]
  · rw [held_producer sensible mem]
    simp [Producer.held, isPc]
  · rw [held_consumer mem]
    simp [Consumer.held, isPc]
  · rw [held_producer sensible mem]
    simp [Producer.held, isPc]

/-- Nobody owns less than nothing, as long as no consumer has left. -/
theorem Kept.own_nonneg (kept : Kept cast semaphores state) (sensible : cast.Sensible) {sem : Sem}
    (early : sem = .crit1 ∨ sem = .crit2 ∨ state.shared.endMsgs < cast.count)
    (mem : thread ∈ (accounts cast).threads) :
    0 ≤ (accounts cast).own semaphores state sem thread := by
  unfold Accounts.own
  split_ifs with waits
  · rw [Stopped.held sensible (kept.sound.waits sem thread waits).2]
    decide
  · rw [Int.sub_zero]
    rcases Finset.mem_union.mp mem with isConsumer | isProducer
    · rw [held_consumer isConsumer]
      apply Consumer.held_nonneg
      refine early.imp id (Or.imp id fun more isLate => ?_)
      have late := kept.late thread isConsumer isLate
      omega
    · rw [held_producer sensible isProducer]
      exact Producer.held_nonneg sem

/-- Only one thread is in a critical section. -/
theorem Kept.alone (kept : Kept cast semaphores state) (sensible : cast.Sensible) {sem : Sem}
    (crit : sem = .crit1 ∨ sem = .crit2)
    (mem : thread ∈ (accounts cast).threads) (inside : (accounts cast).held sem state thread = 1)
    (past : ¬ state.Stopped cast sem thread) (otherMem : other ∈ (accounts cast).threads)
    (otherInside : (accounts cast).held sem state other = 1)
    (otherPast : ¬ state.Stopped cast sem other) : other = thread := by
  have owns : ∀ entry, (accounts cast).held sem state entry = 1 → ¬ state.Stopped cast sem entry →
      1 ≤ (accounts cast).own semaphores state sem entry := by
    intro entry held notStopped
    unfold Accounts.own
    rw [held, if_neg fun waits => notStopped (kept.sound.waits sem entry waits).2]
    decide
  have single : (accounts cast).supply sem state = 1 := by
    rcases crit with rfl | rfl <;> rfl
  exact kept.sound.alone (fun entry mem => kept.own_nonneg sensible (crit.imp id .inl) mem) single
    mem (owns thread inside past) otherMem (owns other otherInside otherPast)

/-- Only one consumer is in its critical section. -/
theorem Kept.consumer_alone (kept : Kept cast semaphores state) (sensible : cast.Sensible)
    (mem : thread ∈ cast.consumers) (inside : (state.consumer thread).Inside)
    (past : (state.consumer thread).pc ≠ .check) (otherMem : other ∈ cast.consumers)
    (otherInside : (state.consumer other).Inside) (otherPast : (state.consumer other).pc ≠ .check) :
    other = thread :=
  kept.alone sensible (.inl rfl) (Finset.mem_union_left _ mem) ((held_consumer mem _).trans inside)
    (fun stopped => past stopped.2) (Finset.mem_union_left _ otherMem)
    ((held_consumer otherMem _).trans otherInside) fun stopped => otherPast stopped.2

/-- Only one producer is in its critical section. -/
theorem Kept.producer_alone (kept : Kept cast semaphores state) (sensible : cast.Sensible)
    (mem : thread ∈ cast.producers) (inside : (state.producer thread).Inside)
    (past : (state.producer thread).pc ≠ .choose) (otherMem : other ∈ cast.producers)
    (otherInside : (state.producer other).Inside)
    (otherPast : (state.producer other).pc ≠ .choose) : other = thread :=
  kept.alone sensible (.inr rfl) (Finset.mem_union_right _ mem)
    ((held_producer sensible mem _).trans inside) (fun stopped => past stopped.2)
    (Finset.mem_union_right _ otherMem) ((held_producer sensible otherMem _).trans otherInside)
    fun stopped => otherPast stopped.2

/-- All numbers are put when as many zeros are counted as there are producers. -/
theorem Kept.all_sent (kept : Kept cast semaphores state) (allEnded : cast.count ≤ state.shared.endMsgs)
    (mem : thread ∈ cast.producers) : cast.buffSize ≤ (state.producer thread).stored + 1 := by
  have fewer : zeros state.shared.received ≤ zeros state.shared.sent := by
    unfold zeros
    rw [kept.inOrder]
    exact (List.take_sublist _ _).count_le 0
  have noted := kept.noted
  have unnoted : 0 ≤ ∑ thread ∈ cast.consumers, (state.consumer thread).unnoted :=
    Finset.sum_nonneg fun thread _ => Consumer.unnoted_nonneg
  have sentZeros := kept.sentZeros
  have split := Finset.add_sum_erase cast.producers
    (fun thread => (state.producer thread).finished cast) mem
  have rest : ∑ other ∈ cast.producers.erase thread, (state.producer other).finished cast ≤
      cast.count - 1 := by
    have bound := Finset.sum_le_card_nsmul (cast.producers.erase thread)
      (fun other => (state.producer other).finished cast) 1 fun other _ => Producer.finished_le
    rw [Finset.card_erase_of_mem mem] at bound
    have positive := Finset.card_pos.mpr ⟨thread, mem⟩
    unfold Cast.count
    rw [nsmul_eq_mul, mul_one] at bound
    omega
  have isFinished : (state.producer thread).finished cast = 1 := by
    have atMost : (state.producer thread).finished cast ≤ 1 := Producer.finished_le
    omega
  unfold Producer.finished at isFinished
  by_contra notAll
  rw [if_neg notAll] at isFinished
  cases isFinished

theorem index_eq {index count size : Nat} {advancing wrapping : Int}
    (divides : (size : Int) ∣ index + advancing - count) (bound : (index : Int) < size + wrapping)
    (still : advancing = 0) (inside : wrapping = 0) : index = count % size := by
  rw [still, Int.add_zero] at divides
  have same : count % size = index % size := Nat.modEq_iff_dvd.mpr divides
  rw [same, Nat.mod_eq_of_lt (by omega)]

/-- A number is there for a consumer that takes one, at `out`. -/
theorem Kept.take_ready (kept : Kept cast semaphores state) (sensible : cast.Sensible)
    (free : ∀ sem, thread ∉ semaphores.waiting sem) (mem : thread ∈ cast.consumers)
    (isPc : (state.consumer thread).pc = .take) :
    state.shared.received.length < state.shared.sent.length ∧
      state.shared.takeAt = state.shared.received.length % cast.buffSize := by
  have early := kept.early thread mem isPc
  have isThread : thread ∈ (accounts cast).threads := Finset.mem_union_left _ mem
  constructor
  · have units := kept.sound.value_add_own .filled
    have left := kept.sound.orderly.nonneg .filled
    have mine : (accounts cast).own semaphores state .filled thread ≤
        ∑ other ∈ (accounts cast).threads, (accounts cast).own semaphores state .filled other :=
      Finset.single_le_sum (fun other mem => kept.own_nonneg sensible (.inr (.inr early)) mem)
        isThread
    rw [own_eq free, held_consumer mem] at mine
    have held : (state.consumer thread).held .filled = 1 := by simp [Consumer.held, isPc]
    have supply : (accounts cast).supply .filled state =
        state.shared.sent.length - state.shared.received.length := rfl
    omega
  · have others : ∀ other ∈ cast.consumers, (state.consumer other).pc ≠ .advance ∧
        (state.consumer other).pc ≠ .wrap := by
      intro other otherMem
      by_contra moves
      rw [not_and_or, not_not, not_not] at moves
      have inside : (state.consumer other).Inside ∧ (state.consumer other).pc ≠ .check := by
        rcases moves with isAdvance | isWrap
        · simp [Consumer.Inside, Consumer.held, isAdvance]
        · simp [Consumer.Inside, Consumer.held, isWrap]
      obtain rfl := kept.consumer_alone sensible mem (by simp [Consumer.Inside, Consumer.held, isPc])
        (by simp [isPc]) otherMem inside.1 inside.2
      simp [isPc] at moves
    apply index_eq kept.takeAt kept.takeBound
    · exact Finset.sum_eq_zero fun other otherMem => if_neg (others other otherMem).1
    · exact Finset.sum_eq_zero fun other otherMem => if_neg (others other otherMem).2

/-- The place at `in` is free for a producer that puts a number. -/
theorem Kept.store_ready (kept : Kept cast semaphores state) (sensible : cast.Sensible)
    (free : ∀ sem, thread ∉ semaphores.waiting sem) (mem : thread ∈ cast.producers)
    (isPc : (state.producer thread).pc = .store) :
    state.shared.sent.length < state.shared.received.length + cast.buffSize ∧
      state.shared.putAt = state.shared.sent.length % cast.buffSize := by
  have isThread : thread ∈ (accounts cast).threads := Finset.mem_union_right _ mem
  have round := kept.round thread mem
  have early : state.shared.endMsgs < cast.count := by
    by_contra allEnded
    have all := kept.all_sent (not_lt.mp allEnded) mem
    have within := round.within (by simp [isPc]) (by simp [isPc])
    have first := round.first
    unfold Producer.stored at all
    rw [isPc] at all
    dsimp only at all
    omega
  constructor
  · have units := kept.sound.value_add_own .empty
    have left := kept.sound.orderly.nonneg .empty
    have mine : (accounts cast).own semaphores state .empty thread ≤
        ∑ other ∈ (accounts cast).threads, (accounts cast).own semaphores state .empty other :=
      Finset.single_le_sum (fun other mem => kept.own_nonneg sensible (.inr (.inr early)) mem)
        isThread
    rw [own_eq free, held_producer sensible mem] at mine
    have held : (state.producer thread).held .empty = 1 := by simp [Producer.held, isPc]
    have supply : (accounts cast).supply .empty state =
        cast.buffSize - state.shared.sent.length + state.shared.received.length := rfl
    omega
  · have others : ∀ other ∈ cast.producers, (state.producer other).pc ≠ .advance ∧
        (state.producer other).pc ≠ .wrap := by
      intro other otherMem
      by_contra moves
      rw [not_and_or, not_not, not_not] at moves
      have inside : (state.producer other).Inside ∧ (state.producer other).pc ≠ .choose := by
        rcases moves with isAdvance | isWrap
        · simp [Producer.Inside, Producer.held, isAdvance]
        · simp [Producer.Inside, Producer.held, isWrap]
      obtain rfl := kept.producer_alone sensible mem (by simp [Producer.Inside, Producer.held, isPc])
        (by simp [isPc]) otherMem inside.1 inside.2
      simp [isPc] at moves
    apply index_eq kept.putAt kept.putBound
    · exact Finset.sum_eq_zero fun other otherMem => if_neg (others other otherMem).1
    · exact Finset.sum_eq_zero fun other otherMem => if_neg (others other otherMem).2

end Facts

section Steps

theorem next_consumer (mem : thread ∈ cast.consumers)
    (steps : (state.consumer thread).step cast thread state.shared =
      some (call, consumer', shared')) :
    next cast thread state = some (call, { state with
      consumer := Function.update state.consumer thread consumer'
      shared := shared' }) := by
  unfold next
  rw [if_pos mem, steps]
  rfl

theorem next_producer (sensible : cast.Sensible) (mem : thread ∈ cast.producers)
    (steps : (state.producer thread).step cast thread state.shared =
      some (call, producer', shared')) :
    next cast thread state = some (call, { state with
      producer := Function.update state.producer thread producer'
      shared := shared' }) := by
  have notConsumer : thread ∉ cast.consumers := fun isConsumer =>
    Finset.disjoint_left.mp sensible.apart isConsumer mem
  unfold next
  rw [if_neg notConsumer, if_pos mem, steps]
  rfl

/-- A step of a consumer leaves the numbers that were put as they are. -/
theorem Consumer.step_sent
    (steps : consumer.step cast thread shared = some (call, consumer', shared')) :
    shared'.sent = shared.sent ∧ shared'.buffer = shared.buffer ∧ shared'.putAt = shared.putAt ∧
      shared.received.length ≤ shared'.received.length ∧ shared.endMsgs ≤ shared'.endMsgs := by
  rcases Consumer.step_shared steps with rfl | ⟨-, -, -, -, rfl⟩ | ⟨-, out, rfl⟩ |
    ⟨-, -, endMsgs, more, rfl⟩
  · exact ⟨rfl, rfl, rfl, le_rfl, le_rfl⟩
  · exact ⟨rfl, rfl, rfl, by simp, le_rfl⟩
  · exact ⟨rfl, rfl, rfl, le_rfl, le_rfl⟩
  · exact ⟨rfl, rfl, rfl, le_rfl, more⟩

/-- A step of a producer leaves the numbers that were taken as they are. -/
theorem Producer.step_received
    (steps : producer.step cast thread shared = some (call, producer', shared')) :
    shared'.received = shared.received ∧ shared'.takeAt = shared.takeAt ∧
      shared'.endMsgs = shared.endMsgs := by
  rcases Producer.step_shared steps with ⟨rfl, -⟩ | ⟨-, -, -, rfl⟩ | ⟨⟨next, rfl⟩, -⟩ <;>
    exact ⟨rfl, rfl, rfl⟩

theorem Kept.consumes (kept : Kept cast semaphores state) (sensible : cast.Sensible)
    (free : ∀ sem, thread ∉ semaphores.waiting sem) (mem : thread ∈ cast.consumers)
    (steps : (state.consumer thread).step cast thread state.shared =
      some (call, consumer', shared')) :
    Kept cast (semaphores.call thread call) { state with
      consumer := Function.update state.consumer thread consumer'
      shared := shared' } := by
  have room := sensible.room
  obtain ⟨sameSent, sameBuffer, samePut, longer, more⟩ := Consumer.step_sent steps
  have changes := Consumer.step_shared steps
  constructor
  case sound => exact kept.sound.take (accounts_follows cast) free (next_consumer mem steps)
  case inOrder =>
    dsimp only
    rw [sameSent]
    rcases changes with rfl | ⟨isPc, -, -, -, rfl⟩ | ⟨-, out, rfl⟩ | ⟨-, -, endMsgs, -, rfl⟩
    · exact kept.inOrder
    · obtain ⟨ready, place⟩ := kept.take_ready sensible free mem isPc
      have entry := List.getElem?_eq_getElem ready
      have value := kept.slots _ _ entry le_rfl
      rw [← place] at value
      dsimp only
      rw [List.map_append, List.length_append, List.map_singleton, List.length_singleton,
        List.take_add_one, ← kept.inOrder, List.getElem?_map, entry, value]
      rfl
    · exact kept.inOrder
    · exact kept.inOrder
  case slots =>
    intro k entry isEntry later
    dsimp only at isEntry later ⊢
    rw [sameSent] at isEntry
    rw [sameBuffer]
    exact kept.slots k entry isEntry (longer.trans later)
  case takeAt =>
    have divides := Int.dvd_add (Consumer.step_takeAt steps) kept.takeAt
    dsimp only
    rw [sum_update mem state.consumer consumer' Consumer.advancing]
    convert divides using 1
    omega
  case takeBound =>
    have bound := kept.takeBound
    have nonneg : 0 ≤ ∑ other ∈ cast.consumers,
        (Function.update state.consumer thread consumer' other).wrapping :=
      Finset.sum_nonneg fun other _ => Consumer.wrapping_nonneg
    have update := sum_update mem state.consumer consumer' Consumer.wrapping
    dsimp only
    rcases Consumer.step_takeBound (by omega) steps with below | fewer
    · omega
    · omega
  case putAt =>
    dsimp only
    rw [samePut, sameSent]
    exact kept.putAt
  case putBound =>
    dsimp only
    rw [samePut]
    exact kept.putBound
  case noted =>
    have noted := kept.noted
    have step := Consumer.step_noted steps
    dsimp only
    rw [sum_update mem state.consumer consumer' Consumer.unnoted]
    omega
  case got =>
    intro other otherMem
    dsimp only
    by_cases same : other = thread
    · subst same
      rw [Function.update_self]
      exact Consumer.step_got (kept.got other otherMem) steps
    · rw [Function.update_of_ne same, ← kept.got other otherMem]
      rcases changes with rfl | ⟨isPc, -, -, -, rfl⟩ | ⟨-, out, rfl⟩ | ⟨-, -, endMsgs, -, rfl⟩
      · rfl
      · simp [Ne.symm same]
      · rfl
      · rfl
  case late =>
    intro other otherMem isLate
    dsimp only at isLate ⊢
    by_cases same : other = thread
    · subst same
      rw [Function.update_self] at isLate
      exact Consumer.step_late (kept.late other otherMem) steps isLate
    · rw [Function.update_of_ne same] at isLate
      exact (kept.late other otherMem isLate).trans more
  case early =>
    intro other otherMem isTake
    dsimp only at isTake ⊢
    by_cases same : other = thread
    · subst same
      rw [Function.update_self] at isTake
      exact Consumer.step_early steps isTake
    · rw [Function.update_of_ne same] at isTake
      have early := kept.early other otherMem isTake
      rcases changes with rfl | ⟨-, -, -, -, rfl⟩ | ⟨-, out, rfl⟩ | ⟨isNote, -, endMsgs, -, rfl⟩
      · exact early
      · exact early
      · exact early
      · -- no other consumer counts a zero meanwhile
        exact absurd (kept.consumer_alone sensible mem
          (by simp [Consumer.Inside, Consumer.held, isNote]) (by simp [isNote]) otherMem
          (by simp [Consumer.Inside, Consumer.held, isTake]) (by simp [isTake])) same
  case aware =>
    intro allEnded
    dsimp only at allEnded ⊢
    rcases changes with rfl | ⟨isPc, isNext, -, -, rfl⟩ | ⟨inside, out, rfl⟩ |
      ⟨-, isGot, endMsgs, -, rfl⟩
    case inr.inr.inr =>
      refine ⟨thread, mem, ?_⟩
      rw [Function.update_self]
      exact .inl isGot
    all_goals
      have before : cast.count ≤ state.shared.endMsgs := allEnded
      obtain ⟨witness, witnessMem, isAware⟩ := kept.aware before
      refine ⟨witness, witnessMem, ?_⟩
      by_cases same : witness = thread
      · subst same
        rw [Function.update_self]
        exact Consumer.step_aware before isAware steps
      · rwa [Function.update_of_ne same]
  case round => exact kept.round
  case put =>
    intro other otherMem
    dsimp only
    rw [sameSent]
    exact kept.put other otherMem
  case sentCount =>
    dsimp only
    rw [sameSent]
    exact kept.sentCount
  case sentZeros =>
    dsimp only
    rw [sameSent]
    exact kept.sentZeros
  case senders =>
    dsimp only
    rw [sameSent]
    exact kept.senders

theorem item_eq_zero (sensible : cast.Sensible) (mem : thread ∈ cast.producers) {i : Nat} :
    cast.item thread i = 0 ↔ cast.buffSize ≤ i + 1 := by
  have positive := sensible.numbered thread mem
  unfold Cast.item
  split_ifs with early <;> omega

/-- A producer puts its next number, or none. -/
theorem Producer.Round.step_sent (round : producer.Round cast thread)
    (steps : producer.step cast thread shared = some (call, producer', shared')) :
    (shared'.sent = shared.sent ∧ shared'.buffer = shared.buffer ∧
      producer'.stored = producer.stored) ∨
    (producer.pc = .store ∧ producer'.stored = producer.stored + 1 ∧
      producer.stored + 1 < cast.buffSize ∧
      shared'.sent = shared.sent ++ [(thread, cast.item thread (producer.stored + 1))] ∧
      shared'.buffer =
        Function.update shared.buffer shared.putAt (cast.item thread (producer.stored + 1))) := by
  rcases Producer.step_shared steps with ⟨rfl, same⟩ | ⟨isPc, isNext, sameI, rfl⟩ |
    ⟨⟨next, rfl⟩, same⟩
  · exact .inl ⟨rfl, rfl, same⟩
  · right
    have first := round.first
    have within := round.within (by simp [isPc]) (by simp [isPc])
    have before : producer.stored = producer.i - 1 := by simp [Producer.stored, isPc]
    have after : producer'.stored = producer.i := by simp [Producer.stored, isNext, sameI]
    have isI : producer.stored + 1 = producer.i := by omega
    rw [isI, ← round.data isPc]
    exact ⟨isPc, after, within, rfl, rfl⟩
  · exact .inl ⟨rfl, rfl, same⟩

theorem Kept.produces (kept : Kept cast semaphores state) (sensible : cast.Sensible)
    (free : ∀ sem, thread ∉ semaphores.waiting sem) (mem : thread ∈ cast.producers)
    (steps : (state.producer thread).step cast thread state.shared =
      some (call, producer', shared')) :
    Kept cast (semaphores.call thread call) { state with
      producer := Function.update state.producer thread producer'
      shared := shared' } := by
  have room := sensible.room
  obtain ⟨sameReceived, sameTake, sameEnd⟩ := Producer.step_received steps
  have changes := (kept.round thread mem).step_sent steps
  have shorter : state.shared.received.length ≤ state.shared.sent.length := by
    have lengths := congrArg List.length kept.inOrder
    rw [List.length_map, List.length_take, List.length_map] at lengths
    omega
  constructor
  case sound =>
    exact kept.sound.take (accounts_follows cast) free (next_producer sensible mem steps)
  case inOrder =>
    dsimp only
    rw [sameReceived]
    rcases changes with ⟨sameSent, -⟩ | ⟨-, -, -, sent, -⟩
    · rw [sameSent]
      exact kept.inOrder
    · rw [sent, List.map_append, List.take_append_of_le_length (by simpa using shorter)]
      exact kept.inOrder
  case slots =>
    intro k entry isEntry later
    dsimp only at isEntry later ⊢
    rw [sameReceived] at later
    rcases changes with ⟨sameSent, sameBuffer, -⟩ | ⟨isPc, -, -, sent, buffer⟩
    · rw [sameSent] at isEntry
      rw [sameBuffer]
      exact kept.slots k entry isEntry later
    · obtain ⟨ready, place⟩ := kept.store_ready sensible free mem isPc
      rw [sent] at isEntry
      rw [buffer, place]
      have bound : k < state.shared.sent.length + 1 := by
        simpa using (List.getElem?_eq_some_iff.mp isEntry).1
      rcases Nat.lt_succ_iff_lt_or_eq.mp bound with older | rfl
      · -- the numbers that are still in the buffer are at other places
        have different : k % cast.buffSize ≠ state.shared.sent.length % cast.buffSize := by
          intro same
          have divides := (Nat.modEq_iff_dvd' older.le).mp same
          have apart := Nat.le_of_dvd (by omega) divides
          omega
        rw [Function.update_of_ne different]
        rw [List.getElem?_append_left older] at isEntry
        exact kept.slots k entry isEntry later
      · rw [Function.update_self]
        rw [List.getElem?_concat_length] at isEntry
        obtain rfl := Option.some.inj isEntry
        rfl
  case takeAt =>
    dsimp only
    rw [sameTake, sameReceived]
    exact kept.takeAt
  case takeBound =>
    dsimp only
    rw [sameTake]
    exact kept.takeBound
  case putAt =>
    have divides := Int.dvd_add (Producer.step_putAt steps) kept.putAt
    dsimp only
    rw [sum_update mem state.producer producer' Producer.advancing]
    convert divides using 1
    omega
  case putBound =>
    have bound := kept.putBound
    have nonneg : 0 ≤ ∑ other ∈ cast.producers,
        (Function.update state.producer thread producer' other).wrapping :=
      Finset.sum_nonneg fun other _ => Producer.wrapping_nonneg
    have update := sum_update mem state.producer producer' Producer.wrapping
    dsimp only
    rcases Producer.step_putBound (by omega) steps with below | fewer
    · omega
    · omega
  case noted =>
    dsimp only
    rw [sameEnd, sameReceived]
    exact kept.noted
  case got =>
    intro other otherMem
    dsimp only
    rw [sameReceived]
    exact kept.got other otherMem
  case late =>
    intro other otherMem isLate
    dsimp only
    rw [sameEnd]
    exact kept.late other otherMem isLate
  case early =>
    intro other otherMem isTake
    dsimp only
    rw [sameEnd]
    exact kept.early other otherMem isTake
  case aware =>
    intro allEnded
    dsimp only at allEnded
    rw [sameEnd] at allEnded
    exact kept.aware allEnded
  case round =>
    intro other otherMem
    dsimp only
    by_cases same : other = thread
    · subst same
      rw [Function.update_self]
      exact (kept.round other otherMem).step steps
    · rw [Function.update_of_ne same]
      exact kept.round other otherMem
  case put =>
    intro other otherMem
    have put := kept.put other otherMem
    dsimp only
    by_cases same : other = thread
    · subst same
      rw [Function.update_self]
      rcases changes with ⟨sameSent, -, stored⟩ | ⟨-, stored, -, sent, -⟩
      · rw [sameSent, stored]
        exact put
      · rw [sent, stored, List.filter_append, List.map_append, put, List.range_succ,
          List.map_append]
        simp
    · rw [Function.update_of_ne same, ← put]
      rcases changes with ⟨sameSent, -⟩ | ⟨-, -, -, sent, -⟩
      · rw [sameSent]
      · rw [sent]
        simp [Ne.symm same]
  case sentCount =>
    have count := kept.sentCount
    dsimp only
    rw [sum_update mem state.producer producer' fun producer => (producer.stored : Int)]
    rcases changes with ⟨sameSent, -, stored⟩ | ⟨-, stored, -, sent, -⟩
    · rw [sameSent, stored]
      omega
    · rw [sent, stored, List.length_append, List.length_singleton]
      push_cast
      omega
  case sentZeros =>
    have count := kept.sentZeros
    dsimp only
    rw [sum_update mem state.producer producer' (Producer.finished cast)]
    rcases changes with ⟨sameSent, -, stored⟩ | ⟨-, stored, within, sent, -⟩
    · unfold Producer.finished at count ⊢
      rw [sameSent, stored]
      omega
    · have isZero := item_eq_zero sensible mem (i := (state.producer thread).stored + 1)
      have before : (state.producer thread).finished cast = 0 := if_neg (by omega)
      rw [before]
      unfold zeros at count ⊢
      rw [sent, List.map_append, List.count_append, List.map_singleton]
      unfold Producer.finished at count ⊢
      rw [stored]
      by_cases last : cast.buffSize ≤ (state.producer thread).stored + 1 + 1
      · rw [if_pos last, isZero.mpr last, List.count_singleton_self]
        omega
      · have notZero := mt isZero.mp last
        rw [if_neg last, List.count_singleton, if_neg (by simpa using notZero)]
        omega
  case senders =>
    dsimp only
    rcases changes with ⟨sameSent, -⟩ | ⟨-, -, -, sent, -⟩
    · rw [sameSent]
      exact kept.senders
    · intro entry inSent
      rw [sent, List.mem_append, List.mem_singleton] at inSent
      rcases inSent with old | rfl
      · exact kept.senders entry old
      · exact mem

theorem Kept.step (kept : Kept cast semaphores state) (sensible : cast.Sensible)
    (step : SemaphoreUnits.Step (next cast) (semaphores, state) (semaphores', state')) :
    Kept cast semaphores' state' := by
  cases step with
  | take thread free takes =>
      rcases next_cases takes with ⟨mem, consumer, shared, steps, rfl⟩ |
        ⟨-, mem, producer, shared, steps, rfl⟩
      · exact kept.consumes sensible free mem steps
      · exact kept.produces sensible free mem steps

/-- The semaphores as the program initializes them. -/
def initial (cast : Cast) : Semaphores Sem Ptr := ⟨initialValue cast, fun _ => []⟩

theorem Starts.held (starts : Starts cast state) (mem : thread ∈ (accounts cast).threads)
    (sem : Sem) : (accounts cast).held sem state thread = 0 := by
  by_cases isConsumer : thread ∈ cast.consumers
  · rw [held_consumer isConsumer]
    cases sem <;> simp [Consumer.held, (starts.consumer thread isConsumer).1]
  · have isProducer := (Finset.mem_union.mp mem).resolve_left isConsumer
    change (if thread ∈ cast.consumers then _ else _) = _
    rw [if_neg isConsumer]
    cases sem <;> simp [Producer.held, (starts.producer thread isProducer).1]

theorem Starts.kept (starts : Starts cast state) (sensible : cast.Sensible) :
    Kept cast (initial cast) state := by
  have room := sensible.room
  have stored : ∀ other ∈ cast.producers, (state.producer other).stored = 0 := by
    intro other mem
    obtain ⟨isTest, isOne⟩ := starts.producer other mem
    simp [Producer.stored, isTest, isOne]
  constructor
  case sound =>
    refine ⟨⟨⟨fun _ => List.nodup_nil, fun _ _ _ mem => absurd mem List.not_mem_nil⟩,
      fun sem => ?_, fun _ _ => rfl⟩, fun _ _ mem => absurd mem List.not_mem_nil, fun sem => ?_⟩
    · cases sem <;> simp [initial, initialValue]
    · rw [Finset.sum_eq_zero fun other mem => starts.held mem sem]
      cases sem <;> simp [initial, initialValue, Semaphores.balance, accounts, Shared.supply,
        starts.sent, starts.received]
  case inOrder => simp [starts.received]
  case slots => simp [starts.sent]
  case takeAt =>
    rw [starts.takeAt, starts.received, Finset.sum_eq_zero fun other mem => by
      simp [Consumer.advancing, (starts.consumer other mem).1]]
    simp
  case takeBound =>
    rw [starts.takeAt, Finset.sum_eq_zero fun other mem => by
      simp [Consumer.wrapping, (starts.consumer other mem).1]]
    omega
  case putAt =>
    rw [starts.putAt, starts.sent, Finset.sum_eq_zero fun other mem => by
      simp [Producer.advancing, (starts.producer other mem).1]]
    simp
  case putBound =>
    rw [starts.putAt, Finset.sum_eq_zero fun other mem => by
      simp [Producer.wrapping, (starts.producer other mem).1]]
    omega
  case noted =>
    rw [starts.endMsgs, starts.received, Finset.sum_eq_zero fun other mem => by
      simp [Consumer.unnoted, (starts.consumer other mem).1]]
    rfl
  case got =>
    intro other mem
    obtain ⟨isTest, none⟩ := starts.consumer other mem
    simp [starts.received, Consumer.taken, isTest, none]
  case late =>
    intro other mem isLate
    simp [Consumer.Late, (starts.consumer other mem).1] at isLate
  case early =>
    intro other mem isTake
    rw [(starts.consumer other mem).1] at isTake
    cases isTake
  case aware =>
    intro _
    obtain ⟨witness, mem⟩ := sensible.some
    exact ⟨witness, mem, by simp [Consumer.Aware, (starts.consumer witness mem).1]⟩
  case round =>
    intro other mem
    obtain ⟨isTest, isOne⟩ := starts.producer other mem
    constructor <;> simp [isTest, isOne]
    omega
  case put =>
    intro other mem
    simp [starts.sent, stored other mem]
  case sentCount =>
    rw [starts.sent, Finset.sum_eq_zero fun other mem => by simp [stored other mem]]
    rfl
  case sentZeros =>
    rw [starts.sent, Finset.sum_eq_zero fun other mem => by
      rw [Producer.finished, stored other mem]
      exact if_neg (by omega)]
    rfl
  case senders => simp [starts.sent]

end Steps

end Kept

end ProducerConsumer

end Oseer
