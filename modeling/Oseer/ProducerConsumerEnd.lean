import Oseer.ProducerConsumerRuns

/-!
# The end of producers and consumers

As long as a thread of the program is there, one of them does not wait for a semaphore, and the
threads take a bounded number of steps.  When all of them are gone, each number that was put has
been taken.
-/

namespace Oseer

open Results SemaphoreUnits

namespace ProducerConsumer

variable {cast : Cast} {thread other : Ptr} {state state' : State} {call : Option (Call Sem)}
  {consumer consumer' : Consumer} {producer producer' : Producer} {shared shared' : Shared}
  {semaphores semaphores' : Semaphores Sem Ptr}

section Totals

/-- The thread is at the end of its function. -/
def State.Gone (cast : Cast) (state : State) (thread : Ptr) : Prop :=
  if thread ∈ cast.consumers then (state.consumer thread).pc = .gone
  else (state.producer thread).pc = .gone

/-- The numbers that are put in all. -/
def Cast.total (cast : Cast) : Nat := cast.count * (cast.buffSize - 1)

theorem Kept.received_le (kept : Kept cast semaphores state) :
    state.shared.received.length ≤ state.shared.sent.length := by
  have lengths := congrArg List.length kept.inOrder
  rw [List.length_map, List.length_take, List.length_map] at lengths
  omega

theorem Kept.stored_le (kept : Kept cast semaphores state) (mem : thread ∈ cast.producers) :
    (state.producer thread).stored ≤ cast.buffSize - 1 := by
  obtain ⟨first, last, within, -, -⟩ := kept.round thread mem
  unfold Producer.stored
  cases isPc : (state.producer thread).pc <;> simp [isPc] at within ⊢ <;> omega

theorem Kept.sent_le (kept : Kept cast semaphores state) :
    state.shared.sent.length ≤ cast.total := by
  have count := kept.sentCount
  have bound := Finset.sum_le_card_nsmul cast.producers
    (fun thread => ((state.producer thread).stored : Int)) (cast.buffSize - 1 : Nat)
    fun thread mem => Int.ofNat_le.mpr (kept.stored_le mem)
  rw [← count, nsmul_eq_mul] at bound
  unfold Cast.total Cast.count
  exact_mod_cast bound

theorem Kept.stored_eq (kept : Kept cast semaphores state) (mem : thread ∈ cast.producers)
    (allEnded : cast.count ≤ state.shared.endMsgs) :
    (state.producer thread).stored = cast.buffSize - 1 := by
  have all := kept.all_sent allEnded mem
  have atMost := kept.stored_le mem
  omega

/-- The number that was put last is a zero when all numbers are put. -/
theorem Kept.last_zero (kept : Kept cast semaphores state) (sensible : cast.Sensible)
    (allEnded : cast.count ≤ state.shared.endMsgs) {before : List (Ptr × Int)} {entry : Ptr × Int}
    (sent : state.shared.sent = before ++ [entry]) : entry.2 = 0 := by
  have room := sensible.room
  have mem : entry.1 ∈ cast.producers := kept.senders entry (by simp [sent])
  have put := kept.put entry.1 mem
  obtain ⟨k, isSize⟩ : ∃ k, cast.buffSize - 1 = k + 1 := ⟨cast.buffSize - 2, by omega⟩
  rw [kept.stored_eq mem allEnded, isSize, List.range_succ, sent, List.filter_append, List.map_append,
    List.map_append] at put
  have ends := congrArg List.getLast? put
  simp only [decide_true, List.filter_cons_of_pos, List.filter_nil, List.map_cons, List.map_nil,
    List.getLast?_append, List.getLast?_singleton, Option.some_or] at ends
  rw [Option.some.inj ends]
  exact (item_eq_zero sensible mem).mpr (by omega)

/-- When as many zeros are counted as there are producers, all numbers are taken. -/
theorem Kept.all_received (kept : Kept cast semaphores state) (sensible : cast.Sensible)
    (allEnded : cast.count ≤ state.shared.endMsgs) :
    state.shared.received.length = state.shared.sent.length ∧
      state.shared.sent.length = cast.total := by
  constructor
  · by_contra fewer
    have less : state.shared.received.length < state.shared.sent.length :=
      lt_of_le_of_ne kept.received_le fewer
    -- no zero is left among the numbers that were put and not taken
    have rest : ((state.shared.sent.map Prod.snd).drop state.shared.received.length).count 0 = 0 := by
      have split := congrArg (List.count (0 : Int)) (List.take_append_drop
        state.shared.received.length (state.shared.sent.map Prod.snd))
      rw [List.count_append, ← kept.inOrder] at split
      have noted := kept.noted
      have unnoted : 0 ≤ ∑ thread ∈ cast.consumers, (state.consumer thread).unnoted :=
        Finset.sum_nonneg fun thread _ => Consumer.unnoted_nonneg
      have sentZeros := kept.sentZeros
      have bound := Finset.sum_le_card_nsmul cast.producers
        (fun thread => (state.producer thread).finished cast) 1
        fun thread _ => Producer.finished_le
      rw [nsmul_eq_mul, mul_one] at bound
      unfold zeros at noted sentZeros
      unfold Cast.count at allEnded
      omega
    obtain ⟨before, entry, sent⟩ : ∃ before entry, state.shared.sent = before ++ [entry] := by
      rcases List.eq_nil_or_concat state.shared.sent with none | ⟨before, entry, sent⟩
      · rw [none] at less
        cases less
      · exact ⟨before, entry, sent.trans (List.concat_eq_append ..)⟩
    have isZero := kept.last_zero sensible allEnded sent
    rw [List.count_eq_zero] at rest
    apply rest
    rw [sent, List.length_append, List.length_singleton] at less
    rw [sent, List.map_append, List.drop_append_of_le_length (by simpa using Nat.lt_succ_iff.mp less)]
    simp [isZero]
  · have count := kept.sentCount
    have same : ∑ thread ∈ cast.producers, ((state.producer thread).stored : Int) =
        ∑ _thread ∈ cast.producers, ((cast.buffSize - 1 : Nat) : Int) :=
      Finset.sum_congr rfl fun thread mem => by rw [kept.stored_eq mem allEnded]
    rw [same, Finset.sum_const, nsmul_eq_mul] at count
    unfold Cast.total Cast.count
    exact_mod_cast count

end Totals

section Measure

/-- The steps to the end of the loop, the steps behind `take` first. -/
def ConsumerPc.rank : ConsumerPc → Int
  | .advance => 30
  | .wrap => 29
  | .note => 28
  | .got => 27
  | .postCrit1 => 26
  | .postEmpty => 25
  | .sleep => 24
  | .test => 20
  | .waitFilled => 19
  | .waitCrit1 => 18
  | .check => 17
  | .take => 16
  | .dropCrit1 => 16
  | .dropEmpty => 15
  | .leave => 14
  | .gone => 0

/-- The steps to the end of the round. -/
def ProducerPc.rank : ProducerPc → Int
  | .test => 10
  | .waitEmpty => 9
  | .waitCrit2 => 8
  | .choose => 7
  | .store => 6
  | .advance => 5
  | .wrap => 4
  | .postCrit2 => 3
  | .postFilled => 2
  | .sleep => 1
  | .gone => 0

/-- The steps to the end of a producer. -/
def Producer.rest (cast : Cast) (producer : Producer) : Int :=
  10 * (cast.buffSize - producer.i) + producer.pc.rank

/-- A bound on the steps that are left. -/
def State.measure (cast : Cast) (state : State) : Int :=
  15 * (cast.total - state.shared.received.length) +
    ∑ thread ∈ cast.consumers, (state.consumer thread).pc.rank +
    ∑ thread ∈ cast.producers, (state.producer thread).rest cast

/-- A bound on all steps. -/
def Cast.steps (cast : Cast) : Int :=
  15 * cast.total + 20 * cast.consumers.card + 10 * (cast.count * cast.buffSize)

theorem Consumer.step_rank
    (steps : consumer.step cast thread shared = some (call, consumer', shared')) :
    consumer'.pc.rank - 15 * shared'.received.length + 1 ≤
      consumer.pc.rank - 15 * shared.received.length := by
  unfold Consumer.step at steps
  split at steps <;> try split at steps
  all_goals cases steps
  all_goals simp [ConsumerPc.rank, *]
  all_goals omega

theorem Producer.step_rest
    (steps : producer.step cast thread shared = some (call, producer', shared')) :
    producer'.rest cast + 1 ≤ producer.rest cast := by
  unfold Producer.step at steps
  split at steps <;> try split at steps
  all_goals cases steps
  all_goals simp [Producer.rest, ProducerPc.rank, *]
  all_goals omega

theorem Kept.measure_nonneg (kept : Kept cast semaphores state) : 0 ≤ state.measure cast := by
  have taken := kept.received_le.trans kept.sent_le
  have consumers : 0 ≤ ∑ thread ∈ cast.consumers, (state.consumer thread).pc.rank :=
    Finset.sum_nonneg fun thread _ => by
      cases (state.consumer thread).pc <;> decide
  have producers : 0 ≤ ∑ thread ∈ cast.producers, (state.producer thread).rest cast :=
    Finset.sum_nonneg fun thread mem => by
      have last := (kept.round thread mem).last
      have rank : 0 ≤ (state.producer thread).pc.rank := by
        cases (state.producer thread).pc <;> decide
      unfold Producer.rest
      omega
  unfold State.measure
  omega

/-- Each step makes the bound smaller. -/
theorem measure_step (takes : next cast thread state = some (call, state')) :
    state'.measure cast + 1 ≤ state.measure cast := by
  unfold State.measure
  rcases next_cases takes with ⟨mem, consumer, shared, steps, rfl⟩ |
    ⟨-, mem, producer, shared, steps, rfl⟩
  · have rank := Consumer.step_rank steps
    dsimp only
    rw [sum_update mem state.consumer consumer fun consumer => consumer.pc.rank]
    omega
  · have rest := Producer.step_rest steps
    obtain ⟨sameReceived, -⟩ := Producer.step_received steps
    dsimp only
    rw [sameReceived, sum_update mem state.producer producer (Producer.rest cast)]
    omega

theorem Starts.measure_eq (starts : Starts cast state) : state.measure cast = cast.steps := by
  have consumers : ∑ thread ∈ cast.consumers, (state.consumer thread).pc.rank =
      ∑ _thread ∈ cast.consumers, (20 : Int) :=
    Finset.sum_congr rfl fun thread mem => by rw [(starts.consumer thread mem).1]; rfl
  have producers : ∑ thread ∈ cast.producers, (state.producer thread).rest cast =
      ∑ _thread ∈ cast.producers, (10 * (cast.buffSize : Int)) :=
    Finset.sum_congr rfl fun thread mem => by
      obtain ⟨isTest, isOne⟩ := starts.producer thread mem
      rw [Producer.rest, isTest, isOne]
      simp only [ProducerPc.rank]
      omega
  unfold State.measure Cast.steps Cast.count
  rw [consumers, producers, starts.received, Finset.sum_const, Finset.sum_const, nsmul_eq_mul,
    nsmul_eq_mul, List.length_nil]
  grind

end Measure

section Progress

/-- All threads that are not gone wait for semaphores. -/
def Stuck (cast : Cast) (semaphores : Semaphores Sem Ptr) (state : State) : Prop :=
  ∀ thread ∈ (accounts cast).threads, state.Gone cast thread ∨
    ∃ sem, thread ∈ semaphores.waiting sem

theorem gone_consumer (mem : thread ∈ cast.consumers) :
    state.Gone cast thread ↔ (state.consumer thread).pc = .gone := by
  unfold State.Gone
  rw [if_pos mem]

theorem gone_producer (sensible : cast.Sensible) (mem : thread ∈ cast.producers) :
    state.Gone cast thread ↔ (state.producer thread).pc = .gone := by
  unfold State.Gone
  rw [if_neg fun isConsumer => Finset.disjoint_left.mp sensible.apart isConsumer mem]

/-- Who waits for another semaphore, or is gone, is in no critical section. -/
theorem held_crit (sensible : cast.Sensible) {sem : Sem}
    (crit : sem = .crit1 ∨ sem = .crit2) (mem : thread ∈ (accounts cast).threads)
    (outside : state.Gone cast thread ∨ ∃ other, state.Stopped cast other thread ∧ other ≠ sem) :
    (accounts cast).held sem state thread = 0 := by
  rcases outside with gone | ⟨other, stopped, different⟩
  · rcases Finset.mem_union.mp mem with isConsumer | isProducer
    · have isPc := (gone_consumer isConsumer).mp gone
      rw [held_consumer isConsumer]
      rcases crit with rfl | rfl <;> simp [Consumer.held, isPc]
    · have isPc := (gone_producer sensible isProducer).mp gone
      rw [held_producer sensible isProducer]
      rcases crit with rfl | rfl <;> simp [Producer.held, isPc]
  · cases other <;> obtain ⟨isThread, isPc⟩ := stopped
    · rw [held_consumer isThread]
      rcases crit with rfl | rfl <;> simp [Consumer.held, isPc]
    · rw [held_producer sensible isThread]
      rcases crit with rfl | rfl <;> simp [Producer.held, isPc]
    · rw [held_consumer isThread]
      rcases crit with rfl | rfl
      · exact absurd rfl different
      · rfl
    · rw [held_producer sensible isThread]
      rcases crit with rfl | rfl
      · rfl
      · exact absurd rfl different

theorem Kept.value_zero (kept : Kept cast semaphores state) {sem : Sem}
    (waits : thread ∈ semaphores.waiting sem) : semaphores.value sem = 0 := by
  have nonneg := kept.sound.orderly.nonneg sem
  by_contra nonzero
  rw [kept.sound.orderly.free sem (by omega)] at waits
  cases waits

/-- Nobody waits to enter a critical section when all wait: one thread would be in it. -/
theorem Kept.no_crit (kept : Kept cast semaphores state) (sensible : cast.Sensible)
    (stuck : Stuck cast semaphores state) {sem : Sem} (crit : sem = .crit1 ∨ sem = .crit2) :
    thread ∉ semaphores.waiting sem := by
  intro waits
  have units := kept.sound.value_add_own sem
  rw [kept.value_zero waits] at units
  have none : ∀ other ∈ (accounts cast).threads,
      (accounts cast).own semaphores state sem other ≤ 0 := by
    intro other mem
    unfold Accounts.own
    split_ifs with otherWaits
    · rw [Stopped.held sensible (kept.sound.waits sem other otherWaits).2]
      decide
    · rw [Int.sub_zero]
      apply le_of_eq
      rcases stuck other mem with gone | ⟨place, inPlace⟩
      · exact held_crit sensible crit mem (.inl gone)
      · refine held_crit sensible crit mem
          (.inr ⟨place, (kept.sound.waits place other inPlace).2, ?_⟩)
        rintro rfl
        exact otherWaits inPlace
  have sum := Finset.sum_nonpos none
  have single : (accounts cast).supply sem state = 1 := by
    rcases crit with rfl | rfl <;> rfl
  omega

/-- Where a consumer is when all wait. -/
theorem Kept.stuck_consumer (kept : Kept cast semaphores state) (sensible : cast.Sensible)
    (stuck : Stuck cast semaphores state) (mem : thread ∈ cast.consumers) :
    (state.consumer thread).pc = .gone ∨
      (state.consumer thread).pc = .waitCrit1 ∧ thread ∈ semaphores.waiting .filled := by
  have notProducer := Finset.disjoint_left.mp sensible.apart mem
  rcases stuck thread (Finset.mem_union_left _ mem) with gone | ⟨sem, waits⟩
  · exact .inl ((gone_consumer mem).mp gone)
  · have stopped := (kept.sound.waits sem thread waits).2
    cases sem with
    | filled => exact .inr ⟨stopped.2, waits⟩
    | empty => exact absurd stopped.1 notProducer
    | crit1 => exact absurd waits (kept.no_crit sensible stuck (.inl rfl))
    | crit2 => exact absurd stopped.1 notProducer

/-- Where a producer is when all wait. -/
theorem Kept.stuck_producer (kept : Kept cast semaphores state) (sensible : cast.Sensible)
    (stuck : Stuck cast semaphores state) (mem : thread ∈ cast.producers) :
    (state.producer thread).pc = .gone ∨
      (state.producer thread).pc = .waitCrit2 ∧ thread ∈ semaphores.waiting .empty := by
  have notConsumer : thread ∉ cast.consumers := fun isConsumer =>
    Finset.disjoint_left.mp sensible.apart isConsumer mem
  rcases stuck thread (Finset.mem_union_right _ mem) with gone | ⟨sem, waits⟩
  · exact .inl ((gone_producer sensible mem).mp gone)
  · have stopped := (kept.sound.waits sem thread waits).2
    cases sem with
    | filled => exact absurd stopped.1 notConsumer
    | empty => exact .inr ⟨stopped.2, waits⟩
    | crit1 => exact absurd stopped.1 notConsumer
    | crit2 => exact absurd waits (kept.no_crit sensible stuck (.inr rfl))

/-- Nobody owns a unit of a number or of a place when all wait. -/
theorem Kept.stuck_own (kept : Kept cast semaphores state) (sensible : cast.Sensible)
    (stuck : Stuck cast semaphores state) {sem : Sem} (counts : sem = .filled ∨ sem = .empty)
    (mem : thread ∈ (accounts cast).threads) :
    (accounts cast).own semaphores state sem thread ≤ 0 := by
  unfold Accounts.own
  split_ifs with waits
  · rw [Stopped.held sensible (kept.sound.waits sem thread waits).2]
    decide
  · rw [Int.sub_zero]
    rcases Finset.mem_union.mp mem with isConsumer | isProducer
    · rw [held_consumer isConsumer]
      rcases kept.stuck_consumer sensible stuck isConsumer with isPc | ⟨isPc, inFilled⟩
      · rcases counts with rfl | rfl <;> simp [Consumer.held, isPc] <;> split <;> decide
      · rcases counts with rfl | rfl
        · exact absurd inFilled waits
        · simp [Consumer.held, isPc]
    · rw [held_producer sensible isProducer]
      rcases kept.stuck_producer sensible stuck isProducer with isPc | ⟨isPc, inEmpty⟩
      · rcases counts with rfl | rfl <;> simp [Producer.held, isPc]
      · rcases counts with rfl | rfl
        · simp [Producer.held, isPc]
        · exact absurd inEmpty waits

/-- When all wait, the producers are gone: otherwise the buffer would be full and the consumers
gone. -/
theorem Kept.stuck_gone (kept : Kept cast semaphores state) (sensible : cast.Sensible)
    (stuck : Stuck cast semaphores state) (mem : thread ∈ cast.producers) :
    (state.producer thread).pc = .gone := by
  have room := sensible.room
  rcases kept.stuck_producer sensible stuck mem with gone | ⟨isPc, waits⟩
  · exact gone
  · have places := kept.sound.value_add_own .empty
    have numbers := kept.sound.value_add_own .filled
    have none := Finset.sum_nonpos fun other mem => kept.stuck_own sensible stuck (.inr rfl) mem
    have none' := Finset.sum_nonpos fun other mem => kept.stuck_own sensible stuck (.inl rfl) mem
    have supply : (accounts cast).supply .empty state =
        cast.buffSize - state.shared.sent.length + state.shared.received.length := rfl
    have supply' : (accounts cast).supply .filled state =
        state.shared.sent.length - state.shared.received.length := rfl
    rw [kept.value_zero waits] at places
    obtain ⟨consumer, isConsumer⟩ := sensible.some
    rcases kept.stuck_consumer sensible stuck isConsumer with gone | ⟨-, inFilled⟩
    · have allEnded := kept.late consumer isConsumer (by simp [Consumer.Late, gone])
      have stored := kept.stored_eq mem allEnded
      have within := (kept.round thread mem).within (by simp [isPc]) (by simp [isPc])
      have first := (kept.round thread mem).first
      unfold Producer.stored at stored
      rw [isPc] at stored
      dsimp only at stored
      omega
    · rw [kept.value_zero inFilled] at numbers
      omega

/-- Somebody who is not gone waits for nothing. -/
theorem Kept.not_stuck (kept : Kept cast semaphores state) (sensible : cast.Sensible)
    (mem : thread ∈ (accounts cast).threads) (stays : ¬ state.Gone cast thread) :
    ¬ Stuck cast semaphores state := by
  intro stuck
  have room := sensible.room
  have isConsumer : thread ∈ cast.consumers :=
    (Finset.mem_union.mp mem).resolve_right fun isProducer =>
      stays ((gone_producer sensible isProducer).mpr (kept.stuck_gone sensible stuck isProducer))
  obtain ⟨-, waits⟩ := (kept.stuck_consumer sensible stuck isConsumer).resolve_left
    fun gone => stays ((gone_consumer isConsumer).mpr gone)
  have numbers := kept.sound.value_add_own .filled
  rw [kept.value_zero waits] at numbers
  have nonpos : ∀ other ∈ (accounts cast).threads,
      (accounts cast).own semaphores state .filled other ≤ 0 :=
    fun other mem => kept.stuck_own sensible stuck (.inl rfl) mem
  have none := Finset.sum_nonpos nonpos
  have supply : (accounts cast).supply .filled state =
      state.shared.sent.length - state.shared.received.length := rfl
  have atMost := kept.received_le
  have all : state.shared.received.length = state.shared.sent.length := by omega
  -- all zeros are taken and counted
  have allEnded : cast.count ≤ state.shared.endMsgs := by
    have noted := kept.noted
    have sentZeros := kept.sentZeros
    have finished : ∑ other ∈ cast.producers, (state.producer other).finished cast =
        ∑ _other ∈ cast.producers, 1 :=
      Finset.sum_congr rfl fun other isProducer => by
        have gone := kept.stuck_gone sensible stuck isProducer
        have isOver := (kept.round other isProducer).allEnded gone
        have first := (kept.round other isProducer).first
        refine if_pos ?_
        simp only [Producer.stored, gone]
        omega
    have unnoted : ∑ other ∈ cast.consumers, (state.consumer other).unnoted = 0 :=
      Finset.sum_eq_zero fun other isConsumer => by
        rcases kept.stuck_consumer sensible stuck isConsumer with isPc | ⟨isPc, -⟩ <;>
          simp [Consumer.unnoted, isPc]
    have same : zeros state.shared.received = zeros state.shared.sent := by
      unfold zeros
      rw [kept.inOrder, all, List.take_of_length_le (by simp)]
    rw [finished, Finset.sum_const, nsmul_eq_mul, mul_one] at sentZeros
    unfold Cast.count
    omega
  obtain ⟨witness, isWitness, isAware⟩ := kept.aware allEnded
  have owns := (Finset.sum_eq_zero_iff_of_nonpos nonpos).mp (by omega) witness
    (Finset.mem_union_left _ isWitness)
  rcases kept.stuck_consumer sensible stuck isWitness with isPc | ⟨isPc, -⟩
  · have left : (state.consumer witness).broke = false := by simpa [Consumer.Aware, isPc] using isAware
    have free : witness ∉ semaphores.waiting .filled := by
      intro waits
      have stopped := (kept.sound.waits .filled witness waits).2.2
      rw [isPc] at stopped
      cases stopped
    unfold Accounts.own at owns
    rw [if_neg free, held_consumer isWitness] at owns
    simp [Consumer.held, isPc, left] at owns
  · simp [Consumer.Aware, isPc] at isAware

end Progress

section Program

variable {idle : Ptr} {address : Sem → Ptr} {first last : ProgramRun State}

/-- The kernel as the main thread leaves it: the semaphores are initialized, and the threads are
created and have not begun. -/
structure Begins (cast : Cast) (idle : Ptr) (address : Sem → Ptr) (first : ProgramRun State) :
    Prop where
  coherent : ∃ members all, Coherent first.kernel idle first.live members all ∧
    ∀ sem, members (.sem (address sem)) = []
  values : ∀ sem, first.kernel.semValue (address sem) = initialValue cast sem
  injective : address.Injective
  nonzero : ∀ sem, address sem ≠ 0
  apart : idle ∉ cast.consumers ∪ cast.producers
  alive : ∀ thread ∈ cast.consumers ∪ cast.producers, thread ∈ first.live
  starts : Starts cast first.program
  steps : first.steps = 0

theorem next_none (outside : thread ∉ cast.consumers ∪ cast.producers) :
    next cast thread state = none := by
  rw [Finset.mem_union, not_or] at outside
  unfold next
  rw [if_neg outside.1, if_neg outside.2]

/-- A thread has no next step when it is gone. -/
theorem next_gone (sensible : cast.Sensible) (mem : thread ∈ (accounts cast).threads) :
    next cast thread state = none ↔ state.Gone cast thread := by
  rcases Finset.mem_union.mp mem with isConsumer | isProducer
  · rw [gone_consumer isConsumer]
    unfold next
    rw [if_pos isConsumer, Option.map_eq_none_iff]
    unfold Consumer.step
    split <;> try split
    all_goals simp_all
  · have notConsumer : thread ∉ cast.consumers := fun isConsumer =>
      Finset.disjoint_left.mp sensible.apart isConsumer isProducer
    rw [gone_producer sensible isProducer]
    unfold next
    rw [if_neg notConsumer, if_pos isProducer, Option.map_eq_none_iff]
    unfold Producer.step
    split <;> try split
    all_goals simp_all

theorem Begins.views (begins : Begins cast idle address first) :
    ∃ members all, first.Views idle address (initial cast) members all := by
  obtain ⟨members, all, coherent, empty⟩ := begins.coherent
  exact ⟨members, all, coherent, fun sem => (begins.values sem).symm, fun sem => (empty sem).symm⟩

/-- What is kept by each step holds in every run, and the steps are bounded. -/
theorem Begins.kept (begins : Begins cast idle address first) (sensible : cast.Sensible)
    (run : Relation.ReflTransGen (ProgramStep idle address (next cast)) first last) :
    ∃ semaphores members all, last.Views idle address semaphores members all ∧
      Kept cast semaphores last.program ∧ last.steps + last.program.measure cast ≤ cast.steps := by
  obtain ⟨members, all, views⟩ := begins.views
  refine ProgramRun.Views.throughout (fun semaphores program n =>
    Kept cast semaphores program ∧ n + program.measure cast ≤ cast.steps) views begins.injective
    begins.nonzero (fun _ => next_none begins.apart) ?_ ?_ run
  · refine ⟨begins.starts.kept sensible, ?_⟩
    rw [begins.steps, begins.starts.measure_eq]
    simp
  · intro semaphores program semaphores' program' n held step
    refine ⟨held.1.step sensible step, ?_⟩
    cases step with
    | take thread free takes =>
        have less := measure_step takes
        have bound := held.2
        push_cast
        omega

/-- A thread that is not gone is alive. -/
theorem Begins.alive_last (begins : Begins cast idle address first) (sensible : cast.Sensible)
    (run : Relation.ReflTransGen (ProgramStep idle address (next cast)) first last) :
    ∀ thread ∈ (accounts cast).threads, ¬ last.program.Gone cast thread → thread ∈ last.live := by
  have alive : ∀ thread, (next cast thread last.program).isSome → thread ∈ last.live := by
    induction run with
    | refl =>
        intro thread steps
        apply begins.alive
        by_contra outside
        rw [next_none outside] at steps
        cases steps
    | tail _ step ih =>
        apply ProgramRun.alive_step _ ih step
        intro thread program call program' takes other different none
        obtain ⟨sameConsumer, sameProducer⟩ := next_apart takes different
        by_cases mem : other ∈ (accounts cast).threads
        · rw [next_gone sensible mem] at none ⊢
          unfold State.Gone at none ⊢
          rwa [sameConsumer, sameProducer]
        · exact next_none mem
  intro thread mem stays
  apply alive
  rw [Option.isSome_iff_ne_none, Ne, next_gone sensible mem]
  exact stays

theorem Kept.places (kept : Kept cast semaphores state) (sensible : cast.Sensible) :
    state.shared.sent.length ≤ state.shared.received.length + cast.buffSize := by
  by_cases allEnded : cast.count ≤ state.shared.endMsgs
  · rw [(kept.all_received sensible allEnded).1]
    omega
  · have units := kept.sound.value_add_own .empty
    have left := kept.sound.orderly.nonneg .empty
    have owned : 0 ≤ ∑ other ∈ (accounts cast).threads,
        (accounts cast).own semaphores state .empty other :=
      Finset.sum_nonneg fun other mem =>
        kept.own_nonneg sensible (.inr (.inr (not_le.mp allEnded))) mem
    have supply : (accounts cast).supply .empty state =
        cast.buffSize - state.shared.sent.length + state.shared.received.length := rfl
    omega

/-- What a consumer has taken fits into its own buffer. -/
theorem Kept.items_le (kept : Kept cast semaphores state) (mem : thread ∈ cast.consumers) :
    (state.consumer thread).taken ≤ state.shared.received.length := by
  have lengths := congrArg List.length (kept.got thread mem)
  rw [List.length_map, List.length_map, List.length_range] at lengths
  rw [← lengths]
  exact List.length_filter_le ..

section Sample

/-- A consumer and a producer of two numbers. -/
def sampleCast : Cast := ⟨{7000}, {7200}, fun _ => 1, 3⟩

def sampleAddress : Sem → Ptr
  | .filled => 5000
  | .empty => 5008
  | .crit1 => 5016
  | .crit2 => 5024

def sampleState : State where
  shared := ⟨fun _ => 0, 0, 0, 0, [], []⟩
  consumer _ := ⟨.test, 0, fun _ => 0, false⟩
  producer _ := ⟨.test, 1, 0⟩

/-- The kernel in which the threads begin. -/
def sampleKernel : Except Fault Kernel := do
  let started ← Kernel.boot.kthreadsInit 8184 7960 100
  let filled ← started.sysSemInit 4000 5000 0
  let empty ← filled.2.sysSemInit 4000 5008 3
  let crit1 ← empty.2.sysSemInit 4000 5016 1
  let crit2 ← crit1.2.sysSemInit 4000 5024 1
  let created ← crit2.2.kthreadCreate 8200 7000 6 true 100
  let created ← created.kthreadCreate 8300 7200 5 true 100
  created.kthreadsSchedule

theorem sampleCast_sensible : sampleCast.Sensible where
  apart := by decide
  some := ⟨7000, by decide⟩
  room := by decide
  numbered _ _ := Int.one_pos

theorem sample_begins {kernel : Kernel} (evaluated : sampleKernel = .ok kernel) :
    Begins sampleCast 7960 sampleAddress ⟨kernel, {7200, 7000, 7960}, sampleState, 0⟩ := by
  have values : (sampleKernel.map fun kernel => decide (∀ sem ∈ [Sem.filled, .empty, .crit1, .crit2],
      kernel.semValue (sampleAddress sem) = initialValue sampleCast sem)) = .ok true := by
    decide +kernel
  have codes : (do
      let started ← Kernel.boot.kthreadsInit 8184 7960 100
      let filled ← started.sysSemInit 4000 5000 0
      let empty ← filled.2.sysSemInit 4000 5008 3
      let crit1 ← empty.2.sysSemInit 4000 5016 1
      let crit2 ← crit1.2.sysSemInit 4000 5024 1
      let created ← crit2.2.kthreadCreate 8200 7000 6 true 100
      return decide (filled.1 = -SUCCESS ∧ empty.1 = -SUCCESS ∧ crit1.1 = -SUCCESS ∧
        crit2.1 = -SUCCESS ∧ (crit2.2.thread 7960).proc = 100 ∧
        (created.thread 7960).proc = 100)) = (.ok true : Except Fault Bool) := by
    decide +kernel
  rw [evaluated] at values
  have values := of_decide_eq_true (Except.ok.inj values)
  unfold sampleKernel at evaluated
  obtain ⟨started, starts, evaluated⟩ := bind_ok evaluated
  obtain ⟨⟨code, filled⟩, initsFilled, evaluated⟩ := bind_ok evaluated
  obtain ⟨⟨code', empty⟩, initsEmpty, evaluated⟩ := bind_ok evaluated
  obtain ⟨⟨codeSecond, crit1⟩, initsCrit1, evaluated⟩ := bind_ok evaluated
  obtain ⟨⟨codeThird, crit2⟩, initsCrit2, evaluated⟩ := bind_ok evaluated
  obtain ⟨consumer, createsConsumer, evaluated⟩ := bind_ok evaluated
  obtain ⟨producer, createsProducer, schedules⟩ := bind_ok evaluated
  simp only [starts, initsFilled, initsEmpty, initsCrit1, initsCrit2, createsConsumer, bind,
    Except.bind] at codes
  obtain ⟨rfl, rfl, rfl, rfl, proc, proc'⟩ := of_decide_eq_true (Except.ok.inj codes)
  have quiet := ((((Quiet.init (by decide) starts).semInit initsFilled).semInit
    initsEmpty).semInit initsCrit1).semInit initsCrit2
  have quiet := quiet.create (by decide) (by decide) ⟨7960, rfl, proc⟩ createsConsumer
  have quiet := quiet.create (by decide) (by decide) ⟨7960, .inr rfl, proc'⟩ createsProducer
  obtain ⟨members, coherent, none⟩ := quiet.schedule schedules
  constructor
  case coherent => exact ⟨members, _, coherent, fun sem => none _ rfl⟩
  case values => intro sem; cases sem <;> exact values _ (by decide)
  case injective => intro sem other; cases sem <;> cases other <;> decide
  case nonzero => intro sem; cases sem <;> decide
  case apart => decide
  case alive =>
    intro thread mem
    simp [sampleCast] at mem
    rcases mem with rfl | rfl <;> simp
  case starts =>
    constructor
    all_goals simp [sampleState]
  case steps => rfl

/-- The run in which the active thread goes on by so many steps. -/
theorem sample_run (n : Nat) (check : ProgramRun State → Bool)
    (evaluated : (do
      let kernel ← sampleKernel
      let last ← ProgramRun.advance sampleAddress (next sampleCast) n
        ⟨kernel, {7200, 7000, 7960}, sampleState, 0⟩
      return check last) = (.ok true : Except Fault Bool)) :
    ∃ first last, Begins sampleCast 7960 sampleAddress first ∧
      Relation.ReflTransGen (ProgramStep 7960 sampleAddress (next sampleCast)) first last ∧
      check last = true := by
  obtain ⟨kernel, starts, evaluated⟩ := bind_ok evaluated
  obtain ⟨last, advances, evaluated⟩ := bind_ok evaluated
  exact ⟨_, last, sample_begins starts, ProgramRun.advance_reaches advances,
    Except.ok.inj evaluated⟩

end Sample

/-- In every run the active thread takes a number only when there is one, and puts one only when
there is a place, within the buffers; and only one consumer moves `out` at a time, and only one
producer `in`. -/
theorem buffer_guarded (sensible : cast.Sensible) (begins : Begins cast idle address first)
    (run : Relation.ReflTransGen (ProgramStep idle address (next cast)) first last) :
    (last.kernel.activeThread ∈ cast.consumers →
      (last.program.consumer last.kernel.activeThread).pc = .take →
        last.program.shared.takeAt < cast.buffSize ∧
        (last.program.consumer last.kernel.activeThread).items < cast.buffSize * cast.count ∧
        ∃ entry, last.program.shared.sent[last.program.shared.received.length]? = some entry ∧
          last.program.shared.buffer last.program.shared.takeAt = entry.2) ∧
    (last.kernel.activeThread ∈ cast.producers →
      (last.program.producer last.kernel.activeThread).pc = .store →
        last.program.shared.putAt < cast.buffSize ∧
        ∀ k, last.program.shared.received.length ≤ k → k < last.program.shared.sent.length →
          k % cast.buffSize ≠ last.program.shared.putAt) ∧
    (∀ thread ∈ cast.consumers, ∀ other ∈ cast.consumers,
      (last.program.consumer thread).Inside → (last.program.consumer thread).pc ≠ .check →
      (last.program.consumer other).Inside → (last.program.consumer other).pc ≠ .check →
        other = thread) ∧
    ∀ thread ∈ cast.producers, ∀ other ∈ cast.producers,
      (last.program.producer thread).Inside → (last.program.producer thread).pc ≠ .choose →
      (last.program.producer other).Inside → (last.program.producer other).pc ≠ .choose →
        other = thread := by
  obtain ⟨semaphores, members, all, views, kept, -⟩ := begins.kept sensible run
  have room := sensible.room
  refine ⟨fun mem isPc => ?_, fun mem isPc => ?_, fun thread mem other otherMem inside past
    otherInside otherPast => kept.consumer_alone sensible mem inside past otherMem otherInside
    otherPast, fun thread mem other otherMem inside past otherInside otherPast =>
    kept.producer_alone sensible mem inside past otherMem otherInside otherPast⟩
  · obtain ⟨ready, place⟩ := kept.take_ready sensible views.free mem isPc
    have entry := List.getElem?_eq_getElem ready
    refine ⟨?_, ?_, _, entry, ?_⟩
    · rw [place]
      exact Nat.mod_lt _ (by omega)
    · have items := kept.items_le mem
      have total := kept.sent_le
      have taken : (last.program.consumer last.kernel.activeThread).taken =
          (last.program.consumer last.kernel.activeThread).items := by
        simp [Consumer.taken, isPc]
      have fits : cast.total ≤ cast.buffSize * cast.count := by
        unfold Cast.total
        rw [Nat.mul_comm]
        exact Nat.mul_le_mul_right _ (Nat.sub_le ..)
      omega
    · rw [place]
      exact kept.slots _ _ entry le_rfl
  · obtain ⟨free, place⟩ := kept.store_ready sensible views.free mem isPc
    rw [place]
    refine ⟨Nat.mod_lt _ (by omega), fun k later before same => ?_⟩
    have divides := (Nat.modEq_iff_dvd' before.le).mp same
    have apart := Nat.le_of_dvd (by omega) divides
    omega

/-- The consumer is about to take a number. -/
theorem buffer_guarded_sample : ∃ first last : ProgramRun State,
    Begins sampleCast 7960 sampleAddress first ∧
    Relation.ReflTransGen (ProgramStep 7960 sampleAddress (next sampleCast)) first last ∧
    last.kernel.activeThread = 7000 ∧ (last.program.consumer 7000).pc = .take ∧
    ∃ entry, last.program.shared.sent[last.program.shared.received.length]? = some entry ∧
      last.program.shared.buffer last.program.shared.takeAt = entry.2 := by
  obtain ⟨first, last, begins, run, taking⟩ := sample_run 12
    (fun last => decide (last.kernel.activeThread = 7000 ∧ (last.program.consumer 7000).pc = .take))
    (by decide +kernel)
  obtain ⟨active, isPc⟩ := of_decide_eq_true taking
  refine ⟨first, last, begins, run, active, isPc, ?_⟩
  have guarded := (buffer_guarded sampleCast_sensible begins run).1
  rw [active] at guarded
  exact (guarded (by decide) isPc).2.2

/-- The threads take a bounded number of steps in every run; as long as one of them is not gone,
one waits for no semaphore; and a consumer leaves its loop only when all numbers are put and
taken. -/
theorem threads_finish (sensible : cast.Sensible) (begins : Begins cast idle address first)
    (run : Relation.ReflTransGen (ProgramStep idle address (next cast)) first last) :
    (last.steps : Int) ≤ cast.steps ∧
    (∃ members all, Coherent last.kernel idle last.live members all ∧
      ∀ thread ∈ cast.consumers ∪ cast.producers, ¬ last.program.Gone cast thread →
        ∃ other ∈ cast.consumers ∪ cast.producers, ¬ last.program.Gone cast other ∧
          other ∈ last.live ∧ ∀ sem, other ∉ members (.sem (address sem))) ∧
    ∀ thread ∈ cast.consumers,
      (last.program.consumer thread).pc = .leave ∨ (last.program.consumer thread).pc = .gone →
        last.program.shared.received.map Prod.snd = last.program.shared.sent.map Prod.snd ∧
        ∀ producer ∈ cast.producers,
          (last.program.shared.sent.filter (·.1 = producer)).map Prod.snd =
            (List.range (cast.buffSize - 1)).map fun k => cast.item producer (k + 1) := by
  obtain ⟨semaphores, members, all, views, kept, bound⟩ := begins.kept sensible run
  refine ⟨?_, ⟨members, all, views.coherent, fun thread mem stays => ?_⟩, fun thread mem isPc => ?_⟩
  · have nonneg := kept.measure_nonneg
    omega
  · have progress := kept.not_stuck sensible mem stays
    unfold Stuck at progress
    push Not at progress
    obtain ⟨other, otherMem, otherStays, waits⟩ := progress
    refine ⟨other, otherMem, otherStays, begins.alive_last sensible run other otherMem otherStays,
      fun sem => ?_⟩
    rw [← views.waiting]
    exact waits sem
  · have allEnded := kept.late thread mem (.inr (.inr isPc))
    constructor
    · rw [kept.inOrder, (kept.all_received sensible allEnded).1, List.take_of_length_le (by simp)]
    · intro producer isProducer
      rw [kept.put producer isProducer, kept.stored_eq isProducer allEnded]

/-- The consumer has taken both numbers and is gone. -/
theorem threads_finish_sample : ∃ first last : ProgramRun State,
    Begins sampleCast 7960 sampleAddress first ∧
    Relation.ReflTransGen (ProgramStep 7960 sampleAddress (next sampleCast)) first last ∧
    (last.program.consumer 7000).pc = .gone ∧ (last.steps : Int) ≤ sampleCast.steps ∧
    last.program.shared.received.map Prod.snd = last.program.shared.sent.map Prod.snd := by
  obtain ⟨first, last, begins, run, gone⟩ := sample_run 60
    (fun last => decide ((last.program.consumer 7000).pc = .gone)) (by decide +kernel)
  have isPc := of_decide_eq_true gone
  obtain ⟨bound, -, finished⟩ := threads_finish sampleCast_sensible begins run
  exact ⟨first, last, begins, run, isPc, bound, (finished 7000 (by decide) (.inr isPc)).1⟩

end Program

end ProducerConsumer

end Oseer
