import Mathlib.Logic.Relation
import Oseer.Library.Bitmap
import Oseer.Library.Results
import Oseer.UniqueId

/-!
# The words of the table of identifiers

`idmask` has `MAX_RESOURCES / WBITS` words, rounded down, while the identifiers are all numbers
below `MAX_RESOURCES`.  Here `MAX_RESOURCES` is any number, and every index with which a word of
the table is read or written is recorded.
-/

namespace Oseer

open Bitmap Results

/-- `idmask`, together with the words that follow it in memory, and `last_id`.  `accesses`
records the indices. -/
structure IdTable where
  idmask : Nat → Nat
  lastId : Nat
  accesses : List Nat

namespace IdTable

section Operations

variable (maxResources : Nat)

/-- The test of the bit of an identifier. -/
def test (id : Nat) (table : IdTable) : Bool × IdTable :=
  (decide (table.idmask (id / WBITS) &&& shl32 1 (id % WBITS) ≠ 0),
    { table with accesses := id / WBITS :: table.accesses })

/-- A store in the word with the bit of an identifier. -/
def store (id : Nat) (change : Nat → Nat) (table : IdTable) : IdTable :=
  { table with
    idmask := Function.update table.idmask (id / WBITS) (change (table.idmask (id / WBITS)))
    accesses := id / WBITS :: table.accesses }

/-- The loop of `k_new_unique_id`, for at most `fuel` rounds.  `continue` goes on with the test
of the bit, for zero as well. -/
def newIdLoop (starting : Nat) : Nat → IdTable → Except Fault Nat × IdTable
  | 0, table => (.error .endless, table)
  | fuel + 1, table =>
      let table := { table with lastId := (table.lastId + 1) % 2 ^ 32 % maxResources }
      if table.lastId = starting then (.error .noFreeId, table)
      else
        let tested := table.test table.lastId
        if tested.1 then newIdLoop starting fuel tested.2 else (.ok table.lastId, tested.2)

/-- `k_new_unique_id`. -/
def kNewUniqueId (table : IdTable) : Except Fault Nat × IdTable :=
  let found := newIdLoop maxResources table.lastId maxResources table
  match found.1 with
  | .error fault => (.error fault, found.2)
  | .ok id => (.ok id, found.2.store id fun word => word ||| shl32 1 (id % WBITS))

/-- `k_free_unique_id`. -/
def kFreeUniqueId (id : Nat) (table : IdTable) : Except Fault Unit × IdTable :=
  if ¬ (0 < id ∧ id < maxResources) then (.error .badId, table)
  else
    let tested := table.test id
    if tested.1 then
      (.ok (), tested.2.store id fun word => word &&& not32 (shl32 1 (id % WBITS)))
    else (.error .badId, tested.2)

end Operations

section Runs

/-- The table before the first call. -/
structure Fresh (maxResources : Nat) (table : IdTable) : Prop where
  fits : ∀ index, table.idmask index < 2 ^ 32
  clear : ∀ index < maxResources / WBITS, table.idmask index = 0
  lastId : table.lastId = 0
  accesses : table.accesses = []

/-- A call that returns, or a change of the variables behind the table. -/
inductive Step (maxResources : Nat) : IdTable → IdTable → Prop where
  | alloc {table : IdTable} {id : Nat} (found : (table.kNewUniqueId maxResources).1 = .ok id) :
      Step maxResources table (table.kNewUniqueId maxResources).2
  | free {table : IdTable} {id : Nat} (fits : id < 2 ^ 32)
      (freed : (table.kFreeUniqueId maxResources id).1 = .ok ()) :
      Step maxResources table (table.kFreeUniqueId maxResources id).2
  | other {table : IdTable} (words : Nat → Nat) (fits : ∀ index, words index < 2 ^ 32)
      (same : ∀ index < maxResources / WBITS, words index = table.idmask index) :
      Step maxResources table { table with idmask := words }

/-- The indices are those of words of the table. -/
def InRange (maxResources : Nat) (table : IdTable) : Prop :=
  ∀ index ∈ table.accesses, index < maxResources / WBITS

/-- In every run, whatever is called next uses words of the table only. -/
def Guarded (maxResources : Nat) : Prop :=
  ∀ first table, Fresh maxResources first →
    Relation.ReflTransGen (Step maxResources) first table →
    (table.kNewUniqueId maxResources).2.InRange maxResources ∧
      ∀ id < 2 ^ 32, (table.kFreeUniqueId maxResources id).2.InRange maxResources

variable {maxResources starting fuel id : Nat} {table table' first : IdTable}

theorem word_in_range (fine : WBITS ∣ maxResources ∨ 2 ^ 32 ≤ maxResources)
    (below : id < maxResources) (fits : id < 2 ^ 32) : id / WBITS < maxResources / WBITS := by
  unfold WBITS at *
  omega

theorem InRange.test (inRange : table.InRange maxResources)
    (word : id / WBITS < maxResources / WBITS) : (table.test id).2.InRange maxResources :=
  List.forall_mem_cons.mpr ⟨word, inRange⟩

theorem InRange.store {change : Nat → Nat} (inRange : table.InRange maxResources)
    (word : id / WBITS < maxResources / WBITS) : (table.store id change).InRange maxResources :=
  List.forall_mem_cons.mpr ⟨word, inRange⟩

/-- The search looks at words of the table only. -/
theorem newIdLoop_inRange (positive : 0 < maxResources)
    (fine : WBITS ∣ maxResources ∨ 2 ^ 32 ≤ maxResources) (last : table.lastId < maxResources)
    (inRange : table.InRange maxResources) :
    (newIdLoop maxResources starting fuel table).2.InRange maxResources ∧
      (newIdLoop maxResources starting fuel table).2.lastId < maxResources ∧
      ∀ id, (newIdLoop maxResources starting fuel table).1 = .ok id →
        id / WBITS < maxResources / WBITS := by
  induction fuel generalizing table with
  | zero => exact ⟨inRange, last, nofun⟩
  | succ fuel ih =>
      have below : (table.lastId + 1) % 2 ^ 32 % maxResources < maxResources :=
        Nat.mod_lt _ positive
      have fits : (table.lastId + 1) % 2 ^ 32 % maxResources < 2 ^ 32 :=
        (Nat.mod_le _ _).trans_lt (Nat.mod_lt _ (by decide))
      have word := word_in_range fine below fits
      unfold newIdLoop
      dsimp only
      split_ifs
      · exact ⟨inRange, below, nofun⟩
      · apply ih
        · exact below
        · exact InRange.test inRange word
      · refine ⟨InRange.test inRange word, below, fun id isId => ?_⟩
        obtain rfl := Except.ok.inj isId
        exact word

theorem kNewUniqueId_inRange (positive : 0 < maxResources)
    (fine : WBITS ∣ maxResources ∨ maxResources = 1 ∨ 2 ^ 32 ≤ maxResources)
    (last : table.lastId < maxResources) (inRange : table.InRange maxResources) :
    (table.kNewUniqueId maxResources).2.InRange maxResources ∧
      (table.kNewUniqueId maxResources).2.lastId < maxResources := by
  by_cases one : maxResources = 1
  · subst one
    -- zero is the only identifier, and the search ends before it looks at it
    have zero : table.lastId = 0 := Nat.lt_one_iff.mp last
    have halts : table.kNewUniqueId 1 = (.error .noFreeId, { table with lastId := 0 }) := by
      simp [kNewUniqueId, newIdLoop, zero]
    rw [halts]
    exact ⟨inRange, Nat.one_pos⟩
  · obtain ⟨searched, below, found⟩ :=
      @newIdLoop_inRange maxResources table.lastId maxResources table positive (by tauto) last
        inRange
    unfold kNewUniqueId
    dsimp only
    split
    · exact ⟨searched, below⟩
    · rename_i id isId
      exact ⟨searched.store (found id isId), below⟩

theorem kFreeUniqueId_inRange
    (fine : WBITS ∣ maxResources ∨ maxResources = 1 ∨ 2 ^ 32 ≤ maxResources) (fits : id < 2 ^ 32)
    (inRange : table.InRange maxResources) :
    (table.kFreeUniqueId maxResources id).2.InRange maxResources := by
  unfold kFreeUniqueId
  dsimp only
  split_ifs with inside used
  · obtain ⟨nonzero, below⟩ := inside
    have word := word_in_range (by omega) below fits
    exact (InRange.test inRange word).store word
  · obtain ⟨nonzero, below⟩ := inside
    exact InRange.test inRange (word_in_range (by omega) below fits)
  · exact inRange

theorem kFreeUniqueId_lastId :
    (table.kFreeUniqueId maxResources id).2.lastId = table.lastId := by
  unfold kFreeUniqueId
  dsimp only
  split_ifs <;> rfl

theorem Step.inRange (positive : 0 < maxResources)
    (fine : WBITS ∣ maxResources ∨ maxResources = 1 ∨ 2 ^ 32 ≤ maxResources)
    (step : Step maxResources table table') (last : table.lastId < maxResources)
    (inRange : table.InRange maxResources) :
    table'.lastId < maxResources ∧ table'.InRange maxResources := by
  cases step with
  | alloc found => exact (kNewUniqueId_inRange positive fine last inRange).symm
  | free fits freed =>
      exact ⟨kFreeUniqueId_lastId.symm ▸ last, kFreeUniqueId_inRange fine fits inRange⟩
  | other words fits same => exact ⟨last, inRange⟩

theorem Step.inRange_run (positive : 0 < maxResources)
    (fine : WBITS ∣ maxResources ∨ maxResources = 1 ∨ 2 ^ 32 ≤ maxResources)
    (fresh : Fresh maxResources first)
    (run : Relation.ReflTransGen (Step maxResources) first table) :
    table.lastId < maxResources ∧ table.InRange maxResources := by
  induction run with
  | refl =>
      refine ⟨fresh.lastId.symm ▸ positive, ?_⟩
      unfold InRange
      rw [fresh.accesses]
      nofun
  | tail _ step ih => exact step.inRange positive fine ih.1 ih.2

end Runs

section Overrun

variable {maxResources id : Nat} {table table' first : IdTable}

/-- The bit of an identifier. -/
def bit (table : IdTable) (id : Nat) : Bool := (table.idmask (id / WBITS)).testBit (id % WBITS)

theorem and_bit_ne_zero {word count : Nat} (small : count < 32) :
    word &&& shl32 1 count ≠ 0 ↔ word.testBit count = true := by
  rw [shl32_one small, Nat.and_two_pow]
  cases word.testBit count <;> simp

theorem test_fst : (table.test id).1 = table.bit id := by
  unfold test bit
  rw [Bool.eq_iff_iff, decide_eq_true_iff]
  exact and_bit_ne_zero (Nat.mod_lt id (by decide))

/-- The next identifier is free. -/
theorem kNewUniqueId_next (next : table.lastId + 1 < maxResources)
    (fits : table.lastId + 1 < 2 ^ 32) (unused : table.bit (table.lastId + 1) = false) :
    table.kNewUniqueId maxResources = (.ok (table.lastId + 1),
      (({ table with lastId := table.lastId + 1 } : IdTable).test (table.lastId + 1)).2.store
        (table.lastId + 1) fun word => word ||| shl32 1 ((table.lastId + 1) % WBITS)) := by
  obtain ⟨fuel, rfl⟩ : ∃ fuel, maxResources = fuel + 1 := ⟨maxResources - 1, by omega⟩
  have isNext : (table.lastId + 1) % 2 ^ 32 % (fuel + 1) = table.lastId + 1 := by
    rw [Nat.mod_eq_of_lt fits, Nat.mod_eq_of_lt next]
  have tested : (({ table with lastId := table.lastId + 1 } : IdTable).test
      (table.lastId + 1)).1 = false := by
    rw [test_fst]
    exact unused
  unfold kNewUniqueId newIdLoop
  simp only [isNext]
  rw [if_neg (by omega), tested]
  rfl

theorem newIdLoop_accesses {starting fuel index : Nat} (mem : index ∈ table.accesses) :
    index ∈ (newIdLoop maxResources starting fuel table).2.accesses := by
  induction fuel generalizing table with
  | zero => exact mem
  | succ fuel ih =>
      unfold newIdLoop
      dsimp only
      split_ifs
      · exact mem
      · exact ih (List.mem_cons_of_mem _ mem)
      · exact List.mem_cons_of_mem _ mem

/-- The next identifier is looked at. -/
theorem kNewUniqueId_visits (next : table.lastId + 1 < maxResources)
    (fits : table.lastId + 1 < 2 ^ 32) :
    (table.lastId + 1) / WBITS ∈ (table.kNewUniqueId maxResources).2.accesses := by
  obtain ⟨fuel, rfl⟩ : ∃ fuel, maxResources = fuel + 1 := ⟨maxResources - 1, by omega⟩
  have isNext : (table.lastId + 1) % 2 ^ 32 % (fuel + 1) = table.lastId + 1 := by
    rw [Nat.mod_eq_of_lt fits, Nat.mod_eq_of_lt next]
  have looked : (table.lastId + 1) / WBITS ∈
      (newIdLoop (fuel + 1) table.lastId (fuel + 1) table).2.accesses := by
    unfold newIdLoop
    simp only [isNext]
    rw [if_neg (by omega)]
    split_ifs
    · exact newIdLoop_accesses List.mem_cons_self
    · exact List.mem_cons_self
  unfold kNewUniqueId
  dsimp only
  split
  · exact looked
  · exact List.mem_cons_of_mem _ looked

/-- One bit is set. -/
theorem bit_add (other : Nat) :
    (table.store id fun word => word ||| shl32 1 (id % WBITS)).bit other =
      (decide (other = id) || table.bit other) := by
  have small : id % WBITS < 32 := Nat.mod_lt id (by decide)
  unfold bit store
  dsimp only
  by_cases sameWord : other / WBITS = id / WBITS
  · have sameBit : other % WBITS = id % WBITS ↔ other = id := by
      unfold WBITS at *
      omega
    rw [sameWord, Function.update_self, testBit_add small, decide_eq_decide.mpr sameBit]
  · have different : other ≠ id := fun same => sameWord (congrArg (· / WBITS) same)
    rw [Function.update_of_ne sameWord, decide_eq_false different, Bool.false_or]

/-- The identifiers are given one after the other, from the start. -/
theorem fills (fresh : Fresh maxResources first) (fits : maxResources < 2 ^ 32) (last : Nat)
    (below : last < maxResources / WBITS * WBITS ∨ last = 0) :
    ∃ table, Relation.ReflTransGen (Step maxResources) first table ∧ table.lastId = last ∧
      ∀ id, last < id → id < maxResources / WBITS * WBITS → table.bit id = false := by
  induction last with
  | zero =>
      refine ⟨first, .refl, fresh.lastId, fun id _ inside => ?_⟩
      unfold bit
      rw [fresh.clear _ (Nat.div_lt_of_lt_mul (by rwa [Nat.mul_comm])), Nat.zero_testBit]
  | succ last ih =>
      have inside : last + 1 < maxResources / WBITS * WBITS := by omega
      have whole : maxResources / WBITS * WBITS ≤ maxResources := Nat.div_mul_le_self _ _
      obtain ⟨table, run, rfl, clear⟩ := ih (by omega)
      have next := @kNewUniqueId_next maxResources table (by omega) (by omega)
        (clear _ (by omega) inside)
      refine ⟨_, run.tail (.alloc (congrArg Prod.fst next)), ?_, fun id after before => ?_⟩
      · rw [next]
        rfl
      · rw [next, bit_add, decide_eq_false (by omega), Bool.false_or]
        exact clear id (by omega) before

theorem overruns (fresh : Fresh maxResources first) (several : 1 < maxResources)
    (fits : maxResources < 2 ^ 32) (rest : ¬ WBITS ∣ maxResources) :
    ∃ table, Relation.ReflTransGen (Step maxResources) first table ∧
      maxResources / WBITS ∈ (table.kNewUniqueId maxResources).2.accesses := by
  obtain ⟨table, run, last, -⟩ := fills fresh fits (maxResources / WBITS * WBITS - 1) (by omega)
  have visits := @kNewUniqueId_visits maxResources table
  rw [last] at visits
  unfold WBITS at *
  refine ⟨table, run, ?_⟩
  have behind : (maxResources / 32 * 32 - 1 + 1) / 32 = maxResources / 32 := by omega
  rw [behind] at visits
  exact visits (by omega) (by omega)

/-- The table before the first call, when all memory is zero. -/
def zeroTable : IdTable := ⟨fun _ => 0, 0, []⟩

theorem zeroTable_fresh : Fresh maxResources zeroTable :=
  ⟨fun _ => Nat.two_pow_pos 32, fun _ _ => rfl, rfl, rfl⟩

theorem not_guarded (several : 1 < maxResources) (fits : maxResources < 2 ^ 32)
    (rest : ¬ WBITS ∣ maxResources) : ¬ Guarded maxResources := by
  intro guarded
  obtain ⟨table, run, visited⟩ := overruns zeroTable_fresh several fits rest
  exact Nat.lt_irrefl _ ((guarded zeroTable table zeroTable_fresh run).1 _ visited)

/-- All accesses are to words of the table iff the number of identifiers is a multiple of the
bits of a word, or there is the identifier zero only, or there are as many as numbers in a
word. -/
theorem id_words_in_range (positive : 0 < maxResources) :
    Guarded maxResources ↔
      WBITS ∣ maxResources ∨ maxResources = 1 ∨ 2 ^ 32 ≤ maxResources := by
  constructor
  · intro guarded
    by_contra bad
    rw [not_or, not_or] at bad
    exact not_guarded (by omega) (by omega) bad.1 guarded
  · intro fine first table fresh run
    obtain ⟨last, inRange⟩ := Step.inRange_run positive fine fresh run
    exact ⟨(kNewUniqueId_inRange positive fine last inRange).1,
      fun id fits => kFreeUniqueId_inRange fine fits inRange⟩

/-- A table with a word for each 32 of its identifiers. -/
theorem id_words_in_range_even : Guarded 1024 :=
  (id_words_in_range (by decide)).mpr (.inl (by decide))

/-- The table of the kernel. -/
theorem id_words_in_range_fail : ¬ Guarded MAX_RESOURCES :=
  not_guarded (by decide) (by decide) (by decide)

end Overrun

section Kernel

variable {kernel kernel' : Kernel} {table : IdTable} {starting fuel : Nat}

/-- The table of the kernel has these bits. -/
structure Matches (kernel : Kernel) (table : IdTable) : Prop where
  lastId : table.lastId = kernel.lastId
  bit : ∀ id, id / WBITS < MAX_RESOURCES / WBITS → table.bit id = kernel.idmask id

/-- The search finds the same identifier, and where the kernel is said to read past the end of
the table, there is such an index. -/
theorem newIdLoop_agrees (agree : Matches kernel table) (last : kernel.lastId < MAX_RESOURCES) :
    (∀ id, Kernel.newIdLoop kernel.idmask starting fuel kernel.lastId = .ok id →
      (newIdLoop MAX_RESOURCES starting fuel table).1 = .ok id ∧
        (newIdLoop MAX_RESOURCES starting fuel table).2.lastId = id ∧
        (newIdLoop MAX_RESOURCES starting fuel table).2.idmask = table.idmask) ∧
      (Kernel.newIdLoop kernel.idmask starting fuel kernel.lastId = .error .idOutOfRange →
        ¬ (newIdLoop MAX_RESOURCES starting fuel table).2.InRange MAX_RESOURCES) := by
  induction fuel generalizing kernel table with
  | zero => simp [Kernel.newIdLoop]
  | succ fuel ih =>
      have fits : kernel.lastId + 1 < 2 ^ 32 := by
        unfold MAX_RESOURCES at last
        omega
      have isNext : (table.lastId + 1) % 2 ^ 32 % MAX_RESOURCES =
          (kernel.lastId + 1) % MAX_RESOURCES := by
        rw [agree.lastId, Nat.mod_eq_of_lt fits]
      have below : (kernel.lastId + 1) % MAX_RESOURCES < MAX_RESOURCES :=
        Nat.mod_lt _ (by decide)
      unfold Kernel.newIdLoop newIdLoop
      simp only [isNext]
      generalize (kernel.lastId + 1) % MAX_RESOURCES = next at below
      by_cases ends : next = starting
      · simp [ends]
      rw [if_neg ends, if_neg ends, test_fst]
      by_cases behind : MAX_RESOURCES / WBITS ≤ next / WBITS
      · rw [if_pos behind]
        refine ⟨by simp, fun _ inRange => ?_⟩
        have looked : next / WBITS ∈ (if ({ table with lastId := next } : IdTable).bit next = true
            then newIdLoop MAX_RESOURCES starting fuel
              (({ table with lastId := next } : IdTable).test next).2
            else (.ok next, (({ table with lastId := next } : IdTable).test next).2)).2.accesses := by
          split_ifs
          · exact newIdLoop_accesses List.mem_cons_self
          · exact List.mem_cons_self
        exact absurd (inRange _ looked) (by omega)
      · have same : ({ table with lastId := next } : IdTable).bit next = kernel.idmask next :=
          agree.bit next (by omega)
        rw [if_neg behind, same]
        cases kernel.idmask next with
        | false =>
            refine ⟨fun id isId => ?_, by simp⟩
            obtain rfl := Except.ok.inj isId
            exact ⟨rfl, rfl, rfl⟩
        | true =>
            have agree' : Matches { kernel with lastId := next }
                (({ table with lastId := next } : IdTable).test next).2 := ⟨rfl, agree.bit⟩
            exact ih agree' below

/-- `k_new_unique_id` of the kernel works on the words of the table. -/
theorem kNewUniqueId_agrees (agree : Matches kernel table)
    (last : kernel.lastId < MAX_RESOURCES) (taken : kernel.kNewUniqueId = .ok kernel') :
    (table.kNewUniqueId MAX_RESOURCES).1 = .ok kernel'.lastId ∧
      Matches kernel' (table.kNewUniqueId MAX_RESOURCES).2 := by
  obtain ⟨id, found, rfl⟩ := map_ok taken
  obtain ⟨isId, lastId, idmask⟩ := (newIdLoop_agrees agree last).1 id found
  rw [← agree.lastId] at isId lastId idmask
  have result : table.kNewUniqueId MAX_RESOURCES = (.ok id,
      (newIdLoop MAX_RESOURCES table.lastId MAX_RESOURCES table).2.store id
        fun word => word ||| shl32 1 (id % WBITS)) := by
    unfold kNewUniqueId
    simp only [isId]
  rw [result]
  refine ⟨rfl, lastId, fun other word => ?_⟩
  have searched : (newIdLoop MAX_RESOURCES table.lastId MAX_RESOURCES table).2.bit other =
      kernel.idmask other := by
    unfold bit
    rw [idmask]
    exact agree.bit other word
  rw [bit_add, searched]
  by_cases same : other = id
  · simp [same]
  · simp [same]

end Kernel

end IdTable

end Oseer
