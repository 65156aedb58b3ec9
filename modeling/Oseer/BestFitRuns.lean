import Oseer.BestFitSort
import Oseer.FirstFitInvariant

/-!
# Runs of the best-fit allocator

The pools of `bf.c` are those of the first-fit allocator, with a free list kept
in ascending order of sizes.  Freeing sorts the list anew; an allocation that
cuts a chunk only stores the chunk's new size and leaves it where it is.
-/

namespace Oseer

open WordMemory FirstFit BestFit LinkedRing Tiling

variable {mpool low high size segment pointer : Nat} {memory memory' : Memory}
  {blocks before after : List Block} {block : Block} {free : List Nat}

section Free

theorem FirstFit.WellFormed.header_size
    (wellFormed : WellFormed mpool low high memory blocks free)
    (mem : block ∈ blocks) (unused : block.used = false) : memory block.addr = block.size := by
  simpa [word, unused] using (wellFormed.settled block mem).header

/-- The moving chunk is put into the free list, which is sorted, and its tail
gets its size. -/
theorem FirstFit.Moving.arriveSorted
    (moving : Moving mpool low high memory before block after free)
    (separated : Separated (before ++ block :: after)) :
    ∃ free' memory', bfInsertChunk mpool block.addr memory = some memory' ∧
      WellFormed mpool low high (cloneSizeToTail block.addr memory')
        (before ++ block :: after) free' ∧
      Ascending (cloneSizeToTail block.addr memory') free' := by
  have member : block ∈ before ++ block :: after := by simp
  obtain ⟨inserted, sameInserted⟩ := moving.toFrame.insert member moving.notListed
  obtain ⟨free', memory', sorted, frame, sameSorted, perm, ascending⟩ :=
    inserted.sort (by simp)
  have same := sameInserted.trans sameSorted
  have result := moving.settle separated frame same fun node => by
    rw [perm.mem_iff, List.mem_cons]
  have header : memory' block.addr = word block := by
    rw [moving.toFrame.same_header same member, moving.header]
    simp [word, moving.unused]
  refine ⟨free', memory', sorted, result, ascending.congr fun chunk mem => ?_⟩
  obtain ⟨other, memOther, rfl⟩ := frame.listed chunk mem
  by_cases isBlock : other = block
  · rw [isBlock, (result.settled block member).header, header]
  · have bounds := frame.bounds memOther
    refine frame.cloneSizeToTail_within member header memOther isBlock _ le_rfl ?_
    simp only [Block.limit]
    omega

/-- `bf_free` releases a chunk in use and leaves the free list in order. -/
theorem FirstFit.WellFormed.bfFree
    (wellFormed : WellFormed mpool low high memory (before ++ block :: after) free)
    (used : block.used = true) :
    ∃ free' memory', BestFit.bfFree mpool (block.addr + sizeT) memory = some memory' ∧
      WellFormed mpool low high memory' (release before block after) free' ∧
      Ascending memory' free' := by
  have bounds := wellFormed.bounds (by simp : block ∈ before ++ block :: after)
  have size4 : sizeT = 4 := rfl
  have start : sub32 (block.addr + sizeT) sizeT = block.addr := by
    rw [sub32_of_le (by omega) (by omega), Nat.add_sub_cancel]
  obtain ⟨joined, freeLeft, resultLeft, left, -⟩ := (wellFormed.moving used).joinLeft
  obtain ⟨freeRight, addrRight, right, -⟩ := left.joinRight
  have split := separated_split.mp wellFormed.separated
  have separated : Separated (release before block after) :=
    separated_release split.1 split.2.1
  obtain ⟨free', memory', sorted, result, ascending⟩ := right.arriveSorted separated
  rw [addrRight] at sorted result ascending
  refine ⟨free', _, ?_, result, ascending⟩
  simp only [BestFit.bfFree, start, resultLeft, sorted]
  rfl

/-- `bf_init` leaves what `ffs_init` does: a list of one chunk is sorted. -/
theorem BestFit.ffsInit_of_bfInit (fits : segment + size < 2 ^ 32)
    (built : bfInit segment size memory = some (mpool, memory')) (success : mpool ≠ 0) :
    ffsInit segment size memory = some (mpool, memory') := by
  have sorted : ∀ stored, ffsInit segment size memory = some (mpool, stored) →
      sort mpool stored = some stored := by
    intro stored init
    have list : (freeFormat mpool).Holds stored ([] ++ [mpool + 8]) :=
      (ffsInit_wellFormed fits init success).list
    have head : stored mpool = mpool + 8 := list.head
    have next : stored (mpool + 8 + nextField) = 0 := list.next
    simp [sort, head, next]
  simp only [bfInit] at built
  simp only [ffsInit] at sorted ⊢
  split_ifs at built sorted ⊢ with guard small
  · exact built
  · obtain ⟨stored, inserted, result⟩ := Option.bind_eq_some_iff.mp built
    simp only [Option.pure_def, Option.some.injEq, Prod.mk.injEq] at result
    obtain ⟨rfl, rfl⟩ := result
    have same := sorted _ rfl
    rw [bfInsertChunk, same, Option.some.injEq] at inserted
    rw [inserted]

end Free

section Alloc

variable {iter : Nat} {front back : List Nat}

/-- What a successful allocation does to the free list: the first chunk that is
large enough is cut and stays in its place, or leaves the list. -/
inductive BestFit.ListAlloc (request : Nat) (memory memory' : Memory) : List Nat → List Nat → Prop
  | cut {front back : List Nat} {iter : Nat}
      (small : ∀ chunk ∈ front, memory chunk < request)
      (room : request + headerSize ≤ memory iter)
      (rest : memory' iter = memory iter - request)
      (kept : ∀ chunk ∈ front ++ back, memory' chunk = memory chunk) :
      ListAlloc request memory memory' (front ++ iter :: back) (front ++ iter :: back)
  | take {front back : List Nat} {iter : Nat}
      (small : ∀ chunk ∈ front, memory chunk < request)
      (large : request ≤ memory iter) (tight : memory iter < request + headerSize)
      (kept : ∀ chunk ∈ front ++ back, memory' chunk = memory chunk) :
      ListAlloc request memory memory' (front ++ iter :: back) (front ++ back)

/-- `bf_alloc` changes the free list in one of the two ways. -/
theorem FirstFit.WellFormed.bfAlloc_list
    (wellFormed : WellFormed mpool low high memory blocks free) (fits : size + 11 < 2 ^ 32)
    (alloc : bfAlloc mpool size memory = some (pointer, memory')) (success : pointer ≠ 0) :
    ∃ free', (freeFormat mpool).Holds memory' free' ∧
      ListAlloc (requestSize size) memory memory' free free' := by
  obtain ⟨aligned, large, -, -⟩ := requestSize_spec fits
  obtain ⟨iter, search, first⟩ :
      ∃ iter, ffsSearch memory (requestSize size) addressWords (memory mpool) = some iter ∧
        FirstLarge memory (requestSize size) free iter :=
    wellFormed.toFrame.ffsSearch_eq
  have result := ffsAlloc_eq search
  rw [show FirstFit.ffsAlloc mpool size memory = some (pointer, memory') from alloc] at result
  cases first with
  | none small =>
      simp only [if_pos, Option.some.injEq, Prod.mk.injEq] at result
      exact absurd result.1 success
  | @found front back _ small enough =>
      obtain ⟨block, memBlock, rfl⟩ := wellFormed.listed iter (by simp)
      have unused := (wellFormed.listed_iff block memBlock).mp (by simp)
      have bounds := wellFormed.bounds memBlock
      have header := wellFormed.header_size memBlock unused
      obtain ⟨before, after, rfl⟩ := List.append_of_mem memBlock
      have header16 : headerSize = 16 := rfl
      have poolPos := wellFormed.pool_pos
      have poolAligned := wellFormed.pool_aligned
      rw [header] at enough
      have room : add32 (requestSize size) headerSize = requestSize size + headerSize :=
        add32_of_lt (by omega)
      have others : ∀ chunk ∈ front ++ back, ∃ other ∈ before ++ after,
          other.addr = chunk := by
        intro chunk mem
        obtain ⟨other, memOther, rfl⟩ := wellFormed.listed chunk (by
          simp only [List.mem_append, List.mem_cons] at mem ⊢
          tauto)
        have different : other ≠ block := by
          rintro rfl
          exact wellFormed.toFrame.removed_notMem mem
        exact ⟨other, by simpa [different] using memOther, rfl⟩
      rw [if_neg (by omega), room, header] at result
      have agree : ∀ {layout free'}, WellFormed mpool low high memory' layout free' →
          (∀ other ∈ before ++ after, other ∈ layout) →
          ∀ chunk ∈ front ++ back, memory' chunk = memory chunk := by
        intro layout free' wellFormed' kept chunk mem
        obtain ⟨other, memOther, rfl⟩ := others chunk mem
        have old : other ∈ before ++ block :: after := by
          simp only [List.mem_append, List.mem_cons] at memOther ⊢
          tauto
        rw [(wellFormed'.settled other (kept other memOther)).header,
          (wellFormed.settled other old).header]
      by_cases cuts : requestSize size + headerSize ≤ block.size
      · obtain ⟨-, cut, -⟩ := wellFormed.cut unused aligned large cuts
        simp only [if_pos cuts, Option.some.injEq, Prod.mk.injEq] at result
        rw [← result.2] at cut
        refine ⟨_, cut.list, .cut small (header.symm ▸ cuts) ?_ (agree cut ?_)⟩
        · have settled := cut.settled ⟨block.addr, block.size - requestSize size, false⟩ (by simp)
          rw [header]
          exact settled.header
        · intro other mem
          simp only [List.mem_append, List.mem_cons] at mem ⊢
          tauto
      · obtain ⟨take, -⟩ := wellFormed.take unused
        simp only [if_neg cuts, Option.some.injEq, Prod.mk.injEq] at result
        rw [← result.2] at take
        refine ⟨_, take.list, .take small (header.symm ▸ enough) (by omega) (agree take ?_)⟩
        intro other mem
        simp only [List.mem_append, List.mem_cons] at mem ⊢
        tauto

/-- A list splits in one way only into entries with a property and a first one
without it. -/
theorem split_unique {α : Type*} {holds : α → Prop} {front front' back back' : List α}
    {first first' : α} (same : front ++ first :: back = front' ++ first' :: back')
    (all : ∀ entry ∈ front, holds entry) (fails : ¬ holds first)
    (all' : ∀ entry ∈ front', holds entry) (fails' : ¬ holds first') :
    front = front' ∧ first = first' := by
  induction front generalizing front' with
  | nil =>
      cases front' with
      | nil => exact ⟨rfl, (List.cons.inj same).1⟩
      | cons entry front' =>
          obtain ⟨rfl, -⟩ := List.cons.inj same
          exact absurd (all' _ (by simp)) fails
  | cons entry front ih =>
      cases front' with
      | nil =>
          obtain ⟨rfl, -⟩ := List.cons.inj same
          exact absurd (all _ (by simp)) fails'
      | cons entry' front' =>
          obtain ⟨rfl, rest⟩ := List.cons.inj same
          obtain ⟨rfl, rfl⟩ := ih rest (fun e mem => all e (.tail _ mem))
            (fun e mem => all' e (.tail _ mem))
          exact ⟨rfl, rfl⟩

/-- Whenever the request lies between the sizes of two neighbours of the free
list and the larger one would be cut, the part that remains is not smaller than
the smaller one. -/
def BestFit.CutKeepsOrder (mpool size : Nat) (memory : Memory) : Prop :=
  ∀ front left right back,
    (freeFormat mpool).Holds memory (front ++ left :: right :: back) →
    memory left < requestSize size → requestSize size + headerSize ≤ memory right →
    memory left + requestSize size ≤ memory right

/-- The chunk found comes right after the chunks that are too small. -/
theorem BestFit.Ascending.neighbours {front' back' : List Nat} {left right request : Nat}
    (ascending : Ascending memory (front' ++ left :: right :: back'))
    (same : front ++ iter :: back = front' ++ left :: right :: back')
    (small : ∀ chunk ∈ front, memory chunk < request) (large : request ≤ memory iter)
    (leftSmall : memory left < request) (rightLarge : request ≤ memory right) :
    front = front' ++ [left] ∧ iter = right := by
  have before : ∀ chunk ∈ front' ++ [left], memory chunk < request := by
    intro chunk mem
    rcases List.mem_append.mp mem with inFront | isLeft
    · exact ((List.pairwise_append.mp ascending).2.2 chunk inFront left (by simp)).trans_lt
        leftSmall
    · obtain rfl := List.mem_singleton.mp isLeft
      exact leftSmall
  have same' : front ++ iter :: back = (front' ++ [left]) ++ right :: back' := by
    simpa using same
  exact split_unique same' small (by omega) before (by omega)

/-- An allocation from an ascending list leaves an ascending one exactly when
its cut keeps the order. -/
theorem BestFit.ListAlloc.ascending_iff {free' : List Nat}
    (alloc : ListAlloc (requestSize size) memory memory' free free')
    (list : (freeFormat mpool).Holds memory free) (ascending : Ascending memory free) :
    Ascending memory' free' ↔ CutKeepsOrder mpool size memory := by
  cases alloc with
  | @cut front back iter small room rest kept =>
      obtain ⟨ascendingFront, ascendingBack, across⟩ := List.pairwise_append.mp ascending
      obtain ⟨iterLe, ascendingRest⟩ := List.pairwise_cons.mp ascendingBack
      constructor
      · intro ascending' front' left right back' list' leftSmall rightLarge
        have same := list.unique list'
        have enough : requestSize size ≤ memory iter := by omega
        obtain ⟨rfl, rfl⟩ := (same ▸ ascending).neighbours same small enough leftSmall (by omega)
        have ordered := (List.pairwise_append.mp ascending').2.2 left (by simp) iter (by simp)
        rw [kept left (by simp), rest] at ordered
        omega
      · intro keeps
        refine List.pairwise_append.mpr ⟨?_, List.pairwise_cons.mpr ⟨?_, ?_⟩, ?_⟩
        · exact Ascending.congr ascendingFront fun chunk mem => kept chunk (by simp [mem])
        · intro other mem
          have := iterLe other mem
          rw [kept other (by simp [mem]), rest]
          omega
        · exact Ascending.congr ascendingRest fun chunk mem => kept chunk (by simp [mem])
        · intro chunk inFront other mem
          rw [kept chunk (by simp [inFront])]
          rcases List.mem_cons.mp mem with rfl | inBack
          · cases front using List.reverseRecOn with
            | nil => simp at inFront
            | append_singleton front left _ =>
                have list' : (freeFormat mpool).Holds memory (front ++ left :: other :: back) := by
                  simpa using list
                have remains := keeps front left other back list' (small left (by simp)) room
                rw [rest]
                rcases List.mem_append.mp inFront with inInit | isLeft
                · have := (List.pairwise_append.mp ascendingFront).2.2 chunk inInit left (by simp)
                  omega
                · obtain rfl := List.mem_singleton.mp isLeft
                  omega
          · rw [kept other (by simp [inBack])]
            exact across chunk inFront other (.tail _ inBack)
  | @take front back iter small large tight kept =>
      have removed : Ascending memory (front ++ back) := ascending.sublist (by simp)
      refine ⟨fun _ front' left right back' list' leftSmall rightLarge => ?_,
        fun _ => removed.congr kept⟩
      have same := list.unique list'
      obtain ⟨-, rfl⟩ := (same ▸ ascending).neighbours same small large leftSmall (by omega)
      omega

end Alloc

/-- One step of the client of a best-fit pool: it allocates under the given
condition, frees a block that it holds, or writes inside its blocks. -/
inductive BestFit.BestStep (mpool : Nat) (careful : Nat → Memory → Prop) :
    HeapState → HeapState → Prop
  | alloc {memory memory' : Memory} {live : List (Nat × Nat)} {size pointer : Nat}
      (fits : size + 11 < 2 ^ 32) (care : careful size memory)
      (result : bfAlloc mpool size memory = some (pointer, memory')) :
      BestStep mpool careful ⟨memory, live⟩
        ⟨memory', if pointer = 0 then live else (pointer, size) :: live⟩
  | free {memory memory' : Memory} {front back : List (Nat × Nat)} {pointer size : Nat}
      (result : bfFree mpool pointer memory = some memory') :
      BestStep mpool careful ⟨memory, front ++ (pointer, size) :: back⟩
        ⟨memory', front ++ back⟩
  | write {memory memory' : Memory} {live : List (Nat × Nat)}
      (outside : ∀ address, OutsideBlocks live address →
        memory' address = memory address) :
      BestStep mpool careful ⟨memory, live⟩ ⟨memory', live⟩

/-- `bf_alloc` of this size returns `NULL` when no free chunk is large enough,
and otherwise a block inside a smallest one of those that are. -/
def BestFit.BestChoice (mpool request : Nat) (memory : Memory) (free : List Nat) : Prop :=
  ∃ pointer memory', bfAlloc mpool request memory = some (pointer, memory') ∧
    ((pointer = 0 ∧ ∀ chunk ∈ free, memory chunk < requestSize request) ∨
      ∃ iter ∈ free, requestSize request ≤ memory iter ∧
        (∀ other ∈ free, requestSize request ≤ memory other → memory iter ≤ memory other) ∧
        iter + sizeT ≤ pointer ∧ pointer + request + sizeT ≤ iter + memory iter)

/-- A well-formed pool whose free list ascends, so that every allocation is a
best fit, and whose blocks can be freed. -/
structure BestFit.PoolInOrder (mpool high : Nat) (memory : Memory) (live : List (Nat × Nat))
    (chunks free : List Nat) : Prop
    extends PoolInvariant mpool high memory live chunks free where
  ascending : Ascending memory free
  best : ∀ request, request + 11 < 2 ^ 32 → BestChoice mpool request memory free
  frees : ∀ held ∈ live, (bfFree mpool held.1 memory).isSome

/-- The invariant of a run whose allocations keep the order. -/
def BestFit.SoundInOrder (mpool high : Nat) (state : HeapState) : Prop :=
  ∃ blocks free, WellFormed mpool (mpool + sizeT) high state.memory blocks free ∧
    Holdings blocks state.live ∧ Ascending state.memory free

section Runs

variable {live : List (Nat × Nat)} {state state' : HeapState}

/-- An allocation that returns `NULL` found no chunk that is large enough, and
changed nothing. -/
theorem FirstFit.WellFormed.bfAlloc_null
    (wellFormed : WellFormed mpool low high memory blocks free) (fits : size + 11 < 2 ^ 32)
    (alloc : bfAlloc mpool size memory = some (0, memory')) :
    memory' = memory ∧ ∀ chunk ∈ free, memory chunk < requestSize size := by
  rcases wellFormed.ffsAlloc fits with ⟨none, small⟩ |
    ⟨taken, memory'', blocks', free', found, -, -, -, -, -⟩
  · rw [show FirstFit.ffsAlloc mpool size memory = some (0, memory') from alloc] at none
    refine ⟨by simpa using none, fun chunk mem => ?_⟩
    obtain ⟨block, member, rfl⟩ := wellFormed.listed chunk mem
    have unused := (wellFormed.listed_iff block member).mp mem
    rw [wellFormed.header_size member unused]
    exact small block member unused
  · rw [show FirstFit.ffsAlloc mpool size memory = some (0, memory') from alloc] at found
    simp [sizeT] at found

/-- After an allocation from an ascending list the list ascends again exactly
when the allocation keeps the order. -/
theorem FirstFit.WellFormed.bfAlloc_ascending_iff
    (wellFormed : WellFormed mpool low high memory blocks free) (fits : size + 11 < 2 ^ 32)
    (alloc : bfAlloc mpool size memory = some (pointer, memory'))
    (ascending : Ascending memory free) :
    (∃ free', (freeFormat mpool).Holds memory' free' ∧ Ascending memory' free') ↔
      CutKeepsOrder mpool size memory := by
  by_cases success : pointer = 0
  · subst success
    obtain ⟨rfl, small⟩ := wellFormed.bfAlloc_null fits alloc
    refine ⟨fun _ front left right back list _ rightLarge => ?_,
      fun _ => ⟨free, wellFormed.list, ascending⟩⟩
    have := small right (wellFormed.list.unique list ▸ by simp)
    omega
  · obtain ⟨free', list, change⟩ := wellFormed.bfAlloc_list fits alloc success
    rw [← change.ascending_iff wellFormed.list ascending]
    constructor
    · rintro ⟨other, list', ascending'⟩
      rwa [list.unique list']
    · exact fun ascending' => ⟨free', list, ascending'⟩

/-- In an ascending list the first chunk that is large enough is a smallest
one. -/
theorem FirstFit.WellFormed.bestChoice
    (wellFormed : WellFormed mpool low high memory blocks free) (fits : size + 11 < 2 ^ 32)
    (ascending : Ascending memory free) : BestChoice mpool size memory free := by
  have room := (requestSize_spec fits).2.2.1
  rcases wellFormed.ffsAlloc fits with ⟨none, -⟩ |
    ⟨taken, memory', blocks', free', found, large, -, -, ⟨iter, mem, first, place⟩, -⟩
  · exact ⟨0, memory, none, .inl ⟨rfl, (wellFormed.bfAlloc_null fits none).2⟩⟩
  · refine ⟨_, memory', found, .inr ⟨iter, mem, ?_⟩⟩
    have size4 : sizeT = 4 := rfl
    have finish : taken.addr + taken.size = iter + memory iter := place.finish
    have start := place.start
    cases first with
    | none small =>
        exact absurd rfl (wellFormed.list.ne_zero mem)
    | @found front back _ small enough =>
        refine ⟨enough, fun other memOther largeOther => ?_, by omega, by omega⟩
        have after := (List.pairwise_cons.mp (List.pairwise_append.mp ascending).2.1).1
        rcases List.mem_append.mp memOther with inFront | inBack
        · exact absurd (small other inFront) (by omega)
        · rcases List.mem_cons.mp inBack with rfl | inBack
          · exact le_rfl
          · exact after other inBack

/-- Every step whose allocation keeps the order keeps the invariant. -/
theorem BestFit.SoundInOrder.step (sound : SoundInOrder mpool high state)
    (step : BestStep mpool (CutKeepsOrder mpool) state state') :
    SoundInOrder mpool high state' := by
  obtain ⟨blocks, free, wellFormed, holdings, ascending⟩ := sound
  cases step with
  | @alloc memory memory' live size pointer fits care result =>
      obtain ⟨listAfter, holdsAfter, ascending'⟩ :=
        (wellFormed.bfAlloc_ascending_iff fits result ascending).mpr care
      rcases wellFormed.ffsAlloc fits with ⟨none, -⟩ |
        ⟨taken, memory'', blocks', free', found, room, grants, wellFormed', -⟩
      · obtain ⟨rfl, rfl⟩ : pointer = 0 ∧ memory' = memory := by
          simpa using result.symm.trans none
        exact ⟨blocks, free, wellFormed, by simpa using holdings, ascending⟩
      · obtain ⟨rfl, rfl⟩ : pointer = taken.addr + sizeT ∧ memory' = memory'' := by
          simpa using result.symm.trans found
        have nonzero : taken.addr + sizeT ≠ 0 := by simp [sizeT]
        have enough : size + 2 * sizeT ≤ taken.size :=
          (requestSize_spec fits).2.2.1.trans room
        refine ⟨blocks', free', wellFormed', ?_, wellFormed'.list.unique holdsAfter ▸ ascending'⟩
        simp only [if_neg nonzero]
        exact holdings.grant grants wellFormed'.toFrame enough
  | @free memory memory' front back pointer size result =>
      obtain ⟨block, mem, used, start, -⟩ := holdings.backed (pointer, size) (by simp)
      obtain ⟨before, after, rfl⟩ := List.append_of_mem mem
      obtain rfl : pointer = block.addr + sizeT := start
      obtain ⟨free', memory'', freed, wellFormed', ascending'⟩ := wellFormed.bfFree used
      obtain rfl : memory' = memory'' := by simpa using result.symm.trans freed
      exact ⟨_, free', wellFormed', holdings.release wellFormed.toFrame, ascending'⟩
  | @write memory memory' live outside =>
      have wellFormed' := wellFormed.write holdings outside
      refine ⟨blocks, free, wellFormed', holdings, ascending.congr fun chunk mem => ?_⟩
      obtain ⟨block, member, rfl⟩ := wellFormed.listed chunk mem
      have unused := (wellFormed.listed_iff block member).mp mem
      exact (wellFormed'.header_size member unused).trans
        (wellFormed.header_size member unused).symm

theorem BestFit.SoundInOrder.run (sound : SoundInOrder mpool high state)
    (run : Relation.ReflTransGen (BestStep mpool (CutKeepsOrder mpool)) state state') :
    SoundInOrder mpool high state' := by
  induction run with
  | refl => exact sound
  | tail _ step ih => exact ih.step step

theorem BestFit.SoundInOrder.pool (sound : SoundInOrder mpool high state) :
    ∃ chunks free, PoolInOrder mpool high state.memory state.live chunks free := by
  obtain ⟨blocks, free, wellFormed, holdings, ascending⟩ := sound
  refine ⟨_, free, { wellFormed.poolInvariant holdings with
    ascending := ascending
    best := fun request fits => wellFormed.bestChoice fits ascending
    frees := fun held mem => ?_ }⟩
  obtain ⟨block, member, used, start, -⟩ := holdings.backed held mem
  obtain ⟨before, after, rfl⟩ := List.append_of_mem member
  obtain ⟨free', memory', freed, -⟩ := wellFormed.bfFree used
  rw [start, freed]
  rfl

private theorem alloc_of_pointer {alloc : Option (Nat × Memory)}
    (returns : alloc.map Prod.fst = some pointer) :
    ∃ stored, alloc = some (pointer, stored) ∧
      stored = (alloc.getD (0, fun _ => 0)).2 := by
  obtain ⟨⟨_, stored⟩, rfl, rfl⟩ := Option.map_eq_some_iff.mp returns
  exact ⟨stored, rfl, rfl⟩

end Runs

end Oseer
