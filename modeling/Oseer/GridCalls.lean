import Oseer.GridStart

/-!
# Insertions into the grid

`get_indexes` is called for an insertion when a chunk is put into its list, and when the last
chunk of a list is taken out.  This file collects these calls, with the size and the memory that
they are made with, and shows that they stay in the grid.
-/

namespace Oseer.Grid

open WordMemory Bitmap Tiling

/-- A call of `get_indexes` for an insertion. -/
structure Insertion where
  size : Nat
  memory : Memory

/-- The calculated indexes are those of a list: no shift count is negative, and no index is out
of range. -/
def Insertion.InRange (insertion : Insertion) (pool : Pool) : Prop :=
  logSLDim ≤ msbIndex insertion.size ∧ pool.flMin ≤ msbIndex insertion.size ∧
    ∃ fl sl, getIndexes pool.mpool insertion.size true insertion.memory = ⟨false, fl, sl⟩ ∧
      fl < pool.levels ∧ sl < slDim

section Collection

/-- The call of `remove_chunk_from_free_list`. -/
def removeInsertions (chunk : Nat) (memory : Memory) : List Insertion :=
  let removed := removeChunkFromList chunk memory
  if removed.1 ≠ 0 then [⟨getChunkSize chunk removed.2, removed.2⟩] else []

/-- The call of `insert_chunk_in_free_list`. -/
def insertInsertions (chunk : Nat) (memory : Memory) : List Insertion :=
  [⟨getChunkSize chunk memory, memory⟩]

/-- The calls of `gma_free` for the chunk before. -/
def joinBeforeInsertions (chunk : Nat) (memory : Memory) : List Insertion :=
  let before := getChunkBefore chunk memory
  if before ≠ 0 ∧ getChunkInuse before memory = 0 then removeInsertions before memory else []

/-- The calls of `gma_free` for the chunk after. -/
def joinAfterInsertions (chunk : Nat) (memory : Memory) : List Insertion :=
  let after := getChunkAfter chunk memory
  if after ≠ 0 ∧ getChunkInuse after memory = 0 then removeInsertions after memory else []

/-- The calls of `gma_free`. -/
def gmaFreeInsertions (pool mpool address : Nat) (memory : Memory) : List Insertion :=
  let chunk := sub32 address (2 * sizeT)
  let mpool := poolOf pool mpool
  let memory := clearChunkInuse chunk memory
  let joined := joinBefore mpool chunk memory
  joinBeforeInsertions chunk memory ++ joinAfterInsertions joined.1 joined.2 ++
    insertInsertions joined.1 (joinAfter mpool joined.1 joined.2)

/-- The call of `gma_alloc` for the end of a chunk that it splits. -/
def allocSplitInsertions (mpool chunk size : Nat) (memory : Memory) : List Insertion :=
  if add32 size (memory (mpool + minChunkField)) ≤ getChunkSize chunk memory then
    let split := splitChunkAt chunk size memory
    insertInsertions split.1 split.2
  else []

/-- The calls of `gma_alloc`, but for that of `remove_first_chunk_from_free_list`, which has its
indexes. -/
def gmaAllocInsertions (pool mpool size : Nat) (memory : Memory) : List Insertion :=
  let mpool := poolOf pool mpool
  let size := requestSize mpool size memory
  let indexes := getIndexes mpool size false memory
  if indexes.failed then []
  else
    let taken := removeFirstChunkFromFreeList mpool indexes.fl indexes.sl memory
    if taken.1 = 0 then [] else allocSplitInsertions mpool taken.1 size taken.2

/-- The calls of `gma_init`, all in `gma_free` of the first chunk. -/
def gmaInitInsertions (pool segment size minChunk : Nat) (newMpool : Bool) (memory : Memory) :
    List Insertion :=
  match gmaPrepare pool segment size minChunk newMpool memory with
  | some first =>
      gmaFreeInsertions pool (layout pool segment size minChunk newMpool).mpool first.1 first.2
  | none => []

end Collection

namespace Pool

variable {pool : Pool} {memory memory' : Memory} {lists : ChunkLists}
  {blocks known before after : List Block} {block chunk : Block} {size request : Nat}

section Range

theorem Described.inRange (described : pool.Described memory) (sized : pool.Sized size) :
    Insertion.InRange ⟨size, memory⟩ pool :=
  ⟨sized.wide, sized.2.1, _, _, described.getIndexes sized, sized.inGrid⟩

/-- A chunk that is taken out of its list. -/
theorem Body.removeInsertions (body : pool.Body memory blocks known lists)
    (mem : chunk ∈ known) (free : chunk.used = false)
    (own : ∃ flag, memory (chunk.addr + sizeField) = tagged chunk.size false flag) :
    ∀ insertion ∈ removeInsertions chunk.addr memory, insertion.InRange pool := by
  have sized := body.sized (body.member chunk mem)
  obtain ⟨⟨front, back, shape⟩, sizeIs, notLink⟩ := body.listed mem free own
  obtain ⟨described, sizeKept⟩ :=
    body.indexed.removeChunkFromList body.spread sized.inGrid shape sizeIs notLink
  intro insertion isMember
  unfold Grid.removeInsertions at isMember
  dsimp only at isMember
  split at isMember
  · obtain rfl := List.mem_singleton.mp isMember
    rw [sizeKept]
    exact described.inRange sized
  · exact absurd isMember List.not_mem_nil

theorem Body.insertInsertions (body : pool.Body memory blocks known lists)
    (mem : chunk ∈ blocks)
    (own : ∃ used flag, memory (chunk.addr + sizeField) = tagged chunk.size used flag) :
    ∀ insertion ∈ insertInsertions chunk.addr memory, insertion.InRange pool := by
  obtain ⟨used, flag, own⟩ := own
  intro insertion isMember
  obtain rfl := List.mem_singleton.mp isMember
  rw [getChunkSize_tagged own (body.legal chunk mem).1 (body.fits mem)]
  exact body.indexed.described.inRange (body.sized mem)

theorem Loose.joinBeforeInsertions (loose : pool.Loose memory before chunk after) :
    ∀ insertion ∈ joinBeforeInsertions chunk.addr memory, insertion.InRange pool := by
  obtain ⟨lists, body⟩ := loose.body
  intro insertion isMember
  unfold Grid.joinBeforeInsertions at isMember
  dsimp only at isMember
  rcases loose.before_cases with ⟨noBefore, -⟩ |
    ⟨init, last, rfl, status, isBefore, nonzero, isFree, lastOwn⟩
  · rw [noBefore, if_neg (by simp)] at isMember
    exact absurd isMember List.not_mem_nil
  · rw [isBefore, if_pos ⟨nonzero, isFree⟩] at isMember
    exact body.removeInsertions (by simp) status ⟨_, lastOwn⟩ insertion isMember

theorem Loose.joinAfterInsertions (loose : pool.Loose memory before chunk after) :
    ∀ insertion ∈ joinAfterInsertions chunk.addr memory, insertion.InRange pool := by
  obtain ⟨lists, body⟩ := loose.body
  intro insertion isMember
  unfold Grid.joinAfterInsertions at isMember
  dsimp only at isMember
  rcases loose.after_cases with ⟨notFree, -⟩ |
    ⟨first, rest, flag, rfl, status, isAfter, nonzero, isFree, firstOwn⟩
  · rw [if_neg fun joins => notFree joins.2] at isMember
    exact absurd isMember List.not_mem_nil
  · rw [isAfter, if_pos ⟨nonzero, isFree⟩] at isMember
    exact body.removeInsertions (by simp) status ⟨_, firstOwn⟩ insertion isMember

theorem Loose.insertInsertions (loose : pool.Loose memory before chunk after) :
    ∀ insertion ∈ insertInsertions chunk.addr memory, insertion.InRange pool := by
  obtain ⟨lists, body⟩ := loose.body
  exact body.insertInsertions (by simp) ⟨_, _, loose.own⟩

/-- All insertions of `gma_free` are in range. -/
theorem WellFormed.gmaFreeInsertions {static mpool : Nat}
    (wellFormed : pool.WellFormed memory (before ++ chunk :: after) lists)
    (inUse : chunk.used = true) (descriptor : poolOf static mpool = pool.mpool) :
    ∀ insertion ∈ gmaFreeInsertions static mpool (chunk.addr + 2 * sizeT) memory,
      insertion.InRange pool := by
  have loose := wellFormed.clear inUse
  obtain ⟨joinedAddr, joined⟩ := loose.joinBefore
  obtain ⟨sameAddr, joined'⟩ := joined.joinAfter
  intro insertion isMember
  unfold Grid.gmaFreeInsertions at isMember
  dsimp only at isMember joinedAddr
  rw [(wellFormed.freeable inUse).1, descriptor, joinedAddr] at isMember
  rcases List.mem_append.mp isMember with isJoin | isInsert
  · rcases List.mem_append.mp isJoin with isBefore | isAfter
    · exact loose.joinBeforeInsertions insertion isBefore
    · exact joined.joinAfterInsertions insertion isAfter
  · have inserted := joined'.insertInsertions
    rw [sameAddr] at inserted
    exact inserted insertion isInsert

/-- All insertions of `gma_alloc` are in range. -/
theorem WellFormed.gmaAllocInsertions {static mpool : Nat}
    (wellFormed : pool.WellFormed memory blocks lists)
    (descriptor : poolOf static mpool = pool.mpool) (noWrap : pool.NoWrap request)
    (aligned : 4 ∣ pool.needed request) :
    ∀ insertion ∈ gmaAllocInsertions static mpool request memory, insertion.InRange pool := by
  intro insertion isMember
  unfold Grid.gmaAllocInsertions at isMember
  dsimp only at isMember
  rw [descriptor, wellFormed.body.indexed.described.requestSize noWrap.header] at isMember
  rcases wellFormed.search noWrap with ⟨fails, -⟩ |
    ⟨place, before, chunk, after, found, rfl, free, enough, isFirst, loose⟩
  · rw [if_pos fails] at isMember
    exact absurd isMember List.not_mem_nil
  · obtain ⟨lists', body⟩ := loose.body
    have inBlocks : chunk ∈ before ++ chunk :: after := by simp
    have bounds := body.bounds inBlocks
    have high := pool.high_le
    have positive := @low_pos pool
    have ownSize := getChunkSize_tagged loose.own (body.legal chunk inBlocks).1
      (body.fits inBlocks)
    rw [found] at isMember
    dsimp only at isMember
    rw [isFirst, if_neg Bool.false_ne_true, if_neg (by omega)] at isMember
    unfold allocSplitInsertions at isMember
    dsimp only at isMember
    rw [body.indexed.described.minChunk, add32_of_lt noWrap.splitting, ownSize] at isMember
    split at isMember
    · rename_i room
      generalize firstIs : (⟨chunk.addr, pool.needed request, false⟩ : Block) = first
      generalize nextIs : (⟨chunk.addr + pool.needed request,
        chunk.size - pool.needed request, false⟩ : Block) = next
      have firstSize : first.size = pool.needed request := firstIs ▸ rfl
      have nextAddr : next.addr = chunk.addr + pool.needed request := nextIs ▸ rfl
      have ends : next.limit = chunk.limit := by
        rw [← nextIs]
        unfold Block.limit
        dsimp only
        omega
      have firstAligned : 4 ∣ first.size := firstSize ▸ aligned
      have firstLarge : pool.least ≤ first.size := firstSize ▸ noWrap.least_le
      have firstRoom : first.size + pool.least ≤ chunk.size := by
        rw [firstSize, noWrap.least_eq]
        exact room
      have nextAt : next.addr = first.limit := by
        rw [nextAddr, ← firstIs]
        rfl
      obtain ⟨lists'', flag, split, marks, -⟩ := loose.split_words firstAligned firstLarge
        firstRoom (firstIs ▸ rfl) nextAt ends (firstIs ▸ rfl) (nextIs ▸ rfl)
      have isEnd : (splitChunkAt chunk.addr (pool.needed request)
          (removeFirstChunkFromFreeList pool.mpool place.1 place.2 memory).2).1 = next.addr := by
        rw [nextAddr]
        exact add32_of_lt (by omega)
      rw [firstSize] at split marks
      rw [isEnd] at isMember
      obtain ⟨-, -, own, -⟩ := marks_split.mp marks
      exact split.insertInsertions (by simp) ⟨_, _, own⟩ insertion isMember
    · exact absurd isMember List.not_mem_nil

end Range

end Pool

end Oseer.Grid
