import Oseer.GridRuns

/-!
# The invariant of the grid allocator

In every run of requests that do not wrap, the chunks of a pool are well formed and those in use
are the blocks of the client.  In a pool of almost four gigabytes a request can be so large that
the sum of its size and the least size wraps; then a chunk is cut behind its end.
-/

namespace Oseer.Grid

open WordMemory Bitmap Tiling

variable {static segment size : Nat} {newMpool : Bool} {memory : Memory}

/-- A pool with the default least size that starts with nothing in the bitmap of the levels is
well formed in every state of a run, and its chunks in use are the blocks of the client. -/
theorem grid_invariant (placed : Placed static segment size defMinChunkSize newMpool)
    (empty : memory (placed.pool.mpool + flBitmapField) = 0) :
    ∃ memory', gmaInit static segment size defMinChunkSize newMpool memory =
        some (placed.pool.mpool, memory') ∧
      ∀ state, Relation.ReflTransGen
        (GridStep static placed.pool.mpool placed.pool.Fits)
        ⟨memory', [], gmaInitInsertions static segment size defMinChunkSize newMpool memory⟩
        state →
        ∃ blocks lists, placed.pool.WellFormed state.memory blocks lists ∧
          Holdings blocks state.live := by
  have descriptor : poolOf static placed.pool.mpool = placed.pool.mpool :=
    (placed.descriptor rfl).2.2
  have aligned : 4 ∣ placed.pool.minChunk := by
    change 4 ∣ usedMinChunkSize defMinChunkSize
    decide
  obtain ⟨memory', started, sound⟩ := placed.gmaInit_sound empty
  exact ⟨memory', started, fun state run => (sound.run descriptor aligned run).layout⟩

theorem grid_invariant_page :
    ∃ memory', gmaInit 1024 4096 2048 defMinChunkSize false zeros =
        some (page_placed.pool.mpool, memory') ∧
      ∀ state, Relation.ReflTransGen
        (GridStep 1024 page_placed.pool.mpool page_placed.pool.Fits)
        ⟨memory', [], gmaInitInsertions 1024 4096 2048 defMinChunkSize false zeros⟩ state →
        ∃ blocks lists, page_placed.pool.WellFormed state.memory blocks lists ∧
          Holdings blocks state.live :=
  grid_invariant page_placed rfl

section Wide

theorem wide_placed : Placed 0 4 (2 ^ 32 - 8) defMinChunkSize true :=
  ⟨by decide, by decide, by decide, nofun, nofun⟩

/-- The cut of the first chunk behind its end. -/
theorem split_wide {memory : Memory} (own : memory 3596 = 4294963693) :
    (splitChunkAt 3592 4294967264 memory) = (3560, 
      ((memory.write 3564 0).write 3564 4294963724).write 3596 4294967265) := by
  have size : getChunkSize 3592 (memory.write 3564 0) = 4294963692 := by
    unfold getChunkSize sizeField
    rw [write_other (by decide), own]
    decide
  unfold splitChunkAt
  have rem : add32 3592 4294967264 = 3560 := by decide
  dsimp only
  rw [rem]
  unfold sizeField
  dsimp only [Nat.reduceAdd]
  rw [size]
  unfold setChunkSize sizeField
  dsimp only [Nat.reduceAdd]
  rw [write_same, write_other (by decide), write_other (by decide), own]
  rfl

/-- The remainder covers the end of the table, and the first chunk keeps its size word. -/
theorem insert_wide {memory : Memory} (flMin : memory 4 = 5) (flMax : memory 8 = 31)
    (rows : memory 20 = 28) (table : memory 24 = 136) (empty : memory 3588 = 0)
    (own : memory 3564 = 4294963724) :
    insertChunkInFreeList 4 3560 memory 3596 = memory 3596 := by
  have size : getChunkSize 3560 memory = 4294963724 := by
    unfold getChunkSize sizeField
    rw [own]
    decide
  have place : getIndexes 4 4294963724 true memory = ⟨false, 26, 31⟩ := by
    unfold getIndexes flMaxField
    dsimp only
    rw [flMin, flMax, if_pos rfl, if_neg (by decide), if_pos rfl]
    decide
  have list : listAt 4 26 31 memory = 3588 := by
    unfold listAt chunkField
    rw [table]
    decide
  have linked : linkChunk 3588 3560 memory =
      (((memory.write 3572 0).write 3588 3560).write 3568 3588).write 3568 3589 := by
    unfold linkChunk nextField prevField setChunkFirstInList prevField
    dsimp only [Nat.reduceAdd]
    rw [empty, write_other (by decide), empty, if_neg (by decide), write_same]
    rfl
  have cleared : clearChunkInuse 3560 (linkChunk 3588 3560 memory) =
      (linkChunk 3588 3560 memory).write 3564 4294963724 := by
    unfold clearChunkInuse sizeField
    dsimp only [Nat.reduceAdd]
    rw [linked, write_other (by decide), write_other (by decide), write_other (by decide),
      write_other (by decide), own]
    rfl
  have after : ∀ memory' : Memory, memory' 3564 = 4294963724 →
      getChunkAfter 3560 memory' = 4294967284 := by
    intro memory' same
    unfold getChunkAfter getChunkSize sizeField
    dsimp only [Nat.reduceAdd]
    rw [same]
    decide
  have inserted : ∃ value value', insertChunkInList 3588 3560 memory =
      ((((((memory.write 3572 0).write 3588 3560).write 3568 3588).write 3568 3589).write 3564
        4294963724).write 4294967284 value).write 4294967288 value' := by
    unfold insertChunkInList
    dsimp only
    rw [cleared, linked]
    unfold cloneChunkSize clearChunkBinuse sizeField
    rw [after _ write_same, after _ ((write_other (by decide)).trans write_same)]
    exact ⟨_, _, rfl⟩
  obtain ⟨value, value', inserted⟩ := inserted
  unfold insertChunkInFreeList
  rw [size, place, list, inserted]
  unfold setListHaveChunks slBitmapAt flBitmapField slBitmapField
  dsimp only [Nat.reduceAdd]
  rw [write_other (by decide), write_other ?_]
  · rw [write_other (by decide), write_other (by decide), write_other (by decide),
      write_other (by decide), write_other (by decide), write_other (by decide),
      write_other (by decide)]
  · rw [write_other (by decide), write_other (by decide), write_other (by decide),
      write_other (by decide), write_other (by decide), write_other (by decide),
      write_other (by decide), rows]
    decide

/-- The first chunk has a size beyond its area after it was given out. -/
theorem alloc_wide {memory : Memory} (described : wide_placed.pool.Described memory)
    (empty : memory 3588 = 0) (own : memory 3596 = 4294963693) :
    ∃ memory', allocSplit 4 3592 4294967264 memory = some memory' ∧
      getChunkSize 3592 (setChunkInUse 3592 memory') = 4294967264 := by
  have least : memory (4 + minChunkField) = 32 := described.minChunk
  have size : getChunkSize 3592 memory = 4294963692 := by
    unfold getChunkSize sizeField
    rw [own]
    decide
  have flMin : memory 4 = 5 := described.flMin
  have flMax : memory 8 = 31 := described.flMax
  have rows : memory 20 = 28 := described.rows
  have table : memory 24 = 136 := described.table
  generalize splitIs : (splitChunkAt 3592 4294967264 memory).2 = split
  have words : split = ((memory.write 3564 0).write 3564 4294963724).write 3596 4294967265 := by
    rw [← splitIs, split_wide own]
  have kept : ∀ address, address ≠ 3564 → address ≠ 3596 → split address = memory address := by
    intro address notRemainder notChunk
    rw [words, write_other notChunk, write_other notRemainder, write_other notRemainder]
  have inserted := insert_wide ((kept 4 (by decide) (by decide)).trans flMin)
    ((kept 8 (by decide) (by decide)).trans flMax)
    ((kept 20 (by decide) (by decide)).trans rows)
    ((kept 24 (by decide) (by decide)).trans table)
    ((kept 3588 (by decide) (by decide)).trans empty)
    (by rw [words, write_other (by decide), write_same])
  refine ⟨insertChunkInFreeList 4 3560 split, ?_, ?_⟩
  · unfold allocSplit
    dsimp only
    rw [least, size, if_pos (by decide), splitIs, split_wide own]
    exact if_pos ⟨by decide, (by decide : 4 ∣ 3560)⟩
  · have word : insertChunkInFreeList 4 3560 split 3596 = 4294967265 := by
      rw [inserted, words, write_same]
    unfold setChunkInUse setChunkInuse sizeField
    dsimp only [Nat.reduceAdd]
    rw [word]
    have after : getChunkAfter 3592 ((insertChunkInFreeList 4 3560 split).write 3596
        (4294967265 ||| cinuse)) = 3560 := by
      unfold getChunkAfter getChunkSize sizeField
      rw [write_same]
      decide
    rw [after]
    unfold getChunkSize setChunkBinuse sizeField
    rw [write_other (by decide), write_same]
    decide

/-- The first chunk has a size within the area. -/
theorem Pool.WellFormed.first_le {pool : Pool} {blocks : List Block} {lists : ChunkLists}
    (wellFormed : pool.WellFormed memory blocks lists) (nonempty : pool.low < pool.high) :
    getChunkSize pool.low memory ≤ pool.high - pool.low := by
  obtain ⟨body, marks, -⟩ := wellFormed
  cases blocks with
  | nil =>
      have empty : pool.low = pool.high := body.tiles
      omega
  | cons first rest =>
      have mem : first ∈ first :: rest := List.mem_cons_self
      have start : first.addr = pool.low := body.tiles.1
      have bounds := body.bounds mem
      rw [← start, getChunkSize_tagged marks.1 (body.legal first mem).1 (body.fits mem)]
      omega

/-- The request is served by a chunk that is cut behind its end. -/
theorem gmaAlloc_wide {memory : Memory} {lists : ChunkLists}
    (wellFormed : wide_placed.pool.WellFormed memory [wide_placed.pool.whole] lists) :
    ∃ memory', gmaAlloc 0 wide_placed.pool.mpool 4294967260 memory = some (3600, memory') ∧
      getChunkSize 3592 memory' = 4294967264 := by
  have noWrap : wide_placed.pool.NoWrap 66060252 := ⟨by decide, by decide, by decide, by decide⟩
  have described := wellFormed.body.indexed.described
  have descriptor : poolOf 0 wide_placed.pool.mpool = wide_placed.pool.mpool :=
    (wide_placed.descriptor rfl).2.2
  have request : requestSize wide_placed.pool.mpool 4294967260 memory = 4294967264 :=
    described.requestSize (by decide)
  -- the size that is looked for wraps to that of the smaller request
  have sameSearch : getIndexes wide_placed.pool.mpool 4294967264 false memory =
      getIndexes wide_placed.pool.mpool (wide_placed.pool.needed 66060252) false memory := by
    have same : searchSize 4294967264 = searchSize (wide_placed.pool.needed 66060252) := by
      decide
    unfold getIndexes
    rw [if_neg Bool.false_ne_true, if_neg Bool.false_ne_true, same]
  rcases wellFormed.search noWrap with ⟨-, none⟩ |
    ⟨place, before, chunk, after, found, isSplit, -, -, isFirst, loose⟩
  · exact absurd (none wide_placed.pool.whole (by simp) rfl) (by decide)
  · obtain ⟨rfl, isWhole⟩ | ⟨-, isWhole⟩ := List.append_eq_singleton_iff.mp isSplit.symm
    · obtain ⟨rfl, rfl⟩ := List.cons.inj isWhole
      have loose' := loose
      obtain ⟨⟨lists', body⟩, -, -, own, -⟩ := loose'
      generalize takenIs : removeFirstChunkFromFreeList wide_placed.pool.mpool place.1 place.2
        memory = taken at isFirst own body
      have inGrid : wide_placed.pool.InGrid (26, 31) := ⟨by decide, by decide⟩
      have noNodes : lists' (26, 31) = [] := by
        apply List.eq_nil_iff_forall_not_mem.mpr
        intro node mem
        obtain ⟨block, inBlocks, -⟩ := (body.placed _ node).mp mem
        exact absurd inBlocks List.not_mem_nil
      have empty : taken.2 3588 = 0 := by
        have holds := (body.indexed.links (26, 31) inGrid).head
        rw [noNodes] at holds
        exact holds
      obtain ⟨memory', split, size⟩ := alloc_wide body.indexed.described empty own
      refine ⟨setChunkInUse 3592 memory', ?_, size⟩
      have isChunk : taken.1 = 3592 := isFirst
      unfold gmaAlloc
      dsimp only
      rw [if_pos ⟨by decide, by decide⟩, descriptor, request, sameSearch, found]
      dsimp only
      rw [takenIs, isChunk, if_neg Bool.false_ne_true, if_neg (by decide), if_pos (by decide)]
      change (allocSplit 4 3592 4294967264 taken.2 >>= _) = _
      rw [split]
      rfl
    · cases isWhole

/-- A request of almost the size of the pool: the rounded size that is looked for wraps to that of
a smaller request, and the first chunk is found for it. -/
theorem grid_invariant_fail : ¬ ∀ (static segment size : Nat) (newMpool : Bool) (memory : Memory)
    (placed : Placed static segment size defMinChunkSize newMpool),
    memory (placed.pool.mpool + flBitmapField) = 0 →
    ∃ memory', gmaInit static segment size defMinChunkSize newMpool memory =
        some (placed.pool.mpool, memory') ∧
      ∀ state, Relation.ReflTransGen
        (GridStep static placed.pool.mpool fun request => 0 < request ∧ request ≤ size)
        ⟨memory', [], gmaInitInsertions static segment size defMinChunkSize newMpool memory⟩
        state →
        ∃ blocks lists, placed.pool.WellFormed state.memory blocks lists ∧
          Holdings blocks state.live := by
  intro claim
  obtain ⟨memory, started, runs⟩ := claim 0 4 (2 ^ 32 - 8) true zeros wide_placed rfl
  obtain ⟨memory', lists, started', wellFormed⟩ :=
    @Placed.gmaInit_wellFormed _ _ _ _ _ zeros wide_placed rfl
  obtain rfl : memory' = memory :=
    (Prod.mk.inj (Option.some.inj (started'.symm.trans started))).2
  obtain ⟨memory'', allocated, size⟩ := gmaAlloc_wide wellFormed
  obtain ⟨blocks, lists', wellFormed', -⟩ :=
    runs _ (.single (.alloc ⟨by decide, by decide⟩ allocated))
  have within := wellFormed'.first_le (by decide)
  have isLow : wide_placed.pool.low = 3592 := by decide
  rw [isLow, size] at within
  exact absurd within (by decide)

end Wide

end Oseer.Grid
