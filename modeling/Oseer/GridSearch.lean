import Oseer.GridStart

/-!
# What the grid allocator finds

A search starts at the list for a size that is rounded up, so that every chunk it comes to is
large enough, and it misses a chunk only if that is smaller than the rounded size.  This needs
sums that do not wrap; a request whose sums wrap gets a chunk for a smaller size.
-/

namespace Oseer.Grid

open WordMemory Bitmap Tiling SizeClasses

namespace Pool

variable {pool : Pool} {memory memory' : Memory} {lists : ChunkLists}
  {blocks before after : List Block} {block chunk : Block} {static mpool size request : Nat}

section Search

/-- Whatever the bitmaps are, a search ends at a list for larger sizes. -/
theorem Described.getIndexes_upto {fl sl : Nat} (described : pool.Described memory)
    (words : ∀ address, memory address < 2 ^ 32) (least : pool.least ≤ size)
    (fits : sought size < 2 ^ 32)
    (found : Grid.getIndexes pool.mpool size false memory = ⟨false, fl, sl⟩) :
    pool.Sized (sought size) ∧ Upto (pool.place (sought size)) (fl, sl) := by
  unfold Grid.getIndexes at found
  dsimp only at found
  rw [if_neg Bool.false_ne_true, searchSize_eq fits, described.flMax, described.flMin] at found
  by_cases large : pool.flMax < msbIndex (sought size)
  · rw [if_pos large] at found
    cases found
  · have below : sought size < 2 ^ (pool.flMax + 1) :=
      Nat.lt_log2_self.trans_le (Nat.pow_le_pow_right (by decide)
        (Nat.succ_le_succ (not_lt.mp large)))
    have sized : pool.Sized (sought size) := pool.sized (least.trans le_sought) below
    have small : (sought size).log2 < 32 := sized.2.2.trans_lt pool.flMax_lt
    have inGrid := sized.inGrid
    have levels := @levels_lt pool
    rw [if_neg large, if_neg Bool.false_ne_true, column_eq sized.pos sized.wide small,
      row_eq sized.2.1 small] at found
    refine ⟨sized, searchIndexes_upto inGrid.2 ?_ (words _) (words _) found⟩
    exact (Nat.succ_le_succ inGrid.1.le).trans_lt (by omega)

/-- The chunk that was given out has its size in its word. -/
theorem WellFormed.allot_size
    (wellFormed : pool.WellFormed memory (allot pool.minChunk before chunk size after) lists) :
    getChunkSize chunk.addr memory =
      if size + pool.minChunk ≤ chunk.size then size else chunk.size := by
  obtain ⟨body, marks, -⟩ := wellFormed
  unfold allot at body marks
  split at body
  · rename_i room
    rw [if_pos room, List.append_assoc, List.cons_append] at marks
    obtain ⟨-, own, -⟩ := marks_split.mp marks
    have inBlocks : (⟨chunk.addr, size, true⟩ : Block) ∈ before ++ ⟨chunk.addr, size, true⟩ ::
        ⟨chunk.addr + size, chunk.size - size, false⟩ :: after := by simp
    rw [if_pos room]
    exact getChunkSize_tagged own (body.legal _ inBlocks).1 (body.fits inBlocks)
  · rename_i noRoom
    rw [if_neg noRoom, List.append_assoc, List.cons_append] at marks
    obtain ⟨-, own, -⟩ := marks_split.mp marks
    have inBlocks : (⟨chunk.addr, chunk.size, true⟩ : Block) ∈
        before ++ ⟨chunk.addr, chunk.size, true⟩ :: after := by simp
    have fits := body.fits inBlocks
    have legal := body.legal _ inBlocks
    rw [if_neg noRoom]
    exact getChunkSize_tagged own legal.1 fits

end Search

section Served

/-- `gma_alloc` gives `NULL` and changes nothing, or a block with room for the request in a pool
that is well formed again. -/
def Served (pool : Pool) (static mpool request : Nat) (memory : Memory) : Prop :=
  Grid.gmaAlloc static mpool request memory = some (0, memory) ∨
    ∃ address memory' blocks' lists',
      Grid.gmaAlloc static mpool request memory = some (address, memory') ∧ address ≠ 0 ∧
      request + sizeT ≤ getChunkSize (sub32 address (2 * sizeT)) memory' ∧
      pool.WellFormed memory' blocks' lists'

theorem le_needed : request + sizeT ≤ pool.needed request := by
  have enough : (request + sizeT + 3) / 4 * 4 ≤ pool.needed request := Nat.le_max_left ..
  omega

theorem gmaAlloc_congr {other : Nat} (accepted : 0 < request ∧ request < maxChunkSize)
    (accepted' : 0 < other ∧ other < maxChunkSize)
    (same : Grid.requestSize (poolOf static mpool) request memory =
      Grid.requestSize (poolOf static mpool) other memory) :
    Grid.gmaAlloc static mpool request memory = Grid.gmaAlloc static mpool other memory := by
  unfold Grid.gmaAlloc
  dsimp only
  rw [if_pos accepted, if_pos accepted', same]

end Served

end Pool

section Samples

open Pool

theorem page_noWrap : page_placed.pool.NoWrap 100 :=
  ⟨by decide, by decide, by decide, by decide⟩

end Samples

end Oseer.Grid
