import Oseer.FirstFitRun
import Oseer.GridCalls
import Oseer.GridSearch

/-!
# Runs of the grid allocator

A client allocates, gives blocks back and writes inside its blocks.  As long as no sum of a
request wraps, the pool stays well formed, its chunks in use are the blocks of the client, and no
assertion stops the program.
-/

namespace Oseer.Grid

open WordMemory Bitmap Tiling
open FirstFit (OutsideBlocks wordOf)

/-- The memory, the blocks of the client with the number of bytes asked for, and the calls of
`get_indexes` for insertions so far. -/
structure GridState where
  memory : Memory
  live : List (Nat × Nat)
  insertions : List Insertion

/-- One step of the client, for requests of the given sizes. -/
inductive GridStep (static mpool : Nat) (fits : Nat → Prop) : GridState → GridState → Prop
  | alloc {memory memory' : Memory} {live : List (Nat × Nat)} {insertions : List Insertion}
      {size pointer : Nat} (fit : fits size)
      (result : gmaAlloc static mpool size memory = some (pointer, memory')) :
      GridStep static mpool fits ⟨memory, live, insertions⟩
        ⟨memory', if pointer = 0 then live else (pointer, size) :: live,
          insertions ++ gmaAllocInsertions static mpool size memory⟩
  | free {memory memory' : Memory} {front back : List (Nat × Nat)}
      {insertions : List Insertion} {pointer size : Nat}
      (result : gmaFree static mpool pointer memory = some memory') :
      GridStep static mpool fits ⟨memory, front ++ (pointer, size) :: back, insertions⟩
        ⟨memory', front ++ back,
          insertions ++ gmaFreeInsertions static mpool pointer memory⟩
  | write {memory memory' : Memory} {live : List (Nat × Nat)} {insertions : List Insertion}
      (outside : ∀ address, OutsideBlocks live address →
        memory' address = memory address) :
      GridStep static mpool fits ⟨memory, live, insertions⟩ ⟨memory', live, insertions⟩

/-- The chunks in use are the blocks of the client, with room for what was asked for. -/
structure Holdings (blocks : List Block) (live : List (Nat × Nat)) : Prop where
  backed : ∀ held ∈ live, ∃ block ∈ blocks, block.used = true ∧
    held.1 = block.addr + 2 * sizeT ∧ held.2 + sizeT ≤ block.size
  owned : ∀ block ∈ blocks, block.used = true → block.addr + 2 * sizeT ∈ live.map Prod.fst
  nodup : (live.map Prod.fst).Nodup

section Holdings

variable {before after : List Block} {chunk : Block} {live : List (Nat × Nat)}
  {low high size request : Nat}

/-- The chunk that is given out becomes a block of the client. -/
theorem Holdings.allot {least : Nat} (holdings : Holdings (before ++ chunk :: after) live)
    (tiles : Tiles low (before ++ chunk :: after) high)
    (free : chunk.used = false)
    (room : request + sizeT ≤ if size + least ≤ chunk.size then size else chunk.size) :
    Holdings (Tiling.allot least before chunk size after)
      ((chunk.addr + 2 * sizeT, request) :: live) := by
  have others : ∀ block : Block, block.used = true →
      (block ∈ before ++ chunk :: after ↔ block ∈ before ++ after) := by
    intro block used
    have notChunk : block ≠ chunk := by
      rintro rfl
      rw [free] at used
      cases used
    simp only [List.mem_append, List.mem_cons]
    tauto
  refine ⟨?_, ?_, ?_⟩
  · intro held mem
    rcases List.mem_cons.mp mem with rfl | inLive
    · exact ⟨_, (mem_allot_used rfl).mpr (.inl rfl), rfl, rfl, room⟩
    · obtain ⟨block, inBlocks, used, rest⟩ := holdings.backed held inLive
      exact ⟨block, (mem_allot_used used).mpr (.inr ((others block used).mp inBlocks)), used,
        rest⟩
  · intro block mem used
    rcases (mem_allot_used used).mp mem with rfl | old
    · simp
    · exact List.mem_cons_of_mem _ (holdings.owned block ((others block used).mpr old) used)
  · refine List.nodup_cons.mpr ⟨fun clash => ?_, holdings.nodup⟩
    obtain ⟨held, inLive, same⟩ := List.mem_map.mp clash
    obtain ⟨block, inBlocks, used, start, -⟩ := holdings.backed held inLive
    have different := Pool.ne_addr tiles ((others block used).mp inBlocks)
    dsimp only at same
    omega

/-- The block that is given back is no block of the client any more. -/
theorem Holdings.release {front back : List (Nat × Nat)}
    (holdings : Holdings (before ++ chunk :: after)
      (front ++ (chunk.addr + 2 * sizeT, size) :: back))
    (tiles : Tiles low (before ++ chunk :: after) high) :
    Holdings (Tiling.release before chunk after) (front ++ back) := by
  have nodup := holdings.nodup
  rw [List.map_append, List.map_cons, List.nodup_middle, List.nodup_cons, ← List.map_append]
    at nodup
  refine ⟨?_, ?_, nodup.2⟩
  · intro held mem
    have inLive : held ∈ front ++ (chunk.addr + 2 * sizeT, size) :: back := by
      simp only [List.mem_append, List.mem_cons] at mem ⊢
      tauto
    obtain ⟨other, inBlocks, used, start, room⟩ := holdings.backed held inLive
    have different : other ≠ chunk := by
      rintro rfl
      have clash : held.1 ∈ (front ++ back).map Prod.fst := List.mem_map_of_mem mem
      rw [start] at clash
      exact nodup.1 clash
    refine ⟨other, (mem_release_used used).mpr ?_, used, start, room⟩
    simpa [different] using inBlocks
  · intro other mem used
    have rest := (mem_release_used used).mp mem
    have inBlocks : other ∈ before ++ chunk :: after := by
      simp only [List.mem_append, List.mem_cons] at rest ⊢
      tauto
    have apart : other.addr ≠ chunk.addr := Pool.ne_addr tiles rest
    simpa [apart] using holdings.owned other inBlocks used

end Holdings

namespace Pool

variable {pool : Pool} {memory memory' : Memory} {lists : ChunkLists}
  {blocks before after : List Block} {block chunk : Block} {live : List (Nat × Nat)}
  {static mpool size request : Nat}

section Client

/-- A pool is kept where no word changes but those inside of blocks in use. -/
theorem WellFormed.congr (wellFormed : pool.WellFormed memory blocks lists)
    (same : ∀ address, (∀ block ∈ blocks, block.used = true →
      address < block.addr + 8 ∨ block.limit < address) → memory' address = memory address) :
    pool.WellFormed memory' blocks lists := by
  obtain ⟨body, marks, separated⟩ := wellFormed
  have apart := pool.descriptor_apart
  have rowsBelow := pool.rows_below
  have tableBelow := pool.table_below
  have outside : ∀ address, (address < pool.low ∨ pool.high + 8 ≤ address) →
      memory' address = memory address := by
    intro address place
    apply same
    intro block mem _
    have bounds := body.bounds mem
    unfold Block.limit
    omega
  have inFree : ∀ block ∈ blocks, block.used = false → ∀ address, block.addr < address →
      address ≤ block.limit → memory' address = memory address := by
    intro block mem free address first last
    apply same
    intro other memOther used
    have bounds := body.bounds memOther
    unfold Block.limit at *
    rcases body.apart mem memOther with rfl | left | right
    · rw [free] at used
      cases used
    · omega
    · omega
  refine ⟨⟨body.tiles, body.legal, body.member, ?_, ⟨?_, ?_, ?_⟩, body.placed⟩, ?_, separated⟩
  · intro block mem free
    have large := (body.legal block mem).2
    have positive := pool.minChunk_ge
    have atLeast : pool.minChunk ≤ pool.least := le_max_left ..
    have behind : block.addr < block.limit := by
      unfold Block.limit
      unfold minChunkSize at positive
      omega
    rw [inFree block mem free block.limit behind le_rfl]
    exact body.tails block mem free
  · apply body.indexed.described.congr
    intro address atLeast below _
    exact outside address (by omega)
  · apply body.indexed.links.congr
    rintro address (⟨place, inGrid, rfl⟩ | ⟨place, node, mem, isWord⟩)
    · have root := root_bounds inGrid
      exact outside _ (by omega)
    · obtain ⟨block, inBlocks, free, rfl, -⟩ := (body.placed place node).mp mem
      have bounds := body.bounds inBlocks
      unfold prevField nextField at isWord
      apply inFree block inBlocks free
      · omega
      · unfold Block.limit
        omega
  · apply body.indexed.bits.congr _ fun _ _ => Iff.rfl
    intro address isBit
    apply outside
    by_contra inArea
    exact area_not_bit (by omega) (by omega) isBit
  · apply marks.congr
    intro block mem
    apply same
    intro other memOther _
    exact body.mark_outside mem memOther

/-- The client writes inside of its blocks. -/
theorem WellFormed.write (wellFormed : pool.WellFormed memory blocks lists)
    (holdings : Holdings blocks live)
    (outside : ∀ address, OutsideBlocks live address → memory' address = memory address) :
    pool.WellFormed memory' blocks lists := by
  apply wellFormed.congr
  intro address place
  apply outside
  intro held inLive byte first last inWord
  obtain ⟨block, mem, used, start, room⟩ := holdings.backed held inLive
  have aligned := wellFormed.body.aligned mem
  have legal := wellFormed.body.legal block mem
  have apart := place block mem used
  unfold Block.limit at apart
  unfold wordOf at inWord
  unfold sizeT at start room
  omega

end Client

section Runs

/-- The requests whose sums do not wrap. -/
def Fits (pool : Pool) (size : Nat) : Prop := 0 < size ∧ pool.NoWrap size

/-- The invariant of a run. -/
structure Sound (pool : Pool) (state : GridState) : Prop where
  layout : ∃ blocks lists, pool.WellFormed state.memory blocks lists ∧
    Holdings blocks state.live
  inRange : ∀ insertion ∈ state.insertions, insertion.InRange pool

theorem inRange_append {first second : List Insertion}
    (old : ∀ insertion ∈ first, insertion.InRange pool)
    (new : ∀ insertion ∈ second, insertion.InRange pool) :
    ∀ insertion ∈ first ++ second, insertion.InRange pool := by
  intro insertion mem
  rcases List.mem_append.mp mem with inFirst | inSecond
  · exact old insertion inFirst
  · exact new insertion inSecond

/-- Every step of the client keeps the invariant. -/
theorem Sound.step {state state' : GridState} (sound : pool.Sound state)
    (descriptor : poolOf static mpool = pool.mpool) (aligned : 4 ∣ pool.minChunk)
    (step : GridStep static mpool pool.Fits state state') : pool.Sound state' := by
  obtain ⟨⟨blocks, lists, wellFormed, holdings⟩, inRange⟩ := sound
  cases step with
  | @alloc memory memory' live insertions size pointer fit result =>
      obtain ⟨positive, noWrap⟩ := fit
      have neededAligned := @needed_aligned pool size aligned
      refine ⟨?_, inRange_append inRange
        (wellFormed.gmaAllocInsertions descriptor noWrap neededAligned)⟩
      rcases wellFormed.gmaAlloc descriptor positive noWrap with ⟨isNull, -⟩ |
        ⟨before, chunk, after, memory'', lists', rfl, free, enough, isBlock, wellFormed'⟩ |
        ⟨-, unaligned⟩
      · obtain ⟨rfl, rfl⟩ := Prod.mk.inj (Option.some.inj (isNull.symm.trans result))
        exact ⟨blocks, lists, wellFormed, holdings⟩
      · obtain ⟨rfl, rfl⟩ := Prod.mk.inj (Option.some.inj (isBlock.symm.trans result))
        have nonzero : chunk.addr + 2 * sizeT ≠ 0 := by
          unfold sizeT
          omega
        have least := @le_needed pool size
        refine ⟨_, lists', wellFormed', ?_⟩
        dsimp only
        rw [if_neg nonzero]
        apply holdings.allot wellFormed.body.tiles free
        split <;> omega
      · exact absurd neededAligned unaligned
  | @free memory memory' front back insertions pointer size result =>
      obtain ⟨chunk, mem, used, start, -⟩ := holdings.backed (pointer, size) (by simp)
      obtain ⟨before, after, rfl⟩ := List.append_of_mem mem
      obtain rfl : pointer = chunk.addr + 2 * sizeT := start
      obtain ⟨memory'', lists', freed, wellFormed'⟩ := wellFormed.gmaFree used descriptor
      obtain rfl : memory'' = memory' := Option.some.inj (freed.symm.trans result)
      exact ⟨⟨_, lists', wellFormed', holdings.release wellFormed.body.tiles⟩,
        inRange_append inRange (wellFormed.gmaFreeInsertions used descriptor)⟩
  | write outside =>
      exact ⟨⟨blocks, lists, wellFormed.write holdings outside, holdings⟩, inRange⟩

theorem Sound.run {state state' : GridState} (sound : pool.Sound state)
    (descriptor : poolOf static mpool = pool.mpool) (aligned : 4 ∣ pool.minChunk)
    (run : Relation.ReflTransGen (GridStep static mpool pool.Fits) state state') :
    pool.Sound state' := by
  induction run with
  | refl => exact sound
  | tail _ step ih => exact ih.step descriptor aligned step

end Runs

end Pool

section Start

open Pool

variable {static segment size minChunk : Nat} {newMpool : Bool} {memory : Memory}

/-- A pool built by `gma_init` with nothing in the bitmap of the levels is sound. -/
theorem Placed.gmaInit_sound (placed : Placed static segment size minChunk newMpool)
    (empty : memory (placed.pool.mpool + flBitmapField) = 0) :
    ∃ memory', gmaInit static segment size minChunk newMpool memory =
        some (placed.pool.mpool, memory') ∧
      placed.pool.Sound ⟨memory', [],
        gmaInitInsertions static segment size minChunk newMpool memory⟩ := by
  obtain ⟨-, -, aligned, large⟩ := placed.first_spec
  obtain ⟨fresh, prepared, isFresh, level⟩ := @Placed.prepare _ _ _ _ _ memory placed
  have wellFormed := isFresh.wellFormed (level.trans empty) aligned large
  have descriptor : poolOf static placed.pool.mpool = placed.pool.mpool :=
    (placed.descriptor rfl).2.2
  obtain ⟨memory', lists, freed, wellFormed'⟩ :=
    @Pool.WellFormed.gmaFree _ _ _ [] [] ⟨placed.pool.low, _, true⟩ static placed.pool.mpool
      wellFormed rfl descriptor
  refine ⟨memory', gmaInit_of_prepare prepared rfl freed, ⟨_, lists, wellFormed', ?_⟩, ?_⟩
  · exact ⟨by simp, by simp [release, Tiling.joinBefore], by simp⟩
  · unfold gmaInitInsertions
    rw [prepared]
    exact @Pool.WellFormed.gmaFreeInsertions _ _ _ [] [] ⟨placed.pool.low, _, true⟩ static
      placed.pool.mpool wellFormed rfl descriptor

end Start

section InOrder

open Pool

variable {static segment size minChunk : Nat} {newMpool : Bool} {memory : Memory}

/-- Every insertion so far was in range, the chunks that tile the area are aligned, and no
assertion stops a request that is made now, or a block of the client that is given back. -/
structure InOrder (pool : Pool) (static mpool : Nat) (fits : Nat → Prop) (state : GridState) :
    Prop where
  inRange : ∀ insertion ∈ state.insertions, insertion.InRange pool
  aligned : ∃ blocks, Tiles pool.low blocks pool.high ∧
    Marks state.memory true (blocks ++ [pool.border]) ∧
    ∀ block ∈ blocks, 4 ∣ block.addr ∧ 4 ∣ block.size
  requested : ∀ size, fits size → gmaAlloc static mpool size state.memory ≠ none
  returned : ∀ held ∈ state.live, gmaFree static mpool held.1 state.memory ≠ none

theorem Pool.Sound.inOrder {pool : Pool} {mpool : Nat} {state : GridState}
    (sound : pool.Sound state) (descriptor : poolOf static mpool = pool.mpool)
    (aligned : 4 ∣ pool.minChunk) : InOrder pool static mpool pool.Fits state := by
  obtain ⟨⟨blocks, lists, wellFormed, holdings⟩, inRange⟩ := sound
  refine ⟨inRange, ⟨blocks, wellFormed.body.tiles, wellFormed.marks, ?_⟩, ?_, ?_⟩
  · intro block mem
    exact ⟨wellFormed.body.aligned mem, (wellFormed.body.legal block mem).1⟩
  · rintro request ⟨positive, noWrap⟩ stopped
    rcases wellFormed.gmaAlloc descriptor positive noWrap with ⟨isNull, -⟩ |
      ⟨_, _, _, _, _, _, _, _, isBlock, _⟩ | ⟨-, unaligned⟩
    · simp [stopped] at isNull
    · simp [stopped] at isBlock
    · exact unaligned (needed_aligned aligned)
  · intro held mem stopped
    obtain ⟨block, inBlocks, used, start, -⟩ := holdings.backed held mem
    obtain ⟨before, after, rfl⟩ := List.append_of_mem inBlocks
    obtain ⟨memory', lists', freed, -⟩ := wellFormed.gmaFree used descriptor
    rw [← start, stopped] at freed
    cases freed

/-- A pool with an aligned least size that starts with nothing in the bitmap of the levels stays
in order in every run of requests that do not wrap. -/
theorem grid_in_order (placed : Placed static segment size minChunk newMpool)
    (empty : memory (placed.pool.mpool + flBitmapField) = 0)
    (aligned : 4 ∣ usedMinChunkSize minChunk) :
    ∃ memory', gmaInit static segment size minChunk newMpool memory =
        some (placed.pool.mpool, memory') ∧
      ∀ state, Relation.ReflTransGen
        (GridStep static placed.pool.mpool placed.pool.Fits)
        ⟨memory', [], gmaInitInsertions static segment size minChunk newMpool memory⟩ state →
        InOrder placed.pool static placed.pool.mpool placed.pool.Fits state := by
  have descriptor : poolOf static placed.pool.mpool = placed.pool.mpool :=
    (placed.descriptor rfl).2.2
  obtain ⟨memory', started, sound⟩ := placed.gmaInit_sound empty
  refine ⟨memory', started, fun state run => ?_⟩
  exact (sound.run descriptor aligned run).inOrder descriptor aligned

theorem grid_in_order_page :
    ∃ memory', gmaInit 1024 4096 2048 defMinChunkSize false zeros =
        some (page_placed.pool.mpool, memory') ∧
      ∀ state, Relation.ReflTransGen
        (GridStep 1024 page_placed.pool.mpool page_placed.pool.Fits)
        ⟨memory', [], gmaInitInsertions 1024 4096 2048 defMinChunkSize false zeros⟩ state →
        InOrder page_placed.pool 1024 page_placed.pool.mpool page_placed.pool.Fits state :=
  grid_in_order page_placed rfl (by decide)

/-- The requests that the assertion of `gma_alloc` lets through. -/
def Accepted (size : Nat) : Prop := 0 < size ∧ size < maxChunkSize

theorem odd_placed : Placed 1024 4096 2048 33 false :=
  ⟨by decide, by decide, by decide, fun _ => by decide, fun _ => by decide⟩

/-- With a least size of 33 bytes, the first request cuts the first chunk at an address that is
not aligned. -/
theorem grid_in_order_fail : ¬ ∀ (static segment size minChunk : Nat) (newMpool : Bool)
    (memory : Memory) (placed : Placed static segment size minChunk newMpool),
    ∃ memory', gmaInit static segment size minChunk newMpool memory =
        some (placed.pool.mpool, memory') ∧
      ∀ state, Relation.ReflTransGen
        (GridStep static placed.pool.mpool Accepted)
        ⟨memory', [], gmaInitInsertions static segment size minChunk newMpool memory⟩ state →
        InOrder placed.pool static placed.pool.mpool Accepted state := by
  intro claim
  have descriptor : poolOf 1024 odd_placed.pool.mpool = odd_placed.pool.mpool :=
    (odd_placed.descriptor rfl).2.2
  have noWrap : odd_placed.pool.NoWrap 1 := ⟨by decide, by decide, by decide, by decide⟩
  obtain ⟨memory, started, inOrder⟩ := claim _ _ _ _ _ zeros odd_placed
  obtain ⟨memory', lists, started', wellFormed⟩ :=
    @Placed.gmaInit_wellFormed _ _ _ _ _ zeros odd_placed rfl
  obtain rfl : memory' = memory :=
    (Prod.mk.inj (Option.some.inj (started'.symm.trans started))).2
  have answered := (inOrder _ .refl).requested 1 ⟨by decide, by decide⟩
  rcases wellFormed.gmaAlloc descriptor (by decide) noWrap with ⟨-, none⟩ |
    ⟨before, chunk, after, memory'', lists', isSplit, -, -, result, wellFormed'⟩ | ⟨stopped, -⟩
  · exact absurd (none odd_placed.pool.whole (by simp) rfl) (by decide)
  · have inBlocks : chunk ∈ [odd_placed.pool.whole] := by simp [isSplit]
    obtain rfl := List.mem_singleton.mp inBlocks
    have mem : (⟨odd_placed.pool.whole.addr, odd_placed.pool.needed 1, true⟩ : Block) ∈
        allot odd_placed.pool.minChunk before odd_placed.pool.whole (odd_placed.pool.needed 1) after := by
      unfold allot
      rw [if_pos (by decide)]
      simp
    exact absurd (wellFormed'.body.legal _ mem).1 (by decide)
  · exact answered stopped

end InOrder

end Oseer.Grid
