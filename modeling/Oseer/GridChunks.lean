import Oseer.GridIndex
import Oseer.Library.Tiling

/-!
# The chunks of a pool

The chunks tile the area of the pool.  A chunk tells its size and its status, and the status of
the chunk before it, in one word; a free chunk tells its size behind its end too, and is in the
list for its size.  In the middle of an operation some chunks are not accounted for yet.
-/

namespace Oseer.Grid

open WordMemory LinkedRing Bitmap SizeClasses Tiling

/-- The status of the last block, or the given one if there is none. -/
def statusAfter : Bool → List Block → Bool
  | status, [] => status
  | _, block :: rest => statusAfter block.used rest

/-- Each block has its size and status in its word, and the status of the block before. -/
def Marks (memory : Memory) : Bool → List Block → Prop
  | _, [] => True
  | status, block :: rest =>
      memory (block.addr + sizeField) = tagged block.size block.used status ∧
        Marks memory block.used rest

namespace Pool

/-- The border chunk at the end. -/
def border (pool : Pool) : Block := ⟨pool.high, borderChunkSize, true⟩

/-- The chunks that are `known` are accounted for: those that are free are in their lists and
have their size behind their end. -/
structure Body (pool : Pool) (memory : Memory) (blocks known : List Block)
    (lists : ChunkLists) : Prop where
  tiles : Tiles pool.low blocks pool.high
  legal : ∀ block ∈ blocks, 4 ∣ block.size ∧ pool.least ≤ block.size
  member : ∀ block ∈ known, block ∈ blocks
  tails : ∀ block ∈ known, block.used = false → alignDown (memory block.limit) = block.size
  indexed : pool.Indexed memory lists
  placed : ∀ place node, node ∈ lists place ↔
    ∃ block ∈ known, block.used = false ∧ block.addr = node ∧ pool.place block.size = place

/-- The invariant of a pool. -/
structure WellFormed (pool : Pool) (memory : Memory) (blocks : List Block)
    (lists : ChunkLists) : Prop where
  body : pool.Body memory blocks blocks lists
  marks : Marks memory true (blocks ++ [pool.border])
  separated : Separated blocks

end Pool

variable {pool : Pool} {memory memory' : Memory} {lists : ChunkLists} {place : Place}
  {status : Bool} {blocks known before after : List Block} {block other chunk : Block}
  {address node : Nat}

section Marks

@[simp]
theorem statusAfter_nil : statusAfter status [] = status := rfl

@[simp]
theorem statusAfter_concat : statusAfter status (blocks ++ [block]) = block.used := by
  induction blocks generalizing status with
  | nil => rfl
  | cons first rest ih => exact ih

theorem marks_append :
    Marks memory status (before ++ after) ↔
      Marks memory status before ∧ Marks memory (statusAfter status before) after := by
  induction before generalizing status with
  | nil => simp [Marks]
  | cons first rest ih => simp [Marks, statusAfter, ih, and_assoc]

theorem Marks.congr (marks : Marks memory status blocks)
    (same : ∀ block ∈ blocks, memory' (block.addr + sizeField) =
      memory (block.addr + sizeField)) : Marks memory' status blocks := by
  induction blocks generalizing status with
  | nil => trivial
  | cons first rest ih =>
      obtain ⟨own, marks⟩ := marks
      exact ⟨(same first (by simp)).trans own,
        ih marks fun block mem => same block (.tail _ mem)⟩

theorem marks_split : Marks memory status (before ++ block :: after) ↔
    Marks memory status before ∧
      memory (block.addr + sizeField) = tagged block.size block.used (statusAfter status before) ∧
      Marks memory block.used after :=
  marks_append

end Marks

namespace Pool

section Bounds

theorem least_ge : 32 ≤ pool.least := le_max_right ..

private theorem aligned_of_tiles {start finish : Nat} (tiles : Tiles start blocks finish)
    (aligned : 4 ∣ start) (sizes : ∀ block ∈ blocks, 4 ∣ block.size) :
    (∀ block ∈ blocks, 4 ∣ block.addr) ∧ 4 ∣ finish := by
  induction blocks generalizing start with
  | nil =>
      obtain rfl := tiles
      exact ⟨fun block mem => (List.not_mem_nil mem).elim, aligned⟩
  | cons first rest ih =>
      obtain ⟨rfl, -, tilesRest⟩ := tiles
      have alignedLimit : 4 ∣ first.limit := Nat.dvd_add aligned (sizes first (by simp))
      obtain ⟨inRest, atEnd⟩ := ih tilesRest alignedLimit
        fun block mem => sizes block (.tail _ mem)
      refine ⟨fun block mem => ?_, atEnd⟩
      rcases List.mem_cons.mp mem with rfl | memRest
      · exact aligned
      · exact inRest block memRest

variable (body : pool.Body memory blocks known lists)

include body

theorem Body.bounds (mem : block ∈ blocks) :
    pool.low ≤ block.addr ∧ 32 ≤ block.size ∧ block.addr + block.size ≤ pool.high := by
  have place := body.tiles.mem_bounds mem
  have legal := (body.legal block mem).2
  have least := @least_ge pool
  unfold Block.limit at place
  omega

theorem Body.aligned (mem : block ∈ blocks) : 4 ∣ block.addr :=
  (aligned_of_tiles body.tiles pool.low_aligned fun block mem => (body.legal block mem).1).1
    block mem

theorem Body.sized (mem : block ∈ blocks) : pool.Sized block.size := by
  have bounds := body.bounds mem
  have area := pool.area_lt
  apply Pool.sized (body.legal block mem).2
  omega

theorem Body.fits (mem : block ∈ blocks) : block.size < 2 ^ 32 := by
  have bounds := body.bounds mem
  have := pool.high_le
  omega

theorem Body.apart (mem : block ∈ blocks) (memOther : other ∈ blocks) :
    other = block ∨ other.addr + other.size ≤ block.addr ∨
      block.addr + block.size ≤ other.addr :=
  body.tiles.eq_or_apart mem memOther

/-- Lists of chunks of the pool do not overlap. -/
theorem Body.spread_of {lists' : ChunkLists} (member : ∀ block ∈ after, block ∈ blocks)
    (placed : ∀ place, ∀ node ∈ lists' place, ∃ block ∈ after, block.used = false ∧
      block.addr = node ∧ pool.place block.size = place) : pool.Spread lists' where
  inGrid := by
    intro place node mem
    obtain ⟨block, inAfter, -, -, rfl⟩ := placed place node mem
    exact (body.sized (member block inAfter)).inGrid
  aligned := by
    intro place node mem
    obtain ⟨block, inAfter, -, rfl, -⟩ := placed place node mem
    exact body.aligned (member block inAfter)
  inArea := by
    intro place node mem
    obtain ⟨block, inAfter, -, rfl, -⟩ := placed place node mem
    have bounds := body.bounds (member block inAfter)
    omega
  apart := by
    intro place node mem place' node' mem'
    obtain ⟨block, inAfter, -, rfl, rfl⟩ := placed place node mem
    obtain ⟨block', inAfter', -, rfl, rfl⟩ := placed place' node' mem'
    have bounds := body.bounds (member block inAfter)
    have bounds' := body.bounds (member block' inAfter')
    rcases body.apart (member block inAfter) (member block' inAfter') with rfl | left | right
    · exact .inl ⟨rfl, rfl⟩
    · right
      omega
    · right
      omega

theorem Body.spread : pool.Spread lists :=
  body.spread_of body.member fun place node => (body.placed place node).mp

omit body in
theorem notLink_of {lists' : ChunkLists} (atLeast : pool.low ≤ address)
    (placed : ∀ place, ∀ node ∈ lists' place, ∃ block ∈ after, block.used = false ∧
      block.addr = node ∧ pool.place block.size = place)
    (outside : ∀ block ∈ after, address < block.addr + 8 ∨ block.addr + 16 ≤ address) :
    ¬ pool.LinkWord lists' address := by
  rintro (⟨place, inGrid, rfl⟩ | ⟨place, node, mem, isWord⟩)
  · have root := root_bounds inGrid
    omega
  · obtain ⟨block, inAfter, -, rfl, -⟩ := placed place node mem
    have := outside block inAfter
    unfold prevField nextField at isWord
    omega

theorem Body.notLink (atLeast : pool.low ≤ address)
    (outside : ∀ block ∈ known, address < block.addr + 8 ∨ block.addr + 16 ≤ address) :
    ¬ pool.LinkWord lists address :=
  notLink_of atLeast (fun place node => (body.placed place node).mp) outside

/-- The first words of chunks are no link words. -/
theorem Body.mark_outside (mem : block ∈ blocks ++ [pool.border]) (memOther : other ∈ blocks) :
    block.addr + sizeField < other.addr + 8 ∨ other.limit < block.addr + sizeField := by
  have boundsOther := body.bounds memOther
  unfold Block.limit sizeField
  rcases List.mem_append.mp mem with inBlocks | isBorder
  · have bounds := body.bounds inBlocks
    rcases body.apart inBlocks memOther with rfl | left | right
    · omega
    · omega
    · omega
  · obtain rfl := List.mem_singleton.mp isBorder
    unfold border
    dsimp only
    omega

theorem Body.mark_bounds (mem : block ∈ blocks ++ [pool.border]) :
    pool.low ≤ block.addr + sizeField ∧ block.addr + sizeField < pool.high + 8 := by
  have := pool.low_le
  unfold sizeField
  rcases List.mem_append.mp mem with inBlocks | isBorder
  · have bounds := body.bounds inBlocks
    omega
  · obtain rfl := List.mem_singleton.mp isBorder
    unfold border
    dsimp only
    omega

end Bounds

section Steps

/-- A store that is in no link word or tail of the chunks accounted for, as those into the
first words of chunks. -/
theorem Body.write (body : pool.Body memory blocks known lists) (value : Nat)
    (atLeast : pool.low ≤ address) (below : address < pool.high + 8)
    (outside : ∀ block ∈ known, address < block.addr + 8 ∨ block.limit < address) :
    pool.Body (memory.write address value) blocks known lists := by
  have spread := body.spread
  have notLink : ¬ pool.LinkWord lists address := by
    apply body.notLink atLeast
    intro block mem
    have bounds := body.bounds (body.member block mem)
    have := outside block mem
    unfold Block.limit at this
    omega
  have notBit : ¬ pool.BitWord address := area_not_bit atLeast below
  have notDescriptor : ∀ other, pool.mpool ≤ other → other < pool.mpool + gmaT →
      other ≠ address := by
    have apart := pool.descriptor_apart
    have rows := pool.rows_below
    have table := pool.table_below
    intro other _ _
    omega
  constructor
  · exact body.tiles
  · exact body.legal
  · exact body.member
  · intro block mem free
    have bounds := body.bounds (body.member block mem)
    have outsideOf := outside block mem
    unfold Block.limit at outsideOf
    rw [write_other (by unfold Block.limit; omega)]
    exact body.tails block mem free
  · refine ⟨?_, ?_, ?_⟩
    · exact body.indexed.described.congr fun other starts ends _ =>
        write_other (notDescriptor other starts ends)
    · apply body.indexed.links.congr
      intro other isLink
      exact write_other fun same => notLink (same ▸ isLink)
    · apply body.indexed.bits.congr _ fun _ _ => Iff.rfl
      intro other isBit
      exact write_other fun same => notBit (same ▸ isBit)
  · exact body.placed

/-- A chunk was taken out of its list, and is not accounted for any more. -/
theorem Body.drop {front back : List Nat} (body : pool.Body memory blocks known lists)
    (mem : chunk ∈ known) (shape : lists (pool.place chunk.size) = front ++ chunk.addr :: back)
    (fewer : ∀ block, block ∈ before ↔ block ∈ known ∧ block.addr ≠ chunk.addr)
    (indexed : pool.Indexed memory'
      (Function.update lists (pool.place chunk.size) (front ++ back)))
    (same : ∀ address, ¬ pool.LinkWord lists address → ¬ pool.BitWord address →
      memory' address = memory address) :
    pool.Body memory' blocks before
      (Function.update lists (pool.place chunk.size) (front ++ back)) := by
  have inGrid := (body.sized (body.member chunk mem)).inGrid
  have nodup := (List.nodup_cons.mp (body.indexed.links _ inGrid).nodup).2
  rw [shape, List.nodup_middle, List.nodup_cons] at nodup
  constructor
  · exact body.tiles
  · exact body.legal
  · exact fun block inBefore => body.member block ((fewer block).mp inBefore).1
  · intro block inBefore free
    have inKnown := ((fewer block).mp inBefore).1
    have bounds := body.bounds (body.member block inKnown)
    rw [same, body.tails block inKnown free]
    · apply body.notLink (by unfold Block.limit; omega)
      intro other memOther
      have boundsOther := body.bounds (body.member other memOther)
      unfold Block.limit
      rcases body.apart (body.member block inKnown) (body.member other memOther) with
        rfl | left | right <;> omega
    · exact area_not_bit (by unfold Block.limit; omega) (by unfold Block.limit; omega)
  · exact indexed
  · intro place node
    by_cases isPlace : place = pool.place chunk.size
    · subst isPlace
      rw [Function.update_self]
      have split : node ∈ front ++ back ↔
          node ∈ lists (pool.place chunk.size) ∧ node ≠ chunk.addr := by
        rw [shape]
        simp only [List.mem_append, List.mem_cons]
        constructor
        · intro inRest
          refine ⟨by tauto, ?_⟩
          rintro rfl
          exact nodup.1 (List.mem_append.mpr inRest)
        · tauto
      rw [split, body.placed]
      constructor
      · rintro ⟨⟨block, inKnown, free, rfl, isPlace⟩, different⟩
        exact ⟨block, (fewer block).mpr ⟨inKnown, different⟩, free, rfl, isPlace⟩
      · rintro ⟨block, inBefore, free, rfl, isPlace⟩
        obtain ⟨inKnown, different⟩ := (fewer block).mp inBefore
        exact ⟨⟨block, inKnown, free, rfl, isPlace⟩, different⟩
    · rw [Function.update_of_ne isPlace, body.placed]
      constructor
      · rintro ⟨block, inKnown, free, rfl, rfl⟩
        refine ⟨block, (fewer block).mpr ⟨inKnown, fun sameAddr => ?_⟩, free, rfl, rfl⟩
        rw [body.tiles.eq_of_addr (body.member chunk mem) (body.member block inKnown) sameAddr]
          at isPlace
        exact isPlace rfl
      · rintro ⟨block, inBefore, free, rfl, rfl⟩
        exact ⟨block, ((fewer block).mp inBefore).1, free, rfl, rfl⟩

/-- A free chunk that is accounted for is in the list for its size. -/
theorem Body.listed (body : pool.Body memory blocks known lists) (mem : chunk ∈ known)
    (free : chunk.used = false)
    (own : ∃ flag, memory (chunk.addr + sizeField) = tagged chunk.size false flag) :
    (∃ front back, lists (pool.place chunk.size) = front ++ chunk.addr :: back) ∧
      getChunkSize chunk.addr memory = chunk.size ∧
      ¬ pool.LinkWord lists (chunk.addr + sizeField) := by
  have inBlocks := body.member chunk mem
  have listed : chunk.addr ∈ lists (pool.place chunk.size) :=
    (body.placed _ _).mpr ⟨chunk, mem, free, rfl, rfl⟩
  obtain ⟨flag, own⟩ := own
  refine ⟨List.append_of_mem listed, ?_, ?_⟩
  · unfold getChunkSize
    rw [own, alignDown_tagged (body.legal chunk inBlocks).1 (body.fits inBlocks)]
  · have bounds := body.bounds inBlocks
    apply body.notLink (by omega)
    intro block inKnown
    have boundsBlock := body.bounds (body.member block inKnown)
    unfold sizeField
    rcases body.apart inBlocks (body.member block inKnown) with rfl | left | right <;> omega

/-- `remove_chunk_from_free_list` in a pool. -/
theorem Body.remove (body : pool.Body memory blocks known lists) (mem : chunk ∈ known)
    (free : chunk.used = false)
    (own : ∃ flag, memory (chunk.addr + sizeField) = tagged chunk.size false flag)
    (fewer : ∀ block, block ∈ before ↔ block ∈ known ∧ block.addr ≠ chunk.addr) :
    (∃ lists', pool.Body (removeChunkFromFreeList pool.mpool chunk.addr memory) blocks before
      lists') ∧
    ∀ address, pool.low ≤ address → address < pool.high + 8 →
      (∀ block ∈ known, address < block.addr + 8 ∨ block.addr + 16 ≤ address) →
      removeChunkFromFreeList pool.mpool chunk.addr memory address = memory address := by
  obtain ⟨⟨front, back, shape⟩, sizeIs, notLink⟩ := body.listed mem free own
  obtain ⟨indexed, same⟩ := body.indexed.removeChunkFromFreeList body.spread
    (body.sized (body.member chunk mem)) shape sizeIs notLink
  constructor
  · exact ⟨_, body.drop mem shape fewer indexed same⟩
  · intro address atLeast below outside
    exact same address (body.notLink atLeast outside) (area_not_bit atLeast below)

/-- `remove_first_chunk_from_free_list` in a pool. -/
theorem Body.removeFirst (body : pool.Body memory blocks known lists)
    (inGrid : pool.InGrid place) (filled : lists place ≠ []) :
    ∃ chunk ∈ known, chunk.used = false ∧ pool.place chunk.size = place ∧
      (removeFirstChunkFromFreeList pool.mpool place.1 place.2 memory).1 = chunk.addr ∧
      (∀ rest : List Block, (∀ block, block ∈ rest ↔ block ∈ known ∧ block.addr ≠ chunk.addr) →
        ∃ lists', pool.Body (removeFirstChunkFromFreeList pool.mpool place.1 place.2 memory).2
          blocks rest lists') ∧
      ∀ address, pool.low ≤ address → address < pool.high + 8 →
        (∀ block ∈ known, address < block.addr + 8 ∨ block.addr + 16 ≤ address) →
        (removeFirstChunkFromFreeList pool.mpool place.1 place.2 memory).2 address =
          memory address := by
  obtain ⟨first, others, shape⟩ := List.exists_cons_of_ne_nil filled
  have listed : first ∈ lists place := by simp [shape]
  obtain ⟨chunk, mem, free, rfl, isPlace⟩ := (body.placed place first).mp listed
  obtain ⟨isFirst, indexed, same⟩ :=
    body.indexed.removeFirstChunkFromFreeList body.spread inGrid shape
  refine ⟨chunk, mem, free, isPlace, isFirst, fun rest fewer => ?_, ?_⟩
  · subst isPlace
    have shape' : lists (pool.place chunk.size) = [] ++ chunk.addr :: others := shape
    exact ⟨_, body.drop mem shape' fewer indexed same⟩
  · intro address atLeast below outside
    exact same address (body.notLink atLeast outside) (area_not_bit atLeast below)

/-- `insert_chunk_in_free_list` in a pool: the chunk is accounted for afterwards. -/
theorem Body.insert {next : Block} {current flag flag' : Bool}
    (body : pool.Body memory blocks known lists) (mem : chunk ∈ blocks)
    (free : chunk.used = false) (unknown : ∀ block ∈ known, block.addr ≠ chunk.addr)
    (nextMem : next ∈ blocks ++ [pool.border]) (nextAt : next.addr = chunk.limit)
    (own : memory (chunk.addr + sizeField) = tagged chunk.size current flag)
    (nextWord : memory (next.addr + sizeField) = tagged next.size next.used flag')
    (more : ∀ block, block ∈ after ↔ block = chunk ∨ block ∈ known) :
    let memory' := insertChunkInFreeList pool.mpool chunk.addr memory
    (∃ lists', pool.Body memory' blocks after lists') ∧
      memory' (chunk.addr + sizeField) = tagged chunk.size false flag ∧
      memory' (next.addr + sizeField) = tagged next.size next.used false ∧
      ∀ block ∈ blocks ++ [pool.border], block.addr ≠ chunk.addr → block.addr ≠ next.addr →
        memory' (block.addr + sizeField) = memory (block.addr + sizeField) := by
  dsimp only
  have bounds := body.bounds mem
  have sized := body.sized mem
  have limitIs : chunk.limit = chunk.addr + chunk.size := rfl
  have fresh : chunk.addr ∉ lists (pool.place chunk.size) := by
    intro listed
    obtain ⟨block, inKnown, -, same, -⟩ := (body.placed _ _).mp listed
    exact unknown block inKnown same
  have member : ∀ block ∈ after, block ∈ blocks := by
    intro block inAfter
    rcases (more block).mp inAfter with rfl | inKnown
    · exact mem
    · exact body.member block inKnown
  have placed : ∀ place node, node ∈ Function.update lists (pool.place chunk.size)
      (chunk.addr :: lists (pool.place chunk.size)) place ↔ ∃ block ∈ after,
        block.used = false ∧ block.addr = node ∧ pool.place block.size = place := by
    intro place node
    by_cases isPlace : place = pool.place chunk.size
    · subst isPlace
      rw [Function.update_self, List.mem_cons, body.placed]
      constructor
      · rintro (rfl | ⟨block, inKnown, free, rfl, same⟩)
        · exact ⟨chunk, (more chunk).mpr (.inl rfl), free, rfl, rfl⟩
        · exact ⟨block, (more block).mpr (.inr inKnown), free, rfl, same⟩
      · rintro ⟨block, inAfter, free, rfl, same⟩
        rcases (more block).mp inAfter with rfl | inKnown
        · exact .inl rfl
        · exact .inr ⟨block, inKnown, free, rfl, same⟩
    · rw [Function.update_of_ne isPlace, body.placed]
      constructor
      · rintro ⟨block, inKnown, free, rfl, same⟩
        exact ⟨block, (more block).mpr (.inr inKnown), free, rfl, same⟩
      · rintro ⟨block, inAfter, free, rfl, same⟩
        rcases (more block).mp inAfter with rfl | inKnown
        · exact absurd same.symm isPlace
        · exact ⟨block, inKnown, free, rfl, same⟩
  have spread := body.spread_of member fun place node => (placed place node).mp
  have apart : ∀ address, (address = chunk.addr + sizeField ∨ address = chunk.limit ∨
      address = chunk.limit + sizeField) → ∀ block ∈ after,
        address < block.addr + 8 ∨ block.addr + 16 ≤ address := by
    intro address isWord block inAfter
    have boundsBlock := body.bounds (member block inAfter)
    unfold sizeField at isWord
    rcases body.apart mem (member block inAfter) with rfl | left | right <;> omega
  have nextLegal : 4 ∣ next.size ∧ next.size < 2 ^ 32 := by
    rcases List.mem_append.mp nextMem with inBlocks | isBorder
    · exact ⟨(body.legal next inBlocks).1, body.fits inBlocks⟩
    · obtain rfl := List.mem_singleton.mp isBorder
      exact ⟨dvd_rfl, show 4 < 2 ^ 32 by decide⟩
  rw [nextAt] at nextWord ⊢
  obtain ⟨indexed, own', tail, nextWord', same⟩ :=
    body.indexed.insertChunkInFreeList sized (body.legal chunk mem).1 (by omega) spread fresh
      bounds.2.2 own nextWord nextLegal.1 nextLegal.2 fun address isWord =>
        notLink_of (by unfold sizeField at isWord; omega) (fun place node => (placed place node).mp)
          (apart address isWord)
  generalize insertChunkInFreeList pool.mpool chunk.addr memory = memory' at *
  refine ⟨⟨_, ⟨body.tiles, body.legal, member, ?_, indexed, placed⟩⟩, own', nextWord', ?_⟩
  · intro block inAfter free
    rcases (more block).mp inAfter with rfl | inKnown
    · change alignDown (memory' (block.addr + block.size)) = _
      rw [tail, alignDown_tagged (body.legal block mem).1 (body.fits mem)]
    · have boundsBlock := body.bounds (body.member block inKnown)
      have others : block.limit ≠ chunk.limit := by
        intro sameLimit
        have isChunk := body.tiles.eq_of_limit mem (body.member block inKnown) sameLimit
        exact unknown block inKnown (isChunk ▸ rfl)
      have blockLimit : block.limit = block.addr + block.size := rfl
      have apartOf := body.apart mem (body.member block inKnown)
      have different := unknown block inKnown
      rw [same block.limit, body.tails block inKnown free]
      · apply notLink_of (by omega) (fun place node => (placed place node).mp)
        intro other inAfter
        have boundsOther := body.bounds (member other inAfter)
        rcases body.apart (body.member block inKnown) (member other inAfter) with
          rfl | left | right <;> omega
      · exact area_not_bit (by omega) (by omega)
      · unfold sizeField
        rcases apartOf with rfl | left | right <;> omega
      · exact others
      · unfold sizeField
        rcases apartOf with rfl | left | right <;> omega
  · intro block inBlocks notChunk notNext
    have boundsMark := body.mark_bounds inBlocks
    apply same
    · apply notLink_of (by omega) (fun place node => (placed place node).mp)
      intro other inAfter
      have boundsOther := body.bounds (member other inAfter)
      have outside := body.mark_outside inBlocks (member other inAfter)
      unfold Block.limit at outside
      omega
    · exact area_not_bit (by omega) (by omega)
    · omega
    · have outside := body.mark_outside inBlocks mem
      unfold sizeField at *
      omega
    · omega

end Steps

end Pool

end Oseer.Grid
