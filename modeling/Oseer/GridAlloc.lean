import Oseer.GridFree

/-!
# Allocating from the grid

`gma_alloc` takes the first chunk of the list that its search finds, puts the end of the chunk
back if it is large enough for a chunk of its own, and marks the rest as used.  Nothing is lost
as long as no sum on the way wraps.
-/

namespace Oseer.Grid

open WordMemory Tiling SizeClasses

namespace Pool

/-- The chunk size that a request needs: with its header, aligned, and no less than the least
size of the pool. -/
def needed (pool : Pool) (size : Nat) : Nat := max ((size + sizeT + 3) / 4 * 4) pool.minChunk

/-- The calculations for a request of this size do not wrap: those for the size itself, those
of `get_indexes` for the search and for any chunk of the pool, and that of the least size to
split. -/
structure NoWrap (pool : Pool) (size : Nat) : Prop where
  header : size + sizeT + 3 < 2 ^ 32
  rounding : sought (pool.needed size) < 2 ^ 32
  splitting : pool.needed size + pool.minChunk < 2 ^ 32
  shift : logSLDim ≤ pool.flMin

variable {pool : Pool} {memory memory' : Memory} {lists : ChunkLists}
  {blocks known before after rest : List Block} {block other chunk next : Block}
  {size request : Nat} {used flag : Bool}

section Request

theorem NoWrap.least_eq (noWrap : pool.NoWrap request) : pool.least = pool.minChunk := by
  apply Nat.max_eq_left
  have positive : pool.minChunk ≠ 0 := by
    have atLeast := pool.minChunk_ge
    unfold minChunkSize at atLeast
    omega
  apply (Nat.le_log2 positive).mp
  rw [pool.minChunk_row]
  exact noWrap.shift

theorem NoWrap.least_le (noWrap : pool.NoWrap request) : pool.least ≤ pool.needed request := by
  rw [noWrap.least_eq]
  exact le_max_right ..

theorem Described.requestSize (described : pool.Described memory)
    (header : request + sizeT + 3 < 2 ^ 32) :
    requestSize pool.mpool request memory = pool.needed request := by
  unfold Grid.requestSize needed
  dsimp only
  rw [add32_of_lt (by omega), alignUp_eq header, described.minChunk]
  split
  · rw [Nat.max_eq_right (by omega)]
  · rw [Nat.max_eq_left (by omega)]

theorem needed_aligned (aligned : 4 ∣ pool.minChunk) : 4 ∣ pool.needed request := by
  unfold needed
  rcases Nat.le_total ((request + sizeT + 3) / 4 * 4) pool.minChunk with least | enough
  · rw [Nat.max_eq_right least]
    exact aligned
  · rw [Nat.max_eq_left enough]
    exact Nat.dvd_mul_left ..

end Request

section Take

/-- A chunk that was not accounted for is in use from now on. -/
theorem Body.remember
    (body : pool.Body memory (before ++ chunk :: after) (before ++ after) lists) :
    pool.Body memory (before ++ ⟨chunk.addr, chunk.size, true⟩ :: after)
      (before ++ ⟨chunk.addr, chunk.size, true⟩ :: after) lists := by
  have fewer : ∀ block ∈ before ++ ⟨chunk.addr, chunk.size, true⟩ :: after,
      block.used = false → block ∈ before ++ after := by
    intro block mem isFree
    have notChunk : block ≠ ⟨chunk.addr, chunk.size, true⟩ := by
      rintro rfl
      simp at isFree
    simp only [List.mem_append, List.mem_cons] at mem ⊢
    tauto
  constructor
  · exact body.tiles.restatus rfl rfl
  · intro block mem
    rcases List.mem_append.mp mem with inBefore | inRest
    · exact body.legal block (List.mem_append_left _ inBefore)
    · rcases List.mem_cons.mp inRest with rfl | inAfter
      · exact body.legal chunk (by simp)
      · exact body.legal block (List.mem_append_right _ (.tail _ inAfter))
  · exact fun block mem => mem
  · exact fun block mem isFree => body.tails block (fewer block mem isFree) isFree
  · exact body.indexed
  · intro place node
    rw [body.placed]
    constructor
    · rintro ⟨block, mem, isFree, isNode⟩
      refine ⟨block, ?_, isFree, isNode⟩
      simp only [List.mem_append, List.mem_cons] at mem ⊢
      tauto
    · rintro ⟨block, mem, isFree, isNode⟩
      exact ⟨block, fewer block mem isFree, isFree, isNode⟩

theorem setChunkBinuse_tagged (own : memory (chunk.addr + sizeField) =
    tagged chunk.size used flag) (aligned : 4 ∣ chunk.size) :
    setChunkBinuse chunk.addr memory =
      memory.write (chunk.addr + sizeField) (tagged chunk.size used true) := by
  unfold setChunkBinuse binuse
  rw [own, tagged_or_one aligned]

theorem setChunkInuse_tagged (own : memory (chunk.addr + sizeField) =
    tagged chunk.size used flag) (aligned : 4 ∣ chunk.size) :
    setChunkInuse chunk.addr memory =
      memory.write (chunk.addr + sizeField) (tagged chunk.size true flag) := by
  unfold setChunkInuse cinuse
  rw [own, tagged_or_two aligned]

/-- `SET_CHUNK_IN_USE` of a chunk that is in no list. -/
theorem Loose.setChunkInUse (loose : pool.Loose memory before chunk after)
    (separated : Separated (before ++ ⟨chunk.addr, chunk.size, true⟩ :: after)) :
    ∃ lists, pool.WellFormed (setChunkInUse chunk.addr memory)
      (before ++ ⟨chunk.addr, chunk.size, true⟩ :: after) lists := by
  obtain ⟨⟨lists, body⟩, free, marksBefore, own, flag, marksAfter⟩ := loose
  have inBlocks : chunk ∈ before ++ chunk :: after := by simp
  have aligned := (body.legal chunk inBlocks).1
  have bounds := body.bounds inBlocks
  have high := pool.high_le
  have chunkLimit : chunk.limit = chunk.addr + chunk.size := rfl
  obtain ⟨next, others, nextShape, nextAt⟩ := exists_next body.tiles
  rw [nextShape] at marksAfter
  obtain ⟨nextOwn, marksRest⟩ := marksAfter
  have nextMem : next ∈ (before ++ chunk :: after) ++ [pool.border] := by
    have inAfter : next ∈ after ++ [pool.border] := by simp [nextShape]
    simp only [List.mem_append, List.mem_cons] at inAfter ⊢
    tauto
  have nextAligned : 4 ∣ next.size := by
    rcases List.mem_append.mp nextMem with inBlocks | isBorder
    · exact (body.legal next inBlocks).1
    · obtain rfl := List.mem_singleton.mp isBorder
      exact dvd_rfl
  have different : next.addr ≠ chunk.addr := by omega
  have nextOwn' : memory.write (chunk.addr + sizeField)
      (tagged chunk.size true (statusAfter true before)) (next.addr + sizeField) =
        tagged next.size next.used flag := by
    rw [write_other (by omega)]
    exact nextOwn
  have limitIs : getChunkAfter chunk.addr (memory.write (chunk.addr + sizeField)
      (tagged chunk.size true (statusAfter true before))) = next.addr := by
    rw [nextAt]
    exact getChunkAfter_tagged write_same aligned (by omega)
  have result : Grid.setChunkInUse chunk.addr memory =
      (memory.write (chunk.addr + sizeField)
        (tagged chunk.size true (statusAfter true before))).write (next.addr + sizeField)
          (tagged next.size next.used true) := by
    unfold Grid.setChunkInUse
    dsimp only
    rw [setChunkInuse_tagged own aligned, limitIs, setChunkBinuse_tagged nextOwn' nextAligned]
  have written := (body.write_mark (tagged chunk.size true (statusAfter true before))
    (List.mem_append_left _ inBlocks)).write_mark (tagged next.size next.used true) nextMem
  rw [result]
  refine ⟨lists, written.remember, ?_, separated⟩
  have tiles : Tiles pool.low ((before ++ [chunk]) ++ next :: others) (pool.high + 4) := by
    have shape : (before ++ [chunk]) ++ next :: others =
        (before ++ chunk :: after) ++ [pool.border] := by
      rw [← nextShape]
      simp
    rw [shape]
    exact tiles_append.mpr ⟨_, body.tiles, rfl, show 0 < 4 by decide, rfl⟩
  have kept : ∀ block ∈ before ++ others,
      (memory.write (chunk.addr + sizeField)
        (tagged chunk.size true (statusAfter true before))).write (next.addr + sizeField)
          (tagged next.size next.used true) (block.addr + sizeField) =
        memory (block.addr + sizeField) := by
    intro block mem
    have notNext : block.addr ≠ next.addr := by
      apply ne_addr tiles
      simp only [List.mem_append, List.mem_singleton] at mem ⊢
      tauto
    have notChunk : block.addr ≠ chunk.addr := by
      apply body.ne_mark
      rw [nextShape]
      simp only [List.mem_append, List.mem_cons] at mem ⊢
      tauto
    rw [write_other (by omega), write_other (by omega)]
  rw [List.append_assoc, List.cons_append, nextShape]
  refine marks_split.mpr ⟨?_, ?_, ?_, ?_⟩
  · exact marksBefore.congr fun block mem => kept block (List.mem_append_left _ mem)
  · dsimp only
    rw [write_other (by omega), write_same]
  · exact write_same
  · exact marksRest.congr fun block mem => kept block (List.mem_append_right _ mem)

end Take

section Split

/-- A chunk that is not accounted for may be seen as two. -/
theorem Body.cut {first : Block} (body : pool.Body memory (before ++ chunk :: after)
      (before ++ after) lists) (firstAt : first.addr = chunk.addr)
    (nextAt : next.addr = first.limit) (ends : next.limit = chunk.limit)
    (aligned : 4 ∣ first.size) (large : pool.least ≤ first.size)
    (room : first.size + pool.least ≤ chunk.size) :
    pool.Body memory (before ++ first :: next :: after) (before ++ after) lists := by
  have legal := body.legal chunk (by simp)
  have least := @least_ge pool
  have sizes : first.size + next.size = chunk.size := by
    unfold Block.limit at nextAt ends
    omega
  constructor
  · exact body.tiles.cut firstAt nextAt ends (by omega) (by omega)
  · intro block mem
    rcases List.mem_append.mp mem with inBefore | inRest
    · exact body.legal block (List.mem_append_left _ inBefore)
    · rcases List.mem_cons.mp inRest with rfl | inRest
      · exact ⟨aligned, large⟩
      · rcases List.mem_cons.mp inRest with rfl | inAfter
        · exact ⟨(Nat.dvd_add_right aligned).mp (sizes ▸ legal.1), by omega⟩
        · exact body.legal block (List.mem_append_right _ (.tail _ inAfter))
  · intro block mem
    simp only [List.mem_append, List.mem_cons] at mem ⊢
    tauto
  · exact body.tails
  · exact body.indexed
  · exact body.placed

/-- `split_chunk_at` stores the words of the two parts. -/
theorem splitChunkAt_eq {first : Block}
    (own : memory (chunk.addr + sizeField) = tagged chunk.size used flag)
    (sizeAligned : 4 ∣ chunk.size) (aligned : 4 ∣ first.size) (positive : 0 < first.size)
    (fits : chunk.limit < 2 ^ 32) (firstAt : first.addr = chunk.addr)
    (nextAt : next.addr = first.limit) (ends : next.limit = chunk.limit) :
    splitChunkAt chunk.addr first.size memory = (next.addr,
      ((memory.write (next.addr + sizeField) 0).write (next.addr + sizeField)
        (tagged next.size false false)).write (first.addr + sizeField)
          (tagged first.size used flag)) := by
  unfold Block.limit at fits nextAt ends
  have isNext : add32 chunk.addr first.size = next.addr := by
    rw [add32_of_lt (by omega)]
    omega
  have own' : memory.write (next.addr + sizeField) 0 (chunk.addr + sizeField) =
      tagged chunk.size used flag := by
    rw [write_other (by omega)]
    exact own
  have left : sub32 chunk.size first.size = next.size := by
    rw [sub32_of_le (by omega) (by omega)]
    omega
  have emptied : setChunkSize next.addr next.size (memory.write (next.addr + sizeField) 0) =
      (memory.write (next.addr + sizeField) 0).write (next.addr + sizeField)
        (tagged next.size false false) := by
    unfold setChunkSize
    rw [write_same, Nat.zero_and, Nat.or_zero]
    rfl
  have own'' : ((memory.write (next.addr + sizeField) 0).write (next.addr + sizeField)
      (tagged next.size false false)) (chunk.addr + sizeField) =
        tagged chunk.size used flag := by
    rw [write_other (by omega)]
    exact own'
  unfold splitChunkAt
  dsimp only
  rw [isNext, getChunkSize_tagged own' sizeAligned (by omega), left, emptied,
    setChunkSize_tagged own'' sizeAligned aligned, firstAt]

/-- The words of a split chunk. -/
theorem Loose.split_words {first : Block} (loose : pool.Loose memory before chunk after)
    (aligned : 4 ∣ first.size) (large : pool.least ≤ first.size)
    (room : first.size + pool.least ≤ chunk.size) (firstAt : first.addr = chunk.addr)
    (nextAt : next.addr = first.limit) (ends : next.limit = chunk.limit)
    (firstFree : first.used = false) (nextFree : next.used = false) :
    ∃ lists flag, pool.Body (splitChunkAt chunk.addr first.size memory).2
        (before ++ first :: next :: after) (before ++ after) lists ∧
      Marks (splitChunkAt chunk.addr first.size memory).2 true
        (before ++ first :: next :: []) ∧
      Marks (splitChunkAt chunk.addr first.size memory).2 flag (after ++ [pool.border]) := by
  obtain ⟨⟨lists, body⟩, free, marksBefore, own, flag, marksAfter⟩ := loose
  have inBlocks : chunk ∈ before ++ chunk :: after := by simp
  have bounds := body.bounds inBlocks
  have high := pool.high_le
  have least := @least_ge pool
  have chunkLimit : chunk.limit = chunk.addr + chunk.size := rfl
  have stored := splitChunkAt_eq own (body.legal chunk inBlocks).1 aligned (by omega) (by omega)
    firstAt nextAt ends
  rw [stored]
  dsimp only
  have cut : pool.Body memory (before ++ first :: next :: after) (before ++ after) lists :=
    body.cut firstAt nextAt ends aligned large room
  have nextBounds := cut.bounds (by simp : next ∈ before ++ first :: next :: after)
  have nextMem : next ∈ before ++ first :: next :: after := by simp
  have firstMem : first ∈ before ++ first :: next :: after := by simp
  have written := ((cut.write_mark 0 (List.mem_append_left _ nextMem)).write_mark
    (tagged next.size false false) (List.mem_append_left _ nextMem)).write_mark
      (tagged first.size false (statusAfter true before)) (List.mem_append_left _ firstMem)
  have kept : ∀ block ∈ before ++ (after ++ [pool.border]),
      ((memory.write (next.addr + sizeField) 0).write (next.addr + sizeField)
        (tagged next.size false false)).write (first.addr + sizeField)
          (tagged first.size false (statusAfter true before)) (block.addr + sizeField) =
        memory (block.addr + sizeField) := by
    intro block mem
    have notFirst : block.addr ≠ first.addr := by
      apply cut.ne_mark
      simp only [List.mem_append, List.mem_cons] at mem ⊢
      tauto
    have notNext : block.addr ≠ next.addr := by
      have shape : before ++ first :: next :: after = (before ++ [first]) ++ next :: after := by
        simp
      rw [shape] at cut
      apply cut.ne_mark
      simp only [List.mem_append, List.mem_singleton] at mem ⊢
      tauto
    rw [write_other (by omega), write_other (by omega), write_other (by omega)]
  refine ⟨lists, flag, written, marks_split.mpr ⟨?_, ?_, ?_, trivial⟩, ?_⟩
  · exact marksBefore.congr fun block mem => kept block (List.mem_append_left _ mem)
  · rw [write_same, firstFree]
  · have different : next.addr ≠ first.addr := by
      unfold Block.limit at nextAt
      omega
    rw [write_other (by omega), write_same, firstFree, nextFree]
  · exact marksAfter.congr fun block mem => kept block (List.mem_append_right _ mem)

/-- The end of a chunk is put back as a chunk of its own. -/
theorem Loose.split {first : Block} (loose : pool.Loose memory before chunk after)
    (aligned : 4 ∣ first.size) (large : pool.least ≤ first.size)
    (room : first.size + pool.least ≤ chunk.size) (firstAt : first.addr = chunk.addr)
    (nextAt : next.addr = first.limit) (ends : next.limit = chunk.limit)
    (firstFree : first.used = false) (nextFree : next.used = false) :
    pool.Loose (insertChunkInFreeList pool.mpool next.addr
      (splitChunkAt chunk.addr first.size memory).2) before first (next :: after) := by
  obtain ⟨lists, flag, body, marks, marksAfter⟩ :=
    loose.split_words aligned large room firstAt nextAt ends firstFree nextFree
  have shape : before ++ first :: next :: after = (before ++ [first]) ++ next :: after := by simp
  have shape' : before ++ first :: next :: [] = (before ++ [first]) ++ next :: [] := by simp
  rw [shape] at body
  rw [shape'] at marks
  obtain ⟨marksFirst, own, -⟩ := marks_split.mp marks
  have more : ∀ block, block ∈ before ++ next :: after ↔
      block = next ∨ block ∈ before ++ after := by
    intro block
    simp only [List.mem_append, List.mem_cons]
    tauto
  have unknown : ∀ block ∈ before ++ after, block.addr ≠ next.addr := by
    intro block mem
    apply ne_addr body.tiles
    simp only [List.mem_append, List.mem_singleton] at mem ⊢
    tauto
  rw [nextFree] at own
  obtain ⟨⟨lists', inserted⟩, marks'⟩ :=
    body.insert_marks nextFree unknown more marksFirst own marksAfter
  rw [← shape] at inserted
  rw [List.append_assoc, List.singleton_append] at marks'
  obtain ⟨marksBefore, own', marksRest⟩ := marks_split.mp marks'
  rw [firstFree] at own'
  exact ⟨⟨lists', inserted⟩, firstFree, marksBefore, own', _, marksRest⟩

/-- The rest of `gma_alloc` after a chunk was taken from its list. -/
theorem Loose.allot (loose : pool.Loose memory before chunk after)
    (separated : Separated (before ++ chunk :: after)) (least : pool.least = pool.minChunk)
    (large : pool.minChunk ≤ size) (enough : size ≤ chunk.size)
    (fits : size + pool.minChunk < 2 ^ 32)
    (aligned : size + pool.minChunk ≤ chunk.size → 4 ∣ size) :
    ∃ memory' lists', allocSplit pool.mpool chunk.addr size memory = some memory' ∧
      pool.WellFormed (Grid.setChunkInUse chunk.addr memory')
        (Tiling.allot pool.minChunk before chunk size after) lists' := by
  have separated' : Separated (Tiling.allot pool.minChunk before chunk size after) :=
    separated_allot separated loose.free
  obtain ⟨lists, body⟩ := loose.body
  have inBlocks : chunk ∈ before ++ chunk :: after := by simp
  have bounds := body.bounds inBlocks
  have high := pool.high_le
  have chunkAligned := (body.legal chunk inBlocks).1
  have ownSize : getChunkSize chunk.addr memory = chunk.size :=
    getChunkSize_tagged loose.own chunkAligned (body.fits inBlocks)
  unfold allocSplit
  dsimp only
  rw [body.indexed.described.minChunk, add32_of_lt fits, ownSize]
  unfold Tiling.allot at *
  by_cases room : size + pool.minChunk ≤ chunk.size
  · have sizeAligned := aligned room
    rw [if_pos room] at separated'
    rw [if_pos room, if_pos room]
    have ends : add32 chunk.addr size = chunk.addr + size := add32_of_lt (by omega)
    have isEnd : (splitChunkAt chunk.addr size memory).1 = chunk.addr + size := ends
    have meets : (⟨chunk.addr + size, chunk.size - size, false⟩ : Block).limit =
        chunk.limit := by
      unfold Block.limit
      dsimp only
      omega
    have split := @Loose.split _ _ _ _ _ _ ⟨chunk.addr, size, false⟩ loose sizeAligned
      (least.trans_le large) (by rw [least]; exact room) rfl rfl meets rfl rfl
    obtain ⟨lists', wellFormed⟩ := split.setChunkInUse separated'
    rw [isEnd, if_pos ⟨body.aligned inBlocks, Nat.dvd_add (body.aligned inBlocks) sizeAligned⟩]
    exact ⟨_, lists', rfl, wellFormed⟩
  · rw [if_neg room] at separated'
    rw [if_neg room, if_neg room]
    obtain ⟨lists', wellFormed⟩ := loose.setChunkInUse separated'
    exact ⟨_, lists', rfl, wellFormed⟩

end Split

section Alloc

/-- What is in the lists that a search comes to is large enough. -/
theorem Body.needed_le (body : pool.Body memory blocks known lists)
    (noWrap : pool.NoWrap request) (reached : pool.Sized (sought (pool.needed request)))
    (mem : block ∈ blocks)
    (upto : Upto (pool.place (sought (pool.needed request))) (pool.place block.size)) :
    pool.needed request ≤ block.size := by
  rcases Nat.le_total ((request + sizeT + 3) / 4 * 4) pool.minChunk with least | enough
  · rw [needed, Nat.max_eq_right least, ← noWrap.least_eq]
    exact (body.legal block mem).2
  · have below : pool.needed request < 2 ^ (pool.flMax + 1) :=
      le_sought.trans_lt (Nat.lt_log2_self.trans_le (Nat.pow_le_pow_right (by decide)
        (Nat.succ_le_succ reached.2.2)))
    apply (pool.sized noWrap.least_le below).le_of_upto (body.sized mem) _ reached upto
    rw [needed, Nat.max_eq_left enough]
    exact Nat.dvd_mul_left ..

/-- The search of `gma_alloc` fails, or comes to a chunk that is large enough. -/
theorem WellFormed.search (wellFormed : pool.WellFormed memory blocks lists)
    (noWrap : pool.NoWrap request) :
    ((getIndexes pool.mpool (pool.needed request) false memory).failed = true ∧
      ∀ block ∈ blocks, block.used = false → block.size < sought (pool.needed request)) ∨
    ∃ (place : Place) (before : List Block) (chunk : Block) (after : List Block),
      getIndexes pool.mpool (pool.needed request) false memory = ⟨false, place.1, place.2⟩ ∧
      blocks = before ++ chunk :: after ∧ chunk.used = false ∧
      pool.needed request ≤ chunk.size ∧
      (removeFirstChunkFromFreeList pool.mpool place.1 place.2 memory).1 = chunk.addr ∧
      pool.Loose (removeFirstChunkFromFreeList pool.mpool place.1 place.2 memory).2
        before chunk after := by
  obtain ⟨body, marks, separated⟩ := wellFormed
  rcases body.indexed.described.getIndexes_search body.indexed.bits noWrap.least_le
    noWrap.rounding with ⟨place, inGrid, filled, reached, upto, found⟩ | ⟨fails, none⟩
  · right
    obtain ⟨chunk, mem, free, isPlace, isFirst, removed, same⟩ := body.removeFirst inGrid filled
    obtain ⟨before, after, rfl⟩ := List.append_of_mem mem
    refine ⟨place, before, chunk, after, found, rfl, free, ?_, isFirst, ?_⟩
    · exact body.needed_le noWrap reached mem (isPlace ▸ upto)
    · have fewer : ∀ block, block ∈ before ++ after ↔
          block ∈ before ++ chunk :: after ∧ block.addr ≠ chunk.addr :=
        fun block => mem_others fun other inRest => ne_addr body.tiles inRest
      have marks' := marks.congr (body.remove_marks same)
      rw [List.append_assoc, List.cons_append] at marks'
      obtain ⟨marksBefore, own, marksAfter⟩ := marks_split.mp marks'
      rw [free] at own
      exact ⟨removed _ fewer, free, marksBefore, own, _, marksAfter⟩
  · left
    refine ⟨fails, fun block mem free => ?_⟩
    apply none block.size (body.sized mem)
    apply List.ne_nil_of_mem
    exact (body.placed _ _).mpr ⟨block, mem, free, rfl, rfl⟩

/-- `gma_alloc` gives `NULL`, or takes a free chunk that is large enough and splits it.  Only a
least size that is not aligned makes it stop the program. -/
theorem WellFormed.gmaAlloc {static mpool : Nat}
    (wellFormed : pool.WellFormed memory blocks lists)
    (descriptor : poolOf static mpool = pool.mpool) (positive : 0 < request)
    (noWrap : pool.NoWrap request) :
    (Grid.gmaAlloc static mpool request memory = some (0, memory) ∧
      ∀ block ∈ blocks, block.used = false → block.size < sought (pool.needed request)) ∨
    (∃ before chunk after memory' lists', blocks = before ++ chunk :: after ∧
      chunk.used = false ∧ pool.needed request ≤ chunk.size ∧
      Grid.gmaAlloc static mpool request memory = some (chunk.addr + 2 * sizeT, memory') ∧
      pool.WellFormed memory'
        (Tiling.allot pool.minChunk before chunk (pool.needed request) after) lists') ∨
    (Grid.gmaAlloc static mpool request memory = none ∧ ¬ 4 ∣ pool.needed request) := by
  have accepted : 0 < request ∧ request < maxChunkSize := by
    refine ⟨positive, ?_⟩
    have header := noWrap.header
    unfold maxChunkSize
    unfold sizeT at header
    omega
  unfold Grid.gmaAlloc
  dsimp only
  rw [if_pos accepted, descriptor,
    wellFormed.body.indexed.described.requestSize noWrap.header]
  rcases wellFormed.search noWrap with ⟨fails, none⟩ |
    ⟨place, before, chunk, after, found, rfl, free, enough, isFirst, loose⟩
  · rw [if_pos fails]
    exact .inl ⟨rfl, none⟩
  · right
    have inBlocks : chunk ∈ before ++ chunk :: after := by simp
    have bounds := wellFormed.body.bounds inBlocks
    have high := pool.high_le
    have nonzero : chunk.addr ≠ 0 := by
      have positive := @low_pos pool
      omega
    have isBlock : add32 chunk.addr (2 * sizeT) = chunk.addr + 2 * sizeT :=
      add32_of_lt (by unfold sizeT; omega)
    have atLeast : pool.minChunk ≤ pool.needed request := le_max_right ..
    rw [found]
    dsimp only
    rw [isFirst, if_neg Bool.false_ne_true, if_neg nonzero,
      if_pos (wellFormed.body.aligned inBlocks), isBlock]
    by_cases aligned : pool.needed request + pool.minChunk ≤ chunk.size → 4 ∣ pool.needed request
    · left
      obtain ⟨memory', lists', allotted, wellFormed'⟩ := loose.allot wellFormed.separated
        noWrap.least_eq atLeast enough noWrap.splitting aligned
      refine ⟨before, chunk, after, _, lists', rfl, free, enough, ?_, wellFormed'⟩
      rw [allotted]
      rfl
    · right
      push Not at aligned
      obtain ⟨room, notAligned⟩ := aligned
      obtain ⟨lists', body⟩ := loose.body
      have ownSize := getChunkSize_tagged loose.own (body.legal chunk inBlocks).1
        (body.fits inBlocks)
      have ends : (splitChunkAt chunk.addr (pool.needed request)
          (removeFirstChunkFromFreeList pool.mpool place.1 place.2 memory).2).1 =
            chunk.addr + pool.needed request := add32_of_lt (by omega)
      have unaligned : ¬ (4 ∣ chunk.addr ∧ 4 ∣ chunk.addr + pool.needed request) :=
        fun both => notAligned ((Nat.dvd_add_right both.1).mp both.2)
      refine ⟨?_, notAligned⟩
      unfold allocSplit
      dsimp only
      rw [body.indexed.described.minChunk, add32_of_lt noWrap.splitting, ownSize, if_pos room,
        ends, if_neg unaligned]
      rfl

end Alloc

end Pool

end Oseer.Grid
