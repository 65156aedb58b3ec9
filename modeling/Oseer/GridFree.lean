import Oseer.GridChunks

/-!
# Freeing chunks of the grid

`gma_free` joins the chunk with its free neighbours, which leave their lists, and puts the
result into the list for its size.
-/

namespace Oseer.Grid

open WordMemory Tiling

namespace Pool

/-- A free chunk is in no list, and the chunk after it may not know that it is free. -/
structure Loose (pool : Pool) (memory : Memory) (before : List Block) (chunk : Block)
    (after : List Block) : Prop where
  body : ∃ lists, pool.Body memory (before ++ chunk :: after) (before ++ after) lists
  free : chunk.used = false
  marksBefore : Marks memory true before
  own : memory (chunk.addr + sizeField) =
    tagged chunk.size false (statusAfter true before)
  marksAfter : ∃ flag, Marks memory flag (after ++ [pool.border])

variable {pool : Pool} {memory memory' : Memory} {lists : ChunkLists}
  {blocks known before after rest : List Block} {block other chunk next : Block}
  {size : Nat} {used flag : Bool}

section Words

theorem getChunkSize_tagged (own : memory (chunk.addr + sizeField) =
    tagged chunk.size used flag) (aligned : 4 ∣ chunk.size) (fits : chunk.size < 2 ^ 32) :
    getChunkSize chunk.addr memory = chunk.size := by
  unfold getChunkSize
  rw [own, alignDown_tagged aligned fits]

theorem getChunkInuse_tagged (own : memory (chunk.addr + sizeField) =
    tagged chunk.size used flag) (aligned : 4 ∣ chunk.size) :
    getChunkInuse chunk.addr memory = 0 ↔ used = false := by
  unfold getChunkInuse cinuse
  rw [own, tagged_and_two aligned]
  cases used <;> decide

theorem getChunkBinuse_tagged (own : memory (chunk.addr + sizeField) =
    tagged chunk.size used flag) (aligned : 4 ∣ chunk.size) :
    getChunkBinuse chunk.addr memory = 0 ↔ flag = false := by
  unfold getChunkBinuse binuse
  rw [own, tagged_and_one aligned]
  cases flag <;> decide

theorem getChunkAfter_tagged (own : memory (chunk.addr + sizeField) =
    tagged chunk.size used flag) (aligned : 4 ∣ chunk.size) (fits : chunk.limit < 2 ^ 32) :
    getChunkAfter chunk.addr memory = chunk.limit := by
  unfold Block.limit at fits
  unfold getChunkAfter
  rw [getChunkSize_tagged own aligned (by omega)]
  exact add32_of_lt fits

theorem setChunkSize_tagged (own : memory (chunk.addr + sizeField) =
    tagged chunk.size used flag) (aligned : 4 ∣ chunk.size) (aligned' : 4 ∣ size) :
    setChunkSize chunk.addr size memory =
      memory.write (chunk.addr + sizeField) (tagged size used flag) := by
  unfold setChunkSize
  rw [own, tagged_and_three aligned, or_flags aligned']

end Words

section Layout

theorem ne_addr {low high : Nat} (tiles : Tiles low (before ++ chunk :: after) high)
    (mem : block ∈ before ++ after) : block.addr ≠ chunk.addr := by
  have bounds := tiles.mem_bounds (by
    simp only [List.mem_append, List.mem_cons] at mem ⊢
    tauto : block ∈ before ++ chunk :: after)
  have bounds' := tiles.mem_bounds (by simp : chunk ∈ before ++ chunk :: after)
  have apart := tiles.apart mem
  unfold Block.limit at apart
  omega

theorem mem_others (others : ∀ block ∈ before ++ after, block.addr ≠ chunk.addr) :
    block ∈ before ++ after ↔ block ∈ before ++ chunk :: after ∧ block.addr ≠ chunk.addr := by
  constructor
  · intro mem
    refine ⟨?_, others block mem⟩
    simp only [List.mem_append, List.mem_cons] at mem ⊢
    tauto
  · rintro ⟨mem, different⟩
    have notChunk : block ≠ chunk := fun isChunk => different (isChunk ▸ rfl)
    simp only [List.mem_append, List.mem_cons] at mem ⊢
    tauto

theorem Body.ne_mark (body : pool.Body memory (before ++ chunk :: after) known lists)
    (mem : block ∈ before ++ (after ++ [pool.border])) : block.addr ≠ chunk.addr := by
  have bounds := body.bounds (by simp : chunk ∈ before ++ chunk :: after)
  rw [← List.append_assoc] at mem
  rcases List.mem_append.mp mem with inBlocks | isBorder
  · exact ne_addr body.tiles inBlocks
  · obtain rfl := List.mem_singleton.mp isBorder
    unfold border
    dsimp only
    omega

theorem exists_next (tiles : Tiles pool.low (before ++ chunk :: after) pool.high) :
    ∃ next rest, after ++ [pool.border] = next :: rest ∧ next.addr = chunk.limit := by
  obtain ⟨-, -, tilesAfter⟩ := tiles_split.mp tiles
  cases after with
  | nil => exact ⟨pool.border, [], rfl, tilesAfter.symm⟩
  | cons next rest => exact ⟨next, rest ++ [pool.border], rfl, tilesAfter.1⟩

/-- A chunk in use is in no list, so that it need not be accounted for. -/
theorem Body.forget (body : pool.Body memory (before ++ chunk :: after)
      (before ++ chunk :: after) lists) (inUse : chunk.used = true) :
    pool.Body memory (before ++ { chunk with used := false } :: after) (before ++ after)
      lists := by
  have fewer : ∀ block, block ∈ before ++ after → block ∈ before ++ chunk :: after := by
    intro block mem
    simp only [List.mem_append, List.mem_cons] at mem ⊢
    tauto
  constructor
  · exact body.tiles.restatus rfl rfl
  · intro block mem
    rcases List.mem_append.mp mem with inBefore | inRest
    · exact body.legal block (List.mem_append_left _ inBefore)
    · rcases List.mem_cons.mp inRest with rfl | inAfter
      · exact body.legal chunk (by simp)
      · exact body.legal block (List.mem_append_right _ (.tail _ inAfter))
  · intro block mem
    simp only [List.mem_append, List.mem_cons] at mem ⊢
    tauto
  · exact fun block mem free => body.tails block (fewer block mem) free
  · exact body.indexed
  · intro place node
    rw [body.placed]
    constructor
    · rintro ⟨block, mem, free, isNode⟩
      refine ⟨block, ?_, free, isNode⟩
      have notChunk : block ≠ chunk := by
        rintro rfl
        simp [inUse] at free
      simp only [List.mem_append, List.mem_cons] at mem ⊢
      tauto
    · rintro ⟨block, mem, free, isNode⟩
      exact ⟨block, fewer block mem, free, isNode⟩

/-- Two neighbours that are not accounted for may be seen as one. -/
theorem Body.merge {first second : Block}
    (body : pool.Body memory (before ++ first :: second :: after) (before ++ after) lists) :
    pool.Body memory (before ++ ⟨first.addr, first.size + second.size, false⟩ :: after)
      (before ++ after) lists := by
  have legalFirst := body.legal first (by simp)
  have legalSecond := body.legal second (by simp)
  constructor
  · exact body.tiles.join rfl rfl
  · intro block mem
    rcases List.mem_append.mp mem with inBefore | inRest
    · exact body.legal block (List.mem_append_left _ inBefore)
    · rcases List.mem_cons.mp inRest with rfl | inAfter
      · exact ⟨Nat.dvd_add legalFirst.1 legalSecond.1,
          legalFirst.2.trans (Nat.le_add_right ..)⟩
      · exact body.legal block (List.mem_append_right _ (.tail _ (.tail _ inAfter)))
  · intro block mem
    simp only [List.mem_append, List.mem_cons] at mem ⊢
    tauto
  · exact body.tails
  · exact body.indexed
  · exact body.placed

end Layout

section Join

theorem Body.write_mark (body : pool.Body memory blocks known lists) (value : Nat)
    (mem : chunk ∈ blocks ++ [pool.border]) :
    pool.Body (memory.write (chunk.addr + sizeField) value) blocks known lists := by
  have bounds := body.mark_bounds mem
  apply body.write value bounds.1 bounds.2
  intro block inKnown
  exact body.mark_outside mem (body.member block inKnown)

theorem Body.write_other_mark {value : Nat} (different : block.addr ≠ chunk.addr) :
    memory.write (chunk.addr + sizeField) value (block.addr + sizeField) =
      memory (block.addr + sizeField) :=
  write_other (by omega)

/-- A removal keeps the words of all blocks. -/
theorem Body.remove_marks (body : pool.Body memory blocks known lists)
    (same : ∀ address, pool.low ≤ address → address < pool.high + 8 →
      (∀ block ∈ known, address < block.addr + 8 ∨ block.addr + 16 ≤ address) →
      memory' address = memory address) :
    ∀ block ∈ blocks ++ [pool.border],
      memory' (block.addr + sizeField) = memory (block.addr + sizeField) := by
  intro block mem
  have bounds := body.mark_bounds mem
  apply same _ bounds.1 bounds.2
  intro other inKnown
  have boundsOther := body.bounds (body.member other inKnown)
  have outside := body.mark_outside mem (body.member other inKnown)
  unfold Block.limit at outside
  omega

/-- What `gma_free` sees before the chunk: a chunk in use or the border, or a free chunk. -/
theorem Loose.before_cases (loose : pool.Loose memory before chunk after) :
    getChunkBefore chunk.addr memory = 0 ∧ Tiling.joinBefore before chunk = (before, chunk) ∨
    ∃ init last, before = init ++ [last] ∧ last.used = false ∧
      getChunkBefore chunk.addr memory = last.addr ∧ last.addr ≠ 0 ∧
      getChunkInuse last.addr memory = 0 ∧
      memory (last.addr + sizeField) = tagged last.size false (statusAfter true init) := by
  obtain ⟨⟨lists, body⟩, free, marksBefore, own, flag, marksAfter⟩ := loose
  have inBlocks : chunk ∈ before ++ chunk :: after := by simp
  have aligned := (body.legal chunk inBlocks).1
  have flagged : statusAfter true before = true → getChunkBefore chunk.addr memory = 0 := by
    intro inUse
    apply if_pos
    rw [Ne, getChunkBinuse_tagged own aligned, inUse]
    decide
  cases before using List.reverseRecOn with
  | nil => exact .inl ⟨flagged rfl, rfl⟩
  | append_singleton init last _ =>
      rw [statusAfter_concat] at own flagged
      cases status : last.used with
      | true => exact .inl ⟨flagged status, joinBefore_used status⟩
      | false =>
          rw [status] at own
          have shape : init ++ [last] ++ chunk :: after = init ++ last :: chunk :: after := by simp
          have lastMem : last ∈ init ++ [last] ++ chunk :: after := by simp
          have lastKnown : last ∈ init ++ [last] ++ after := by simp
          have bounds := body.bounds inBlocks
          have lastBounds := body.bounds lastMem
          have high := pool.high_le
          have positive := @low_pos pool
          have meets : last.limit = chunk.addr := by
            have tiles := body.tiles
            rw [shape] at tiles
            exact (tiles_split.mp tiles).2.2.1.symm
          have lastLimit : last.limit = last.addr + last.size := rfl
          obtain ⟨marksInit, lastOwn, -⟩ := marks_split.mp marksBefore
          rw [status] at lastOwn
          have lastAligned := (body.legal last lastMem).1
          refine .inr ⟨init, last, rfl, status, ?_, by omega, ?_, lastOwn⟩
          · unfold getChunkBefore
            rw [if_neg (not_not.mpr ((getChunkBinuse_tagged own aligned).mpr rfl)), ← meets,
              body.tails last lastKnown status, meets, sub32_of_le (by omega) (by omega)]
            omega
          · exact (getChunkInuse_tagged lastOwn lastAligned).mpr rfl

/-- What `gma_free` sees after the chunk: a chunk in use or the border, or a free chunk. -/
theorem Loose.after_cases (loose : pool.Loose memory before chunk after) :
    getChunkInuse (getChunkAfter chunk.addr memory) memory ≠ 0 ∧
      Tiling.joinAfter chunk after = (chunk, after) ∨
    ∃ first rest flag, after = first :: rest ∧ first.used = false ∧
      getChunkAfter chunk.addr memory = first.addr ∧ first.addr ≠ 0 ∧
      getChunkInuse first.addr memory = 0 ∧
      memory (first.addr + sizeField) = tagged first.size false flag := by
  obtain ⟨⟨lists, body⟩, free, marksBefore, own, flag, marksAfter⟩ := loose
  have inBlocks : chunk ∈ before ++ chunk :: after := by simp
  have aligned := (body.legal chunk inBlocks).1
  have bounds := body.bounds inBlocks
  have high := pool.high_le
  have positive := @low_pos pool
  have chunkLimit : chunk.limit = chunk.addr + chunk.size := rfl
  obtain ⟨next, rest, nextShape, nextAt⟩ := exists_next body.tiles
  have isAfter : getChunkAfter chunk.addr memory = next.addr := by
    rw [nextAt]
    exact getChunkAfter_tagged own aligned (by omega)
  rw [nextShape] at marksAfter
  obtain ⟨nextOwn, marksRest⟩ := marksAfter
  have inUse : next.used = true → 4 ∣ next.size →
      getChunkInuse (getChunkAfter chunk.addr memory) memory ≠ 0 := by
    intro used nextAligned
    rw [isAfter, Ne, getChunkInuse_tagged nextOwn nextAligned, used]
    decide
  cases after with
  | nil =>
      obtain ⟨rfl, -⟩ := List.cons.inj nextShape
      exact .inl ⟨inUse rfl dvd_rfl, rfl⟩
  | cons first others =>
      obtain ⟨rfl, rfl⟩ := List.cons.inj nextShape
      have firstAligned := (body.legal first (by simp)).1
      cases status : first.used with
      | true => exact .inl ⟨inUse status firstAligned, joinAfter_used status⟩
      | false =>
          rw [status] at nextOwn
          have firstBounds := body.bounds (by simp : first ∈ before ++ chunk :: first :: others)
          exact .inr ⟨first, others, flag, rfl, status, isAfter, by omega,
            (getChunkInuse_tagged nextOwn firstAligned).mpr rfl, nextOwn⟩

/-- The chunk is joined with a free one before it. -/
theorem Loose.joinBefore (loose : pool.Loose memory before chunk after) :
    (joinBefore pool.mpool chunk.addr memory).1 = (Tiling.joinBefore before chunk).2.addr ∧
      pool.Loose (joinBefore pool.mpool chunk.addr memory).2
        (Tiling.joinBefore before chunk).1 (Tiling.joinBefore before chunk).2 after := by
  rcases loose.before_cases with ⟨noBefore, isSame⟩ |
    ⟨init, last, rfl, status, isBefore, nonzero, isFree, lastOwn⟩
  · have result : Grid.joinBefore pool.mpool chunk.addr memory = (chunk.addr, memory) := by
      unfold Grid.joinBefore
      dsimp only
      rw [noBefore, if_neg (by simp)]
    rw [result, isSame]
    exact ⟨rfl, loose⟩
  · obtain ⟨⟨lists, body⟩, free, marksBefore, own, flag, marksAfter⟩ := loose
    rw [joinBefore_free status]
    have inBlocks : chunk ∈ init ++ [last] ++ chunk :: after := by simp
    have aligned := (body.legal chunk inBlocks).1
    have shape : init ++ [last] ++ chunk :: after = init ++ last :: chunk :: after := by simp
    have lastMem : last ∈ init ++ [last] ++ chunk :: after := by simp
    have lastKnown : last ∈ init ++ [last] ++ after := by simp
    have lastAligned := (body.legal last lastMem).1
    have bounds := body.bounds inBlocks
    have lastBounds := body.bounds lastMem
    have high := pool.high_le
    have meets : last.addr + last.size = chunk.addr := by
      have tiles := body.tiles
      rw [shape] at tiles
      exact (tiles_split.mp tiles).2.2.1.symm
    obtain ⟨marksInit, -⟩ := marks_split.mp marksBefore
    have fewer : ∀ block, block ∈ init ++ after ↔
        block ∈ init ++ [last] ++ after ∧ block.addr ≠ last.addr := by
      intro block
      rw [List.append_assoc, List.singleton_append]
      apply mem_others
      intro other mem
      have tiles := body.tiles
      rw [shape] at tiles
      apply ne_addr tiles
      simp only [List.mem_append, List.mem_cons] at mem ⊢
      tauto
    obtain ⟨⟨lists', removed⟩, same⟩ := body.remove lastKnown status ⟨_, lastOwn⟩ fewer
    have marks := body.remove_marks same
    have result : Grid.joinBefore pool.mpool chunk.addr memory = (last.addr,
        (removeChunkFromFreeList pool.mpool last.addr memory).write (last.addr + sizeField)
          (tagged (last.size + chunk.size) false (statusAfter true init))) := by
      unfold Grid.joinBefore
      dsimp only
      rw [isBefore, if_pos ⟨nonzero, isFree⟩]
      unfold joinChunks
      have lastOwn' := (marks last (List.mem_append_left _ lastMem)).trans lastOwn
      have own' := (marks chunk (List.mem_append_left _ inBlocks)).trans own
      rw [getChunkSize_tagged lastOwn' lastAligned (body.fits lastMem),
        getChunkSize_tagged own' aligned (body.fits inBlocks), add32_of_lt (by omega),
        setChunkSize_tagged lastOwn' lastAligned (Nat.dvd_add lastAligned aligned)]
    generalize removeChunkFromFreeList pool.mpool last.addr memory = memory₁ at *
    rw [result]
    dsimp only
    have written : pool.Body (memory₁.write (last.addr + sizeField)
        (tagged (last.size + chunk.size) false (statusAfter true init)))
        (init ++ [last] ++ chunk :: after) (init ++ after) lists' :=
      removed.write_mark _ (List.mem_append_left [pool.border] lastMem)
    rw [shape] at written
    have kept : ∀ block ∈ init ++ (after ++ [pool.border]),
        memory₁.write (last.addr + sizeField)
          (tagged (last.size + chunk.size) false (statusAfter true init))
          (block.addr + sizeField) = memory (block.addr + sizeField) := by
      intro block mem
      have different : block.addr ≠ last.addr := by
        apply written.ne_mark
        simp only [List.mem_append, List.mem_cons] at mem ⊢
        tauto
      rw [write_other (by omega)]
      apply marks
      simp only [List.mem_append, List.mem_cons] at mem ⊢
      tauto
    refine ⟨rfl, ⟨lists', written.merge⟩, rfl, ?_, write_same, flag, ?_⟩
    · exact marksInit.congr fun block mem => kept block (List.mem_append_left _ mem)
    · exact marksAfter.congr fun block mem => kept block (List.mem_append_right _ mem)

/-- The chunk is joined with a free one after it. -/
theorem Loose.joinAfter (loose : pool.Loose memory before chunk after) :
    (Tiling.joinAfter chunk after).1.addr = chunk.addr ∧
      pool.Loose (joinAfter pool.mpool chunk.addr memory) before
        (Tiling.joinAfter chunk after).1 (Tiling.joinAfter chunk after).2 := by
  rcases loose.after_cases with ⟨notFree, isSame⟩ |
    ⟨first, rest, nextFlag, rfl, status, isAfter, nonzero, isFree, firstOwn⟩
  · have result : Grid.joinAfter pool.mpool chunk.addr memory = memory := by
      unfold Grid.joinAfter
      dsimp only
      rw [if_neg fun joins => notFree joins.2]
    rw [result, isSame]
    exact ⟨rfl, loose⟩
  · obtain ⟨⟨lists, body⟩, free, marksBefore, own, flag, marksAfter⟩ := loose
    obtain ⟨-, marksRest⟩ := marksAfter
    rw [joinAfter_free status]
    have inBlocks : chunk ∈ before ++ chunk :: first :: rest := by simp
    have firstMem : first ∈ before ++ chunk :: first :: rest := by simp
    have firstKnown : first ∈ before ++ first :: rest := by simp
    have aligned := (body.legal chunk inBlocks).1
    have firstAligned := (body.legal first firstMem).1
    have bounds := body.bounds inBlocks
    have firstBounds := body.bounds firstMem
    have high := pool.high_le
    have shape : before ++ chunk :: first :: rest =
        (before ++ [chunk]) ++ first :: rest := by simp
    have meets : first.addr = chunk.addr + chunk.size :=
      (tiles_split.mp body.tiles).2.2.1
    have fewer : ∀ block, block ∈ before ++ rest ↔
        block ∈ before ++ first :: rest ∧ block.addr ≠ first.addr := by
      intro block
      apply mem_others
      intro other mem
      have tiles := body.tiles
      rw [shape] at tiles
      apply ne_addr tiles
      simp only [List.mem_append, List.mem_singleton] at mem ⊢
      tauto
    obtain ⟨⟨lists', removed⟩, same⟩ := body.remove firstKnown status ⟨_, firstOwn⟩ fewer
    have marks := body.remove_marks same
    have result : Grid.joinAfter pool.mpool chunk.addr memory =
        (removeChunkFromFreeList pool.mpool first.addr memory).write (chunk.addr + sizeField)
          (tagged (chunk.size + first.size) false (statusAfter true before)) := by
      unfold Grid.joinAfter
      dsimp only
      rw [isAfter, if_pos ⟨nonzero, isFree⟩]
      unfold joinChunks
      have firstOwn' := (marks first (List.mem_append_left _ firstMem)).trans firstOwn
      have own' := (marks chunk (List.mem_append_left _ inBlocks)).trans own
      rw [getChunkSize_tagged own' aligned (body.fits inBlocks),
        getChunkSize_tagged firstOwn' firstAligned (body.fits firstMem),
        add32_of_lt (by omega),
        setChunkSize_tagged own' aligned (Nat.dvd_add aligned firstAligned)]
    generalize removeChunkFromFreeList pool.mpool first.addr memory = memory₁ at *
    rw [result]
    dsimp only
    have written : pool.Body (memory₁.write (chunk.addr + sizeField)
        (tagged (chunk.size + first.size) false (statusAfter true before)))
        (before ++ chunk :: first :: rest) (before ++ rest) lists' :=
      removed.write_mark _ (List.mem_append_left [pool.border] inBlocks)
    have kept : ∀ block ∈ before ++ (rest ++ [pool.border]),
        memory₁.write (chunk.addr + sizeField)
          (tagged (chunk.size + first.size) false (statusAfter true before))
          (block.addr + sizeField) = memory (block.addr + sizeField) := by
      intro block mem
      have different : block.addr ≠ chunk.addr := by
        apply written.ne_mark
        simp only [List.mem_append, List.mem_cons] at mem ⊢
        tauto
      rw [write_other (by omega)]
      apply marks
      simp only [List.mem_append, List.mem_cons] at mem ⊢
      tauto
    refine ⟨rfl, ⟨lists', written.merge⟩, rfl, ?_, write_same, first.used, ?_⟩
    · exact marksBefore.congr fun block mem => kept block (List.mem_append_left _ mem)
    · exact marksRest.congr fun block mem => kept block (List.mem_append_right _ mem)

end Join

section Free

/-- A chunk is put into its list, and the block after it is told. -/
theorem Body.insert_marks
    (body : pool.Body memory (before ++ chunk :: after) known lists)
    (free : chunk.used = false) (unknown : ∀ block ∈ known, block.addr ≠ chunk.addr)
    (more : ∀ block, block ∈ rest ↔ block = chunk ∨ block ∈ known)
    (marksBefore : Marks memory true before)
    (own : memory (chunk.addr + sizeField) =
      tagged chunk.size false (statusAfter true before))
    (marksAfter : Marks memory flag (after ++ [pool.border])) :
    (∃ lists', pool.Body (insertChunkInFreeList pool.mpool chunk.addr memory)
      (before ++ chunk :: after) rest lists') ∧
      Marks (insertChunkInFreeList pool.mpool chunk.addr memory) true
        (before ++ chunk :: (after ++ [pool.border])) := by
  have inBlocks : chunk ∈ before ++ chunk :: after := by simp
  obtain ⟨next, others, nextShape, nextAt⟩ := exists_next body.tiles
  rw [nextShape] at marksAfter
  obtain ⟨nextOwn, marksRest⟩ := marksAfter
  have nextMem : next ∈ (before ++ chunk :: after) ++ [pool.border] := by
    have inAfter : next ∈ after ++ [pool.border] := by simp [nextShape]
    simp only [List.mem_append, List.mem_cons] at inAfter ⊢
    tauto
  obtain ⟨inserted, own', nextOwn', same⟩ :=
    body.insert inBlocks free unknown nextMem nextAt own nextOwn more
  generalize insertChunkInFreeList pool.mpool chunk.addr memory = memory' at *
  refine ⟨inserted, ?_⟩
  -- the blocks behind the next one lie higher, those before the chunk lower
  have blocks : (before ++ chunk :: after) ++ [pool.border] =
      before ++ chunk :: next :: others := by
    rw [← nextShape]
    simp
  have notNext : ∀ block ∈ before ++ others, block.addr ≠ next.addr := by
    have tiles : Tiles pool.low (before ++ chunk :: next :: others) (pool.high + 4) := by
      rw [← blocks]
      exact tiles_append.mpr ⟨_, body.tiles, rfl, show 0 < 4 by decide, rfl⟩
    intro block mem
    have shape : before ++ chunk :: next :: others = (before ++ [chunk]) ++ next :: others := by
      simp
    rw [shape] at tiles
    apply ne_addr tiles
    simp only [List.mem_append, List.mem_singleton] at mem ⊢
    tauto
  have notChunk : ∀ block ∈ before ++ others, block.addr ≠ chunk.addr := by
    intro block mem
    apply body.ne_mark
    rw [nextShape]
    simp only [List.mem_append, List.mem_cons] at mem ⊢
    tauto
  have kept : ∀ block ∈ before ++ others,
      memory' (block.addr + sizeField) = memory (block.addr + sizeField) := by
    intro block mem
    apply same block _ (notChunk block mem) (notNext block mem)
    rw [blocks]
    simp only [List.mem_append, List.mem_cons] at mem ⊢
    tauto
  rw [nextShape]
  refine marks_split.mpr ⟨?_, ?_, ?_, ?_⟩
  · exact marksBefore.congr fun block mem => kept block (List.mem_append_left _ mem)
  · rw [free]
    exact own'
  · rw [free]
    exact nextOwn'
  · exact marksRest.congr fun block mem => kept block (List.mem_append_right _ mem)

/-- All chunks are accounted for again. -/
theorem Loose.insert (loose : pool.Loose memory before chunk after)
    (separated : Separated (before ++ chunk :: after)) :
    ∃ lists, pool.WellFormed (insertChunkInFreeList pool.mpool chunk.addr memory)
      (before ++ chunk :: after) lists := by
  obtain ⟨⟨lists, body⟩, free, marksBefore, own, flag, marksAfter⟩ := loose
  have more : ∀ block, block ∈ before ++ chunk :: after ↔
      block = chunk ∨ block ∈ before ++ after := by
    intro block
    simp only [List.mem_append, List.mem_cons]
    tauto
  obtain ⟨⟨lists', inserted⟩, marks⟩ := body.insert_marks free
    (fun block mem => ne_addr body.tiles mem) more marksBefore own marksAfter
  refine ⟨lists', inserted, ?_, separated⟩
  rw [List.append_assoc]
  exact marks

/-- A chunk in use that is marked as free. -/
theorem WellFormed.clear (wellFormed : pool.WellFormed memory (before ++ chunk :: after) lists)
    (inUse : chunk.used = true) :
    pool.Loose (clearChunkInuse chunk.addr memory) before ⟨chunk.addr, chunk.size, false⟩
      after := by
  obtain ⟨body, marks, -⟩ := wellFormed
  rw [List.append_assoc, List.cons_append] at marks
  obtain ⟨marksBefore, own, marksAfter⟩ := marks_split.mp marks
  have inBlocks : chunk ∈ before ++ chunk :: after := by simp
  have aligned := (body.legal chunk inBlocks).1
  have forgotten := body.forget inUse
  have cleared : clearChunkInuse chunk.addr memory = memory.write (chunk.addr + sizeField)
      (tagged chunk.size false (statusAfter true before)) := by
    unfold clearChunkInuse cinuse
    rw [own, tagged_clear_two aligned (body.fits inBlocks)]
  have kept : ∀ block ∈ before ++ (after ++ [pool.border]),
      memory.write (chunk.addr + sizeField)
        (tagged chunk.size false (statusAfter true before)) (block.addr + sizeField) =
          memory (block.addr + sizeField) := by
    intro block mem
    have different := forgotten.ne_mark mem
    exact write_other fun same => different (Nat.add_right_cancel same)
  have freedMem : (⟨chunk.addr, chunk.size, false⟩ : Block) ∈
      (before ++ ⟨chunk.addr, chunk.size, false⟩ :: after) ++ [pool.border] := by simp
  have written := forgotten.write_mark (tagged chunk.size false (statusAfter true before)) freedMem
  rw [cleared]
  refine ⟨⟨lists, written⟩, rfl, ?_, write_same, chunk.used, ?_⟩
  · exact marksBefore.congr fun block mem => kept block (List.mem_append_left _ mem)
  · exact marksAfter.congr fun block mem => kept block (List.mem_append_right _ mem)

/-- The assertions of `gma_free` about a block. -/
theorem WellFormed.freeable
    (wellFormed : pool.WellFormed memory (before ++ chunk :: after) lists)
    (inUse : chunk.used = true) :
    sub32 (chunk.addr + 2 * sizeT) (2 * sizeT) = chunk.addr ∧
      chunk.addr + 2 * sizeT ≠ 0 ∧ getChunkInuse chunk.addr memory ≠ 0 ∧
      ¬ isBorderChunk chunk.addr memory ∧ 4 ∣ chunk.addr := by
  obtain ⟨body, marks, -⟩ := wellFormed
  rw [List.append_assoc, List.cons_append] at marks
  obtain ⟨-, own, -⟩ := marks_split.mp marks
  have inBlocks : chunk ∈ before ++ chunk :: after := by simp
  have aligned := (body.legal chunk inBlocks).1
  have bounds := body.bounds inBlocks
  have high := pool.high_le
  have positive := @low_pos pool
  refine ⟨?_, by omega, ?_, ?_, body.aligned inBlocks⟩
  · rw [sub32_of_le (by unfold sizeT; omega) (by omega)]
    omega
  · rw [Ne, getChunkInuse_tagged own aligned, inUse]
    decide
  · unfold isBorderChunk
    rw [getChunkSize_tagged own aligned (body.fits inBlocks)]
    unfold borderChunkSize
    omega

/-- `gma_free` gives a block back. -/
theorem WellFormed.gmaFree {static mpool : Nat}
    (wellFormed : pool.WellFormed memory (before ++ chunk :: after) lists)
    (inUse : chunk.used = true) (descriptor : poolOf static mpool = pool.mpool) :
    ∃ memory' lists', gmaFree static mpool (chunk.addr + 2 * sizeT) memory = some memory' ∧
      pool.WellFormed memory' (release before chunk after) lists' := by
  obtain ⟨isChunk, asserted⟩ := wellFormed.freeable inUse
  obtain ⟨separatedBefore, separatedAfter, -⟩ := separated_split.mp wellFormed.separated
  obtain ⟨joinedAddr, joined⟩ := (wellFormed.clear inUse).joinBefore
  obtain ⟨sameAddr, joined'⟩ := joined.joinAfter
  dsimp only at joinedAddr joined sameAddr joined'
  have joinedAligned : 4 ∣ (Tiling.joinBefore before ⟨chunk.addr, chunk.size, false⟩).2.addr := by
    obtain ⟨lists', body'⟩ := joined.body
    exact body'.aligned (by simp)
  have separated' : Separated (release before chunk after) :=
    separated_release separatedBefore separatedAfter
  obtain ⟨lists', wellFormed'⟩ := joined'.insert separated'
  rw [sameAddr] at wellFormed'
  refine ⟨_, lists', ?_, wellFormed'⟩
  unfold Grid.gmaFree
  dsimp only
  rw [isChunk, if_pos asserted, descriptor, joinedAddr, if_pos joinedAligned]

end Free

end Pool

end Oseer.Grid
