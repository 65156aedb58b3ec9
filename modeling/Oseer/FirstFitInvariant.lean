import Oseer.FirstFitRun

/-!
# The heap invariant in the words of the source

The invariant of the runs is about a layout of blocks.  Here it is read off the
memory alone, with the macros of `ff_simple.h`: the chunks are those met by
following `GET_AFTER` from the low border, and each of them is told by its own
header and tail words.
-/

namespace Oseer.FirstFit

open WordMemory LinkedRing Tiling

/-- Following `GET_AFTER` from `start` meets the given chunks and then comes to
`finish`. -/
def Walk (memory : Memory) : Nat → List Nat → Nat → Prop
  | start, [], finish => start = finish
  | start, chunk :: rest, finish =>
      chunk = start ∧ start < finish ∧ Walk memory (getAfter chunk memory) rest finish

/-- What the memory of a pool looks like between two calls, for a client that
holds the blocks `live`. -/
structure PoolInvariant (mpool high : Nat) (memory : Memory) (live : List (Nat × Nat))
    (chunks free : List Nat) : Prop where
  lowBorder : memory (mpool + sizeT) = setBit0 sizeT
  highBorder : memory high = setBit0 sizeT
  walk : Walk memory (getAfter (mpool + sizeT) memory) chunks high
  size : ∀ chunk ∈ chunks, 4 ∣ getSize chunk memory ∧ headerSize ≤ getSize chunk memory
  tail : ∀ chunk ∈ chunks, memory (getTail chunk memory) = memory chunk
  separated : chunks.IsChain fun left right =>
    ¬ (checkFree left memory ∧ checkFree right memory)
  list : (freeFormat mpool).Holds memory free
  listed : free.Perm (chunks.filter fun chunk => checkFree chunk memory)
  held : (live.map Prod.fst).Perm
    ((chunks.filter fun chunk => ¬ checkFree chunk memory).map (· + sizeT))
  room : ∀ block ∈ live, block.2 + 2 * sizeT ≤ getSize (block.1 - sizeT) memory

variable {mpool low high size segment : Nat} {memory memory' : Memory}
  {blocks : List Block} {free : List Nat} {live : List (Nat × Nat)} {state : HeapState}

theorem WellFormed.getSize_eq (wellFormed : WellFormed mpool low high memory blocks free)
    {block : Block} (mem : block ∈ blocks) : getSize block.addr memory = block.size := by
  have bounds := wellFormed.bounds mem
  rw [getSize, (wellFormed.settled block mem).header,
    clearBit0_word (wellFormed.legal block mem).1 (by omega)]

theorem WellFormed.checkFree_iff (wellFormed : WellFormed mpool low high memory blocks free)
    {block : Block} (mem : block ∈ blocks) :
    checkFree block.addr memory ↔ block.used = false :=
  checkFree_word (wellFormed.legal block mem).1 (wellFormed.settled block mem).header

/-- The walk meets the blocks of a layout in order. -/
theorem walk_of_tiles {start finish : Nat} (tiles : Tiles start blocks finish)
    (after : ∀ block ∈ blocks, getAfter block.addr memory = block.limit) :
    Walk memory start (blocks.map Block.addr) finish := by
  induction blocks generalizing start with
  | nil => exact tiles
  | cons first rest ih =>
      obtain ⟨rfl, positive, tilesRest⟩ := tiles
      have le := tilesRest.le
      refine ⟨rfl, ?_, ?_⟩
      · simp only [Block.limit] at le
        omega
      · rw [after first (by simp)]
        exact ih tilesRest fun block mem => after block (.tail _ mem)

theorem nodup_of_tiles {start finish : Nat} (tiles : Tiles start blocks finish) :
    (blocks.map Block.addr).Nodup := by
  induction blocks generalizing start with
  | nil => simp
  | cons first rest ih =>
      obtain ⟨-, positive, tilesRest⟩ := tiles
      refine List.nodup_cons.mpr ⟨fun clash => ?_, ih tilesRest⟩
      obtain ⟨other, mem, same⟩ := List.mem_map.mp clash
      have bounds := tilesRest.mem_bounds mem
      simp only [Block.limit] at bounds
      omega

theorem WellFormed.mem_filter_free
    (wellFormed : WellFormed mpool low high memory blocks free) {node : Nat} :
    node ∈ (blocks.map Block.addr).filter (fun chunk => checkFree chunk memory) ↔
      node ∈ free := by
  simp only [List.mem_filter, List.mem_map, decide_eq_true_eq]
  constructor
  · rintro ⟨⟨block, mem, rfl⟩, isFree⟩
    exact (wellFormed.listed_iff block mem).mpr ((wellFormed.checkFree_iff mem).mp isFree)
  · intro isListed
    obtain ⟨block, mem, rfl⟩ := wellFormed.listed node isListed
    exact ⟨⟨block, mem, rfl⟩, (wellFormed.checkFree_iff mem).mpr
      ((wellFormed.listed_iff block mem).mp isListed)⟩

theorem WellFormed.mem_filter_used
    (wellFormed : WellFormed mpool low high memory blocks free)
    (holdings : Holdings blocks live) {pointer : Nat} :
    pointer ∈ ((blocks.map Block.addr).filter
        (fun chunk => ¬ checkFree chunk memory)).map (· + sizeT) ↔
      pointer ∈ live.map Prod.fst := by
  simp only [List.mem_map, List.mem_filter, decide_eq_true_eq]
  constructor
  · rintro ⟨_, ⟨⟨block, mem, rfl⟩, notFree⟩, rfl⟩
    have used : block.used = true := by
      simpa using mt (wellFormed.checkFree_iff mem).mpr notFree
    simpa using holdings.owned block mem used
  · rintro ⟨held, inLive, rfl⟩
    obtain ⟨block, mem, used, start, -⟩ := holdings.backed held inLive
    refine ⟨block.addr, ⟨⟨block, mem, rfl⟩, ?_⟩, start.symm⟩
    simp [wellFormed.checkFree_iff mem, used]

/-- A well-formed layout, read off the memory. -/
theorem WellFormed.poolInvariant
    (wellFormed : WellFormed mpool (mpool + sizeT) high memory blocks free)
    (holdings : Holdings blocks live) :
    PoolInvariant mpool high memory live (blocks.map Block.addr) free where
  lowBorder := wellFormed.lowBorder
  highBorder := wellFormed.highBorder
  walk := by
    have first : getAfter (mpool + sizeT) memory = mpool + sizeT + sizeT := by
      have clear : clearBit0 5 = 4 := rfl
      have size4 : sizeT = 4 := rfl
      have le := wellFormed.tiles.le
      have highLt := wellFormed.high_lt
      rw [getAfter, getSize, wellFormed.lowBorder, clear, size4, add32_of_lt (by omega)]
    rw [first]
    exact walk_of_tiles wellFormed.tiles fun block mem =>
      wellFormed.toFrame.getAfter_eq mem (wellFormed.settled block mem).header
  size := by
    simp only [List.forall_mem_map]
    intro block mem
    rw [wellFormed.getSize_eq mem]
    exact wellFormed.legal block mem
  tail := by
    simp only [List.forall_mem_map]
    intro block mem
    have settled := wellFormed.settled block mem
    rw [wellFormed.toFrame.getTail_eq mem settled.header, settled.tail, settled.header]
  separated := by
    rw [List.isChain_map]
    refine List.IsChain.imp_of_mem_imp (fun left right memLeft memRight oneUsed => ?_)
      wellFormed.separated
    rw [wellFormed.checkFree_iff memLeft, wellFormed.checkFree_iff memRight]
    rcases oneUsed with used | used <;> simp [used]
  list := wellFormed.list
  listed := by
    refine (List.perm_ext_iff_of_nodup (List.nodup_cons.mp wellFormed.list.nodup).2
      ((nodup_of_tiles wellFormed.tiles).filter _)).mpr fun node => ?_
    exact wellFormed.mem_filter_free.symm
  held := by
    refine (List.perm_ext_iff_of_nodup holdings.nodup ?_).mpr fun pointer => ?_
    · exact ((nodup_of_tiles wellFormed.tiles).filter _).map fun _ _ same => Nat.add_right_cancel same
    · exact (wellFormed.mem_filter_used holdings).symm
  room := by
    intro held inLive
    obtain ⟨block, mem, -, start, room⟩ := holdings.backed held inLive
    rw [start, Nat.add_sub_cancel, wellFormed.getSize_eq mem]
    exact room

/-- In every state of every run that starts from a pool built by `ffs_init`,
the pool satisfies the heap invariant and `ffs_alloc` returns. -/
theorem pool_invariant (fits : segment + size < 2 ^ 32)
    (built : ffsInit segment size memory = some (mpool, memory')) (success : mpool ≠ 0)
    (run : Relation.ReflTransGen (HeapStep mpool) ⟨memory', []⟩ state) :
    (∃ chunks free, PoolInvariant mpool (highBorder segment size) state.memory
      state.live chunks free) ∧
    ∀ request, request + 11 < 2 ^ 32 → (ffsAlloc mpool request state.memory).isSome := by
  obtain ⟨blocks, free, wellFormed, holdings⟩ := (ffsInit_sound fits built success).run run
  refine ⟨⟨_, free, wellFormed.poolInvariant holdings⟩, fun request requestFits => ?_⟩
  rcases wellFormed.ffsAlloc requestFits with ⟨none, -⟩ | ⟨_, _, _, _, found, -⟩
  · simp [none]
  · simp [found]

/-- A pool in a segment of 1 KiB, after the first allocation. -/
theorem pool_invariant_first_block :
    ∃ built stored, ffsInit 4096 1024 (fun _ => 0) = some (4096, built) ∧
      ffsAlloc 4096 3 built = some (5104, stored) ∧ ∃ chunks free,
        PoolInvariant 4096 (highBorder 4096 1024) stored [(5104, 3)] chunks free := by
  obtain ⟨built, init⟩ : ∃ built, ffsInit 4096 1024 (fun _ => 0) = some (4096, built) :=
    ⟨_, rfl⟩
  obtain ⟨stored, alloc⟩ : ∃ stored, ffsAlloc 4096 3 built = some (5104, stored) := by
    obtain rfl : built = ((ffsInit 4096 1024 fun _ => 0).getD (0, fun _ => 0)).2 := by
      rw [init]; rfl
    exact ⟨_, rfl⟩
  exact ⟨built, stored, init, alloc, (pool_invariant (by decide) init (by decide)
    (.single (.alloc (by decide) alloc))).1⟩

end Oseer.FirstFit
