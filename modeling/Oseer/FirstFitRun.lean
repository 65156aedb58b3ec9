import Mathlib.Logic.Relation
import Oseer.FirstFitAlloc

/-!
# Runs of the first-fit allocator

A client builds a pool with `ffs_init`, allocates and frees blocks in any
order and writes inside the blocks it holds.  Every state of such a run is
well formed, and its chunks in use are the blocks that the client holds.
-/

namespace Oseer.FirstFit

open WordMemory LinkedRing Tiling

variable {mpool low high size segment : Nat} {memory memory' : Memory}
  {blocks : List Block} {block : Block} {free : List Nat}

section Init

theorem clearBit0_even {size : Nat} (even : 4 ∣ size) (fits : size < 2 ^ 32) :
    clearBit0 size = size := by
  rw [clearBit0_eq fits]; omega

private theorem getAfter_even {chunk : Nat} (header : memory chunk = size)
    (even : 4 ∣ size) (fits : chunk + size < 2 ^ 32) :
    getAfter chunk memory = chunk + size := by
  rw [getAfter, getSize, header, clearBit0_even even (by omega), add32_of_lt fits]

private theorem putBorder_apply {border address : Nat} :
    putBorder border memory address = if address = border then 5 else memory address := by
  have mark : setBit0 sizeT = 5 := rfl
  by_cases same : address = border <;> simp [putBorder, markUsed, write_apply, same, mark]

private theorem putChunk_apply {chunk address : Nat} (even : 4 ∣ size) (large : headerSize ≤ size)
    (fits : chunk + size < 2 ^ 32) :
    putChunk chunk size memory address =
      if address = chunk + size - 4 ∨ address = chunk then size else memory address := by
  have header16 : headerSize = 16 := rfl
  have header : markFree chunk (memory.write chunk size) chunk = size := by
    rw [markFree, write_same, write_same, clearBit0_even even (by omega)]
  have tail : getTail chunk (markFree chunk (memory.write chunk size)) =
      chunk + size - 4 := by
    have size4 : sizeT = 4 := rfl
    rw [getTail, getAfter_even header even fits, sub32_of_le fits (by omega), size4]
  rw [putChunk, cloneSizeToTail, tail, header]
  by_cases isTail : address = chunk + size - 4
  · simp [isTail, write_same]
  · by_cases isHeader : address = chunk
    · rw [write_other isTail, isHeader, header]
      simp
    · simp [write_other, markFree, isTail, isHeader]

/-- Address of the high border word of a pool built in the given segment. -/
def highBorder (segment size : Nat) : Nat :=
  sub32 (alignDown (add32 segment size)) sizeT

/-- `ffs_init` stores the borders and one free chunk between them. -/
theorem ffsInit_wellFormed (fits : segment + size < 2 ^ 32)
    (built : ffsInit segment size memory = some (mpool, memory')) (success : mpool ≠ 0) :
    WellFormed mpool (mpool + sizeT) (highBorder segment size) memory'
      [⟨mpool + 8, highBorder segment size - (mpool + 8), false⟩] [mpool + 8] := by
  have size4 : sizeT = 4 := rfl
  have header16 : headerSize = 16 := rfl
  have guard : segment ≠ 0 ∧ 12 * 2 < size := by
    by_contra fails
    simp [ffsInit, fails] at built
  have start : alignUp segment = (segment + 3) / 4 * 4 := alignUp_eq (by omega)
  have finish : alignDown (add32 segment size) = (segment + size) / 4 * 4 := by
    rw [add32_of_lt fits, alignDown_eq fits]
  have highIs : highBorder segment size = (segment + size) / 4 * 4 - 4 := by
    rw [highBorder, finish, sub32_of_le (by omega) (by omega), size4]
  have next : add32 ((segment + 3) / 4 * 4) sizeT = (segment + 3) / 4 * 4 + 4 :=
    add32_of_lt (by omega)
  simp only [ffsInit, if_pos guard, start, finish, next] at built
  rw [highIs]
  have bounds : (segment + 3) / 4 * 4 + 4 ≤ (segment + size) / 4 * 4 ∧
      0 < (segment + 3) / 4 * 4 ∧ (segment + size) / 4 * 4 < 2 ^ 32 := by omega
  have alignedPool : 4 ∣ (segment + 3) / 4 * 4 := Nat.dvd_mul_left ..
  have alignedEnd : 4 ∣ (segment + size) / 4 * 4 := Nat.dvd_mul_left ..
  generalize (segment + 3) / 4 * 4 = pool at built bounds alignedPool
  generalize (segment + size) / 4 * 4 = finish at built bounds alignedEnd
  have area : sub32 finish (pool + 4) = finish - (pool + 4) :=
    sub32_of_le (by omega) (by omega)
  rw [area] at built
  split_ifs at built with small
  · simp only [Option.some.injEq, Prod.mk.injEq] at built
    exact absurd built.1.symm success
  have firstSize : sub32 (finish - (pool + 4)) (2 * sizeT) = finish - (pool + 4) - 8 :=
    sub32_of_le (by omega) (by omega)
  have chunkIs : getAfter (pool + 4) (putBorder (pool + 4) (memory.write pool 0)) =
      pool + 8 := by
    have clear : clearBit0 5 = 4 := rfl
    rw [getAfter, getSize, putBorder_apply, if_pos rfl, clear, add32_of_lt (by omega)]
  rw [firstSize, chunkIs] at built
  generalize sizeIs : finish - (pool + 4) - 8 = chunkSize at built
  have even : 4 ∣ chunkSize := by omega
  have large : headerSize ≤ chunkSize := by omega
  have top : pool + 8 + chunkSize < 2 ^ 32 := by omega
  have borderIs : getAfter (pool + 8) (putChunk (pool + 8) chunkSize
      (putBorder (pool + 4) (memory.write pool 0))) = pool + 8 + chunkSize := by
    refine getAfter_even ?_ even top
    rw [putChunk_apply even large top, if_pos (.inr rfl)]
  rw [borderIs] at built
  simp only [Option.some.injEq, Prod.mk.injEq] at built
  obtain ⟨rfl, rfl⟩ := built
  have highEq : pool + 8 + chunkSize = finish - 4 := by omega
  have sizeEq : finish - 4 - (pool + 8) = chunkSize := by omega
  rw [sizeEq]
  generalize storedIs : putBorder (pool + 8 + chunkSize) (putChunk (pool + 8) chunkSize
      (putBorder (pool + 4) (memory.write pool 0))) = stored
  have value : ∀ address, stored address =
      if address = pool + 8 + chunkSize then 5
      else if address = pool + 8 + chunkSize - 4 ∨ address = pool + 8 then chunkSize
      else if address = pool + 4 then 5
      else if address = pool then 0 else memory address := by
    intro address
    rw [← storedIs, putBorder_apply, putChunk_apply even large top, putBorder_apply,
      write_apply]
  have frame : Frame pool (pool + sizeT) (finish - 4) stored
      [⟨pool + 8, chunkSize, false⟩] [] :=
    { low_eq := rfl
      pool_pos := bounds.2.1
      pool_aligned := alignedPool
      high_lt := by omega
      tiles := by simp only [tiles_cons, tiles_nil, Block.limit]; omega
      legal := by simp [even, large]
      lowBorder := by
        rw [value, if_neg (by omega), if_neg (by omega), if_pos (by omega)]
      highBorder := by rw [value, if_pos (by omega)]
      list := ListFormat.holds_nil (by
        rw [freeFormat_head, value, if_neg (by omega), if_neg (by omega), if_neg (by omega),
          if_pos rfl])
      listed := by simp }
  have member : (⟨pool + 8, chunkSize, false⟩ : Block) ∈
      [⟨pool + 8, chunkSize, false⟩] := by simp
  obtain ⟨inserted, same⟩ := frame.insert member (by simp)
  have settled : Settled stored ⟨pool + 8, chunkSize, false⟩ := by
    constructor
    · simp only [word, Bool.toNat_false, Nat.add_zero]
      rw [value, if_neg (by omega), if_pos (by omega)]
    · simp only [word, Bool.toNat_false, Nat.add_zero, Block.limit, size4]
      rw [value, if_neg (by omega), if_pos (by omega)]
  exact
    { inserted with
      settled := by
        simpa using frame.same_settled same (by simp) settled
      separated := by simp [Separated]
      listed_iff := by simp }

end Init

/-- The memory of the pool, and the blocks that the client holds, each with the
number of bytes asked for. -/
structure HeapState where
  memory : Memory
  live : List (Nat × Nat)

/-- The word that holds a byte. -/
def wordOf (byte : Nat) : Nat := byte / 4 * 4

/-- The word at this address holds no byte of a block of the client. -/
def OutsideBlocks (live : List (Nat × Nat)) (address : Nat) : Prop :=
  ∀ held ∈ live, ∀ byte, held.1 ≤ byte → byte < held.1 + held.2 →
    address ≠ wordOf byte

/-- One step of the client: it allocates, frees a block that it holds, or
writes inside its blocks. -/
inductive HeapStep (mpool : Nat) : HeapState → HeapState → Prop
  | alloc {memory memory' : Memory} {live : List (Nat × Nat)} {size pointer : Nat}
      (fits : size + 11 < 2 ^ 32)
      (result : ffsAlloc mpool size memory = some (pointer, memory')) :
      HeapStep mpool ⟨memory, live⟩
        ⟨memory', if pointer = 0 then live else (pointer, size) :: live⟩
  | free {memory : Memory} {front back : List (Nat × Nat)} {pointer size : Nat} :
      HeapStep mpool ⟨memory, front ++ (pointer, size) :: back⟩
        ⟨ffsFree mpool pointer memory, front ++ back⟩
  | write {memory memory' : Memory} {live : List (Nat × Nat)}
      (outside : ∀ address, OutsideBlocks live address →
        memory' address = memory address) :
      HeapStep mpool ⟨memory, live⟩ ⟨memory', live⟩

/-- The chunks in use are the blocks of the client, with room for what was
asked for. -/
structure Holdings (blocks : List Block) (live : List (Nat × Nat)) : Prop where
  backed : ∀ held ∈ live, ∃ block ∈ blocks, block.used = true ∧
    held.1 = block.addr + sizeT ∧ held.2 + 2 * sizeT ≤ block.size
  owned : ∀ block ∈ blocks, block.used = true → block.addr + sizeT ∈ live.map Prod.fst
  nodup : (live.map Prod.fst).Nodup

/-- The invariant of a run. -/
def Sound (mpool high : Nat) (state : HeapState) : Prop :=
  ∃ blocks free, WellFormed mpool (mpool + sizeT) high state.memory blocks free ∧
    Holdings blocks state.live

theorem ffsInit_sound (fits : segment + size < 2 ^ 32)
    (built : ffsInit segment size memory = some (mpool, memory')) (success : mpool ≠ 0) :
    Sound mpool (highBorder segment size) ⟨memory', []⟩ :=
  ⟨_, _, ffsInit_wellFormed fits built success, by simp, by simp, by simp⟩

section Steps

variable {live : List (Nat × Nat)} {pointer : Nat}

/-- A chunk handed out becomes a block of the client. -/
theorem Holdings.grant {blocks' : List Block} {taken : Block} (holdings : Holdings blocks live)
    (grants : Grants blocks taken blocks')
    (frame : Frame mpool low high memory blocks' free)
    (room : size + 2 * sizeT ≤ taken.size) :
    Holdings blocks' ((taken.addr + sizeT, size) :: live) where
  backed := by
    intro held mem
    rcases List.mem_cons.mp mem with rfl | inLive
    · exact ⟨taken, (grants.used_iff taken grants.used).mpr (.inl rfl), grants.used, rfl, room⟩
    · obtain ⟨block, memBlock, used, rest⟩ := holdings.backed held inLive
      exact ⟨block, (grants.used_iff block used).mpr (.inr memBlock), used, rest⟩
  owned := by
    intro block mem used
    rcases (grants.used_iff block used).mp mem with rfl | old
    · simp
    · exact List.mem_cons_of_mem _ (holdings.owned block old used)
  nodup := by
    refine List.nodup_cons.mpr ⟨fun clash => ?_, holdings.nodup⟩
    obtain ⟨held, inLive, same⟩ := List.mem_map.mp clash
    obtain ⟨block, memBlock, used, start, -⟩ := holdings.backed held inLive
    have memTaken := (grants.used_iff taken grants.used).mpr (.inl rfl)
    have memBlock' := (grants.used_iff block used).mpr (.inr memBlock)
    have equal : block = taken :=
      frame.tiles.eq_of_addr memTaken memBlock' (by simp only at same; omega)
    exact grants.fresh (equal ▸ memBlock)

/-- A chunk given back is no block of the client any more. -/
theorem Holdings.release {before after : List Block} {front back : List (Nat × Nat)}
    (holdings : Holdings (before ++ block :: after)
      (front ++ (block.addr + sizeT, size) :: back))
    (frame : Frame mpool low high memory (before ++ block :: after) free) :
    Holdings (Tiling.release before block after) (front ++ back) where
  backed := by
    intro held mem
    have inLive : held ∈ front ++ (block.addr + sizeT, size) :: back := by
      simp only [List.mem_append, List.mem_cons] at mem ⊢
      tauto
    obtain ⟨other, memOther, used, start, room⟩ := holdings.backed held inLive
    have different : other ≠ block := by
      rintro rfl
      have nodup := holdings.nodup
      rw [List.map_append, List.map_cons, List.nodup_middle, List.nodup_cons] at nodup
      have clash : held.1 ∈ (front ++ back).map Prod.fst := List.mem_map_of_mem mem
      rw [start, List.map_append] at clash
      exact nodup.1 clash
    refine ⟨other, (mem_release_used used).mpr ?_, used, start, room⟩
    simpa [different] using memOther
  owned := by
    intro other mem used
    have rest := (mem_release_used used).mp mem
    have memOther : other ∈ before ++ block :: after := by
      simp only [List.mem_append, List.mem_cons] at rest ⊢
      tauto
    have apart : other.addr ≠ block.addr := fun same =>
      frame.ne_of_mem rest (frame.tiles.eq_of_addr (by simp) memOther same)
    simpa [apart] using holdings.owned other memOther used
  nodup := by
    have nodup := holdings.nodup
    rw [List.map_append, List.map_cons, List.nodup_middle, List.nodup_cons] at nodup
    rw [List.map_append]
    exact nodup.2

/-- The words of the allocator lie outside the blocks of the client. -/
theorem WellFormed.write
    (wellFormed : WellFormed mpool low high memory blocks free)
    (holdings : Holdings blocks live)
    (outside : ∀ address, OutsideBlocks live address → memory' address = memory address) :
    WellFormed mpool low high memory' blocks free := by
  have size4 : sizeT = 4 := rfl
  have prevIs : prevField = 4 := rfl
  have nextIs : nextField = 8 := rfl
  have poolPos := wellFormed.pool_pos
  have lowEq := wellFormed.low_eq
  -- a client byte lies strictly inside the payload of a chunk in use
  have kept : ∀ address, (∀ block ∈ blocks, block.used = true →
      address < block.addr + 4 ∨ block.limit ≤ address + 4) →
      memory' address = memory address := by
    intro address place
    refine outside address fun held inLive byte first last inWord => ?_
    obtain ⟨block, mem, used, start, room⟩ := holdings.backed held inLive
    have bounds := wellFormed.bounds mem
    have aligned := wellFormed.toFrame.aligned mem
    have legal := wellFormed.legal block mem
    have limit : block.limit = block.addr + block.size := rfl
    have apart := place block mem used
    simp only [wordOf] at inWord
    omega
  have border : ∀ address, address < mpool + 8 ∨ high ≤ address →
      memory' address = memory address := by
    intro address place
    refine kept address fun block mem used => ?_
    have bounds := wellFormed.bounds mem
    have limit : block.limit = block.addr + block.size := rfl
    omega
  have own : ∀ block ∈ blocks, ∀ address, block.addr ≤ address → address < block.limit →
      (block.used = true → address < block.addr + 4 ∨ block.limit ≤ address + 4) →
      memory' address = memory address := by
    intro block mem address first last ends
    refine kept address fun other memOther used => ?_
    have limit : block.limit = block.addr + block.size := rfl
    have limitOther : other.limit = other.addr + other.size := rfl
    rcases wellFormed.apart mem memOther with rfl | apart
    · exact ends used
    · omega
  have link : ∀ node ∈ free, ∀ offset, offset < 12 → memory' (node + offset) =
      memory (node + offset) := by
    intro node mem offset small
    obtain ⟨block, memBlock, rfl⟩ := wellFormed.listed node mem
    have unused := (wellFormed.listed_iff block memBlock).mp mem
    have bounds := wellFormed.bounds memBlock
    have limit : block.limit = block.addr + block.size := rfl
    exact own block memBlock _ (by omega) (by omega) (by simp [unused])
  exact
    { wellFormed with
      lowBorder := (border low (by omega)).trans wellFormed.lowBorder
      highBorder := (border high (.inr (Nat.le_refl _))).trans wellFormed.highBorder
      list := wellFormed.list.congr (border _ (by simp only [freeFormat_head]; omega))
        (fun node mem => link node mem nextField (by omega))
        (fun node mem => link node mem prevField (by omega))
      settled := by
        intro block mem
        have bounds := wellFormed.bounds mem
        have limit : block.limit = block.addr + block.size := rfl
        have settled := wellFormed.settled block mem
        exact ⟨(own block mem _ (by omega) (by omega) (by omega)).trans settled.header,
          (own block mem _ (by omega) (by omega) (by omega)).trans settled.tail⟩ }

/-- Every step of the client keeps the invariant. -/
theorem Sound.step {state state' : HeapState} (sound : Sound mpool high state)
    (step : HeapStep mpool state state') : Sound mpool high state' := by
  obtain ⟨blocks, free, wellFormed, holdings⟩ := sound
  cases step with
  | @alloc memory memory' live size pointer fits result =>
      rcases wellFormed.ffsAlloc fits with ⟨none, -⟩ |
        ⟨taken, memory'', blocks', free', found, room, grants, wellFormed', -⟩
      · rw [result, Option.some.injEq, Prod.mk.injEq] at none
        obtain ⟨rfl, rfl⟩ := none
        exact ⟨blocks, free, wellFormed, by simpa using holdings⟩
      · rw [result, Option.some.injEq, Prod.mk.injEq] at found
        obtain ⟨rfl, rfl⟩ := found
        have nonzero : taken.addr + sizeT ≠ 0 := by simp [sizeT]
        have enough : size + 2 * sizeT ≤ taken.size :=
          (requestSize_spec fits).2.2.1.trans room
        refine ⟨blocks', free', wellFormed', ?_⟩
        simp only [if_neg nonzero]
        exact holdings.grant grants wellFormed'.toFrame enough
  | @free memory front back pointer size =>
      obtain ⟨block, mem, used, start, -⟩ := holdings.backed (pointer, size) (by simp)
      obtain ⟨before, after, rfl⟩ := List.append_of_mem mem
      obtain rfl : pointer = block.addr + sizeT := start
      obtain ⟨free', result, -⟩ := wellFormed.ffsFree used
      refine ⟨release before block after, free', ?_, holdings.release wellFormed.toFrame⟩
      dsimp only
      exact result
  | write outside =>
      exact ⟨blocks, free, wellFormed.write holdings outside, holdings⟩

theorem Sound.run {state state' : HeapState} (sound : Sound mpool high state)
    (run : Relation.ReflTransGen (HeapStep mpool) state state') :
    Sound mpool high state' := by
  induction run with
  | refl => exact sound
  | tail _ step ih => exact ih.step step

end Steps

end Oseer.FirstFit
