import Oseer.FirstFitInvariant

/-!
# What a client of the first-fit allocator may rely on

The blocks handed out are aligned, lie inside the pool and overlap neither each
other nor the words that the allocator keeps for itself, and a call never
changes a byte of a block that stays with the client.  `ffs_alloc` serves a
request from the first chunk of the free list that is large enough and fails
only when there is none.
-/

namespace Oseer.FirstFit

open WordMemory LinkedRing Tiling

/-- One byte of the memory of words. -/
def byteAt (memory : Memory) (byte : Nat) : Nat :=
  memory (wordOf byte) / 256 ^ (byte % 4) % 256

/-- The byte belongs to a block of the client. -/
def InBlock (held : Nat × Nat) (byte : Nat) : Prop :=
  held.1 ≤ byte ∧ byte < held.1 + held.2

/-- The number of bytes of `ffs_hdr_t` that a chunk keeps: a chunk in use leaves
its two links to the client. -/
def headerBytes (chunk : Nat) (memory : Memory) : Nat :=
  if checkFree chunk memory then 3 * sizeT else sizeT

/-- The bytes that the allocator keeps for itself: the pool descriptor, the
border words, and header and tail of every chunk. -/
inductive Administrative (mpool high : Nat) (memory : Memory) (chunks : List Nat) :
    Nat → Prop
  | descriptor {byte : Nat} (start : mpool ≤ byte) (finish : byte < mpool + sizeT) :
      Administrative mpool high memory chunks byte
  | lowBorder {byte : Nat} (start : mpool + sizeT ≤ byte)
      (finish : byte < mpool + 2 * sizeT) : Administrative mpool high memory chunks byte
  | highBorder {byte : Nat} (start : high ≤ byte) (finish : byte < high + sizeT) :
      Administrative mpool high memory chunks byte
  | header {byte chunk : Nat} (member : chunk ∈ chunks) (start : chunk ≤ byte)
      (finish : byte < chunk + headerBytes chunk memory) :
      Administrative mpool high memory chunks byte
  | tail {byte chunk : Nat} (member : chunk ∈ chunks) (start : getTail chunk memory ≤ byte)
      (finish : byte < getTail chunk memory + sizeT) :
      Administrative mpool high memory chunks byte

/-- Where the blocks of the client lie. -/
structure BlocksPlaced (mpool high : Nat) (memory : Memory) (live : List (Nat × Nat))
    (chunks : List Nat) : Prop where
  aligned : ∀ held ∈ live, 4 ∣ held.1
  inside : ∀ held ∈ live, mpool ≤ held.1 ∧ held.1 + held.2 ≤ high + sizeT
  unshared : ∀ held ∈ live, ∀ byte, InBlock held byte →
    ¬ Administrative mpool high memory chunks byte
  apart : live.Pairwise fun first second => ∀ byte,
    ¬ (InBlock first byte ∧ InBlock second byte)

/-- No byte of the blocks changes. -/
def SameBytes (live : List (Nat × Nat)) (memory memory' : Memory) : Prop :=
  ∀ held ∈ live, ∀ byte, InBlock held byte → byteAt memory' byte = byteAt memory byte

/-- The chunk size for a request, without the wrap of the machine. -/
def neededSize (request : Nat) : Nat := max headerSize ((request + 2 * sizeT + 3) / 4 * 4)

/-- What a call of `ffs_alloc` may do. -/
structure AllocContract (memory : Memory) (live : List (Nat × Nat)) (free : List Nat)
    (request pointer : Nat) (memory' : Memory) : Prop where
  keeps : SameBytes live memory memory'
  null : pointer = 0 → memory' = memory ∧ ∀ chunk ∈ free, memory chunk < neededSize request
  first : pointer ≠ 0 → ∃ iter ∈ free, FirstLarge memory (neededSize request) free iter ∧
    iter ≤ pointer - sizeT ∧
    pointer - sizeT + getSize (pointer - sizeT) memory' = iter + memory iter

variable {mpool low high size : Nat} {memory memory' : Memory} {blocks : List Block}
  {block : Block} {free : List Nat} {live : List (Nat × Nat)} {start state : HeapState}

theorem requestSize_eq (fits : size + 11 < 2 ^ 32) : requestSize size = neededSize size := by
  have sum : add32 size (sizeT * 2) = size + 8 := add32_of_lt (by simp only [sizeT]; omega)
  have size4 : sizeT = 4 := rfl
  have header16 : headerSize = 16 := rfl
  simp only [requestSize, sum, neededSize]
  split_ifs with small
  · rw [alignUp_eq (by omega)]
    omega
  · rw [alignUp_eq (by omega)]
    omega

section Place

variable (wellFormed : WellFormed mpool low high memory blocks free)
  (holdings : Holdings blocks live)

include wellFormed holdings

theorem WellFormed.held_bounds {held : Nat × Nat} (inLive : held ∈ live) :
    ∃ block ∈ blocks, block.used = true ∧ held.1 = block.addr + sizeT ∧
      4 ∣ block.addr ∧ mpool + 8 ≤ block.addr ∧
      held.1 + held.2 + sizeT ≤ block.limit ∧ block.limit ≤ high := by
  obtain ⟨block, mem, used, first, room⟩ := holdings.backed held inLive
  have bounds := wellFormed.bounds mem
  have limit : block.limit = block.addr + block.size := rfl
  refine ⟨block, mem, used, first, wellFormed.toFrame.aligned mem, bounds.1, ?_, ?_⟩
  · rw [limit, first]
    omega
  · exact bounds.2.2.1

/-- Different blocks of the client have no byte in common. -/
theorem WellFormed.held_apart {first second : Nat × Nat} (memFirst : first ∈ live)
    (memSecond : second ∈ live) (different : first.1 ≠ second.1) (byte : Nat) :
    ¬ (InBlock first byte ∧ InBlock second byte) := by
  obtain ⟨chunk, mem, -, start, -, -, finish, -⟩ := wellFormed.held_bounds holdings memFirst
  obtain ⟨other, memOther, -, startOther, -, -, finishOther, -⟩ :=
    wellFormed.held_bounds holdings memSecond
  have limit : chunk.limit = chunk.addr + chunk.size := rfl
  have limitOther : other.limit = other.addr + other.size := rfl
  rintro ⟨inFirst, inSecond⟩
  simp only [InBlock] at inFirst inSecond
  rcases wellFormed.apart mem memOther with rfl | apart
  · omega
  · omega

theorem WellFormed.sameBytes {kept : List (Nat × Nat)} (subset : kept ⊆ live)
    (same : ∀ held ∈ kept, ∀ block ∈ blocks, block.used = true →
      held.1 = block.addr + sizeT → SameWithin block memory memory') :
    SameBytes kept memory memory' := by
  intro held inKept byte inBlock
  obtain ⟨block, mem, used, start, aligned, -, finish, -⟩ :=
    wellFormed.held_bounds holdings (subset inKept)
  have size4 : sizeT = 4 := rfl
  simp only [InBlock] at inBlock
  have wordIs : wordOf byte = byte / 4 * 4 := rfl
  have unchanged := same held inKept block mem used start (wordOf byte) (by omega) (by omega)
  rw [byteAt, unchanged, byteAt]

/-- The allocator keeps no byte of a block of the client for itself. -/
theorem WellFormed.held_unshared {held : Nat × Nat} (inLive : held ∈ live) {byte : Nat} (inBlock : InBlock held byte) :
    ¬ Administrative mpool high memory (blocks.map Block.addr) byte := by
  obtain ⟨block, mem, used, start, -, above, finish, below⟩ :=
    wellFormed.held_bounds holdings inLive
  have bounds := wellFormed.bounds mem
  have size4 : sizeT = 4 := rfl
  have limit : block.limit = block.addr + block.size := rfl
  simp only [InBlock] at inBlock
  intro administrative
  cases administrative with
  | descriptor first last => omega
  | lowBorder first last => omega
  | highBorder first last => omega
  | header member first last =>
      obtain ⟨other, memOther, rfl⟩ := List.mem_map.mp member
      have boundsOther := wellFormed.bounds memOther
      have width : headerBytes other.addr memory ≤ 12 := by
        unfold headerBytes
        split <;> omega
      rcases wellFormed.apart mem memOther with rfl | apart
      · have single : headerBytes other.addr memory = sizeT :=
          if_neg (by simp [wellFormed.checkFree_iff memOther, used])
        omega
      · omega
  | tail member first last =>
      obtain ⟨other, memOther, rfl⟩ := List.mem_map.mp member
      have boundsOther := wellFormed.bounds memOther
      have limitOther : other.limit = other.addr + other.size := rfl
      rw [wellFormed.toFrame.getTail_eq memOther (wellFormed.settled other memOther).header]
        at first last
      rcases wellFormed.apart mem memOther with rfl | apart <;> omega

theorem WellFormed.blocksPlaced :
    BlocksPlaced mpool high memory live (blocks.map Block.addr) where
  aligned := by
    intro held inLive
    obtain ⟨block, -, -, start, aligned, -⟩ := wellFormed.held_bounds holdings inLive
    have size4 : sizeT = 4 := rfl
    omega
  inside := by
    intro held inLive
    obtain ⟨block, -, -, start, -, above, finish, below⟩ :=
      wellFormed.held_bounds holdings inLive
    omega
  unshared := fun _ inLive _ inBlock => wellFormed.held_unshared holdings inLive inBlock
  apart := by
    have distinct : live.Pairwise fun first second => first.1 ≠ second.1 :=
      List.pairwise_map.mp holdings.nodup
    exact distinct.imp_of_mem fun memFirst memSecond different =>
      wellFormed.held_apart holdings memFirst memSecond different

/-- A call of `ffs_alloc` on a well-formed pool. -/
theorem WellFormed.allocContract (fits : size + 11 < 2 ^ 32) :
    ∃ pointer memory', FirstFit.ffsAlloc mpool size memory = some (pointer, memory') ∧
      AllocContract memory live free size pointer memory' := by
  rcases wellFormed.ffsAlloc fits with ⟨none, small⟩ |
    ⟨taken, memory', blocks', free', found, room, grants, wellFormed', chosen, within⟩
  · refine ⟨0, memory, none, fun _ _ _ _ => rfl, fun _ => ⟨rfl, fun chunk isListed => ?_⟩,
      fun nonzero => absurd rfl nonzero⟩
    obtain ⟨block, mem, rfl⟩ := wellFormed.listed chunk isListed
    have unused := (wellFormed.listed_iff block mem).mp isListed
    have header : memory block.addr = block.size := by
      simpa [word, unused] using (wellFormed.settled block mem).header
    rw [header, ← requestSize_eq fits]
    exact small block mem unused
  · refine ⟨taken.addr + sizeT, memory', found, ?_, fun null => ?_, fun _ => ?_⟩
    · exact wellFormed.sameBytes holdings (List.Subset.refl _)
        fun held _ block mem used _ => within block mem used
    · exact absurd null (by simp [sizeT])
    · obtain ⟨iter, isListed, first, origin⟩ := chosen
      have memTaken : taken ∈ blocks' := (grants.used_iff taken grants.used).mpr (.inl rfl)
      refine ⟨iter, isListed, requestSize_eq fits ▸ first, ?_, ?_⟩
      · exact Nat.add_sub_cancel (taken.addr) sizeT ▸ origin.start
      · rw [Nat.add_sub_cancel, wellFormed'.getSize_eq memTaken]
        exact origin.finish

end Place

/-- A call of `ffs_free` on a well-formed pool changes no byte of the blocks that
the client still holds. -/
theorem WellFormed.freeKeeps (wellFormed : WellFormed mpool low high memory blocks free)
    {front back : List (Nat × Nat)} {pointer : Nat}
    (holdings : Holdings blocks (front ++ (pointer, size) :: back)) :
    SameBytes (front ++ back) memory (FirstFit.ffsFree mpool pointer memory) := by
  obtain ⟨block, mem, used, first, -⟩ := holdings.backed (pointer, size) (by simp)
  obtain rfl : pointer = block.addr + sizeT := first
  obtain ⟨before, after, rfl⟩ := List.append_of_mem mem
  obtain ⟨free', -, within⟩ := wellFormed.ffsFree used
  refine wellFormed.sameBytes holdings ?_ fun held inKept other memOther usedOther place => ?_
  · intro held inKept
    rcases List.mem_append.mp inKept with inFront | inBack
    · simp [inFront]
    · simp [inBack]
  · have different : other ≠ block := by
      rintro rfl
      have nodup := holdings.nodup
      rw [List.map_append, List.map_cons, List.nodup_middle, List.nodup_cons] at nodup
      refine nodup.1 ?_
      rw [← List.map_append, ← place]
      exact List.mem_map.mpr ⟨held, inKept, rfl⟩
    exact within other (by simpa [different] using memOther) usedOther

/-- The contract of the allocator, in every state of every run that starts from a
well-formed pool: the blocks held are placed as the client expects, every
request is answered as promised, and giving a block back touches no other. -/
theorem client_contract (sound : Sound mpool high start)
    (run : Relation.ReflTransGen (HeapStep mpool) start state) :
    ∃ chunks free, PoolInvariant mpool high state.memory state.live chunks free ∧
      BlocksPlaced mpool high state.memory state.live chunks ∧
      (∀ request, request + 11 < 2 ^ 32 → ∃ pointer memory',
        ffsAlloc mpool request state.memory = some (pointer, memory') ∧
        AllocContract state.memory state.live free request pointer memory') ∧
      ∀ front pointer size back, state.live = front ++ (pointer, size) :: back →
        SameBytes (front ++ back) state.memory (ffsFree mpool pointer state.memory) := by
  obtain ⟨blocks, free, wellFormed, holdings⟩ := sound.run run
  refine ⟨blocks.map Block.addr, free, wellFormed.poolInvariant holdings,
    wellFormed.blocksPlaced holdings, fun request fits => ?_,
    fun front pointer size back isLive => ?_⟩
  · exact wellFormed.allocContract holdings fits
  · exact wellFormed.freeKeeps (isLive ▸ holdings)

/-- A pool in a segment of 1 KiB, after the first allocation. -/
theorem client_contract_first_block :
    ∃ built stored, ffsInit 4096 1024 (fun _ => 0) = some (4096, built) ∧
      ffsAlloc 4096 3 built = some (5104, stored) ∧ ∃ chunks free,
        PoolInvariant 4096 (highBorder 4096 1024) stored [(5104, 3)] chunks free ∧
        BlocksPlaced 4096 (highBorder 4096 1024) stored [(5104, 3)] chunks := by
  obtain ⟨built, init⟩ : ∃ built, ffsInit 4096 1024 (fun _ => 0) = some (4096, built) :=
    ⟨_, rfl⟩
  obtain ⟨stored, alloc⟩ : ∃ stored, ffsAlloc 4096 3 built = some (5104, stored) := by
    obtain rfl : built = ((ffsInit 4096 1024 fun _ => 0).getD (0, fun _ => 0)).2 := by
      rw [init]; rfl
    exact ⟨_, rfl⟩
  obtain ⟨chunks, free, invariant, placed, -⟩ :=
    client_contract (ffsInit_sound (by decide) init (by decide))
      (.single (.alloc (by decide) alloc))
  exact ⟨built, stored, init, alloc, chunks, free, invariant, placed⟩

end Oseer.FirstFit
