import Mathlib.Data.List.Perm.Subperm
import Oseer.FirstFitRelease

/-!
# Allocating a chunk of a first-fit pool

`ffs_alloc` walks the free list to the first chunk that is large enough.  If
the rest would still make a chunk, the block is cut from the end of the chunk
found, whose first part stays where it is in the list; otherwise the whole
chunk leaves the list.
-/

namespace Oseer.FirstFit

open WordMemory LinkedRing Tiling

variable {mpool low high size : Nat} {memory : Memory}
  {blocks before after : List Block} {block other first second : Block}
  {free front back : List Nat}

section Search

/-- `iter` is the first chunk of the list that is large enough, or zero when
there is none. -/
inductive FirstLarge (memory : Memory) (size : Nat) : List Nat → Nat → Prop
  | none {chunks : List Nat} (small : ∀ chunk ∈ chunks, memory chunk < size) :
      FirstLarge memory size chunks 0
  | found {front back : List Nat} {iter : Nat}
      (small : ∀ chunk ∈ front, memory chunk < size) (large : size ≤ memory iter) :
      FirstLarge memory size (front ++ iter :: back) iter

/-- The search walks a suffix of the free list to its first large chunk. -/
theorem ffsSearch_suffix (list : (freeFormat mpool).Holds memory (front ++ back))
    {fuel : Nat} (enough : back.length < fuel) :
    ∃ iter, ffsSearch memory size fuel (headOf 0 back) = some iter ∧
      FirstLarge memory size back iter := by
  induction back generalizing front fuel with
  | nil =>
      obtain ⟨fuel, rfl⟩ := Nat.exists_eq_add_of_lt enough
      exact ⟨0, by simp [ffsSearch], .none (by simp)⟩
  | cons chunk back ih =>
      obtain ⟨fuel, rfl⟩ : ∃ rest, fuel = rest + 1 :=
        ⟨fuel - 1, by simp only [List.length_cons] at enough; omega⟩
      have nonzero : chunk ≠ 0 := list.ne_zero (by simp)
      have next : memory (chunk + nextField) = headOf 0 back := list.next
      by_cases small : memory chunk < size
      · have list' : (freeFormat mpool).Holds memory ((front ++ [chunk]) ++ back) := by
          simpa using list
        have enough' : back.length < fuel := by simpa using enough
        obtain ⟨iter, search, first⟩ := ih list' enough'
        refine ⟨iter, by simp [ffsSearch, nonzero, small, next, search], ?_⟩
        cases first with
        | none smallRest => exact .none (List.forall_mem_cons.mpr ⟨small, smallRest⟩)
        | found smallFront large =>
            exact FirstLarge.found (List.forall_mem_cons.mpr ⟨small, smallFront⟩) large
      · have none : ∀ chunk ∈ ([] : List Nat), memory chunk < size := by simp
        exact ⟨chunk, by simp [ffsSearch, small], FirstLarge.found none (by omega)⟩

private theorem length_of_tiles {start finish : Nat} (tiles : Tiles start blocks finish)
    (sizes : ∀ block ∈ blocks, headerSize ≤ block.size) :
    start + headerSize * blocks.length ≤ finish := by
  induction blocks generalizing start with
  | nil => simpa using tiles.le
  | cons first rest ih =>
      obtain ⟨rfl, -, tilesRest⟩ := tiles
      have large := sizes first (by simp)
      have tail := ih tilesRest fun block mem => sizes block (.tail _ mem)
      simp only [Block.limit, headerSize, List.length_cons] at *
      omega

theorem Frame.free_length (frame : Frame mpool low high memory blocks free) :
    free.length < addressWords := by
  have nodup := (List.nodup_cons.mp frame.list.nodup).2
  have subset : free ⊆ blocks.map Block.addr := fun node mem => by
    simpa using frame.listed node mem
  have short : free.length ≤ blocks.length := by
    simpa using (nodup.subperm subset).length_le
  have fits := length_of_tiles frame.tiles fun block mem => (frame.legal block mem).2
  have highLt := frame.high_lt
  simp only [headerSize, addressWords] at *
  omega

/-- The search of `ffs_alloc` ends, with the first free chunk that is large
enough. -/
theorem Frame.ffsSearch_eq (frame : Frame mpool low high memory blocks free) :
    ∃ iter, ffsSearch memory size addressWords (memory mpool) = some iter ∧
      FirstLarge memory size free iter := by
  have head : memory mpool = headOf 0 free := frame.list.head
  rw [head]
  have list : (freeFormat mpool).Holds memory ([] ++ free) := frame.list
  exact ffsSearch_suffix list frame.free_length

end Search

section Cut

/-- A chunk may be seen as two chunks of legal sizes. -/
theorem Frame.cut (frame : Frame mpool low high memory (before ++ block :: after) free)
    (start : first.addr = block.addr) (meet : second.addr = first.limit)
    (finish : second.limit = block.limit)
    (legalFirst : 4 ∣ first.size ∧ headerSize ≤ first.size)
    (legalSecond : 4 ∣ second.size ∧ headerSize ≤ second.size) :
    Frame mpool low high memory (before ++ first :: second :: after) free :=
  { frame with
    tiles := frame.tiles.cut start meet finish (Nat.lt_of_lt_of_le (by decide) legalFirst.2)
      (Nat.lt_of_lt_of_le (by decide) legalSecond.2)
    legal := by
      intro other mem
      simp only [List.mem_append, List.mem_cons] at mem
      rcases mem with inBefore | rfl | rfl | inAfter
      · exact frame.legal other (by simp [inBefore])
      · exact legalFirst
      · exact legalSecond
      · exact frame.legal other (by simp [inAfter])
    listed := by
      intro node mem
      obtain ⟨other, memOther, addr⟩ := frame.listed node mem
      simp only [List.mem_append, List.mem_cons] at memOther
      rcases memOther with inBefore | rfl | inAfter
      · exact ⟨other, by simp [inBefore], addr⟩
      · exact ⟨first, by simp, start.trans addr⟩
      · exact ⟨other, by simp [inAfter], addr⟩ }

/-- The stores of `ffs_alloc` that cut a used chunk of the given size from the
end of a free one. -/
def cutStores (chunk size : Nat) (memory : Memory) : Nat × Memory :=
  let memory := memory.write chunk (sub32 (memory chunk) size)
  let memory := cloneSizeToTail chunk memory
  let chunk := getAfter chunk memory
  (chunk, memory.write chunk size)

/-- The stores that end every successful `ffs_alloc`. -/
def markStores (chunk : Nat) (memory : Memory) : Memory :=
  cloneSizeToTail chunk (markUsed chunk memory)

/-- The last stores settle a chunk as used and change no other. -/
theorem Frame.markStores (frame : Frame mpool low high memory blocks free)
    (member : block ∈ blocks) (used : block.used = true)
    (marked : setBit0 (memory block.addr) = block.size + 1) :
    Frame mpool low high (FirstFit.markStores block.addr memory) blocks free ∧
      Settled (FirstFit.markStores block.addr memory) block ∧
      ∀ other ∈ blocks, other ≠ block →
        (Settled memory other → Settled (FirstFit.markStores block.addr memory) other) ∧
        SameWithin other memory (FirstFit.markStores block.addr memory) := by
  obtain ⟨written, keptHeader⟩ := frame.write_header member (setBit0 (memory block.addr))
  have header : markUsed block.addr memory block.addr = word block := by
    simp [markUsed, word, used, marked]
  obtain ⟨result, settled, keptTail⟩ := written.cloneSizeToTail member header
  refine ⟨result, settled, fun other mem different => ⟨fun before =>
    keptTail other mem different (keptHeader other mem different before), ?_⟩⟩
  exact (frame.header_within member mem different _).trans
    (written.cloneSizeToTail_within member header mem different)

/-- Cutting a used chunk from the end of a free one.  No chunk that was in use
changes. -/
theorem WellFormed.cut
    (wellFormed : WellFormed mpool low high memory (before ++ block :: after) free)
    (unused : block.used = false) (aligned : 4 ∣ size) (large : headerSize ≤ size)
    (room : size + headerSize ≤ block.size) :
    let result := cutStores block.addr size memory
    result.1 = block.addr + (block.size - size) ∧
      WellFormed mpool low high (FirstFit.markStores result.1 result.2)
        (before ++ ⟨block.addr, block.size - size, false⟩ ::
          ⟨block.addr + (block.size - size), size, true⟩ :: after) free ∧
      ∀ kept ∈ before ++ after,
        SameWithin kept memory (FirstFit.markStores result.1 result.2) := by
  intro result
  have memBlock : block ∈ before ++ block :: after := by simp
  have bounds := wellFormed.bounds memBlock
  have legal := wellFormed.legal block memBlock
  have header : memory block.addr = block.size := by
    simpa [word, unused] using (wellFormed.settled block memBlock).header
  have header16 : headerSize = 16 := rfl
  generalize firstIs : (⟨block.addr, block.size - size, false⟩ : Block) = first
  generalize secondIs :
    (⟨block.addr + (block.size - size), size, true⟩ : Block) = second
  have meet : second.addr = first.limit := by simp [← firstIs, ← secondIs, Block.limit]
  have memFirst : first ∈ before ++ first :: second :: after := by simp
  have memSecond : second ∈ before ++ first :: second :: after := by simp
  -- the header of the first part
  have shorter : sub32 (memory block.addr) size = first.size := by
    rw [header, sub32_of_le (by omega) (by omega), ← firstIs]
  obtain ⟨written, kept⟩ := wellFormed.toFrame.write_header memBlock first.size
  have cut : Frame mpool low high (memory.write block.addr first.size)
      (before ++ first :: second :: after) free := by
    refine written.cut ?_ meet ?_ ?_ ?_
    · simp [← firstIs]
    · simp only [← secondIs, Block.limit]; omega
    · simp only [← firstIs]; exact ⟨Nat.dvd_sub legal.1 aligned, by omega⟩
    · simp only [← secondIs]; exact ⟨aligned, large⟩
  have headerFirst : memory.write block.addr first.size first.addr = word first := by
    simp [← firstIs, word, write_same]
  -- its tail
  obtain ⟨cloned, settledFirst, keptClone⟩ := cut.cloneSizeToTail memFirst headerFirst
  -- the header of the second part
  have startSecond : getAfter first.addr
      (cloneSizeToTail first.addr (memory.write block.addr first.size)) = second.addr := by
    rw [cloned.getAfter_eq memFirst settledFirst.header, meet]
  obtain ⟨headed, keptHeader⟩ := cloned.write_header memSecond size
  have resultIs : result = (second.addr,
      (cloneSizeToTail first.addr (memory.write block.addr first.size)).write
        second.addr size) := by
    have startFirst : block.addr = first.addr := by simp [← firstIs]
    simp only [result, cutStores, shorter]
    rw [startFirst] at startSecond ⊢
    rw [startSecond]
  obtain ⟨marked, settledSecond, keptMark⟩ := headed.markStores memSecond
    (by simp [← secondIs]) (by rw [write_same, setBit0_even aligned]; simp [← secondIs])
  have different : first ≠ second := by simp [← firstIs, ← secondIs]
  have place : ∀ other ∈ before ++ first :: second :: after,
      other = first ∨ other = second ∨
        (other ∈ before ++ after ∧ other ≠ first ∧ other ≠ second) := by
    intro other mem
    by_cases isFirst : other = first
    · exact .inl isFirst
    · by_cases isSecond : other = second
      · exact .inr (.inl isSecond)
      · refine .inr (.inr ⟨?_, isFirst, isSecond⟩)
        simpa [isFirst, isSecond] using mem
  have old : ∀ other ∈ before ++ after, other ∈ before ++ block :: after := by
    intro other mem
    rcases List.mem_append.mp mem with inBefore | inAfter
    · simp [inBefore]
    · simp [inAfter]
  have split := separated_split.mp wellFormed.separated
  rw [resultIs]
  refine ⟨by simp [← secondIs], { marked with
    settled := ?_, separated := ?_, listed_iff := ?_ }, ?_⟩
  · intro other mem
    rcases place other mem with rfl | rfl | ⟨rest, notFirst, notSecond⟩
    · exact (keptMark _ mem different).1 (keptHeader _ mem different settledFirst)
    · exact settledSecond
    · have notBlock := wellFormed.toFrame.ne_of_mem rest
      have before := kept other (old other rest) notBlock
        (wellFormed.settled other (old other rest))
      exact (keptMark other mem notSecond).1
        (keptHeader other mem notSecond (keptClone other mem notFirst before))
  · refine separated_split.mpr ⟨split.1, ?_, ?_, ?_⟩
    · exact separated_cons.mpr ⟨split.2.1, fun right mem => .inl (by simp [← secondIs])⟩
    · exact fun left mem => .inl ((split.2.2.1 left mem).resolve_right (by simp [unused]))
    · exact fun right mem => .inr (by
        simp only [List.head?_cons, Option.mem_some_iff] at mem
        simp [← mem, ← secondIs])
  · intro other mem
    rcases place other mem with rfl | rfl | ⟨rest, -, -⟩
    · simpa [← firstIs, unused] using wellFormed.listed_iff block memBlock
    · have start : block.addr + (block.size - size) = other.addr := by simp [← secondIs]
      have notListed : other.addr ∉ free := by
        intro isListed
        obtain ⟨chunk, memChunk, addr⟩ := wellFormed.listed _ isListed
        have boundsChunk := wellFormed.bounds memChunk
        rcases wellFormed.apart memBlock memChunk with rfl | apart <;> omega
      have isUsed : other.used = true := by simp [← secondIs]
      simp [notListed, isUsed]
    · exact wellFormed.listed_iff other (old other rest)
  · intro other mem
    have inOld := old other mem
    have notBlock := wellFormed.toFrame.ne_of_mem mem
    have inNew : other ∈ before ++ first :: second :: after := by
      rcases List.mem_append.mp mem with inBefore | inAfter
      · simp [inBefore]
      · simp [inAfter]
    have boundsOther := wellFormed.bounds inOld
    have apart := (wellFormed.apart memBlock inOld).resolve_left notBlock
    have notFirst : other ≠ first := by
      rintro rfl
      simp only [← firstIs] at apart boundsOther
      omega
    have notSecond : other ≠ second := by
      rintro rfl
      simp only [← secondIs] at apart boundsOther
      omega
    have shortened := wellFormed.toFrame.header_within memBlock inOld notBlock first.size
    have clone := cut.cloneSizeToTail_within memFirst headerFirst inNew notFirst
    have header := cloned.header_within memSecond inNew notSecond size
    exact shortened.trans (clone.trans (header.trans (keptMark other inNew notSecond).2))

end Cut

section Whole

/-- The whole chunk found leaves the free list.  No chunk that was in use
changes. -/
theorem WellFormed.take
    (wellFormed : WellFormed mpool low high memory (before ++ block :: after)
      (front ++ block.addr :: back))
    (unused : block.used = false) :
    WellFormed mpool low high
        (FirstFit.markStores block.addr (ffsRemoveChunk mpool block.addr memory))
        (before ++ ⟨block.addr, block.size, true⟩ :: after) (front ++ back) ∧
      ∀ kept ∈ before ++ after, kept.used = true → SameWithin kept memory
        (FirstFit.markStores block.addr (ffsRemoveChunk mpool block.addr memory)) := by
  have memBlock : block ∈ before ++ block :: after := by simp
  have legal := wellFormed.legal block memBlock
  have header : memory block.addr = block.size := by
    simpa [word, unused] using (wellFormed.settled block memBlock).header
  obtain ⟨removed, same⟩ := wellFormed.toFrame.remove
  generalize takenIs : (⟨block.addr, block.size, true⟩ : Block) = taken
  have start : block.addr = taken.addr := by simp [← takenIs]
  have frame : Frame mpool low high (ffsRemoveChunk mpool block.addr memory)
      (before ++ taken :: after) (front ++ back) :=
    removed.restatus start.symm (by simp [← takenIs])
  have memTaken : taken ∈ before ++ taken :: after := by simp
  have headerKept : ffsRemoveChunk mpool block.addr memory taken.addr = block.size := by
    rw [← start, wellFormed.toFrame.same_header same memBlock, header]
  obtain ⟨marked, settledTaken, kept⟩ := frame.markStores memTaken (by simp [← takenIs])
    (by rw [headerKept, setBit0_even legal.1]; simp [← takenIs])
  have split := separated_split.mp wellFormed.separated
  have place : ∀ other ∈ before ++ taken :: after,
      other = taken ∨ other ∈ before ++ after := by
    intro other mem
    simp only [List.mem_append, List.mem_cons] at mem ⊢
    tauto
  have old : ∀ other ∈ before ++ after, other ∈ before ++ block :: after := by
    intro other mem
    rcases List.mem_append.mp mem with inBefore | inAfter
    · simp [inBefore]
    · simp [inAfter]
  have sameWithin : ∀ kept ∈ before ++ after, kept.used = true →
      SameWithin kept memory (ffsRemoveChunk mpool block.addr memory) := by
    intro other mem used
    refine wellFormed.toFrame.remove_within (old other mem) ?_
    simp [wellFormed.listed_iff other (old other mem), used]
  rw [start]
  rw [start] at marked settledTaken kept same sameWithin
  refine ⟨{ marked with settled := ?_, separated := ?_, listed_iff := ?_ }, ?_⟩
  · intro other mem
    rcases place other mem with rfl | rest
    · exact settledTaken
    · exact (kept other mem (frame.ne_of_mem rest)).1
        (wellFormed.toFrame.same_settled same (old other rest)
          (wellFormed.settled other (old other rest)))
  · exact separated_split.mpr ⟨split.1, split.2.1,
      fun left mem => .inr (by simp [← takenIs]),
      fun right mem => .inl (by simp [← takenIs])⟩
  · intro other mem
    rcases place other mem with rfl | rest
    · have := wellFormed.toFrame.removed_notMem
      rw [start] at this
      have isUsed : other.used = true := by simp [← takenIs]
      simp [this, isUsed]
    · have different := wellFormed.toFrame.ne_of_mem rest
      rw [wellFormed.toFrame.mem_removed memBlock (old other rest) different]
      exact wellFormed.listed_iff other (old other rest)
  · intro other mem used
    have inNew : other ∈ before ++ taken :: after := by
      rcases List.mem_append.mp mem with inBefore | inAfter
      · simp [inBefore]
      · simp [inAfter]
    exact (sameWithin other mem used).trans (kept other inNew (frame.ne_of_mem mem)).2

end Whole

theorem requestSize_spec (fits : size + 11 < 2 ^ 32) :
    4 ∣ requestSize size ∧ headerSize ≤ requestSize size ∧
      size + 8 ≤ requestSize size ∧ requestSize size < 2 ^ 32 := by
  have sum : add32 size (sizeT * 2) = size + 8 := add32_of_lt (by simp only [sizeT]; omega)
  have header16 : headerSize = 16 := rfl
  simp only [requestSize, sum]
  split_ifs with small
  · rw [alignUp_eq (by omega)]
    omega
  · rw [alignUp_eq (by omega)]
    omega

/-- `ffs_alloc`, told by the chunk that its search finds. -/
theorem ffsAlloc_eq {iter : Nat}
    (search : ffsSearch memory (requestSize size) addressWords (memory mpool) = some iter) :
    ffsAlloc mpool size memory = some (
      if iter = 0 then (0, memory)
      else
        let taken :=
          if add32 (requestSize size) headerSize ≤ memory iter then
            cutStores iter (requestSize size) memory
          else (iter, ffsRemoveChunk mpool iter memory)
        (add32 taken.1 sizeT, markStores taken.1 taken.2)) := by
  simp only [ffsAlloc, search, Option.bind_eq_bind, Option.bind_some]
  by_cases none : iter = 0
  · simp only [none, if_true]
    rfl
  · simp only [none, if_false]
    rfl

/-- `taken` is the chunk handed out on the way from one layout to the next. -/
structure Grants (blocks : List Block) (taken : Block) (blocks' : List Block) : Prop where
  used : taken.used = true
  fresh : taken ∉ blocks
  used_iff : ∀ other : Block, other.used = true →
    (other ∈ blocks' ↔ other = taken ∨ other ∈ blocks)

/-- The chunk handed out is the chunk found, or its last part. -/
structure TakenFrom (memory : Memory) (iter : Nat) (taken : Block) : Prop where
  start : iter ≤ taken.addr
  finish : taken.limit = iter + memory iter

/-- `ffs_alloc` returns null and changes nothing when no free chunk is large
enough; otherwise it hands out a chunk of at least the requested size, from the
first chunk of the list that is large enough, and changes no chunk in use. -/
theorem WellFormed.ffsAlloc (wellFormed : WellFormed mpool low high memory blocks free)
    (fits : size + 11 < 2 ^ 32) :
    (FirstFit.ffsAlloc mpool size memory = some (0, memory) ∧
      ∀ block ∈ blocks, block.used = false → block.size < requestSize size) ∨
    ∃ taken memory' blocks' free',
      FirstFit.ffsAlloc mpool size memory = some (taken.addr + sizeT, memory') ∧
      requestSize size ≤ taken.size ∧ Grants blocks taken blocks' ∧
      WellFormed mpool low high memory' blocks' free' ∧
      (∃ iter ∈ free, FirstLarge memory (requestSize size) free iter ∧
        TakenFrom memory iter taken) ∧
      ∀ kept ∈ blocks, kept.used = true → SameWithin kept memory memory' := by
  obtain ⟨aligned, large, -, -⟩ := requestSize_spec fits
  obtain ⟨iter, search, first⟩ :
      ∃ iter, ffsSearch memory (requestSize size) addressWords (memory mpool) = some iter ∧
        FirstLarge memory (requestSize size) free iter :=
    wellFormed.toFrame.ffsSearch_eq
  have stored : ∀ block ∈ blocks, block.used = false → memory block.addr = block.size := by
    intro block mem unused
    simpa [word, unused] using (wellFormed.settled block mem).header
  have result := ffsAlloc_eq search
  cases first with
  | none small =>
      refine .inl ⟨result, fun block mem unused => ?_⟩
      have isListed := (wellFormed.listed_iff block mem).mpr unused
      exact stored block mem unused ▸ small _ isListed
  | @found front back _ small enough =>
      refine .inr ?_
      obtain ⟨block, memBlock, rfl⟩ := wellFormed.listed iter (by simp)
      have unused := (wellFormed.listed_iff block memBlock).mp (by simp)
      have bounds := wellFormed.bounds memBlock
      have header := stored block memBlock unused
      obtain ⟨before, after, rfl⟩ := List.append_of_mem memBlock
      have size4 : sizeT = 4 := rfl
      have header16 : headerSize = 16 := rfl
      have poolPos := wellFormed.pool_pos
      have poolAligned := wellFormed.pool_aligned
      have room : add32 (requestSize size) headerSize = requestSize size + headerSize :=
        add32_of_lt (by omega)
      rw [header] at enough
      rw [if_neg (by omega), room, header] at result
      have others : ∀ other ∈ before ++ block :: after, other.used = true →
          other ∈ before ++ after := by
        intro other mem used
        have notBlock : other ≠ block := by rintro rfl; simp [unused] at used
        simpa [notBlock] using mem
      by_cases cuts : requestSize size + headerSize ≤ block.size
      · obtain ⟨startIs, cut, within⟩ := wellFormed.cut unused aligned large cuts
        simp only [if_pos cuts] at result
        rw [startIs, add32_of_lt (by omega)] at result
        rw [startIs] at cut within
        refine ⟨⟨block.addr + (block.size - requestSize size), requestSize size, true⟩,
          _, _, _, result, Nat.le_refl _, ⟨rfl, ?_, ?_⟩, cut,
          ⟨block.addr, by simp, .found small (header.symm ▸ enough), ⟨by simp, ?_⟩⟩, ?_⟩
        · intro isOld
          rcases wellFormed.apart memBlock isOld with same | apart
          · exact absurd (congrArg Block.used same) (by simp [unused])
          · simp only at apart; omega
        · intro other used
          have notBlock : other ≠ block := by rintro rfl; simp [unused] at used
          have notFirst : other ≠ ⟨block.addr, block.size - requestSize size, false⟩ := by
            rintro rfl; simp at used
          simp only [List.mem_append, List.mem_cons, notBlock, notFirst, false_or]
          tauto
        · simp only [Block.limit, header]
          omega
        · exact fun kept mem used => within kept (others kept mem used)
      · simp only [if_neg cuts] at result
        rw [add32_of_lt (by omega)] at result
        obtain ⟨take, within⟩ := wellFormed.take unused
        refine ⟨⟨block.addr, block.size, true⟩, _, _, _, result, enough, ⟨rfl, ?_, ?_⟩, take,
          ⟨block.addr, by simp, .found small (header.symm ▸ enough), ⟨Nat.le_refl _, ?_⟩⟩, ?_⟩
        · intro isOld
          have same := wellFormed.tiles.eq_of_addr memBlock isOld rfl
          exact absurd (congrArg Block.used same) (by simp [unused])
        · intro other used
          have notBlock : other ≠ block := by rintro rfl; simp [unused] at used
          simp only [List.mem_append, List.mem_cons, notBlock, false_or]
          tauto
        · simp only [Block.limit, header]
        · exact fun kept mem used => within kept (others kept mem used) used

end Oseer.FirstFit
