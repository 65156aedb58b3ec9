import Oseer.FirstFit

/-!
# The layout of a first-fit pool

A pool of `ff_simple.c` is a tiling of the area between two border words,
together with the list of its free chunks.  This file states what the memory
must hold, reads chunk headers under that invariant, and shows that the two
list routines change nothing but link words.
-/

namespace Oseer.FirstFit

open WordMemory LinkedRing Tiling

/-- The free list of the pool at `mpool`, as the generic list library sees it. -/
def freeFormat (mpool : Nat) : ListFormat where
  head := mpool
  next := nextField
  prev := prevField
  tag := 0

/-- The word in the header and in the tail of a chunk. -/
def word (block : Block) : Nat := block.size + block.used.toNat

/-- Header and tail of a chunk both hold its word. -/
structure Settled (memory : Memory) (block : Block) : Prop where
  header : memory block.addr = word block
  tail : memory (block.limit - sizeT) = word block

/-- The parts of the invariant that hold in the middle of an operation, too:
chunks of legal sizes tile the area between the border words at `low` and
`high`, and the free list is a well-formed list of chunks. -/
structure Frame (mpool low high : Nat) (memory : Memory) (blocks : List Block)
    (free : List Nat) : Prop where
  low_eq : low = mpool + sizeT
  pool_pos : 0 < mpool
  pool_aligned : 4 ∣ mpool
  high_lt : high + sizeT < 2 ^ 32
  tiles : Tiles (low + sizeT) blocks high
  legal : ∀ block ∈ blocks, 4 ∣ block.size ∧ headerSize ≤ block.size
  lowBorder : memory low = 5
  highBorder : memory high = 5
  list : (freeFormat mpool).Holds memory free
  listed : ∀ node ∈ free, ∃ block ∈ blocks, block.addr = node

/-- Two memories agree outside the link words of the chunks. -/
def SameOffLinks (mpool : Nat) (blocks : List Block) (memory memory' : Memory) :
    Prop :=
  ∀ address, address ≠ mpool →
    (∀ block ∈ blocks, address ≠ block.addr + prevField ∧
      address ≠ block.addr + nextField) →
    memory' address = memory address

/-- Two memories agree on all words of a chunk. -/
def SameWithin (block : Block) (memory memory' : Memory) : Prop :=
  ∀ address, block.addr ≤ address → address < block.limit →
    memory' address = memory address

variable {mpool low high node : Nat} {memory memory' memory'' : Memory}
  {blocks before after : List Block} {block other : Block} {free : List Nat}

theorem SameWithin.refl : SameWithin block memory memory := fun _ _ _ => rfl

theorem SameWithin.trans (first : SameWithin block memory memory')
    (second : SameWithin block memory' memory'') : SameWithin block memory memory'' :=
  fun address start finish =>
    (second address start finish).trans (first address start finish)

theorem SameWithin.write {address : Nat} (value : Nat)
    (outside : address < block.addr ∨ block.limit ≤ address) :
    SameWithin block memory (memory.write address value) :=
  fun _ _ _ => write_other (by omega)

/-- Every chunk lies between the border words and is large enough for its
header, links and tail. -/
theorem Frame.bounds (frame : Frame mpool low high memory blocks free)
    (member : block ∈ blocks) :
    mpool + 8 ≤ block.addr ∧ 16 ≤ block.size ∧
      block.addr + block.size ≤ high ∧ high + 4 < 2 ^ 32 := by
  have place := frame.tiles.mem_bounds member
  have legal := frame.legal block member
  have highLt := frame.high_lt
  have lowEq := frame.low_eq
  simp only [Block.limit, sizeT, headerSize] at *
  omega

theorem Frame.apart (frame : Frame mpool low high memory blocks free)
    (mem : block ∈ blocks) (memOther : other ∈ blocks) :
    other = block ∨ other.addr + other.size ≤ block.addr ∨
      block.addr + block.size ≤ other.addr :=
  frame.tiles.eq_or_apart mem memOther

private theorem aligned_of_tiles {start finish : Nat}
    (tiles : Tiles start blocks finish) (aligned : 4 ∣ start)
    (sizes : ∀ block ∈ blocks, 4 ∣ block.size) :
    ∀ block ∈ blocks, 4 ∣ block.addr := by
  induction blocks generalizing start with
  | nil => simp
  | cons first rest ih =>
      obtain ⟨rfl, -, tilesRest⟩ := tiles
      have alignedLimit : 4 ∣ first.limit :=
        Nat.dvd_add aligned (sizes first (by simp))
      intro block member
      rcases List.mem_cons.mp member with rfl | inRest
      · exact aligned
      · exact ih tilesRest alignedLimit
          (fun block inRest => sizes block (.tail _ inRest)) block inRest

theorem Frame.aligned (frame : Frame mpool low high memory blocks free)
    (member : block ∈ blocks) : 4 ∣ block.addr := by
  refine aligned_of_tiles frame.tiles ?_ (fun b mem => (frame.legal b mem).1)
    block member
  have lowEq := frame.low_eq
  have poolAligned := frame.pool_aligned
  simp only [sizeT] at *
  omega

section Headers

theorem setBit0_even {size : Nat} (even : 4 ∣ size) : setBit0 size = size + 1 := by
  rw [setBit0_eq]; omega

theorem setBit0_word (even : 4 ∣ block.size) :
    setBit0 (word block) = block.size + 1 := by
  rw [setBit0_eq, word]
  cases block.used <;> simp <;> omega

theorem clearBit0_word (even : 4 ∣ block.size) (fits : block.size + 4 < 2 ^ 32) :
    clearBit0 (word block) = block.size := by
  have bit : block.used.toNat ≤ 1 := Bool.toNat_le _
  rw [clearBit0_eq (by simp only [word]; omega), word]
  omega

theorem checkFree_word (even : 4 ∣ block.size)
    (header : memory node = word block) :
    checkFree node memory ↔ block.used = false := by
  rw [checkFree, header, Nat.and_one_is_mod, word]
  cases block.used <;> simp <;> omega

theorem not_checkFree_border (border : memory node = 5) :
    ¬ checkFree node memory := by
  simp [checkFree, border]

variable (frame : Frame mpool low high memory blocks free)
  (member : block ∈ blocks)

include frame member

theorem Frame.getAfter_eq (header : memory block.addr = word block) :
    getAfter block.addr memory = block.limit := by
  have bounds := frame.bounds member
  rw [getAfter, getSize, header,
    clearBit0_word (frame.legal block member).1 (by omega),
    add32_of_lt (by omega)]
  rfl

theorem Frame.getTail_eq (header : memory block.addr = word block) :
    getTail block.addr memory = block.limit - sizeT := by
  have bounds := frame.bounds member
  rw [getTail, frame.getAfter_eq member header, sub32_of_le]
  · simp only [Block.limit]; omega
  · simp only [Block.limit, sizeT]; omega

theorem Frame.getHdr_eq (tail : memory (block.limit - sizeT) = word block) :
    getHdr (block.limit - sizeT) memory = block.addr := by
  have bounds := frame.bounds member
  have place : block.limit - sizeT = block.addr + block.size - 4 := rfl
  rw [getHdr, getSize, tail,
    clearBit0_word (frame.legal block member).1 (by omega), place,
    sub32_of_le (by omega) (by omega), add32_of_lt (by simp only [sizeT]; omega)]
  simp only [sizeT]
  omega

end Headers

section Words

variable (frame : Frame mpool low high memory blocks free)
  (same : SameOffLinks mpool blocks memory memory')

include frame same

theorem Frame.same_low : memory' low = memory low := by
  have lowEq := frame.low_eq
  simp only [sizeT] at lowEq
  refine same low (by omega) fun block member => ?_
  have bounds := frame.bounds member
  simp only [prevField, nextField]
  omega

theorem Frame.same_high : memory' high = memory high := by
  have lowEq := frame.low_eq
  have le := frame.tiles.le
  simp only [sizeT] at lowEq le
  refine same high (by omega) fun block member => ?_
  have bounds := frame.bounds member
  simp only [prevField, nextField]
  omega

theorem Frame.same_header (member : block ∈ blocks) :
    memory' block.addr = memory block.addr := by
  have bounds := frame.bounds member
  refine same _ (by omega) fun other memOther => ?_
  have boundsOther := frame.bounds memOther
  have apart := frame.apart member memOther
  simp only [prevField, nextField]
  rcases apart with rfl | apart <;> omega

theorem Frame.same_tail (member : block ∈ blocks) :
    memory' (block.limit - sizeT) = memory (block.limit - sizeT) := by
  have bounds := frame.bounds member
  simp only [Block.limit, sizeT]
  refine same _ (by omega) fun other memOther => ?_
  have boundsOther := frame.bounds memOther
  have apart := frame.apart member memOther
  simp only [prevField, nextField]
  rcases apart with rfl | apart <;> omega

theorem Frame.same_settled (member : block ∈ blocks)
    (settled : Settled memory block) : Settled memory' block where
  header := (frame.same_header same member).trans settled.header
  tail := (frame.same_tail same member).trans settled.tail

theorem Frame.relist {free' : List Nat}
    (list : (freeFormat mpool).Holds memory' free')
    (listed : ∀ node ∈ free', ∃ block ∈ blocks, block.addr = node) :
    Frame mpool low high memory' blocks free' :=
  { frame with
    lowBorder := (frame.same_low same).trans frame.lowBorder
    highBorder := (frame.same_high same).trans frame.highBorder
    list := list
    listed := listed }

end Words

section ListRoutines

variable {front back : List Nat}

theorem Frame.nodes_apart (frame : Frame mpool low high memory blocks free)
    {first second : Nat} (memFirst : first ∈ free) (memSecond : second ∈ free) :
    mpool + 8 ≤ first ∧
      (first = second ∨ first + 16 ≤ second ∨ second + 16 ≤ first) := by
  obtain ⟨blockFirst, inFirst, rfl⟩ := frame.listed _ memFirst
  obtain ⟨blockSecond, inSecond, rfl⟩ := frame.listed _ memSecond
  have boundsFirst := frame.bounds inFirst
  have boundsSecond := frame.bounds inSecond
  rcases frame.apart inFirst inSecond with rfl | apart <;> omega

@[simp]
theorem freeFormat_head : (freeFormat mpool).head = mpool := rfl

@[simp]
theorem freeFormat_next : (freeFormat mpool).next = nextField := rfl

@[simp]
theorem freeFormat_prev : (freeFormat mpool).prev = prevField := rfl

@[simp]
theorem freeFormat_tag : (freeFormat mpool).tag = 0 := rfl

@[simp]
theorem freeFormat_nameOf (node : Nat) : (freeFormat mpool).nameOf node = node := by
  simp [freeFormat, ListFormat.nameOf, eq_comm]

theorem freeFormat_slot (node : Nat) :
    (freeFormat mpool).slot node = if node = 0 then mpool else node + nextField := rfl

/-- Slots of different entries of the list are different words, and no slot is
the `prev` word of a node. -/
theorem Frame.slot_ne (frame : Frame mpool low high memory blocks free)
    {first second : Nat} (memFirst : first ∈ 0 :: free) (memSecond : second ∈ 0 :: free) :
    (first ≠ second →
      (freeFormat mpool).slot first ≠ (freeFormat mpool).slot second) ∧
    (second ≠ 0 → (freeFormat mpool).slot first ≠ second + prevField) := by
  have poolPos := frame.pool_pos
  simp only [freeFormat_slot, nextField, prevField]
  rcases List.mem_cons.mp memFirst with rfl | inFirst <;>
    rcases List.mem_cons.mp memSecond with rfl | inSecond
  · simp
  · have := (frame.nodes_apart inSecond inSecond).1
    split_ifs <;> omega
  · have := (frame.nodes_apart inFirst inFirst).1
    split_ifs <;> omega
  · have := frame.nodes_apart inFirst inSecond
    split_ifs <;> omega

/-- What `ffs_remove_chunk` stores, told by the list it works on. -/
theorem Frame.ffsRemoveChunk_eq
    (frame : Frame mpool low high memory blocks (front ++ node :: back)) :
    ffsRemoveChunk mpool node memory =
      let memory := memory.write ((freeFormat mpool).slot (lastOf 0 front)) (headOf 0 back)
      if headOf 0 back ≠ 0 then
        memory.write (headOf 0 back + prevField) (lastOf 0 front)
      else memory := by
  have list := frame.list
  have next : memory (node + nextField) = headOf 0 back := list.next
  have prev : memory (node + prevField) = lastOf 0 front := by
    simpa using list.prev
  have head : memory mpool = headOf 0 (front ++ node :: back) := list.head
  have nonzero : node ≠ 0 := list.ne_zero (by simp)
  have lastMem : lastOf 0 front ∈ 0 :: (front ++ node :: back) := by
    have : lastOf 0 front ∈ 0 :: front := lastOf_mem
    simp only [List.mem_cons, List.mem_append] at this ⊢
    tauto
  have nodeMem : node ∈ 0 :: (front ++ node :: back) := by simp
  have nodup := (List.nodup_cons.mp list.nodup).2
  have first : node = memory mpool ↔ lastOf 0 front = 0 := by
    rw [head]
    cases front with
    | nil => simp
    | cons first front =>
        have notFirst : node ≠ first := by
          rintro rfl
          simp at nodup
        have lastNonzero : lastOf 0 (first :: front) ≠ 0 :=
          list.ne_zero (List.mem_append_left _ lastOf_mem_cons)
        simp [notFirst, lastNonzero]
  have stored : (if node = memory mpool then memory.write mpool (memory (node + nextField))
      else memory.write (memory (node + prevField) + nextField)
        (memory (node + nextField))) =
      memory.write ((freeFormat mpool).slot (lastOf 0 front)) (headOf 0 back) := by
    rw [next, prev, freeFormat_slot]
    by_cases isFirst : lastOf 0 front = 0
    · rw [if_pos (first.mpr isFirst), if_pos isFirst]
    · rw [if_neg (mt first.mp isFirst), if_neg isFirst]
  have notLast : lastOf 0 front ≠ node := by
    intro same
    rcases List.mem_cons.mp (lastOf_mem : lastOf 0 front ∈ 0 :: front) with isHub | inFront
    · exact nonzero (same.symm.trans isHub)
    · exact List.disjoint_of_nodup_append nodup inFront (by simp [same])
  have nextKept : memory.write ((freeFormat mpool).slot (lastOf 0 front)) (headOf 0 back)
      (node + nextField) = headOf 0 back := by
    have apart := (frame.slot_ne nodeMem lastMem).1 notLast.symm
    rw [freeFormat_slot, if_neg nonzero] at apart
    rw [write_other apart, next]
  have prevKept : memory.write ((freeFormat mpool).slot (lastOf 0 front)) (headOf 0 back)
      (node + prevField) = lastOf 0 front := by
    have apart := (frame.slot_ne lastMem nodeMem).2 nonzero
    rw [write_other apart.symm, prev]
  simp only [ffsRemoveChunk, stored, nextKept, prevKept]

/-- `ffs_remove_chunk` takes its chunk out of the free list and touches link
words only. -/
theorem Frame.remove
    (frame : Frame mpool low high memory blocks (front ++ node :: back)) :
    Frame mpool low high (ffsRemoveChunk mpool node memory) blocks (front ++ back) ∧
      SameOffLinks mpool blocks memory (ffsRemoveChunk mpool node memory) := by
  have poolPos := frame.pool_pos
  have members : ∀ a ∈ 0 :: (front ++ back), a ∈ 0 :: (front ++ node :: back) := by
    simp only [List.mem_cons, List.mem_append]
    tauto
  have lastMem := members _ (List.mem_cons.mpr ((List.mem_cons.mp
    (lastOf_mem : lastOf 0 front ∈ 0 :: front)).imp id (List.mem_append_left back)))
  have nextMem := members _ (List.mem_cons.mpr ((List.mem_cons.mp
    (headOf_mem : headOf 0 back ∈ 0 :: back)).imp id (List.mem_append_right front)))
  have same : SameOffLinks mpool blocks memory (ffsRemoveChunk mpool node memory) := by
    have isLink : ∀ a ∈ 0 :: (front ++ node :: back), a ≠ 0 →
        ∃ block ∈ blocks, block.addr = a := fun a mem nonzero =>
      frame.listed a ((List.mem_cons.mp mem).resolve_left nonzero)
    intro address notPool notLink
    have notSlot : address ≠ (freeFormat mpool).slot (lastOf 0 front) := by
      rw [freeFormat_slot]
      split_ifs with isHub
      · exact notPool
      · obtain ⟨block, member, start⟩ := isLink _ lastMem isHub
        exact start ▸ (notLink block member).2
    rw [frame.ffsRemoveChunk_eq]
    simp only
    split_ifs with hasNext
    · obtain ⟨block, member, start⟩ := isLink _ nextMem hasNext
      rw [write_other (start ▸ (notLink block member).1), write_other notSlot]
    · exact write_other notSlot
  refine ⟨frame.relist same ?_ fun a mem => frame.listed a ?_, same⟩
  · have slotNe := fun a mem => frame.slot_ne (members a mem) lastMem
    rw [frame.ffsRemoveChunk_eq]
    simp only
    refine frame.list.unlink ?_ ?_ ?_ ?_
    · split_ifs with hasNext
      · rw [write_other ((frame.slot_ne lastMem nextMem).2 hasNext), write_same]
      · exact write_same
    · intro hasNext
      rw [if_pos hasNext, freeFormat_nameOf, freeFormat_prev, write_same]
    · intro a mem notLast
      have apart := (slotNe a mem).1 notLast
      split_ifs with hasNext
      · rw [write_other ((frame.slot_ne (members a mem) nextMem).2 hasNext),
          write_other apart]
      · exact write_other apart
    · intro a mem notNext
      have inList := members a (.tail _ mem)
      have nonzero : a ≠ 0 := by
        rintro rfl
        exact (List.nodup_cons.mp frame.list.nodup).1 (by
          simp only [List.mem_append, List.mem_cons] at mem ⊢; tauto)
      have apart := ((frame.slot_ne lastMem inList).2 nonzero).symm
      rw [freeFormat_prev]
      split_ifs with hasNext
      · rw [write_other (by omega), write_other apart]
      · exact write_other apart
  · simp only [List.mem_append, List.mem_cons] at mem ⊢
    tauto

/-- `ffs_remove_chunk` changes no chunk that is not in the free list. -/
theorem Frame.remove_within
    (frame : Frame mpool low high memory blocks (front ++ node :: back))
    (member : other ∈ blocks) (unlisted : other.addr ∉ front ++ node :: back) :
    SameWithin other memory (ffsRemoveChunk mpool node memory) := by
  have bounds := frame.bounds member
  have apart : ∀ link ∈ front ++ node :: back,
      link + 16 ≤ other.addr ∨ other.limit ≤ link := by
    intro link mem
    obtain ⟨block, memBlock, rfl⟩ := frame.listed link mem
    have boundsBlock := frame.bounds memBlock
    rcases frame.apart member memBlock with rfl | apart
    · exact absurd mem unlisted
    · simp only [Block.limit]
      omega
  have slotOutside : (freeFormat mpool).slot (lastOf 0 front) < other.addr ∨
      other.limit ≤ (freeFormat mpool).slot (lastOf 0 front) := by
    rw [freeFormat_slot]
    split_ifs with isHub
    · omega
    · have place := (List.mem_cons.mp
        (lastOf_mem : lastOf 0 front ∈ 0 :: front)).resolve_left isHub
      have := apart _ (List.mem_append_left _ place)
      simp only [nextField]
      omega
  rw [frame.ffsRemoveChunk_eq]
  simp only
  split_ifs with hasNext
  · have place := (List.mem_cons.mp
      (headOf_mem : headOf 0 back ∈ 0 :: back)).resolve_left hasNext
    have := apart _ (List.mem_append_right _ (.tail _ place))
    refine (SameWithin.write _ slotOutside).trans (SameWithin.write _ ?_)
    simp only [prevField]
    omega
  · exact SameWithin.write _ slotOutside

/-- `ffs_insert_chunk` puts its chunk in front of the free list and touches
link words only. -/
theorem Frame.insert (frame : Frame mpool low high memory blocks free)
    (member : block ∈ blocks) (fresh : block.addr ∉ free) :
    Frame mpool low high (ffsInsertChunk mpool block.addr memory) blocks
        (block.addr :: free) ∧
      SameOffLinks mpool blocks memory (ffsInsertChunk mpool block.addr memory) := by
  have bounds := frame.bounds member
  have poolPos := frame.pool_pos
  have prevIs : prevField = 4 := rfl
  have nextIs : nextField = 8 := rfl
  have head : memory mpool = headOf 0 free := frame.list.head
  have stored : ffsInsertChunk mpool block.addr memory =
      let memory' := (memory.write (block.addr + nextField) (headOf 0 free)).write
        (block.addr + prevField) 0
      (if headOf 0 free ≠ 0 then
        memory'.write (headOf 0 free + prevField) block.addr else memory').write
          mpool block.addr := by
    have kept : (memory.write (block.addr + nextField) (headOf 0 free)).write
        (block.addr + prevField) 0 mpool = headOf 0 free := by
      rw [write_other (by omega), write_other (by omega), head]
    simp only [ffsInsertChunk, head, kept]
  have firstPlace : headOf 0 free ≠ 0 → headOf 0 free ∈ free := fun nonzero =>
    (List.mem_cons.mp headOf_mem).resolve_left nonzero
  have nodePlace : ∀ a ∈ free, mpool + 8 ≤ a ∧
      (a + 16 ≤ block.addr ∨ block.addr + 16 ≤ a) := by
    intro a mem
    obtain ⟨other, memOther, start⟩ := frame.listed a mem
    have boundsOther := frame.bounds memOther
    rcases frame.apart member memOther with rfl | apart
    · exact absurd (start ▸ mem) fresh
    · omega
  have value : ∀ address, ffsInsertChunk mpool block.addr memory address =
      if address = mpool then block.addr
      else if headOf 0 free ≠ 0 ∧ address = headOf 0 free + prevField then block.addr
      else if address = block.addr + prevField then 0
      else if address = block.addr + nextField then headOf 0 free
      else memory address := by
    intro address
    rw [stored]
    by_cases empty : headOf 0 free = 0 <;> simp [write_apply, empty]
  have same : SameOffLinks mpool blocks memory
      (ffsInsertChunk mpool block.addr memory) := by
    intro address notPool notLink
    have notFirst : ¬ (headOf 0 free ≠ 0 ∧ address = headOf 0 free + prevField) := by
      rintro ⟨nonzero, isPrev⟩
      obtain ⟨other, memOther, start⟩ := frame.listed _ (firstPlace nonzero)
      exact (notLink other memOther).1 (start ▸ isPrev)
    rw [value, if_neg notPool, if_neg notFirst, if_neg (notLink block member).1,
      if_neg (notLink block member).2]
  refine ⟨frame.relist same (frame.list.push (by omega) fresh ?_ ?_ ?_ ?_ ?_ ?_) ?_, same⟩
  any_goals simp only [freeFormat_head, freeFormat_next, freeFormat_prev,
    freeFormat_tag, value]
  · rw [if_pos trivial]
  · rw [if_neg (by omega), if_neg, if_neg (by omega), if_pos trivial]
    rintro ⟨nonzero, isPrev⟩
    have := nodePlace _ (firstPlace nonzero)
    omega
  · rw [if_neg (by omega), if_neg, if_pos trivial]
    rintro ⟨nonzero, isPrev⟩
    have := nodePlace _ (firstPlace nonzero)
    omega
  · intro nonzero
    have := nodePlace _ (firstPlace nonzero)
    rw [if_neg (by omega), if_pos ⟨nonzero, trivial⟩]
  · intro a mem
    have := nodePlace a mem
    rw [if_neg (by omega), if_neg, if_neg (by omega), if_neg (by omega)]
    rintro ⟨nonzero, isPrev⟩
    have := frame.nodes_apart mem (firstPlace nonzero)
    omega
  · intro a mem notFirst
    have := nodePlace a mem
    rw [if_neg (by omega), if_neg (by omega), if_neg (by omega), if_neg (by omega)]
  · intro a mem
    rcases List.mem_cons.mp mem with rfl | inFree
    · exact ⟨block, member, rfl⟩
    · exact frame.listed a inFree

/-- `ffs_insert_chunk` changes its own chunk and chunks of the free list only. -/
theorem Frame.insert_within (frame : Frame mpool low high memory blocks free)
    (member : block ∈ blocks) (memOther : other ∈ blocks) (different : other ≠ block)
    (unlisted : other.addr ∉ free) :
    SameWithin other memory (ffsInsertChunk mpool block.addr memory) := by
  have bounds := frame.bounds member
  have boundsOther := frame.bounds memOther
  have limit : other.limit = other.addr + other.size := rfl
  have apart := (frame.apart member memOther).resolve_left different
  have prevIs : prevField = 4 := rfl
  have nextIs : nextField = 8 := rfl
  have head : (memory.write (block.addr + nextField) (memory mpool)).write
      (block.addr + prevField) 0 mpool = memory mpool := by
    rw [write_other (by omega), write_other (by omega)]
  have first : memory mpool = headOf 0 free := frame.list.head
  refine SameWithin.trans ?_ (SameWithin.write _ (by omega))
  rw [head]
  have linked : SameWithin other memory ((memory.write (block.addr + nextField)
      (memory mpool)).write (block.addr + prevField) 0) :=
    (SameWithin.write _ (by omega)).trans (SameWithin.write _ (by omega))
  split_ifs with hasFirst
  · rw [first] at hasFirst
    have place := (List.mem_cons.mp
      (headOf_mem : headOf 0 free ∈ 0 :: free)).resolve_left hasFirst
    obtain ⟨chunk, memChunk, start⟩ := frame.listed _ place
    have boundsChunk := frame.bounds memChunk
    rcases frame.apart memOther memChunk with rfl | apart
    · exact absurd (start ▸ place) unlisted
    · exact linked.trans (SameWithin.write _ (by omega))
  · exact linked

end ListRoutines

end Oseer.FirstFit
