import Oseer.FirstFitLayout

/-!
# Freeing a chunk of a first-fit pool

While `ffs_free` runs, the chunk it gives back is in no list and its tail is
out of date; all other chunks stay as the invariant has them.  The routine
moves through such states by joining the chunk with its free neighbours and
ends in a well-formed pool again.
-/

namespace Oseer.FirstFit

open WordMemory LinkedRing Tiling

/-- The invariant of a pool between two operations. -/
structure WellFormed (mpool low high : Nat) (memory : Memory) (blocks : List Block)
    (free : List Nat) : Prop extends Frame mpool low high memory blocks free where
  settled : ∀ block ∈ blocks, Settled memory block
  separated : Separated blocks
  listed_iff : ∀ block ∈ blocks, block.addr ∈ free ↔ block.used = false

/-- The invariant while `block`, between the chunks `before` and `after`, is on
its way to the free list. -/
structure Moving (mpool low high : Nat) (memory : Memory) (before : List Block)
    (block : Block) (after : List Block) (free : List Nat) : Prop
    extends Frame mpool low high memory (before ++ block :: after) free where
  unused : block.used = false
  header : memory block.addr = block.size
  notListed : block.addr ∉ free
  settled : ∀ other ∈ before ++ after, Settled memory other
  separatedBefore : Separated before
  separatedAfter : Separated after
  listed_iff : ∀ other ∈ before ++ after, other.addr ∈ free ↔ other.used = false

variable {mpool low high : Nat} {memory memory' : Memory}
  {blocks before after : List Block} {block other : Block} {free : List Nat}

/-- Storing a header word keeps the frame and all other headers and tails. -/
theorem Frame.write_header (frame : Frame mpool low high memory blocks free)
    (member : block ∈ blocks) (value : Nat) :
    Frame mpool low high (memory.write block.addr value) blocks free ∧
      ∀ other ∈ blocks, other ≠ block → Settled memory other →
        Settled (memory.write block.addr value) other := by
  have bounds := frame.bounds member
  have lowEq := frame.low_eq
  have size : sizeT = 4 := rfl
  have prevIs : prevField = 4 := rfl
  have nextIs : nextField = 8 := rfl
  refine ⟨{ frame with
    lowBorder := ?_, highBorder := ?_, list := ?_ }, ?_⟩
  · rw [write_other (by omega), frame.lowBorder]
  · rw [write_other (by omega), frame.highBorder]
  · have linkApart : ∀ node ∈ free, node + 4 ≠ block.addr ∧ node + 8 ≠ block.addr := by
      intro node mem
      obtain ⟨other, memOther, rfl⟩ := frame.listed node mem
      have boundsOther := frame.bounds memOther
      rcases frame.apart member memOther with rfl | apart <;> omega
    refine frame.list.congr ?_ ?_ ?_
    · exact write_other (by simp only [freeFormat_head]; omega)
    · exact fun node mem => write_other (linkApart node mem).2
    · exact fun node mem => write_other (linkApart node mem).1
  · intro other memOther different settled
    have boundsOther := frame.bounds memOther
    have limit : other.limit = other.addr + other.size := rfl
    have apart := (frame.apart member memOther).resolve_left different
    exact ⟨(write_other (by omega)).trans settled.header,
      (write_other (by omega)).trans settled.tail⟩

/-- Storing a tail word keeps the frame and all other headers and tails. -/
theorem Frame.write_tail (frame : Frame mpool low high memory blocks free)
    (member : block ∈ blocks) (value : Nat) :
    Frame mpool low high (memory.write (block.limit - sizeT) value) blocks free ∧
      (memory.write (block.limit - sizeT) value block.addr = memory block.addr) ∧
      ∀ other ∈ blocks, other ≠ block → Settled memory other →
        Settled (memory.write (block.limit - sizeT) value) other := by
  have bounds := frame.bounds member
  have lowEq := frame.low_eq
  have size : sizeT = 4 := rfl
  have limit : block.limit = block.addr + block.size := rfl
  have prevIs : prevField = 4 := rfl
  have nextIs : nextField = 8 := rfl
  refine ⟨{ frame with
    lowBorder := ?_, highBorder := ?_, list := ?_ }, write_other (by omega), ?_⟩
  · rw [write_other (by omega), frame.lowBorder]
  · rw [write_other (by omega), frame.highBorder]
  · have linkApart : ∀ node ∈ free,
        node + 4 ≠ block.limit - 4 ∧ node + 8 ≠ block.limit - 4 := by
      intro node mem
      obtain ⟨other, memOther, rfl⟩ := frame.listed node mem
      have boundsOther := frame.bounds memOther
      rcases frame.apart member memOther with rfl | apart <;> omega
    refine frame.list.congr ?_ ?_ ?_
    · exact write_other (by simp only [freeFormat_head]; omega)
    · exact fun node mem => write_other (linkApart node mem).2
    · exact fun node mem => write_other (linkApart node mem).1
  · intro other memOther different settled
    have boundsOther := frame.bounds memOther
    have limitOther : other.limit = other.addr + other.size := rfl
    have apart := (frame.apart member memOther).resolve_left different
    exact ⟨(write_other (by omega)).trans settled.header,
      (write_other (by omega)).trans settled.tail⟩

theorem Frame.ne_of_mem
    (frame : Frame mpool low high memory (before ++ block :: after) free)
    (member : other ∈ before ++ after) : other ≠ block := by
  rintro rfl
  have bounds := frame.bounds (by simp : other ∈ before ++ other :: after)
  have apart := frame.tiles.apart member
  simp only [Block.limit] at apart
  omega

/-- A chunk may change its status in place. -/
theorem Frame.restatus
    (frame : Frame mpool low high memory (before ++ block :: after) free)
    (start : other.addr = block.addr) (size : other.size = block.size) :
    Frame mpool low high memory (before ++ other :: after) free :=
  { frame with
    tiles := frame.tiles.restatus start size
    legal := by
      intro chunk mem
      rcases List.mem_append.mp mem with inBefore | rest
      · exact frame.legal chunk (by simp [inBefore])
      · rcases List.mem_cons.mp rest with rfl | inAfter
        · exact size ▸ frame.legal block (by simp)
        · exact frame.legal chunk (by simp [inAfter])
    listed := by
      intro node mem
      obtain ⟨chunk, memChunk, addr⟩ := frame.listed node mem
      simp only [List.mem_append, List.mem_cons] at memChunk
      rcases memChunk with inBefore | rfl | inAfter
      · exact ⟨chunk, by simp [inBefore], addr⟩
      · exact ⟨other, by simp, start.trans addr⟩
      · exact ⟨chunk, by simp [inAfter], addr⟩ }

theorem Frame.cloneSizeToTail (frame : Frame mpool low high memory blocks free)
    (member : block ∈ blocks) (header : memory block.addr = word block) :
    Frame mpool low high (FirstFit.cloneSizeToTail block.addr memory) blocks free ∧
      Settled (FirstFit.cloneSizeToTail block.addr memory) block ∧
      ∀ other ∈ blocks, other ≠ block → Settled memory other →
        Settled (FirstFit.cloneSizeToTail block.addr memory) other := by
  have stored : FirstFit.cloneSizeToTail block.addr memory =
      memory.write (block.limit - sizeT) (word block) := by
    rw [FirstFit.cloneSizeToTail, frame.getTail_eq member header, header]
  obtain ⟨written, headerKept, kept⟩ := frame.write_tail member (word block)
  rw [stored]
  exact ⟨written, ⟨headerKept.trans header, write_same⟩, kept⟩

theorem Frame.cloneSizeToTail_within (frame : Frame mpool low high memory blocks free)
    (member : block ∈ blocks) (header : memory block.addr = word block)
    (memOther : other ∈ blocks) (different : other ≠ block) :
    SameWithin other memory (FirstFit.cloneSizeToTail block.addr memory) := by
  have bounds := frame.bounds member
  have apart := (frame.apart member memOther).resolve_left different
  rw [FirstFit.cloneSizeToTail, frame.getTail_eq member header]
  refine SameWithin.write _ ?_
  simp only [Block.limit, sizeT]
  omega

theorem Frame.header_within (frame : Frame mpool low high memory blocks free)
    (member : block ∈ blocks) (memOther : other ∈ blocks) (different : other ≠ block)
    (value : Nat) : SameWithin other memory (memory.write block.addr value) := by
  have bounds := frame.bounds member
  have apart := (frame.apart member memOther).resolve_left different
  refine SameWithin.write _ ?_
  simp only [Block.limit]
  omega

section Start

variable (wellFormed : WellFormed mpool low high memory (before ++ block :: after) free)
  (used : block.used = true)

include wellFormed used

/-- `MARK_FREE` puts the chunk on its way. -/
theorem WellFormed.moving :
    Moving mpool low high (markFree block.addr memory) before
      ⟨block.addr, block.size, false⟩ after free := by
  have member : block ∈ before ++ block :: after := by simp
  have bounds := wellFormed.bounds member
  have legal := wellFormed.legal block member
  have stored : markFree block.addr memory = memory.write block.addr block.size := by
    rw [markFree, (wellFormed.settled block member).header,
      clearBit0_word legal.1 (by omega)]
  have write := wellFormed.toFrame.write_header member block.size
  have split := separated_split.mp wellFormed.separated
  have others : ∀ other ∈ before ++ after, other ∈ before ++ block :: after := by
    intro other mem
    simp only [List.mem_append, List.mem_cons] at mem ⊢
    tauto
  rw [stored]
  have frame : Frame mpool low high (memory.write block.addr block.size)
      (before ++ ⟨block.addr, block.size, false⟩ :: after) free :=
    write.1.restatus rfl rfl
  exact
    { frame with
      unused := rfl
      header := write_same
      notListed := by simp [wellFormed.listed_iff block member, used]
      settled := fun other mem => write.2 other (others other mem)
        (wellFormed.toFrame.ne_of_mem mem) (wellFormed.settled other (others other mem))
      separatedBefore := split.1
      separatedAfter := split.2.1
      listed_iff := fun other mem => wellFormed.listed_iff other (others other mem) }

end Start

section Join

variable {first second : Block} {node : Nat} {front back : List Nat}

/-- Unlisted neighbours may be seen as one chunk. -/
theorem Frame.join
    (frame : Frame mpool low high memory (before ++ first :: second :: after) free)
    (firstUnlisted : first.addr ∉ free) (secondUnlisted : second.addr ∉ free) :
    Frame mpool low high memory
      (before ++ ⟨first.addr, first.size + second.size, false⟩ :: after) free :=
  { frame with
    tiles := frame.tiles.join rfl rfl
    legal := by
      have legalFirst := frame.legal first (by simp)
      have legalSecond := frame.legal second (by simp)
      intro other mem
      rcases List.mem_append.mp mem with inBefore | rest
      · exact frame.legal other (by simp [inBefore])
      · rcases List.mem_cons.mp rest with rfl | inAfter
        · exact ⟨Nat.dvd_add legalFirst.1 legalSecond.1,
            legalFirst.2.trans (Nat.le_add_right _ _)⟩
        · exact frame.legal other (by simp [inAfter])
    listed := by
      intro node mem
      obtain ⟨other, memOther, start⟩ := frame.listed node mem
      simp only [List.mem_append, List.mem_cons] at memOther
      rcases memOther with inBefore | rfl | rfl | inAfter
      · exact ⟨other, by simp [inBefore], start⟩
      · exact absurd (start ▸ mem) firstUnlisted
      · exact absurd (start ▸ mem) secondUnlisted
      · exact ⟨other, by simp [inAfter], start⟩ }

/-- Both halves of `ffs_free` that join chunks: one of two neighbours leaves
the free list, and the header of the first gets the sum of their sizes. -/
theorem Frame.remove_join
    (frame : Frame mpool low high memory (before ++ first :: second :: after)
      (front ++ node :: back))
    (firstUnlisted : first.addr ∉ front ++ back)
    (secondUnlisted : second.addr ∉ front ++ back)
    (firstHeader : memory first.addr = first.size)
    (secondHeader : memory second.addr = second.size) :
    let removed := ffsRemoveChunk mpool node memory
    let joined := removed.write first.addr
      (add32 (removed first.addr) (removed second.addr))
    Frame mpool low high joined
        (before ++ ⟨first.addr, first.size + second.size, false⟩ :: after)
        (front ++ back) ∧
      joined first.addr = first.size + second.size ∧
      (∀ other ∈ before ++ after, Settled memory other → Settled joined other) ∧
      ∀ other ∈ before ++ after, other.addr ∉ front ++ node :: back →
        SameWithin other memory joined := by
  intro removed joined
  obtain ⟨frameRemoved, same⟩ := frame.remove
  have memFirst : first ∈ before ++ first :: second :: after := by simp
  have memSecond : second ∈ before ++ first :: second :: after := by simp
  have sum : add32 (removed first.addr) (removed second.addr) =
      first.size + second.size := by
    have boundsSecond := frame.bounds memSecond
    have meet : second.addr = first.addr + first.size :=
      (tiles_split.mp frame.tiles).2.2.1
    have keptFirst : removed first.addr = first.size :=
      (frame.same_header same memFirst).trans firstHeader
    have keptSecond : removed second.addr = second.size :=
      (frame.same_header same memSecond).trans secondHeader
    rw [keptFirst, keptSecond, add32_of_lt (by omega)]
  obtain ⟨frameJoined, kept⟩ := frameRemoved.write_header memFirst
    (add32 (removed first.addr) (removed second.addr))
  have others : ∀ other ∈ before ++ after,
      other ∈ before ++ first :: second :: after ∧ other ≠ first := by
    intro other mem
    refine ⟨?_, frame.ne_of_mem ?_⟩ <;>
    · simp only [List.mem_append, List.mem_cons] at mem ⊢
      tauto
  refine ⟨frameJoined.join firstUnlisted secondUnlisted, write_same.trans sum, ?_, ?_⟩
  · intro other mem settled
    obtain ⟨memOther, different⟩ := others other mem
    exact kept other memOther different (frame.same_settled same memOther settled)
  · intro other mem unlisted
    obtain ⟨memOther, different⟩ := others other mem
    have boundsFirst := frame.bounds memFirst
    have apart := (frame.apart memFirst memOther).resolve_left different
    refine (frame.remove_within memOther unlisted).trans (SameWithin.write _ ?_)
    simp only [Block.limit]
    omega

theorem Frame.mem_removed
    (frame : Frame mpool low high memory blocks (front ++ block.addr :: back))
    (member : block ∈ blocks) (memOther : other ∈ blocks) (different : other ≠ block) :
    other.addr ∈ front ++ back ↔ other.addr ∈ front ++ block.addr :: back := by
  have apart : other.addr ≠ block.addr := fun same =>
    different (frame.tiles.eq_of_addr member memOther same)
  simp [apart]

theorem Frame.removed_notMem
    (frame : Frame mpool low high memory blocks (front ++ node :: back)) :
    node ∉ front ++ back := by
  have nodup := (List.nodup_cons.mp frame.list.nodup).2
  exact (List.nodup_middle.mp nodup |> List.nodup_cons.mp).1

/-- Seen from a moving chunk, the word before it is the tail of its left
neighbour or the low border. -/
theorem Moving.before_addr
    (moving : Moving mpool low high memory (before ++ [other]) block after free) :
    sub32 block.addr sizeT = other.limit - sizeT := by
  have bounds := moving.bounds (by simp : block ∈ before ++ [other] ++ block :: after)
  have meet : other.limit = block.addr := by
    have tiles := moving.tiles
    rw [List.append_assoc] at tiles
    exact (tiles_split.mp tiles).2.2.1.symm
  have size : sizeT = 4 := rfl
  rw [meet, sub32_of_le (by omega) (by omega)]

theorem Moving.unlisted (moving : Moving mpool low high memory before block after free)
    (member : other ∈ before ++ after) (used : other.used = true) : other.addr ∉ free := by
  simp [moving.listed_iff other member, used]

/-- `ffs_free` joins the moving chunk with its left neighbour when that is
free, and changes no chunk in use. -/
theorem Moving.joinLeft
    (moving : Moving mpool low high memory before block after free) :
    ∃ memory' free', FirstFit.joinLeft mpool block.addr memory =
        ((joinBefore before block).2.addr, memory') ∧
      Moving mpool low high memory' (joinBefore before block).1
        (joinBefore before block).2 after free' ∧
      ∀ kept ∈ before ++ after, kept.used = true → SameWithin kept memory memory' := by
  cases before using List.reverseRecOn with
  | nil =>
      have border : sub32 block.addr sizeT = low := by
        have bounds := moving.bounds (by simp : block ∈ [] ++ block :: after)
        have start : block.addr = low + sizeT := moving.tiles.1
        have size : sizeT = 4 := rfl
        rw [sub32_of_le (by omega) (by omega)]
        omega
      have stays : FirstFit.joinLeft mpool block.addr memory = (block.addr, memory) := by
        simp only [FirstFit.joinLeft, border]
        exact if_neg (not_checkFree_border moving.lowBorder)
      rw [stays, joinBefore_nil]
      exact ⟨memory, free, rfl, moving, fun _ _ _ => SameWithin.refl⟩
  | append_singleton before other _ =>
      have memOther : other ∈ (before ++ [other]) ++ block :: after := by simp
      have settled := moving.settled other (by simp)
      have legal := moving.legal other memOther
      have tailFree : FirstFit.checkFree (other.limit - sizeT) memory ↔
          other.used = false := checkFree_word legal.1 settled.tail
      cases status : other.used with
      | true =>
          have stays : FirstFit.joinLeft mpool block.addr memory =
              (block.addr, memory) := by
            simp only [FirstFit.joinLeft, moving.before_addr]
            exact if_neg (by simp [tailFree, status])
          rw [stays, joinBefore_used status]
          exact ⟨memory, free, rfl, moving, fun _ _ _ => SameWithin.refl⟩
      | false =>
          have wordIs : word other = other.size := by simp [word, status]
          have joins : FirstFit.joinLeft mpool block.addr memory =
              (other.addr, (ffsRemoveChunk mpool other.addr memory).write other.addr
                (add32 (ffsRemoveChunk mpool other.addr memory other.addr)
                  (ffsRemoveChunk mpool other.addr memory block.addr))) := by
            simp only [FirstFit.joinLeft, moving.before_addr,
              moving.getHdr_eq memOther settled.tail]
            exact if_pos (tailFree.mpr status)
          have isListed : other.addr ∈ free :=
            (moving.listed_iff other (by simp)).mpr status
          obtain ⟨front, back, rfl⟩ := List.append_of_mem isListed
          have frame := moving.toFrame
          rw [List.append_assoc] at frame
          have blockUnlisted : block.addr ∉ front ++ back := by
            have := moving.notListed
            simp only [List.mem_append, List.mem_cons] at this ⊢
            tauto
          have result := frame.remove_join frame.removed_notMem blockUnlisted
            (settled.header.trans wordIs) moving.header
          have others : ∀ a ∈ before ++ after, a ∈ before ++ [other] ++ after := by
            intro a mem
            simp only [List.mem_append] at mem ⊢
            tauto
          rw [joins, joinBefore_free status]
          refine ⟨_, front ++ back, rfl, { result.1 with
            unused := rfl
            header := result.2.1
            notListed := frame.removed_notMem
            settled := fun a mem => result.2.2.1 a mem (moving.settled a (others a mem))
            separatedBefore := (separated_split.mp moving.separatedBefore).1
            separatedAfter := moving.separatedAfter
            listed_iff := ?_ }, ?_⟩
          · intro a mem
            have memA : a ∈ before ++ other :: block :: after := by
              simp only [List.mem_append, List.mem_cons] at mem ⊢
              tauto
            have different : a ≠ other := frame.ne_of_mem (by
              rcases List.mem_append.mp mem with inBefore | inAfter
              · simp [inBefore]
              · simp [inAfter])
            rw [frame.mem_removed (by simp) memA different]
            exact moving.listed_iff a (others a mem)
          · intro kept mem used
            have rest : kept ∈ before ++ after := by
              have different : kept ≠ other := by rintro rfl; simp [status] at used
              simpa [different] using mem
            exact result.2.2.2 kept rest (moving.unlisted mem used)

/-- `ffs_free` joins the moving chunk with its right neighbour when that is
free, and changes no chunk in use. -/
theorem Moving.joinRight
    (moving : Moving mpool low high memory before block after free) :
    ∃ free', (joinAfter block after).1.addr = block.addr ∧
      Moving mpool low high (FirstFit.joinRight mpool block.addr memory) before
        (joinAfter block after).1 (joinAfter block after).2 free' ∧
      ∀ kept ∈ before ++ after, kept.used = true →
        SameWithin kept memory (FirstFit.joinRight mpool block.addr memory) := by
  have header : memory block.addr = word block := by
    simp [word, moving.unused, moving.header]
  have afterIs : getAfter block.addr memory = block.limit :=
    moving.getAfter_eq (by simp) header
  cases after with
  | nil =>
      have border : block.limit = high := (tiles_split.mp moving.tiles).2.2
      have stays : FirstFit.joinRight mpool block.addr memory = memory := by
        simp only [FirstFit.joinRight, afterIs, border]
        exact if_neg (not_checkFree_border moving.highBorder)
      rw [stays, joinAfter_nil]
      exact ⟨free, rfl, moving, fun _ _ _ => SameWithin.refl⟩
  | cons other after =>
      have meet : other.addr = block.limit := (tiles_split.mp moving.tiles).2.2.1
      have memOther : other ∈ before ++ block :: other :: after := by simp
      have settled := moving.settled other (by simp)
      have headerFree : FirstFit.checkFree other.addr memory ↔ other.used = false :=
        checkFree_word (moving.legal other memOther).1 settled.header
      cases status : other.used with
      | true =>
          have stays : FirstFit.joinRight mpool block.addr memory = memory := by
            simp only [FirstFit.joinRight, afterIs, ← meet]
            exact if_neg (by simp [headerFree, status])
          rw [stays, joinAfter_used status]
          exact ⟨free, rfl, moving, fun _ _ _ => SameWithin.refl⟩
      | false =>
          have wordIs : word other = other.size := by simp [word, status]
          have joins : FirstFit.joinRight mpool block.addr memory =
              (ffsRemoveChunk mpool other.addr memory).write block.addr
                (add32 (ffsRemoveChunk mpool other.addr memory block.addr)
                  (ffsRemoveChunk mpool other.addr memory other.addr)) := by
            simp only [FirstFit.joinRight, afterIs, ← meet]
            exact if_pos (headerFree.mpr status)
          have isListed : other.addr ∈ free :=
            (moving.listed_iff other (by simp)).mpr status
          obtain ⟨front, back, rfl⟩ := List.append_of_mem isListed
          have frame := moving.toFrame
          have blockUnlisted : block.addr ∉ front ++ back := by
            have := moving.notListed
            simp only [List.mem_append, List.mem_cons] at this ⊢
            tauto
          have result := frame.remove_join blockUnlisted frame.removed_notMem
            moving.header (settled.header.trans wordIs)
          have others : ∀ a ∈ before ++ after, a ∈ before ++ other :: after := by
            intro a mem
            simp only [List.mem_append, List.mem_cons] at mem ⊢
            tauto
          rw [joins, joinAfter_free status]
          refine ⟨front ++ back, rfl, { result.1 with
            unused := rfl
            header := result.2.1
            notListed := blockUnlisted
            settled := fun a mem => result.2.2.1 a mem (moving.settled a (others a mem))
            separatedBefore := moving.separatedBefore
            separatedAfter := (separated_cons.mp moving.separatedAfter).1
            listed_iff := ?_ }, ?_⟩
          · intro a mem
            have memA : a ∈ before ++ block :: other :: after := by
              simp only [List.mem_append, List.mem_cons] at mem ⊢
              tauto
            have different : a ≠ other := by
              have split : before ++ block :: other :: after =
                  (before ++ [block]) ++ other :: after := by simp
              rw [split] at frame
              refine frame.ne_of_mem ?_
              simp only [List.mem_append, List.mem_cons] at mem ⊢
              tauto
            rw [frame.mem_removed memOther memA different]
            exact moving.listed_iff a (others a mem)
          · intro kept mem used
            have rest : kept ∈ before ++ after := by
              have different : kept ≠ other := by rintro rfl; simp [status] at used
              simpa [different] using mem
            exact result.2.2.2 kept rest (moving.unlisted mem used)

end Join

/-- The moving chunk arrives: once it is somewhere in the free list, its tail
gets its size. -/
theorem Moving.settle {free' : List Nat}
    (moving : Moving mpool low high memory before block after free)
    (separated : Separated (before ++ block :: after))
    (listed : Frame mpool low high memory' (before ++ block :: after) free')
    (same : SameOffLinks mpool (before ++ block :: after) memory memory')
    (added : ∀ node, node ∈ free' ↔ node = block.addr ∨ node ∈ free) :
    WellFormed mpool low high (FirstFit.cloneSizeToTail block.addr memory')
      (before ++ block :: after) free' := by
  have member : block ∈ before ++ block :: after := by simp
  have wordIs : word block = block.size := by simp [word, moving.unused]
  have header : memory' block.addr = word block :=
    (moving.toFrame.same_header same member).trans (moving.header.trans wordIs.symm)
  obtain ⟨frame, arrived, kept⟩ := listed.cloneSizeToTail member header
  have place : ∀ other ∈ before ++ block :: after,
      other = block ∨ other ∈ before ++ after := by
    intro other mem
    simp only [List.mem_append, List.mem_cons] at mem ⊢
    tauto
  refine { frame with settled := ?_, separated := separated, listed_iff := ?_ }
  · intro other mem
    rcases place other mem with rfl | rest
    · exact arrived
    · exact kept other mem (listed.ne_of_mem rest)
        (moving.toFrame.same_settled same mem (moving.settled other rest))
  · intro other mem
    rcases place other mem with rfl | rest
    · simp [added, moving.unused]
    · have apart : other.addr ≠ block.addr := fun sameAddr =>
        listed.ne_of_mem rest (frame.tiles.eq_of_addr member mem sameAddr)
      rw [added, or_iff_right apart]
      exact moving.listed_iff other rest

/-- The moving chunk is put in front of the free list and its tail gets its
size.  No chunk in use changes. -/
theorem Moving.arrive
    (moving : Moving mpool low high memory before block after free)
    (separated : Separated (before ++ block :: after)) :
    WellFormed mpool low high
        (cloneSizeToTail block.addr (ffsInsertChunk mpool block.addr memory))
        (before ++ block :: after) (block.addr :: free) ∧
      ∀ kept ∈ before ++ after, kept.used = true → SameWithin kept memory
        (cloneSizeToTail block.addr (ffsInsertChunk mpool block.addr memory)) := by
  have member : block ∈ before ++ block :: after := by simp
  obtain ⟨inserted, same⟩ := moving.toFrame.insert member moving.notListed
  have wordIs : word block = block.size := by simp [word, moving.unused]
  have header : ffsInsertChunk mpool block.addr memory block.addr = word block :=
    (moving.toFrame.same_header same member).trans (moving.header.trans wordIs.symm)
  refine ⟨moving.settle separated inserted same (by simp), fun other mem used => ?_⟩
  have memOther : other ∈ before ++ block :: after := by
    simp only [List.mem_append, List.mem_cons] at mem ⊢
    tauto
  have different := moving.toFrame.ne_of_mem mem
  exact (moving.toFrame.insert_within member memOther different
    (moving.unlisted mem used)).trans
      (inserted.cloneSizeToTail_within member header memOther different)

theorem ffsFree_eq {address chunk : Nat}
    (left : joinLeft mpool (sub32 address sizeT)
      (markFree (sub32 address sizeT) memory) = (chunk, memory')) :
    ffsFree mpool address memory = cloneSizeToTail chunk
      (ffsInsertChunk mpool chunk (joinRight mpool chunk memory')) := by
  simp only [ffsFree, left]

/-- `ffs_free` of a chunk in use releases it in the layout and changes no other
chunk in use. -/
theorem WellFormed.ffsFree
    (wellFormed : WellFormed mpool low high memory (before ++ block :: after) free)
    (used : block.used = true) :
    ∃ free', WellFormed mpool low high
        (FirstFit.ffsFree mpool (block.addr + sizeT) memory)
        (release before block after) free' ∧
      ∀ kept ∈ before ++ after, kept.used = true → SameWithin kept memory
        (FirstFit.ffsFree mpool (block.addr + sizeT) memory) := by
  have bounds := wellFormed.bounds (by simp : block ∈ before ++ block :: after)
  have size : sizeT = 4 := rfl
  have start : sub32 (block.addr + sizeT) sizeT = block.addr := by
    rw [sub32_of_le (by omega) (by omega), Nat.add_sub_cancel]
  obtain ⟨joined, freeLeft, resultLeft, left, sameLeft⟩ := (wellFormed.moving used).joinLeft
  obtain ⟨freeRight, addrRight, right, sameRight⟩ := left.joinRight
  have split := separated_split.mp wellFormed.separated
  have separated : Separated (release before block after) :=
    separated_release split.1 split.2.1
  obtain ⟨arrived, sameArrived⟩ := right.arrive separated
  have leftIs : FirstFit.joinLeft mpool (sub32 (block.addr + sizeT) sizeT)
      (markFree (sub32 (block.addr + sizeT) sizeT) memory) =
        ((joinBefore before ⟨block.addr, block.size, false⟩).2.addr, joined) := by
    rw [start]
    exact resultLeft
  rw [addrRight, ← ffsFree_eq leftIs] at arrived sameArrived
  refine ⟨_, arrived, fun kept mem keptUsed => ?_⟩
  have memBlock : block ∈ before ++ block :: after := by simp
  have memKept : kept ∈ before ++ block :: after := by
    rcases List.mem_append.mp mem with inBefore | inAfter
    · simp [inBefore]
    · simp [inAfter]
  -- used chunks stay in the layout through both joins
  have keptLeft : (kept ∈ (joinBefore before ⟨block.addr, block.size, false⟩).1 ↔
        kept ∈ before) ∧
      (joinBefore before ⟨block.addr, block.size, false⟩).2.used = false :=
    mem_joinBefore_used rfl keptUsed
  have memLeft : kept ∈ (joinBefore before ⟨block.addr, block.size, false⟩).1 ++ after := by
    rw [List.mem_append] at mem ⊢
    rwa [keptLeft.1]
  have memRight : kept ∈ (joinBefore before ⟨block.addr, block.size, false⟩).1 ++
      (joinAfter (joinBefore before ⟨block.addr, block.size, false⟩).2 after).2 := by
    rw [List.mem_append] at memLeft ⊢
    rwa [(mem_joinAfter_used keptLeft.2 keptUsed).1]
  have marked : SameWithin kept memory (markFree block.addr memory) :=
    wellFormed.toFrame.header_within memBlock memKept (wellFormed.toFrame.ne_of_mem mem) _
  exact marked.trans ((sameLeft kept mem keptUsed).trans
    ((sameRight kept memLeft keptUsed).trans (sameArrived kept memRight keptUsed)))

end Oseer.FirstFit
