import Oseer.FirstFitClient

/-!
# Requests of any size

`ffs_alloc` adds the size of the header words to a request and rounds it up, both modulo
`2 ^ 32`.  Here the size is any 32-bit number: the sizes for which the sum wraps are answered
with a block that is too small, or with no block at all.
-/

namespace Oseer.FirstFit

open WordMemory LinkedRing Tiling

variable {mpool low high size size' : Nat} {memory memory' : Memory} {blocks : List Block}
  {block : Block} {free : List Nat}

section Wrap

/-- The header words wrap, or rounding up does. -/
theorem requestSize_wraps (word : size < 2 ^ 32) (wraps : 2 ^ 32 ≤ size + 11) :
    requestSize size = 0 ∨ requestSize size = requestSize 0 := by
  have sum : add32 size (sizeT * 2) = (size + 8) % 2 ^ 32 := rfl
  have least : requestSize 0 = headerSize := by decide
  rw [least]
  unfold requestSize
  dsimp only
  rw [sum]
  split_ifs with small
  · right
    decide
  · left
    have up : add32 ((size + 8) % 2 ^ 32) 3 < 4 := by
      unfold add32 headerSize at *
      omega
    unfold alignUp
    rw [alignDown_eq (up.trans (by decide)), Nat.div_eq_of_lt up, Nat.zero_mul]

theorem ffsAlloc_congr (same : requestSize size = requestSize size') :
    ffsAlloc mpool size memory = ffsAlloc mpool size' memory := by
  unfold ffsAlloc
  rw [same]

/-- A search for a size that all free chunks have finds one of them. -/
theorem WellFormed.ffsSearch_any (wellFormed : WellFormed mpool low high memory blocks free)
    (small : size ≤ headerSize) (listed : free ≠ []) :
    ∃ block ∈ blocks, block.used = false ∧ memory block.addr = block.size ∧
      ffsSearch memory size addressWords (memory mpool) = some block.addr := by
  obtain ⟨iter, search, first⟩ :
      ∃ iter, ffsSearch memory size addressWords (memory mpool) = some iter ∧
        FirstLarge memory size free iter :=
    wellFormed.toFrame.ffsSearch_eq
  have header : ∀ node ∈ free, ∃ block ∈ blocks, block.addr = node ∧ block.used = false ∧
      memory block.addr = block.size := by
    intro node mem
    obtain ⟨block, memBlock, rfl⟩ := wellFormed.listed node mem
    have unused := (wellFormed.listed_iff block memBlock).mp mem
    refine ⟨block, memBlock, rfl, unused, ?_⟩
    simpa [word, unused] using (wellFormed.settled block memBlock).header
  cases first with
  | none tooSmall =>
      obtain ⟨node, mem⟩ := List.exists_mem_of_ne_nil free listed
      obtain ⟨block, memBlock, rfl, -, isSize⟩ := header node mem
      have legal := (wellFormed.legal block memBlock).2
      have less := tooSmall _ mem
      omega
  | @found front back _ _ large =>
      obtain ⟨block, memBlock, rfl, unused, isSize⟩ := header iter (by simp)
      exact ⟨block, memBlock, unused, isSize, search⟩

/-- For the size zero the chunk behind a free one is handed out. -/
theorem WellFormed.ffsAlloc_behind (wellFormed : WellFormed mpool low high memory blocks free)
    (zero : requestSize size = 0) (listed : free ≠ []) :
    ∃ block ∈ blocks, FirstFit.ffsAlloc mpool size memory = some (block.limit + sizeT,
      (memory.write block.limit 1).write (block.limit - sizeT) 1) := by
  obtain ⟨block, mem, unused, isSize, search⟩ :=
    wellFormed.ffsSearch_any (Nat.zero_le headerSize) listed
  rw [← zero] at search
  refine ⟨block, mem, ?_⟩
  have bounds := wellFormed.bounds mem
  have settled := wellFormed.settled block mem
  have poolPos := wellFormed.pool_pos
  have size4 : sizeT = 4 := rfl
  have limit : block.limit = block.addr + block.size := rfl
  have after : getAfter block.addr memory = block.limit :=
    wellFormed.getAfter_eq mem settled.header
  have sameWord : sub32 (memory block.addr) 0 = memory block.addr := by
    rw [isSize, sub32_of_le (by omega) (Nat.zero_le _), Nat.sub_zero]
  have sameHeader : memory.write block.addr (memory block.addr) = memory :=
    Function.update_eq_self block.addr memory
  have sameTail : cloneSizeToTail block.addr memory = memory := by
    unfold cloneSizeToTail
    rw [wellFormed.getTail_eq mem settled.header, settled.header, ← settled.tail]
    exact Function.update_eq_self _ memory
  -- the chunk found is cut at its end, where a chunk of size zero begins
  have cut : cutStores block.addr 0 memory = (block.limit, memory.write block.limit 0) := by
    unfold cutStores
    simp only [sameWord, sameHeader, sameTail, after]
  have marked : markStores block.limit (memory.write block.limit 0) =
      (memory.write block.limit 1).write (block.limit - sizeT) 1 := by
    have header : markUsed block.limit (memory.write block.limit 0) =
        memory.write block.limit 1 := by
      unfold markUsed Memory.write
      rw [Function.update_self, Function.update_idem]
      rfl
    have noSize : clearBit0 1 = 0 := by decide
    unfold markStores cloneSizeToTail getTail getAfter getSize
    rw [header, write_same, noSize, add32_of_lt (by omega), Nat.add_zero,
      sub32_of_le (by omega) (by omega)]
  have result := ffsAlloc_eq search
  rw [if_neg (by omega), zero, isSize, if_pos (by
    rw [add32_of_lt (by decide)]
    exact (Nat.zero_add _).trans_le (wellFormed.legal block mem).2), cut] at result
  dsimp only at result
  rw [marked, add32_of_lt (by omega)] at result
  exact result

end Wrap

section Answers

/-- What a request is to come to: null and no change, or a new block of at least the size in a
pool that is still well formed. -/
def Answers (mpool low high : Nat) (blocks : List Block) (size : Nat) (memory : Memory)
    (answer : Nat × Memory) : Prop :=
  answer = (0, memory) ∨ ∃ taken blocks' free', answer.1 = taken.addr + sizeT ∧
    size ≤ taken.size - 2 * sizeT ∧ Grants blocks taken blocks' ∧
    WellFormed mpool low high answer.2 blocks' free'

theorem Answers.null_of_wraps {answer : Nat × Memory} (word : size < 2 ^ 32)
    (wraps : 2 ^ 32 ≤ size + 11) (answers : Answers mpool low high blocks size memory answer) :
    answer = (0, memory) := by
  rcases answers with null | ⟨taken, blocks', free', -, room, grants, wellFormed⟩
  · exact null
  · have mem : taken ∈ blocks' := (grants.used_iff taken grants.used).mpr (.inl rfl)
    have bounds := wellFormed.bounds mem
    have size4 : sizeT = 4 := rfl
    omega

theorem WellFormed.getSize_le (wellFormed : WellFormed mpool low high memory blocks free)
    (mem : block ∈ blocks) : getSize block.addr memory + 12 ≤ high := by
  have bounds := wellFormed.bounds mem
  have poolPos := wellFormed.pool_pos
  have poolAligned := wellFormed.pool_aligned
  rw [wellFormed.getSize_eq mem]
  omega

/-- Where the size wraps and there is a free chunk, a block is handed out. -/
theorem WellFormed.ffsAlloc_wraps (wellFormed : WellFormed mpool low high memory blocks free)
    (word : size < 2 ^ 32) (wraps : 2 ^ 32 ≤ size + 11) (listed : free ≠ []) :
    ∃ pointer memory', FirstFit.ffsAlloc mpool size memory = some (pointer, memory') ∧
      pointer ≠ 0 ∧ getSize (pointer - sizeT) memory' + 12 ≤ high := by
  rcases requestSize_wraps word wraps with zero | least
  · obtain ⟨block, mem, result⟩ := wellFormed.ffsAlloc_behind zero listed
    have bounds := wellFormed.bounds mem
    have limit : block.limit = block.addr + block.size := rfl
    have header : getSize block.limit
        ((memory.write block.limit 1).write (block.limit - sizeT) 1) = 0 := by
      unfold getSize
      rw [write_other (by unfold sizeT; omega), write_same]
      decide
    refine ⟨_, _, result, by unfold sizeT; omega, ?_⟩
    rw [Nat.add_sub_cancel, header]
    omega
  · have zeroFits : 0 + 11 < 2 ^ 32 := by decide
    rw [ffsAlloc_congr least]
    rcases wellFormed.ffsAlloc zeroFits with ⟨-, tooSmall⟩ |
      ⟨taken, memory', blocks', free', result, -, grants, wellFormed', -⟩
    · obtain ⟨node, mem⟩ := List.exists_mem_of_ne_nil free listed
      obtain ⟨block, memBlock, rfl⟩ := wellFormed.listed node mem
      have unused := (wellFormed.listed_iff block memBlock).mp mem
      have less := tooSmall block memBlock unused
      have legal := (wellFormed.legal block memBlock).2
      have isLeast : requestSize 0 = headerSize := by decide
      omega
    · have mem : taken ∈ blocks' := (grants.used_iff taken grants.used).mpr (.inl rfl)
      refine ⟨_, _, result, by unfold sizeT; omega, ?_⟩
      rw [Nat.add_sub_cancel]
      exact wellFormed'.getSize_le mem

theorem WellFormed.ffsAlloc_null (wellFormed : WellFormed mpool low high memory blocks free)
    (small : ∀ chunk ∈ free, memory chunk < requestSize size) :
    FirstFit.ffsAlloc mpool size memory = some (0, memory) := by
  obtain ⟨iter, search, first⟩ :
      ∃ iter, ffsSearch memory (requestSize size) addressWords (memory mpool) = some iter ∧
        FirstLarge memory (requestSize size) free iter :=
    wellFormed.toFrame.ffsSearch_eq
  have result := ffsAlloc_eq search
  cases first with
  | none _ => exact result
  | found _ large => exact absurd (small iter (by simp)) (by omega)

/-- A block is handed out if a free chunk is large enough. -/
theorem WellFormed.ffsAlloc_some {chunk : Nat}
    (wellFormed : WellFormed mpool low high memory blocks free) (isWord : size < 2 ^ 32)
    (mem : chunk ∈ free) (large : requestSize size ≤ memory chunk) :
    ∃ pointer memory', FirstFit.ffsAlloc mpool size memory = some (pointer, memory') ∧
      pointer ≠ 0 ∧ getSize (pointer - sizeT) memory' + 12 ≤ high := by
  by_cases fits : size + 11 < 2 ^ 32
  · rcases wellFormed.ffsAlloc fits with ⟨-, small⟩ |
      ⟨taken, memory', blocks', free', result, -, grants, wellFormed', -⟩
    · obtain ⟨block, memBlock, rfl⟩ := wellFormed.listed chunk mem
      have unused := (wellFormed.listed_iff block memBlock).mp mem
      have header := (wellFormed.settled block memBlock).header
      simp only [word, unused, Bool.toNat_false, Nat.add_zero] at header
      exact absurd (small block memBlock unused) (by omega)
    · have memTaken : taken ∈ blocks' := (grants.used_iff taken grants.used).mpr (.inl rfl)
      refine ⟨_, _, result, by unfold sizeT; omega, ?_⟩
      rw [Nat.add_sub_cancel]
      exact wellFormed'.getSize_le memTaken
  · exact wellFormed.ffsAlloc_wraps isWord (by omega) (List.ne_nil_of_mem mem)

/-- `ffs_alloc` answers a request as it should iff the size leaves room for the header words
and for rounding up, or the pool has no free chunk at all. -/
theorem request_answered_iff (wellFormed : WellFormed mpool low high memory blocks free)
    (word : size < 2 ^ 32) :
    (∃ answer, ffsAlloc mpool size memory = some answer ∧
      Answers mpool low high blocks size memory answer) ↔
        size + 11 < 2 ^ 32 ∨ memory mpool = 0 := by
  have head : memory mpool = headOf 0 free := wellFormed.list.head
  constructor
  · rintro ⟨answer, result, answers⟩
    by_contra wrong
    rw [not_or, head] at wrong
    have listed : free ≠ [] := by
      rintro rfl
      exact wrong.2 rfl
    obtain ⟨pointer, memory', result', nonzero, -⟩ :=
      wellFormed.ffsAlloc_wraps word (by omega) listed
    obtain rfl := answers.null_of_wraps word (by omega)
    rw [result'] at result
    exact nonzero (congrArg Prod.fst (Option.some.inj result))
  · rintro (fits | empty)
    · rcases wellFormed.ffsAlloc fits with ⟨null, -⟩ |
        ⟨taken, memory', blocks', free', result, large, grants, wellFormed', -⟩
      · exact ⟨_, null, .inl rfl⟩
      · have room := (requestSize_spec fits).2.2.1
        have size4 : sizeT = 4 := rfl
        exact ⟨_, result, .inr ⟨taken, blocks', free', rfl, by omega, grants, wellFormed'⟩⟩
    · have search : ffsSearch memory (requestSize size) addressWords (memory mpool) = some 0 := by
        rw [empty]
        rfl
      exact ⟨_, ffsAlloc_eq search, .inl rfl⟩

theorem small_pool : ∃ built, ffsInit 4096 1024 (fun _ => 0) = some (4096, built) ∧
    WellFormed 4096 4100 (highBorder 4096 1024) built
      [⟨4104, highBorder 4096 1024 - 4104, false⟩] [4104] := by
  obtain ⟨built, init⟩ : ∃ built, ffsInit 4096 1024 (fun _ => 0) = some (4096, built) :=
    ⟨_, rfl⟩
  exact ⟨built, init, ffsInit_wellFormed (by decide) init (by decide)⟩

/-- A request for 100 bytes. -/
theorem request_answered_iff_sample : ∃ built blocks,
    ffsInit 4096 1024 (fun _ => 0) = some (4096, built) ∧
    ((∃ answer, ffsAlloc 4096 100 built = some answer ∧
      Answers 4096 4100 (highBorder 4096 1024) blocks 100 built answer) ↔
        100 + 11 < 2 ^ 32 ∨ built 4096 = 0) := by
  obtain ⟨built, init, wellFormed⟩ := small_pool
  exact ⟨built, _, init, request_answered_iff wellFormed (by decide)⟩

/-- A request for 11 bytes less than 4 GiB. -/
theorem request_answered_iff_fail : ∃ built blocks free,
    ffsInit 4096 1024 (fun _ => 0) = some (4096, built) ∧
    WellFormed 4096 4100 (highBorder 4096 1024) built blocks free ∧
    ¬ ∃ answer, ffsAlloc 4096 4294967285 built = some answer ∧
      Answers 4096 4100 (highBorder 4096 1024) blocks 4294967285 built answer := by
  obtain ⟨built, init, wellFormed⟩ := small_pool
  refine ⟨built, _, _, init, wellFormed, ?_⟩
  rintro ⟨answer, result, answers⟩
  obtain ⟨pointer, memory', result', nonzero, -⟩ :=
    wellFormed.ffsAlloc_wraps (by decide : 4294967285 < 2 ^ 32) (by decide) (List.cons_ne_nil _ _)
  obtain rfl := answers.null_of_wraps (by decide) (by decide)
  rw [result'] at result
  exact nonzero (congrArg Prod.fst (Option.some.inj result))

end Answers

end Oseer.FirstFit
