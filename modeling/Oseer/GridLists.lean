import Oseer.GridPlaces
import Oseer.Library.ListStores

/-!
# The lists of the grid

Each list is rooted in the table; its first chunk has there, in the place of the chunk before
it, the address of the root with the low bit set.  The list routines are the stores of a doubly
linked list, and change nothing but link words.
-/

namespace Oseer.Grid

open WordMemory LinkedRing Bitmap SizeClasses

/-- The chunks in each list. -/
abbrev ChunkLists := Place → List Nat

namespace Pool

/-- The list at a place of the grid. -/
def listFormat (pool : Pool) (place : Place) : ListFormat where
  head := pool.table + sizeT * (slDim * place.1 + place.2)
  next := nextField
  prev := prevField
  tag := setBit0 (pool.table + sizeT * (slDim * place.1 + place.2))

/-- The memory holds the lists. -/
def Links (pool : Pool) (memory : Memory) (lists : ChunkLists) : Prop :=
  ∀ place, pool.InGrid place → (pool.listFormat place).Holds memory (lists place)

/-- Chunks are in lists of the grid, lie in the area and do not overlap. -/
structure Spread (pool : Pool) (lists : ChunkLists) : Prop where
  inGrid : ∀ place, ∀ node ∈ lists place, pool.InGrid place
  aligned : ∀ place, ∀ node ∈ lists place, 4 ∣ node
  inArea : ∀ place, ∀ node ∈ lists place, pool.low ≤ node ∧ node + 16 ≤ pool.high
  apart : ∀ place, ∀ node ∈ lists place, ∀ place', ∀ node' ∈ lists place',
    (node = node' ∧ place = place') ∨ node + 16 ≤ node' ∨ node' + 16 ≤ node

/-- The roots of the lists, and the link words of the chunks in them. -/
def LinkWord (pool : Pool) (lists : ChunkLists) (address : Nat) : Prop :=
  (∃ place, pool.InGrid place ∧ address = (pool.listFormat place).head) ∨
    ∃ place, ∃ node ∈ lists place, address = node + prevField ∨ address = node + nextField

variable {pool : Pool} {memory memory' : Memory} {lists : ChunkLists} {place place' : Place}
  {chunk node address : Nat} {before after nodes : List Nat}

section Roots

@[simp]
theorem listFormat_head : (pool.listFormat place).head =
    pool.table + sizeT * (slDim * place.1 + place.2) := rfl

@[simp]
theorem listFormat_next : (pool.listFormat place).next = nextField := rfl

@[simp]
theorem listFormat_prev : (pool.listFormat place).prev = prevField := rfl

theorem root_bounds (inGrid : pool.InGrid place) :
    pool.table ≤ (pool.listFormat place).head ∧ (pool.listFormat place).head + 4 ≤ pool.low := by
  obtain ⟨row, column⟩ := inGrid
  have below := pool.table_below
  have rows : slDim * place.1 + slDim ≤ slDim * pool.levels := by
    rw [← Nat.mul_succ]
    exact Nat.mul_le_mul_left _ row
  unfold levels at rows
  rw [listFormat_head]
  unfold sizeT at *
  omega

theorem root_aligned : 4 ∣ (pool.listFormat place).head :=
  Nat.dvd_add pool.table_aligned (Nat.dvd_mul_right ..)

theorem root_ne (inGrid : pool.InGrid place) (inGrid' : pool.InGrid place')
    (different : place' ≠ place) :
    (pool.listFormat place').head ≠ (pool.listFormat place).head := by
  obtain ⟨-, column⟩ := inGrid
  obtain ⟨-, column'⟩ := inGrid'
  rw [listFormat_head, listFormat_head]
  intro same
  apply different
  unfold sizeT slDim at *
  exact Prod.ext (by omega) (by omega)

theorem root_tag : (pool.listFormat place).tag = (pool.listFormat place).head + 1 := by
  have aligned := @root_aligned pool place
  change setBit0 (pool.listFormat place).head = _
  rw [setBit0_eq]
  omega

end Roots

section Apart

variable (spread : pool.Spread lists)

include spread

theorem Spread.apartFormat (inGrid : pool.InGrid place) :
    (pool.listFormat place).Apart (lists place) where
  slots := by
    have root := root_bounds inGrid
    have notRoot : ∀ node ∈ lists place, (pool.listFormat place).head ≠ node + nextField := by
      intro node mem
      have := spread.inArea place node mem
      omega
    intro a memA b memB different
    rcases List.mem_cons.mp memA with rfl | inA <;> rcases List.mem_cons.mp memB with rfl | inB
    · exact absurd rfl different
    · rw [ListFormat.slot_zero, ListFormat.slot_of_ne_zero _ different.symm]
      exact notRoot b inB
    · rw [ListFormat.slot_zero, ListFormat.slot_of_ne_zero _ different]
      exact (notRoot a inA).symm
    · have low := pool.table_below
      have areaA := spread.inArea place a inA
      have areaB := spread.inArea place b inB
      rw [ListFormat.slot_of_ne_zero _ (by omega), ListFormat.slot_of_ne_zero _ (by omega)]
      simp only [listFormat_next]
      omega
  prevs := by
    have root := root_bounds inGrid
    intro a memA b inB
    have areaB := spread.inArea place b inB
    rcases List.mem_cons.mp memA with rfl | inA
    · rw [ListFormat.slot_zero, listFormat_prev]
      omega
    · have areaA := spread.inArea place a inA
      have apart := spread.apart place a inA place b inB
      rw [ListFormat.slot_of_ne_zero _ (by omega), listFormat_next, listFormat_prev]
      unfold nextField prevField
      omega

/-- The words of another list are no words of this one. -/
theorem Spread.other (inGrid : pool.InGrid place) (inGrid' : pool.InGrid place')
    (different : place' ≠ place)
    (same : ∀ address, address ≠ (pool.listFormat place).head →
      (∀ node ∈ lists place, address ≠ node + prevField ∧ address ≠ node + nextField) →
      memory' address = memory address)
    (holds : (pool.listFormat place').Holds memory (lists place')) :
    (pool.listFormat place').Holds memory' (lists place') := by
  have root := root_bounds inGrid
  have root' := root_bounds inGrid'
  apply holds.congr
  · apply same _ (root_ne inGrid inGrid' different)
    intro node mem
    have := spread.inArea place node mem
    omega
  · intro node' mem'
    have area' := spread.inArea place' node' mem'
    rw [listFormat_next]
    apply same _ (by omega)
    intro node mem
    rcases spread.apart place' node' mem' place node mem with ⟨-, isPlace⟩ | apart
    · exact absurd isPlace different
    · unfold prevField nextField
      omega
  · intro node' mem'
    have area' := spread.inArea place' node' mem'
    rw [listFormat_prev]
    apply same _ (by omega)
    intro node mem
    rcases spread.apart place' node' mem' place node mem with ⟨-, isPlace⟩ | apart
    · exact absurd isPlace different
    · unfold prevField nextField
      omega

end Apart

section Routines

theorem even_and_one {word : Nat} (aligned : 4 ∣ word) : word &&& 1 = 0 ∧ (word + 1) &&& 1 ≠ 0 := by
  rw [Nat.and_one_is_mod, Nat.and_one_is_mod]
  omega

theorem clearBit0_tag (inGrid : pool.InGrid place) :
    clearBit0 ((pool.listFormat place).head + 1) = (pool.listFormat place).head := by
  have root := root_bounds inGrid
  have aligned := @root_aligned pool place
  have := pool.low_le
  have := pool.high_le
  rw [clearBit0_eq (by omega)]
  omega

/-- The stores of `remove_chunk_from_list`, and its result. -/
theorem Spread.removeChunkFromList_eq (spread : pool.Spread lists) (inGrid : pool.InGrid place)
    (holds : (pool.listFormat place).Holds memory (lists place))
    (shape : lists place = before ++ chunk :: after) :
    removeChunkFromList chunk memory =
      (if before ++ after = [] then 1 else 0,
        (pool.listFormat place).unlinkStores (lastOf 0 before) (headOf 0 after) memory) := by
  rw [shape] at holds
  have next : memory (chunk + nextField) = headOf 0 after := holds.next
  have prev := holds.prev
  have first : headOf 0 after = 0 ↔ after = [] := by
    cases after with
    | nil => simp
    | cons node rest =>
        have nonzero : node ≠ 0 := holds.ne_zero (by simp)
        simpa using nonzero
  rw [listFormat_prev] at prev
  unfold removeChunkFromList ListFormat.unlinkStores
  dsimp only
  cases before using List.reverseRecOn with
  | nil =>
      rw [lastOf_nil, ListFormat.nameOf_zero, root_tag] at prev
      have flagged : isChunkFirstInList chunk memory := by
        unfold isChunkFirstInList
        rw [prev]
        exact (even_and_one root_aligned).2
      unfold getChunkPrev
      rw [if_pos flagged, prev, clearBit0_tag inGrid, next, write_same, lastOf_nil,
        ListFormat.slot_zero]
      by_cases isLast : headOf 0 after = 0
      · rw [if_neg (not_not.mpr isLast), if_neg (not_not.mpr isLast),
          if_pos (by simpa using first.mp isLast)]
      · rw [if_pos isLast, if_pos isLast, if_neg (by simpa using mt first.mpr isLast),
          ListFormat.nameOf_zero, listFormat_prev]
        unfold setChunkFirstInList
        rw [write_same]
        congr 1
        exact Function.update_idem ..
  | append_singleton init last _ =>
      have lastMem : last ∈ lists place := by simp [shape]
      have chunkMem : chunk ∈ lists place := by simp [shape]
      have lastNonzero : last ≠ 0 := holds.ne_zero (by simp)
      have different : last ≠ chunk := by
        have nodup := (List.nodup_cons.mp holds.nodup).2
        rintro rfl
        exact List.disjoint_of_nodup_append nodup (List.mem_append_right init
          (List.mem_singleton_self last)) (List.mem_cons_self ..)
      have notEmpty : ¬ init ++ [last] ++ after = [] := by simp
      rw [lastOf_concat, ListFormat.nameOf_of_ne_zero _ lastNonzero] at prev
      have plain : ¬ isChunkFirstInList chunk memory := by
        unfold isChunkFirstInList
        rw [prev, not_not]
        exact (even_and_one (spread.aligned place last lastMem)).1
      have apart := spread.apart place last lastMem place chunk chunkMem
      have nextKept : memory.write (last + nextField) (headOf 0 after) (chunk + nextField) =
          headOf 0 after := by
        rw [write_other (by omega), next]
      have prevKept : memory.write (last + nextField) (headOf 0 after) (chunk + prevField) =
          last := by
        rw [write_other (by unfold nextField prevField; omega), prev]
      rw [if_neg plain, prev, next, nextKept, prevKept, lastOf_concat,
        ListFormat.slot_of_ne_zero _ lastNonzero, if_neg notEmpty,
        ListFormat.nameOf_of_ne_zero _ lastNonzero, listFormat_next, listFormat_prev]
      split <;> rfl

theorem Spread.linkChunk_eq (holds : (pool.listFormat place).Holds memory (lists place))
    (notNext : (pool.listFormat place).head ≠ chunk + nextField) :
    linkChunk (pool.listFormat place).head chunk memory =
      (pool.listFormat place).pushStores chunk (headOf 0 (lists place)) memory := by
  have head := holds.head
  unfold linkChunk ListFormat.pushStores setChunkFirstInList
  dsimp only
  rw [write_other notNext, head, write_same]
  exact Function.update_idem ..

end Routines

section Unlink

/-- A removal keeps the other lists and takes the chunk out of its own. -/
theorem Links.unlink (links : pool.Links memory lists) (spread : pool.Spread lists)
    (inGrid : pool.InGrid place) (shape : lists place = before ++ chunk :: after) :
    pool.Links ((pool.listFormat place).unlinkStores (lastOf 0 before) (headOf 0 after) memory)
        (Function.update lists place (before ++ after)) ∧
      ∀ address, ¬ pool.LinkWord lists address →
        (pool.listFormat place).unlinkStores (lastOf 0 before) (headOf 0 after) memory address =
          memory address := by
  have holds := links place inGrid
  rw [shape] at holds
  have apart := spread.apartFormat inGrid
  rw [shape] at apart
  have lastMem : lastOf 0 before ≠ 0 → lastOf 0 before ∈ lists place := by
    intro nonzero
    rw [shape]
    have := (List.mem_cons.mp (lastOf_mem : lastOf 0 before ∈ 0 :: before)).resolve_left nonzero
    simp [this]
  have firstMem : headOf 0 after ≠ 0 → headOf 0 after ∈ lists place := by
    intro nonzero
    rw [shape]
    have := (List.mem_cons.mp (headOf_mem : headOf 0 after ∈ 0 :: after)).resolve_left nonzero
    simp [this]
  have same : ∀ address, address ≠ (pool.listFormat place).head →
      (∀ node ∈ lists place, address ≠ node + prevField ∧ address ≠ node + nextField) →
      (pool.listFormat place).unlinkStores (lastOf 0 before) (headOf 0 after) memory address =
        memory address := by
    intro address notHead notLink
    rw [ListFormat.unlinkStores_apply, if_neg, if_neg]
    · by_cases isFirst : lastOf 0 before = 0
      · rw [isFirst, ListFormat.slot_zero]
        exact notHead
      · rw [ListFormat.slot_of_ne_zero _ isFirst]
        exact (notLink _ (lastMem isFirst)).2
    · rintro ⟨nonzero, clash⟩
      exact (notLink _ (firstMem nonzero)).1 clash
  constructor
  · intro place' inGrid'
    by_cases isPlace : place' = place
    · rw [isPlace, Function.update_self]
      exact holds.unlinkStores apart
    · rw [Function.update_of_ne isPlace]
      exact spread.other inGrid inGrid' isPlace same (links place' inGrid')
  · intro address notLink
    apply same
    · exact fun isHead => notLink (.inl ⟨place, inGrid, isHead⟩)
    · intro node mem
      constructor
      · exact fun isPrev => notLink (.inr ⟨place, node, mem, .inl isPrev⟩)
      · exact fun isNext => notLink (.inr ⟨place, node, mem, .inr isNext⟩)

/-- An insertion keeps the other lists and puts the chunk in front of its own. -/
theorem Links.push (links : pool.Links memory lists) (inGrid : pool.InGrid place)
    (spread : pool.Spread (Function.update lists place (chunk :: lists place)))
    (fresh : chunk ∉ lists place) :
    pool.Links ((pool.listFormat place).pushStores chunk (headOf 0 (lists place)) memory)
        (Function.update lists place (chunk :: lists place)) ∧
      ∀ address, ¬ pool.LinkWord (Function.update lists place (chunk :: lists place)) address →
        (pool.listFormat place).pushStores chunk (headOf 0 (lists place)) memory address =
          memory address := by
  have holds := links place inGrid
  have apart := spread.apartFormat inGrid
  rw [Function.update_self] at apart
  have mem : ∀ node, node ∈ chunk :: lists place →
      node ∈ Function.update lists place (chunk :: lists place) place := by
    intro node isNode
    rwa [Function.update_self]
  have chunkArea := spread.inArea place chunk (mem chunk (by simp))
  have firstMem : headOf 0 (lists place) ≠ 0 → headOf 0 (lists place) ∈ chunk :: lists place := by
    intro nonzero
    exact .tail _ ((List.mem_cons.mp headOf_mem).resolve_left nonzero)
  have same : ∀ address, address ≠ (pool.listFormat place).head →
      (∀ node ∈ chunk :: lists place, address ≠ node + prevField ∧ address ≠ node + nextField) →
      (pool.listFormat place).pushStores chunk (headOf 0 (lists place)) memory address =
        memory address := by
    intro address notHead notLink
    have own := notLink chunk (by simp)
    rw [ListFormat.pushStores_apply, listFormat_prev, listFormat_next, if_neg own.1,
      if_neg notHead, if_neg, if_neg own.2]
    rintro ⟨nonzero, clash⟩
    exact (notLink _ (firstMem nonzero)).1 clash
  constructor
  · intro place' inGrid'
    by_cases isPlace : place' = place
    · rw [isPlace, Function.update_self]
      have positive := @low_pos pool
      apply holds.pushStores (by omega) fresh apart
      rw [listFormat_next, listFormat_prev]
      unfold nextField prevField
      omega
    · rw [← @Function.update_self _ _ _ place (chunk :: lists place) lists] at same
      apply spread.other inGrid inGrid' isPlace same
      rw [Function.update_of_ne isPlace]
      exact links place' inGrid'
  · intro address notLink
    apply same
    · exact fun isHead => notLink (.inl ⟨place, inGrid, isHead⟩)
    · intro node isNode
      constructor
      · exact fun isPrev => notLink (.inr ⟨place, node, mem node isNode, .inl isPrev⟩)
      · exact fun isNext => notLink (.inr ⟨place, node, mem node isNode, .inr isNext⟩)

end Unlink

end Pool

end Oseer.Grid
