import Mathlib.Data.List.Perm.Subperm
import Oseer.BestFit

/-!
# The insertion sort of the best-fit free list

`sort` moves one chunk after the other back over the larger ones before it.
The list stays a well-formed list of the same chunks, no word other than links
changes, and at the end the sizes ascend, with chunks of one size in the order
that they had before.
-/

namespace Oseer

open WordMemory FirstFit BestFit LinkedRing Tiling

variable {mpool low high fuel ptr next n : Nat} {memory memory' memory'' : Memory}
  {blocks : List Block} {nodes nodes' free front back kept passed : List Nat}

/-- Every chunk of the list is at most as large as those behind it. -/
def BestFit.Ascending (memory : Memory) (free : List Nat) : Prop :=
  free.Pairwise fun left right => memory left ≤ memory right

theorem BestFit.Ascending.congr (ascending : Ascending memory free)
    (same : ∀ chunk ∈ free, memory' chunk = memory chunk) : Ascending memory' free := by
  refine List.Pairwise.imp_of_mem (fun {left right} memLeft memRight le => ?_) ascending
  rwa [same left memLeft, same right memRight]

/-- The chunks of each size are the same, in the same order. -/
def BestFit.SameOrder (memory : Memory) (free free' : List Nat) : Prop :=
  ∀ size, free'.filter (fun chunk => memory chunk = size) =
    free.filter fun chunk => memory chunk = size

/-- The headers of the chunks overlap neither each other nor the descriptor of the pool. -/
structure BestFit.Spread (mpool : Nat) (nodes : List Nat) : Prop where
  nonzero : ∀ a ∈ nodes, a ≠ 0
  apart : ∀ a ∈ nodes, ∀ b ∈ nodes, a = b ∨ a + 12 ≤ b ∨ b + 12 ≤ a
  pool : ∀ a ∈ nodes, mpool + 4 ≤ a ∨ a + 12 ≤ mpool
  fits : ∀ a ∈ nodes, a + 12 ≤ 2 ^ 32

/-- A well-formed free list. -/
structure BestFit.FreeList (mpool : Nat) (memory : Memory) (free : List Nat) : Prop where
  list : (freeFormat mpool).Holds memory free
  spread : Spread mpool free

/-- Two memories agree outside of the links of a list. -/
def BestFit.SameOffList (mpool : Nat) (nodes : List Nat) (memory memory' : Memory) : Prop :=
  ∀ address, address ≠ mpool →
    (∀ a ∈ nodes, address ≠ a + prevField ∧ address ≠ a + nextField) →
    memory' address = memory address

theorem FirstFit.SameOffLinks.refl : SameOffLinks mpool blocks memory memory := fun _ _ _ => rfl

theorem FirstFit.SameOffLinks.trans (first : SameOffLinks mpool blocks memory memory')
    (second : SameOffLinks mpool blocks memory' memory'') :
    SameOffLinks mpool blocks memory memory'' :=
  fun address notPool notLink =>
    (second address notPool notLink).trans (first address notPool notLink)

namespace BestFit

section Spread

theorem SameOffList.trans (first : SameOffList mpool nodes memory memory')
    (second : SameOffList mpool nodes memory' memory'') :
    SameOffList mpool nodes memory memory'' :=
  fun address notPool notLink =>
    (second address notPool notLink).trans (first address notPool notLink)

theorem SameOffList.mono (same : SameOffList mpool nodes' memory memory')
    (inside : ∀ a ∈ nodes', a ∈ nodes) : SameOffList mpool nodes memory memory' :=
  fun address notPool notLink => same address notPool fun a mem => notLink a (inside a mem)

theorem Spread.mono (spread : Spread mpool nodes) (inside : ∀ a ∈ nodes', a ∈ nodes) :
    Spread mpool nodes' where
  nonzero a mem := spread.nonzero a (inside a mem)
  apart a mem b mem' := spread.apart a (inside a mem) b (inside b mem')
  pool a mem := spread.pool a (inside a mem)
  fits a mem := spread.fits a (inside a mem)

/-- Slots of different entries are different words, and no slot is the size or the `prev` word of
a node. -/
theorem Spread.slot_ne (spread : Spread mpool nodes) {a b : Nat} (memA : a ∈ 0 :: nodes)
    (memB : b ∈ 0 :: nodes) :
    (a ≠ b → (freeFormat mpool).slot a ≠ (freeFormat mpool).slot b) ∧
    (b ≠ 0 → (freeFormat mpool).slot a ≠ b + prevField ∧ (freeFormat mpool).slot a ≠ b) := by
  simp only [freeFormat_slot, nextField, prevField]
  rcases List.mem_cons.mp memA with rfl | inA <;> rcases List.mem_cons.mp memB with rfl | inB
  · simp
  · have pool := spread.pool b inB
    split_ifs <;> omega
  · have pool := spread.pool a inA
    split_ifs <;> omega
  · have apart := spread.apart a inA b inB
    rw [if_neg (spread.nonzero a inA), if_neg (spread.nonzero b inB)]
    omega

/-- The sizes of the chunks stay where the links change. -/
theorem SameOffList.size (same : SameOffList mpool nodes memory memory')
    (spread : Spread mpool nodes) {chunk : Nat} (mem : chunk ∈ nodes) :
    memory' chunk = memory chunk := by
  have pool := spread.pool chunk mem
  apply same chunk (by omega)
  intro a memA
  have apart := spread.apart a memA chunk mem
  simp only [prevField, nextField]
  omega

/-- There are no more chunks than words in the address space. -/
theorem FreeList.length_lt (freeList : FreeList mpool memory free) :
    free.length < addressWords := by
  have nodup : (free.map (· / 12)).Nodup := by
    apply List.Nodup.map_on ?_ (List.nodup_cons.mp freeList.list.nodup).2
    intro a memA b memB same
    have apart := freeList.spread.apart a memA b memB
    omega
  have inside : free.map (· / 12) ⊆ List.range (2 ^ 32 / 12) := by
    intro place mem
    obtain ⟨a, inList, rfl⟩ := List.mem_map.mp mem
    have fits := freeList.spread.fits a inList
    rw [List.mem_range]
    omega
  have short := (nodup.subperm inside).length_le
  rw [List.length_map, List.length_range] at short
  exact short.trans_lt (by decide)

end Spread

end BestFit

namespace BestFit

section Move

/-- The inner loop stops behind the last chunk that is not larger. -/
theorem sortBack_eq (size : Nat) (list : (freeFormat mpool).Holds memory (front ++ back))
    (enough : front.length < fuel) :
    ∃ kept passed, front = kept ++ passed ∧
      sortBack memory size fuel (lastOf 0 front) n =
        some (lastOf 0 kept, n + passed.length) ∧
      (∀ chunk ∈ passed, size < memory chunk) ∧
      ∀ chunk ∈ kept.getLast?, memory chunk ≤ size := by
  induction front using List.reverseRecOn generalizing back fuel n with
  | nil =>
      obtain ⟨fuel, rfl⟩ := Nat.exists_eq_add_of_lt enough
      exact ⟨[], [], by simp [sortBack]⟩
  | append_singleton front chunk ih =>
      obtain ⟨fuel, rfl⟩ : ∃ rest, fuel = rest + 1 :=
        ⟨fuel - 1, by simp only [List.length_append] at enough; omega⟩
      rw [List.append_assoc, List.singleton_append] at list
      have nonzero : chunk ≠ 0 := list.ne_zero (by simp)
      have prev : memory (chunk + prevField) = lastOf 0 front := by simpa using list.prev
      by_cases larger : size < memory chunk
      · obtain ⟨kept, passed, split, found, large, last⟩ :=
          ih (n := n + 1) list (show front.length < fuel by simpa using enough)
        refine ⟨kept, passed ++ [chunk], by simp [split], ?_, ?_, last⟩
        · rw [lastOf_concat, sortBack, if_pos ⟨nonzero, larger⟩, prev, found]
          simp only [List.length_append, List.length_singleton]
          congr 2
          omega
        · simpa [or_imp, forall_and, larger] using large
      · refine ⟨front ++ [chunk], [], by simp, ?_, by simp, by simpa using larger⟩
        rw [lastOf_concat, sortBack, if_neg (by simp [larger])]
        simp

/-- What `sort` stores to take a chunk out from behind another one. -/
theorem FreeList.takeOut_apply (freeList : FreeList mpool memory (front ++ ptr :: back))
    (behind : lastOf 0 front ≠ 0) (address : Nat) :
    takeOut ptr memory address =
      if headOf 0 back ≠ 0 ∧ address = headOf 0 back + prevField then lastOf 0 front
      else if address = lastOf 0 front + nextField then headOf 0 back
      else memory address := by
  have list := freeList.list
  have next : memory (ptr + nextField) = headOf 0 back := list.next
  have prev : memory (ptr + prevField) = lastOf 0 front := by simpa using list.prev
  have lastMem : lastOf 0 front ∈ front :=
    (List.mem_cons.mp (lastOf_mem : lastOf 0 front ∈ 0 :: front)).resolve_left behind
  have notPtr : lastOf 0 front ≠ ptr := by
    rintro rfl
    have nodup := (List.nodup_cons.mp list.nodup).2
    exact (List.nodup_append.mp nodup).2.2 _ lastMem _ List.mem_cons_self rfl
  have apart := freeList.spread.apart _ (List.mem_append_left _ lastMem) ptr (by simp)
  have prevIs : prevField = 4 := rfl
  have nextIs : nextField = 8 := rfl
  have nextKept : memory.write (lastOf 0 front + nextField) (headOf 0 back) (ptr + nextField) =
      headOf 0 back := by rw [write_other (by omega), next]
  have prevKept : memory.write (lastOf 0 front + nextField) (headOf 0 back) (ptr + prevField) =
      lastOf 0 front := by rw [write_other (by omega), prev]
  simp only [takeOut, next, prev, nextKept, prevKept]
  by_cases isEnd : headOf 0 back = 0
  · simp [isEnd, write_apply]
  · have hasNext : headOf 0 back ≠ 0 := isEnd
    rw [if_pos hasNext, write_apply, write_apply]
    by_cases isPrev : address = headOf 0 back + prevField
    · rw [if_pos isPrev, if_pos ⟨hasNext, isPrev⟩]
    · have notBoth : ¬ (headOf 0 back ≠ 0 ∧ address = headOf 0 back + prevField) :=
        fun both => isPrev both.2
      rw [if_neg isPrev, if_neg notBoth]

theorem FreeList.takeOut (freeList : FreeList mpool memory (front ++ ptr :: back))
    (behind : lastOf 0 front ≠ 0) :
    FreeList mpool (takeOut ptr memory) (front ++ back) ∧
      SameOffList mpool (front ++ ptr :: back) memory (BestFit.takeOut ptr memory) := by
  have value := freeList.takeOut_apply behind
  have spread := freeList.spread
  have inside : ∀ a ∈ front ++ back, a ∈ front ++ ptr :: back := by
    simp only [List.mem_cons, List.mem_append]
    tauto
  have members : ∀ a ∈ 0 :: (front ++ back), a ∈ 0 :: (front ++ ptr :: back) := fun a mem =>
    List.mem_cons.mpr ((List.mem_cons.mp mem).imp id (inside a))
  have lastMem : lastOf 0 front ∈ front ++ ptr :: back := List.mem_append_left _
    ((List.mem_cons.mp (lastOf_mem : lastOf 0 front ∈ 0 :: front)).resolve_left behind)
  have nextMem : headOf 0 back ∈ 0 :: (front ++ ptr :: back) := members _ (List.mem_cons.mpr
    ((List.mem_cons.mp (headOf_mem : headOf 0 back ∈ 0 :: back)).imp id
      (List.mem_append_right front)))
  have lastSlot : (freeFormat mpool).slot (lastOf 0 front) = lastOf 0 front + nextField :=
    if_neg behind
  refine ⟨⟨freeList.list.unlink ?_ ?_ ?_ ?_, spread.mono inside⟩, ?_⟩
  · have notPrev := (spread.slot_ne (.tail _ lastMem) nextMem).2
    rw [value, lastSlot, if_neg fun both => (notPrev both.1).1 (lastSlot.trans both.2), if_pos rfl]
  · intro hasNext
    rw [freeFormat_prev, freeFormat_nameOf, value, if_pos ⟨hasNext, rfl⟩]
  · intro a mem notLast
    have notSlot := (spread.slot_ne (members a mem) (.tail _ lastMem)).1 notLast
    have notPrev := (spread.slot_ne (members a mem) nextMem).2
    rw [value, if_neg fun both => (notPrev both.1).1 both.2, ← lastSlot, if_neg notSlot]
  · intro a mem notNext
    have nonzero := spread.nonzero a (inside a mem)
    have notSlot := ((spread.slot_ne (.tail _ lastMem) (.tail _ (inside a mem))).2 nonzero).1
    rw [freeFormat_prev, value, if_neg fun both => notNext (Nat.add_right_cancel both.2),
      ← lastSlot, if_neg notSlot.symm]
  · intro address notPool notLink
    rw [value, if_neg, if_neg (notLink _ lastMem).2]
    rintro ⟨hasNext, isPrev⟩
    exact (notLink _ ((List.mem_cons.mp nextMem).resolve_left hasNext)).1 isPrev

/-- Where the links of a chunk to be put into the list and of its neighbours lie. -/
structure Apart (mpool ptr last next : Nat) : Prop where
  slotLast : (freeFormat mpool).slot last ≠ ptr + nextField
  slotLastPrev : (freeFormat mpool).slot last ≠ ptr + prevField
  slotNext : (freeFormat mpool).slot last ≠ next + prevField
  nextPtr : next + prevField ≠ ptr + nextField
  prevPtr : next + prevField ≠ ptr + prevField

theorem Spread.lastOf_mem (spread : Spread mpool (ptr :: (front ++ next :: back)))
    (fresh : ptr ∉ front ++ next :: back) :
    lastOf 0 front ∈ 0 :: (front ++ next :: back) ∧ lastOf 0 front ≠ ptr := by
  have inList : lastOf 0 front ∈ 0 :: (front ++ next :: back) :=
    List.mem_cons.mpr ((List.mem_cons.mp (LinkedRing.lastOf_mem : lastOf 0 front ∈ 0 :: front)).imp
      id (List.mem_append_left _))
  refine ⟨inList, ?_⟩
  rintro rfl
  rcases List.mem_cons.mp inList with zero | mem
  · exact spread.nonzero _ List.mem_cons_self zero
  · exact fresh mem

theorem Spread.between (spread : Spread mpool (ptr :: (front ++ next :: back)))
    (fresh : ptr ∉ front ++ next :: back) : Apart mpool ptr (lastOf 0 front) next := by
  obtain ⟨lastMem, notPtr⟩ := spread.lastOf_mem fresh
  have lastMem' : lastOf 0 front ∈ 0 :: (ptr :: (front ++ next :: back)) :=
    List.mem_cons.mpr ((List.mem_cons.mp lastMem).imp id (List.mem_cons_of_mem ptr))
  have nextMem : next ∈ front ++ next :: back := by simp
  have nonzero := spread.nonzero ptr List.mem_cons_self
  have toPtr := spread.slot_ne lastMem' (.tail _ List.mem_cons_self)
  have toNext := spread.slot_ne lastMem' (.tail _ (.tail _ nextMem))
  have slotPtr : (freeFormat mpool).slot ptr = ptr + nextField := if_neg nonzero
  have different : next ≠ ptr := fun same => fresh (same ▸ nextMem)
  have apart := spread.apart next (.tail _ nextMem) ptr List.mem_cons_self
  refine ⟨slotPtr ▸ toPtr.1 notPtr, (toPtr.2 nonzero).1,
    (toNext.2 (spread.nonzero next (.tail _ nextMem))).1, ?_, ?_⟩
  · simp only [prevField, nextField]
    omega
  · simp only [prevField]
    omega

/-- The four words that `sort` stores to put a chunk in front of `next`. -/
theorem FreeList.putBehind_apply (freeList : FreeList mpool memory (front ++ next :: back))
    (apart : Apart mpool ptr (lastOf 0 front) next) (address : Nat) :
    putBehind mpool ptr (lastOf 0 front) memory address =
      if address = (freeFormat mpool).slot (lastOf 0 front) then ptr
      else if address = next + prevField then ptr
      else if address = ptr + prevField then lastOf 0 front
      else if address = ptr + nextField then next
      else memory address := by
  obtain ⟨slotLast, slotLastPrev, slotNext, nextPtr, prevPtr⟩ := apart
  have prevIs : prevField = 4 := rfl
  have nextIs : nextField = 8 := rfl
  have slot : memory ((freeFormat mpool).slot (lastOf 0 front)) = next := freeList.list.slot
  have prev : memory (next + prevField) = lastOf 0 front := by simpa using freeList.list.prev
  rw [freeFormat_slot] at *
  by_cases isHub : lastOf 0 front = 0
  · simp only [if_pos isHub] at *
    simp only [putBehind, if_pos isHub, slot, write_same]
    simp only [write_apply, isHub]
    split_ifs <;> first | rfl | omega
  · simp only [if_neg isHub] at *
    have kept : memory.write (lastOf 0 front + nextField) ptr (next + prevField) =
        lastOf 0 front := by rw [write_other slotNext.symm, prev]
    simp only [putBehind, if_neg isHub, slot, prev, kept]
    simp only [write_apply]
    split_ifs <;> first | rfl | omega

/-- `sort` puts a chunk into the list. -/
theorem FreeList.putBehind (freeList : FreeList mpool memory (front ++ next :: back))
    (spread : Spread mpool (ptr :: (front ++ next :: back)))
    (fresh : ptr ∉ front ++ next :: back) :
    FreeList mpool (putBehind mpool ptr (lastOf 0 front) memory) (front ++ ptr :: next :: back) ∧
      SameOffList mpool (ptr :: (front ++ next :: back)) memory
        (BestFit.putBehind mpool ptr (lastOf 0 front) memory) := by
  have prevIs : prevField = 4 := rfl
  have nextIs : nextField = 8 := rfl
  have apart := spread.between fresh
  have value := freeList.putBehind_apply apart
  obtain ⟨lastMem, notPtr⟩ := spread.lastOf_mem fresh
  have nonzero := spread.nonzero ptr List.mem_cons_self
  have nextMem : next ∈ front ++ next :: back := by simp
  have slotPtr : (freeFormat mpool).slot ptr = ptr + nextField := if_neg nonzero
  have wide : ∀ a ∈ 0 :: (front ++ next :: back), a ∈ 0 :: (ptr :: (front ++ next :: back)) :=
    fun a mem => List.mem_cons.mpr ((List.mem_cons.mp mem).imp id (List.mem_cons_of_mem ptr))
  have ptrMem : ptr ∈ 0 :: (ptr :: (front ++ next :: back)) := .tail _ List.mem_cons_self
  refine ⟨⟨freeList.list.link nonzero fresh ?_ ?_ ?_ ?_ ?_ ?_, spread.mono ?_⟩, ?_⟩
  any_goals simp only [freeFormat_next, freeFormat_prev, freeFormat_nameOf, headOf_cons, value]
  · rw [if_pos trivial]
  · rw [if_neg apart.slotLast.symm, if_neg apart.nextPtr.symm, if_neg (by omega),
      if_pos trivial]
  · rw [if_neg apart.slotLastPrev.symm, if_neg apart.prevPtr.symm, if_pos trivial]
  · intro _
    rw [if_neg apart.slotNext.symm, if_pos trivial]
  · intro a memA notLast
    have notSlot := (spread.slot_ne (wide a memA) (wide _ lastMem)).1 notLast
    have notPrev := (spread.slot_ne (wide a memA) (wide _ (.tail _ nextMem))).2
      (spread.nonzero next (.tail _ nextMem))
    have toPtr := spread.slot_ne (wide a memA) ptrMem
    have different : a ≠ ptr := by
      rintro rfl
      exact fresh ((List.mem_cons.mp memA).resolve_left nonzero)
    rw [if_neg notSlot, if_neg notPrev.1, if_neg (toPtr.2 nonzero).1,
      if_neg (slotPtr ▸ toPtr.1 different)]
  · intro a memA notNext
    have nonzeroA := spread.nonzero a (.tail _ memA)
    have notSlot := ((spread.slot_ne (wide _ lastMem) (wide a (.tail _ memA))).2 nonzeroA).1
    have different : a ≠ ptr := fun same => fresh (same ▸ memA)
    have apartA := spread.apart a (.tail _ memA) ptr List.mem_cons_self
    rw [if_neg notSlot.symm, if_neg (by omega), if_neg (by omega), if_neg (by omega)]
  · simp only [List.mem_append, List.mem_cons]
    tauto
  · intro address notPool notLink
    have notSlot : address ≠ (freeFormat mpool).slot (lastOf 0 front) := by
      rw [freeFormat_slot]
      split_ifs with isHub
      · exact notPool
      · exact (notLink _ (.tail _ ((List.mem_cons.mp lastMem).resolve_left isHub))).2
    have ofPtr := notLink ptr List.mem_cons_self
    rw [value, if_neg notSlot, if_neg (notLink next (.tail _ nextMem)).1, if_neg ofPtr.1,
      if_neg ofPtr.2]

end Move

section Rounds

/-- A chunk that goes between the chunks that are not larger and those that are
keeps the order. -/
theorem Ascending.insert (ascending : Ascending memory (kept ++ passed))
    (large : ∀ chunk ∈ passed, memory ptr < memory chunk)
    (last : ∀ chunk ∈ kept.getLast?, memory chunk ≤ memory ptr) :
    Ascending memory (kept ++ ptr :: passed) := by
  obtain ⟨ascendingKept, ascendingPassed, across⟩ := List.pairwise_append.mp ascending
  have small : ∀ chunk ∈ kept, memory chunk ≤ memory ptr := by
    cases kept using List.reverseRecOn with
    | nil => simp
    | append_singleton kept final _ =>
        have finalSmall : memory final ≤ memory ptr := last final (by simp)
        have before := (List.pairwise_append.mp ascendingKept).2.2
        intro chunk mem
        rcases List.mem_append.mp mem with inKept | isFinal
        · exact (before chunk inKept final (by simp)).trans finalSmall
        · obtain rfl := List.mem_singleton.mp isFinal
          exact finalSmall
  refine List.pairwise_append.mpr ⟨ascendingKept, ?_, fun chunk inKept other mem => ?_⟩
  · exact List.pairwise_cons.mpr ⟨fun other mem => (large other mem).le, ascendingPassed⟩
  · rcases List.mem_cons.mp mem with rfl | inPassed
    · exact small chunk inKept
    · exact across chunk inKept other inPassed

/-- A chunk that passes larger ones only stays behind those of its size. -/
theorem SameOrder.insert (large : ∀ chunk ∈ passed, memory ptr < memory chunk) :
    SameOrder memory (kept ++ passed ++ [ptr]) (kept ++ ptr :: passed) := by
  intro size
  simp only [List.filter_append, List.filter_cons, List.filter_nil, List.append_assoc]
  by_cases same : memory ptr = size
  · have none : passed.filter (fun chunk => memory chunk = size) = [] := by
      apply List.filter_eq_nil_iff.mpr
      intro chunk mem
      have larger := large chunk mem
      simp only [decide_eq_true_eq]
      omega
    simp [same, none]
  · simp [same]

theorem SameOrder.trans {free'' : List Nat} (first : SameOrder memory free nodes)
    (second : SameOrder memory nodes free'') : SameOrder memory free free'' :=
  fun size => (second size).trans (first size)

theorem SameOrder.append (same : SameOrder memory front nodes) (back : List Nat) :
    SameOrder memory (front ++ back) (nodes ++ back) := by
  intro size
  rw [List.filter_append, List.filter_append, same size]

theorem SameOrder.congr (same : SameOrder memory' free nodes)
    (sizes : ∀ chunk ∈ free, memory' chunk = memory chunk)
    (sizes' : ∀ chunk ∈ nodes, memory' chunk = memory chunk) : SameOrder memory free nodes := by
  intro size
  calc nodes.filter (fun chunk => memory chunk = size)
      = nodes.filter (fun chunk => memory' chunk = size) :=
        List.filter_congr fun chunk mem => by rw [sizes' chunk mem]
    _ = free.filter (fun chunk => memory' chunk = size) := same size
    _ = free.filter (fun chunk => memory chunk = size) :=
        List.filter_congr fun chunk mem => by rw [sizes chunk mem]

/-- One round of the outer loop puts its chunk in its place among those before
it. -/
theorem FreeList.sortRound (freeList : FreeList mpool memory (front ++ ptr :: back))
    (ascending : Ascending memory front) :
    ∃ front' memory',
      (∀ fuel, sortFrom mpool (fuel + 1) ptr memory =
        sortFrom mpool fuel (headOf 0 back) memory') ∧
      FreeList mpool memory' (front' ++ back) ∧
      SameOffList mpool (front ++ ptr :: back) memory memory' ∧
      front'.Perm (front ++ [ptr]) ∧ Ascending memory front' ∧
      SameOrder memory (front ++ [ptr]) front' := by
  have list := freeList.list
  have nonzero : ptr ≠ 0 := list.ne_zero (by simp)
  have nextIs : memory (ptr + nextField) = headOf 0 back := list.next
  have prevIs : memory (ptr + prevField) = lastOf 0 front := by simpa using list.prev
  have short : front.length < addressWords := by
    have short := freeList.length_lt
    simp only [List.length_append] at short
    omega
  obtain ⟨kept, passed, rfl, found, large, last⟩ :=
    sortBack_eq (n := 0) (memory ptr) list short
  have round : ∀ fuel, sortFrom mpool (fuel + 1) ptr memory =
      if passed.length ≠ 0 then sortFrom mpool fuel (headOf 0 back)
        (BestFit.putBehind mpool ptr (lastOf 0 kept) (BestFit.takeOut ptr memory))
      else sortFrom mpool fuel (headOf 0 back) memory := by
    intro fuel
    simp [sortFrom, nonzero, nextIs, prevIs, found]
  have placed := ascending.insert large last
  have order : SameOrder memory (kept ++ passed ++ [ptr]) (kept ++ ptr :: passed) := .insert large
  cases passed with
  | nil =>
      refine ⟨kept ++ [ptr], memory, fun fuel => by simp [round], ?_, fun _ _ _ => rfl, ?_, placed,
        ?_⟩
      · simpa using freeList
      · simp
      · simpa using order
  | cons next passed =>
      have behind : lastOf 0 (kept ++ next :: passed) ≠ 0 := by
        have mem : lastOf 0 (kept ++ next :: passed) ∈ kept ++ next :: passed := by
          rw [lastOf_append_cons]
          exact List.mem_append_right _ LinkedRing.lastOf_mem
        exact list.ne_zero (List.mem_append_left _ mem)
      have fresh : ptr ∉ (kept ++ next :: passed) ++ back :=
        (List.nodup_cons.mp (List.nodup_middle.mp (List.nodup_cons.mp list.nodup).2)).1
      have spread : Spread mpool (ptr :: ((kept ++ next :: passed) ++ back)) :=
        freeList.spread.mono fun a mem => by
          simp only [List.mem_append, List.mem_cons] at mem ⊢
          tauto
      obtain ⟨removed, sameRemoved⟩ := freeList.takeOut behind
      rw [List.append_assoc, List.cons_append] at removed fresh spread
      obtain ⟨result, samePut⟩ := removed.putBehind spread fresh
      refine ⟨kept ++ ptr :: next :: passed, _, fun fuel => (round fuel).trans (if_pos (by simp)),
        by simpa using result, sameRemoved.trans (samePut.mono ?_), ?_, placed, order⟩
      · intro a mem
        simp only [List.mem_append, List.mem_cons] at mem ⊢
        tauto
      · rw [List.append_assoc]
        refine List.Perm.append_left kept ?_
        rw [List.cons_append]
        exact (List.perm_append_singleton _ _).symm

/-- The outer loop ends with all chunks in ascending order. -/
theorem FreeList.sortFrom (freeList : FreeList mpool memory (front ++ back))
    (ascending : Ascending memory front) (enough : back.length < fuel) :
    ∃ free' memory', BestFit.sortFrom mpool fuel (headOf 0 back) memory = some memory' ∧
      FreeList mpool memory' free' ∧ SameOffList mpool (front ++ back) memory memory' ∧
      free'.Perm (front ++ back) ∧ Ascending memory' free' ∧
      SameOrder memory (front ++ back) free' := by
  induction back generalizing front fuel memory with
  | nil =>
      obtain ⟨fuel, rfl⟩ := Nat.exists_eq_add_of_lt enough
      rw [List.append_nil] at freeList ⊢
      exact ⟨front, memory, by simp [BestFit.sortFrom], freeList, fun _ _ _ => rfl, .refl _,
        ascending, fun _ => rfl⟩
  | cons ptr back ih =>
      obtain ⟨fuel, rfl⟩ := Nat.exists_eq_add_one_of_ne_zero (Nat.ne_zero_of_lt enough)
      obtain ⟨front', memory', round, freeList', same, perm, ascending', order⟩ :=
        freeList.sortRound ascending
      have members : ∀ a, a ∈ front' ++ back ↔ a ∈ front ++ ptr :: back := by
        intro a
        simp only [List.mem_append, perm.mem_iff, List.mem_cons,
          List.not_mem_nil, or_false, or_assoc]
      have sizes : ∀ chunk ∈ front' ++ back, memory' chunk = memory chunk := fun chunk mem =>
        same.size freeList.spread ((members chunk).mp mem)
      have sorted : Ascending memory' front' :=
        ascending'.congr fun chunk mem => sizes chunk (List.mem_append_left _ mem)
      obtain ⟨free', memory'', result, freeList'', same', perm', final, order'⟩ :=
        ih freeList' sorted (Nat.lt_of_succ_lt_succ enough)
      refine ⟨free', memory'', (round fuel).trans result, freeList'',
        same.trans (same'.mono fun a => (members a).mp), ?_, final, ?_⟩
      · refine perm'.trans ?_
        simpa using perm.append_right back
      · have first : SameOrder memory (front ++ ptr :: back) (front' ++ back) := by
          simpa using order.append back
        exact first.trans (order'.congr sizes fun chunk mem => sizes chunk (perm'.subset mem))

/-- `sort` of a free list that is not empty. -/
theorem FreeList.sort (freeList : FreeList mpool memory free) (nonempty : free ≠ []) :
    ∃ free' memory', BestFit.sort mpool memory = some memory' ∧
      FreeList mpool memory' free' ∧ SameOffList mpool free memory memory' ∧ free'.Perm free ∧
      Ascending memory' free' ∧ SameOrder memory free free' := by
  obtain ⟨first, back, rfl⟩ := List.exists_cons_of_ne_nil nonempty
  have head : memory mpool = first := freeList.list.head
  have list : (freeFormat mpool).Holds memory ([] ++ first :: back) := freeList.list
  have next : memory (first + nextField) = headOf 0 back := list.next
  have split : FreeList mpool memory ([first] ++ back) := freeList
  by_cases alone : headOf 0 back = 0
  · have empty : back = [] := by
      cases back with
      | nil => rfl
      | cons second back => exact absurd alone (list.ne_zero (by simp))
    subst empty
    exact ⟨[first], memory, by simp [BestFit.sort, head, next], freeList, fun _ _ _ => rfl, .rfl,
      List.pairwise_singleton _ _, fun _ => rfl⟩
  · have enough : back.length < addressWords :=
      (Nat.lt_succ_self _).trans freeList.length_lt
    obtain ⟨free', memory', result, rest⟩ :=
      split.sortFrom (List.pairwise_singleton _ _) enough
    refine ⟨free', memory', ?_, rest⟩
    simp only [BestFit.sort, head, next, if_neg alone, result]

end Rounds

end BestFit

section Pools

variable {block : Block}

/-- The free list of a pool. -/
theorem FirstFit.Frame.freeList (frame : Frame mpool low high memory blocks free) :
    FreeList mpool memory free where
  list := frame.list
  spread :=
    { nonzero := fun a mem => frame.list.ne_zero mem
      apart := fun a mem b mem' => by
        have apart := (frame.nodes_apart mem mem').2
        omega
      pool := fun a mem => by
        have pool := (frame.nodes_apart mem mem).1
        omega
      fits := fun a mem => by
        obtain ⟨block, member, rfl⟩ := frame.listed a mem
        have bounds := frame.bounds member
        omega }

/-- `sort` of the free list of a pool. -/
theorem FirstFit.Frame.sort (frame : Frame mpool low high memory blocks free)
    (nonempty : free ≠ []) :
    ∃ free' memory', BestFit.sort mpool memory = some memory' ∧
      Frame mpool low high memory' blocks free' ∧ SameOffLinks mpool blocks memory memory' ∧
      free'.Perm free ∧ Ascending memory' free' := by
  obtain ⟨free', memory', result, freeList, sameOffList, perm, ascending, -⟩ :=
    frame.freeList.sort nonempty
  have same : SameOffLinks mpool blocks memory memory' := by
    intro address notPool notLink
    apply sameOffList address notPool
    intro a mem
    obtain ⟨block, member, rfl⟩ := frame.listed a mem
    exact notLink block member
  exact ⟨free', memory', result,
    frame.relist same freeList.list fun a mem => frame.listed a (perm.subset mem), same, perm,
    ascending⟩

end Pools

/-- `sort` of any well-formed free list that is not empty ends with a well-formed list of the same
chunks with the same sizes, ascending, and chunks of one size in the order that they had. -/
theorem free_list_sorted (mpool : Nat) (memory : Memory) (free : List Nat)
    (freeList : FreeList mpool memory free) (nonempty : free ≠ []) :
    ∃ free' memory', BestFit.sort mpool memory = some memory' ∧ FreeList mpool memory' free' ∧
      free'.Perm free ∧ Ascending memory' free' ∧ SameOrder memory free free' ∧
      ∀ chunk ∈ free, memory' chunk = memory chunk := by
  obtain ⟨free', memory', result, freeList', same, perm, ascending, order⟩ :=
    freeList.sort nonempty
  exact ⟨free', memory', result, freeList', perm, ascending, order,
    fun chunk mem => same.size freeList.spread mem⟩

/-- A list of three chunks, where the first one is the largest. -/
def unsortedMemory : Memory := fun address =>
  match address with
  | 4096 => 4200
  | 4200 => 32
  | 4208 => 4300
  | 4300 => 16
  | 4304 => 4200
  | 4308 => 4400
  | 4400 => 16
  | 4404 => 4300
  | _ => 0

theorem free_list_sorted_three :
    ∃ free' memory', BestFit.sort 4096 unsortedMemory = some memory' ∧
      FreeList 4096 memory' free' ∧ free'.Perm [4200, 4300, 4400] ∧ Ascending memory' free' ∧
      SameOrder unsortedMemory [4200, 4300, 4400] free' ∧
      ∀ chunk ∈ [4200, 4300, 4400], memory' chunk = unsortedMemory chunk :=
  free_list_sorted 4096 unsortedMemory [4200, 4300, 4400]
    { list := ⟨by simp [LinkedRing.Ring, ListFormat.Linked, ListFormat.slot, ListFormat.nameOf, freeFormat,
        unsortedMemory, prevField, nextField], by decide⟩
      spread := ⟨by decide, by decide, by decide, by decide⟩ }
    (by decide)

end Oseer
