import Oseer.Library.MemoryList
import Oseer.Library.Tiling
import Oseer.Library.WordMemory

/-!
# The first-fit allocator

The functions of `lib/mm/ff_simple.c`, on a memory of 32-bit words.  A chunk
begins with a header word and ends with a tail word; both hold its size, with
the low bit set while the chunk is in use.  A free chunk also keeps the links
of the free list: `prev` in its second word and `next` in its third.  The pool
descriptor is the single word `first`.
-/

namespace Oseer.FirstFit

open WordMemory

/-- `sizeof (size_t)`. -/
def sizeT : Nat := 4

/-- `sizeof (ffs_hdr_t) + sizeof (ffs_tail_t)`. -/
def headerSize : Nat := 16

/-- Offset of `prev` in `ffs_hdr_t`. -/
def prevField : Nat := 4

/-- Offset of `next` in `ffs_hdr_t`. -/
def nextField : Nat := 8

/-- `MARK_USED`. -/
def markUsed (header : Nat) (memory : Memory) : Memory :=
  memory.write header (setBit0 (memory header))

/-- `MARK_FREE`. -/
def markFree (header : Nat) (memory : Memory) : Memory :=
  memory.write header (clearBit0 (memory header))

/-- `CHECK_FREE`. -/
def checkFree (header : Nat) (memory : Memory) : Prop := memory header &&& 1 = 0

instance (header : Nat) (memory : Memory) : Decidable (checkFree header memory) :=
  inferInstanceAs (Decidable (_ = _))

/-- `GET_SIZE`. -/
def getSize (header : Nat) (memory : Memory) : Nat := clearBit0 (memory header)

/-- `GET_AFTER`. -/
def getAfter (header : Nat) (memory : Memory) : Nat :=
  add32 header (getSize header memory)

/-- `GET_TAIL`. -/
def getTail (header : Nat) (memory : Memory) : Nat :=
  sub32 (getAfter header memory) sizeT

/-- `GET_HDR`. -/
def getHdr (tail : Nat) (memory : Memory) : Nat :=
  add32 (sub32 tail (getSize tail memory)) sizeT

/-- `CLONE_SIZE_TO_TAIL`. -/
def cloneSizeToTail (header : Nat) (memory : Memory) : Memory :=
  memory.write (getTail header memory) (memory header)

/-- `ffs_remove_chunk`. -/
def ffsRemoveChunk (mpool chunk : Nat) (memory : Memory) : Memory :=
  let memory :=
    if chunk = memory mpool then
      memory.write mpool (memory (chunk + nextField))
    else
      memory.write (memory (chunk + prevField) + nextField)
        (memory (chunk + nextField))
  if memory (chunk + nextField) ≠ 0 then
    memory.write (memory (chunk + nextField) + prevField)
      (memory (chunk + prevField))
  else
    memory

/-- `ffs_insert_chunk`. -/
def ffsInsertChunk (mpool chunk : Nat) (memory : Memory) : Memory :=
  let memory := memory.write (chunk + nextField) (memory mpool)
  let memory := memory.write (chunk + prevField) 0
  let memory :=
    if memory mpool ≠ 0 then memory.write (memory mpool + prevField) chunk
    else memory
  memory.write mpool chunk

/-- The stores of `ffs_init` that make a border word. -/
def putBorder (border : Nat) (memory : Memory) : Memory :=
  markUsed border (memory.write border sizeT)

/-- The stores of `ffs_init` that make the first chunk. -/
def putChunk (chunk size : Nat) (memory : Memory) : Memory :=
  cloneSizeToTail chunk (markFree chunk (memory.write chunk size))

/-- `ffs_init`: the returned descriptor (zero for `NULL`) and the memory, or
nothing when the assertion stops the program. -/
def ffsInit (segment size : Nat) (memory : Memory) : Option (Nat × Memory) :=
  if segment ≠ 0 ∧ 12 * 2 < size then
    let finish := add32 segment size
    let start := alignUp segment
    let mpool := start
    let start := add32 start sizeT
    let finish := alignDown finish
    let memory := memory.write mpool 0
    if sub32 finish start < 2 * headerSize then some (0, memory)
    else
      let border := start
      let memory := putBorder border memory
      let chunk := getAfter border memory
      let memory := putChunk chunk (sub32 (sub32 finish start) (2 * sizeT)) memory
      let border := getAfter chunk memory
      let memory := putBorder border memory
      some (mpool, ffsInsertChunk mpool chunk memory)
  else none

/-- The search loop of `ffs_alloc`: the first chunk from `iter` on that is
large enough, or zero.  Nothing is returned when the loop takes more than
`fuel` steps. -/
def ffsSearch (memory : Memory) (size : Nat) : Nat → Nat → Option Nat
  | 0, _ => none
  | fuel + 1, iter =>
      if iter ≠ 0 ∧ memory iter < size then
        ffsSearch memory size fuel (memory (iter + nextField))
      else some iter

/-- Number of words in the address space: no list of chunks is longer. -/
def addressWords : Nat := 2 ^ 30

/-- The chunk size that `ffs_alloc` looks for. -/
def requestSize (size : Nat) : Nat :=
  let size := add32 size (sizeT * 2)
  let size := if size < headerSize then headerSize else size
  alignUp size

/-- `ffs_alloc`: the address of the block (zero for `NULL`) and the memory. -/
def ffsAlloc (mpool size : Nat) (memory : Memory) : Option (Nat × Memory) := do
  let size := requestSize size
  let iter ← ffsSearch memory size addressWords (memory mpool)
  if iter = 0 then
    return (0, memory)
  let taken :=
    if add32 size headerSize ≤ memory iter then
      -- the first part stays in the free list
      let memory := memory.write iter (sub32 (memory iter) size)
      let memory := cloneSizeToTail iter memory
      let chunk := getAfter iter memory
      (chunk, memory.write chunk size)
    else
      (iter, ffsRemoveChunk mpool iter memory)
  let chunk := taken.1
  let memory := cloneSizeToTail chunk (markUsed chunk taken.2)
  return (add32 chunk sizeT, memory)

/-- The part of `ffs_free` that joins a chunk with a free one on its left. -/
def joinLeft (mpool chunk : Nat) (memory : Memory) : Nat × Memory :=
  let before := sub32 chunk sizeT
  if checkFree before memory then
    let before := getHdr before memory
    let memory := ffsRemoveChunk mpool before memory
    (before, memory.write before (add32 (memory before) (memory chunk)))
  else (chunk, memory)

/-- The part of `ffs_free` that joins a chunk with a free one on its right. -/
def joinRight (mpool chunk : Nat) (memory : Memory) : Memory :=
  let after := getAfter chunk memory
  if checkFree after memory then
    let memory := ffsRemoveChunk mpool after memory
    memory.write chunk (add32 (memory chunk) (memory after))
  else memory

/-- `ffs_free`. -/
def ffsFree (mpool block : Nat) (memory : Memory) : Memory :=
  let chunk := sub32 block sizeT
  let memory := markFree chunk memory
  let joined := joinLeft mpool chunk memory
  let chunk := joined.1
  let memory := joinRight mpool chunk joined.2
  let memory := ffsInsertChunk mpool chunk memory
  cloneSizeToTail chunk memory

end Oseer.FirstFit
