import Oseer.FirstFitRun

/-!
# The best-fit allocator

The functions of `lib/mm/bf.c` of the memory-management chapter.  Chunks,
borders, macros and `bf_remove_chunk` are those of `ff_simple`, word for word,
and so is the allocation; what differs is that putting a chunk into the free
list is followed by an insertion sort of the whole list by chunk size.
-/

namespace Oseer.BestFit

open WordMemory FirstFit

/-- The inner loop of `sort`: walk back from `tmp` over the chunks larger than
`size`, counting them in `n`.  Nothing is returned when the loop takes more
than `fuel` steps. -/
def sortBack (memory : Memory) (size : Nat) : Nat → Nat → Nat → Option (Nat × Nat)
  | 0, _, _ => none
  | fuel + 1, tmp, n =>
      if tmp ≠ 0 ∧ size < memory tmp then
        sortBack memory size fuel (memory (tmp + prevField)) (n + 1)
      else some (tmp, n)

/-- The part of `sort` that takes `ptr` out of its place. -/
def takeOut (ptr : Nat) (memory : Memory) : Memory :=
  let memory := memory.write (memory (ptr + prevField) + nextField)
    (memory (ptr + nextField))
  if memory (ptr + nextField) ≠ 0 then
    memory.write (memory (ptr + nextField) + prevField) (memory (ptr + prevField))
  else memory

/-- The part of `sort` that puts `ptr` behind `tmp`, or first for `NULL`. -/
def putBehind (mpool ptr tmp : Nat) (memory : Memory) : Memory :=
  if tmp = 0 then
    let tmp := memory mpool
    let memory := memory.write (ptr + prevField) 0
    let memory := memory.write (ptr + nextField) tmp
    let memory := memory.write (memory (ptr + nextField) + prevField) ptr
    memory.write mpool ptr
  else
    let tmp := memory (tmp + nextField)
    let memory := memory.write (memory (tmp + prevField) + nextField) ptr
    let memory := memory.write (ptr + prevField) (memory (tmp + prevField))
    let memory := memory.write (tmp + prevField) ptr
    memory.write (ptr + nextField) tmp

/-- The outer loop of `sort`, from the chunk `cur` on. -/
def sortFrom (mpool : Nat) : Nat → Nat → Memory → Option Memory
  | 0, _, _ => none
  | fuel + 1, cur, memory =>
      if cur ≠ 0 then do
        let ptr := cur
        let cur := memory (ptr + nextField)
        let found ← sortBack memory (memory ptr) addressWords
          (memory (ptr + prevField)) 0
        if found.2 ≠ 0 then
          sortFrom mpool fuel cur (putBehind mpool ptr found.1 (takeOut ptr memory))
        else
          sortFrom mpool fuel cur memory
      else some memory

/-- `sort`. -/
def sort (mpool : Nat) (memory : Memory) : Option Memory :=
  let cur := memory mpool
  if memory (cur + nextField) = 0 then some memory
  else sortFrom mpool addressWords (memory (cur + nextField)) memory

/-- `bf_insert_chunk`. -/
def bfInsertChunk (mpool chunk : Nat) (memory : Memory) : Option Memory :=
  sort mpool (ffsInsertChunk mpool chunk memory)

/-- `bf_init`: the returned descriptor (zero for `NULL`) and the memory, or
nothing when the assertion stops the program. -/
def bfInit (segment size : Nat) (memory : Memory) : Option (Nat × Memory) :=
  if segment ≠ 0 ∧ 12 * 2 < size then
    let finish := add32 segment size
    let start := alignUp segment
    let mpool := start
    let start := add32 start sizeT
    let finish := alignDown finish
    let memory := memory.write mpool 0
    if sub32 finish start < 2 * headerSize then some (0, memory)
    else do
      let border := start
      let memory := putBorder border memory
      let chunk := getAfter border memory
      let memory := putChunk chunk (sub32 (sub32 finish start) (2 * sizeT)) memory
      let border := getAfter chunk memory
      let memory := putBorder border memory
      let memory ← bfInsertChunk mpool chunk memory
      return (mpool, memory)
  else none

/-- `bf_alloc`, which reads as `ffs_alloc` does: the address of the block (zero
for `NULL`) and the memory. -/
def bfAlloc (mpool size : Nat) (memory : Memory) : Option (Nat × Memory) :=
  ffsAlloc mpool size memory

/-- `bf_free`.  Its last loop only prints the sizes of the free chunks. -/
def bfFree (mpool block : Nat) (memory : Memory) : Option Memory := do
  let chunk := sub32 block sizeT
  let memory := markFree chunk memory
  let joined := joinLeft mpool chunk memory
  let chunk := joined.1
  let memory := joinRight mpool chunk joined.2
  let memory ← bfInsertChunk mpool chunk memory
  return cloneSizeToTail chunk memory

end Oseer.BestFit
