import Oseer.Library.Bitmap
import Oseer.Library.WordMemory

/-!
# The grid allocator

The macros of `lib/mm/gma.h` and the functions of `lib/mm/gma.c`, on a memory
of 32-bit words.  A chunk is named by the address of its `mchunk_t`, whose
first word `bsize` still belongs to the chunk before it.  Two flags share the
word `size` with the size of the chunk: `CINUSE` for the chunk itself and
`BINUSE` for the chunk before it.  Free chunks are kept in a grid of lists,
with one bitmap for the rows of the grid and one bitmap for each row.
-/

namespace Oseer.Grid

open WordMemory Bitmap

section Fields

/-- `sizeof (size_t)`. -/
def sizeT : Nat := 4

/-- Offset of `size` in `mchunk_t`; `bsize` has offset zero. -/
def sizeField : Nat := 4

/-- Offset of `prev` in `mchunk_t`. -/
def prevField : Nat := 8

/-- Offset of `next` in `mchunk_t`. -/
def nextField : Nat := 12

/-- Offset of `fl_max` in `gma_t`; `fl_min` has offset zero. -/
def flMaxField : Nat := 4

/-- Offset of `min_chunk_size` in `gma_t`. -/
def minChunkField : Nat := 8

/-- Offset of `FL_bitmap` in `gma_t`. -/
def flBitmapField : Nat := 12

/-- Offset of `SL_bitmap` in `gma_t`. -/
def slBitmapField : Nat := 16

/-- Offset of `chunk` in `gma_t`. -/
def chunkField : Nat := 20

/-- `sizeof (gma_t)`. -/
def gmaT : Nat := 24

/-- `L`. -/
def logSLDim : Nat := 5

/-- `SL_DIM`. -/
def slDim : Nat := 32

/-- `BINUSE`. -/
def binuse : Nat := 1

/-- `CINUSE`. -/
def cinuse : Nat := 2

/-- `MIN_CHUNK_SIZE`, the size of an `mchunk_t`. -/
def minChunkSize : Nat := 16

/-- `MAX_CHUNK_SIZE`. -/
def maxChunkSize : Nat := 0xfffffffc

/-- `DEF_MIN_CHUNK_SIZE`. -/
def defMinChunkSize : Nat := 32

/-- `MIN_POOL_SIZE`. -/
def minPoolSize : Nat := gmaT + 1 * sizeT + 1 * slDim * sizeT + minChunkSize

/-- `EXACT_LIMIT_SIZE`. -/
def exactLimitSize : Nat := 256

/-- `BORDER_CHUNK_SIZE`. -/
def borderChunkSize : Nat := 4

/-- `BORDER_CHUNK`. -/
def borderChunk : Nat := 6

end Fields

section Macros

/-- `GET_CHUNK_SIZE`. -/
def getChunkSize (chunk : Nat) (memory : Memory) : Nat :=
  alignDown (memory (chunk + sizeField))

/-- `SET_CHUNK_SIZE`. -/
def setChunkSize (chunk size : Nat) (memory : Memory) : Memory :=
  memory.write (chunk + sizeField) (size ||| (memory (chunk + sizeField) &&& 3))

/-- `GET_CHUNK_INUSE`. -/
def getChunkInuse (chunk : Nat) (memory : Memory) : Nat :=
  memory (chunk + sizeField) &&& cinuse

/-- `SET_CHUNK_INUSE`. -/
def setChunkInuse (chunk : Nat) (memory : Memory) : Memory :=
  memory.write (chunk + sizeField) (memory (chunk + sizeField) ||| cinuse)

/-- `CLEAR_CHUNK_INUSE`. -/
def clearChunkInuse (chunk : Nat) (memory : Memory) : Memory :=
  memory.write (chunk + sizeField) (memory (chunk + sizeField) &&& not32 cinuse)

/-- `GET_CHUNK_BINUSE`. -/
def getChunkBinuse (chunk : Nat) (memory : Memory) : Nat :=
  memory (chunk + sizeField) &&& binuse

/-- `SET_CHUNK_BINUSE`. -/
def setChunkBinuse (chunk : Nat) (memory : Memory) : Memory :=
  memory.write (chunk + sizeField) (memory (chunk + sizeField) ||| binuse)

/-- `CLEAR_CHUNK_BINUSE`. -/
def clearChunkBinuse (chunk : Nat) (memory : Memory) : Memory :=
  memory.write (chunk + sizeField) (memory (chunk + sizeField) &&& not32 binuse)

/-- `GET_CHUNK_BEFORE`: zero for `NULL`. -/
def getChunkBefore (chunk : Nat) (memory : Memory) : Nat :=
  if getChunkBinuse chunk memory ≠ 0 then 0
  else sub32 chunk (alignDown (memory chunk))

/-- `GET_CHUNK_AFTER`. -/
def getChunkAfter (chunk : Nat) (memory : Memory) : Nat :=
  add32 chunk (getChunkSize chunk memory)

/-- `SET_CHUNK_IN_USE`. -/
def setChunkInUse (chunk : Nat) (memory : Memory) : Memory :=
  let memory := setChunkInuse chunk memory
  setChunkBinuse (getChunkAfter chunk memory) memory

/-- `CLONE_CHUNK_SIZE`. -/
def cloneChunkSize (chunk : Nat) (memory : Memory) : Memory :=
  memory.write (getChunkAfter chunk memory) (memory (chunk + sizeField))

/-- `JOIN_CHUNKS`, whose value is its first argument. -/
def joinChunks (first second : Nat) (memory : Memory) : Memory :=
  setChunkSize first (add32 (getChunkSize first memory) (getChunkSize second memory)) memory

/-- `GET_CHUNK_PREV`. -/
def getChunkPrev (chunk : Nat) (memory : Memory) : Nat :=
  clearBit0 (memory (chunk + prevField))

/-- `IS_CHUNK_FIRST_IN_LIST`. -/
def isChunkFirstInList (chunk : Nat) (memory : Memory) : Prop :=
  memory (chunk + prevField) &&& 1 ≠ 0

instance (chunk : Nat) (memory : Memory) : Decidable (isChunkFirstInList chunk memory) :=
  inferInstanceAs (Decidable (_ ≠ _))

/-- `SET_CHUNK_FIRST_IN_LIST`. -/
def setChunkFirstInList (chunk : Nat) (memory : Memory) : Memory :=
  memory.write (chunk + prevField) (setBit0 (memory (chunk + prevField)))

/-- `IS_BORDER_CHUNK`. -/
def isBorderChunk (chunk : Nat) (memory : Memory) : Prop :=
  getChunkSize chunk memory = borderChunkSize

instance (chunk : Nat) (memory : Memory) : Decidable (isBorderChunk chunk memory) :=
  inferInstanceAs (Decidable (_ = _))

/-- `SET_BORDER_CHUNK`. -/
def setBorderChunk (chunk : Nat) (memory : Memory) : Memory :=
  cloneChunkSize chunk (memory.write (chunk + sizeField) borderChunk)

end Macros

section Lists

/-- The first part of `insert_chunk_in_list`: the chunk becomes the first
element of the list. -/
def linkChunk (list chunk : Nat) (memory : Memory) : Memory :=
  let memory := memory.write (chunk + nextField) (memory list)
  let memory :=
    if memory list ≠ 0 then memory.write (memory list + prevField) chunk else memory
  let memory := memory.write list chunk
  let memory := memory.write (chunk + prevField) list
  setChunkFirstInList chunk memory

/-- `insert_chunk_in_list`. -/
def insertChunkInList (list chunk : Nat) (memory : Memory) : Memory :=
  let memory := linkChunk list chunk memory
  let memory := clearChunkInuse chunk memory
  let memory := cloneChunkSize chunk memory
  clearChunkBinuse (getChunkAfter chunk memory) memory

/-- `remove_chunk_from_list`: one when the list is empty afterwards, as far as
the routine looks, and the memory. -/
def removeChunkFromList (chunk : Nat) (memory : Memory) : Nat × Memory :=
  if isChunkFirstInList chunk memory then
    let list := getChunkPrev chunk memory
    let memory := memory.write list (memory (chunk + nextField))
    if memory list ≠ 0 then
      let first := memory list
      (0, setChunkFirstInList first (memory.write (first + prevField) list))
    else (1, memory)
  else
    let memory := memory.write (memory (chunk + prevField) + nextField)
      (memory (chunk + nextField))
    if memory (chunk + nextField) ≠ 0 then
      (0, memory.write (memory (chunk + nextField) + prevField) (memory (chunk + prevField)))
    else (0, memory)

/-- `split_chunk_at`: the remainder and the memory. -/
def splitChunkAt (chunk size : Nat) (memory : Memory) : Nat × Memory :=
  let remainder := add32 chunk size
  let memory := memory.write (remainder + sizeField) 0
  let memory := setChunkSize remainder (sub32 (getChunkSize chunk memory) size) memory
  (remainder, setChunkSize chunk size memory)

end Lists

section Grid

/-- The address of `SL_bitmap[fl]`. -/
def slBitmapAt (mpool fl : Nat) (memory : Memory) : Nat :=
  add32 (memory (mpool + slBitmapField)) (sizeT * fl)

/-- The address of `chunk[fl][sl]`. -/
def listAt (mpool fl sl : Nat) (memory : Memory) : Nat :=
  add32 (memory (mpool + chunkField)) (sizeT * (slDim * fl + sl))

/-- What `get_indexes` returns and stores: whether the size is out of range,
and the two indexes.  On failure `sl` may keep the value of the caller, which
is zero. -/
structure Indexes where
  failed : Bool
  fl : Nat
  sl : Nat
deriving DecidableEq, Repr

/-- The size that `get_indexes` works with: a search rounds it up. -/
def searchSize (size : Nat) : Nat :=
  if exactLimitSize ≤ size then
    add32 size (sub32 (shl32 1 (sub32 (msbIndex size) logSLDim)) 1)
  else size

/-- The last part of `get_indexes`: the first list with a chunk, from the
calculated one on. -/
def searchIndexes (mpool fl sl : Nat) (memory : Memory) : Indexes :=
  let bits := memory (slBitmapAt mpool fl memory) &&& shl32 0xffffffff sl
  if bits ≠ 0 then ⟨false, fl, lsbIndex bits⟩
  else
    let bits := memory (mpool + flBitmapField) &&& shl32 0xffffffff (add32 fl 1)
    if bits = 0 then ⟨true, fl, sl⟩
    else
      let fl := lsbIndex bits
      ⟨false, fl, lsbIndex (memory (slBitmapAt mpool fl memory))⟩

/-- `get_indexes`. -/
def getIndexes (mpool size : Nat) (ins : Bool) (memory : Memory) : Indexes :=
  let size := if ins then size else searchSize size
  let fl := msbIndex size
  if memory (mpool + flMaxField) < fl then ⟨true, fl, 0⟩
  else
    let sl := sub32 (shr32 size (sub32 fl logSLDim)) (shl32 1 logSLDim)
    let fl := sub32 fl (memory mpool)
    if ins then ⟨false, fl, sl⟩ else searchIndexes mpool fl sl memory

/-- `set_list_have_chunks`. -/
def setListHaveChunks (mpool fl sl : Nat) (memory : Memory) : Memory :=
  let row := slBitmapAt mpool fl memory
  let memory := memory.write row (memory row ||| shl32 1 sl)
  memory.write (mpool + flBitmapField) (memory (mpool + flBitmapField) ||| shl32 1 fl)

/-- `clear_list_have_chunks`. -/
def clearListHaveChunks (mpool fl sl : Nat) (memory : Memory) : Memory :=
  let row := slBitmapAt mpool fl memory
  let memory := memory.write row (memory row &&& not32 (shl32 1 sl))
  if memory row = 0 then
    memory.write (mpool + flBitmapField)
      (memory (mpool + flBitmapField) &&& not32 (shl32 1 fl))
  else memory

/-- `insert_chunk_in_free_list`. -/
def insertChunkInFreeList (mpool chunk : Nat) (memory : Memory) : Memory :=
  let indexes := getIndexes mpool (getChunkSize chunk memory) true memory
  let memory :=
    insertChunkInList (listAt mpool indexes.fl indexes.sl memory) chunk memory
  setListHaveChunks mpool indexes.fl indexes.sl memory

/-- `remove_chunk_from_free_list`. -/
def removeChunkFromFreeList (mpool chunk : Nat) (memory : Memory) : Memory :=
  let removed := removeChunkFromList chunk memory
  let memory := removed.2
  if removed.1 ≠ 0 then
    let indexes := getIndexes mpool (getChunkSize chunk memory) true memory
    clearListHaveChunks mpool indexes.fl indexes.sl memory
  else memory

/-- `remove_first_chunk_from_free_list`: the chunk and the memory. -/
def removeFirstChunkFromFreeList (mpool fl sl : Nat) (memory : Memory) : Nat × Memory :=
  let chunk := memory (listAt mpool fl sl memory)
  let removed := removeChunkFromList chunk memory
  let memory := removed.2
  (chunk, if removed.1 ≠ 0 then clearListHaveChunks mpool fl sl memory else memory)

end Grid

section Calls

/-- The pool descriptor that a call works on; `pool` is the address of the
static one. -/
def poolOf (pool mpool : Nat) : Nat := if mpool = 0 then pool else mpool

/-- The chunk size that `gma_alloc` looks for. -/
def requestSize (mpool size : Nat) (memory : Memory) : Nat :=
  let size := alignUp (add32 size sizeT)
  if size < memory (mpool + minChunkField) then memory (mpool + minChunkField) else size

/-- The part of `gma_alloc` that splits a chunk and puts its end back. -/
def allocSplit (mpool chunk size : Nat) (memory : Memory) : Option Memory :=
  if add32 size (memory (mpool + minChunkField)) ≤ getChunkSize chunk memory then
    let split := splitChunkAt chunk size memory
    let remainder := split.1
    if 4 ∣ chunk ∧ 4 ∣ remainder then
      some (insertChunkInFreeList mpool remainder split.2)
    else none
  else some memory

/-- `gma_alloc`: the address of the block (zero for `NULL`) and the memory, or
nothing when an assertion stops the program. -/
def gmaAlloc (pool mpool size : Nat) (memory : Memory) : Option (Nat × Memory) :=
  if 0 < size ∧ size < maxChunkSize then
    let mpool := poolOf pool mpool
    let size := requestSize mpool size memory
    let indexes := getIndexes mpool size false memory
    if indexes.failed then some (0, memory)
    else
      let taken := removeFirstChunkFromFreeList mpool indexes.fl indexes.sl memory
      let chunk := taken.1
      if chunk = 0 then some (0, taken.2)
      else if 4 ∣ chunk then do
        let memory ← allocSplit mpool chunk size taken.2
        return (add32 chunk (2 * sizeT), setChunkInUse chunk memory)
      else none
  else none

/-- The part of `gma_free` that joins a chunk with a free one before it. -/
def joinBefore (mpool chunk : Nat) (memory : Memory) : Nat × Memory :=
  let before := getChunkBefore chunk memory
  if before ≠ 0 ∧ getChunkInuse before memory = 0 then
    let memory := removeChunkFromFreeList mpool before memory
    (before, joinChunks before chunk memory)
  else (chunk, memory)

/-- The part of `gma_free` that joins a chunk with a free one after it. -/
def joinAfter (mpool chunk : Nat) (memory : Memory) : Memory :=
  let after := getChunkAfter chunk memory
  if after ≠ 0 ∧ getChunkInuse after memory = 0 then
    let memory := removeChunkFromFreeList mpool after memory
    joinChunks chunk after memory
  else memory

/-- `gma_free`: the memory, or nothing when an assertion stops the program.
The result of the routine is always zero. -/
def gmaFree (pool mpool address : Nat) (memory : Memory) : Option Memory :=
  let chunk := sub32 address (2 * sizeT)
  if address ≠ 0 ∧ getChunkInuse chunk memory ≠ 0 ∧ ¬ isBorderChunk chunk memory ∧
      4 ∣ chunk then
    let mpool := poolOf pool mpool
    let joined := joinBefore mpool chunk (clearChunkInuse chunk memory)
    let chunk := joined.1
    if 4 ∣ chunk then
      some (insertChunkInFreeList mpool chunk (joinAfter mpool chunk joined.2))
    else none
  else none

end Calls

section Init

/-- The loop of `gma_init` that clears the bitmaps of the rows. -/
def clearBitmaps (mpool : Nat) : Nat → Memory → Memory
  | 0, memory => memory
  | levels + 1, memory =>
      let memory := clearBitmaps mpool levels memory
      memory.write (slBitmapAt mpool levels memory) 0

/-- The inner loop of `gma_init` that clears the lists of one row. -/
def clearRow (mpool fl : Nat) : Nat → Memory → Memory
  | 0, memory => memory
  | columns + 1, memory =>
      let memory := clearRow mpool fl columns memory
      memory.write (listAt mpool fl columns memory) 0

/-- The loop of `gma_init` that clears the lists. -/
def clearLists (mpool : Nat) : Nat → Memory → Memory
  | 0, memory => memory
  | levels + 1, memory => clearRow mpool levels slDim (clearLists mpool levels memory)

/-- `make_first_chunk`: the address of the block of the first chunk and the
memory, or nothing when its assertion stops the program. -/
def makeFirstChunk (addr size : Nat) (memory : Memory) : Option (Nat × Memory) :=
  if addr ≠ 0 ∧ borderChunkSize * 2 + minChunkSize < size ∧ 4 ∣ addr then
    let memory := setBorderChunk (sub32 addr sizeT) memory
    let chunk := sub32 (add32 addr borderChunkSize) sizeT
    let memory := setChunkSize chunk (sub32 size (2 * borderChunkSize)) memory
    let memory := setChunkBinuse chunk (setChunkInuse chunk memory)
    let border := sub32 (sub32 (add32 addr size) borderChunkSize) sizeT
    let memory := setChunkBinuse border (setBorderChunk border memory)
    some (add32 chunk (2 * sizeT), memory)
  else none

/-- The smallest chunk size that `gma_init` settles on. -/
def usedMinChunkSize (size : Nat) : Nat :=
  let size := if size = 0 then defMinChunkSize else size
  if minChunkSize ≤ size then size else minChunkSize

/-- `gma_init`: the pool descriptor and the memory, or nothing when an
assertion stops the program.  `FL_bitmap` keeps the value it has in memory. -/
def gmaInit (pool segment size minChunk : Nat) (newMpool : Bool) (memory : Memory) :
    Option (Nat × Memory) :=
  let addr := alignUp segment
  let finish := alignDown (add32 segment size)
  if segment ≠ 0 ∧ minPoolSize ≤ sub32 finish addr then do
    let mpool := if newMpool then addr else pool
    let addr := if newMpool then alignUp (add32 addr gmaT) else addr
    let memory := memory.write (mpool + minChunkField) (usedMinChunkSize minChunk)
    let memory := memory.write mpool (msbIndex (memory (mpool + minChunkField)))
    let memory := memory.write (mpool + flMaxField) (msbIndex size)
    let levels := add32 (sub32 (memory (mpool + flMaxField)) (memory mpool)) 1
    let memory := memory.write (mpool + slBitmapField) addr
    let addr := alignUp (add32 addr (sizeT * levels))
    let memory := clearBitmaps mpool levels memory
    let memory := memory.write (mpool + chunkField) addr
    let addr := alignUp (add32 addr (sizeT * slDim * levels))
    let memory := clearLists mpool levels memory
    let first ← makeFirstChunk addr (sub32 finish addr) memory
    let memory ← gmaFree pool mpool first.1 first.2
    return (mpool, memory)
  else none

end Init

end Oseer.Grid
